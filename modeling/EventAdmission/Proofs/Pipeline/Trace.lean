import EventAdmission.Proofs.Pipeline.Setup

/-!
# What the log says of a validator that is set up

Each strategy of a pipeline is announced in the log, and then come the records
of its own materialization: `StepLog` says which, and `PipelineLog` puts them
one after the other. `setup_traced`: the log of setting up a validator goes
through the pipeline as far as the first strategy that fails, and tells of a
finished validator at its end if none does.
-/

namespace EventAdmission

namespace LogRecord

def materialized? : LogRecord → Option String
  | strategyMaterialized _ name => some name
  | _ => none

def isBuilt : LogRecord → Bool
  | validatorBuilt .. => true
  | _ => false

/-- A record of neither kind, as strategies leave them. -/
def IsPlain (record : LogRecord) : Prop := record.materialized? = none ∧ record.isBuilt = false

end LogRecord

variable {r : Registry} {t : EventType} {v : Validation} {s : Strategy} {draft : Draft}
  {name : String} {names : List String} {checks : List EventCheck} {records step : List LogRecord}

-- ---------------------------------------------------------------------------
-- One strategy
-- ---------------------------------------------------------------------------

def enrichmentLog (t : EventType) (effective : Json) : List LogRecord :=
  if t.category = .undefined then []
  else [.schemaEnriched t.name t.category ((effective.member? "required").getD .null)]

def slowPatternLog (effective : Json) : List LogRecord :=
  (Schema.backtrackingPatterns effective).map .slowPattern

inductive StepLog (t : EventType) : Strategy → List LogRecord → Prop
  | refused {draft : Draft} {e : EnrichmentError}
      (h : Enrichment.enrich t.category t.schema t.name = .error e) :
      StepLog t (.schemaConformance draft) []
  | uncompiled {draft : Draft} {effective : Json} {e : CompileError}
      (h : Enrichment.enrich t.category t.schema t.name = .ok effective)
      (hc : Schema.compile draft effective = .error e) :
      StepLog t (.schemaConformance draft) (enrichmentLog t effective ++ slowPatternLog effective)
  | compiled {draft : Draft} {effective : Json} {c : CompiledSchema}
      (h : Enrichment.enrich t.category t.schema t.name = .ok effective)
      (hc : Schema.compile draft effective = .ok c) :
      StepLog t (.schemaConformance draft) (enrichmentLog t effective ++
        (slowPatternLog effective ++ [.schemaCompiled t.name t.category]))
  | metadata : StepLog t .metadataCrossField []
  | declared (h : ∀ field ∈ t.significantFields, DeclaredField.isDeclared t.schema field = true) :
      StepLog t .fieldPresence []
  | undeclared {before after : List String} {field : String}
      (h : t.significantFields = before ++ field :: after)
      (hbefore : ∀ earlier ∈ before, DeclaredField.isDeclared t.schema earlier = true)
      (hfield : DeclaredField.isDeclared t.schema field = false) :
      StepLog t .fieldPresence [.fieldUndeclared t.name field]

theorem records_enrichLogged_ok {effective : Json}
    (h : Enrichment.enrich t.category t.schema t.name = .ok effective) :
    (Enrichment.enrichLogged t.category t.schema t.name).records = enrichmentLog t effective := by
  simp only [Enrichment.enrichLogged, h, enrichmentLog]
  cases t.category <;> rfl

theorem records_enrichLogged_error {e : EnrichmentError}
    (h : Enrichment.enrich t.category t.schema t.name = .error e) :
    (Enrichment.enrichLogged t.category t.schema t.name).records = [] := by
  simp only [Enrichment.enrichLogged, h]
  cases t.category <;> rfl

theorem conformance_log : StepLog t (.schemaConformance draft)
    ((Strategy.schemaConformance draft).materialize t).records := by
  simp only [Strategy.materialize, Strategy.materializeConformance]
  cases he : Enrichment.enrich t.category t.schema t.name with
  | error e =>
    have hresult : ((Enrichment.enrichLogged t.category t.schema t.name).map
        (Except.mapError SchemaError.enrichment)).result = .error (.enrichment e) := by
      simp only [Logged.result_map, result_enrichLogged, he]
      rfl
    rw [Logged.records_andThen_error hresult, Logged.records_map, records_enrichLogged_error he]
    exact .refused he
  | ok effective =>
    have hresult : ((Enrichment.enrichLogged t.category t.schema t.name).map
        (Except.mapError SchemaError.enrichment)).result = .ok effective := by
      simp only [Logged.result_map, result_enrichLogged, he]
      rfl
    rw [Logged.records_andThen_ok hresult, Logged.records_map, records_enrichLogged_ok he]
    cases hc : Schema.compile draft effective with
    | error e =>
      simp only [Strategy.compileLogged, hc]
      exact .uncompiled he hc
    | ok c =>
      simp only [Strategy.compileLogged, hc]
      exact .compiled he hc

theorem presence_log : StepLog t .fieldPresence (Strategy.fieldPresence.materialize t).records := by
  simp only [Strategy.materialize]
  cases hfield : Strategy.missingField? t with
  | none =>
    refine .declared fun field hmem => ?_
    simpa using List.find?_eq_none.mp hfield field hmem
  | some field =>
    obtain ⟨hundeclared, before, after, hsplit, hbefore⟩ := List.find?_eq_some_iff_append.mp hfield
    exact .undeclared hsplit (by simpa using hbefore) (by simpa using hundeclared)

theorem materialize_log : StepLog t s (s.materialize t).records := by
  cases s with
  | schemaConformance draft => exact conformance_log
  | metadataCrossField => exact .metadata
  | fieldPresence => exact presence_log

theorem enrichmentLog_plain {effective : Json} :
    ∀ record ∈ enrichmentLog t effective, record.IsPlain := by
  unfold enrichmentLog
  split
  · exact List.forall_mem_nil _
  · exact List.forall_mem_singleton.mpr ⟨rfl, rfl⟩

theorem slowPatternLog_plain {effective : Json} :
    ∀ record ∈ slowPatternLog effective, record.IsPlain := by
  intro record hr
  obtain ⟨pattern, -, rfl⟩ := List.mem_map.mp hr
  exact ⟨rfl, rfl⟩

theorem StepLog.plain (h : StepLog t s step) : ∀ record ∈ step, record.IsPlain := by
  cases h with
  | refused | metadata | declared => exact List.forall_mem_nil _
  | uncompiled => exact List.forall_mem_append.mpr ⟨enrichmentLog_plain, slowPatternLog_plain⟩
  | compiled =>
    refine List.forall_mem_append.mpr ⟨enrichmentLog_plain, ?_⟩
    exact List.forall_mem_append.mpr
      ⟨slowPatternLog_plain, List.forall_mem_singleton.mpr ⟨rfl, rfl⟩⟩
  | undeclared => exact List.forall_mem_singleton.mpr ⟨rfl, rfl⟩

-- ---------------------------------------------------------------------------
-- A pipeline
-- ---------------------------------------------------------------------------

inductive PipelineLog (r : Registry) (t : EventType) : List String → List LogRecord → Prop
  | nil : PipelineLog r t [] []
  | cons {name : String} {names : List String} {s : Strategy} {step rest : List LogRecord}
      (hs : r.get name = .ok s) (hstep : StepLog t s step) (hrest : PipelineLog r t names rest) :
      PipelineLog r t (name :: names) (.strategyMaterialized t.name name :: (step ++ rest))

theorem PipelineLog.materialized (h : PipelineLog r t names records) :
    records.filterMap LogRecord.materialized? = names := by
  induction h with
  | nil => rfl
  | @cons name names s step rest hs hstep hrest ih =>
    have hname : (LogRecord.strategyMaterialized t.name name).materialized? = some name := rfl
    have hnone : step.filterMap LogRecord.materialized? = [] :=
      List.filterMap_eq_nil_iff.mpr fun record hr => (hstep.plain record hr).1
    rw [List.filterMap_cons_some hname, List.filterMap_append, hnone, ih, List.nil_append]

theorem PipelineLog.unbuilt (h : PipelineLog r t names records) {record : LogRecord}
    (hr : record ∈ records) : record.isBuilt = false := by
  induction h with
  | nil => cases hr
  | cons hs hstep hrest ih =>
    obtain rfl | hr := List.mem_cons.mp hr
    · rfl
    obtain hr | hr := List.mem_append.mp hr
    · exact (hstep.plain record hr).2
    · exact ih hr

theorem materializeAll_eq (hs : v.registry.get name = .ok s) :
    v.materializeAll t (name :: names) =
      Logged.andThen ⟨.strategyMaterialized t.name name :: (s.materialize t).records,
        (s.materialize t).result.mapError .schema⟩
        fun check => (v.materializeAll t names).map fun rest => rest.map (check :: ·) := by
  rw [Validation.materializeAll, hs]

theorem records_materializeAll_ok {check : EventCheck} (hs : v.registry.get name = .ok s)
    (hc : (s.materialize t).result = .ok check) :
    (v.materializeAll t (name :: names)).records = .strategyMaterialized t.name name ::
      ((s.materialize t).records ++ (v.materializeAll t names).records) := by
  rw [materializeAll_eq hs, Logged.records_andThen_ok (mapError_ok.mpr hc)]
  rfl

theorem records_materializeAll_error {e : SchemaError} (hs : v.registry.get name = .ok s)
    (he : (s.materialize t).result = .error e) :
    (v.materializeAll t (name :: names)).records =
      .strategyMaterialized t.name name :: (s.materialize t).records := by
  rw [materializeAll_eq hs, Logged.records_andThen_error (mapError_error.mpr ⟨e, he, rfl⟩)]

theorem materializeAll_log (h : (v.materializeAll t names).result = .ok checks) :
    PipelineLog v.registry t names (v.materializeAll t names).records := by
  induction names generalizing checks with
  | nil => exact .nil
  | cons name names ih =>
    obtain ⟨check, rest, ⟨s, hs, hcheck⟩, hrest, -⟩ := materializeAll_cons.mp h
    rw [records_materializeAll_ok hs hcheck]
    exact .cons hs materialize_log (ih hrest)

theorem failed_log {e : SetupError} (h : v.registry.Fails t name e) :
    PipelineLog v.registry t [name] (v.materializeAll t (name :: names)).records := by
  obtain ⟨draft, hs, hfails⟩ := h
  obtain ⟨fault, rfl⟩ := hfails.is_schema
  rw [records_materializeAll_error hs (materializeConformance_error.mpr hfails)]
  simpa using PipelineLog.cons hs materialize_log .nil

theorem materializeAll_log_of_error {e : SetupError}
    (hknown : ∀ name ∈ names, v.registry.contains name = true)
    (h : (v.materializeAll t names).result = .error e) : ∃ before name after,
      names = before ++ name :: after ∧ (∀ earlier ∈ before, ∀ e, ¬v.registry.Fails t earlier e) ∧
        v.registry.Fails t name e ∧
        PipelineLog v.registry t (before ++ [name]) (v.materializeAll t names).records := by
  induction names with
  | nil => simp [result_materializeAll_nil] at h
  | cons name names ih =>
    obtain ⟨hname, hnames⟩ := List.forall_mem_cons.mp hknown
    -- Either this strategy fails, and nothing came before it, or it is one more of those before.
    obtain hfails | ⟨hsound, hrest⟩ := (materializeAll_cons_error hname).mp h
    · exact ⟨[], name, names, rfl, by simp, hfails, failed_log hfails⟩
    · obtain ⟨before, later, after, rfl, hbefore, hlater, hlog⟩ := ih hnames hrest
      obtain ⟨check, s, hs, hcheck⟩ := (Registry.contributes_iff_not_fails hname).mpr hsound
      refine ⟨name :: before, later, after, rfl, List.forall_mem_cons.mpr ⟨hsound, hbefore⟩,
        hlater, ?_⟩
      rw [records_materializeAll_ok hs hcheck]
      exact .cons hs materialize_log hlog

-- ---------------------------------------------------------------------------
-- The whole log
-- ---------------------------------------------------------------------------

/-- A log goes through strategies in order, each with its own log, and tells of no validator. -/
structure GoesThrough (r : Registry) (t : EventType) (names : List String)
    (records : List LogRecord) : Prop where
  steps : PipelineLog r t names records
  announced : records.filterMap LogRecord.materialized? = names
  unbuilt : ∀ record ∈ records, record.isBuilt = false

theorem PipelineLog.goesThrough (h : PipelineLog r t names records) :
    GoesThrough r t names records :=
  ⟨h, h.materialized, fun _ => h.unbuilt⟩

/-- The log of setting up a validator agrees with what comes of it. -/
structure SetupTraced (v : Validation) (t : EventType) : Prop where
  built : ∀ w, (v.forType t).result = .ok w → ∃ steps,
    GoesThrough v.registry t (v.settings.pipeline t.category) steps ∧
    (v.forType t).records =
      steps ++ [.validatorBuilt t.name t.category (v.settings.pipeline t.category)]
  failed : ∀ e, (v.forType t).result = .error e → ∃ before name after,
    v.settings.pipeline t.category = before ++ name :: after ∧
    (∀ earlier ∈ before, ∀ e, ¬v.registry.Fails t earlier e) ∧ v.registry.Fails t name e ∧
    GoesThrough v.registry t (before ++ [name]) (v.forType t).records

/-- Whatever the registry and the settings that fit it, whatever the event type. -/
theorem setup_traced (r : Registry) (s : Settings) (v : Validation)
    (hv : (Validation.new r s).result = .ok v) (t : EventType) : SetupTraced v t where
  built w hw := by
    obtain ⟨checks, hchecks, -⟩ := Logged.result_andThen_ok.mp hw
    refine ⟨_, (materializeAll_log hchecks).goesThrough, ?_⟩
    exact Logged.records_andThen_ok hchecks
  failed e he := by
    have hknown := new_isOk.mp (isOk_iff.mpr ⟨v, hv⟩)
    cases new_ok hv
    have hchecks := forType_error.mp he
    obtain ⟨before, name, after, hsplit, hbefore, hname, hlog⟩ :=
      materializeAll_log_of_error (hknown t.category) hchecks
    refine ⟨before, name, after, hsplit, hbefore, hname, ?_⟩
    rw [Validation.forType, Logged.records_andThen_error hchecks]
    exact hlog.goesThrough

/-- The schema has a slow pattern and no usable identifier, and it does not mention a player. -/
def roster : EventType :=
  ⟨"roster", .business, .obj [("$id", .str "http://["),
    ("properties", .obj [("team", .obj [("pattern", .str "(?=a)")])])], ["team", "player"]⟩

def rosterSettings : Settings :=
  ⟨.draft7, ⟨[], ["field-presence", "schema-conformance", "field-presence"], []⟩⟩

def rosterValidation : Validation := ⟨⟨standardStrategies .draft7⟩, rosterSettings⟩

theorem roster_records : (rosterValidation.forType roster).records =
    [.strategyMaterialized "roster" "field-presence", .fieldUndeclared "roster" "player",
      .strategyMaterialized "roster" "schema-conformance",
      .schemaEnriched "roster" .business (.strings ["metadata"]), .slowPattern "(?=a)"] := by
  decide +kernel

theorem roster_refused : (rosterValidation.forType roster).result.isOk = false := by
  decide +kernel

/-- The log ends where the schema fails; what would come next in the pipeline is not announced. -/
theorem roster_traced : ∃ e,
    (Validation.new ⟨standardStrategies .draft7⟩ rosterSettings).result = .ok rosterValidation ∧
    (rosterValidation.forType roster).result = .error e ∧
    GoesThrough rosterValidation.registry roster ["field-presence", "schema-conformance"]
      [.strategyMaterialized "roster" "field-presence", .fieldUndeclared "roster" "player",
        .strategyMaterialized "roster" "schema-conformance",
        .schemaEnriched "roster" .business (.strings ["metadata"]), .slowPattern "(?=a)"] := by
  cases hresult : (rosterValidation.forType roster).result with
  | ok w =>
    have hrefused := roster_refused
    simp [hresult, Except.isOk, Except.toBool] at hrefused
  | error e =>
    have htraced := setup_traced ⟨standardStrategies .draft7⟩ rosterSettings rosterValidation rfl
      roster
    obtain ⟨before, name, after, -, -, -, hlog⟩ := htraced.failed e hresult
    rw [roster_records] at hlog
    have hnames : before ++ [name] = ["field-presence", "schema-conformance"] :=
      hlog.announced.symm
    rw [hnames] at hlog
    exact ⟨e, rfl, rfl, hlog⟩

end EventAdmission
