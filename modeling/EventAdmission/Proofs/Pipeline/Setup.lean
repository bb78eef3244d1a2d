import EventAdmission.Proofs.Pipeline.Order
import EventAdmission.Proofs.Pipeline.Registration

/-!
# What can go wrong when a validation is set up

Names are looked up once, when settings meet a registry. `setup_sound`: they fit
if every name of every pipeline has been registered, and the first one that has
not is told otherwise. After that a lookup does not fail any more: an event type
has no validator only because of its schema, and then the first strategy of its
pipeline that cannot do with the schema gives the reason.
-/

namespace EventAdmission

variable {r : Registry} {s : Settings} {t : EventType} {v : Validation} {draft : Draft}
  {name : String} {names : List String} {c : Category} {e : SetupError}

-- ---------------------------------------------------------------------------
-- Unknown names
-- ---------------------------------------------------------------------------

/-- The first name in the settings that is not known: by its category, then by its place in the
pipeline. -/
structure FirstUnknown (known : String → Prop) (s : Settings) (c : Category) (name : String) :
    Prop where
  unknown : ¬known name
  place : ∃ before after, s.pipeline c = before ++ name :: after ∧ ∀ earlier ∈ before, known earlier
  categories : ∃ before after, [.undefined, .business, .dataChange] = before ++ c :: after ∧
    ∀ earlier ∈ before, ∀ n ∈ s.pipeline earlier, known n

theorem unknownStrategy?_eq : Validation.unknownStrategy? r s =
    Category.all.findSome? fun c =>
      ((s.pipeline c).find? fun name => !r.contains name).map (c, ·) := by
  rw [Validation.unknownStrategy?, Validation.namedStrategies, List.find?_flatMap]
  congr 1
  funext c
  rw [List.find?_map]
  rfl

theorem unknownStrategy?_eq_none : Validation.unknownStrategy? r s = none ↔
    ∀ c, ∀ name ∈ s.pipeline c, r.contains name = true := by
  have hall : ∀ c, c ∈ Category.all := by
    intro c
    cases c <;> simp [Category.all]
  simp [unknownStrategy?_eq, hall]

theorem unknownStrategy?_eq_some : Validation.unknownStrategy? r s = some (c, name) ↔
    FirstUnknown (fun n => r.contains n = true) s c name := by
  rw [unknownStrategy?_eq, List.findSome?_eq_some_iff]
  constructor
  · rintro ⟨before, c', after, hall, hc, hbefore⟩
    obtain ⟨name', hfind, heq⟩ := Option.map_eq_some_iff.mp hc
    cases heq
    obtain ⟨hunknown, hplace⟩ := List.find?_eq_some_iff_append.mp hfind
    refine ⟨by simpa using hunknown, by simpa using hplace, before, after, hall, ?_⟩
    intro earlier hearlier n hn
    have hnone : (s.pipeline earlier).find? (fun name => !r.contains name) = none := by
      simpa using hbefore earlier hearlier
    simpa using List.find?_eq_none.mp hnone n hn
  · rintro ⟨hunknown, hplace, before, after, hall, hbefore⟩
    have hfind : (s.pipeline c).find? (fun name => !r.contains name) = some name :=
      List.find?_eq_some_iff_append.mpr ⟨by simpa using hunknown, by simpa using hplace⟩
    refine ⟨before, c, after, hall, by rw [hfind, Option.map_some], ?_⟩
    intro earlier hearlier
    have hnone : (s.pipeline earlier).find? (fun name => !r.contains name) = none :=
      List.find?_eq_none.mpr (by simpa using hbefore earlier hearlier)
    rw [hnone, Option.map_none]

theorem new_isOk : (Validation.new r s).result.isOk = true ↔
    ∀ c, ∀ name ∈ s.pipeline c, r.contains name = true := by
  rw [← unknownStrategy?_eq_none, Validation.new]
  cases Validation.unknownStrategy? r s <;> simp [Except.isOk, Except.toBool]

theorem new_error : (Validation.new r s).result = .error e ↔ ∃ c name,
    e = .settings (.unknownStrategy c name) ∧
      FirstUnknown (fun n => r.contains n = true) s c name := by
  simp only [← unknownStrategy?_eq_some]
  rw [Validation.new]
  cases Validation.unknownStrategy? r s with
  | none => simp
  | some unknown =>
    obtain ⟨c, name⟩ := unknown
    simp [eq_comm]

-- ---------------------------------------------------------------------------
-- Schemas that have no compiled form
-- ---------------------------------------------------------------------------

/-- The schema of an event type is of no use under a draft: it cannot be enriched, or what comes of
it cannot be compiled. -/
inductive SchemaFails (draft : Draft) (t : EventType) : SetupError → Prop
  | enrichment {e : EnrichmentError} (h : Enrichment.enrich t.category t.schema t.name = .error e) :
      SchemaFails draft t (.schema (.enrichment e))
  | compilation {effective : Json} {e : CompileError}
      (h : Enrichment.enrich t.category t.schema t.name = .ok effective)
      (hc : Schema.compile draft effective = .error e) :
      SchemaFails draft t (.schema (.compilation t.name e))

theorem SchemaFails.is_schema (h : SchemaFails draft t e) : ∃ fault, e = .schema fault := by
  cases h <;> exact ⟨_, rfl⟩

def Registry.Fails (r : Registry) (t : EventType) (name : String) (e : SetupError) : Prop :=
  ∃ draft, r.get name = .ok (.schemaConformance draft) ∧ SchemaFails draft t e

theorem compileLogged_error {effective : Json} {e : SchemaError} :
    (Strategy.compileLogged draft t effective).result = .error e ↔
      ∃ fault, Schema.compile draft effective = .error fault ∧ e = .compilation t.name fault := by
  unfold Strategy.compileLogged
  cases Schema.compile draft effective <;> simp [eq_comm]

theorem materializeConformance_error {e : SchemaError} :
    ((Strategy.schemaConformance draft).materialize t).result = .error e ↔
      SchemaFails draft t (.schema e) := by
  simp only [Strategy.materialize, Strategy.materializeConformance, Logged.result_andThen_error,
    Logged.result_map, mapError_error, mapError_ok, result_enrichLogged, compileLogged_error]
  constructor
  · rintro (⟨fault, hfault, rfl⟩ | ⟨effective, heffective, fault, hfault, rfl⟩)
    · exact .enrichment hfault
    · exact .compilation heffective hfault
  · rintro (hfault | ⟨heffective, hfault⟩)
    · exact .inl ⟨_, hfault, rfl⟩
    · exact .inr ⟨_, heffective, _, hfault, rfl⟩

theorem materialize_error {s : Strategy} {e : SchemaError} : (s.materialize t).result = .error e ↔
    ∃ draft, s = .schemaConformance draft ∧ SchemaFails draft t (.schema e) := by
  cases s with
  | schemaConformance draft => simp [materializeConformance_error]
  | metadataCrossField => simp [result_materialize_metadata]
  | fieldPresence => simp [result_materialize_presence]

theorem Registry.contributes_iff_not_fails (h : r.contains name = true) :
    (∃ check, r.Contributes t name check) ↔ ∀ e, ¬r.Fails t name e := by
  obtain ⟨s, hs⟩ := Registry.contains_iff_get.mp h
  cases hresult : (s.materialize t).result with
  | ok check =>
    refine iff_of_true ⟨check, s, hs, hresult⟩ ?_
    rintro e ⟨draft, hdraft, hfails⟩
    cases hs.symm.trans hdraft
    obtain ⟨fault, rfl⟩ := hfails.is_schema
    simp [materializeConformance_error.mpr hfails] at hresult
  | error e =>
    obtain ⟨draft, rfl, hfails⟩ := materialize_error.mp hresult
    refine iff_of_false ?_ fun hnone => hnone _ ⟨draft, hs, hfails⟩
    rintro ⟨check, s', hs', hcheck⟩
    cases hs.symm.trans hs'
    simp [hresult] at hcheck

-- ---------------------------------------------------------------------------
-- Event types without a validator
-- ---------------------------------------------------------------------------

theorem materializeAll_cons_error (h : v.registry.contains name = true) :
    (v.materializeAll t (name :: names)).result = .error e ↔
      v.registry.Fails t name e ∨
        (∀ e, ¬v.registry.Fails t name e) ∧ (v.materializeAll t names).result = .error e := by
  obtain ⟨s, hs⟩ := Registry.contains_iff_get.mp h
  rw [← Registry.contributes_iff_not_fails h, Validation.materializeAll, hs]
  simp only [Logged.result_andThen_error, Logged.result_map, mapError_error, mapError_ok,
    map_error, materialize_error, Registry.Fails, Registry.Contributes, hs, Except.ok.injEq,
    exists_eq_left']
  constructor
  · rintro (⟨fault, ⟨draft, rfl, hfails⟩, rfl⟩ | ⟨check, hcheck, hrest⟩)
    · exact .inl ⟨draft, rfl, hfails⟩
    · exact .inr ⟨⟨check, hcheck⟩, hrest⟩
  · rintro (⟨draft, rfl, hfails⟩ | ⟨⟨check, hcheck⟩, hrest⟩)
    · obtain ⟨fault, rfl⟩ := hfails.is_schema
      exact .inl ⟨fault, ⟨draft, rfl, hfails⟩, rfl⟩
    · exact .inr ⟨check, hcheck, hrest⟩

theorem materializeAll_error (h : ∀ name ∈ names, v.registry.contains name = true) :
    (v.materializeAll t names).result = .error e ↔ ∃ before name after,
      names = before ++ name :: after ∧ (∀ earlier ∈ before, ∀ e, ¬v.registry.Fails t earlier e) ∧
        v.registry.Fails t name e := by
  induction names with
  | nil => simp [result_materializeAll_nil]
  | cons name names ih =>
    obtain ⟨hname, hnames⟩ := List.forall_mem_cons.mp h
    rw [materializeAll_cons_error hname, ih hnames]
    -- The strategy that fails is the first one, or the first of the rest.
    constructor
    · rintro (hfails | ⟨hsound, before, later, after, rfl, hbefore, hlater⟩)
      · exact ⟨[], name, names, rfl, by simp, hfails⟩
      · have hbefore := List.forall_mem_cons.mpr ⟨hsound, hbefore⟩
        exact ⟨name :: before, later, after, rfl, hbefore, hlater⟩
    · rintro ⟨_ | ⟨first, before⟩, later, after, heq, hbefore, hlater⟩
      · cases heq
        exact .inl hlater
      · cases heq
        obtain ⟨hsound, hbefore⟩ := List.forall_mem_cons.mp hbefore
        exact .inr ⟨hsound, before, later, after, rfl, hbefore, hlater⟩

theorem forType_error : (v.forType t).result = .error e ↔
    (v.materializeAll t (v.settings.pipeline t.category)).result = .error e := by
  simp [Validation.forType, Logged.result_andThen_error]

/-- Whatever has been registered: settings are taken exactly if each of their names has been, and
otherwise the first that has not is told. Settings that are taken never fail for a name again. An
event type has no validator exactly if some strategy of its pipeline is schema conformance and
fails, and the error is that of the first one that does. -/
theorem setup_sound (calls : List (String × Strategy)) (s : Settings) :
    ((Validation.new (Registry.ofCalls calls) s).result.isOk = true ↔
      ∀ c, ∀ name ∈ s.pipeline c, RegistryBuilder.Registers calls name) ∧
    (∀ e, (Validation.new (Registry.ofCalls calls) s).result = .error e ↔ ∃ c name,
      e = .settings (.unknownStrategy c name) ∧
        FirstUnknown (RegistryBuilder.Registers calls) s c name) ∧
    ∀ v, (Validation.new (Registry.ofCalls calls) s).result = .ok v → ∀ t e,
      (v.forType t).result = .error e ↔ ∃ before name after,
        s.pipeline t.category = before ++ name :: after ∧
          (∀ earlier ∈ before, ∀ e, ¬(Registry.ofCalls calls).Fails t earlier e) ∧
          (Registry.ofCalls calls).Fails t name e := by
  refine ⟨?_, fun e => ?_, fun v hv t e => ?_⟩
  · simp only [new_isOk, Registry.contains_ofCalls]
  · simp only [new_error, Registry.contains_ofCalls]
  · have hknown := new_isOk.mp (isOk_iff.mpr ⟨v, hv⟩)
    cases new_ok hv
    rw [forType_error, materializeAll_error (hknown t.category)]

def houseChecks : List (String × Strategy) :=
  [("draft 7", .schemaConformance .draft7), ("presence", .fieldPresence),
    ("presence", .schemaConformance .draft7), ("draft 4", .schemaConformance .draft4)]

def houseSettings : Settings := ⟨.draft7, ⟨["presence", "draft 4", "draft 7"], [], ["draft 4"]⟩⟩

def foreignSettings : Settings :=
  ⟨.draft7, ⟨["presence"], ["draft 4", "envelope", "closed"], ["meta"]⟩⟩

/-- In draft 4 a limit is made exclusive by a flag, in draft 7 by a limit of its own. -/
def reading : EventType :=
  ⟨"reading", .undefined, .obj [("exclusiveMinimum", .bool true), ("minimum", Json.ofNat 0)], []⟩

theorem reading_draft4 : (Schema.compile .draft4 reading.schema).isOk = true := by
  decide +kernel

theorem reading_draft7 : (Schema.compile .draft7 reading.schema).isOk = false := by
  decide +kernel

theorem houseChecks_setup :
    (Validation.new (Registry.ofCalls houseChecks) foreignSettings).result =
      .error (.settings (.unknownStrategy .business "envelope")) ∧
    ∃ v e, (Validation.new (Registry.ofCalls houseChecks) houseSettings).result = .ok v ∧
      (v.forType reading).result = .error e ∧
      (Registry.ofCalls houseChecks).Fails reading "draft 7" e := by
  obtain ⟨-, hunknown, -⟩ := setup_sound houseChecks foreignSettings
  obtain ⟨-, -, hfails⟩ := setup_sound houseChecks houseSettings
  constructor
  · refine (hunknown _).mpr
      ⟨.business, "envelope", rfl, ?_, ?_, [.undefined], [.dataChange], rfl, ?_⟩
    · simp [RegistryBuilder.registers_iff, houseChecks, Keyed.find?]
    · refine ⟨["draft 4"], ["closed"], rfl, ?_⟩
      simp [RegistryBuilder.registers_iff, houseChecks, Keyed.find?]
    · simp [RegistryBuilder.registers_iff, houseChecks, Keyed.find?, foreignSettings,
        Settings.pipeline, Pipelines.get]
  · obtain ⟨compiled, h4⟩ := isOk_iff.mp reading_draft4
    cases h7 : Schema.compile .draft7 reading.schema with
    | ok c => exact absurd reading_draft7 (by simp [h7, Except.isOk, Except.toBool])
    | error fault =>
      have hdraft7 : (Registry.ofCalls houseChecks).Fails reading "draft 7"
          (.schema (.compilation "reading" fault)) := ⟨.draft7, rfl, .compilation rfl h7⟩
      refine ⟨_, _, rfl, (hfails _ rfl _ _).mpr ⟨["presence", "draft 4"], "draft 7", [], rfl, ?_,
        hdraft7⟩, hdraft7⟩
      simp only [List.forall_mem_cons, List.not_mem_nil, false_implies, implies_true, and_true]
      constructor
      · rintro e ⟨draft, ⟨⟩, -⟩
      · rintro e ⟨draft, hdraft, hfault | ⟨heffective, hfault⟩⟩
        · cases hfault
        · cases hdraft
          cases heffective
          simp [h4] at hfault

end EventAdmission
