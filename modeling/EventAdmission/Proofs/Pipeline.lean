import EventAdmission.Proofs.Outcome
import EventAdmission.Proofs.Schema.Passing
import EventAdmission.Proofs.Schema.Told
import EventAdmission.Validation

/-!
# The standard validator

`standardValidator_ok`: under the standard settings an event type whose category
asks for metadata has a validator exactly if its effective schema can be built
and compiled. The validator checks the schema first, then the metadata against
the event type, then whether the significant fields are declared.
-/

namespace EventAdmission

variable {draft : Draft} {t : EventType} {v : EventValidator}

def standardStrategies (draft : Draft) : Keyed Strategy :=
  [("field-presence", .fieldPresence), ("metadata-cross-field", .metadataCrossField),
    ("schema-conformance", .schemaConformance draft)]

theorem standardRegistry_result :
    (Registry.standard draft).result = .ok ⟨standardStrategies draft⟩ := by
  simp only [Registry.standard, Registry.ofList, StrategyKind.all, List.map_cons, List.map_nil,
    StrategyKind.name, Strategy.ofKind, RegistryBuilder.registerAll, RegistryBuilder.register,
    RegistryBuilder.empty, Logged.andThen, Logged.silent, Logged.map, RegistryBuilder.build,
    Keyed.contains, Keyed.find?, Option.isSome_none, Keyed.insert, String.reduceEq, String.reduceLT,
    Bool.false_eq_true, ↓reduceIte, standardStrategies]

def standardValidation (draft : Draft) : Validation :=
  ⟨⟨standardStrategies draft⟩, ⟨draft, .standard⟩⟩

theorem standard_result :
    (Validation.standard ⟨draft, .standard⟩).result = .ok (standardValidation draft) := by
  have hknown : Validation.unknownStrategy? ⟨standardStrategies draft⟩ ⟨draft, .standard⟩ = none := by
    rfl
  rw [Validation.standard, Logged.result_andThen_ok]
  refine ⟨⟨standardStrategies draft⟩, ?_, ?_⟩
  · rw [Logged.result_map, standardRegistry_result]
    rfl
  · rw [Validation.new, hknown]
    rfl

-- ---------------------------------------------------------------------------
-- Materialization
-- ---------------------------------------------------------------------------

theorem result_enrichLogged {category : Category} {schema : Json} {eventType : String} :
    (Enrichment.enrichLogged category schema eventType).result =
      Enrichment.enrich category schema eventType := by
  unfold Enrichment.enrichLogged
  cases category <;> cases Enrichment.enrich _ schema eventType <;> rfl

theorem compileLogged_ok {effective : Json} {check : EventCheck} :
    (Strategy.compileLogged draft t effective).result = .ok check ↔
      ∃ c, Schema.compile draft effective = .ok c ∧ check = .conforms c := by
  unfold Strategy.compileLogged
  cases Schema.compile draft effective <;> simp [eq_comm]

theorem materializeConformance_ok {check : EventCheck} :
    ((Strategy.schemaConformance draft).materialize t).result = .ok check ↔
      ∃ effective c, Enrichment.enrich t.category t.schema t.name = .ok effective ∧
        Schema.compile draft effective = .ok c ∧ check = .conforms c := by
  simp only [Strategy.materialize, Strategy.materializeConformance, Logged.result_andThen_ok,
    Logged.result_map, mapError_ok, result_enrichLogged, compileLogged_ok, exists_and_left]

theorem result_materialize_metadata :
    (Strategy.metadataCrossField.materialize t).result = .ok (.metadata t.name) := rfl

theorem result_materialize_presence : (Strategy.fieldPresence.materialize t).result =
    .ok (.verdict ((Strategy.missingField? t).map Strategy.undeclared)) := by
  unfold Strategy.materialize
  cases Strategy.missingField? t <;> simp

variable {names : List String} {checks : List EventCheck} {validation : Validation}

theorem result_materializeAll_nil : (validation.materializeAll t []).result = .ok [] := rfl

theorem materializeAll_cons_ok {name : String} {s : Strategy}
    (hs : validation.registry.get name = .ok s) :
    (validation.materializeAll t (name :: names)).result = .ok checks ↔
      ∃ check rest, (s.materialize t).result = .ok check ∧
        (validation.materializeAll t names).result = .ok rest ∧ checks = check :: rest := by
  rw [Validation.materializeAll, hs]
  simp only [Logged.result_andThen_ok, Logged.result_map, mapError_ok]
  constructor
  · rintro ⟨check, hcheck, hmap⟩
    obtain ⟨rest, hrest, rfl⟩ := map_ok.mp hmap
    exact ⟨check, rest, hcheck, hrest, rfl⟩
  · rintro ⟨check, rest, hcheck, hrest, rfl⟩
    exact ⟨check, hcheck, map_ok.mpr ⟨rest, hrest, rfl⟩⟩

/-- The validator of an event type under the standard settings of a draft. -/
def standardValidator (draft : Draft) (t : EventType) : Except SetupError EventValidator :=
  ((Validation.standard ⟨draft, .standard⟩).andThen fun v => v.forType t).result

theorem standardValidator_ok (hcat : t.category.requiresMetadata = true) :
    standardValidator draft t = .ok v ↔
      ∃ effective c, Enrichment.enrich t.category t.schema t.name = .ok effective ∧
        Schema.compile draft effective = .ok c ∧
        v = ⟨t.name, [.conforms c, .metadata t.name,
          .verdict ((Strategy.missingField? t).map Strategy.undeclared)]⟩ := by
  have hpipeline : (standardValidation draft).settings.pipeline t.category =
      ["schema-conformance", "metadata-cross-field", "field-presence"] := by
    cases h : t.category with
    | undefined => simp [h, Category.requiresMetadata] at hcat
    | business => rfl
    | dataChange => rfl
  have hschema : (standardValidation draft).registry.get "schema-conformance" =
      .ok (.schemaConformance draft) := rfl
  have hmetadata : (standardValidation draft).registry.get "metadata-cross-field" =
      .ok .metadataCrossField := rfl
  have hpresence : (standardValidation draft).registry.get "field-presence" =
      .ok .fieldPresence := rfl
  simp only [standardValidator, Logged.result_andThen_ok, standard_result, Except.ok.injEq,
    exists_eq_left', Validation.forType, hpipeline, materializeAll_cons_ok hschema,
    materializeAll_cons_ok hmetadata, materializeAll_cons_ok hpresence, materializeConformance_ok,
    result_materialize_metadata, result_materialize_presence,
    result_materializeAll_nil]
  constructor
  · rintro ⟨_, ⟨_, _, ⟨effective, c, he, hc, rfl⟩, ⟨_, _, rfl, ⟨_, _, rfl, rfl, rfl⟩, rfl⟩, rfl⟩, rfl⟩
    exact ⟨effective, c, he, hc, rfl⟩
  · rintro ⟨effective, c, he, hc, rfl⟩
    exact ⟨_, ⟨_, _, ⟨effective, c, he, hc, rfl⟩, ⟨_, _, rfl, ⟨_, _, rfl, rfl, rfl⟩, rfl⟩, rfl⟩, rfl⟩

-- ---------------------------------------------------------------------------
-- Acceptance
-- ---------------------------------------------------------------------------

theorem ofViolations_eq_none {violations : List Violation} :
    Rejection.ofViolations violations = none ↔ violations = [] := by
  match violations with
  | [] => simp [Rejection.ofViolations]
  | [_] => simp [Rejection.ofViolations]
  | _ :: _ :: _ => simp [Rejection.ofViolations]

/-- A document conforms to a compiled schema: the check ends and finds nothing. -/
def Conforms (c : CompiledSchema) (event : Json) : Prop :=
  Evaluation.Passes c.corpus (Evaluation.enoughSteps c.corpus event) c.scope c.corpus.root event []

theorem conforms_iff {c : CompiledSchema} {event : Json} :
    Conforms c event ↔ c.violations event = some [] :=
  CompiledSchema.violations_eq_nil.symm

theorem schemaRejection_eq_none {outcome : Option (List Violation)} :
    EventCheck.schemaRejection outcome = none ↔ outcome = some [] := by
  cases outcome with
  | none => simp [EventCheck.schemaRejection]
  | some violations => simp [EventCheck.schemaRejection, ofViolations_eq_none]

theorem run_conforms_eq_none {c : CompiledSchema} {event : Json} :
    (EventCheck.conforms c).run event = none ↔ Conforms c event := by
  rw [conforms_iff, ← schemaRejection_eq_none]
  exact Iff.rfl

/-- An event is accepted if it conforms to the schema, its metadata fit the event type, and every
significant field is declared. -/
theorem validate_eq_none {n : String} {c : CompiledSchema} {outcome : Option Rejection}
    {event : Json} :
    EventValidator.validate ⟨n, [.conforms c, .metadata n, .verdict outcome]⟩ event = none ↔
      Conforms c event ∧ EventCheck.metadataRejection n event = none ∧ outcome = none := by
  have hmetadata : (EventCheck.metadata n).run event = EventCheck.metadataRejection n event := rfl
  have hverdict : (EventCheck.verdict outcome).run event = outcome := rfl
  simp only [EventValidator.validate, List.findSome?_eq_none_iff, List.forall_mem_cons,
    run_conforms_eq_none, hmetadata, hverdict, List.not_mem_nil, false_implies, implies_true,
    and_true]

theorem eventTypeRejection_eq_none {n : String} {metadata : Members} :
    EventCheck.eventTypeRejection n metadata = none ↔
      ∀ x, Keyed.find? metadata "event_type" = some x → x = .str n := by
  unfold EventCheck.eventTypeRejection
  cases Keyed.find? metadata "event_type" with
  | none => simp
  | some x => cases x <;> simp [Json.str?]

theorem occurredAtRejection_eq_none {metadata : Members} :
    EventCheck.occurredAtRejection metadata = none ↔
      ∀ text, Keyed.find? metadata "occurred_at" = some (.str text) →
        (Timestamp.read text).isSome = true := by
  unfold EventCheck.occurredAtRejection
  cases Keyed.find? metadata "occurred_at" with
  | none => simp
  | some x =>
    cases x with
    | str text => cases h : (Timestamp.read text).isSome <;> simp [Json.str?, h]
    | _ => simp [Json.str?]

theorem metadataRejection_eq_none {n : String} {event : Json} :
    EventCheck.metadataRejection n event = none ↔
      ∀ metadata, event.member? "metadata" = some (.obj metadata) →
        (∀ x, Keyed.find? metadata "event_type" = some x → x = .str n) ∧
        ∀ text, Keyed.find? metadata "occurred_at" = some (.str text) →
          (Timestamp.read text).isSome = true := by
  simp only [← eventTypeRejection_eq_none, ← occurredAtRejection_eq_none]
  unfold EventCheck.metadataRejection
  cases event.member? "metadata" with
  | none => simp
  | some x =>
    cases x with
    | obj metadata =>
      cases EventCheck.eventTypeRejection n metadata <;> simp [Json.obj?]
    | _ => simp [Json.obj?]

end EventAdmission
