import EventAdmission.Proofs.Enrichment.Envelope
import EventAdmission.Proofs.Schema.Keywords
import EventAdmission.Proofs.Schema.Moved
import EventAdmission.Proofs.Uuid

/-!
# Which values pass the pieces of the envelope

Each piece of the broker's envelope by itself, as an exact condition on the
value. None of the pieces has a reference or an identifier, so the answer is the
same in every corpus and every scope; it only takes a few steps.
-/

namespace EventAdmission.Enrichment

open Evaluation

variable {corpus : Corpus} {scope : Scope} {x : Json} {path : Path} {steps : Nat} {n : String}

theorem sameMeaning_str {name : String} : x.sameMeaning (.str name) = true ↔ x = .str name := by
  cases x <;> simp [Json.sameMeaning, Json.equalBy]

theorem passes_stringSchema :
    Passes corpus (steps + 1) scope stringSchema x path ↔ ∃ s, x = .str s := by
  have heq : stringSchema = .obj [("type", .str Kind.string.name)] := rfl
  rw [heq, passes_obj rfl]
  simp only [List.forall_mem_singleton, memberFaults_type, holds_string]

theorem passes_enumSchema {names : List String} :
    Passes corpus (steps + 1) scope (enumSchema names) x path ↔ ∃ name ∈ names, x = .str name := by
  have htype : ("type", Json.str "string") = ("type", .str Kind.string.name) := rfl
  rw [enumSchema_eq, passes_obj rfl, htype]
  simp only [Json.strings, List.forall_mem_cons, memberFaults_enum, memberFaults_type, holds_string,
    List.any_map, List.any_eq_true, Function.comp_apply, sameMeaning_str, List.not_mem_nil,
    false_implies, implies_true, and_true]
  constructor
  · exact And.left
  · rintro ⟨name, hname, rfl⟩
    exact ⟨⟨name, hname, rfl⟩, name, rfl⟩

theorem passes_uuidSchema :
    Passes corpus (steps + 1) scope uuidSchema x path ↔ ∃ s, x = .str s ∧ IsUuid s := by
  have htype : ("type", Json.str "string") = ("type", .str Kind.string.name) := rfl
  rw [uuidSchema_eq, passes_obj rfl, htype]
  simp only [List.forall_mem_cons, memberFaults_type, holds_string, List.not_mem_nil,
    false_implies, implies_true, and_true]
  constructor
  · rintro ⟨hpattern, s, rfl⟩
    rw [memberFaults_pattern s Uuid.ofKeyword?_uuidPattern, Uuid.search_uuidPattern] at hpattern
    exact ⟨s, rfl, hpattern⟩
  · rintro ⟨s, rfl, huuid⟩
    rw [memberFaults_pattern s Uuid.ofKeyword?_uuidPattern, Uuid.search_uuidPattern]
    exact ⟨huuid, s, rfl⟩

theorem passes_parentsSchema :
    Passes corpus (steps + 2) scope parentsSchema x path ↔
      ∃ items, x = .arr items ∧ ∀ item ∈ items, ∃ s, item = .str s ∧ IsUuid s := by
  have htype : ("type", Json.str "array") = ("type", .str Kind.array.name) := rfl
  rw [parentsSchema, passes_obj rfl, htype]
  simp only [List.forall_mem_cons, memberFaults_type, holds_array, List.not_mem_nil,
    false_implies, implies_true, and_true]
  constructor
  · rintro ⟨hitems, items, rfl⟩
    refine ⟨items, rfl, fun item hitem => ?_⟩
    obtain ⟨i, hi⟩ := List.mem_iff_getElem?.mp hitem
    exact passes_uuidSchema.mp ((memberFaults_items items).mp hitems i item hi)
  · rintro ⟨items, rfl, hitems⟩
    refine ⟨(memberFaults_items items).mpr fun i item hi => ?_, items, rfl⟩
    exact passes_uuidSchema.mpr (hitems item (List.mem_of_getElem? hi))

theorem passes_spanSchema :
    Passes corpus (steps + 2) scope spanSchema x path ↔
      ∃ entries, x = .obj entries ∧ ∀ e ∈ entries, ∃ s, e.2 = .str s := by
  have htype : ("type", Json.str "object") = ("type", .str Kind.object.name) := rfl
  have hrule : ∀ siblings : Members, Keyed.find? siblings "properties" = none →
      Keyed.find? siblings "patternProperties" = none →
      Rule.additionalOf siblings stringSchema =
        .ok (some (.closed none none (.checked stringSchema))) := by
    intro siblings hproperties hpatterns
    have hobj : stringSchema ≠ .bool true := nofun
    rw [additionalOf_eq hobj, patternsBeside, propertiesBeside, hproperties, hpatterns]
    rfl
  have hschemas : ∀ key, schemasFor none none (.checked stringSchema) key = [stringSchema] :=
    fun _ => rfl
  rw [spanSchema, passes_obj rfl, htype]
  simp only [List.forall_mem_cons, memberFaults_type, holds_object, List.not_mem_nil,
    false_implies, implies_true, and_true]
  constructor
  · rintro ⟨hadditional, entries, rfl⟩
    rw [memberFaults_additionalProperties (hrule _ rfl rfl), closedFaults_checked] at hadditional
    refine ⟨entries, rfl, fun e he => ?_⟩
    exact passes_stringSchema.mp (hadditional e he stringSchema (by simp [hschemas]))
  · rintro ⟨entries, rfl, hentries⟩
    rw [memberFaults_additionalProperties (hrule _ rfl rfl), closedFaults_checked]
    refine ⟨fun e he s hs => ?_, entries, rfl⟩
    obtain rfl := List.mem_singleton.mp (hschemas _ ▸ hs)
    exact passes_stringSchema.mpr (hentries e he)

theorem namesOf_strings {names : List String} : Rule.namesOf (.strings names) = .ok names :=
  Rule.namesOf_arr.mpr rfl

theorem passes_metadataSchema :
    Passes corpus (steps + 1) scope (metadataSchema n) x path ↔
      ∃ members, x = .obj members ∧
        (∀ name ∈ requiredMetadata, ∃ v, Keyed.find? members name = some v) ∧
        ∀ e ∈ metadataProperties n, ∀ v, Keyed.find? members e.1 = some v →
          Passes corpus steps scope e.2 v (path ++ [.key e.1]) := by
  have htype : ("type", Json.str "object") = ("type", .str Kind.object.name) := rfl
  rw [metadataSchema_eq, passes_obj rfl, htype, Scope.inside_of_no_id (by cases scope.draft <;> rfl)]
  simp only [List.forall_mem_cons, memberFaults_type, holds_object, List.not_mem_nil,
    false_implies, implies_true, and_true]
  constructor
  · rintro ⟨hproperties, hrequired, members, rfl⟩
    exact ⟨members, rfl, (memberFaults_required namesOf_strings).mp hrequired,
      (memberFaults_properties rfl).mp hproperties⟩
  · rintro ⟨members, rfl, hrequired, hproperties⟩
    exact ⟨(memberFaults_properties rfl).mpr hproperties,
      (memberFaults_required namesOf_strings).mpr hrequired, members, rfl⟩

/-- Metadata as the broker asks for them, the times apart. -/
structure WellFormed (n : String) (metadata : Members) : Prop where
  eid : ∃ s, Keyed.find? metadata "eid" = some (.str s) ∧ IsUuid s
  occurredAt : ∃ s, Keyed.find? metadata "occurred_at" = some (.str s)
  eventType : ∀ x, Keyed.find? metadata "event_type" = some x → x = .str n
  parents : ∀ x, Keyed.find? metadata "parent_eids" = some x →
    ∃ items, x = .arr items ∧ ∀ item ∈ items, ∃ s, item = .str s ∧ IsUuid s
  texts : ∀ key ∈ ["flow_id", "partition", "partition_compaction_key", "version"],
    ∀ x, Keyed.find? metadata key = some x → ∃ s, x = .str s
  span : ∀ x, Keyed.find? metadata "span_ctx" = some x →
    ∃ entries, x = .obj entries ∧ ∀ e ∈ entries, ∃ s, e.2 = .str s

theorem passes_metadataSchema_iff :
    Passes corpus (steps + 3) scope (metadataSchema n) x path ↔
      ∃ metadata, x = .obj metadata ∧ WellFormed n metadata := by
  rw [passes_metadataSchema]
  refine exists_congr fun metadata => and_congr_right fun _ => ?_
  simp only [metadataProperties_eq, List.forall_mem_cons, passes_stringSchema, passes_uuidSchema,
    passes_parentsSchema, passes_spanSchema, passes_enumSchema, requiredMetadata, List.not_mem_nil,
    false_implies, implies_true, and_true]
  simp only [List.mem_singleton, exists_eq_left]
  constructor
  · rintro ⟨⟨⟨eid, heid⟩, at_, hat⟩, eids, eventType, flow, times, parents, partition, compaction,
      span, version⟩
    obtain ⟨s, rfl, huuid⟩ := eids _ heid
    obtain ⟨time, rfl⟩ := times _ hat
    refine ⟨⟨s, heid, huuid⟩, ⟨time, hat⟩, eventType, parents, ?_, span⟩
    simp only [List.forall_mem_cons, List.not_mem_nil, false_implies, implies_true, and_true]
    exact ⟨flow, partition, compaction, version⟩
  · rintro ⟨⟨s, heid, huuid⟩, ⟨time, hat⟩, eventType, parents, texts, span⟩
    simp only [List.forall_mem_cons, List.not_mem_nil, false_implies, implies_true, and_true]
      at texts
    obtain ⟨flow, partition, compaction, version⟩ := texts
    refine ⟨⟨⟨_, heid⟩, _, hat⟩, ?_, eventType, flow, ?_, parents, partition, compaction, span,
      version⟩
    · intro v hv
      obtain rfl := Option.some.inj (heid.symm.trans hv)
      exact ⟨s, rfl, huuid⟩
    · intro v hv
      obtain rfl := Option.some.inj (hat.symm.trans hv)
      exact ⟨time, rfl⟩

theorem enoughSteps_pieces (corpus : Corpus) (x : Json) : ∃ k, enoughSteps corpus x = k + 4 := by
  have henough := enoughSteps_pos corpus x
  exact ⟨enoughSteps corpus x - 4, by omega⟩

end EventAdmission.Enrichment
