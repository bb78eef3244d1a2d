import EventAdmission.Proofs.Enrichment.Pieces

/-!
# The envelope of a data change

The root of the schema that data changes are checked against, keyword by
keyword. `passes_envelope`: a value passes it if it is an object with the four
fields, no others, and the value of each field passes the schema of the field.
The owner's hoisted members ask for nothing, whatever they are.
-/

namespace EventAdmission.Enrichment

open Evaluation

variable {corpus : Corpus} {scope : Scope} {x : Json} {path : Path} {steps : Nat} {n : String}
  {owner head : Members}

def dataChangeKeys : List String := ["metadata", "data_op", "data_type", "data"]

def envelope (n : String) (owner head : Members) : Members := head ++ envelopeEnd n owner

theorem envelope_find? (h : Head owner head) {key : String} (hk : key ∉ headKeys) :
    Keyed.find? (envelope n owner head) key = Keyed.find? (envelopeEnd n owner) key :=
  h.find? hk

theorem envelope_hoisted (h : Head owner head) {key : String} (hk : key ∈ hoistedKeywords) :
    Keyed.find? (envelope n owner head) key = Keyed.find? owner key := by
  have hothers : ∀ k ∈ hoistedKeywords, Keyed.find? (envelopeEnd n owner) k = none := by
    simp [hoistedKeywords, envelopeEnd, Keyed.find?]
  exact h.find?_hoisted hk (hothers key hk)

theorem envelope_no_id (h : Head owner head) {draft : Draft} :
    Schema.id? draft (.obj (envelope n owner head)) = none := by
  have hkey : Keyed.find? (envelope n owner head) (Schema.idKeyword draft) = none := by
    cases draft <;> exact envelope_find? h (by decide)
  simp only [Schema.id?, Json.member?, hkey, Option.bind_none]

theorem envelope_inside (h : Head owner head) :
    scope.inside (.obj (envelope n owner head)) = scope :=
  Scope.inside_of_no_id (envelope_no_id h)

theorem envelope_additional (h : Head owner head) :
    Keyed.find? (envelope n owner head) "additionalProperties" = some (.bool false) := by
  obtain ⟨front, back, hsplit, rfl⟩ := h.split
  have hfront : ∀ e ∈ front, e.1 ≠ "additionalProperties" := fun e he =>
    hoisted_ne_additional (hsplit ▸ List.mem_append_left _ he : e ∈ hoisted owner)
  rw [envelope, List.append_assoc, Keyed.find?_append _ hfront]
  rfl

theorem additionalOf_envelope (h : Head owner head) :
    Rule.additionalOf (envelope n owner head) (.bool false) =
      .ok (some (.closed (some (fields n owner)) none .forbidden)) := by
  have hpatterns : Keyed.find? (envelope n owner head) "patternProperties" = none :=
    envelope_find? h (by decide)
  have hproperties : Keyed.find? (envelope n owner head) "properties" =
      some (.obj (fields n owner)) := envelope_find? h (by decide)
  have hfalse : Json.bool false ≠ .bool true := by simp
  rw [additionalOf_eq hfalse, patternsBeside, propertiesBeside, hpatterns, hproperties]
  rfl

theorem ofMember_hoisted {draft : Draft} {siblings : Members} {e : String × Json}
    (h : e.1 ∈ hoistedKeywords) : Rule.ofMember draft siblings e.1 e.2 = .ok none := by
  obtain ⟨key, value⟩ := e
  simp only [hoistedKeywords, List.mem_cons, List.not_mem_nil, or_false] at h
  rcases h with rfl | rfl | rfl <;> rfl

theorem memberFaults_hoisted {sub : Evaluator} {goal : Goal} {siblings : Members}
    {e : String × Json} (h : e.1 ∈ hoistedKeywords) :
    memberFaults sub goal scope siblings x path e = some [] := by
  rw [memberFaults, ofMember_hoisted h]

theorem envelope_closes (h : Head owner head) :
    Rule.closesProperties (envelope n owner head) = true := by
  rw [Rule.closesProperties, envelope_additional h]

/-- What the keywords of the envelope ask: each of them alone. -/
theorem forall_envelope (h : Head owner head) {sub : Evaluator} {goal : Goal} :
    (∀ e ∈ envelope n owner head,
        memberFaults sub goal scope (envelope n owner head) x path e = some []) ↔
      memberFaults sub goal scope (envelope n owner head) x path
          ("additionalProperties", .bool false) = some [] ∧
        memberFaults sub goal scope (envelope n owner head) x path
          ("required", .strings dataChangeKeys) = some [] ∧
        memberFaults sub goal scope (envelope n owner head) x path
          ("type", .str "object") = some [] := by
  constructor
  · intro hall
    exact ⟨hall _ (Keyed.mem_of_find? (envelope_additional h)),
      hall _ (by simp [envelope, envelopeEnd, dataChangeKeys]),
      hall _ (by simp [envelope, envelopeEnd])⟩
  · rintro ⟨hadditional, hrequired, htype⟩ e he
    rcases List.mem_append.mp he with he | he
    · rcases h.mem he with he | rfl
      · exact memberFaults_hoisted (mem_hoisted he)
      · exact hadditional
    · simp only [envelopeEnd, List.mem_cons, List.not_mem_nil, or_false] at he
      rcases he with rfl | rfl | rfl
      · exact memberFaults_closed_properties (envelope_closes h)
      · exact hrequired
      · exact htype

theorem namedSchemas_named {properties : Members} {key : String} :
    namedSchemas (some properties) none key = (Keyed.find? properties key).toList := by
  simp [namedSchemas, matchingSchemas]

theorem passes_envelope (h : Head owner head) :
    Passes corpus (steps + 1) scope (.obj (envelope n owner head)) x path ↔
      ∃ event, x = .obj event ∧ (∀ name ∈ dataChangeKeys, ∃ v, Keyed.find? event name = some v) ∧
        ∀ e ∈ event, ∃ s, Keyed.find? (fields n owner) e.1 = some s ∧
          Passes corpus steps scope s e.2 (path ++ [.key e.1]) := by
  have htype : ("type", Json.str "object") = ("type", .str Kind.object.name) := rfl
  rw [passes_obj (envelope_find? h (by decide)), envelope_inside h, forall_envelope h, htype,
    memberFaults_type, holds_object]
  constructor
  · rintro ⟨hadditional, hrequired, event, rfl⟩
    rw [memberFaults_additionalProperties (additionalOf_envelope h), closedFaults_forbidden rfl]
      at hadditional
    obtain ⟨hpass, hnamed⟩ := hadditional
    refine ⟨event, rfl, (memberFaults_required namesOf_strings).mp hrequired, fun e he => ?_⟩
    cases hs : Keyed.find? (fields n owner) e.1 with
    | none => exact absurd (by simp [namedSchemas_named, hs]) (hnamed e he)
    | some s => exact ⟨s, rfl, hpass e he s (by simp [schemasFor_forbidden, namedSchemas_named, hs])⟩
  · rintro ⟨event, rfl, hrequired, hfields⟩
    refine ⟨?_, (memberFaults_required namesOf_strings).mpr hrequired, event, rfl⟩
    rw [memberFaults_additionalProperties (additionalOf_envelope h), closedFaults_forbidden rfl]
    refine ⟨fun e he s hs => ?_, fun e he hnil => ?_⟩
    · obtain ⟨s', hs', hpass⟩ := hfields e he
      rw [schemasFor_forbidden, namedSchemas_named, hs'] at hs
      obtain rfl := List.mem_singleton.mp hs
      exact hpass
    · obtain ⟨s', hs', -⟩ := hfields e he
      simp [namedSchemas_named, hs'] at hnil

/-- The owner's schema, apart from the hoisted members, is the schema of the data. -/
theorem envelope_data (h : Head owner head) :
    (Json.obj (envelope n owner head)).at? [.key "properties", .key "data"] =
      some (.obj (lowered owner)) := by
  have hproperties : Keyed.find? (envelope n owner head) "properties" =
      some (.obj (fields n owner)) := envelope_find? h (by decide)
  simp only [Json.at?, Json.step?, hproperties, bind, Option.bind]
  rfl

-- ---------------------------------------------------------------------------
-- Enrichment
-- ---------------------------------------------------------------------------

theorem enrich_dataChange (h : isEnriched (.obj owner) = false) :
    ∃ head, Head owner head ∧
      enrich .dataChange (.obj owner) n = .ok (.obj (envelope n owner head)) := by
  obtain ⟨head, hhead, henvelope⟩ := dataChangeEnvelope_eq n owner
  refine ⟨head, hhead, ?_⟩
  simp only [enrich, checkedRoot, h, bind, Except.bind, Bool.false_eq_true, ↓reduceIte, henvelope]
  rfl

theorem enrich_dataChange_ok {schema effective : Json}
    (h : enrich .dataChange schema n = .ok effective) :
    ∃ owner head, schema = .obj owner ∧ Head owner head ∧
      effective = .obj (envelope n owner head) := by
  cases schema with
  | obj owner =>
    cases hs : isEnriched (.obj owner) with
    | true =>
      simp only [enrich, checkedRoot, hs] at h
      cases h
    | false =>
      obtain ⟨head, hhead, henrich⟩ := enrich_dataChange (n := n) hs
      exact ⟨owner, head, rfl, hhead, Except.ok.inj (h.symm.trans henrich)⟩
  | _ => cases h

end EventAdmission.Enrichment
