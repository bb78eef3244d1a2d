import EventAdmission.Proofs.DataChange.Envelope
import EventAdmission.Proofs.Schema.Moved
import EventAdmission.Proofs.Schema.References
import EventAdmission.Proofs.Schema.Siblings

/-!
# The envelope of a data change compiles

The keywords of the envelope make sense if those of the owner's schema do
(`compiles_envelope`), and nothing that the broker writes has an identifier
(`nameless_envelope`).
-/

namespace EventAdmission.Enrichment

open Schema Evaluation Corpus

variable {owner head : Members} {draft d : Draft} {scope : Scope} {n key : String} {names : List String}

-- ---------------------------------------------------------------------------
-- The owner's schema below the data
-- ---------------------------------------------------------------------------

theorem find?_lowered (h : key ∉ hoistedKeywords) :
    Keyed.find? (lowered owner) key = Keyed.find? owner key :=
  Keyed.find?_filter (fun k => !hoistedKeywords.contains k) (by simpa using h)

theorem ofMember_lowered {value : Json} :
    Rule.ofMember d (lowered owner) key value = Rule.ofMember d owner key value := by
  have hread : ∀ k ∈ readKeywords, k ∉ hoistedKeywords := by decide
  exact ofMember_of_read fun k hk => find?_lowered (hread k hk)

theorem lowered_no_id (h : id? d (.obj owner) = none) : id? d (.obj (lowered owner)) = none := by
  have hkey : Keyed.find? (lowered owner) (idKeyword d) = Keyed.find? owner (idKeyword d) := by
    cases d <;> exact find?_lowered (by decide)
  simp only [id?, Json.member?, hkey] at h ⊢
  exact h

-- ---------------------------------------------------------------------------
-- Identifiers
-- ---------------------------------------------------------------------------

theorem nameless_strings : Nameless (.strings names) :=
  nameless_arr.mpr fun x hx => by
    obtain ⟨name, -, rfl⟩ := List.mem_map.mp hx
    exact nameless_str

theorem nameless_stringSchema : Nameless stringSchema := by
  rw [stringSchema_eq, nameless_obj]
  exact ⟨fun draft => by cases draft <;> rfl, by simp [nameless_str]⟩

theorem nameless_uuidSchema : Nameless uuidSchema := by
  rw [uuidSchema_eq, nameless_obj]
  exact ⟨fun draft => by cases draft <;> rfl, by simp [nameless_str]⟩

theorem nameless_enumSchema : Nameless (enumSchema names) := by
  rw [enumSchema_eq, nameless_obj]
  exact ⟨fun draft => by cases draft <;> rfl, by simp [nameless_str, nameless_strings]⟩

theorem nameless_parentsSchema : Nameless parentsSchema :=
  nameless_obj.mpr
    ⟨fun draft => by cases draft <;> rfl, by simp [nameless_str, nameless_uuidSchema]⟩

theorem nameless_spanSchema : Nameless spanSchema :=
  nameless_obj.mpr
    ⟨fun draft => by cases draft <;> rfl, by simp [nameless_str, nameless_stringSchema]⟩

theorem nameless_metadataProperties : Nameless (.obj (metadataProperties n)) := by
  rw [metadataProperties_eq, nameless_obj]
  refine ⟨fun draft => by cases draft <;> rfl, ?_⟩
  simp [nameless_uuidSchema, nameless_stringSchema, nameless_enumSchema, nameless_parentsSchema,
    nameless_spanSchema]

theorem nameless_metadataSchema : Nameless (metadataSchema n) := by
  rw [metadataSchema_eq, nameless_obj]
  refine ⟨fun draft => by cases draft <;> rfl, ?_⟩
  simp [nameless_str, nameless_strings, nameless_metadataProperties]

theorem nameless_lowered (h : Nameless (.obj owner)) : Nameless (.obj (lowered owner)) :=
  nameless_obj.mpr ⟨fun _ => lowered_no_id h.self,
    fun e he => (nameless_obj.mp h).2 e (List.mem_filter.mp he).1⟩

theorem nameless_envelope (hn : Nameless (.obj owner)) (h : Head owner head) :
    Nameless (.obj (envelope n owner head)) := by
  have hfields : Nameless (.obj (fields n owner)) := by
    refine nameless_obj.mpr ⟨fun draft => by cases draft <;> rfl, ?_⟩
    simp [fields, nameless_lowered hn, nameless_enumSchema, nameless_stringSchema,
      nameless_metadataSchema]
  refine nameless_obj.mpr ⟨fun d => envelope_no_id h, fun e he => ?_⟩
  rcases List.mem_append.mp he with he | he
  · rcases h.mem he with he | rfl
    · exact (nameless_obj.mp hn).2 e (List.mem_filter.mp he).1
    · exact nameless_bool
  · simp only [envelopeEnd, List.mem_cons, List.not_mem_nil, or_false] at he
    rcases he with rfl | rfl | rfl
    · exact hfields
    · exact nameless_strings
    · exact nameless_str

-- ---------------------------------------------------------------------------
-- Keywords
-- ---------------------------------------------------------------------------

theorem memberCompiles_type {members : Members} (k : Kind) :
    MemberCompiles scope members ("type", .str k.name) := by
  have hrule : Rule.ofMember scope.draft members "type" (.str k.name) = .ok (some (.kinds [k])) := by
    cases k <;> rfl
  exact memberCompiles_plain hrule rfl

theorem memberCompiles_required {members : Members} :
    MemberCompiles scope members ("required", .strings names) := by
  have hrule : Rule.ofMember scope.draft members "required" (.strings names) =
      some <$> (.required <$> Rule.namesOf (.strings names)) := rfl
  rw [namesOf_strings] at hrule
  exact memberCompiles_plain hrule rfl

theorem memberCompiles_pattern {members : Members} {source : String} {p : Pattern}
    (hp : Pattern.ofKeyword? source = some p) :
    MemberCompiles scope members ("pattern", .str source) := by
  have hrule : Rule.ofMember scope.draft members "pattern" (.str source) =
      some <$> Rule.patternOf (.str source) := rfl
  have hpattern : Rule.patternOf (.str source) = .ok (.matching source p) := by
    simp only [Rule.patternOf, Rule.stringOf, bind, Except.bind, hp]
    rfl
  rw [hpattern] at hrule
  exact memberCompiles_plain hrule rfl

theorem compiles_stringSchema : Compiles scope stringSchema := by
  rw [stringSchema_eq, compiles_of_members (by cases scope.draft <;> rfl) rfl]
  simp only [List.forall_mem_singleton]
  exact memberCompiles_type .string

theorem compiles_enumSchema : Compiles scope (enumSchema names) := by
  rw [enumSchema_eq, compiles_of_members (by cases scope.draft <;> rfl) rfl]
  simp only [List.forall_mem_cons, List.not_mem_nil, false_implies, implies_true, and_true]
  exact ⟨memberCompiles_plain rfl rfl, memberCompiles_type .string⟩

theorem compiles_uuidSchema : Compiles scope uuidSchema := by
  rw [uuidSchema_eq, compiles_of_members (by cases scope.draft <;> rfl) rfl]
  simp only [List.forall_mem_cons, List.not_mem_nil, false_implies, implies_true, and_true]
  exact ⟨memberCompiles_pattern Uuid.ofKeyword?_uuidPattern, memberCompiles_type .string⟩

theorem compiles_parentsSchema : Compiles scope parentsSchema := by
  rw [parentsSchema, compiles_of_members (by cases scope.draft <;> rfl) rfl]
  simp only [List.forall_mem_cons, List.not_mem_nil, false_implies, implies_true, and_true]
  refine ⟨memberCompiles_some rfl ?_, memberCompiles_type .array⟩
  intro part hpart
  obtain rfl := List.mem_singleton.mp hpart
  exact ⟨_, rfl, compiles_uuidSchema⟩

theorem compiles_spanSchema : Compiles scope spanSchema := by
  rw [spanSchema, compiles_of_members (by cases scope.draft <;> rfl) rfl]
  simp only [List.forall_mem_cons, List.not_mem_nil, false_implies, implies_true, and_true]
  refine ⟨memberCompiles_some rfl ?_, memberCompiles_type .object⟩
  intro part hpart
  obtain rfl := List.mem_singleton.mp hpart
  exact ⟨_, rfl, compiles_stringSchema⟩

theorem compiles_metadataSchema : Compiles scope (metadataSchema n) := by
  rw [metadataSchema_eq, compiles_of_members (by cases scope.draft <;> rfl) rfl]
  simp only [List.forall_mem_cons, List.not_mem_nil, false_implies, implies_true, and_true]
  refine ⟨memberCompiles_some rfl fun part hpart => ?_, memberCompiles_required,
    memberCompiles_type .object⟩
  obtain ⟨e, he, rfl⟩ := List.mem_map.mp hpart
  refine ⟨e.2, rfl, ?_⟩
  have hall : ∀ e ∈ metadataProperties n, Compiles scope e.2 := by
    simp [metadataProperties_eq, compiles_uuidSchema, compiles_enumSchema, compiles_stringSchema,
      compiles_parentsSchema, compiles_spanSchema]
  exact hall e he

theorem compiles_lowered (hid : id? scope.draft (.obj owner) = none)
    (h : Compiles scope (.obj owner)) : Compiles scope (.obj (lowered owner)) := by
  have hlowered : Keyed.find? (lowered owner) "$ref" = Keyed.find? owner "$ref" :=
    find?_lowered (by decide)
  cases href : Keyed.find? owner "$ref" with
  | none =>
    rw [compiles_of_members (lowered_no_id hid) (hlowered.trans href)]
    intro e he
    obtain ⟨r, hr, hparts⟩ := (compiles_of_members hid href).mp h e (List.mem_filter.mp he).1
    exact ⟨r, ofMember_lowered.trans hr, hparts⟩
  | some r =>
    exact compiles_of_ref href (hlowered.trans href) (hid.trans (lowered_no_id hid).symm) h

theorem compiles_envelope (hn : Nameless (.obj owner)) (h : Head owner head)
    (hc : Compiles scope (.obj owner)) : Compiles scope (.obj (envelope n owner head)) := by
  have hfields : ∀ e ∈ fields n owner, Compiles scope e.2 := by
    simp [fields, compiles_lowered hn.self hc, compiles_enumSchema, compiles_stringSchema,
      compiles_metadataSchema]
  rw [compiles_of_members (envelope_no_id h) (envelope_find? h (by decide))]
  intro e he
  rcases List.mem_append.mp he with he | he
  · rcases h.mem he with he | rfl
    · exact memberCompiles_none (ofMember_hoisted (mem_hoisted he))
    · refine memberCompiles_some (additionalOf_envelope h) fun part hpart => ?_
      have hpart : part ∈ (fields n owner).map fun e => .schema e.2 := by
        simpa [Rule.parts] using hpart
      obtain ⟨e, he, rfl⟩ := List.mem_map.mp hpart
      exact ⟨e.2, rfl, hfields e he⟩
  · simp only [envelopeEnd, List.mem_cons, List.not_mem_nil, or_false] at he
    rcases he with rfl | rfl | rfl
    · refine memberCompiles_none ?_
      have hrule : Rule.ofMember scope.draft (envelope n owner head) "properties"
          (.obj (fields n owner)) =
        if Rule.closesProperties (envelope n owner head) = true then .ok none
        else some <$> (.properties <$> Rule.membersOf (.obj (fields n owner))) := rfl
      rw [hrule, if_pos (envelope_closes h)]
    · exact memberCompiles_required
    · exact memberCompiles_type .object

end EventAdmission.Enrichment
