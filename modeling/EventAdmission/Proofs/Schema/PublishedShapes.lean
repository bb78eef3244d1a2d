import EventAdmission.Proofs.Enrichment.Pieces
import EventAdmission.Proofs.Schema.PublishedKeywords

/-!
# What the published schemas allow for properties and required names

The properties of a schema are schemas under names, and required names are a list
of strings, each once. That is exact in both directions, so a property or a name
can be added to what is allowed already.
-/

namespace EventAdmission

open Evaluation MetaSchema Enrichment

variable {draft : Draft} {fragment : Option (List Char)} {corpus : Corpus} {scope : Scope}
  {entries : Members} {path : Path} {steps : Nat} {s v x : Json} {key name : String}
  {names : List String}

theorem allowed_iff (hmem : (key, s) ∈ publishedKeywords draft)
    (hone : ∀ e ∈ publishedKeywords draft, e.1 = key → e.2 = s) :
    Allowed draft steps key v ↔ ∀ path,
      Passes (published draft) steps (publishedScope draft (some [])) s v (path ++ [.key key]) := by
  constructor
  · intro h path
    exact h _ hmem rfl path
  · intro h e he hkey path
    rw [hone e he hkey]
    exact h path

-- ---------------------------------------------------------------------------
-- Properties
-- ---------------------------------------------------------------------------

theorem properties_known : ∀ draft ∈ Draft.all,
    ("properties", schemasByName) ∈ publishedKeywords draft := by
  decide

theorem passes_schemasByName :
    Passes corpus (steps + 1) (publishedScope draft fragment) schemasByName v path ↔
      ∃ entries, v = .obj entries ∧ ∀ e ∈ entries, Passes corpus steps
        (publishedScope draft fragment) (.obj [("$ref", .str "#")]) e.2 (path ++ [.key e.1]) := by
  have htype : ("type", Json.str "object") = ("type", .str Kind.object.name) := rfl
  rw [schemasByName, passes_obj rfl, Scope.inside_of_no_id (by cases draft <;> rfl), htype]
  simp only [List.forall_mem_cons, List.not_mem_nil, false_implies, implies_true, and_true,
    memberFaults_type, holds_object]
  constructor
  · rintro ⟨hadditional, -, entries, rfl⟩
    rw [memberFaults_additionalProperties rfl, closedFaults_checked] at hadditional
    exact ⟨entries, rfl, fun e he => hadditional e he _ (List.mem_singleton.mpr rfl)⟩
  · rintro ⟨entries, rfl, h⟩
    rw [memberFaults_additionalProperties rfl, closedFaults_checked]
    refine ⟨fun e he s hs => ?_, memberFaults_silent rfl, entries, rfl⟩
    obtain rfl := List.mem_singleton.mp hs
    exact h e he

theorem allowed_properties_iff : Allowed draft (steps + 1) "properties" v ↔
    ∃ entries, v = .obj entries ∧ ∀ e ∈ entries, ∀ path, Passes (published draft) steps
      (publishedScope draft (some [])) (.obj [("$ref", .str "#")]) e.2
        (path ++ [.key "properties"] ++ [.key e.1]) := by
  rw [allowed_iff (properties_known draft Draft.mem_all) (properties_published draft Draft.mem_all)]
  simp only [passes_schemasByName]
  constructor
  · intro h
    obtain ⟨entries, rfl, -⟩ := h []
    refine ⟨entries, rfl, fun e he path => ?_⟩
    obtain ⟨_, ⟨⟩, hall⟩ := h path
    exact hall e he
  · rintro ⟨entries, rfl, h⟩ path
    exact ⟨entries, rfl, fun e he => h e he path⟩

theorem allowed_properties_insert (h : Allowed draft (steps + 2) "properties" (.obj entries))
    (hx : Admitted draft steps x) :
    Allowed draft (steps + 2) "properties" (.obj (Keyed.insert entries key x)) := by
  obtain ⟨_, ⟨⟩, hall⟩ := allowed_properties_iff.mp h
  refine allowed_properties_iff.mpr ⟨_, rfl, fun e he path => ?_⟩
  rcases Keyed.mem_of_mem_insert he with rfl | he
  · exact passes_itself hx (by decide)
  · exact hall e he path

theorem not_passes_text {text : String} :
    ¬Passes corpus steps scope (ofDraft draft) (.str text) path := by
  intro h
  obtain ⟨steps, rfl⟩ := h.steps_pos
  cases draft with
  | draft4 => cases h.type (k := .object) rfl rfl
  | draft6 =>
    rw [ofDraft, draft6, passes_obj rfl] at h
    simp only [List.forall_mem_cons] at h
    obtain ⟨-, -, -, -, -, -, htype, -⟩ := h
    cases htype
  | draft7 =>
    rw [ofDraft, draft7, passes_obj rfl] at h
    simp only [List.forall_mem_cons] at h
    obtain ⟨-, -, -, -, -, -, htype, -⟩ := h
    cases htype

theorem allowed_properties_text {text : String}
    (h : Allowed draft (steps + 2) "properties" (.obj entries)) :
    Keyed.find? entries key ≠ some (.str text) := by
  intro hfind
  obtain ⟨_, ⟨⟩, hall⟩ := allowed_properties_iff.mp h
  have hpass := hall _ (Keyed.mem_of_find? hfind) []
  have hbase : some [] ∈ fragments := by decide
  have hroot : "#" ∈ publishedReferences draft := root_published
  obtain ⟨target, -, hfollow, htarget⟩ := follow_published hbase hroot
  rw [Passes, faultsWithin, schemaFaults_ref rfl, Scope.inside_of_no_id (by cases draft <;> rfl),
    hfollow, htarget rfl] at hpass
  exact not_passes_text hpass

-- ---------------------------------------------------------------------------
-- Required names
-- ---------------------------------------------------------------------------

theorem hasRepeat_strings {same : Json → Json → Bool}
    (hsame : ∀ a b, same (.str a) (.str b) = (a == b)) :
    Json.hasRepeat same (names.map .str) = false ↔ names.Nodup := by
  induction names with
  | nil => simp [Json.hasRepeat]
  | cons name names ih =>
    have hany : (names.map .str).any (same (.str name)) = false ↔ name ∉ names := by
      simp only [List.any_map, Function.comp_def, hsame, List.any_beq, List.contains_eq_mem,
        decide_eq_false_iff_not]
    rw [List.map_cons, Json.hasRepeat, Bool.or_eq_false_iff, hany, ih, List.nodup_cons]

theorem allDistinct_strings : Json.allDistinct (names.map .str) = true ↔ names.Nodup := by
  unfold Json.allDistinct
  split
  · rw [Bool.not_eq_true', hasRepeat_strings fun _ _ => rfl]
  · rw [Bool.not_eq_true', hasRepeat_strings fun _ _ => rfl]

def nameList : Draft → Members
  | .draft4 => [("items", stringSchema), ("minItems", .num (.natural 1)), ("type", .str "array"),
      ("uniqueItems", .bool true)]
  | _ => [("default", .arr []), ("items", stringSchema), ("type", .str "array"),
      ("uniqueItems", .bool true)]

theorem memberFaults_unique {sub : Evaluator} {goal : Goal} {siblings : Members} {items : List Json} :
    memberFaults sub goal scope siblings (.arr items) path ("uniqueItems", .bool true) = some [] ↔
      Json.allDistinct items = true := by
  have hrule : Rule.ofMember scope.draft siblings "uniqueItems" (.bool true) =
      .ok (some .unique) := rfl
  rw [memberFaults, hrule]
  exact faultUnless_eq_nil

theorem memberFaults_nonempty {sub : Evaluator} {goal : Goal} {siblings : Members}
    {items : List Json} :
    memberFaults sub goal scope siblings (.arr items) path ("minItems", .num (.natural 1)) =
      some [] ↔ items ≠ [] := by
  have hrule : Rule.ofMember scope.draft siblings "minItems" (.num (.natural 1)) =
      .ok (some (.size .items .least 1)) := rfl
  rw [memberFaults, hrule]
  show faultUnless _ _ _ _ = some [] ↔ _
  rw [faultUnless_eq_nil]
  cases items <;> simp [sizeFits]

theorem strings_of_forall {items : List Json} (h : ∀ x ∈ items, ∃ text, x = .str text) :
    ∃ names, Json.arr items = .strings names := by
  induction items with
  | nil => exact ⟨[], rfl⟩
  | cons x items ih =>
    obtain ⟨⟨text, rfl⟩, hitems⟩ := List.forall_mem_cons.mp h
    obtain ⟨names, hnames⟩ := ih hitems
    exact ⟨text :: names, by rw [Json.arr.inj hnames]; rfl⟩

theorem memberFaults_names {siblings : Members} :
    (memberFaults (faultsWithin corpus (steps + 1)) .faults scope siblings v path
          ("items", stringSchema) = some [] ∧
        memberFaults (faultsWithin corpus (steps + 1)) .faults scope siblings v path
          ("type", .str Kind.array.name) = some [] ∧
        memberFaults (faultsWithin corpus (steps + 1)) .faults scope siblings v path
          ("uniqueItems", .bool true) = some []) ↔
      ∃ names, v = .strings names ∧ names.Nodup := by
  rw [memberFaults_type, holds_array]
  constructor
  · rintro ⟨hitems, ⟨items, rfl⟩, hunique⟩
    have htexts : ∀ x ∈ items, ∃ text, x = .str text := fun x hx => by
      obtain ⟨i, hi⟩ := List.mem_iff_getElem?.mp hx
      exact passes_stringSchema.mp ((memberFaults_items items).mp hitems i x hi)
    obtain ⟨names, hnames⟩ := strings_of_forall htexts
    obtain rfl := Json.arr.inj hnames
    exact ⟨names, rfl, allDistinct_strings.mp (memberFaults_unique.mp hunique)⟩
  · rintro ⟨names, rfl, hnodup⟩
    refine ⟨(memberFaults_items _).mpr fun i item hi => ?_, ⟨_, rfl⟩,
      memberFaults_unique.mpr (allDistinct_strings.mpr hnodup)⟩
    obtain ⟨name, -, rfl⟩ := List.mem_map.mp (List.mem_of_getElem? hi)
    exact passes_stringSchema.mpr ⟨name, rfl⟩

theorem passes_nameList :
    Passes corpus (steps + 2) scope (.obj (nameList draft)) v path ↔
      ∃ names, v = .strings names ∧ names.Nodup ∧ (draft = .draft4 → names ≠ []) := by
  have htype : ("type", Json.str "array") = ("type", .str Kind.array.name) := rfl
  cases draft with
  | draft4 =>
    rw [nameList, passes_obj rfl, htype, Scope.inside_of_no_id (by cases scope.draft <;> rfl)]
    simp only [List.forall_mem_cons, List.not_mem_nil, false_implies, implies_true, and_true,
      true_implies]
    constructor
    · rintro ⟨hitems, hmin, htype, hunique⟩
      obtain ⟨names, rfl, hnodup⟩ := memberFaults_names.mp ⟨hitems, htype, hunique⟩
      exact ⟨names, rfl, hnodup, by simpa using memberFaults_nonempty.mp hmin⟩
    · rintro ⟨names, rfl, hnodup, hne⟩
      obtain ⟨hitems, htype, hunique⟩ := memberFaults_names.mpr ⟨names, rfl, hnodup⟩
      exact ⟨hitems, memberFaults_nonempty.mpr (by simpa using hne), htype, hunique⟩
  | draft6 | draft7 =>
    simp only [nameList]
    rw [passes_obj rfl, htype, Scope.inside_of_no_id (by cases scope.draft <;> rfl)]
    simp only [List.forall_mem_cons, List.not_mem_nil, false_implies, implies_true, and_true,
      reduceCtorEq, memberFaults_names]
    exact ⟨And.right, fun h => ⟨memberFaults_silent rfl, h⟩⟩

def nameListReference : String := "#/definitions/stringArray"

theorem required_known : ∀ draft ∈ Draft.all,
    ("required", .obj [("$ref", .str nameListReference)]) ∈ publishedKeywords draft := by
  decide

theorem required_published : ∀ draft ∈ Draft.all, ∀ e ∈ publishedKeywords draft,
    e.1 = "required" → e.2 = .obj [("$ref", .str nameListReference)] := by
  decide

theorem allowed_required_iff : Allowed draft (steps + 3) "required" v ↔
    ∃ names, v = .strings names ∧ names.Nodup ∧ (draft = .draft4 → names ≠ []) := by
  have hknown : nameListReference ∈ publishedReferences draft := by cases draft <;> decide
  have hfollow : follow (published draft) (publishedScope draft (some [])) nameListReference =
      .ok (publishedScope draft none, .obj (nameList draft)) :=
    follow_part (by decide) hknown (by cases draft <;> rfl)
  have hpasses : ∀ path, Passes (published draft) (steps + 3) (publishedScope draft (some []))
      (.obj [("$ref", .str nameListReference)]) v path ↔ Passes (published draft) (steps + 2)
        (publishedScope draft none) (.obj (nameList draft)) v path := fun path => by
    rw [Passes, faultsWithin, schemaFaults_ref rfl, Scope.inside_of_no_id (by cases draft <;> rfl),
      hfollow, Passes]
  rw [allowed_iff (required_known draft Draft.mem_all) (required_published draft Draft.mem_all)]
  simp only [hpasses, passes_nameList, forall_const]

end EventAdmission
