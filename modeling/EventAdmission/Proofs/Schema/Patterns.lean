import EventAdmission.Proofs.Keyed
import EventAdmission.Schema.Compile

/-!
# The patterns of a document

Patterns are collected member by member, each time those of the member itself
before those inside it. What a document brings is therefore the sum of what its
members bring (`patternsInMembers_append`), and their order does not matter for
which patterns there are and how often (`patternsInMembers_perm`).
-/

namespace EventAdmission.Schema

variable {members others : Members} {key pattern : String} {value : Json} {items : List Json}

@[simp] theorem patterns_obj : patterns (.obj members) = patternsInMembers members := rfl

@[simp] theorem patterns_arr : patterns (.arr items) = patternsInItems items := rfl

@[simp] theorem patterns_str {text : String} : patterns (.str text) = [] := rfl

@[simp] theorem patterns_bool {b : Bool} : patterns (.bool b) = [] := rfl

@[simp] theorem patternsInMembers_nil : patternsInMembers [] = [] := rfl

@[simp] theorem patternsInMembers_cons : patternsInMembers ((key, value) :: members) =
    memberPatterns key value ++ patterns value ++ patternsInMembers members := rfl

theorem patternsInItems_eq : patternsInItems items = items.flatMap patterns := by
  induction items with
  | nil => rfl
  | cons x xs ih => rw [patternsInItems, ih, List.flatMap_cons]

theorem patternsInMembers_eq :
    patternsInMembers members = members.flatMap fun e => memberPatterns e.1 e.2 ++ patterns e.2 := by
  induction members with
  | nil => rfl
  | cons e rest ih => rw [patternsInMembers_cons, ih, List.flatMap_cons]

theorem patternsInMembers_append :
    patternsInMembers (members ++ others) = patternsInMembers members ++ patternsInMembers others := by
  rw [patternsInMembers_eq, patternsInMembers_eq, patternsInMembers_eq, List.flatMap_append]

theorem patternsInMembers_perm (h : members.Perm others) :
    (patternsInMembers members).Perm (patternsInMembers others) := by
  rw [patternsInMembers_eq, patternsInMembers_eq]
  exact h.flatMap_right _

theorem mem_memberPatterns : pattern ∈ memberPatterns key value ↔
    (key = "pattern" ∧ value = .str pattern) ∨
      (key = "patternProperties" ∧ ∃ v, value.member? pattern = some v) := by
  unfold memberPatterns
  split
  · simp [eq_comm]
  · simp [Json.member?, Keyed.mem_keys]
  · rename_i hpattern hproperties
    simp only [List.not_mem_nil, false_iff]
    rintro (⟨hkey, hvalue⟩ | ⟨hkey, v, hv⟩)
    · exact hpattern pattern hkey hvalue
    · cases value with
      | obj entries => exact hproperties entries hkey rfl
      | _ => cases hv

theorem memberPatterns_other (hp : key ≠ "pattern") (hpp : key ≠ "patternProperties") :
    memberPatterns key value = [] := by
  refine List.eq_nil_iff_forall_not_mem.mpr fun pattern hpattern => ?_
  rcases mem_memberPatterns.mp hpattern with ⟨hkey, -⟩ | ⟨hkey, -⟩
  · exact hp hkey
  · exact hpp hkey

@[simp] theorem patterns_strings {names : List String} : patterns (.strings names) = [] := by
  rw [Json.strings, patterns_arr, patternsInItems_eq, List.flatMap_eq_nil_iff]
  intro x hx
  obtain ⟨name, -, rfl⟩ := List.mem_map.mp hx
  rfl

variable {accepts : String → Bool} {schema other : Json}

theorem patternsOutside_perm (h : (patterns schema).Perm (patterns other)) :
    (patternsOutside accepts schema).Perm (patternsOutside accepts other) := h.filter _

end EventAdmission.Schema
