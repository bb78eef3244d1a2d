import EventAdmission.Proofs.Json.Pointer
import EventAdmission.Proofs.Json.Values

/-!
# The places of a document

`places` walks through a document and lists each value with the path to it: a value
before those inside it, members by key and items by index. The walk comes to every
place of the document (`mem_places`), and it does so in the order of the paths
(`places_inOrder`): a path comes before those that go on from it, and of two others
the one with the lesser step where they part.
-/

namespace EventAdmission

def Step.Before : Step → Step → Prop
  | .key a, .key b => a < b
  | .index i, .index j => i < j
  | _, _ => False

def Path.Before (a b : Path) : Prop := List.Lex Step.Before a b

theorem Step.Before.irrefl (s : Step) : ¬ s.Before s := by
  cases s with
  | key k => exact String.lt_irrefl k
  | index n => exact Nat.lt_irrefl n

theorem Path.Before.irrefl (path : Path) : ¬ path.Before path :=
  List.lex_irrefl Step.Before.irrefl path

namespace Json

variable {x y z : Json} {s : Step} {path : Path} {place : Path × Json} {items : List Json}
  {members : Members} {i : Nat}

def behind (s : Step) (place : Path × Json) : Path × Json := (s :: place.1, place.2)

mutual

def places : Json → List (Path × Json)
  | arr items => ([], arr items) :: placesInItems 0 items
  | obj members => ([], obj members) :: placesInMembers members
  | x => [([], x)]

def placesInItems (i : Nat) : List Json → List (Path × Json)
  | [] => []
  | x :: xs => (places x).map (behind (.index i)) ++ placesInItems (i + 1) xs

def placesInMembers : List (String × Json) → List (Path × Json)
  | [] => []
  | (key, x) :: rest => (places x).map (behind (.key key)) ++ placesInMembers rest

end

def placesInside : Json → List (Path × Json)
  | arr items => placesInItems 0 items
  | obj members => placesInMembers members
  | _ => []

theorem places_eq (x : Json) : x.places = ([], x) :: x.placesInside := by
  cases x <;> rfl

theorem placesInside_scalar (harr : x.arr? = none) (hobj : x.obj? = none) :
    x.placesInside = [] := by
  cases x with
  | arr items => cases harr
  | obj members => cases hobj
  | _ => rfl

theorem placesInMembers_eq :
    placesInMembers members = members.flatMap fun e => e.2.places.map (behind (.key e.1)) := by
  induction members with
  | nil => rfl
  | cons e members ih => rw [placesInMembers, ih, List.flatMap_cons]

-- ---------------------------------------------------------------------------
-- Every place
-- ---------------------------------------------------------------------------

theorem mem_placesInItems : place ∈ placesInItems i items ↔ ∃ j x, items[j]? = some x ∧
    ∃ inner ∈ x.places, place = behind (.index (i + j)) inner := by
  induction items generalizing i with
  | nil => simp [placesInItems]
  | cons item items ih =>
    rw [placesInItems, List.mem_append, List.mem_map, ih]
    constructor
    · rintro (⟨inner, hinner, rfl⟩ | ⟨j, x, hx, inner, hinner, rfl⟩)
      · exact ⟨0, item, rfl, inner, hinner, rfl⟩
      · exact ⟨j + 1, x, hx, inner, hinner, by rw [Nat.add_assoc, Nat.add_comm 1 j]⟩
    · rintro ⟨_ | j, x, hx, inner, hinner, rfl⟩
      · exact .inl ⟨inner, Option.some.inj hx ▸ hinner, rfl⟩
      · exact .inr ⟨j, x, hx, inner, hinner, by rw [Nat.add_assoc, Nat.add_comm 1 j]⟩

theorem mem_placesInMembers : place ∈ placesInMembers members ↔
    ∃ e ∈ members, ∃ inner ∈ e.2.places, place = behind (.key e.1) inner := by
  simp [placesInMembers_eq, eq_comm]

theorem path_ne_nil (h : place ∈ x.placesInside) : place.1 ≠ [] := by
  cases x with
  | arr items =>
    obtain ⟨_, _, _, _, _, rfl⟩ := mem_placesInItems.mp h
    exact List.cons_ne_nil _ _
  | obj members =>
    obtain ⟨_, _, _, _, rfl⟩ := mem_placesInMembers.mp h
    exact List.cons_ne_nil _ _
  | _ => cases h

theorem mem_placesInside (hx : x.Canonical) : place ∈ x.placesInside ↔
    ∃ s y, x.step? s = some y ∧ ∃ inner ∈ y.places, place = behind s inner := by
  cases x with
  | arr items =>
    rw [placesInside, mem_placesInItems]
    constructor
    · rintro ⟨j, y, hy, inner, hinner, rfl⟩
      exact ⟨.index j, y, hy, inner, hinner, by rw [Nat.zero_add]⟩
    · rintro ⟨_ | j, y, hy, inner, hinner, rfl⟩
      · cases hy
      · exact ⟨j, y, hy, inner, hinner, by rw [Nat.zero_add]⟩
  | obj members =>
    rw [placesInside, mem_placesInMembers]
    constructor
    · rintro ⟨e, he, inner, hinner, rfl⟩
      exact ⟨.key e.1, e.2, Keyed.find?_of_mem hx.1 he, inner, hinner, rfl⟩
    · rintro ⟨k | _, y, hy, inner, hinner, rfl⟩
      · exact ⟨(k, y), Keyed.mem_of_find? hy, inner, hinner, rfl⟩
      · cases hy
  | _ => simp [placesInside, step?]

theorem canonical_of_step? (hx : x.Canonical) (h : x.step? s = some y) : y.Canonical := by
  cases x with
  | arr items =>
    cases s with
    | key k => cases h
    | index n => exact canonicalItems_iff.mp hx y (List.mem_of_getElem? h)
  | obj members =>
    cases s with
    | key k => exact canonical_of_find? hx.2 h
    | index n => cases h
  | _ => cases h

theorem canonical_of_at? (hx : x.Canonical) (h : x.at? path = some y) : y.Canonical := by
  induction path generalizing x with
  | nil => exact Option.some.inj h ▸ hx
  | cons s path ih =>
    obtain ⟨z, hz, h⟩ := Option.bind_eq_some_iff.mp h
    exact ih (canonical_of_step? hx hz) h

/-- The walk comes to the places that paths lead to, and to no others. -/
theorem mem_places (hx : x.Canonical) : (path, y) ∈ x.places ↔ x.at? path = some y := by
  -- On the path and not on the document: what is left of the path is a path in a part of it.
  induction path generalizing x with
  | nil =>
    have hinside : ([], y) ∉ x.placesInside := fun h => path_ne_nil h rfl
    rw [places_eq, List.mem_cons, or_iff_left hinside, at?_nil, Prod.mk.injEq, eq_comm (a := y)]
    simp
  | cons s path ih =>
    rw [places_eq, List.mem_cons, or_iff_right (by simp), mem_placesInside hx, at?_step,
      Option.bind_eq_some_iff]
    constructor
    · rintro ⟨_, z, hz, ⟨_, _⟩, hinner, heq⟩
      cases heq
      exact ⟨z, hz, (ih (canonical_of_step? hx hz)).mp hinner⟩
    · rintro ⟨z, hz, hy⟩
      exact ⟨s, z, hz, (path, y), (ih (canonical_of_step? hx hz)).mpr hy, rfl⟩

-- ---------------------------------------------------------------------------
-- In order
-- ---------------------------------------------------------------------------

def InOrder (places : List (Path × Json)) : Prop := places.Pairwise fun a b => a.1.Before b.1

theorem inOrder_behind {places : List (Path × Json)} (h : InOrder places) :
    InOrder (places.map (behind s)) :=
  List.pairwise_map.mpr (h.imp .cons)

theorem inOrder_items (h : ∀ x ∈ items, InOrder x.places) :
    InOrder (placesInItems i items) := by
  induction items generalizing i with
  | nil => exact .nil
  | cons item items ih =>
    obtain ⟨hitem, hitems⟩ := List.forall_mem_cons.mp h
    refine List.pairwise_append.mpr ⟨inOrder_behind hitem, ih hitems, fun a ha b hb => ?_⟩
    obtain ⟨inner, -, rfl⟩ := List.mem_map.mp ha
    obtain ⟨j, x, -, other, -, rfl⟩ := mem_placesInItems.mp hb
    have hlt : i < i + 1 + j := by omega
    exact .rel hlt

theorem inOrder_members (hs : Keyed.Sorted members) (h : ∀ e ∈ members, InOrder e.2.places) :
    InOrder (placesInMembers members) := by
  induction members with
  | nil => exact .nil
  | cons e members ih =>
    obtain ⟨key, value⟩ := e
    obtain ⟨hvalue, hmembers⟩ := List.forall_mem_cons.mp h
    obtain ⟨hlt, hs⟩ := List.pairwise_cons.mp hs
    refine List.pairwise_append.mpr ⟨inOrder_behind hvalue, ih hs hmembers, fun a ha b hb => ?_⟩
    obtain ⟨inner, -, rfl⟩ := List.mem_map.mp ha
    obtain ⟨e, he, other, -, rfl⟩ := mem_placesInMembers.mp hb
    exact .rel (hlt e he)

/-- The walk comes to the places in the order of their paths. -/
theorem places_inOrder (hx : x.Canonical) : InOrder x.places := by
  have hroot : ∀ {x : Json}, InOrder x.placesInside → InOrder x.places := by
    intro x h
    rw [places_eq]
    refine List.pairwise_cons.mpr ⟨fun place hplace => ?_, h⟩
    obtain ⟨s, path, hpath⟩ := List.exists_cons_of_ne_nil (path_ne_nil hplace)
    rw [hpath]
    exact .nil
  induction x using induct with
  | scalar x harr hobj =>
    exact hroot (placesInside_scalar harr hobj ▸ .nil)
  | array items ih =>
    exact hroot (inOrder_items fun x hmem => ih x hmem (canonicalItems_iff.mp hx x hmem))
  | object members ih =>
    exact hroot (inOrder_members hx.1 fun e he => ih e he (canonicalMembers_iff.mp hx.2 e he))

end Json

end EventAdmission
