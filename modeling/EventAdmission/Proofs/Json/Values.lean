import EventAdmission.Json.Pointer
import EventAdmission.Proofs.Keyed

/-!
# The values in a document

`values` lists a document and everything in it, at every depth; `inside` leaves
the document itself out. What is inside is smaller and less deep, and whatever
a written pointer leads to is one of the values.
-/

namespace EventAdmission.Json

variable {x y z : Json} {items : List Json} {members : Members}

-- ---------------------------------------------------------------------------
-- Values
-- ---------------------------------------------------------------------------

mutual

def values : Json → List Json
  | arr items => arr items :: valuesInItems items
  | obj members => obj members :: valuesInMembers members
  | x => [x]

def valuesInItems : List Json → List Json
  | [] => []
  | x :: xs => values x ++ valuesInItems xs

def valuesInMembers : List (String × Json) → List Json
  | [] => []
  | (_, x) :: xs => values x ++ valuesInMembers xs

end

def inside : Json → List Json
  | arr items => valuesInItems items
  | obj members => valuesInMembers members
  | _ => []

theorem values_eq (x : Json) : x.values = x :: x.inside := by
  cases x <;> simp [values, inside]

theorem mem_values : y ∈ x.values ↔ y = x ∨ y ∈ x.inside := by
  rw [values_eq, List.mem_cons]

theorem mem_values_self : x ∈ x.values := mem_values.mpr (.inl rfl)

theorem mem_valuesInItems : y ∈ valuesInItems items ↔ ∃ x ∈ items, y ∈ x.values := by
  induction items with
  | nil => simp [valuesInItems]
  | cons item items ih => simp [valuesInItems, ih]

theorem mem_valuesInMembers : y ∈ valuesInMembers members ↔ ∃ e ∈ members, y ∈ e.2.values := by
  induction members with
  | nil => simp [valuesInMembers]
  | cons e members ih =>
    obtain ⟨key, x⟩ := e
    simp [valuesInMembers, ih]

theorem mem_inside_arr : y ∈ (arr items).inside ↔ ∃ x ∈ items, y ∈ x.values := mem_valuesInItems

theorem mem_inside_obj : y ∈ (obj members).inside ↔ ∃ e ∈ members, y ∈ e.2.values :=
  mem_valuesInMembers

theorem inside_item (h : x ∈ items) (hy : y ∈ x.values) : y ∈ (arr items).inside :=
  mem_inside_arr.mpr ⟨x, h, hy⟩

theorem inside_member {e : String × Json} (h : e ∈ members) (hy : y ∈ e.2.values) :
    y ∈ (obj members).inside :=
  mem_inside_obj.mpr ⟨e, h, hy⟩

theorem inside_scalar (harr : x.arr? = none) (hobj : x.obj? = none) : x.inside = [] := by
  cases x with
  | arr items => cases harr
  | obj members => cases hobj
  | _ => rfl

/-- An induction over documents that leaves lists of items and members as they are. -/
theorem induct {p : Json → Prop} (scalar : ∀ x, x.arr? = none → x.obj? = none → p x)
    (array : ∀ items, (∀ x ∈ items, p x) → p (.arr items))
    (object : ∀ members : Members, (∀ e ∈ members, p e.2) → p (.obj members)) (x : Json) :
    p x := by
  cases x with
  | arr items => exact array items fun y _ => induct scalar array object y
  | obj members => exact object members fun e _ => induct scalar array object e.2
  | _ => exact scalar _ rfl rfl
termination_by sizeOf x
decreasing_by
  · have := List.sizeOf_lt_of_mem ‹y ∈ items›
    simp only [arr.sizeOf_spec]
    omega
  · have := List.sizeOf_lt_of_mem ‹e ∈ members›
    obtain ⟨key, value⟩ := e
    simp only [Prod.mk.sizeOf_spec] at this
    simp only [obj.sizeOf_spec]
    omega

theorem mem_values_trans (hy : y ∈ x.values) (hz : z ∈ y.values) : z ∈ x.values := by
  induction x using induct with
  | scalar x harr hobj =>
    rw [values_eq, inside_scalar harr hobj, List.mem_singleton] at hy
    exact hy ▸ hz
  | array items ih =>
    rcases mem_values.mp hy with rfl | hy
    · exact hz
    · obtain ⟨x, hx, hy⟩ := mem_inside_arr.mp hy
      exact mem_values.mpr (.inr (inside_item hx (ih x hx hy)))
  | object members ih =>
    rcases mem_values.mp hy with rfl | hy
    · exact hz
    · obtain ⟨e, he, hy⟩ := mem_inside_obj.mp hy
      exact mem_values.mpr (.inr (inside_member he (ih e he hy)))

theorem mem_inside_trans (hy : y ∈ x.inside) (hz : z ∈ y.values) : z ∈ x.inside := by
  cases x with
  | arr items =>
    obtain ⟨x, hx, hy⟩ := mem_inside_arr.mp hy
    exact inside_item hx (mem_values_trans hy hz)
  | obj members =>
    obtain ⟨e, he, hy⟩ := mem_inside_obj.mp hy
    exact inside_member he (mem_values_trans hy hz)
  | _ => cases hy

-- ---------------------------------------------------------------------------
-- Measures
-- ---------------------------------------------------------------------------

theorem depth_pos (x : Json) : 0 < x.depth := by
  cases x <;> simp only [depth] <;> omega

theorem depth_le_depthItems (h : x ∈ items) : x.depth ≤ depthItems items := by
  induction items with
  | nil => cases h
  | cons item items ih =>
    rw [depthItems]
    rcases List.mem_cons.mp h with rfl | h
    · exact Nat.le_max_left _ _
    · exact Nat.le_trans (ih h) (Nat.le_max_right _ _)

theorem depth_le_depthMembers {e : String × Json} (h : e ∈ members) :
    e.2.depth ≤ depthMembers members := by
  induction members with
  | nil => cases h
  | cons first members ih =>
    obtain ⟨key, value⟩ := first
    rw [depthMembers]
    rcases List.mem_cons.mp h with rfl | h
    · exact Nat.le_max_left _ _
    · exact Nat.le_trans (ih h) (Nat.le_max_right _ _)

theorem depth_lt (h : y ∈ x.inside) : y.depth < x.depth := by
  induction x using induct with
  | scalar x harr hobj =>
    rw [inside_scalar harr hobj] at h
    cases h
  | array items ih =>
    obtain ⟨x, hx, hy⟩ := mem_inside_arr.mp h
    have hle := depth_le_depthItems hx
    rw [depth]
    rcases mem_values.mp hy with rfl | hy
    · omega
    · have := ih x hx hy
      omega
  | object members ih =>
    obtain ⟨e, he, hy⟩ := mem_inside_obj.mp h
    have hle := depth_le_depthMembers he
    rw [depth]
    rcases mem_values.mp hy with rfl | hy
    · omega
    · have := ih e he hy
      omega

theorem depth_le_size (x : Json) : x.depth ≤ x.size := by
  induction x using induct with
  | scalar x harr hobj =>
    cases x with
    | arr items => cases harr
    | obj members => cases hobj
    | _ => exact Nat.le_refl _
  | array items ih =>
    have hle : depthItems items ≤ sizeItems items := by
      induction items with
      | nil => exact Nat.le_refl _
      | cons item items ihitems =>
        obtain ⟨hitem, hitems⟩ := List.forall_mem_cons.mp ih
        have := ihitems hitems
        simp only [depthItems, sizeItems]
        omega
    simp only [depth, size]
    omega
  | object members ih =>
    have hle : depthMembers members ≤ sizeMembers members := by
      induction members with
      | nil => exact Nat.le_refl _
      | cons e members ihmembers =>
        obtain ⟨hvalue, hmembers⟩ := List.forall_mem_cons.mp ih
        have := ihmembers hmembers
        simp only [depthMembers, sizeMembers]
        omega
    simp only [depth, size]
    omega

theorem sizeMembers_append (members others : Members) :
    sizeMembers (members ++ others) = sizeMembers members + sizeMembers others := by
  induction members with
  | nil => simp [sizeMembers]
  | cons e members ih =>
    obtain ⟨key, value⟩ := e
    rw [List.cons_append, sizeMembers, sizeMembers, ih]
    omega

theorem sizeItems_append (others : List Json) :
    sizeItems (items ++ others) = sizeItems items + sizeItems others := by
  induction items with
  | nil => simp [sizeItems]
  | cons x items ih =>
    rw [List.cons_append, sizeItems, sizeItems, ih]
    omega

theorem sizeMembers_le_insert {key : String}
    (h : ∀ old, Keyed.find? members key = some old → old.size ≤ x.size) :
    sizeMembers members ≤ sizeMembers (Keyed.insert members key x) := by
  induction members with
  | nil => exact Nat.zero_le _
  | cons e members ih =>
    obtain ⟨k, value⟩ := e
    rw [Keyed.find?_cons] at h
    rw [Keyed.insert]
    split
    · rename_i hk
      have hle := h value (by rw [if_pos hk.symm])
      simp only [sizeMembers]
      omega
    · rename_i hk
      rw [if_neg (Ne.symm hk)] at h
      split
      · simp only [sizeMembers]
        omega
      · simp only [sizeMembers]
        exact Nat.add_le_add_left (ih h) _

theorem sizeMembers_filter (keep : String × Json → Bool) (members : Members) :
    sizeMembers (members.filter keep) + sizeMembers (members.filter fun e => !keep e) =
      sizeMembers members := by
  induction members with
  | nil => simp [sizeMembers]
  | cons e members ih =>
    obtain ⟨key, value⟩ := e
    cases hk : keep (key, value) <;> simp only [List.filter_cons, hk, Bool.not_false,
      Bool.not_true, Bool.false_eq_true, ↓reduceIte, sizeMembers] <;> omega

-- ---------------------------------------------------------------------------
-- Keys in order
-- ---------------------------------------------------------------------------

theorem canonicalMembers_iff : CanonicalMembers members ↔ ∀ e ∈ members, e.2.Canonical := by
  induction members with
  | nil => simp [CanonicalMembers]
  | cons e members ih => rw [CanonicalMembers, ih, List.forall_mem_cons]

theorem canonicalItems_iff : CanonicalItems items ↔ ∀ x ∈ items, x.Canonical := by
  induction items with
  | nil => simp [CanonicalItems]
  | cons x items ih => rw [CanonicalItems, ih, List.forall_mem_cons]

theorem canonical_of_find? {key : String} (h : CanonicalMembers members)
    (hf : Keyed.find? members key = some x) : x.Canonical :=
  canonicalMembers_iff.mp h _ (Keyed.mem_of_find? hf)

theorem canonical_insert {key : String} (h : (obj members).Canonical) (hx : x.Canonical) :
    (obj (Keyed.insert members key x)).Canonical := by
  refine ⟨Keyed.sorted_insert h.1, canonicalMembers_iff.mpr fun e he => ?_⟩
  rcases Keyed.mem_of_mem_insert he with rfl | he
  · exact hx
  · exact canonicalMembers_iff.mp h.2 e he

theorem canonical_ofMembers (h : ∀ e ∈ members, e.2.Canonical) : (ofMembers members).Canonical := by
  have hfold : ∀ acc : Members, (obj acc).Canonical →
      (obj (members.foldl (fun acc e => Keyed.insert acc e.1 e.2) acc)).Canonical := by
    induction members with
    | nil => exact fun _ hacc => hacc
    | cons e members ih =>
      obtain ⟨hx, hmembers⟩ := List.forall_mem_cons.mp h
      exact fun acc hacc => ih hmembers _ (canonical_insert hacc hx)
  exact hfold [] ⟨.nil, trivial⟩

theorem canonical_strings (names : List String) : (strings names).Canonical := by
  refine canonicalItems_iff.mpr fun x hx => ?_
  obtain ⟨name, -, rfl⟩ := List.mem_map.mp hx
  trivial

-- ---------------------------------------------------------------------------
-- Places
-- ---------------------------------------------------------------------------

theorem inside_find? {key : String} (h : Keyed.find? members key = some x) :
    x ∈ (obj members).inside :=
  inside_member (Keyed.mem_of_find? h) mem_values_self

theorem inside_member? {key : String} (h : x.member? key = some y) : y ∈ x.inside := by
  cases x with
  | obj members => exact inside_find? h
  | _ => cases h

theorem obj?_eq_some : x.obj? = some members ↔ x = .obj members := by
  cases x <;> simp [obj?]

theorem inside_entries {key : String} {e : String × Json}
    (he : e ∈ ((x.member? key).bind obj?).getD []) : e.2 ∈ x.inside := by
  cases hentries : (x.member? key).bind obj? with
  | none => simp [hentries] at he
  | some entries =>
    rw [hentries, Option.getD_some] at he
    obtain ⟨y, hy, hobj⟩ := Option.bind_eq_some_iff.mp hentries
    obtain rfl := obj?_eq_some.mp hobj
    exact mem_inside_trans (inside_member? hy) (mem_values.mpr (.inr (inside_member he mem_values_self)))

theorem inside_token? {token : List Char} (h : x.token? token = some y) : y ∈ x.inside := by
  cases x with
  | arr items =>
    obtain ⟨i, -, hi⟩ := Option.bind_eq_some_iff.mp h
    exact inside_item (List.mem_of_getElem? hi) mem_values_self
  | obj members => exact inside_find? h
  | _ => cases h

theorem follow_mem {tokens : List (List Char)} (h : x.follow tokens = some y) : y ∈ x.values := by
  induction tokens generalizing x with
  | nil => exact Option.some.inj h ▸ mem_values_self
  | cons token tokens ih =>
    obtain ⟨z, hz, hrest⟩ := Option.bind_eq_some_iff.mp h
    exact mem_values_trans (mem_values.mpr (.inr (inside_token? hz))) (ih hrest)

end EventAdmission.Json
