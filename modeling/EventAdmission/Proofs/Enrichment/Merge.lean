import EventAdmission.Proofs.Enrichment.RequiredNames
import EventAdmission.Proofs.Outcome

/-!
# What merging leaves and what it adds

Merging into an object changes no key that the source does not hold, and under
every key of the source stands what the source says, merged into what stood
there before. The list of required names is the exception: it keeps its names
and gains the others.
-/

namespace EventAdmission.Enrichment

variable {keyword key name : String} {target source merged root : Members} {value result : Json}
  {items : List Json} {names : List String}

-- ---------------------------------------------------------------------------
-- Members
-- ---------------------------------------------------------------------------

def mergeMember (keyword : String) (target : Members) (key : String) (value : Json) :
    Except String Members :=
  if key = "required" then
    match appendRequired target (namesOf value) with
    | some merged => .ok merged
    | none => .error (keyword ++ ".required")
  else
    match Keyed.find? target key with
    | some existing => Keyed.insert target key <$> deepMerge (keyword ++ "." ++ key) existing value
    | none => .ok (Keyed.insert target key value)

theorem mergeMembers_cons :
    mergeMembers keyword target ((key, value) :: source) =
      mergeMember keyword target key value >>= fun merged => mergeMembers keyword merged source := by
  rw [mergeMembers, mergeMember]
  split
  · cases appendRequired target (namesOf value) <;> rfl
  · cases Keyed.find? target key with
    | none => rfl
    | some existing =>
      cases deepMerge (keyword ++ "." ++ key) existing value <;> rfl

theorem mergeMember_other (h : mergeMember keyword target key value = .ok merged) {other : String}
    (hk : other ≠ key) : Keyed.find? merged other = Keyed.find? target other := by
  unfold mergeMember at h
  split at h
  · rename_i hreq
    subst hreq
    cases ha : appendRequired target (namesOf value) with
    | none => simp [ha] at h
    | some appended =>
      simp only [ha, Except.ok.injEq] at h
      exact h ▸ find?_appendRequired ha hk
  · cases ht : Keyed.find? target key with
    | none =>
      simp only [ht, Except.ok.injEq] at h
      exact h ▸ Keyed.find?_insert_of_ne hk
    | some existing =>
      simp only [ht] at h
      obtain ⟨result, -, rfl⟩ := map_ok.mp h
      exact Keyed.find?_insert_of_ne hk

/-- What stands under a key after a value was merged into what stood there. -/
def Merged (old : Option Json) (value result : Json) : Prop :=
  match old with
  | none => result = value
  | some existing => ∃ keyword, deepMerge keyword existing value = .ok result

theorem mergeMember_same (h : mergeMember keyword target key value = .ok merged)
    (hk : key ≠ "required") :
    ∃ result, Keyed.find? merged key = some result ∧ Merged (Keyed.find? target key) value result := by
  rw [mergeMember, if_neg hk] at h
  cases ht : Keyed.find? target key with
  | none =>
    simp only [ht, Except.ok.injEq] at h
    exact ⟨value, h ▸ Keyed.find?_insert_self, rfl⟩
  | some existing =>
    simp only [ht] at h
    obtain ⟨result, hd, rfl⟩ := map_ok.mp h
    exact ⟨result, Keyed.find?_insert_self, _, hd⟩

theorem mergeMember_required (h : mergeMember keyword target "required" value = .ok merged) :
    ∃ items, Keyed.find? merged "required" = some (.arr (appendNames items (namesOf value))) := by
  rw [mergeMember, if_pos rfl] at h
  cases ha : appendRequired target (namesOf value) with
  | none => simp [ha] at h
  | some appended =>
    simp only [ha, Except.ok.injEq] at h
    obtain ⟨items, -, rfl⟩ := appendRequired_ok ha
    exact ⟨items, h ▸ Keyed.find?_insert_self⟩

theorem mergeMembers_other (h : mergeMembers keyword target source = .ok merged)
    (hk : Keyed.find? source key = none) : Keyed.find? merged key = Keyed.find? target key := by
  induction source generalizing target with
  | nil =>
    rw [mergeMembers] at h
    rw [Except.ok.inj h]
  | cons e rest ih =>
    obtain ⟨k, v⟩ := e
    rw [mergeMembers_cons] at h
    obtain ⟨step, hstep, h⟩ := bind_ok.mp h
    have hne : key ≠ k := fun e => by simp [Keyed.find?_cons, e] at hk
    rw [Keyed.find?_cons, if_neg (Ne.symm hne)] at hk
    rw [ih h hk, mergeMember_other hstep hne]

theorem mergeMembers_step (hs : Keyed.Sorted source)
    (h : mergeMembers keyword target source = .ok merged)
    (hk : Keyed.find? source key = some value) :
    ∃ before after, Keyed.find? before key = Keyed.find? target key ∧
      mergeMember keyword before key value = .ok after ∧
      Keyed.find? merged key = Keyed.find? after key := by
  induction source generalizing target with
  | nil => simp at hk
  | cons e rest ih =>
    obtain ⟨k, v⟩ := e
    rw [mergeMembers_cons] at h
    obtain ⟨step, hstep, h⟩ := bind_ok.mp h
    obtain ⟨hlt, hrest⟩ := List.pairwise_cons.mp hs
    rw [Keyed.find?_cons] at hk
    split at hk
    · rename_i hkey
      subst hkey
      obtain rfl := Option.some.inj hk
      have hnone : Keyed.find? rest k = none :=
        Keyed.find?_eq_none.mpr fun e he hek => absurd (hlt e he) (hek ▸ String.lt_irrefl _)
      exact ⟨target, step, rfl, hstep, mergeMembers_other h hnone⟩
    · rename_i hkey
      obtain ⟨before, after, hbefore, hmember, hafter⟩ := ih hrest h hk
      exact ⟨before, after, hbefore.trans (mergeMember_other hstep (Ne.symm hkey)), hmember, hafter⟩

theorem mergeMembers_same (hs : Keyed.Sorted source)
    (h : mergeMembers keyword target source = .ok merged)
    (hk : Keyed.find? source key = some value) (hne : key ≠ "required") :
    ∃ result, Keyed.find? merged key = some result ∧ Merged (Keyed.find? target key) value result := by
  obtain ⟨before, after, hbefore, hmember, hafter⟩ := mergeMembers_step hs h hk
  rw [hafter, ← hbefore]
  exact mergeMember_same hmember hne

theorem mergeMembers_required (hs : Keyed.Sorted source)
    (h : mergeMembers keyword target source = .ok merged)
    (hk : Keyed.find? source "required" = some value) :
    ∃ items, Keyed.find? merged "required" = some (.arr (appendNames items (namesOf value))) := by
  obtain ⟨before, after, -, hmember, hafter⟩ := mergeMembers_step hs h hk
  rw [hafter]
  exact mergeMember_required hmember

-- ---------------------------------------------------------------------------
-- Values
-- ---------------------------------------------------------------------------

theorem Merged.leaf {old : Option Json} (h : Merged old value result) (hvalue : value.isObj = false) :
    result = value := by
  cases old with
  | none => exact h
  | some existing =>
    obtain ⟨keyword, h⟩ := h
    cases value with
    | obj members => cases hvalue
    | _ => simpa [deepMerge, eq_comm] using h

theorem Merged.obj {old : Option Json} (h : Merged old (.obj source) result) :
    (old = none ∧ result = .obj source) ∨ ∃ members keyword merged, old = some (.obj members) ∧
      result = .obj merged ∧ mergeMembers keyword members source = .ok merged := by
  cases old with
  | none => exact .inl ⟨rfl, h⟩
  | some existing =>
    obtain ⟨keyword, h⟩ := h
    cases existing with
    | obj members =>
      rw [deepMerge] at h
      obtain ⟨merged, hm, rfl⟩ := map_ok.mp h
      exact .inr ⟨members, keyword, merged, rfl, rfl, hm⟩
    | _ => simp [deepMerge] at h

-- ---------------------------------------------------------------------------
-- Members of a merged object
-- ---------------------------------------------------------------------------

variable {old : Option Json}

theorem Merged.isObj (h : Merged old (.obj source) result) : ∃ members, result = .obj members := by
  rcases h.obj with ⟨-, rfl⟩ | ⟨_, _, merged, -, rfl, -⟩
  · exact ⟨_, rfl⟩
  · exact ⟨merged, rfl⟩

theorem Merged.member?_other (h : Merged old (.obj source) result)
    (hk : Keyed.find? source key = none) : result.member? key = old.bind (·.member? key) := by
  rcases h.obj with ⟨rfl, rfl⟩ | ⟨members, _, merged, rfl, rfl, hm⟩
  · exact hk
  · exact mergeMembers_other hm hk

theorem Merged.member?_same (key : String) (h : Merged old (.obj source) result) (hs : Keyed.Sorted source)
    (hk : Keyed.find? source key = some value) (hne : key ≠ "required") :
    ∃ r, result.member? key = some r ∧ Merged (old.bind (·.member? key)) value r := by
  rcases h.obj with ⟨rfl, rfl⟩ | ⟨members, _, merged, rfl, rfl, hm⟩
  · exact ⟨value, hk, rfl⟩
  · exact mergeMembers_same hs hm hk hne

theorem Merged.required (h : Merged old (.obj source) result) (hs : Keyed.Sorted source)
    (hk : Keyed.find? source "required" = some (.strings names)) :
    ∃ items, result.member? "required" = some (.arr items) ∧
      ∀ name ∈ names, .str name ∈ items := by
  rcases h.obj with ⟨rfl, rfl⟩ | ⟨members, _, merged, rfl, rfl, hm⟩
  · exact ⟨_, hk, fun name hname => List.mem_map.mpr ⟨name, hname, rfl⟩⟩
  · obtain ⟨items, hreq⟩ := mergeMembers_required hs hm hk
    exact ⟨_, hreq, fun name hname => mem_appendNames (namesOf_names.symm ▸ hname)⟩

end EventAdmission.Enrichment
