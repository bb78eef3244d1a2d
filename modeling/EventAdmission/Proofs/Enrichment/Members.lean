import EventAdmission.Proofs.Enrichment.Once

/-!
# A merge, member by member

What the merge of an object makes of each key, told at once: a key that the
source does not hold keeps its value, one that it holds has the value merged into
the old one, and the required names are the old list with the missing names at
its end (`Merged.members`). From it come the laws for whole places: what stays
(`Merged.kept`), and that there is nothing else (`Merged.origin`).
-/

namespace EventAdmission.Enrichment

variable {keyword key name : String} {target source merged olds news : Members}
  {value result x : Json} {old : Option Json} {items : List Json} {names place : List String}

-- ---------------------------------------------------------------------------
-- Members
-- ---------------------------------------------------------------------------

/-- What a document calls `required` is a list of names, each once. -/
def ListsNames (x : Json) : Prop :=
  ∀ y ∈ x.values, ∀ v, y.member? "required" = some v →
    ∃ names : List String, v = .strings names ∧ names.Nodup

theorem ListsNames.member (h : ListsNames (.obj source))
    (hv : Keyed.find? source key = some value) : ListsNames value := fun y hy =>
  h y (Json.mem_values_trans (Json.mem_values.mpr (.inr (Json.inside_find? hv))) hy)

structure MergedMembers (olds source news : Members) : Prop where
  other : ∀ key, Keyed.find? source key = none → Keyed.find? news key = Keyed.find? olds key
  same : ∀ key value, Keyed.find? source key = some value → key ≠ "required" →
    ∃ result, Keyed.find? news key = some result ∧ Merged (Keyed.find? olds key) value result
  required : ∀ names, Keyed.find? source "required" = some (.strings names) → names.Nodup →
    ∃ items, (Keyed.find? olds "required").getD (.arr []) = .arr items ∧
      Keyed.find? news "required" =
        some (.arr (items ++ (names.filter fun name => .str name ∉ items).map .str))
  sorted : Keyed.Sorted olds → Keyed.Sorted news

theorem sorted_mergeMember (h : mergeMember keyword target key value = .ok merged)
    (hs : Keyed.Sorted target) : Keyed.Sorted merged := by
  unfold mergeMember at h
  split at h
  · cases ha : appendRequired target (namesOf value) with
    | none => simp [ha] at h
    | some appended =>
      simp only [ha, Except.ok.injEq] at h
      obtain ⟨items, -, rfl⟩ := appendRequired_ok ha
      exact h ▸ Keyed.sorted_insert hs
  · cases ht : Keyed.find? target key with
    | none =>
      simp only [ht, Except.ok.injEq] at h
      exact h ▸ Keyed.sorted_insert hs
    | some existing =>
      simp only [ht] at h
      obtain ⟨result, -, rfl⟩ := map_ok.mp h
      exact Keyed.sorted_insert hs

theorem sorted_mergeMembers (h : mergeMembers keyword target source = .ok merged)
    (hs : Keyed.Sorted target) : Keyed.Sorted merged := by
  induction source generalizing target with
  | nil =>
    rw [mergeMembers] at h
    exact Except.ok.inj h ▸ hs
  | cons e rest ih =>
    obtain ⟨k, v⟩ := e
    rw [mergeMembers_cons] at h
    obtain ⟨step, hstep, h⟩ := bind_ok.mp h
    exact ih h (sorted_mergeMember hstep hs)

theorem mergeMember_names (h : mergeMember keyword target "required" (.strings names) = .ok merged)
    (hnames : names.Nodup) :
    ∃ items, (Keyed.find? target "required").getD (.arr []) = .arr items ∧
      Keyed.find? merged "required" =
        some (.arr (items ++ (names.filter fun name => .str name ∉ items).map .str)) := by
  rw [mergeMember, if_pos rfl, namesOf_names] at h
  cases ha : appendRequired target names with
  | none => simp [ha] at h
  | some appended =>
    simp only [ha, Except.ok.injEq] at h
    obtain ⟨items, hitems, rfl⟩ := appendRequired_ok ha
    subst h
    exact ⟨items, hitems, by rw [Keyed.find?_insert_self, appendNames_eq hnames]⟩

theorem mergedMembers_of_ok (hs : Keyed.Sorted source)
    (h : mergeMembers keyword olds source = .ok news) : MergedMembers olds source news := by
  refine ⟨fun key hk => mergeMembers_other h hk, fun key value hk hne => mergeMembers_same hs h hk hne,
    fun names hk hnames => ?_, sorted_mergeMembers h⟩
  obtain ⟨before, after, hbefore, hmember, hafter⟩ := mergeMembers_step hs h hk
  rw [hafter, ← hbefore]
  exact mergeMember_names hmember hnames

theorem mergedMembers_of_nothing (hs : Keyed.Sorted source) : MergedMembers [] source source := by
  refine ⟨fun key hk => hk, fun key value hk _ => ⟨value, hk, rfl⟩, fun names hk hnames => ?_,
    fun _ => hs⟩
  exact ⟨[], rfl, by simp [hk, Json.strings]⟩

theorem Merged.members (h : Merged old (.obj source) result) (hs : Keyed.Sorted source) :
    ∃ olds news, (old = some (.obj olds) ∨ old = none ∧ olds = []) ∧ result = .obj news ∧
      MergedMembers olds source news := by
  obtain ⟨rfl, rfl⟩ | ⟨members, keyword, merged, rfl, rfl, hm⟩ := h.obj
  · exact ⟨[], source, .inr ⟨rfl, rfl⟩, rfl, mergedMembers_of_nothing hs⟩
  · exact ⟨members, merged, .inl rfl, rfl, mergedMembers_of_ok hs hm⟩

theorem Merged.members_of {P : Json → Prop} (h : Merged old (.obj source) result)
    (hs : Keyed.Sorted source) (hnil : P (.obj [])) (hold : ∀ x, old = some x → P x) :
    ∃ olds news, P (.obj olds) ∧ result = .obj news ∧ MergedMembers olds source news := by
  obtain ⟨olds, news, hcases, rfl, hm⟩ := h.members hs
  refine ⟨olds, news, ?_, rfl, hm⟩
  rcases hcases with hsome | ⟨-, rfl⟩
  · exact hold _ hsome
  · exact hnil

theorem oldNames_cases {P : Json → Prop}
    (hitems : (Keyed.find? olds "required").getD (.arr []) = .arr items)
    (hold : ∀ x, Keyed.find? olds "required" = some x → P x) : items = [] ∨ P (.arr items) := by
  cases hr : Keyed.find? olds "required" with
  | none =>
    rw [hr] at hitems
    exact .inl (Json.arr.inj hitems).symm
  | some x =>
    rw [hr] at hitems
    exact .inr (hitems ▸ hold x hr)

-- ---------------------------------------------------------------------------
-- Places
-- ---------------------------------------------------------------------------

theorem at?_of_objectAt (h : objectAt target "properties" = .ok merged) :
    (Json.obj target).at? [.key "properties", .key key] = Keyed.find? merged key := by
  unfold objectAt at h
  simp only [at?_key, at?_nil, Json.member?]
  cases hp : Keyed.find? target "properties" with
  | none =>
    rw [hp] at h
    obtain rfl := Except.ok.inj h
    rfl
  | some p =>
    rw [hp] at h
    cases p <;> cases h
    cases h : Keyed.find? merged key <;> simp [h]

/-- A place of the old document stays unless the source has something else than an object there or
above it. Its value stays too, unless it is an object. -/
theorem Merged.kept (h : Merged old value result) (hs : value.Canonical) (hn : ListsNames value)
    (hx : old.bind (·.at? (place.map .key)) = some x)
    (hfree : ∀ front, front <+: place → ∀ y, value.at? (front.map .key) = some y →
      y.isObj = true) :
    ∃ y, result.at? (place.map .key) = some y ∧ (x.isObj = false → y = x) := by
  induction place generalizing old value result with
  | nil =>
    have hobj := hfree [] List.nil_prefix value rfl
    cases value with
    | obj source =>
      obtain ⟨olds, news, hold, rfl, -⟩ := h.members hs.1
      refine ⟨_, rfl, fun hleaf => ?_⟩
      rcases hold with rfl | ⟨rfl, -⟩
      · cases hx
        cases hleaf
      · cases hx
    | _ => cases hobj
  | cons key place ih =>
    have hobj := hfree [] List.nil_prefix value rfl
    cases value with
    | obj source =>
      obtain ⟨olds, news, hold, rfl, hm⟩ := h.members hs.1
      have hx : (Keyed.find? olds key).bind (·.at? (place.map .key)) = some x := by
        rcases hold with rfl | ⟨rfl, -⟩
        · simpa only [List.map_cons, Option.bind_some, at?_key, Json.member?] using hx
        · cases hx
      simp only [List.map_cons, at?_key]
      cases hv : Keyed.find? source key with
      | none =>
        have hnews : (Json.obj news).member? key = Keyed.find? olds key := hm.other key hv
        exact ⟨x, by rw [hnews, hx], fun _ => rfl⟩
      | some v =>
        have hbelow : ∀ front, front <+: place → ∀ y, v.at? (front.map .key) = some y →
            y.isObj = true := by
          intro front hfront y hy
          refine hfree (key :: front) (List.cons_prefix_cons.mpr ⟨rfl, hfront⟩) y ?_
          have hmember : (Json.obj source).member? key = some v := hv
          rwa [List.map_cons, at?_key, hmember, Option.bind_some]
        by_cases hkey : key = "required"
        · subst hkey
          obtain ⟨names, rfl, -⟩ := hn _ Json.mem_values_self v hv
          cases hbelow [] List.nil_prefix _ rfl
        · obtain ⟨r, hr, hmerged⟩ := hm.same key v hv hkey
          have hnews : (Json.obj news).member? key = some r := hr
          rw [hnews, Option.bind_some]
          exact ih hmerged (Json.canonical_of_find? hs.2 hv) (hn.member hv) hx hbelow
    | _ => cases hobj

/-- Every place of a merged document is one of the old document or one of the source. -/
theorem Merged.origin (h : Merged old value result) (hs : value.Canonical) (hn : ListsNames value)
    (hx : result.at? (place.map .key) = some x) :
    (∃ y, old.bind (·.at? (place.map .key)) = some y) ∨
      ∃ y, value.at? (place.map .key) = some y := by
  induction place generalizing old value result with
  | nil => exact .inr ⟨value, rfl⟩
  | cons key place ih =>
    cases value with
    | obj source =>
      obtain ⟨olds, news, hold, rfl, hm⟩ := h.members hs.1
      have holds : (Keyed.find? olds key).bind (·.at? (place.map .key)) =
          old.bind (·.at? ((key :: place).map .key)) := by
        rcases hold with rfl | ⟨rfl, rfl⟩
        · simp only [List.map_cons, Option.bind_some, at?_key, Json.member?]
        · rfl
      have hsource : ∀ v, Keyed.find? source key = some v →
          (Json.obj source).at? ((key :: place).map .key) = v.at? (place.map .key) := by
        intro v hv
        have hmember : (Json.obj source).member? key = some v := hv
        rw [List.map_cons, at?_key, hmember, Option.bind_some]
      rw [← holds]
      simp only [List.map_cons, at?_key, Json.member?] at hx
      cases hv : Keyed.find? source key with
      | none =>
        rw [hm.other key hv] at hx
        exact .inl ⟨x, hx⟩
      | some v =>
        rw [hsource v hv]
        by_cases hkey : key = "required"
        · subst hkey
          obtain ⟨names, rfl, hnames⟩ := hn _ Json.mem_values_self v hv
          obtain ⟨items, -, hitems⟩ := hm.required names hv hnames
          rw [hitems] at hx
          cases place with
          | nil => exact .inr ⟨_, rfl⟩
          | cons next place => cases hx
        · obtain ⟨r, hr, hmerged⟩ := hm.same key v hv hkey
          rw [hr, Option.bind_some] at hx
          exact ih hmerged (Json.canonical_of_find? hs.2 hv) (hn.member hv) hx
    | _ => exact .inr ⟨x, h.leaf rfl ▸ hx⟩

end EventAdmission.Enrichment
