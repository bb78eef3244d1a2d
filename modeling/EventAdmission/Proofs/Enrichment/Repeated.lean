import EventAdmission.Proofs.Business.Lossless
import EventAdmission.Proofs.Enrichment.Renamed

/-!
# Merging once more

What a source has to say is in the result of its merge: the same merge finds every
name in its list, every value that is no object in its place, and below each key
the result of the merge that went there (`Merged.again`). So a merge that is
repeated changes nothing. With the metadata of two event types the second merge
changes the name and nothing else, whoever came first (`deepMerge_again`).
-/

namespace EventAdmission.Enrichment

variable {keyword key : String} {target source news : Members} {value result x v : Json}
  {old : Option Json} {items : List Json} {names : List String}

-- ---------------------------------------------------------------------------
-- Required names
-- ---------------------------------------------------------------------------

def RequiresLists (x : Json) : Prop :=
  ∀ y ∈ x.values, ∀ v, y.member? "required" = some v → ∃ items, v = .arr items

theorem RequiresLists.member (h : RequiresLists (.obj source))
    (hv : Keyed.find? source key = some value) : RequiresLists value := fun y hy =>
  h y (Json.mem_values_trans (Json.mem_values.mpr (.inr (Json.inside_find? hv))) hy)

theorem ListsNames.requiresLists (h : ListsNames x) : RequiresLists x := fun y hy v hv =>
  let ⟨_, hnames, _⟩ := h y hy v hv
  ⟨_, hnames⟩

-- ---------------------------------------------------------------------------
-- Members that have nothing to add
-- ---------------------------------------------------------------------------

theorem mergeMember_again (hs : Keyed.Sorted target) (hkey : key ≠ "required")
    (hx : Keyed.find? target key = some x)
    (hmerge : deepMerge (keyword ++ "." ++ key) x value = .ok x) :
    mergeMember keyword target key value = .ok target := by
  rw [mergeMember, if_neg hkey, hx]
  exact map_ok.mpr ⟨x, hmerge, Keyed.insert_of_find? hs hx⟩

theorem mergeMember_listed (hs : Keyed.Sorted target)
    (hx : Keyed.find? target "required" = some (.arr items))
    (hnames : ∀ name ∈ namesOf value, .str name ∈ items) :
    mergeMember keyword target "required" value = .ok target := by
  have happend : appendRequired target (namesOf value) = some target := by
    rw [appendRequired_of_list (by rw [hx, Option.getD_some]), appendNames_listed hnames,
      Keyed.insert_of_find? hs hx]
  rw [mergeMember, if_pos rfl, happend]

theorem mergeMembers_settled (h : ∀ e ∈ source, mergeMember keyword target e.1 e.2 = .ok target) :
    mergeMembers keyword target source = .ok target := by
  induction source with
  | nil => rfl
  | cons e source ih =>
    obtain ⟨key, value⟩ := e
    obtain ⟨he, h⟩ := List.forall_mem_cons.mp h
    rw [mergeMembers_cons]
    exact bind_ok.mpr ⟨target, he, ih h⟩

-- ---------------------------------------------------------------------------
-- The same merge again
-- ---------------------------------------------------------------------------

theorem Merged.required_listed (h : Merged old (.obj source) (.obj news)) (hs : Keyed.Sorted source)
    (hv : Keyed.find? source "required" = some (.arr items)) :
    ∃ listed, Keyed.find? news "required" = some (.arr listed) ∧
      ∀ name ∈ namesOf (.arr items), .str name ∈ listed := by
  rcases h.obj with ⟨-, heq⟩ | ⟨members, _, merged, -, heq, hm⟩
  · obtain rfl := Json.obj.inj heq
    exact ⟨items, hv, fun name hname => mem_namesOf_arr.mp hname⟩
  · obtain rfl := Json.obj.inj heq
    obtain ⟨olds, hlisted⟩ := mergeMembers_required hs hm hv
    exact ⟨_, hlisted, fun name hname => mem_appendNames hname⟩

theorem Merged.again (h : Merged old value result) (hs : value.Canonical)
    (hr : RequiresLists value) (hold : ∀ x, old = some x → x.Canonical) :
    deepMerge keyword result value = .ok result := by
  induction value using Json.induct generalizing old result keyword with
  | scalar value harr hobj =>
    have hleaf : value.isObj = false := by cases value <;> first | rfl | cases hobj
    rw [h.leaf hleaf, deepMerge_leaf hleaf]
  | array items ih => rw [h.leaf rfl, deepMerge_leaf rfl]
  | object source ih =>
    obtain ⟨olds, news, holds, rfl, hm⟩ := h.members_of hs.1 ⟨.nil, trivial⟩ hold
    have hsorted : Keyed.Sorted news := hm.sorted holds.1
    rw [deepMerge]
    refine map_ok.mpr ⟨news, mergeMembers_settled fun e he => ?_, rfl⟩
    obtain ⟨key, v⟩ := e
    have hv : Keyed.find? source key = some v := Keyed.find?_of_mem hs.1 he
    by_cases hkey : key = "required"
    · subst hkey
      obtain ⟨items, rfl⟩ := hr _ Json.mem_values_self v hv
      obtain ⟨listed, hlisted, hnames⟩ := h.required_listed hs.1 hv
      exact mergeMember_listed hsorted hlisted hnames
    · obtain ⟨r, hfind, hmerged⟩ := hm.same key v hv hkey
      exact mergeMember_again hsorted hkey hfind
        (ih _ he hmerged (Json.canonical_of_find? hs.2 hv) (hr.member hv)
          fun x hx => Json.canonical_of_find? holds.2 hx)

-- ---------------------------------------------------------------------------
-- The metadata of another event type
-- ---------------------------------------------------------------------------

theorem deepMerge_metadata_name (n m : String) :
    deepMerge keyword x (metadataSchema m) =
      (·.replaceAt listedName (.strings [m])) <$> deepMerge keyword x (metadataSchema n) := by
  rw [← metadataSchema_replaceAt (n := n) (m := m)]
  exact handsOn_name keyword x

/-- A merge that is repeated changes nothing, and of the metadata of two event types it is the last
that counts. -/
theorem deepMerge_again (hx : x.Canonical) :
    (∀ source result keyword, source.Canonical → RequiresLists source →
      deepMerge keyword x source = .ok result → deepMerge keyword result source = .ok result) ∧
    ∀ n m keyword,
      ((∃ result, deepMerge keyword x (metadataSchema n) = .ok result) ↔
        ∃ result, deepMerge keyword x (metadataSchema m) = .ok result) ∧
      ∀ result, deepMerge keyword x (metadataSchema n) = .ok result →
        deepMerge keyword result (metadataSchema m) = deepMerge keyword x (metadataSchema m) := by
  have hagain : ∀ source result keyword, source.Canonical → RequiresLists source →
      deepMerge keyword x source = .ok result → deepMerge keyword result source = .ok result := by
    intro source result keyword hs hr h
    have hmerged : Merged (some x) source result := ⟨keyword, h⟩
    exact hmerged.again hs hr fun y hy => Option.some.inj hy ▸ hx
  refine ⟨hagain, fun n m keyword => ⟨?_, fun result h => ?_⟩⟩
  · rw [deepMerge_metadata_name n m]
    cases deepMerge keyword x (metadataSchema n) <;> simp [Functor.map, Except.map]
  · rw [deepMerge_metadata_name n m, deepMerge_metadata_name n m, h,
      hagain _ _ _ canonical_metadataSchema listsNames_metadataSchema.requiresLists h]

def ownMetadata : Json :=
  .obj [("properties", .obj [("event_type", .obj [("enum", .strings ["signup"])]),
      ("tenant", stringSchema)]),
    ("required", .arr [.null, .str "tenant", .str "tenant"])]

def furtherMetadata : Json :=
  .obj [("not", .obj [("required", .arr [.str "test", .bool true, .str "test"])]),
    ("properties", .obj [("event_type", .obj [("enum", .strings ["login"])])]),
    ("required", .strings ["eid", "tenant", "eid"])]

theorem ownMetadata_canonical : ownMetadata.Canonical := by
  simp only [ownMetadata, stringSchema_eq, Json.strings, List.map, Json.Canonical,
    Json.CanonicalMembers, Json.CanonicalItems, Keyed.Sorted]
  decide

theorem furtherMetadata_canonical : furtherMetadata.Canonical := by
  simp only [furtherMetadata, Json.strings, List.map, Json.Canonical, Json.CanonicalMembers,
    Json.CanonicalItems, Keyed.Sorted]
  decide

theorem ownMetadata_again : ∃ joined named, deepMerge "metadata" ownMetadata furtherMetadata =
      .ok joined ∧ deepMerge "metadata" joined furtherMetadata = .ok joined ∧
    deepMerge "metadata" ownMetadata (metadataSchema "login") = .ok named ∧
      deepMerge "metadata" named (metadataSchema "logout") =
        deepMerge "metadata" ownMetadata (metadataSchema "logout") := by
  have hjoined : (deepMerge "metadata" ownMetadata furtherMetadata).isOk = true := rfl
  have hnamed : (deepMerge "metadata" ownMetadata (metadataSchema "login")).isOk = true := rfl
  obtain ⟨joined, hjoined⟩ := isOk_iff.mp hjoined
  obtain ⟨named, hnamed⟩ := isOk_iff.mp hnamed
  have hlists : RequiresLists furtherMetadata := by
    have harr : ∀ y ∈ furtherMetadata.values,
        (y.member? "required").all (·.arr?.isSome) = true := by decide
    intro y hy v hv
    have hsome : v.arr?.isSome = true := by simpa [hv] using harr y hy
    cases v <;> first | exact ⟨_, rfl⟩ | cases hsome
  obtain ⟨hagain, hname⟩ := deepMerge_again ownMetadata_canonical
  exact ⟨joined, named, hjoined, hagain _ _ _ furtherMetadata_canonical hlists hjoined, hnamed,
    (hname "login" "logout" "metadata").2 named hnamed⟩

end EventAdmission.Enrichment
