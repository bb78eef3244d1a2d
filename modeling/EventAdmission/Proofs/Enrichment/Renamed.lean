import EventAdmission.Proofs.Enrichment.Faults
import EventAdmission.Proofs.Enrichment.Once

/-!
# Enrichment for another event type

Two event types with the same schema differ, once they are enriched, in what their
metadata list as the name of the event type. The proof takes the two runs side by
side. A merge hands a value that is no object on from the source to the result, so
replacing it in the source is replacing it in the result (`handsOn_replaceAt`), and
the schemas of the metadata for two names differ in such a value. `enrich_name`
carries this through the rest of enrichment, `enrich_name_only` states it for both
names alike.
-/

namespace EventAdmission

variable {x old value other : Json} {place : List String} {members : Members} {key : String}

-- ---------------------------------------------------------------------------
-- Replacing
-- ---------------------------------------------------------------------------

def Json.replaceAt (x : Json) (place : List String) (value : Json) : Json :=
  match place, x with
  | [], _ => value
  | key :: rest, .obj members =>
    .obj (Keyed.modify members key fun inner => replaceAt inner rest value)
  | _ :: _, x => x

theorem replaceAt_replaceAt :
    (x.replaceAt place value).replaceAt place other = x.replaceAt place other := by
  induction place generalizing x with
  | nil => rfl
  | cons key place ih =>
    cases x with
    | obj members =>
      have hinner : (fun inner : Json => inner.replaceAt place other) ∘
          (fun inner : Json => inner.replaceAt place value) =
            fun inner => inner.replaceAt place other := funext fun _ => ih
      simp only [Json.replaceAt, Keyed.modify_modify, hinner]
    | _ => rfl

theorem at?_replaceAt (h : x.at? (place.map .key) = some old) :
    (x.replaceAt place value).at? (place.map .key) = some value := by
  induction place generalizing x with
  | nil => rfl
  | cons key place ih =>
    simp only [List.map_cons, at?_key, Option.bind_eq_some_iff] at h ⊢
    obtain ⟨inner, hinner, h⟩ := h
    cases x with
    | obj members =>
      refine ⟨inner.replaceAt place value, ?_, ih h⟩
      have hfind : Keyed.find? members key = some inner := hinner
      simp [Json.replaceAt, Json.member?, hfind]
    | _ => cases hinner

namespace Enrichment

variable {keyword n m : String} {target source root owner : Members} {schema e : Json}
  {c : Category} {change : Json → Json} {names : List String}

-- ---------------------------------------------------------------------------
-- Merges
-- ---------------------------------------------------------------------------

theorem deepMerge_leaf (h : value.isObj = false) : deepMerge keyword x value = .ok value := by
  cases value <;> first | rfl | cases h

theorem appendRequired_modify (h : key ≠ "required") :
    appendRequired (Keyed.modify root key change) names =
      (Keyed.modify · key change) <$> appendRequired root names := by
  unfold appendRequired
  rw [Keyed.find?_modify_of_ne (Ne.symm h)]
  split
  · simp [Keyed.modify_insert_of_ne (Ne.symm h)]
  · rfl

theorem mergeMember_modify {k : String} (h : key ≠ k) :
    mergeMember keyword (Keyed.modify target key change) k value =
      (Keyed.modify · key change) <$> mergeMember keyword target k value := by
  unfold mergeMember
  split
  · rename_i hk
    subst hk
    rw [appendRequired_modify h]
    cases appendRequired target (namesOf value) <;> rfl
  · rw [Keyed.find?_modify_of_ne (Ne.symm h)]
    cases Keyed.find? target k with
    | none => simp [Functor.map, Except.map, Keyed.modify_insert_of_ne (Ne.symm h)]
    | some existing =>
      dsimp only
      cases deepMerge (keyword ++ "." ++ k) existing value <;>
        simp [Functor.map, Except.map, Keyed.modify_insert_of_ne (Ne.symm h)]

theorem mergeMembers_modify (h : Keyed.find? source key = none) :
    mergeMembers keyword (Keyed.modify target key change) source =
      (Keyed.modify · key change) <$> mergeMembers keyword target source := by
  induction source generalizing target with
  | nil => rfl
  | cons e rest ih =>
    obtain ⟨k, v⟩ := e
    rw [Keyed.find?_cons] at h
    split at h
    · cases h
    · rename_i hk
      rw [mergeMembers_cons, mergeMembers_cons, mergeMember_modify (Ne.symm hk)]
      cases hm : mergeMember keyword target k v with
      | error fault => rfl
      | ok merged => exact ih h

def HandsOn (change : Json → Json) (value : Json) : Prop :=
  ∀ keyword x, deepMerge keyword x (change value) = change <$> deepMerge keyword x value

theorem HandsOn.mergeMember (h : HandsOn change value) (hk : key ≠ "required") :
    mergeMember keyword target key (change value) =
      (Keyed.modify · key change) <$> mergeMember keyword target key value := by
  rw [Enrichment.mergeMember, if_neg hk, Enrichment.mergeMember, if_neg hk]
  cases Keyed.find? target key with
  | none => simp [Functor.map, Except.map, Keyed.modify_insert_self]
  | some existing =>
    simp only [h (keyword ++ "." ++ key) existing]
    cases deepMerge (keyword ++ "." ++ key) existing value <;>
      simp [Functor.map, Except.map, Keyed.modify_insert_self]

theorem HandsOn.mergeMembers (h : HandsOn change value) (hs : Keyed.Sorted source)
    (hv : Keyed.find? source key = some value) (hk : key ≠ "required") :
    mergeMembers keyword target (Keyed.modify source key change) =
      (Keyed.modify · key change) <$> mergeMembers keyword target source := by
  rw [Keyed.modify_of_find? hv]
  induction source generalizing target with
  | nil => cases hv
  | cons e rest ih =>
    obtain ⟨k, v⟩ := e
    obtain ⟨hlt, hrest⟩ := List.pairwise_cons.mp hs
    rw [Keyed.find?_cons] at hv
    split at hv
    · rename_i heq
      subst heq
      obtain rfl := Option.some.inj hv
      -- The members behind it are merged under other keys, so the change stays what it is.
      have hnone : Keyed.find? rest k = none := Keyed.find?_eq_none_of_lt hlt
      rw [Keyed.insert, if_pos rfl, mergeMembers_cons, mergeMembers_cons, h.mergeMember hk]
      cases hm : Enrichment.mergeMember keyword target k v with
      | error fault => rfl
      | ok merged => exact mergeMembers_modify hnone
    · rename_i hne
      have hkey : k < key := hlt _ (Keyed.mem_of_find? hv)
      have hnlt : ¬ key < k := fun hgt => String.lt_irrefl _ (String.lt_trans hkey hgt)
      rw [Keyed.insert, if_neg (Ne.symm hne), if_neg hnlt, mergeMembers_cons, mergeMembers_cons]
      cases hm : Enrichment.mergeMember keyword target k v with
      | error fault => rfl
      | ok merged => exact ih hrest hv

/-- A merge hands on what is no object, so it may be replaced before the merge or after it. -/
theorem handsOn_replaceAt (hs : x.Canonical) (hx : x.at? (place.map .key) = some old)
    (hold : old.isObj = false) (hvalue : value.isObj = false) (hne : "required" ∉ place) :
    HandsOn (·.replaceAt place value) x := by
  induction place generalizing x with
  | nil =>
    obtain rfl := Option.some.inj hx
    intro keyword target
    rw [deepMerge_leaf hold]
    exact deepMerge_leaf hvalue
  | cons key place ih =>
    obtain ⟨hkey, hplace⟩ := not_or.mp (mt List.mem_cons.mpr hne)
    simp only [List.map_cons, at?_key, Option.bind_eq_some_iff] at hx
    obtain ⟨inner, hinner, hx⟩ := hx
    cases x with
    | obj source =>
      have hbelow := ih (Json.canonical_of_find? hs.2 hinner) hx hplace
      intro keyword target
      cases target with
      | obj members =>
        simp only [Json.replaceAt, deepMerge, hbelow.mergeMembers hs.1 hinner (Ne.symm hkey)]
        cases hm : mergeMembers keyword members source <;> rfl
      | _ => rfl
    | _ => cases hinner

-- ---------------------------------------------------------------------------
-- Metadata
-- ---------------------------------------------------------------------------

def namePlace : List String := ["properties", "metadata", "properties", "event_type", "enum"]

def listedName : List String := ["properties", "event_type", "enum"]

theorem metadataSchema_replaceAt :
    (metadataSchema n).replaceAt listedName (.strings [m]) = metadataSchema m := by
  simp only [metadataSchema_eq, metadataProperties_eq, enumSchema_eq, listedName, Json.replaceAt,
    Keyed.modify, Keyed.find?_cons, Keyed.insert, String.reduceEq, String.reduceLT, ↓reduceIte]

theorem metadataSchema_name :
    (metadataSchema n).at? (listedName.map .key) = some (.strings [n]) := by
  simp [listedName, metadataSchema_eq, metadataProperties_eq, enumSchema_eq, at?_key, at?_nil,
    Json.member?, Keyed.find?_cons]

theorem handsOn_name : HandsOn (·.replaceAt listedName (.strings [m])) (metadataSchema n) :=
  handsOn_replaceAt canonical_metadataSchema metadataSchema_name rfl rfl (by decide)

def withName (m : String) (root : Members) : Members :=
  Keyed.modify root "properties" (·.replaceAt ("metadata" :: listedName) (.strings [m]))

theorem requireMetadata_name {properties : Members} {metadata : Json} :
    (match appendRequired (Keyed.insert owner "properties" (.obj (Keyed.insert properties "metadata"
        (metadata.replaceAt listedName (.strings [m]))))) ["metadata"] with
      | some root => (pure root : Except String Members)
      | none => .error "required") =
    withName m <$> (match appendRequired (Keyed.insert owner "properties"
        (.obj (Keyed.insert properties "metadata" metadata))) ["metadata"] with
      | some root => (pure root : Except String Members)
      | none => .error "required") := by
  have hset : Keyed.insert owner "properties" (.obj (Keyed.insert properties "metadata"
      (metadata.replaceAt listedName (.strings [m])))) =
        withName m (Keyed.insert owner "properties"
          (.obj (Keyed.insert properties "metadata" metadata))) := by
    rw [withName, Keyed.modify_insert_self, Json.replaceAt, Keyed.modify_insert_self]
  rw [hset, withName, appendRequired_modify (by decide)]
  cases appendRequired (Keyed.insert owner "properties"
    (.obj (Keyed.insert properties "metadata" metadata))) ["metadata"] <;> rfl

theorem addMetadata_name : addMetadata m owner = withName m <$> addMetadata n owner := by
  unfold addMetadata
  rw [← metadataSchema_replaceAt (n := n) (m := m)]
  cases objectAt owner "properties" with
  | error fault => rfl
  | ok properties =>
    simp only [bind, Except.bind]
    cases Keyed.find? properties "metadata" with
    | none => exact requireMetadata_name
    | some existing =>
      simp only [handsOn_name "metadata" existing]
      cases deepMerge "metadata" existing (metadataSchema n) with
      | error fault => rfl
      | ok metadata => exact requireMetadata_name

-- ---------------------------------------------------------------------------
-- Enrichment
-- ---------------------------------------------------------------------------

theorem dataChangeEnvelope_name :
    dataChangeEnvelope m owner = withName m <$> dataChangeEnvelope n owner := by
  unfold dataChangeEnvelope
  rw [addMetadata_name (n := n)]
  cases addMetadata n (closedEnvelope owner) with
  | error fault => rfl
  | ok root =>
    have happend : appendRequired (withName m root) Category.dataChange.requiredFields =
        withName m <$> appendRequired root Category.dataChange.requiredFields :=
      appendRequired_modify (by decide)
    simp only [bind, Except.bind, Functor.map, Except.map, happend]
    cases appendRequired root Category.dataChange.requiredFields <;> rfl

def renamed (m : String) : EnrichmentError → EnrichmentError
  | .alreadyEnriched _ => .alreadyEnriched m
  | .notAnObject _ => .notAnObject m
  | .malformedKeyword _ keyword => .malformedKeyword m keyword

theorem enrich_name (hc : c.requiresMetadata = true) :
    enrich c schema m = match enrich c schema n with
      | .ok e => .ok (e.replaceAt namePlace (.strings [m]))
      | .error f => .error (renamed m f) := by
  cases schema with
  | obj owner =>
    by_cases hs : isEnriched (.obj owner) = true
    · cases c with
      | undefined => cases hc
      | _ => simp [enrich, checkedRoot, hs, bind, Except.bind, renamed]
    · cases c with
      | undefined => cases hc
      | business =>
        simp only [enrich, checkedRoot, hs, bind, Except.bind, Bool.false_eq_true, ↓reduceIte,
          addMetadata_name (n := n) (m := m)]
        cases addMetadata n owner <;> rfl
      | dataChange =>
        simp only [enrich, checkedRoot, hs, bind, Except.bind, Bool.false_eq_true, ↓reduceIte,
          dataChangeEnvelope_name (n := n) (m := m)]
        cases dataChangeEnvelope n owner <;> rfl
  | _ =>
    cases c with
    | undefined => cases hc
    | _ => rfl

theorem name_listed (hc : c.requiresMetadata = true) (h : enrich c schema n = .ok e) :
    e.at? (namePlace.map .key) = some (.strings [n]) := by
  have hplace : namePlace = metadataPlace ++ listedName := rfl
  rw [hplace, List.map_append, at?_append]
  cases c with
  | undefined => cases hc
  | business =>
    obtain ⟨metadata, hmeta, hmerged, -⟩ := business_metadata h
    obtain ⟨enum, henum, hleaf⟩ :=
      hmerged.at? listedName canonical_metadataSchema metadataSchema_name (by decide)
    rw [hmeta, Option.bind_some, henum, hleaf.leaf rfl]
  | dataChange =>
    rw [(dataChange_metadata h).1, Option.bind_some, metadataSchema_name]

/-- The name of the event type is listed in the metadata of the result, and that is all that
depends on it. -/
theorem enrich_name_only (c : Category) (schema : Json) (n m : String) :
    fault? (enrich c schema m) = (fault? (enrich c schema n)).map (renamed m) ∧
      ∀ e f, enrich c schema n = .ok e → enrich c schema m = .ok f →
        (c.requiresMetadata = false → e = f) ∧
        (c.requiresMetadata = true →
          e.at? (namePlace.map .key) = some (.strings [n]) ∧
          f.at? (namePlace.map .key) = some (.strings [m]) ∧
          ∀ value, e.replaceAt namePlace value = f.replaceAt namePlace value) := by
  cases hc : c.requiresMetadata with
  | false =>
    cases c with
    | undefined =>
      refine ⟨rfl, fun e f he hf => ⟨fun _ => ?_, fun h => Bool.noConfusion h⟩⟩
      exact Except.ok.inj (he.symm.trans hf)
    | _ => cases hc
  | true =>
    have hname : enrich c schema m = _ := enrich_name (n := n) hc
    constructor
    · rw [hname]
      cases enrich c schema n <;> rfl
    · intro e f he hf
      rw [he] at hname
      obtain rfl := Except.ok.inj (hf.symm.trans hname)
      have hlisted := name_listed hc he
      exact ⟨fun h => Bool.noConfusion h, fun _ =>
        ⟨hlisted, at?_replaceAt hlisted, fun _ => replaceAt_replaceAt.symm⟩⟩

def borrowedNames : Json :=
  .obj [("properties", .obj [("login", .obj [("const", .str "logout")]),
    ("metadata", .obj [("properties", .obj [("event_type", .obj [("enum",
      .strings ["logout", "login"])])])])])]

theorem borrowedNames_name_only : ∃ e f, enrich .business borrowedNames "login" = .ok e ∧
    enrich .business borrowedNames "logout" = .ok f ∧
      e.at? (namePlace.map .key) = some (.strings ["login"]) ∧
      f.at? (namePlace.map .key) = some (.strings ["logout"]) ∧
      ∀ value, e.replaceAt namePlace value = f.replaceAt namePlace value := by
  have hlogin : (enrich .business borrowedNames "login").isOk = true := rfl
  have hlogout : (enrich .business borrowedNames "logout").isOk = true := rfl
  obtain ⟨e, he⟩ := isOk_iff.mp hlogin
  obtain ⟨f, hf⟩ := isOk_iff.mp hlogout
  obtain ⟨-, hboth⟩ := enrich_name_only .business borrowedNames "login" "logout"
  exact ⟨e, f, he, hf, (hboth e f he hf).2 rfl⟩

end Enrichment

end EventAdmission
