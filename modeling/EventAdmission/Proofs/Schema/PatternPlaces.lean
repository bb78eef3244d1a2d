import EventAdmission.Proofs.Json.Places
import EventAdmission.Proofs.Schema.Patterns
import Mathlib.Data.List.Forall2
import Mathlib.Data.Set.Card

/-!
# Where the patterns of a document stand

A document has patterns in two kinds of places (`PatternPlace`): a member `pattern`
holds one, and the keys of what a member `patternProperties` holds are some, whatever
is around these members and whatever their names mean there. `patternsOutside_collected`:
the patterns that a matcher does not take are collected from all these places, once
from each, and in the order of a walk through the document.
-/

namespace EventAdmission

/-- A place for a pattern. Below `patternProperties` a member `pattern` is two of them: its key is a
pattern, and its value may be another. -/
inductive PatternPlace where
  /-- The member `pattern` of the object at a path. -/
  | keyword (object : Path)
  /-- A key of what the object at a path holds under `patternProperties`. -/
  | entry (object : Path) (key : String)
deriving DecidableEq

def PatternAt (x : Json) (p : String) : PatternPlace → Prop
  | .keyword object => x.at? (object ++ [.key "pattern"]) = some (.str p)
  | .entry object key =>
    key = p ∧ ∃ v, x.at? (object ++ [.key "patternProperties", .key key]) = some v

namespace PatternPlace

def member : PatternPlace → Path
  | keyword object => object ++ [.key "pattern"]
  | entry object _ => object ++ [.key "patternProperties"]

/-- The order of a walk through a document: by the members, and the keys of one member, which come
before everything inside it, as they stand there. -/
inductive Before : PatternPlace → PatternPlace → Prop
  | member {a b : PatternPlace} (h : a.member.Before b.member) : Before a b
  | key {object : Path} {k l : String} (h : k < l) : Before (entry object k) (entry object l)

theorem Before.irrefl (place : PatternPlace) : ¬ place.Before place := by
  intro h
  cases h with
  | member h => exact Path.Before.irrefl _ h
  | key h => exact String.lt_irrefl _ h

def Holds (place : PatternPlace) (y : Json) (p : String) : Prop :=
  match place with
  | keyword _ => y = .str p
  | entry _ key => key = p ∧ ∃ v, y.member? key = some v

end PatternPlace

namespace Schema

open Json

variable {x y : Json} {p key : String} {place : PatternPlace} {object path : Path} {s : Step}
  {found : List (PatternPlace × String)}

theorem patternAt_iff :
    PatternAt x p place ↔ ∃ y, x.at? place.member = some y ∧ place.Holds y p := by
  cases place with
  | keyword object => simp [PatternAt, PatternPlace.member, PatternPlace.Holds]
  | entry object key =>
    have hsplit : x.at? (object ++ [.key "patternProperties", .key key]) =
        (x.at? (object ++ [.key "patternProperties"])).bind (·.member? key) := by
      rw [List.append_cons, at?_append]
      refine Option.bind_congr fun y _ => ?_
      rw [at?_key]
      exact Option.bind_fun_some _
    simp only [PatternAt, PatternPlace.member, PatternPlace.Holds, hsplit, Option.bind_eq_some_iff]
    constructor
    · rintro ⟨hp, v, y, hy, hv⟩
      exact ⟨y, hy, hp, v, hv⟩
    · rintro ⟨y, hy, hp, v, hv⟩
      exact ⟨hp, v, y, hy, hv⟩

-- ---------------------------------------------------------------------------
-- The patterns of a member
-- ---------------------------------------------------------------------------

def placeOf (object : Path) (key p : String) : PatternPlace :=
  if key = "pattern" then .keyword object else .entry object p

def memberPlaces (object : Path) (key : String) (value : Json) : List (PatternPlace × String) :=
  (memberPatterns key value).map fun p => (placeOf object key p, p)

theorem map_memberPlaces : (memberPlaces object key y).map Prod.snd = memberPatterns key y := by
  rw [memberPlaces, List.map_map]
  exact List.map_id _

theorem mem_memberPlaces : (place, p) ∈ memberPlaces object key y ↔
    place.member = object ++ [.key key] ∧ place.Holds y p := by
  have hmem : (place, p) ∈ memberPlaces object key y ↔
      p ∈ memberPatterns key y ∧ place = placeOf object key p := by
    simp [memberPlaces, eq_comm]
  rw [hmem, mem_memberPatterns]
  constructor
  · rintro ⟨⟨rfl, rfl⟩ | ⟨rfl, v, hv⟩, rfl⟩
    · exact ⟨rfl, rfl⟩
    · exact ⟨rfl, rfl, v, hv⟩
  · rintro ⟨hmember, hholds⟩
    cases place with
    | keyword other =>
      obtain ⟨rfl, hkey⟩ := List.append_singleton_inj.mp hmember
      cases hkey
      exact ⟨.inl ⟨rfl, hholds⟩, rfl⟩
    | entry other k =>
      obtain ⟨rfl, hkey⟩ := List.append_singleton_inj.mp hmember
      obtain ⟨rfl, v, hv⟩ := hholds
      cases hkey
      exact ⟨.inr ⟨rfl, v, hv⟩, rfl⟩

theorem memberPlaces_inOrder (hy : y.Canonical) :
    (memberPlaces object key y).Pairwise fun a b => a.1.Before b.1 := by
  unfold memberPlaces memberPatterns
  split
  · exact List.pairwise_singleton _ _
  · exact List.pairwise_map.mpr ((List.pairwise_map.mpr hy.1).imp .key)
  · exact .nil

-- ---------------------------------------------------------------------------
-- The patterns of a place
-- ---------------------------------------------------------------------------

def placesAt (place : Path × Json) : List (PatternPlace × String) :=
  match place.1.getLast? with
  | some (.key key) => memberPlaces place.1.dropLast key place.2
  | _ => []

theorem mem_placesAt : (place, p) ∈ placesAt (path, y) ↔
    place.member = path ∧ place.Holds y p := by
  have hlast : ∃ key, place.member.getLast? = some (.key key) := by
    cases place <;> exact ⟨_, List.getLast?_concat⟩
  obtain ⟨key, hlast⟩ := hlast
  obtain rfl | ⟨object, s, rfl⟩ := List.eq_nil_or_concat path
  · have hne : place.member ≠ [] := fun h => by simp [h] at hlast
    simp [placesAt, hne]
  · cases s with
    | key k => simp [placesAt, mem_memberPlaces]
    | index n =>
      have hne : place.member ≠ object ++ [.index n] := fun h => by simp [h] at hlast
      simp [placesAt, hne]

def textsAt (place : Path × Json) : List String :=
  match place.1.getLast? with
  | some (.key key) => memberPatterns key place.2
  | _ => []

theorem map_placesAt (place : Path × Json) : (placesAt place).map Prod.snd = textsAt place := by
  unfold placesAt textsAt
  split
  · exact map_memberPlaces
  · rfl

theorem textsAt_behind {inner : Path × Json} (h : inner.1 ≠ []) :
    textsAt (behind s inner) = textsAt inner := by
  obtain ⟨next, path, hpath⟩ := List.exists_cons_of_ne_nil h
  simp only [textsAt, behind, hpath, List.getLast?_cons_cons]

/-- Seen from one step above, the root of a document is one more member. -/
theorem textsAt_step : (x.places.map (behind s)).flatMap textsAt =
    textsAt ([s], x) ++ x.places.flatMap textsAt := by
  have hinside : (x.placesInside.map (behind s)).flatMap textsAt =
      x.placesInside.flatMap textsAt := by
    rw [List.flatMap_map]
    exact List.flatMap_congr fun inner hinner => textsAt_behind (path_ne_nil hinner)
  rw [places_eq, List.map_cons, List.flatMap_cons, List.flatMap_cons, hinside]
  rfl

theorem patterns_eq_places (x : Json) : patterns x = x.places.flatMap textsAt := by
  have hroot : ∀ x : Json, x.places.flatMap textsAt = x.placesInside.flatMap textsAt := by
    intro x
    rw [places_eq, List.flatMap_cons]
    rfl
  induction x using Json.induct with
  | scalar x harr hobj =>
    rw [hroot, placesInside_scalar harr hobj]
    cases x with
    | arr items => cases harr
    | obj members => cases hobj
    | _ => rfl
  | array items ih =>
    -- The index goes up along the list, so it is left open.
    have hitems : ∀ i, (placesInItems i items).flatMap textsAt = patternsInItems items := by
      induction items with
      | nil => exact fun _ => rfl
      | cons item items ihitems =>
        obtain ⟨hitem, hrest⟩ := List.forall_mem_cons.mp ih
        intro i
        rw [placesInItems, List.flatMap_append, textsAt_step, ← hitem, ihitems hrest]
        rfl
    rw [hroot, patterns_arr]
    exact (hitems 0).symm
  | object members ih =>
    rw [hroot, patterns_obj, patternsInMembers_eq, placesInside, placesInMembers_eq,
      List.flatMap_assoc]
    refine List.flatMap_congr fun e he => ?_
    rw [textsAt_step, ih e he]
    rfl

-- ---------------------------------------------------------------------------
-- All patterns of a document
-- ---------------------------------------------------------------------------

def patternPlaces (x : Json) : List (PatternPlace × String) := x.places.flatMap placesAt

theorem map_patternPlaces (x : Json) : (patternPlaces x).map Prod.snd = patterns x := by
  rw [patternPlaces, List.map_flatMap, patterns_eq_places]
  exact List.flatMap_congr fun place _ => map_placesAt place

theorem mem_patternPlaces (hx : x.Canonical) :
    (place, p) ∈ patternPlaces x ↔ PatternAt x p place := by
  rw [patternPlaces, List.mem_flatMap, patternAt_iff]
  constructor
  · rintro ⟨⟨path, y⟩, hy, hplace⟩
    obtain ⟨rfl, hholds⟩ := mem_placesAt.mp hplace
    exact ⟨y, (mem_places hx).mp hy, hholds⟩
  · rintro ⟨y, hy, hholds⟩
    exact ⟨(place.member, y), (mem_places hx).mpr hy, mem_placesAt.mpr ⟨rfl, hholds⟩⟩

theorem patternPlaces_inOrder (hx : x.Canonical) :
    (patternPlaces x).Pairwise fun a b => a.1.Before b.1 := by
  refine List.pairwise_flatMap.mpr ⟨fun ⟨path, y⟩ hy => ?_, (places_inOrder hx).imp ?_⟩
  · have hcanonical : y.Canonical := canonical_of_at? hx ((mem_places hx).mp hy)
    unfold placesAt
    split
    · exact memberPlaces_inOrder hcanonical
    · exact .nil
  · rintro ⟨path, y⟩ ⟨further, z⟩ hbefore ⟨a, p⟩ ha ⟨b, q⟩ hb
    obtain ⟨rfl, -⟩ := mem_placesAt.mp ha
    obtain ⟨rfl, -⟩ := mem_placesAt.mp hb
    exact .member hbefore

theorem nodup_patternPlaces (hx : x.Canonical) : (patternPlaces x).Nodup := by
  refine (patternPlaces_inOrder hx).imp fun {a b} hbefore heq => ?_
  subst heq
  exact PatternPlace.Before.irrefl _ hbefore

/-- Where places are listed once with what stands there, a text is listed as often as there are
places for it. -/
theorem count_places (hn : found.Nodup) (p : String) :
    {place | (place, p) ∈ found}.Finite ∧
      (found.map Prod.snd).count p = {place | (place, p) ∈ found}.ncard := by
  let hits := (found.filter (·.2 = p)).map Prod.fst
  have hset : {place | (place, p) ∈ found} = ↑hits.toFinset := by
    ext place
    simp [hits]
  have hnodup : hits.Nodup := by
    refine (hn.filter _).map_on fun a ha b hb heq => Prod.ext heq ?_
    have hap : a.2 = p := by simpa using (List.mem_filter.mp ha).2
    have hbp : b.2 = p := by simpa using (List.mem_filter.mp hb).2
    rw [hap, hbp]
  refine ⟨hset ▸ Finset.finite_toSet _, ?_⟩
  rw [hset, Set.ncard_coe_finset, List.toFinset_card_of_nodup hnodup, List.length_map,
    ← List.countP_eq_length_filter, List.count, List.countP_map]
  rfl

/-- What is collected of the patterns of a document: of the patterns that the matcher does not take,
one from each place and no others, in the order of the walk. -/
structure Collected (accepts : String → Bool) (x : Json) (collected : List String) : Prop where
  count : ∀ p, {place | PatternAt x p place}.Finite ∧ collected.count p =
    if accepts p then 0 else {place | PatternAt x p place}.ncard
  order : ∃ places : List PatternPlace, places.Pairwise PatternPlace.Before ∧
    (∀ place, place ∈ places ↔ ∃ p, accepts p = false ∧ PatternAt x p place) ∧
    List.Forall₂ (fun place p => PatternAt x p place) places collected

theorem collected_patternsOutside (hx : x.Canonical) (accepts : String → Bool) :
    Collected accepts x (patternsOutside accepts x) := by
  have hset : ∀ p, {place | PatternAt x p place} = {place | (place, p) ∈ patternPlaces x} :=
    fun p => Set.ext fun place => (mem_patternPlaces hx).symm
  refine ⟨fun p => ?_, ?_⟩
  · obtain ⟨hfinite, hcount⟩ := count_places (nodup_patternPlaces hx) p
    rw [map_patternPlaces] at hcount
    refine ⟨hset p ▸ hfinite, ?_⟩
    rw [hset p, ← hcount, patternsOutside]
    split
    · rename_i haccepts
      exact List.count_eq_zero.mpr (by simp [haccepts])
    · rename_i haccepts
      exact List.count_filter (by simpa using haccepts)
  · have hfound : patternsOutside accepts x =
        ((patternPlaces x).filter fun e => !accepts e.2).map Prod.snd := by
      rw [patternsOutside, ← map_patternPlaces, List.filter_map]
      rfl
    refine ⟨((patternPlaces x).filter fun e => !accepts e.2).map Prod.fst,
      List.pairwise_map.mpr ((patternPlaces_inOrder hx).filter _), fun place => ?_, ?_⟩
    · simp [mem_patternPlaces hx, and_comm]
    · rw [hfound, List.forall₂_map_left_iff, List.forall₂_map_right_iff, List.forall₂_same]
      exact fun e he => (mem_patternPlaces hx).mp (List.mem_filter.mp he).1

/-- The patterns that a matcher does not take are collected from all places of a document, once from
each and in the order of the walk; so it is with the matcher that needs no backtracking. -/
theorem patternsOutside_collected (x : Json) (hx : x.Canonical) :
    (∀ accepts, Collected accepts x (patternsOutside accepts x)) ∧
    Collected Pattern.isLinear x (backtrackingPatterns x) :=
  ⟨collected_patternsOutside hx, collected_patternsOutside hx Pattern.isLinear⟩

def layeredPatterns : Json :=
  .obj [("allOf", .arr [.obj [("pattern", .str "(?=a)")], .str "pattern"]),
    ("pattern", .obj [("pattern", .str "(?=a)")]),
    ("patternProperties", .obj [
      ("(?=a)", .obj [("patternProperties", .obj [("(?!b)", .null)])]),
      ("pattern", .str "pattern")]),
    ("properties", .obj [("pattern", .null), ("patternProperties", .strings ["(?=a)"])])]

theorem layeredPatterns_canonical : layeredPatterns.Canonical := by
  simp only [layeredPatterns, Json.strings, List.map, Json.Canonical, Json.CanonicalMembers,
    Json.CanonicalItems, Keyed.Sorted]
  decide

/-- The keys of the outer keyword come before the one inside, and the name of the other keyword is a
pattern twice, as a key and as what stands there. -/
theorem layeredPatterns_collected : layeredPatterns.Canonical ∧
    Collected (fun _ => false) layeredPatterns
      ["(?=a)", "(?=a)", "(?=a)", "pattern", "(?!b)", "pattern"] ∧
    Collected Pattern.isLinear layeredPatterns ["(?=a)", "(?=a)", "(?=a)", "(?!b)"] := by
  have hall : patternsOutside (fun _ => false) layeredPatterns =
      ["(?=a)", "(?=a)", "(?=a)", "pattern", "(?!b)", "pattern"] := by decide
  have hslow : backtrackingPatterns layeredPatterns = ["(?=a)", "(?=a)", "(?=a)", "(?!b)"] := by
    decide +kernel
  obtain ⟨hcollected, hlinear⟩ :=
    patternsOutside_collected layeredPatterns layeredPatterns_canonical
  exact ⟨layeredPatterns_canonical, hall ▸ hcollected fun _ => false, hslow ▸ hlinear⟩

end Schema

end EventAdmission
