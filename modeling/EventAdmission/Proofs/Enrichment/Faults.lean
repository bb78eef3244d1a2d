import EventAdmission.Proofs.Enrichment.Members

/-!
# Why a schema is refused

A merge looks at the target at a few places only, those where the source has an
object or a list of required names, and always in the same order (`spots`). Its
fault is the first of these places with something else in the target
(`fault?_deepMerge`). For the schema of the metadata the places are those of
`businessSpots`, and `fault?_enrich_business` says when a schema is refused and
with which error.
-/

namespace EventAdmission.Enrichment

variable {keyword key n : String} {target source merged root owner : Members}
  {value x document : Json} {place : List String}

-- ---------------------------------------------------------------------------
-- Faults
-- ---------------------------------------------------------------------------

variable {α β ε : Type}

def fault? : Except ε α → Option ε
  | .error e => some e
  | .ok _ => none

theorem fault?_map {step : Except ε α} {f : α → β} : fault? (f <$> step) = fault? step := by
  cases step <;> rfl

theorem fault?_bind {step : Except ε α} {f : α → Except ε β} {later : Option ε}
    (h : ∀ a, step = .ok a → fault? (f a) = later) :
    fault? (step >>= f) = (fault? step).or later := by
  cases step with
  | error e => rfl
  | ok a => exact h a rfl

-- ---------------------------------------------------------------------------
-- Spots
-- ---------------------------------------------------------------------------

/-- What a merge needs at a place where there is something already. -/
inductive Need where
  | object
  | list
deriving DecidableEq

def Need.isMet : Need → Json → Bool
  | .object, x => x.isObj
  | .list, x => x.arr?.isSome

structure Spot where
  keyword : String
  place : List String
  need : Need
deriving DecidableEq

def Spot.isMalformed (s : Spot) (document : Json) : Bool :=
  (document.at? (s.place.map .key)).any fun x => !s.need.isMet x

def firstMalformed (spots : List Spot) (document : Json) : Option String :=
  (spots.find? (·.isMalformed document)).map (·.keyword)

mutual

/-- The spots of a merge in the order in which it looks at them. -/
def spots (keyword : String) (place : List String) : (source : Json) → List Spot
  | .obj source => ⟨keyword, place, .object⟩ :: spotsOfMembers keyword place source
  | _ => []

def spotsOfMembers (keyword : String) (place : List String) :
    (source : List (String × Json)) → List Spot
  | [] => []
  | (key, value) :: rest =>
    (if key = "required" then [⟨keyword ++ ".required", place ++ [key], .list⟩]
      else spots (keyword ++ "." ++ key) (place ++ [key]) value)
      ++ spotsOfMembers keyword place rest

end

def spotsOfMember (keyword : String) (place : List String) (key : String) (value : Json) :
    List Spot :=
  if key = "required" then [⟨keyword ++ ".required", place ++ [key], .list⟩]
  else spots (keyword ++ "." ++ key) (place ++ [key]) value

theorem spotsOfMembers_cons : spotsOfMembers keyword place ((key, value) :: source) =
    spotsOfMember keyword place key value ++ spotsOfMembers keyword place source := by
  rw [spotsOfMembers, spotsOfMember]

theorem firstMalformed_append {first second : List Spot} :
    firstMalformed (first ++ second) document =
      (firstMalformed first document).or (firstMalformed second document) := by
  rw [firstMalformed, List.find?_append]
  cases h : first.find? (·.isMalformed document) <;> simp [firstMalformed, h]

theorem firstMalformed_cons {s : Spot} {others : List Spot} :
    firstMalformed (s :: others) document =
      if s.isMalformed document then some s.keyword else firstMalformed others document := by
  rw [firstMalformed, List.find?_cons]
  split <;> rename_i h <;> simp [h, firstMalformed]

theorem firstMalformed_cons_or {s : Spot} {others : List Spot} :
    firstMalformed (s :: others) document =
      (firstMalformed [s] document).or (firstMalformed others document) := by
  rw [← firstMalformed_append, List.singleton_append]

theorem at?_below (hx : document.at? (place.map .key) = some x) :
    document.at? ((place ++ [key]).map .key) = x.member? key := by
  rw [List.map_append, at?_append, hx, Option.bind_some, List.map_cons, List.map_nil, at?_key]
  cases x.member? key <;> rfl

theorem firstMalformed_absent (hx : document.at? (place.map .key) = none) :
    firstMalformed (spots keyword place value) document = none := by
  induction value using Json.induct generalizing keyword place with
  | scalar value harr hobj => cases value <;> first | rfl | cases hobj
  | array items ih => rfl
  | object members ih =>
    have hbelow : ∀ key, document.at? ((place ++ [key]).map .key) = none := by
      intro key
      rw [List.map_append, at?_append, hx, Option.bind_none]
    have hmembers : firstMalformed (spotsOfMembers keyword place members) document = none := by
      induction members with
      | nil => rfl
      | cons e rest ihrest =>
        obtain ⟨key, value⟩ := e
        obtain ⟨ihvalue, ih⟩ := List.forall_mem_cons.mp ih
        rw [spotsOfMembers_cons, firstMalformed_append, ihrest ih, Option.or_none, spotsOfMember]
        split
        · rw [firstMalformed_cons, Spot.isMalformed, hbelow]
          rfl
        · exact ihvalue (hbelow key)
    rw [spots, firstMalformed_cons, hmembers]
    simp [Spot.isMalformed, hx]

-- ---------------------------------------------------------------------------
-- Merges
-- ---------------------------------------------------------------------------

theorem fault?_mergeMember
    (hvalue : ∀ existing, document.at? ((place ++ [key]).map .key) = some existing →
      fault? (deepMerge (keyword ++ "." ++ key) existing value) =
        firstMalformed (spots (keyword ++ "." ++ key) (place ++ [key]) value) document)
    (htarget : Keyed.find? target key = document.at? ((place ++ [key]).map .key)) :
    fault? (mergeMember keyword target key value) =
      firstMalformed (spotsOfMember keyword place key value) document := by
  rw [mergeMember, spotsOfMember]
  split
  · rename_i hkey
    subst hkey
    rw [firstMalformed_cons, Spot.isMalformed, ← htarget, appendRequired]
    cases Keyed.find? target "required" with
    | none => rfl
    | some x => cases x <;> rfl
  · cases hx : Keyed.find? target key with
    | none => exact (firstMalformed_absent (htarget ▸ hx)).symm
    | some existing => rw [← hvalue existing (htarget ▸ hx), fault?_map]

theorem fault?_mergeMembers (hs : Keyed.Sorted source)
    (hvalues : ∀ e ∈ source, ∀ existing,
      document.at? ((place ++ [e.1]).map .key) = some existing →
        fault? (deepMerge (keyword ++ "." ++ e.1) existing e.2) =
          firstMalformed (spots (keyword ++ "." ++ e.1) (place ++ [e.1]) e.2) document)
    (htarget : ∀ e ∈ source, Keyed.find? target e.1 =
      document.at? ((place ++ [e.1]).map .key)) :
    fault? (mergeMembers keyword target source) =
      firstMalformed (spotsOfMembers keyword place source) document := by
  induction source generalizing target with
  | nil => rfl
  | cons e rest ih =>
    obtain ⟨key, value⟩ := e
    obtain ⟨hlt, hrest⟩ := List.pairwise_cons.mp hs
    obtain ⟨hvalue, hvalues⟩ := List.forall_mem_cons.mp hvalues
    obtain ⟨hkey, htarget⟩ := List.forall_mem_cons.mp htarget
    rw [mergeMembers_cons, spotsOfMembers_cons, firstMalformed_append,
      ← fault?_mergeMember hvalue hkey]
    refine fault?_bind fun after hafter => ih hrest hvalues fun e he => ?_
    have hne : e.1 ≠ key := fun heq => String.lt_irrefl key (heq ▸ hlt e he)
    rw [mergeMember_other hafter hne, htarget e he]

/-- The fault of a merge into what stands at a place of a document. -/
theorem fault?_deepMerge (hs : value.Canonical) (hx : document.at? (place.map .key) = some x) :
    fault? (deepMerge keyword x value) =
      firstMalformed (spots keyword place value) document := by
  induction value using Json.induct generalizing keyword place x with
  | scalar value harr hobj => cases value <;> first | rfl | cases hobj
  | array items ih => rfl
  | object source ih =>
    rw [spots, firstMalformed_cons, Spot.isMalformed, hx]
    cases x with
    | obj members =>
      rw [deepMerge, fault?_map]
      exact fault?_mergeMembers hs.1
        (fun e he existing h => ih e he (Json.canonicalMembers_iff.mp hs.2 e he) h)
        fun e _ => (at?_below hx).symm
    | _ => rfl

-- ---------------------------------------------------------------------------
-- Business events
-- ---------------------------------------------------------------------------

def metadataSpot (below : List String) (need : Need) : Spot :=
  ⟨".".intercalate ("metadata" :: below), "properties" :: "metadata" :: below, need⟩

def fieldKeywords : List (String × Option String) :=
  [("eid", none), ("event_type", none), ("flow_id", none), ("occurred_at", none),
    ("parent_eids", some "items"), ("partition", none), ("partition_compaction_key", none),
    ("span_ctx", some "additionalProperties"), ("version", none)]

def fieldSpots (field : String × Option String) : List Spot :=
  metadataSpot ["properties", field.1] .object ::
    field.2.toList.map fun keyword => metadataSpot ["properties", field.1, keyword] .object

/-- All that can be wrong with the schema of a business event, in the order of the checks. -/
def businessSpots : List Spot :=
  [⟨"properties", ["properties"], .object⟩, metadataSpot [] .object,
    metadataSpot ["properties"] .object] ++ fieldKeywords.flatMap fieldSpots ++
    [metadataSpot ["required"] .list, ⟨"required", ["required"], .list⟩]

theorem businessSpots_eq : businessSpots = ⟨"properties", ["properties"], .object⟩ ::
    (spots "metadata" ["properties", "metadata"] (metadataSchema n) ++
      [⟨"required", ["required"], .list⟩]) := by
  simp [metadataSchema_eq, metadataProperties_eq, stringSchema_eq, uuidSchema_eq, enumSchema_eq,
    parentsSchema, spanSchema, Json.strings, spots, spotsOfMembers, businessSpots, fieldKeywords,
    fieldSpots, metadataSpot]

theorem fault?_objectAt : fault? (objectAt owner key) =
    firstMalformed [⟨key, [key], .object⟩] (.obj owner) := by
  rw [firstMalformed_cons, Spot.isMalformed, List.map_cons, List.map_nil, at?_key, objectAt,
    Json.member?]
  cases Keyed.find? owner key with
  | none => rfl
  | some x => cases x <;> rfl

theorem fault?_appendRequired {names : List String}
    (h : Keyed.find? root "required" = Keyed.find? owner "required") :
    fault? (match appendRequired root names with
      | some root => (pure root : Except String Members)
      | none => .error "required") =
        firstMalformed [⟨"required", ["required"], .list⟩] (.obj owner) := by
  rw [firstMalformed_cons, Spot.isMalformed, List.map_cons, List.map_nil, at?_key, Json.member?,
    appendRequired, h]
  cases Keyed.find? owner "required" with
  | none => rfl
  | some x => cases x <;> rfl

theorem fault?_addMetadata : fault? (addMetadata n owner) =
    firstMalformed businessSpots (.obj owner) := by
  rw [businessSpots_eq (n := n), firstMalformed_cons_or, ← fault?_objectAt, addMetadata]
  refine fault?_bind fun properties hproperties => ?_
  have hmetadata : (Json.obj owner).at? (["properties", "metadata"].map .key) =
      Keyed.find? properties "metadata" := at?_of_objectAt hproperties
  have hother : ∀ metadata, Keyed.find? (Keyed.insert owner "properties"
      (.obj (Keyed.insert properties "metadata" metadata))) "required" =
        Keyed.find? owner "required" := fun _ => Keyed.find?_insert_of_ne (by decide)
  rw [firstMalformed_append]
  cases hx : Keyed.find? properties "metadata" with
  | none =>
    rw [firstMalformed_absent (hmetadata.trans hx), Option.none_or]
    exact fault?_appendRequired (hother _)
  | some existing =>
    rw [← fault?_deepMerge canonical_metadataSchema (hmetadata.trans hx)]
    exact fault?_bind fun metadata _ => fault?_appendRequired (hother metadata)

/-- A schema that is enriched for a business event is refused for these reasons and no others. -/
theorem fault?_enrich_business (schema : Json) (n : String) :
    fault? (enrich .business schema n) =
      if schema.isObj = false then some (.notAnObject n)
      else if isEnriched schema then some (.alreadyEnriched n)
      else (businessSpots.find? (·.isMalformed schema)).map fun s =>
        .malformedKeyword n s.keyword := by
  cases schema with
  | obj owner =>
    simp only [Json.isObj, Bool.true_eq_false, ↓reduceIte]
    split
    · rename_i hs
      simp only [enrich, checkedRoot, hs, ↓reduceIte]
      rfl
    · rename_i hs
      have hfault : ((businessSpots.find? (·.isMalformed (.obj owner))).map fun s =>
          EnrichmentError.malformedKeyword n s.keyword) =
            (fault? (addMetadata n owner)).map (.malformedKeyword n) := by
        rw [fault?_addMetadata, firstMalformed, Option.map_map]
        rfl
      simp only [enrich, checkedRoot, hs, bind, Except.bind, Bool.false_eq_true, ↓reduceIte, hfault]
      cases addMetadata n owner <;> rfl
  | _ => rfl

example : businessSpots.map (·.keyword) =
    ["properties", "metadata", "metadata.properties", "metadata.properties.eid",
      "metadata.properties.event_type", "metadata.properties.flow_id",
      "metadata.properties.occurred_at", "metadata.properties.parent_eids",
      "metadata.properties.parent_eids.items", "metadata.properties.partition",
      "metadata.properties.partition_compaction_key", "metadata.properties.span_ctx",
      "metadata.properties.span_ctx.additionalProperties", "metadata.properties.version",
      "metadata.required", "required"] := rfl

end EventAdmission.Enrichment
