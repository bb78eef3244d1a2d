import EventAdmission.Proofs.Business.Lossless
import EventAdmission.Proofs.DeclaredField

/-!
# Declared fields of a business event

Where a document has no references, a field is declared if there is anything at its
place: below the properties of the root, the properties of what is there, and so on
(`resolves_iff_at?`). The merge leaves every such place of the owner's and brings
along those of the broker's, which are the metadata and their nine fields:
`isDeclared_business`.
-/

namespace EventAdmission

open DeclaredField

variable {root node x schema effective : Json} {n name field path : String}
  {names place : List String}

namespace DeclaredField

-- ---------------------------------------------------------------------------
-- Documents without references
-- ---------------------------------------------------------------------------

def propertyPlace : List String → List String
  | [] => []
  | name :: names => "properties" :: name :: propertyPlace names

def Unreferenced (x : Json) : Prop := ∀ y ∈ x.values, y.member? "$ref" = none

instance : DecidablePred Unreferenced := fun x =>
  inferInstanceAs (Decidable (∀ y ∈ x.values, y.member? "$ref" = none))

theorem at?_mem {path : Path} (h : x.at? path = some node) : node ∈ x.values := by
  induction path generalizing x with
  | nil =>
    cases h
    exact Json.mem_values_self
  | cons s path ih =>
    obtain ⟨y, hy, h⟩ := Option.bind_eq_some_iff.mp h
    apply Json.mem_values_trans _ (ih h)
    apply Json.mem_values.mpr
    right
    cases x with
    | obj members =>
      cases s with
      | key k => exact Json.inside_find? hy
      | index i => cases hy
    | arr items =>
      cases s with
      | key k => cases hy
      | index i => exact Json.inside_item (List.mem_of_getElem? hy) Json.mem_values_self
    | _ => cases hy

theorem Unreferenced.not_refers (h : Unreferenced x) : ¬ Refers x place := by
  intro hr
  rw [← List.append_nil place, refers_append] at hr
  obtain ⟨y, hy, r, hr⟩ := hr
  have hnone := h y (at?_mem hy)
  simp [at?_key, hnone] at hr

theorem at?_entry {key : String} : node.at? ((key :: name :: place).map .key) =
    (node.at? [.key key, .key name]).bind (·.at? (place.map .key)) := by
  simp [at?_key, at?_nil, Option.bind_assoc]

theorem resolves_iff_at? (h : ∀ names, ¬ Refers node (propertyPlace names)) :
    resolves root node (names.map String.toList) = true ↔
      ∃ x, node.at? ((propertyPlace names).map .key) = some x := by
  induction names generalizing node with
  | nil => simp [resolves, propertyPlace, at?_nil]
  | cons name names ih =>
    have hchain : Chain root 0 node node := .stop fun _ => not_leads (refers_nil.mp (h []))
    rw [List.map_cons, resolves, String.ofList_toList,
      property?_of_chain hchain (Nat.zero_le _), propertyPlace, at?_entry]
    cases hnext : node.at? [.key "properties", .key name] with
    | none => simp
    | some next =>
      apply ih
      intro others hr
      apply h (name :: others)
      have hnode : node.at? (["properties", name].map .key) = some next := hnext
      exact refers_append.mpr ⟨next, hnode, hr⟩

theorem segments_eq_iff {others : List String} (h : ∀ others, Segments path others ↔ others = names)
    (hne : others ≠ []) (hplain : ∀ name ∈ others, '.' ∉ name.toList) :
    names = others ↔ path = ".".intercalate others := by
  constructor
  · rintro rfl
    exact ((h names).mpr rfl).joined.symm
  · intro hpath
    exact ((h others).mp ⟨hne, hplain, hpath.symm⟩).symm

end DeclaredField

namespace Enrichment

-- ---------------------------------------------------------------------------
-- Fields of the broker's
-- ---------------------------------------------------------------------------

def metadataFields : List String :=
  ["eid", "event_type", "flow_id", "occurred_at", "parent_eids", "partition",
    "partition_compaction_key", "span_ctx", "version"]

theorem mem_metadataFields :
    field ∈ metadataFields ↔ ∃ x, Keyed.find? (metadataProperties n) field = some x := by
  rw [← Keyed.mem_keys]
  rfl

theorem unreferenced_metadataSchema : Unreferenced (metadataSchema n) := by
  simp only [Unreferenced, metadataSchema_eq, metadataProperties_eq,
    stringSchema_eq, uuidSchema_eq, enumSchema_eq, parentsSchema, spanSchema, requiredMetadata,
    Json.strings, Json.values, Json.valuesInItems, Json.valuesInMembers, List.map_cons,
    List.map_nil, List.forall_mem_cons, List.cons_append, List.nil_append, List.append_nil]
  simp [Json.member?, Keyed.find?_cons]

theorem metadataProperties_flat (h : Keyed.find? (metadataProperties n) field = some x) :
    x.isObj = true ∧ x.member? "properties" = none ∧ ∃ type, x.member? "type" = some (.str type) := by
  have hall : ∀ e ∈ metadataProperties n, e.2.isObj = true ∧ e.2.member? "properties" = none ∧
      ∃ type, e.2.member? "type" = some (.str type) := by
    rw [metadataProperties_eq]
    simp [stringSchema_eq, uuidSchema_eq, enumSchema_eq, parentsSchema, spanSchema, Json.isObj,
      Json.member?, Keyed.find?_cons]
  exact hall _ (Keyed.mem_of_find? h)

theorem metadataSchema_field :
    (metadataSchema n).at? (("properties" :: field :: place).map .key) =
      (Keyed.find? (metadataProperties n) field).bind (·.at? (place.map .key)) := by
  simp [metadataSchema_eq, at?_key, Json.member?, Keyed.find?_cons]

theorem metadataSchema_declares :
    (∃ x, (metadataSchema n).at? ((propertyPlace names).map .key) = some x) ↔
      names = [] ∨ ∃ field ∈ metadataFields, names = [field] := by
  match names with
  | [] => simp [propertyPlace, at?_nil]
  | [field] =>
    rw [propertyPlace, propertyPlace, metadataSchema_field]
    simp [at?_nil, mem_metadataFields (n := n)]
  | field :: next :: names =>
    simp only [propertyPlace, metadataSchema_field]
    constructor
    · rintro ⟨x, hx⟩
      obtain ⟨y, hy, hx⟩ := Option.bind_eq_some_iff.mp hx
      simp [at?_key, (metadataProperties_flat hy).2.1] at hx
    · simp

/-- On the way along properties the broker has nothing but objects. -/
theorem metadataSchema_objects {front : List String} (hfront : front <+: propertyPlace names)
    (hx : (metadataSchema n).at? (front.map .key) = some x) : x.isObj = true := by
  match front, names with
  | [], _ =>
    cases hx
    rfl
  | _ :: _, [] => simp [propertyPlace] at hfront
  | [key], name :: names =>
    simp only [propertyPlace, List.cons_prefix_cons] at hfront
    rw [hfront.1, metadataSchema_eq] at hx
    cases hx
    rfl
  | key :: field :: front, name :: names =>
    simp only [propertyPlace, List.cons_prefix_cons] at hfront
    obtain ⟨rfl, rfl, hfront⟩ := hfront
    rw [metadataSchema_field] at hx
    obtain ⟨y, hy, hx⟩ := Option.bind_eq_some_iff.mp hx
    obtain ⟨hobj, hflat, -⟩ := metadataProperties_flat hy
    match front, names with
    | [], _ =>
      cases hx
      exact hobj
    | _ :: _, [] => simp [propertyPlace] at hfront
    | key :: front, next :: names =>
      simp only [propertyPlace, List.cons_prefix_cons] at hfront
      rw [hfront.1] at hx
      simp [at?_key, hflat] at hx

-- ---------------------------------------------------------------------------
-- Places of the merged schema
-- ---------------------------------------------------------------------------

theorem Joined.at?_other (h : Joined n schema effective) (hname : name ≠ "metadata") :
    effective.at? (("properties" :: name :: place).map .key) =
      schema.at? (("properties" :: name :: place).map .key) := by
  obtain ⟨entries, hentries, hothers⟩ := h.properties
  have hentry : effective.at? [.key "properties", .key name] = Keyed.find? entries name := by
    rw [at?_key, hentries, Option.bind_some, at?_key]
    exact Option.bind_fun_some _
  rw [at?_entry, at?_entry, hentry, hothers name hname]

theorem Joined.at?_metadata (h : Joined n schema effective) : ∃ own metadata,
    MetadataJoined n own metadata ∧ ∀ place : List String,
      schema.at? (("properties" :: "metadata" :: place).map .key) =
          own.bind (·.at? (place.map .key)) ∧
        effective.at? (("properties" :: "metadata" :: place).map .key) =
          metadata.at? (place.map .key) := by
  obtain ⟨metadata, hmetadata, hjoined⟩ := h.metadata
  refine ⟨_, metadata, hjoined, fun place => ⟨at?_entry, ?_⟩⟩
  rw [at?_entry, hmetadata, Option.bind_some]

theorem Joined.not_refers (h : Joined n schema effective) (hplain : Unreferenced schema) :
    ¬ Refers effective (propertyPlace names) := by
  intro hr
  match names with
  | [] =>
    have href : effective.member? "$ref" = none :=
      (h.others "$ref" (by decide) (by decide)).trans (hplain _ Json.mem_values_self)
    exact refers_nil.mpr href hr
  | name :: names =>
    obtain ⟨r, hr⟩ := hr
    have hplace : ∀ x : Json, x.at? ((propertyPlace (name :: names)).map .key ++ [.key "$ref"]) =
        x.at? (("properties" :: name :: (propertyPlace names ++ ["$ref"])).map .key) := by
      intro x
      simp [propertyPlace]
    by_cases hname : name = "metadata"
    · subst hname
      obtain ⟨own, metadata, hjoined, hat⟩ := h.at?_metadata
      rw [hplace, (hat _).2] at hr
      rcases hjoined.origin _ r hr with ⟨y, hy⟩ | ⟨y, hy⟩
      · rw [← (hat _).1, ← hplace] at hy
        exact hplain.not_refers ⟨y, hy⟩
      · exact unreferenced_metadataSchema.not_refers ⟨y, by simpa using hy⟩
    · rw [hplace, h.at?_other hname, ← hplace] at hr
      exact hplain.not_refers ⟨r, hr⟩

-- ---------------------------------------------------------------------------
-- Declared fields
-- ---------------------------------------------------------------------------

/-- At the places of properties the merged schema of the metadata has something wherever one of
the two that it is made of does. -/
theorem MetadataJoined.declares {own : Option Json} {metadata : Json}
    (h : MetadataJoined n own metadata) :
    (∃ x, metadata.at? ((propertyPlace names).map .key) = some x) ↔
      (∃ x, own.bind (·.at? ((propertyPlace names).map .key)) = some x) ∨
        names = [] ∨ ∃ field ∈ metadataFields, names = [field] := by
  constructor
  · rintro ⟨x, hx⟩
    apply (h.origin _ x hx).imp_right
    exact metadataSchema_declares.mp
  · rintro (⟨x, hx⟩ | rfl | ⟨field, hfield, rfl⟩)
    · obtain ⟨y, hy, -⟩ := h.kept _ x hx fun front hfront y hy => metadataSchema_objects hfront hy
      exact ⟨y, hy⟩
    · exact ⟨metadata, rfl⟩
    · -- The type of the field is the broker's, so the field is there.
      obtain ⟨x, hx⟩ := (mem_metadataFields (n := n)).mp hfield
      obtain ⟨-, -, type, htype⟩ := metadataProperties_flat hx
      have hleaf : (metadataSchema n).at? (["properties", field, "type"].map .key) =
          some (.str type) := by
        rw [metadataSchema_field, hx, Option.bind_some, List.map_singleton, at?_key, htype]
        rfl
      have hplace := h.leaves _ _ hleaf rfl (by simp)
      rw [at?_entry] at hplace
      obtain ⟨y, hy, -⟩ := Option.bind_eq_some_iff.mp hplace
      exact ⟨y, hy⟩

theorem Joined.declares (h : Joined n schema effective) (hne : names ≠ []) :
    (∃ x, effective.at? ((propertyPlace names).map .key) = some x) ↔
      (∃ x, schema.at? ((propertyPlace names).map .key) = some x) ∨
        names = ["metadata"] ∨ ∃ field ∈ metadataFields, names = ["metadata", field] := by
  match names with
  | [] => exact absurd rfl hne
  | name :: names =>
    rw [propertyPlace]
    by_cases hname : name = "metadata"
    · subst hname
      obtain ⟨own, metadata, hjoined, hat⟩ := h.at?_metadata
      rw [(hat _).1, (hat _).2, hjoined.declares]
      simp
    · rw [h.at?_other hname]
      simp [hname]

/-- No declared field of a schema without references is lost in the schema of a business event, and
the fields that come in addition are the metadata and their nine. -/
theorem isDeclared_business (hplain : Unreferenced schema)
    (h : enrich .business schema n = .ok effective) (path : String) :
    isDeclared effective path = true ↔ isDeclared schema path = true ∨ path = "metadata" ∨
      ∃ field ∈ metadataFields, path = "metadata." ++ field := by
  have hj := enrich_business_lossless h
  by_cases hpath : path = ""
  · subst hpath
    simp [isDeclared, metadataFields]
  obtain ⟨names, hnames⟩ := exists_segments path
  have hsegments := (hnames names).mpr rfl
  have hmetadata : names = ["metadata"] ↔ path = "metadata" :=
    segments_eq_iff hnames (by simp) (by decide)
  have hfields : ∀ field ∈ metadataFields,
      (names = ["metadata", field] ↔ path = "metadata." ++ field) := by
    intro field hfield
    have hplain : '.' ∉ field.toList := (by decide : ∀ field ∈ metadataFields, '.' ∉ field.toList)
      field hfield
    apply segments_eq_iff hnames (by simp)
    simp [hplain]
  have hfield : (∃ field ∈ metadataFields, names = ["metadata", field]) ↔
      ∃ field ∈ metadataFields, path = "metadata." ++ field :=
    exists_congr fun field => and_congr_right (hfields field)
  rw [isDeclared_segments hsegments hpath, isDeclared_segments hsegments hpath,
    resolves_iff_at? fun names => hj.not_refers hplain,
    resolves_iff_at? fun names => hplain.not_refers, hj.declares hsegments.nonempty, hmetadata,
    hfield]

def sourcedLogin : Json :=
  .obj [("properties", .obj [("ip", stringSchema),
    ("metadata", .obj [("properties", .obj [
      ("eid", .obj [("properties", .obj [("source", stringSchema)])]),
      ("tenant", stringSchema)])])])]

theorem sourcedLogin_declared : ∃ effective, Unreferenced sourcedLogin ∧
    enrich .business sourcedLogin "login" = .ok effective ∧
      isDeclared effective "metadata.eid.source" = true ∧
        isDeclared effective "metadata.span_ctx" = true ∧
          isDeclared effective "metadata.span_ctx.source" = false := by
  have hplain : Unreferenced sourcedLogin := by decide
  obtain ⟨effective, henrich⟩ : ∃ effective, enrich .business sourcedLogin "login" = .ok effective :=
    ⟨_, rfl⟩
  have hdeclared := isDeclared_business hplain henrich
  refine ⟨effective, hplain, henrich, (hdeclared _).mpr (.inl rfl),
    (hdeclared _).mpr (.inr (.inr ⟨"span_ctx", by decide, rfl⟩)), ?_⟩
  have howner : isDeclared sourcedLogin "metadata.span_ctx.source" = false := rfl
  have hbroker : ∀ field ∈ metadataFields, "metadata.span_ctx.source" ≠ "metadata." ++ field := by
    decide
  rw [Bool.eq_false_iff, Ne, hdeclared, howner]
  rintro (h | h | ⟨field, hfield, h⟩)
  · cases h
  · exact absurd h (by decide)
  · exact hbroker field hfield h

end Enrichment

end EventAdmission
