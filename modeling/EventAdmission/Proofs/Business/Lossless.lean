import EventAdmission.Proofs.Enrichment.Members

/-!
# What a business schema keeps of the owner's

`enrich_business_lossless`: the owner's root keeps every member but the
properties and the required names, and both only gain the metadata. In the
schema of the metadata stands everything that the broker says and, wherever the
broker says nothing, everything that the owner says; there is nothing else.
-/

namespace EventAdmission.Enrichment

variable {n key : String} {x y value : Json} {owner properties members : Members}
  {items : List Json} {place : List String}

-- ---------------------------------------------------------------------------
-- Places of the broker's schema
-- ---------------------------------------------------------------------------

def Unlisted (x : Json) : Prop := ∀ y ∈ x.values, y.member? "required" = none

theorem Unlisted.member (h : Unlisted x) (hy : x.member? key = some y) : Unlisted y :=
  fun z hz => h z (Json.mem_values_trans (Json.mem_values.mpr (.inr (Json.inside_member? hy))) hz)

theorem Unlisted.not_mem (h : Unlisted x) (hy : x.at? (place.map .key) = some y) :
    "required" ∉ place := by
  induction place generalizing x with
  | nil => simp
  | cons key place ih =>
    rw [List.map_cons, at?_key] at hy
    obtain ⟨z, hz, hy⟩ := Option.bind_eq_some_iff.mp hy
    have hkey : key ≠ "required" := by
      rintro rfl
      rw [h x Json.mem_values_self] at hz
      cases hz
    exact not_or.mpr ⟨Ne.symm hkey, ih (h.member hz) hy⟩ ∘ List.mem_cons.mp

theorem unlisted_metadataKeywords : ∀ e ∈ metadataKeywords n, Unlisted e.2 := by
  simp only [Unlisted, metadataKeywords, metadataProperties_eq, stringSchema_eq, uuidSchema_eq,
    enumSchema_eq, parentsSchema, spanSchema, requiredMetadata, Json.strings, Json.values,
    Json.valuesInItems, Json.valuesInMembers, List.map_cons, List.map_nil, List.forall_mem_cons,
    List.cons_append, List.nil_append, List.append_nil]
  simp [Json.member?, Keyed.find?_cons]

theorem listsNames_metadataSchema : ListsNames (metadataSchema n) := by
  rw [metadataSchema_eq]
  intro y hy v hv
  rcases Json.mem_values.mp hy with rfl | hy
  · cases hv
    exact ⟨requiredMetadata, rfl, by decide⟩
  · obtain ⟨e, he, hy⟩ := Json.mem_inside_obj.mp hy
    rw [unlisted_metadataKeywords (n := n) e he y hy] at hv
    cases hv

theorem required_not_mem (hx : (metadataSchema n).at? (place.map .key) = some x)
    (hne : place ≠ ["required"]) : "required" ∉ place := by
  cases place with
  | nil => simp
  | cons key place =>
    rw [List.map_cons, at?_key, metadataSchema_eq] at hx
    obtain ⟨y, hy, hx⟩ := Option.bind_eq_some_iff.mp hx
    have hbelow := (unlisted_metadataKeywords (n := n) _ (Keyed.mem_of_find? hy)).not_mem hx
    have hkey : key ≠ "required" := by
      rintro rfl
      obtain rfl := Option.some.inj hy
      cases place with
      | nil => exact hne rfl
      | cons next place => cases hx
    exact not_or.mpr ⟨Ne.symm hkey, hbelow⟩ ∘ List.mem_cons.mp

-- ---------------------------------------------------------------------------
-- What is kept and what is won
-- ---------------------------------------------------------------------------

/-- The schema of the metadata, put together from the broker's and what the owner says there. -/
structure MetadataJoined (n : String) (own : Option Json) (metadata : Json) : Prop where
  leaves : ∀ (place : List String) (leaf : Json), (metadataSchema n).at? (place.map .key) = some leaf →
    leaf.isObj = false → place ≠ ["required"] → metadata.at? (place.map .key) = some leaf
  names : ∃ items, (own.bind (·.member? "required")).getD (.arr []) = .arr items ∧
    metadata.member? "required" =
      some (.arr (items ++ (requiredMetadata.filter fun name => .str name ∉ items).map .str))
  /-- A place of the owner's stays if the broker has nothing but objects there and above. -/
  kept : ∀ (place : List String) (x : Json), own.bind (·.at? (place.map .key)) = some x →
    (∀ front, front <+: place → ∀ y, (metadataSchema n).at? (front.map .key) = some y →
      y.isObj = true) →
    ∃ y, metadata.at? (place.map .key) = some y ∧ (x.isObj = false → y = x)
  origin : ∀ (place : List String) (x : Json), metadata.at? (place.map .key) = some x →
    (∃ y, own.bind (·.at? (place.map .key)) = some y) ∨
      ∃ y, (metadataSchema n).at? (place.map .key) = some y

/-- The schema of business events, put together from the owner's and the broker's. -/
structure Joined (n : String) (schema effective : Json) : Prop where
  others : ∀ key, key ≠ "properties" → key ≠ "required" →
    effective.member? key = schema.member? key
  properties : ∃ entries, effective.member? "properties" = some (.obj entries) ∧
    ∀ key, key ≠ "metadata" →
      Keyed.find? entries key = schema.at? [.key "properties", .key key]
  required : ∃ items, (schema.member? "required").getD (.arr []) = .arr items ∧
    effective.member? "required" =
      some (.arr (if .str "metadata" ∈ items then items else items ++ [.str "metadata"]))
  metadata : ∃ metadata, effective.at? [.key "properties", .key "metadata"] = some metadata ∧
    MetadataJoined n (schema.at? [.key "properties", .key "metadata"]) metadata

theorem metadataJoined_of_merged {own : Option Json} {metadata : Json}
    (h : Merged own (metadataSchema n) metadata) : MetadataJoined n own metadata := by
  refine ⟨fun place leaf hleaf hobj hne => ?_, ?_, fun place x hx hfree => ?_,
    fun place x hx => h.origin canonical_metadataSchema listsNames_metadataSchema hx⟩
  · obtain ⟨r, hr, hmerged⟩ :=
      h.at? place canonical_metadataSchema hleaf (required_not_mem hleaf hne)
    exact hmerged.leaf hobj ▸ hr
  · obtain ⟨olds, news, hold, rfl, hm⟩ := (merged_metadata h).members sorted_metadataKeywords
    obtain ⟨items, hitems, hnews⟩ := hm.required requiredMetadata rfl (by decide)
    refine ⟨items, ?_, hnews⟩
    rcases hold with rfl | ⟨rfl, rfl⟩
    · exact hitems
    · exact hitems
  · exact h.kept canonical_metadataSchema listsNames_metadataSchema hx hfree

/-- Nothing of the owner's schema is lost in the schema of a business event, apart from what the
broker itself says something about, and nothing is there that neither of them says. -/
theorem enrich_business_lossless {schema effective : Json}
    (h : enrich .business schema n = .ok effective) : Joined n schema effective := by
  obtain ⟨owner, root, rfl, hadd, rfl⟩ := enrich_business_ok h
  obtain ⟨properties, metadata, hw⟩ := addMetadata_ok hadd
  have hproperties : (Json.obj root).member? "properties" =
      some (.obj (Keyed.insert properties "metadata" metadata)) := hw.find?_properties
  refine ⟨fun key hp hr => hw.find?_other hp hr, ⟨_, hproperties, fun key hkey => ?_⟩, ?_,
    ⟨metadata, ?_, ?_⟩⟩
  · rw [at?_of_objectAt hw.old, Keyed.find?_insert_of_ne hkey]
  · obtain ⟨items, hitems, rfl⟩ := hw.result
    exact ⟨items, hitems, by rw [Json.member?, Keyed.find?_insert_self, appendNames_one]⟩
  · rw [at?_key, hproperties, Option.bind_some, at?_key, Json.member?, Keyed.find?_insert_self]
    rfl
  · rw [at?_of_objectAt hw.old]
    exact metadataJoined_of_merged hw.merged

/-- The owner closes the root, requires some names twice, and has schemas of its own for a field of
the metadata that the broker does not know and for one that it does. -/
def tenantLogin : Json :=
  .obj [("additionalProperties", .bool false),
    ("properties", .obj [("ip", stringSchema),
      ("metadata", .obj [("properties", .obj [("eid", .obj [("maxLength", Json.ofNat 36),
          ("type", .arr [.str "null", .str "string"])]), ("tenant", stringSchema)]),
        ("required", .arr [.str "tenant", .null, .str "eid", .str "tenant"])])]),
    ("required", .arr [.str "ip", .str "ip"])]

def joinedLogin : Json :=
  .obj [("additionalProperties", .bool false),
    ("properties", .obj [("ip", stringSchema),
      ("metadata", .obj [("properties", .obj [("eid", .obj [("maxLength", Json.ofNat 36),
          ("pattern", .str uuidPattern), ("type", .str "string")]),
        ("event_type", enumSchema ["login"]), ("flow_id", stringSchema),
        ("occurred_at", stringSchema), ("parent_eids", parentsSchema), ("partition", stringSchema),
        ("partition_compaction_key", stringSchema), ("span_ctx", spanSchema),
        ("tenant", stringSchema), ("version", stringSchema)]),
        ("required",
          .arr [.str "tenant", .null, .str "eid", .str "tenant", .str "occurred_at"]),
        ("type", .str "object")])]),
    ("required", .arr [.str "ip", .str "ip", .str "metadata"])]

theorem tenantLogin_lossless : enrich .business tenantLogin "login" = .ok joinedLogin ∧
    Joined "login" tenantLogin joinedLogin :=
  ⟨rfl, enrich_business_lossless rfl⟩

end EventAdmission.Enrichment
