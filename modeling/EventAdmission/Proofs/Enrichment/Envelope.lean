import EventAdmission.Proofs.Enrichment.Merge

/-!
# The shape of an enriched schema

`dataChangeEnvelope_eq`: the envelope of a data change is fixed up to the
owner's hoisted members, and building it never fails. `addMetadata_ok`: for a
business event the owner's root keeps all its members but two, the properties
and the required names, and the metadata are merged into what the owner says
about them.
-/

namespace EventAdmission.Enrichment

variable {n : String} {owner root : Members}

-- ---------------------------------------------------------------------------
-- Pieces of the envelope
-- ---------------------------------------------------------------------------

theorem stringSchema_eq : stringSchema = .obj [("type", .str "string")] := rfl

theorem uuidSchema_eq :
    uuidSchema = .obj [("pattern", .str uuidPattern), ("type", .str "string")] := rfl

theorem enumSchema_eq {names : List String} :
    enumSchema names = .obj [("enum", .strings names), ("type", .str "string")] := by
  simp only [enumSchema, Json.ofMembers, Keyed.ofList, List.foldl_cons, List.foldl_nil,
    Keyed.insert, String.reduceEq, String.reduceLT, ↓reduceIte]

theorem metadataSchema_eq : metadataSchema n =
    .obj [("properties", .obj (metadataProperties n)), ("required", .strings requiredMetadata),
      ("type", .str "object")] := by
  simp only [metadataSchema, Json.ofMembers, Keyed.ofList, List.foldl_cons, List.foldl_nil,
    Keyed.insert, String.reduceEq, String.reduceLT, ↓reduceIte]

def spanSchema : Json :=
  .obj [("additionalProperties", stringSchema), ("type", .str "object")]

def parentsSchema : Json := .obj [("items", uuidSchema), ("type", .str "array")]

theorem metadataProperties_eq : metadataProperties n =
    [("eid", uuidSchema), ("event_type", enumSchema [n]), ("flow_id", stringSchema),
      ("occurred_at", stringSchema), ("parent_eids", parentsSchema), ("partition", stringSchema),
      ("partition_compaction_key", stringSchema), ("span_ctx", spanSchema),
      ("version", stringSchema)] := by
  have hparents : Json.ofMembers [("type", .str "array"), ("items", uuidSchema)] =
      parentsSchema := rfl
  have hspan : Json.ofMembers [("type", .str "object"), ("additionalProperties", stringSchema)] =
      spanSchema := rfl
  rw [metadataProperties, hparents, hspan]

-- ---------------------------------------------------------------------------
-- Data changes
-- ---------------------------------------------------------------------------

def ownFields (owner : Members) : Members :=
  [("data", .obj (lowered owner)), ("data_op", enumSchema dataOperations),
    ("data_type", stringSchema)]

def fields (n : String) (owner : Members) : Members :=
  [("data", .obj (lowered owner)), ("data_op", enumSchema dataOperations),
    ("data_type", stringSchema), ("metadata", metadataSchema n)]

def envelopeEnd (n : String) (owner : Members) : Members :=
  [("properties", .obj (fields n owner)),
    ("required", .strings ["metadata", "data_op", "data_type", "data"]), ("type", .str "object")]

theorem mem_hoisted {e : String × Json} (h : e ∈ hoisted owner) : e.1 ∈ hoistedKeywords := by
  simpa using (List.mem_filter.mp h).2

theorem hoisted_lt {key : String} (hd : "definitions" < key) {e : String × Json}
    (h : e ∈ hoisted owner) : e.1 < key := by
  have hle : ∀ k ∈ hoistedKeywords, k < "definitions" ∨ k = "definitions" := by decide
  rcases hle _ (mem_hoisted h) with hlt | heq
  · exact String.lt_trans hlt hd
  · exact heq ▸ hd

theorem hoisted_ne_additional {e : String × Json} (h : e ∈ hoisted owner) :
    e.1 ≠ "additionalProperties" := by
  have hne : ∀ k ∈ hoistedKeywords, k ≠ "additionalProperties" := by decide
  exact hne _ (mem_hoisted h)

/-- What stands before the properties: the owner's hoisted members, and that there are no other
fields. -/
structure Head (owner head : Members) : Prop where
  lt : ∀ e ∈ head, e.1 < "properties"
  split : ∃ front back, hoisted owner = front ++ back ∧
    head = front ++ ("additionalProperties", .bool false) :: back

theorem closedEnvelope_eq (owner : Members) : ∃ head, Head owner head ∧
    closedEnvelope owner = head ++
      [("properties", .obj (ownFields owner)), ("type", .str "object")] := by
  have hlt : ∀ e ∈ hoisted owner, e.1 < "type" := fun e => hoisted_lt (by decide)
  have htype : Keyed.insert (hoisted owner) "type" (.str "object") =
      hoisted owner ++ [("type", .str "object")] := by
    simpa [Keyed.insert] using Keyed.insert_append [] hlt
  have hadd : "additionalProperties" < "type" := by decide
  have hnew : ∀ e ∈ hoisted owner, e.1 ≠ "additionalProperties" := fun _ => hoisted_ne_additional
  obtain ⟨front, back, hsplit, hinsert⟩ : ∃ front back, hoisted owner = front ++ back ∧
      Keyed.insert (hoisted owner ++ [("type", .str "object")]) "additionalProperties"
          (.bool false) =
        front ++ ("additionalProperties", .bool false) :: (back ++ [("type", .str "object")]) :=
    Keyed.insert_fresh hnew hadd
  have hhead : ∀ e ∈ front ++ ("additionalProperties", .bool false) :: back,
      e.1 < "properties" := by
    intro e he
    rcases List.mem_append.mp he with h | h
    · exact hoisted_lt (by decide) (hsplit ▸ List.mem_append_left _ h)
    · rcases List.mem_cons.mp h with rfl | h
      · decide
      · exact hoisted_lt (by decide) (hsplit ▸ List.mem_append_right _ h)
  refine ⟨_, ⟨hhead, front, back, hsplit, rfl⟩, ?_⟩
  rw [closedEnvelope, htype, hinsert, ← List.cons_append, ← List.append_assoc,
    Keyed.insert_append _ hhead]
  rfl

theorem Head.mem {head : Members} (h : Head owner head) {e : String × Json} (he : e ∈ head) :
    e ∈ hoisted owner ∨ e = ("additionalProperties", .bool false) := by
  obtain ⟨front, back, hsplit, rfl⟩ := h.split
  rw [hsplit]
  rcases List.mem_append.mp he with he | he
  · exact .inl (List.mem_append_left _ he)
  · rcases List.mem_cons.mp he with rfl | he
    · exact .inr rfl
    · exact .inl (List.mem_append_right _ he)

def headKeys : List String := "additionalProperties" :: hoistedKeywords

theorem Head.find? {head others : Members} (h : Head owner head) {key : String}
    (hk : key ∉ headKeys) : Keyed.find? (head ++ others) key = Keyed.find? others key := by
  refine Keyed.find?_append _ fun e he heq => hk ?_
  rcases h.mem he with he | rfl
  · exact List.mem_cons_of_mem _ (heq ▸ mem_hoisted he)
  · exact List.mem_cons.mpr (.inl heq.symm)

theorem Head.find?_hoisted {head others : Members} (h : Head owner head) {key : String}
    (hk : key ∈ hoistedKeywords) (hothers : Keyed.find? others key = none) :
    Keyed.find? (head ++ others) key = Keyed.find? owner key := by
  obtain ⟨front, back, hsplit, rfl⟩ := h.split
  have hne : "additionalProperties" ≠ key := by
    rintro rfl
    revert hk
    decide
  have hfind : Keyed.find? (hoisted owner) key = Keyed.find? owner key :=
    Keyed.find?_filter (fun k => hoistedKeywords.contains k) (by simpa using hk)
  rw [← hfind, hsplit, List.append_assoc, List.cons_append, Keyed.find?_append_or,
    Keyed.find?_append_or, Keyed.find?_cons, if_neg hne, Keyed.find?_append_or, hothers,
    Option.or_none]

theorem Head.insert {head others : Members} {value : Json} (h : Head owner head) {key : String}
    (hk : "properties" = key ∨ "properties" < key) :
    Keyed.insert (head ++ others) key value = head ++ Keyed.insert others key value :=
  Keyed.insert_append _ fun e he =>
    hk.elim (fun heq => heq ▸ h.lt e he) (String.lt_trans (h.lt e he))

theorem Head.appendRequired_new {head : Members} (h : Head owner head) (properties : Json)
    (names : List String) :
    appendRequired (head ++ [("properties", properties), ("type", .str "object")]) names =
      some (head ++ [("properties", properties), ("required", .arr (appendNames [] names)),
        ("type", .str "object")]) := by
  have hlt : "properties" < "required" := by decide
  rw [appendRequired, h.find? (by decide)]
  simp only [Keyed.find?_cons, Keyed.find?_nil, h.insert (.inr hlt), Keyed.insert, String.reduceEq,
    String.reduceLT, ↓reduceIte, Option.getD_none]

theorem Head.appendRequired_more {head : Members} (h : Head owner head) (properties : Json)
    (items : List Json) (names : List String) :
    appendRequired (head ++ [("properties", properties), ("required", .arr items),
        ("type", .str "object")]) names =
      some (head ++ [("properties", properties), ("required", .arr (appendNames items names)),
        ("type", .str "object")]) := by
  have hlt : "properties" < "required" := by decide
  rw [appendRequired, h.find? (by decide)]
  simp only [Keyed.find?_cons, h.insert (.inr hlt), Keyed.insert, String.reduceEq, String.reduceLT,
    ↓reduceIte, Option.getD_some]

/-- The metadata join the fields, which are closed already. -/
theorem Head.addMetadata {head : Members} (h : Head owner head) :
    addMetadata n (head ++ [("properties", .obj (ownFields owner)), ("type", .str "object")]) =
      .ok (head ++ [("properties", .obj (fields n owner)), ("required", .arr [.str "metadata"]),
        ("type", .str "object")]) := by
  have hproperties : objectAt (head ++ [("properties", .obj (ownFields owner)),
      ("type", .str "object")]) "properties" = .ok (ownFields owner) := by
    rw [objectAt, h.find? (by decide)]
    rfl
  have hnone : Keyed.find? (ownFields owner) "metadata" = none := rfl
  have hfields : Keyed.insert (ownFields owner) "metadata" (metadataSchema n) = fields n owner := by
    simp only [ownFields, fields, Keyed.insert, String.reduceEq, String.reduceLT, ↓reduceIte]
  have hnames : appendNames [] ["metadata"] = [.str "metadata"] := rfl
  rw [Enrichment.addMetadata, hproperties]
  simp only [bind, Except.bind, hnone, pure, Except.pure, hfields, h.insert (.inl rfl)]
  have hset : Keyed.insert [("properties", Json.obj (ownFields owner)), ("type", .str "object")]
      "properties" (.obj (fields n owner)) =
        [("properties", .obj (fields n owner)), ("type", .str "object")] := by
    simp [Keyed.insert]
  rw [hset, h.appendRequired_new, hnames]

theorem dataChangeEnvelope_eq (n : String) (owner : Members) : ∃ head, Head owner head ∧
    dataChangeEnvelope n owner = .ok (head ++ envelopeEnd n owner) := by
  obtain ⟨head, hhead, hclosed⟩ := closedEnvelope_eq owner
  refine ⟨head, hhead, ?_⟩
  have hnames : appendNames [.str "metadata"] Category.dataChange.requiredFields =
      [.str "metadata", .str "data_op", .str "data_type", .str "data"] := by
    simp [appendNames, Category.requiredFields, Json.str?]
  rw [dataChangeEnvelope, hclosed, hhead.addMetadata]
  simp only [bind, Except.bind, hhead.appendRequired_more, hnames]
  rfl

-- ---------------------------------------------------------------------------
-- Metadata beside the owner's fields
-- ---------------------------------------------------------------------------

/-- What adding the metadata does to the root: the owner's other members stay. -/
structure WithMetadata (n : String) (owner root properties : Members) (metadata : Json) :
    Prop where
  old : objectAt owner "properties" = .ok properties
  merged : Merged (Keyed.find? properties "metadata") (metadataSchema n) metadata
  result : ∃ items, (Keyed.find? owner "required").getD (.arr []) = .arr items ∧
    root = Keyed.insert (Keyed.insert owner "properties"
      (.obj (Keyed.insert properties "metadata" metadata))) "required"
        (.arr (appendNames items ["metadata"]))

theorem addMetadata_ok (h : addMetadata n owner = .ok root) :
    ∃ properties metadata, WithMetadata n owner root properties metadata := by
  unfold addMetadata at h
  obtain ⟨properties, hproperties, h⟩ := bind_ok.mp h
  obtain ⟨metadata, hmerge, hrequired⟩ : ∃ metadata,
      Merged (Keyed.find? properties "metadata") (metadataSchema n) metadata ∧
        appendRequired (Keyed.insert owner "properties"
          (.obj (Keyed.insert properties "metadata" metadata))) ["metadata"] = some root := by
    cases hold : Keyed.find? properties "metadata" with
    | none =>
      simp only [hold] at h
      obtain ⟨_, ⟨⟩, h⟩ := bind_ok.mp h
      split at h
      · rename_i hrequired
        obtain rfl := Except.ok.inj h
        exact ⟨_, rfl, hrequired⟩
      · cases h
    | some existing =>
      simp only [hold] at h
      obtain ⟨metadata, hmerge, h⟩ := bind_ok.mp h
      split at h
      · rename_i hrequired
        obtain rfl := Except.ok.inj h
        exact ⟨metadata, ⟨_, hmerge⟩, hrequired⟩
      · cases h
  obtain ⟨items, hitems, rfl⟩ := appendRequired_ok hrequired
  refine ⟨properties, metadata, hproperties, hmerge, items, ?_, rfl⟩
  rwa [Keyed.find?_insert_of_ne (by decide)] at hitems

variable {properties : Members} {metadata : Json}

theorem WithMetadata.find?_properties (h : WithMetadata n owner root properties metadata) :
    Keyed.find? root "properties" = some (.obj (Keyed.insert properties "metadata" metadata)) := by
  obtain ⟨items, -, rfl⟩ := h.result
  rw [Keyed.find?_insert_of_ne (by decide), Keyed.find?_insert_self]

theorem WithMetadata.find?_required (h : WithMetadata n owner root properties metadata) :
    ∃ items, Keyed.find? root "required" = some (.arr items) ∧ .str "metadata" ∈ items := by
  obtain ⟨items, -, rfl⟩ := h.result
  exact ⟨_, Keyed.find?_insert_self, mem_appendNames (by simp)⟩

theorem WithMetadata.find?_other (h : WithMetadata n owner root properties metadata) {key : String}
    (hp : key ≠ "properties") (hr : key ≠ "required") :
    Keyed.find? root key = Keyed.find? owner key := by
  obtain ⟨items, -, rfl⟩ := h.result
  rw [Keyed.find?_insert_of_ne hr, Keyed.find?_insert_of_ne hp]

end EventAdmission.Enrichment
