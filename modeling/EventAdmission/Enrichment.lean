import EventAdmission.Category
import EventAdmission.Json.Pointer
import EventAdmission.Log

/-!
# Enrichment

The schema that events are checked against: the owner's schema with the broker's
envelope merged into it. For a business event the metadata join the owner's root
fields; for a data change the owner's schema moves below `data` in a closed
envelope. A schema is never enriched twice.
-/

namespace EventAdmission

inductive EnrichmentError where
  | alreadyEnriched (eventType : String)
  | notAnObject (eventType : String)
  | malformedKeyword (eventType keyword : String)
deriving DecidableEq

namespace EnrichmentError

def message : EnrichmentError → String
  | alreadyEnriched t => "schema of event type [" ++ t ++ "] is already enriched"
  | notAnObject t => "schema of event type [" ++ t ++ "] must be a JSON object"
  | malformedKeyword t keyword =>
    "schema of event type [" ++ t ++ "] has a malformed [" ++ keyword ++ "] keyword"

end EnrichmentError

namespace Enrichment

-- ---------------------------------------------------------------------------
-- The envelope
-- ---------------------------------------------------------------------------

def uuidPattern : String :=
  "^[a-fA-F0-9]\x7b8\x7d-[a-fA-F0-9]\x7b4\x7d-[a-fA-F0-9]\x7b4\x7d-[a-fA-F0-9]\x7b4\x7d-[a-fA-F0-9]\x7b12\x7d$"

/-- The operations of a data change: create, update, delete, snapshot. -/
def dataOperations : List String := ["C", "U", "D", "S"]

/-- The members of a data change schema that stay at the root, where references look for them. -/
def hoistedKeywords : List String := ["$schema", "definitions", "$defs"]

def requiredMetadata : List String := ["eid", "occurred_at"]

def stringSchema : Json := .ofMembers [("type", .str "string")]

def uuidSchema : Json := .ofMembers [("type", .str "string"), ("pattern", .str uuidPattern)]

def enumSchema (names : List String) : Json :=
  .ofMembers [("type", .str "string"), ("enum", .strings names)]

def metadataProperties (eventType : String) : List (String × Json) :=
  [("eid", uuidSchema),
    ("event_type", enumSchema [eventType]),
    ("flow_id", stringSchema),
    ("occurred_at", stringSchema),
    ("parent_eids", .ofMembers [("type", .str "array"), ("items", uuidSchema)]),
    ("partition", stringSchema),
    ("partition_compaction_key", stringSchema),
    ("span_ctx", .ofMembers [("type", .str "object"), ("additionalProperties", stringSchema)]),
    ("version", stringSchema)]

def metadataSchema (eventType : String) : Json :=
  .ofMembers [("type", .str "object"), ("properties", .obj (metadataProperties eventType)),
    ("required", .strings requiredMetadata)]

-- ---------------------------------------------------------------------------
-- Recognition
-- ---------------------------------------------------------------------------

def requiresAll (required : Option Json) (names : List String) : Bool :=
  match required with
  | some (.arr items) => names.all fun name => items.any fun x => x.str? == some name
  | _ => false

def isSingleName : Option Json → Bool
  | some (.arr [.str _]) => true
  | _ => false

/-- Whether a schema holds every piece that enrichment adds. -/
def isEnriched (schema : Json) : Bool :=
  match schema.at? [.key "properties", .key "metadata"] with
  | none => false
  | some metadata =>
    let property (field keyword : String) :=
      metadata.at? [.key "properties", .key field, .key keyword]
    (property "eid" "pattern").bind Json.str? == some uuidPattern
      && isSingleName (property "event_type" "enum")
      && property "span_ctx" "additionalProperties" == some stringSchema
      && requiresAll (metadata.member? "required") requiredMetadata
      && requiresAll (schema.member? "required") ["metadata"]

-- ---------------------------------------------------------------------------
-- Merging
-- ---------------------------------------------------------------------------

/-- Names at the end of a list of names, each unless it is there already. -/
def appendNames (items : List Json) : List String → List Json
  | [] => items
  | name :: names =>
    if items.any fun x => x.str? == some name then appendNames items names
    else appendNames (items ++ [.str name]) names

/-- More required names; `none` if the keyword holds no list. -/
def appendRequired (root : Members) (names : List String) : Option Members :=
  match (Keyed.find? root "required").getD (.arr []) with
  | .arr items => some (Keyed.insert root "required" (.arr (appendNames items names)))
  | _ => none

def namesOf : Json → List String
  | .arr items => items.filterMap Json.str?
  | _ => []

mutual

/-- Merges `source` into `target`. Objects merge member by member, lists of required names are
united, and everything else is replaced. An object does not merge into another value: the fault is
the keyword, with the keywords above it. -/
def deepMerge (keyword : String) (target : Json) : (source : Json) → Except String Json
  | .obj source =>
    match target with
    | .obj members => .obj <$> mergeMembers keyword members source
    | _ => .error keyword
  | source => .ok source

def mergeMembers (keyword : String) (target : Members) :
    (source : List (String × Json)) → Except String Members
  | [] => .ok target
  | (key, value) :: rest => do
    let merged ←
      if key = "required" then
        match appendRequired target (namesOf value) with
        | some merged => pure merged
        | none => .error (keyword ++ ".required")
      else
        match Keyed.find? target key with
        | some existing =>
          Keyed.insert target key <$> deepMerge (keyword ++ "." ++ key) existing value
        | none => pure (Keyed.insert target key value)
    mergeMembers keyword merged rest

end

def objectAt (root : Members) (key : String) : Except String Members :=
  match Keyed.find? root key with
  | none => .ok []
  | some (.obj members) => .ok members
  | some _ => .error key

def addMetadata (eventType : String) (root : Members) : Except String Members := do
  let properties ← objectAt root "properties"
  let metadata ← match Keyed.find? properties "metadata" with
    | some existing => deepMerge "metadata" existing (metadataSchema eventType)
    | none => pure (metadataSchema eventType)
  let root := Keyed.insert root "properties" (.obj (Keyed.insert properties "metadata" metadata))
  match appendRequired root ["metadata"] with
  | some root => pure root
  | none => .error "required"

/-- The owner's members that stay at the root of a data change schema. -/
def hoisted (owner : Members) : Members :=
  owner.filter fun e => hoistedKeywords.contains e.1

/-- The owner's members that move below `data`. -/
def lowered (owner : Members) : Members :=
  owner.filter fun e => !hoistedKeywords.contains e.1

def closedEnvelope (owner : Members) : Members :=
  let properties : Members :=
    [("data", .obj (lowered owner)), ("data_op", enumSchema dataOperations),
      ("data_type", stringSchema)]
  Keyed.insert
    (Keyed.insert (Keyed.insert (hoisted owner) "type" (.str "object"))
      "additionalProperties" (.bool false))
    "properties" (.obj properties)

def dataChangeEnvelope (eventType : String) (owner : Members) : Except String Members := do
  let root ← addMetadata eventType (closedEnvelope owner)
  match appendRequired root Category.dataChange.requiredFields with
  | some root => pure root
  | none => .error "required"

def checkedRoot (eventType : String) (schema : Json) : Except EnrichmentError Members :=
  match schema with
  | .obj members =>
    if isEnriched schema then .error (.alreadyEnriched eventType) else .ok members
  | _ => .error (.notAnObject eventType)

def enrich (category : Category) (schema : Json) (eventType : String) :
    Except EnrichmentError Json :=
  let merged (merge : Members → Except String Members) : Except EnrichmentError Json := do
    match merge (← checkedRoot eventType schema) with
    | .ok root => pure (.obj root)
    | .error keyword => .error (.malformedKeyword eventType keyword)
  match category with
  | .undefined => .ok schema
  | .business => merged (addMetadata eventType)
  | .dataChange => merged (dataChangeEnvelope eventType)

/-- Enrichment with its log record; a schema that stays as it is leaves none. -/
def enrichLogged (category : Category) (schema : Json) (eventType : String) :
    Logged (Except EnrichmentError Json) :=
  let result := enrich category schema eventType
  match category, result with
  | .undefined, _ => ⟨[], result⟩
  | _, .ok effective =>
    ⟨[.schemaEnriched eventType category ((effective.member? "required").getD .null)], result⟩
  | _, .error _ => ⟨[], result⟩

end Enrichment

end EventAdmission
