import EventAdmission.EventType.Basic
import EventAdmission.Json.Typed

/-!
# Decoding event types

An event type is decoded from a JSON value or from JSON text, as an object or
as the list of its four fields. The list of significant fields may be left out
and has two spellings, of which only one may be used; other members of the
object are ignored.
-/

namespace EventAdmission

structure EventType.Parts where
  name : Option String := none
  category : Option Category := none
  schema : Option Json := none
  significantFields : Option (List String) := none

namespace EventType

inductive Field where
  | name
  | category
  | schema
  | significantFields
deriving DecidableEq

def Field.label : Field → String
  | name => "name"
  | category => "category"
  | schema => "schema"
  | significantFields => "significant_fields"

def Field.ofKey? (key : String) : Option Field :=
  match key with
  | "name" => some name
  | "category" => some category
  | "schema" => some schema
  | "significant_fields" => some significantFields
  | "partition_key_fields" => some significantFields
  | _ => none

namespace Parts

def has (p : Parts) : Field → Bool
  | .name => p.name.isSome
  | .category => p.category.isSome
  | .schema => p.schema.isSome
  | .significantFields => p.significantFields.isSome

/-- All fields but the significant ones must be there. -/
def finish (p : Parts) : Except ShapeFault EventType :=
  match p.name, p.category, p.schema with
  | none, _, _ => .error (.missingField Field.name.label)
  | _, none, _ => .error (.missingField Field.category.label)
  | _, _, none => .error (.missingField Field.schema.label)
  | some name, some category, some schema =>
    .ok ⟨name, category, schema, p.significantFields.getD []⟩

end Parts

def expected : String := "struct EventType"

def tooShort (count : Nat) : ShapeFault := .wrongLength count (expected ++ " with 4 elements")

-- ---------------------------------------------------------------------------
-- From a value
-- ---------------------------------------------------------------------------

def decodeText (x : Json) : Except ShapeFault String :=
  match x with
  | .str s => .ok s
  | _ => .error (.wrongType x.found "a string")

def decodeTexts (x : Json) : Except ShapeFault (List String) :=
  match x with
  | .arr items => items.mapM decodeText
  | _ => .error (.wrongType x.found "a sequence")

def decodeName (name : String) : Except ShapeFault Category :=
  match Category.names.find? (·.1 == name) with
  | some (_, c) => .ok c
  | none => .error (.unknownVariant name (Category.names.map (·.1)))

def decodeCategory (x : Json) : Except ShapeFault Category :=
  match x with
  | .str name => decodeName name
  | .obj [(name, content)] => do
    let c ← decodeName name
    match content with
    | .null => pure c
    | _ => .error (.wrongType content.found "unit")
  | .obj _ => .error (.wrongValue "map" "map with a single key")
  | _ => .error (.wrongType x.found "string or map")

def decodeField (p : Parts) (field : Field) (x : Json) : Except ShapeFault Parts := do
  match field with
  | .name => pure { p with name := some (← decodeText x) }
  | .category => pure { p with category := some (← decodeCategory x) }
  | .schema => pure { p with schema := some x }
  | .significantFields => pure { p with significantFields := some (← decodeTexts x) }

def decodeMembers (p : Parts) : List (String × Json) → Except ShapeFault Parts
  | [] => .ok p
  | (key, x) :: rest =>
    match Field.ofKey? key with
    | none => decodeMembers p rest
    | some field => do
      if p.has field then .error (.duplicateField field.label)
      else decodeMembers (← decodeField p field x) rest

def decodeItems (items : List Json) : Except ShapeFault EventType := do
  let item (n : Nat) : Except ShapeFault Json :=
    match items[n]? with
    | some x => .ok x
    | none => .error (tooShort n)
  let name ← decodeText (← item 0)
  let category ← decodeCategory (← item 1)
  let schema ← item 2
  let fields ← match items[3]? with
    | some x => decodeTexts x
    | none => pure []
  if 4 < items.length then .error (.wrongLength items.length "fewer elements in array")
  else pure ⟨name, category, schema, fields⟩

def ofJson (x : Json) : Except ShapeFault EventType :=
  match x with
  | .obj members => do (← decodeMembers {} members).finish
  | .arr items => decodeItems items
  | _ => .error (.wrongType x.found expected)

-- ---------------------------------------------------------------------------
-- From text
-- ---------------------------------------------------------------------------

def memberPlan (room : Nat) (key : String) (p : Parts) : Cursor.MemberPlan Parts :=
  match Field.ofKey? key with
  | none => .skip
  | some field =>
    if p.has field then .refuse (.duplicateField field.label)
    else
      .read fun s =>
        match field with
        | .name => do
          let (x, s) ← s.text "a string"
          pure ({ p with name := some x }, s)
        | .category => do
          let (x, s) ← s.choice Category.names room
          pure ({ p with category := some x }, s)
        | .schema => do
          let (x, s) ← Json.readWithin room s
          pure ({ p with schema := some x }, s)
        | .significantFields => do
          let (x, s) ← s.texts room
          pure ({ p with significantFields := some x }, s)

/-- The fields of a list, whose bracket has been read. -/
def readItems (room : Nat) (s : Cursor) : Except ReadError (EventType × Cursor) := do
  let (name, s) ← s.field true (.error (tooShort 0)) (·.text "a string")
  let (category, s) ← s.field false (.error (tooShort 1)) (·.choice Category.names room)
  let (schema, s) ← s.field false (.error (tooShort 2)) (Json.readWithin room)
  let (fields, s) ← s.field false (.ok []) (·.texts room)
  pure (⟨name, category, schema, fields⟩, ← s.closeList)

def readAt (s : Cursor) : Except ReadError (EventType × Cursor) :=
  let s := s.skipBlanks
  let room := Cursor.nestingLimit - 1
  match s.peek? with
  | some '[' => readItems room s.skip
  | some '\x7b' => s.skip.record (memberPlan room) {} Parts.finish
  | _ => s.unexpected expected

def read (text : String) : Except ReadError EventType := Cursor.whole readAt text

end EventType

end EventAdmission
