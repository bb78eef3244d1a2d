import EventAdmission.Category
import EventAdmission.Json.Equality

/-!
# Event types

What the owner of an event type declares: its name, its category, the schema of
its events, and the fields that the schema must mention.
-/

namespace EventAdmission

structure EventType where
  name : String
  category : Category
  schema : Json
  /-- Paths from the root of the schema, their names set apart by dots. -/
  significantFields : List String
deriving DecidableEq

namespace EventType

/-- Equality of snapshots; schemas are compared as stored. -/
def equal (a b : EventType) : Bool :=
  a.name == b.name && a.category == b.category && a.schema.equal b.schema
    && a.significantFields == b.significantFields

def toJson (t : EventType) : Json :=
  .ofMembers [("name", .str t.name), ("category", .str t.category.name), ("schema", t.schema),
    ("significant_fields", .strings t.significantFields)]

end EventType

end EventAdmission
