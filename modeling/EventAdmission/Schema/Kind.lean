import EventAdmission.Json.Basic
import EventAdmission.Schema.Draft

/-!
# Kinds of values

The seven types that a schema can name, in the order in which they are listed.
-/

namespace EventAdmission

inductive Kind where
  | array
  | boolean
  | integer
  | null
  | number
  | object
  | string
deriving DecidableEq

namespace Kind

def all : List Kind := [array, boolean, integer, null, number, object, string]

def name : Kind → String
  | array => "array"
  | boolean => "boolean"
  | integer => "integer"
  | null => "null"
  | number => "number"
  | object => "object"
  | string => "string"

def ofName? (name : String) : Option Kind := all.find? fun k => k.name == name

/-- Since draft 6 a whole number is an integer however it is written. -/
def isInteger (draft : Draft) : Number → Bool
  | .float x => draft ≠ .draft4 && x.toFraction.isWhole
  | _ => true

def holds (draft : Draft) : Kind → Json → Bool
  | array, .arr _ => true
  | boolean, .bool _ => true
  | integer, .num n => isInteger draft n
  | null, .null => true
  | number, .num _ => true
  | object, .obj _ => true
  | string, .str _ => true
  | _, _ => false

end Kind

end EventAdmission
