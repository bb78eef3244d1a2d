import EventAdmission.Json.Typed
import EventAdmission.Unicode.LowerCase

/-!
# Categories

The category of an event type decides which envelope its events carry: none,
metadata beside the owner's fields, or the closed envelope of a data change.
-/

namespace EventAdmission

inductive Category where
  | undefined
  | business
  | dataChange
deriving DecidableEq

namespace Category

def all : List Category := [undefined, business, dataChange]

def name : Category → String
  | undefined => "undefined"
  | business => "business"
  | dataChange => "data"

def names : List (String × Category) := all.map fun c => (c.name, c)

def requiresMetadata : Category → Bool
  | undefined => false
  | _ => true

/-- The root fields that are required beside the metadata, in order. -/
def requiredFields : Category → List String
  | dataChange => ["data_op", "data_type", "data"]
  | _ => []

/-- Whether no other root fields are allowed. -/
def closesRoot : Category → Bool
  | dataChange => true
  | _ => false

def ofWord? (word : String) : Option Category :=
  match word with
  | "undefined" => some undefined
  | "business" => some business
  | "data" => some dataChange
  | "data_change" => some dataChange
  | "data-change" => some dataChange
  | _ => none

structure Unknown where
  word : String
deriving DecidableEq

def Unknown.message (e : Unknown) : String := "unknown event type category: " ++ e.word

/-- The category that a text names, in any case. -/
def parse (text : String) : Except Unknown Category :=
  let word := Unicode.toLower text
  match ofWord? word with
  | some c => .ok c
  | none => .error ⟨word⟩

def read (text : String) : Except ReadError Category :=
  Cursor.whole (Cursor.choice names Cursor.nestingLimit) text

end Category

end EventAdmission
