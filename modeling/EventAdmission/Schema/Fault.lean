import EventAdmission.Json.Pointer
import EventAdmission.Json.Printer
import EventAdmission.Schema.Kind
import EventAdmission.Violation

/-!
# Faults of a document

A fault is a cause, met at a value that lies at a path of the document. It has a
general text; for some causes a violation words it for the owners of events, and
unexpected properties become one violation each.
-/

namespace EventAdmission

inductive Side where
  | least
  | most
deriving DecidableEq

inductive Measure where
  | characters
  | items
  | properties
deriving DecidableEq

inductive Cause where
  | wrongKind (expected : List Kind)
  | outOfRange (side : Side) (exclusive : Bool) (limit : Number)
  | notMultiple (factor : Binary64)
  | wrongSize (measure : Measure) (side : Side) (limit : Nat)
  | notUnique
  | notListed (options : List Json)
  | notExpected (expected : Json)
  | noMatch (pattern : String)
  | matchGaveUp
  | wrongFormat (name : String)
  | missing (key : String)
  | unexpectedProperties (keys : List String)
  | unexpectedItems (items : List Json)
  | noItemValid
  | noneValid (keyword : String)
  | severalValid
  | excluded (schema : Json)
  | nothingAllowed
  | wrongEncoding (name : String)
  | wrongMediaType (name : String)
  /-- A fault of a property name, which has been worded already. -/
  | badName (text : String)
  | malformedSchema
  /-- A reference or identifier that cannot be used, or bytes that are no text. -/
  | unusable (text : String)

structure Fault where
  path : Path
  instanceValue : Json
  cause : Cause

namespace Measure

def count (m : Measure) (n : Nat) : String :=
  let noun := match m with
    | characters => if n = 1 then "character" else "characters"
    | items => if n = 1 then "item" else "items"
    | properties => if n = 1 then "property" else "properties"
  toString n ++ " " ++ noun

end Measure

namespace Cause

def inQuotes (text : String) : String := "\"" ++ text ++ "\""

def unexpected {α : Type} (things : List α) : String :=
  if things.length = 1 then " was unexpected" else " were unexpected"

def text (x : Json) : Cause → String
  | wrongKind [k] => x.text ++ " is not of type " ++ inQuotes k.name
  | wrongKind kinds =>
    x.text ++ " is not of types " ++ ", ".intercalate (kinds.map fun k => inQuotes k.name)
  | outOfRange .least false limit =>
    x.text ++ " is less than the minimum of " ++ String.ofList limit.chars
  | outOfRange .least true limit =>
    x.text ++ " is less than or equal to the minimum of " ++ String.ofList limit.chars
  | outOfRange .most false limit =>
    x.text ++ " is greater than the maximum of " ++ String.ofList limit.chars
  | outOfRange .most true limit =>
    x.text ++ " is greater than or equal to the maximum of " ++ String.ofList limit.chars
  | notMultiple factor => x.text ++ " is not a multiple of " ++ FloatStyle.plain.write factor
  | wrongSize .characters .least n => x.text ++ " is shorter than " ++ Measure.characters.count n
  | wrongSize .characters .most n => x.text ++ " is longer than " ++ Measure.characters.count n
  | wrongSize measure .least n => x.text ++ " has less than " ++ measure.count n
  | wrongSize measure .most n => x.text ++ " has more than " ++ measure.count n
  | notUnique => x.text ++ " has non-unique elements"
  | notListed options => x.text ++ " is not one of " ++ (Json.arr options).text
  | notExpected expected => expected.text ++ " was expected"
  | noMatch pattern => x.text ++ " does not match " ++ inQuotes pattern
  | matchGaveUp => "Error executing regex: Max limit for backtracking count exceeded"
  | wrongFormat name => x.text ++ " is not a " ++ inQuotes name
  | missing key => (Json.str key).text ++ " is a required property"
  | unexpectedProperties keys =>
    "Additional properties are not allowed ("
      ++ ", ".intercalate (keys.map fun k => "'" ++ k ++ "'") ++ unexpected keys ++ ")"
  | unexpectedItems items =>
    "Additional items are not allowed (" ++ ", ".intercalate (items.map Json.text)
      ++ unexpected items ++ ")"
  | noItemValid => "None of " ++ x.text ++ " are valid under the given schema"
  | noneValid keyword =>
    x.text ++ " is not valid under any of the schemas listed in the '" ++ keyword ++ "' keyword"
  | severalValid =>
    x.text ++ " is valid under more than one of the schemas listed in the 'oneOf' keyword"
  | excluded schema => schema.text ++ " is not allowed for " ++ x.text
  | nothingAllowed => "False schema does not allow " ++ x.text
  | wrongEncoding name =>
    x.text ++ " is not compliant with " ++ inQuotes name ++ " content encoding"
  | wrongMediaType name => x.text ++ " is not compliant with " ++ inQuotes name ++ " media type"
  | badName text => text
  | malformedSchema => "Schema error"
  | unusable text => text

end Cause

namespace Fault

def text (f : Fault) : String := f.cause.text f.instanceValue

/-- The reasons that are told to the owner of an event. -/
def reasons (f : Fault) : List String :=
  match f.cause with
  | .missing key => ["required key [" ++ key ++ "] not found"]
  | .unexpectedProperties keys => keys.map fun k => "extraneous key [" ++ k ++ "] is not permitted"
  | .noMatch pattern =>
    ["string [" ++ f.instanceValue.display ++ "] does not match pattern " ++ pattern]
  | .notListed _ => [f.instanceValue.display ++ " is not a valid enum value"]
  | .wrongFormat name => ["[" ++ f.instanceValue.display ++ "] is not a valid " ++ name]
  | _ => [f.text]

def violations (f : Fault) : List Violation :=
  f.reasons.map fun reason => ⟨f.path.pointer, reason⟩

end Fault

end EventAdmission
