import EventAdmission.Json.Printer
import EventAdmission.Text.Quoted

/-!
# Values of the wrong shape

What is said when a JSON value does not have the form that a record, a choice
or a list asks for.
-/

namespace EventAdmission

inductive ShapeFault where
  | missingField (name : String)
  | duplicateField (name : String)
  | unknownVariant (name : String) (known : List String)
  | wrongType (found expected : String)
  | wrongValue (found expected : String)
  | wrongLength (count : Nat) (expected : String)
deriving DecidableEq

namespace ShapeFault

def ticked (name : String) : String := "`" ++ name ++ "`"

def message : ShapeFault → String
  | missingField name => "missing field " ++ ticked name
  | duplicateField name => "duplicate field " ++ ticked name
  | unknownVariant name known =>
    "unknown variant " ++ ticked name ++ ", expected one of "
      ++ ", ".intercalate (known.map ticked)
  | wrongType found expected => "invalid type: " ++ found ++ ", expected " ++ expected
  | wrongValue found expected => "invalid value: " ++ found ++ ", expected " ++ expected
  | wrongLength count expected =>
    "invalid length " ++ toString count ++ ", expected " ++ expected

end ShapeFault

def Json.found : Json → String
  | .null => "null"
  | .bool b => "boolean " ++ ShapeFault.ticked (if b then "true" else "false")
  | .num n =>
    (if n.isFloat then "floating point " else "integer ")
      ++ ShapeFault.ticked (String.ofList n.chars)
  | .str s => "string " ++ Text.quote s
  | .arr _ => "sequence"
  | .obj _ => "map"

end EventAdmission
