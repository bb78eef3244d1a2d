/-!
# Violations and rejections

A violation is one fault of a document, with the place of the fault. A rejection
is what a publisher is told: the only violation as it is, or a headline with one
line for each.
-/

namespace EventAdmission

structure Violation where
  /-- Empty for the document itself. -/
  pointer : String
  reason : String
deriving DecidableEq

def Violation.text (v : Violation) : String := "#" ++ v.pointer ++ ": " ++ v.reason

structure Rejection where
  message : String
deriving DecidableEq

namespace Rejection

/-- One rejection for all violations; none if there are none. -/
def ofViolations : List Violation → Option Rejection
  | [] => none
  | [single] => some ⟨single.text⟩
  | many =>
    some ⟨"#: " ++ toString many.length ++ " schema violations found"
      ++ String.join (many.map fun v => "\n" ++ v.text)⟩

end Rejection

end EventAdmission
