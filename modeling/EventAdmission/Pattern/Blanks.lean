import EventAdmission.Text.Blank

/-!
# Blanks inside a pattern

In the spaced form of a pattern white space and comments mean nothing. A comment
runs from `#` to the end of its line.
-/

namespace EventAdmission.Pattern

/-- Drops white space and comments; `inComment` tells where to begin. -/
def dropSpace (inComment : Bool) : List Char → List Char
  | [] => []
  | c :: rest =>
    if inComment then dropSpace (c != '\n') rest
    else if Text.isWhiteSpace c then dropSpace false rest
    else if c = '#' then dropSpace true rest
    else c :: rest

def skip (spaced : Bool) (cs : List Char) : List Char :=
  if spaced then dropSpace false cs else cs

def hexValue? (value : Nat) : List Char → Option Nat
  | [] => some value
  | c :: rest => do
    let digit ←
      if c.isDigit then some (c.toNat - '0'.toNat)
      else if 'a' ≤ c && c ≤ 'f' then some (c.toNat - 'a'.toNat + 10)
      else if 'A' ≤ c && c ≤ 'F' then some (c.toNat - 'A'.toNat + 10)
      else none
    hexValue? (16 * value + digit) rest

def isHexDigit (c : Char) : Bool := (hexValue? 0 [c]).isSome

def charOfCode? (code : Nat) : Option Char :=
  if code.isValidChar then some (Char.ofNat code) else none

def decimalValue (cs : List Char) : Nat :=
  cs.foldl (fun n c => 10 * n + (c.toNat - '0'.toNat)) 0

end EventAdmission.Pattern
