import EventAdmission.Pattern.Blanks

/-!
# Patterns as keywords spell them

A keyword names controls by `\c` and a letter, and means ASCII sets by `\d`, `\w`
and `\s`. Both are spelled out before the pattern is read.
-/

namespace EventAdmission.Pattern

/-- Replaces `\c` and a letter by the character 64 places before the letter. -/
def spellControls : List Char → List Char
  | '\\' :: 'c' :: letter :: rest =>
    if letter.isAlpha then Char.ofNat (letter.toNat - 64) :: spellControls rest
    else '\\' :: spellControls ('c' :: letter :: rest)
  | c :: rest => c :: spellControls rest
  | [] => []

def blankChars : String := " \t\n\r\x0b\x0c\u2003\ufeff\u2029\u00a0"

def spelledSet? (c : Char) : Option String :=
  match c with
  | 'd' => some "[0-9]"
  | 'D' => some "[^0-9]"
  | 'w' => some "[A-Za-z0-9_]"
  | 'W' => some "[^A-Za-z0-9_]"
  | 's' => some ("[" ++ blankChars ++ "]")
  | 'S' => some ("[^" ++ blankChars ++ "]")
  | _ => none

def spellSets : List Char → List Char
  | '\\' :: c :: rest =>
    match spelledSet? c with
    | some set => set.toList ++ spellSets rest
    | none => '\\' :: c :: spellSets rest
  | c :: rest => c :: spellSets rest
  | [] => []

def spellOut (source : String) : String := String.ofList (spellSets (spellControls source.toList))

end EventAdmission.Pattern
