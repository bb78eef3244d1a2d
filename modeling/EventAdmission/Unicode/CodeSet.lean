/-!
# Sets of code points

A set is a list of ranges in increasing order. Large sets are kept as lines of
text: for each range the gap behind the range before it and its length, in base
36.
-/

namespace EventAdmission

structure Span where
  low : Nat
  high : Nat
deriving DecidableEq

abbrev CodeSet := List Span

namespace CodeSet

def contains (set : CodeSet) (code : Nat) : Bool := set.any fun s => s.low ≤ code && code ≤ s.high

def digit36 (c : Char) : Nat :=
  if c.isDigit then c.toNat - '0'.toNat else c.toNat - 'a'.toNat + 10

/-- The numbers of a text in base 36, set apart by blanks. -/
def numbers : List Char → Option Nat → List Nat
  | [], none => []
  | [], some n => [n]
  | c :: rest, n =>
    if c = ' ' then n.toList ++ numbers rest none
    else numbers rest (some (n.getD 0 * 36 + digit36 c))

/-- The ranges from gaps and lengths; `start` is the first code point that is still free. -/
def ofGaps (start : Nat) : List Nat → CodeSet
  | gap :: length :: rest =>
    ⟨start + gap, start + gap + length - 1⟩ :: ofGaps (start + gap + length) rest
  | _ => []

def ofLines (lines : List String) : CodeSet :=
  ofGaps 0 (lines.flatMap fun line => numbers line.toList none)

end CodeSet

end EventAdmission
