import EventAdmission.Unicode.Alphanumeric
import EventAdmission.Unicode.Folding
import EventAdmission.Unicode.Property

/-!
# Sets of characters in patterns

A set is kept as it is written: from spans and Unicode traits by union,
intersection, complement and closure under case. Membership is decided for one
code point at a time.
-/

namespace EventAdmission

inductive CharSet where
  | span (low high : Nat)
  | trait (t : Unicode.Trait)
  | union (a b : CharSet)
  | inter (a b : CharSet)
  | complement (a : CharSet)
  /-- All characters that differ from one of `a` in case only. -/
  | anyCase (a : CharSet)

namespace CharSet

def contains : CharSet → Nat → Bool
  | span low high, code => low ≤ code && code ≤ high
  | trait t, code => t.holds code
  | union a b, code => a.contains code || b.contains code
  | inter a b, code => a.contains code && b.contains code
  | complement a, code => !a.contains code
  | anyCase a, code => (Unicode.caseVariants code).any a.contains

def mem (set : CharSet) (c : Char) : Bool := set.contains c.toNat

def char (c : Char) : CharSet := span c.toNat c.toNat

def nothing : CharSet := span 1 0

def everything : CharSet := span 0 0x10FFFF

def ofChars (cs : List Char) : CharSet := cs.foldr (fun c set => union (char c) set) nothing

def difference (a b : CharSet) : CharSet := inter a (complement b)

def symmetricDifference (a b : CharSet) : CharSet := union (difference a b) (difference b a)

def folded (insensitive : Bool) (set : CharSet) : CharSet :=
  if insensitive then anyCase set else set

def reversed (negated : Bool) (set : CharSet) : CharSet :=
  if negated then complement set else set

-- ---------------------------------------------------------------------------
-- Named sets

def asciiDigit : CharSet := span 0x30 0x39

def asciiLower : CharSet := span 0x61 0x7A

def asciiUpper : CharSet := span 0x41 0x5A

def asciiLetter : CharSet := union asciiLower asciiUpper

def asciiWord : CharSet := union (union asciiDigit asciiLetter) (char '_')

def asciiSpace : CharSet := union (span 0x09 0x0D) (char ' ')

def hexDigit : CharSet := union asciiDigit (union (span 0x41 0x46) (span 0x61 0x66))

def digit : CharSet := trait Unicode.digits

def space : CharSet := trait Unicode.whiteSpace

def word : CharSet := trait Unicode.wordCharacters

def posix? (name : List Char) : Option CharSet :=
  match String.ofList name with
  | "alnum" => some (union asciiDigit asciiLetter)
  | "alpha" => some asciiLetter
  | "ascii" => some (span 0x00 0x7F)
  | "blank" => some (ofChars ['\t', ' '])
  | "cntrl" => some (union (span 0x00 0x1F) (span 0x7F 0x7F))
  | "digit" => some asciiDigit
  | "graph" => some (span 0x21 0x7E)
  | "lower" => some asciiLower
  | "print" => some (span 0x20 0x7E)
  | "punct" =>
    some (union (union (span 0x21 0x2F) (span 0x3A 0x40)) (union (span 0x5B 0x60) (span 0x7B 0x7E)))
  | "space" => some asciiSpace
  | "upper" => some asciiUpper
  | "word" => some asciiWord
  | "xdigit" => some hexDigit
  | _ => none

-- ---------------------------------------------------------------------------
-- Size

def weight : CharSet → Nat
  | span low high => if high < 0x80 then 32 else if low < 0x80 then 320 else 80
  | trait t => 80 * t.rangeCount
  | union a b | inter a b => a.weight + b.weight
  | complement a => a.weight + 320
  | anyCase a => 2 * a.weight

end CharSet

end EventAdmission
