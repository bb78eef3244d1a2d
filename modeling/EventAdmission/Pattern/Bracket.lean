import EventAdmission.Pattern.Escape

/-!
# Sets in brackets

A bracket lists characters, spans, escapes, named sets and further brackets.
`&&`, `--` and `~~` combine all that stands before them with what follows, from
left to right.
-/

namespace EventAdmission.Pattern

inductive SetOperator where
  | intersection
  | difference
  | symmetricDifference

def SetOperator.apply : SetOperator → CharSet → CharSet → CharSet
  | intersection => .inter
  | difference => .difference
  | symmetricDifference => .symmetricDifference

/-- The sets that the bytes of a text cannot tell must not reach beyond ASCII. -/
def checked (mode : Mode) (set : CharSet) : Option CharSet :=
  if mode.unicode || !set.contains 0x80 then some set else none

/-- The left side of an operator that still waits for its right side. -/
abbrev Pending := Option (SetOperator × CharSet)

def Pending.close (mode : Mode) (pending : Pending) (right : CharSet) : CharSet :=
  match pending with
  | none => right
  | some (operator, left) =>
    operator.apply (left.folded mode.insensitive) (right.folded mode.insensitive)

def posixSet? (mode : Mode) (cs : List Char) : Option (CharSet × List Char) := do
  let .some (cs, negated) := (match cs with
    | ':' :: '^' :: rest => some (rest, true)
    | ':' :: rest => some (rest, false)
    | _ => none) | none
  match cs.span (· != ':') with
  | (name, ':' :: ']' :: rest) =>
    let set ← CharSet.posix? name
    return ((set.folded mode.insensitive).reversed negated, rest)
  | _ => none

def readMember (mode : Mode) : List Char → Option (Escape × List Char)
  | [] => none
  | '\\' :: rest => readEscape mode rest
  | c :: rest => some (.literal c false, rest)

def literal? (mode : Mode) : Escape → Option Char
  | .literal c _ => if mode.unicode || c.toNat < 0x80 then some c else none
  | _ => none

def memberSet? (mode : Mode) : Escape → Option CharSet
  | .set set => checked mode set
  | member => (literal? mode member).map .char

def readRange (mode : Mode) (cs : List Char) : Option (CharSet × List Char) := do
  let (first, rest) ← readMember mode cs
  let rest := skip mode.spaced rest
  let alone : Option (CharSet × List Char) := (memberSet? mode first).map (·, rest)
  match rest with
  | [] => none
  | '-' :: tail =>
    match skip mode.spaced tail with
    | [] => none
    | ']' :: _ | '-' :: _ => alone
    | tail =>
      let (last, rest) ← readMember mode tail
      let low ← literal? mode first
      let high ← literal? mode last
      guard (low ≤ high)
      return (.span low.toNat high.toNat, rest)
  | _ => alone

def leadingDashes (spaced : Bool) : Nat → List Char → List Char × List Char
  | fuel + 1, '-' :: rest =>
    let (dashes, rest) := leadingDashes spaced fuel (skip spaced rest)
    ('-' :: dashes, rest)
  | _, cs => ([], cs)

/-- The beginning of a bracket: its negation, and the dashes or the bracket that stand for
themselves there. -/
def readOpening (spaced : Bool) (cs : List Char) : Bool × CharSet × List Char :=
  let cs := skip spaced cs
  let (negated, cs) := match cs with
    | '^' :: rest => (true, skip spaced rest)
    | _ => (false, cs)
  match leadingDashes spaced cs.length cs with
  | ([], ']' :: rest) => (negated, .char ']', skip spaced rest)
  | (dashes, rest) => (negated, .ofChars dashes, rest)

/-- Reads on inside a bracket. `set` holds what the present operand has listed so far. -/
def readInside (mode : Mode) : Nat → Bool → Pending → CharSet → List Char →
    Option (CharSet × List Char)
  | 0, _, _, _, _ => none
  | fuel + 1, negated, pending, set, cs =>
    let operate (operator : SetOperator) (rest : List Char) : Option (CharSet × List Char) :=
      readInside mode fuel negated (some (operator, Pending.close mode pending set)) .nothing rest
    match skip mode.spaced cs with
    | [] => none
    | ']' :: rest => do
      let all := (Pending.close mode pending set).folded mode.insensitive
      let all ← checked mode (all.reversed negated)
      return (all, rest)
    | '&' :: '&' :: rest => operate .intersection rest
    | '-' :: '-' :: rest => operate .difference rest
    | '~' :: '~' :: rest => operate .symmetricDifference rest
    | '[' :: rest => do
      let (inner, rest) ←
        match posixSet? mode rest with
        | some (inner, rest) => (checked mode inner).map (·, rest)
        | none =>
          let (innerNegated, first, rest) := readOpening mode.spaced rest
          readInside mode fuel innerNegated none first rest
      readInside mode fuel negated pending (.union set inner) rest
    | cs => do
      let (item, rest) ← readRange mode cs
      readInside mode fuel negated pending (.union set item) rest

def readBracket (mode : Mode) (cs : List Char) : Option (CharSet × List Char) :=
  let (negated, first, rest) := readOpening mode.spaced cs
  readInside mode cs.length.succ negated none first rest

end EventAdmission.Pattern
