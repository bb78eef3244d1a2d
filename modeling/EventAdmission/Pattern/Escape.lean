import EventAdmission.Pattern.Blanks
import EventAdmission.Pattern.CharSet
import EventAdmission.Pattern.Regex

/-!
# Escapes

What a backslash may begin: a single character, a set or an anchor. References
to groups are not among them. Readers take the text behind the backslash and
give back the text behind the escape.
-/

namespace EventAdmission.Pattern

/-- How characters are told apart. -/
structure Mode where
  insensitive : Bool
  /-- Sets and boundaries know all of Unicode, not ASCII alone. -/
  unicode : Bool
  spaced : Bool
deriving DecidableEq

inductive Escape where
  /-- A character; `isByte` if it is written with exactly two digits. -/
  | literal (c : Char) (isByte : Bool)
  | set (set : CharSet)
  | anchor

def hexDigits (spaced : Bool) : Nat → List Char → Option (List Char × List Char)
  | 0, cs => some ([], cs)
  | count + 1, c :: rest =>
    if isHexDigit c then do
      let (digits, rest) ← hexDigits spaced count (skip spaced rest)
      return (c :: digits, rest)
    else none
  | _ + 1, [] => none

/-- The characters up to a closing brace, without blanks. -/
def braced (spaced : Bool) : Nat → List Char → Option (List Char × List Char)
  | 0, _ => none
  | fuel + 1, cs =>
    match skip spaced cs with
    | [] => none
    | '}' :: rest => some ([], rest)
    | c :: rest => do
      let (inside, rest) ← braced spaced fuel rest
      return (c :: inside, rest)

def hexEscape (spaced : Bool) (count : Nat) (cs : List Char) : Option (Escape × List Char) := do
  match skip spaced cs with
  | '{' :: rest =>
    let (digits, rest) ← braced spaced rest.length.succ rest
    guard !digits.isEmpty
    let c ← charOfCode? (← hexValue? 0 digits)
    return (.literal c false, skip spaced rest)
  | cs =>
    let (digits, rest) ← hexDigits spaced count cs
    let c ← charOfCode? (← hexValue? 0 digits)
    return (.literal c (count = 2), rest)

/-- The two sides of the first occurrence of `mark`. -/
def splitAt? (mark : List Char) : List Char → Option (List Char × List Char)
  | [] => none
  | c :: rest =>
    if mark.isPrefixOf (c :: rest) then some ([], (c :: rest).drop mark.length)
    else (splitAt? mark rest).map fun (before, after) => (c :: before, after)

def namedProperty? (name : List Char) : Option CharSet :=
  match splitAt? ['!', '='] name with
  | some (property, value) =>
    (Unicode.propertyValue? property value).map fun t => .complement (.trait t)
  | none =>
    match (splitAt? [':'] name).or (splitAt? ['='] name) with
    | some (property, value) => (Unicode.propertyValue? property value).map .trait
    | none => (Unicode.property? name).map .trait

def propertyEscape (mode : Mode) (negated : Bool) (cs : List Char) :
    Option (Escape × List Char) := do
  guard mode.unicode
  let close (set : CharSet) : Escape := .set ((set.folded mode.insensitive).reversed negated)
  match skip mode.spaced cs with
  | [] => none
  | '{' :: rest =>
    let (name, rest) ← braced mode.spaced rest.length.succ rest
    return (close (← namedProperty? name), rest)
  | c :: rest =>
    guard (c != '\\')
    return (close (.trait (← Unicode.property? [c])), skip mode.spaced rest)

def letterSet? (mode : Mode) (c : Char) : Option CharSet :=
  match c with
  | 'd' => some (if mode.unicode then .digit else .asciiDigit)
  | 's' => some (if mode.unicode then .space else .asciiSpace)
  | 'w' => some (if mode.unicode then .word else .asciiWord)
  | 'D' => some (.complement (if mode.unicode then .digit else .asciiDigit))
  | 'S' => some (.complement (if mode.unicode then .space else .asciiSpace))
  | 'W' => some (.complement (if mode.unicode then .word else .asciiWord))
  | _ => none

def control? (c : Char) : Option Char :=
  match c with
  | 'a' => some '\x07'
  | 'f' => some '\x0c'
  | 't' => some '\t'
  | 'n' => some '\n'
  | 'r' => some '\r'
  | 'v' => some '\x0b'
  | _ => none

/-- ASCII characters other than letters, digits and angle brackets stand for themselves. -/
def isEscapable (c : Char) : Bool :=
  c.toNat < 0x80 && !c.isAlphanum && c != '<' && c != '>'

def boundaryNames : List String := ["start", "end", "start-half", "end-half"]

def isBoundaryChar (c : Char) : Bool := c.isAlpha || c = '-'

def boundaryName (spaced : Bool) : Nat → List Char → List Char × List Char
  | fuel + 1, c :: rest =>
    if isBoundaryChar c then
      let (name, rest) := boundaryName spaced fuel (skip spaced rest)
      (c :: name, rest)
    else ([], c :: rest)
  | _, cs => ([], cs)

/-- The rest after `\b`: braces that begin with a letter must name a kind of boundary. -/
def afterBoundary (spaced : Bool) (cs : List Char) : Option (List Char) :=
  match cs with
  | '{' :: rest =>
    match skip spaced rest with
    | [] => none
    | c :: inside =>
      if isBoundaryChar c then
        match boundaryName spaced (c :: inside).length.succ (c :: inside) with
        | (name, '}' :: rest) =>
          if boundaryNames.contains (String.ofList name) then some rest else none
        | _ => none
      else some cs
  | _ => some cs

def readEscape (mode : Mode) : List Char → Option (Escape × List Char)
  | [] => none
  | 'x' :: rest => hexEscape mode.spaced 2 rest
  | 'u' :: rest => hexEscape mode.spaced 4 rest
  | 'U' :: rest => hexEscape mode.spaced 8 rest
  | 'p' :: rest => propertyEscape mode false rest
  | 'P' :: rest => propertyEscape mode true rest
  | 'b' :: rest => (afterBoundary mode.spaced rest).map (.anchor, ·)
  | c :: rest =>
    if ['A', 'z', 'B', '<', '>'].contains c then some (.anchor, rest)
    else if isEscapable c then some (.literal c false, rest)
    else
      match letterSet? mode c, control? c with
      | some set, _ => some (.set set, rest)
      | none, some control => some (.literal control false, rest)
      | none, none => none

end EventAdmission.Pattern
