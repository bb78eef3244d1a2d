import EventAdmission.Pattern.Bracket
import EventAdmission.Unicode.Alphanumeric

/-!
# Patterns that run in linear time

The dialect without look-around, references to groups and atomic groups. It is
strict: what it cannot read is no pattern, and a pattern may neither nest too
deeply nor need too large an automaton.
-/

namespace EventAdmission.Pattern

/-- What the limits ask of a part of a pattern. -/
structure Outline where
  nesting : Nat
  weight : Nat
deriving DecidableEq

def nestingLimit : Nat := 250

def weightLimit : Nat := 10 * 2 ^ 20

/-- What one character costs: a state for each of its bytes. -/
def charWeight (c : Char) : Nat := 32 * c.utf8Size

def dotWeight : Nat := 320

/-- A part of a sequence. Flags stand among the parts, but nothing can be repeated there. -/
inductive Piece where
  | flags
  | part (outline : Outline)

def Piece.outline : Piece → Outline
  | flags => ⟨0, 32⟩
  | part outline => outline

def Outline.join : List Outline → Outline
  | [] => ⟨0, 32⟩
  | [one] => one
  | many => ⟨1 + (many.map nesting).foldl max 0, (many.map weight).foldl (· + ·) 32⟩

structure Flags where
  seen : List Char
  /-- The place of the dash among the flags. -/
  negation : Option Nat

/-- Flags up to the colon or bracket that ends them. -/
def readFlags : Flags → List Char → Option (Flags × List Char)
  | _, [] => none
  | flags, c :: rest =>
    if c = ':' || c = ')' then
      if flags.negation = some flags.seen.length then none else some (flags, c :: rest)
    else if c = '-' then
      if flags.negation.isSome then none
      else readFlags { flags with negation := some flags.seen.length } rest
    else if "imsURux".toList.contains c && !flags.seen.contains c then
      readFlags { flags with seen := flags.seen ++ [c] } rest
    else none

def Flags.apply (flags : Flags) (flag : Char) (setting : Bool) : Bool :=
  if (flags.seen.drop (flags.negation.getD flags.seen.length)).contains flag then false
  else if flags.seen.contains flag then true
  else setting

def Flags.mode (flags : Flags) (mode : Mode) : Mode where
  insensitive := flags.apply 'i' mode.insensitive
  unicode := flags.apply 'u' mode.unicode
  spaced := flags.apply 'x' mode.spaced

def isNameStart (c : Char) : Bool := c = '_' || Unicode.isAlphabetic c

def isNamePart (c : Char) : Bool :=
  c = '_' || c = '.' || c = '[' || c = ']' || Unicode.isAlphanumeric c

def readGroupName (cs : List Char) : Option (String × List Char) :=
  match cs.span (· != '>') with
  | (first :: more, '>' :: rest) =>
    if isNameStart first && more.all isNamePart then some (String.ofList (first :: more), rest)
    else none
  | _ => none

inductive Opening where
  | flags (mode : Mode)
  | group (mode : Mode) (name : Option String)

def readOpeningOf (mode : Mode) (cs : List Char) : Option (Opening × List Char) :=
  match skip mode.spaced cs with
  | '?' :: '=' :: _ | '?' :: '!' :: _ | '?' :: '<' :: '=' :: _ | '?' :: '<' :: '!' :: _ => none
  | '?' :: 'P' :: '<' :: rest | '?' :: '<' :: rest =>
    (readGroupName rest).map fun (name, rest) => (.group mode (some name), rest)
  | '?' :: rest => do
    let (flags, rest) ← readFlags ⟨[], none⟩ rest
    match rest with
    | ')' :: rest =>
      if flags.seen.isEmpty then none else some (.flags (flags.mode mode), rest)
    | _ :: rest => some (.group (flags.mode mode) none, rest)
    | [] => none
  | cs => some (.group mode none, cs)

/-- Decimal digits, with white space around them and blanks between them. -/
def readCount (spaced : Bool) (cs : List Char) : Option Nat × List Char :=
  let (digits, rest) := digitsOf (cs.dropWhile Text.isWhiteSpace)
  let value := decimalValue digits
  (if digits.isEmpty || 2 ^ 32 ≤ value then none else some value, afterCount rest)
where
  digitsOf : List Char → List Char × List Char
    | [] => ([], [])
    | c :: rest =>
      if c.isDigit then
        let (digits, rest) := digitsOf rest
        (c :: digits, rest)
      else if spaced && Text.isWhiteSpace c then digitsOf rest
      else ([], c :: rest)
  afterCount (cs : List Char) : List Char := skip spaced (cs.dropWhile Text.isWhiteSpace)

def readBounds (spaced : Bool) (cs : List Char) : Option ((Nat × Option Nat) × List Char) := do
  let (least, rest) := readCount spaced (skip spaced cs)
  let least ← least
  let (most, rest) ← match rest with
    | ',' :: rest =>
      match skip spaced rest with
      | '}' :: _ => some (none, skip spaced rest)
      | rest =>
        let (most, rest) := readCount spaced rest
        most.map fun n => (some n, rest)
    | rest => some (some least, rest)
  match rest with
  | '}' :: rest => if most.all (least ≤ ·) then some ((least, most), rest) else none
  | _ => none

def dropLazy : List Char → List Char
  | '?' :: rest => rest
  | cs => cs

def Outline.repeated (rounds : Nat) (body : Outline) : Outline :=
  ⟨1 + body.nesting, 32 + rounds * body.weight⟩

/-- The outline of a sequence with its last part repeated; `done` holds the last part first. -/
def repeatLast (rounds : Nat) : List Piece → Option (List Piece)
  | .part outline :: done => some (.part (outline.repeated rounds) :: done)
  | _ => none

/-- A character outside brackets. Bytes beyond ASCII cannot stand for themselves. -/
def readSingle (mode : Mode) : List Char → Option (Outline × List Char)
  | [] => none
  | '\\' :: rest => do
    match ← readEscape mode rest with
    | (.literal c isByte, rest) => (literalOutline c isByte).map (·, rest)
    | (.set set, rest) => (checked mode set).map fun set => (⟨0, set.weight⟩, rest)
    | (.anchor, rest) => some (⟨0, 32⟩, rest)
  | c :: rest =>
    if c = '.' then if mode.unicode then some (⟨0, dotWeight⟩, rest) else none
    else if c = '^' || c = '$' then some (⟨0, 32⟩, rest)
    else (literalOutline c false).map (·, rest)
where
  literalOutline (c : Char) (isByte : Bool) : Option Outline :=
    if mode.unicode || c.toNat < 0x80 || !(isByte || mode.insensitive) then
      some ⟨0, charWeight c⟩
    else none

/-- Reads the inside of a group up to its closing bracket or the end of the text. `branches` holds
the branches before this one and `done` the parts of this one, the last part first. -/
def readBranches : Nat → Mode → List String → List Outline → List Piece → List Char →
    Option (Outline × List String × List Char)
  | 0, _, _, _, _, _ => none
  | fuel + 1, mode, names, branches, done, cs =>
    let branch : Outline := Outline.join (done.reverse.map Piece.outline)
    let repeated (rounds : Nat) (rest : List Char) := do
      readBranches fuel mode names branches (← repeatLast rounds done) (dropLazy rest)
    match skip mode.spaced cs with
    | [] => some (Outline.join (branches ++ [branch]), names, [])
    | ')' :: rest => some (Outline.join (branches ++ [branch]), names, ')' :: rest)
    | '|' :: rest => readBranches fuel mode names (branches ++ [branch]) [] rest
    | '(' :: rest => do
      match ← readOpeningOf mode rest with
      | (.flags mode, rest) => readBranches fuel mode names branches (.flags :: done) rest
      | (.group inner name, rest) =>
        guard (name.all (!names.contains ·))
        let (outline, names, rest) ← readBranches fuel inner (name.toList ++ names) [] [] rest
        match rest with
        | ')' :: rest =>
          let outline := ⟨1 + outline.nesting, 64 + outline.weight⟩
          readBranches fuel mode names branches (.part outline :: done) rest
        | _ => none
    | '[' :: rest => do
      let (set, rest) ← readBracket mode rest
      readBranches fuel mode names branches (.part ⟨1, set.weight⟩ :: done) rest
    | '?' :: rest => repeated 1 rest
    | '*' :: rest => repeated 1 rest
    | '+' :: rest => repeated 1 rest
    | '{' :: rest => do
      let ((least, most), rest) ← readBounds mode.spaced rest
      repeated (most.getD (least + 1)) (skip mode.spaced rest)
    | cs => do
      let (outline, rest) ← readSingle mode cs
      readBranches fuel mode names branches (.part outline :: done) rest

def isLinear (source : String) : Bool :=
  let cs := source.toList
  match readBranches cs.length.succ ⟨false, true, false⟩ [] [] [] cs with
  | some (outline, _, []) => outline.nesting ≤ nestingLimit && outline.weight ≤ weightLimit
  | _ => false

end EventAdmission.Pattern
