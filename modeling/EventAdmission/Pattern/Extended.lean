import EventAdmission.Pattern.Bracket
import EventAdmission.Unicode.Alphanumeric

/-!
# Reading patterns of the extended dialect

Beyond the linear dialect there are look-around, atomic groups, references to
groups, and branches on whether a group has matched. The dialect is lenient: a
brace that begins no repetition stands for itself, and flags set in a group stay
set behind it.
-/

namespace EventAdmission.Pattern

abbrev Tree := Regex CharSet Anchor

namespace Extended

/-- The state of reading: the text ahead, the flags, and the groups opened so far. -/
structure Reading where
  rest : List Char
  insensitive : Bool
  multiline : Bool
  dotAll : Bool
  lazyFirst : Bool
  spaced : Bool
  /-- How many bytes the whole pattern has. -/
  size : Nat
  groups : Nat
  names : List (String × Nat)
  numbered : Bool

abbrev Reader (α : Type) := StateT Reading Option α

def refuse {α : Type} : Reader α := fun _ => none

def rest : Reader (List Char) := return (← get).rest

def setRest (cs : List Char) : Reader Unit := modify fun r => { r with rest := cs }

-- ---------------------------------------------------------------------------
-- What is passed over

/-- Where a reader stands that passes over blanks and comments. -/
inductive Place where
  | outside
  | inLine
  | inComment
  | afterBackslash

/-- Drops comments in brackets, and in the spaced form blanks and comments up to the end of a
line. A comment that does not end is an error. -/
def dropIgnored (spaced : Bool) : Place → List Char → Option (List Char)
  | .outside, [] | .inLine, [] => some []
  | .inComment, [] | .afterBackslash, [] => none
  | .outside, '(' :: '?' :: '#' :: cs => dropIgnored spaced .inComment cs
  | .outside, c :: cs =>
    if spaced && (c = ' ' || c = '\r' || c = '\n' || c = '\t') then dropIgnored spaced .outside cs
    else if spaced && c = '#' then dropIgnored spaced .inLine cs
    else some (c :: cs)
  | .inLine, c :: cs => dropIgnored spaced (if c = '\n' then .outside else .inLine) cs
  | .inComment, c :: cs =>
    dropIgnored spaced (if c = ')' then .outside else if c = '\\' then .afterBackslash
      else .inComment) cs
  | .afterBackslash, _ :: cs => dropIgnored spaced .inComment cs

def ahead : Reader (List Char) := do
  let r ← get
  match dropIgnored r.spaced .outside r.rest with
  | some cs => do
    setRest cs
    return cs
  | none => refuse

def close : Reader Unit := do
  match ← ahead with
  | ')' :: cs => setRest cs
  | _ => refuse

-- ---------------------------------------------------------------------------
-- Numbers and names

def decimal? (cs : List Char) : Option (Nat × List Char) :=
  let (digits, cs) := cs.span Char.isDigit
  let value := decimalValue digits
  if digits.isEmpty || 2 ^ 64 ≤ value then none else some (value, cs)

/-- The bounds of a loop, read behind the brace; the least is 0 if it is left out. -/
def bounds? (spaced : Bool) (cs : List Char) : Option ((Nat × Option Nat) × List Char) := do
  let cs ← dropIgnored spaced .outside cs
  let (least, cs) ← if cs.head? = some ',' then some (0, cs) else decimal? cs
  let cs ← dropIgnored spaced .outside cs
  let (most, cs) ← match cs with
    | '}' :: _ => some (some least, cs)
    | ',' :: cs => do
      let cs ← dropIgnored spaced .outside cs
      match decimal? cs with
      | some (most, cs) => some (some most, cs)
      | none => some (none, cs)
    | _ => none
  match ← dropIgnored spaced .outside cs with
  | '}' :: cs => return ((least, most), cs)
  | _ => none

def isNameChar (c : Char) : Bool := c = '_' || Unicode.isAlphanumeric c

def name? (final : Char) (cs : List Char) : Option (String × List Char) :=
  match cs.span isNameChar with
  | (c :: name, d :: cs) => if d = final then some (String.ofList (c :: name), cs) else none
  | _ => none

def known (index : Nat) : Reader Nat := do
  if index ≤ (← get).groups then return index else refuse

def numberedGroup : Reader Nat := do
  let r ← get
  match decimal? r.rest with
  | some (index, cs) =>
    if index < r.size / 2 then do
      set { r with rest := cs, numbered := true }
      known index
    else refuse
  | none => refuse

def groupNamed (name : String) : Reader Nat := do
  match (← get).names.lookup name with
  | some index => return index
  | none =>
    match decimal? name.toList with
    | some (index, []) => if index < 2 ^ 63 then known index else refuse
    | _ => refuse

/-- A group by its name up to `final`; after a minus sign it is counted back from here. -/
def namedGroup (relative : Bool) (final : Char) : Reader Nat := do
  match relative, ← rest with
  | true, '-' :: cs =>
    match name? final cs with
    | some (name, cs) =>
      match decimal? name.toList with
      | some (back, []) =>
        let opened := (← get).groups + 1
        setRest cs
        if back = 0 then return 0
        else if back ≤ opened then return opened - back
        else refuse
      | _ => refuse
    | none => refuse
  | _, cs =>
    match name? final cs with
    | some (name, cs) => do
      setRest cs
      groupNamed name
    | none => refuse

def openGroup (name : Option String) : Reader Nat := do
  let r ← get
  let index := r.groups + 1
  set { r with groups := index, names := (name.toList.map (·, index)) ++ r.names }
  return index

-- ---------------------------------------------------------------------------
-- Escapes and sets

inductive Token where
  | literal (c : Char)
  /-- A set, spelled as the linear dialect spells it. -/
  | spelled (text : List Char)
  | tree (tree : Tree)

def setOf (text : List Char) : Reader CharSet := do
  let mode : Mode := ⟨(← get).insensitive, true, false⟩
  match text with
  | '\\' :: cs =>
    match readEscape mode cs with
    | some (.set set, []) => return set
    | _ => refuse
  | '[' :: cs =>
    match readBracket mode cs with
    | some (set, []) => return set
    | _ => refuse
  | _ => refuse

def hexLiteral (count : Nat) : Reader Token := do
  let cs ← rest
  let (digits, cs) ←
    if (cs.take count).length = count && (cs.take count).all isHexDigit then
      pure (cs.take count, cs.drop count)
    else
      match cs with
      | '{' :: cs =>
        match cs.span isHexDigit with
        | (digits, '}' :: cs) =>
          if digits.isEmpty || 8 < digits.length then refuse else pure (digits, cs)
        | _ => refuse
      | _ => refuse
  setRest cs
  match (hexValue? 0 digits).bind charOfCode? with
  | some c => return .literal c
  | none => refuse

def propertyText (letter : Char) : Reader Token := do
  match ← rest with
  | '{' :: cs =>
    match cs.span (· != '}') with
    | (name, '}' :: cs) => do
      setRest cs
      return .spelled ('\\' :: letter :: '{' :: name ++ ['}'])
    | _ => refuse
  | c :: cs => do
    setRest cs
    return .spelled ['\\', letter, c]
  | [] => refuse

/-- Another name for a position that only a whole match can start from. -/
def matchStart : Tree := .atomic (.here .textStart)

def position? (c : Char) : Option Tree :=
  match c with
  | 'A' => some (.here .textStart)
  | 'z' => some (.here .textEnd)
  | 'b' => some (.here .wordBoundary)
  | 'B' => some (.here .notWordBoundary)
  | 'K' => some (.atomic .empty)
  | 'G' => some matchStart
  | _ => none

def control? (c : Char) : Option Char :=
  if c = 'e' then some '\x1b' else Pattern.control? c

def token (inBracket : Bool) : Reader Token := do
  match ← rest with
  | [] => refuse
  | c :: cs => do
    if c.isDigit then
      return .tree (.sameAs (← numberedGroup))
    setRest cs
    if c = 'k' && !inBracket then
      match cs with
      | '\'' :: cs => do
        setRest cs
        return .tree (.sameAs (← namedGroup true '\''))
      | '<' :: cs => do
        setRest cs
        return .tree (.sameAs (← namedGroup true '>'))
      | _ => refuse
    else if c = 'b' && !inBracket && cs.head? = some '{' then refuse
    else if c = 'b' && inBracket then return .literal '\x08'
    else if "dswDSW".toList.contains c then return .spelled ['\\', c]
    else if c = 'h' then return .spelled "[0-9A-Fa-f]".toList
    else if c = 'H' then return .spelled "[^0-9A-Fa-f]".toList
    else if c = 'x' then hexLiteral 2
    else if c = 'u' then hexLiteral 4
    else if c = 'U' then hexLiteral 8
    else if c = 'p' || c = 'P' then propertyText c
    else
      match position? c, control? c with
      | some tree, _ => if inBracket then refuse else return .tree tree
      | none, some control => return .literal control
      | none, none => if c.isAlpha || 0x80 ≤ c.toNat then refuse else return .literal c

def spelling (c : Char) : List Char :=
  if "\\.+*?()|[]\x7b\x7d^$#&-~".toList.contains c then ['\\', c] else [c]

/-- The rest of a bracket, spelled as the linear dialect spells it; `depth` brackets are open. -/
def bracketText : Nat → Nat → Reader (List Char)
  | 0, _ => refuse
  | fuel + 1, depth => do
    match ← ahead with
    | [] => refuse
    | '\\' :: cs => do
      setRest cs
      match ← token true with
      | .literal c => return spelling c ++ (← bracketText fuel depth)
      | .spelled text => return text ++ (← bracketText fuel depth)
      | .tree _ => refuse
    | '[' :: cs => do
      setRest cs
      return '[' :: (← bracketText fuel (depth + 1))
    | ']' :: cs => do
      setRest cs
      if depth = 1 then return [']'] else return ']' :: (← bracketText fuel (depth - 1))
    | c :: cs => do
      setRest cs
      return c :: (← bracketText fuel depth)

def bracket : Reader Tree := do
  let cs ← rest
  let (opening, cs) := match cs with
    | '^' :: ']' :: cs => (['[', '^', ']'], cs)
    | '^' :: cs => (['[', '^'], cs)
    | ']' :: cs => (['[', ']'], cs)
    | cs => (['['], cs)
  setRest cs
  return .one (← setOf (opening ++ (← bracketText cs.length.succ 1)))

-- ---------------------------------------------------------------------------
-- Trees

def sequence (parts : List Tree) : Tree :=
  match parts.filter fun | .empty => false | _ => true with
  | [] => .empty
  | first :: more => join first more
where
  join (first : Tree) : List Tree → Tree
    | [] => first
    | second :: more => .seq first (join second more)

def alternatives (first : Tree) : List Tree → Tree
  | [] => first
  | second :: more => .alt first (alternatives second more)

def isRepeatable : Tree → Bool
  | .empty | .here _ | .look .. => false
  | _ => true

def literal (c : Char) : Reader Tree :=
  return .one ((CharSet.char c).folded (← get).insensitive)

def readFlags (start : Nat) : Nat → Bool → Reader Bool
  | 0, _ => refuse
  | fuel + 1, negated => do
    let cs ← ahead
    let passed := start - cs.length
    match cs with
    | [] => refuse
    | c :: cs => do
      setRest cs
      if c = 'i' then do
        modify fun r => { r with insensitive := !negated }
        readFlags start fuel negated
      else if c = 'm' then do
        modify fun r => { r with multiline := !negated }
        readFlags start fuel negated
      else if c = 's' then do
        modify fun r => { r with dotAll := !negated }
        readFlags start fuel negated
      else if c = 'U' then do
        modify fun r => { r with lazyFirst := !negated }
        readFlags start fuel negated
      else if c = 'x' then do
        modify fun r => { r with spaced := !negated }
        readFlags start fuel negated
      else if c = 'u' then if negated then refuse else readFlags start fuel negated
      else if c = '-' then if negated then refuse else readFlags start fuel true
      else if c = ')' then
        if passed = 0 || negated && passed = 1 then refuse else return false
      else if c = ':' then
        if negated && passed = 1 then refuse else return true
      else refuse

/-- Flags for the rest of the pattern, or for the inside of this group alone. -/
def flagged (inner : Reader Tree) : Reader Tree := do
  let before ← get
  let start := before.rest.length
  if ← readFlags start start.succ false then
    let tree ← inner
    close
    modify fun r => { r with
      insensitive := before.insensitive
      multiline := before.multiline
      dotAll := before.dotAll
      lazyFirst := before.lazyFirst
      spaced := before.spaced }
    return tree
  else return .empty

def condition (inner : Reader Tree) : Reader Tree := do
  match ← rest with
  | [] => refuse
  | c :: cs =>
    if c.isDigit then return .sameAs (← numberedGroup)
    else if c = '\'' then do
      setRest cs
      return .sameAs (← namedGroup true '\'')
    else if c = '<' then do
      setRest cs
      return .sameAs (← namedGroup true '>')
    else inner

/-- A choice by a condition. A reference as the condition asks whether its group has matched. -/
def conditional (inner : Reader Tree) : Reader Tree := do
  let condition ← condition inner
  close
  let before := (← rest).length
  let tree ← inner
  let isSilent := (← rest).length = before
  close
  let asked : Tree := match condition with
    | .sameAs index => .matched index
    | condition => condition
  if isSilent then
    match asked with
    | .matched _ => return asked
    | _ => refuse
  else
    let (yes, no) : Tree × Tree := match tree with
      | .alt yes no => (yes, no)
      | yes => (yes, .empty)
    match yes, no with
    | .empty, .empty => return asked
    | _, _ => return .choose asked yes no

def inside (inner : Reader Tree) (cs : List Char) (wrap : Tree → Tree) : Reader Tree := do
  setRest cs
  let tree ← inner
  close
  return wrap tree

def group (inner : Reader Tree) : Reader Tree := do
  match ← ahead with
  | '?' :: '=' :: cs => inside inner cs (.look ⟨false, false⟩)
  | '?' :: '!' :: cs => inside inner cs (.look ⟨false, true⟩)
  | '?' :: '<' :: '=' :: cs => inside inner cs (.look ⟨true, false⟩)
  | '?' :: '<' :: '!' :: cs => inside inner cs (.look ⟨true, true⟩)
  | '?' :: '<' :: cs | '?' :: 'P' :: '<' :: cs =>
    match name? '>' cs with
    | some (name, cs) => do
      let index ← openGroup (some name)
      inside inner cs (.group index)
    | none => refuse
  | '?' :: 'P' :: '=' :: cs => do
    setRest cs
    return .sameAs (← namedGroup false ')')
  | '?' :: '>' :: cs => inside inner cs .atomic
  | '?' :: '(' :: cs => do
    setRest cs
    conditional inner
  | '?' :: cs => do
    setRest cs
    flagged inner
  | cs => do
    let index ← openGroup none
    inside inner cs (.group index)

def atom (inner : Reader Tree) : Reader Tree := do
  let cs ← ahead
  let r ← get
  match cs with
  | [] => return .empty
  | c :: cs =>
    if c = '+' || c = '*' || c = '?' || c = '|' || c = ')' then return .empty
    setRest cs
    match c with
    | '.' => return .one (if r.dotAll then .everything else .complement (.char '\n'))
    | '^' => return .here (if r.multiline then .lineStart else .textStart)
    | '$' => return .here (if r.multiline then .lineEnd else .textEnd)
    | '(' => group inner
    | '[' => bracket
    | '\\' =>
      match ← token false with
      | .literal c => literal c
      | .spelled text => return .one (← setOf text)
      | .tree tree => return tree
    | c => literal c

def loopBounds : Reader (Option (Nat × Option Nat)) := do
  match ← ahead with
  | '?' :: cs => setRest cs *> return some (0, some 1)
  | '*' :: cs => setRest cs *> return some (0, none)
  | '+' :: cs => setRest cs *> return some (1, none)
  | '{' :: cs =>
    match bounds? (← get).spaced cs with
    | some (bounds, cs) => setRest cs *> return some bounds
    | none => return none
  | _ => return none

/-- A part with its repetition: lazy after `?`, and kept once matched after `+`. -/
def piece (inner : Reader Tree) : Reader Tree := do
  let tree ← atom inner
  match ← loopBounds with
  | none => return tree
  | some (least, most) => do
    if !isRepeatable tree then refuse
    let cs ← ahead
    let (lazy, cs) := match cs with
      | '?' :: cs => (true, cs)
      | cs => (false, cs)
    setRest cs
    let tree : Tree := .loop tree least most (lazy == (← get).lazyFirst)
    match cs with
    | '+' :: cs => do
      setRest cs
      return .atomic tree
    | _ => return tree

def pieces (inner : Reader Tree) : Nat → Reader (List Tree)
  | 0 => return []
  | fuel + 1 => do
    let before := (← rest).length
    if before = 0 then return []
    let tree ← piece inner
    if (← rest).length = before then return []
    return tree :: (← pieces inner fuel)

def branch (inner : Reader Tree) : Reader Tree :=
  return sequence (← pieces inner (← rest).length.succ)

def branches (inner : Reader Tree) : Nat → Reader (List Tree)
  | 0 => return []
  | fuel + 1 => do
    match ← ahead with
    | '|' :: cs => do
      setRest cs
      let tree ← branch inner
      return tree :: (← branches inner fuel)
    | _ => return []

def tree : Nat → Reader Tree
  | 0 => refuse
  | levels + 1 => do
    let first ← branch (tree levels)
    let more ← branches (tree levels) (← rest).length.succ
    let r ← get
    if more.isEmpty && r.numbered && !r.names.isEmpty then refuse
    return alternatives first more

def levelLimit : Nat := 64

def read? (source : String) : Option Tree := do
  let start : Reading :=
    { rest := source.toList, insensitive := false, multiline := false, dotAll := false,
      lazyFirst := false, spaced := false, size := source.utf8ByteSize, groups := 0, names := [],
      numbered := false }
  let (tree, after) ← (tree levelLimit).run start
  if after.rest.isEmpty then some tree else none

end Extended

end EventAdmission.Pattern
