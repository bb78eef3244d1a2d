import EventAdmission.Json.Scalar

/-!
# Reading JSON text

A text is read in one pass. The reader of a whole value builds canonical
objects: members sorted, of a repeated key the last value. `Cursor.pastValue`
skips a value that nobody asks for; it knows no nesting limit.
-/

namespace EventAdmission

namespace Cursor

def nestingLimit : Nat := 127

-- ---------------------------------------------------------------------------
-- Steps between the items of a list and the members of an object
-- ---------------------------------------------------------------------------

/-- The start of the next item, or `none` before the closing bracket. -/
def nextItem? (first : Bool) (s : Cursor) : Except ReadError (Option Cursor) :=
  let s := s.skipBlanks
  match s.peek? with
  | none => s.failAhead .endInList
  | some ']' => .ok none
  | some c =>
    if first then .ok (some s)
    else if c = ',' then
      let s := s.skip.skipBlanks
      match s.peek? with
      | none => s.failAhead .endInValue
      | some ']' => s.failAhead .trailingComma
      | some _ => .ok (some s)
    else s.failAhead .expectedCommaOrBracket

def keyStart (s : Cursor) : Except ReadError (Option Cursor) :=
  match s.peek? with
  | none => s.failAhead .endInValue
  | some '"' => .ok (some s)
  | some _ => s.failAhead .keyNotString

def nextKey? (first : Bool) (s : Cursor) : Except ReadError (Option Cursor) :=
  let s := s.skipBlanks
  match s.peek? with
  | none => s.failAhead .endInObject
  | some '\x7d' => .ok none
  | some c =>
    if first then s.keyStart
    else if c = ',' then
      let s := s.skip.skipBlanks
      if s.peek? = some '\x7d' then s.failAhead .trailingComma else s.keyStart
    else s.failAhead .expectedCommaOrBrace

def colon (s : Cursor) : Except ReadError Cursor :=
  let s := s.skipBlanks
  match s.peek? with
  | none => s.failAhead .endInObject
  | some ':' => .ok s.skip
  | some _ => s.failAhead .expectedColon

-- ---------------------------------------------------------------------------
-- Whole values
-- ---------------------------------------------------------------------------

mutual

/-- The value that starts behind blanks; `room` brackets may still be opened in it. -/
def value : (fuel room : Nat) → Cursor → Except ReadError (Json × Cursor)
  | 0, _, s => s.failHere .endInValue
  | fuel + 1, room, s =>
    let s := s.skipBlanks
    match s.peek? with
    | none => s.failAhead .endInValue
    | some 'n' => (fun s => (.null, s)) <$> s.skip.word ['u', 'l', 'l']
    | some 't' => (fun s => (.bool true, s)) <$> s.skip.word ['r', 'u', 'e']
    | some 'f' => (fun s => (.bool false, s)) <$> s.skip.word ['a', 'l', 's', 'e']
    | some '"' => do
      let (text, s) ← s.skip.string
      pure (.str text, s)
    | some '[' =>
      match room with
      | 0 => s.failAhead .tooDeep
      | room + 1 => do
        let (items, s) ← valueItems fuel room true s.skip
        pure (.arr items, s)
    | some '\x7b' =>
      match room with
      | 0 => s.failAhead .tooDeep
      | room + 1 => do
        let (members, s) ← valueMembers fuel room true [] s.skip
        pure (.obj members, s)
    | some c =>
      if c = '-' || isDigit c then do
        let (n, s) ← s.number
        pure (.num n, s)
      else s.failAhead .expectedValue

def valueItems : (fuel room : Nat) → (first : Bool) → Cursor → Except ReadError (List Json × Cursor)
  | 0, _, _, s => s.failHere .endInList
  | fuel + 1, room, first, s => do
    match ← s.nextItem? first with
    | none => pure ([], s.skipBlanks.skip)
    | some s =>
      let (x, s) ← value fuel room s
      let (xs, s) ← valueItems fuel room false s
      pure (x :: xs, s)

def valueMembers : (fuel room : Nat) → (first : Bool) → Members → Cursor →
    Except ReadError (Members × Cursor)
  | 0, _, _, _, s => s.failHere .endInObject
  | fuel + 1, room, first, members, s => do
    match ← s.nextKey? first with
    | none => pure (members, s.skipBlanks.skip)
    | some s =>
      let (key, s) ← s.skip.string
      let s ← s.colon
      let (x, s) ← value fuel room s
      valueMembers fuel room false (Keyed.insert members key x) s

end

-- ---------------------------------------------------------------------------
-- Skipped values
-- ---------------------------------------------------------------------------

mutual

def passValue : (fuel : Nat) → Cursor → Except ReadError Cursor
  | 0, s => s.failHere .endInValue
  | fuel + 1, s =>
    let s := s.skipBlanks
    match s.peek? with
    | none => s.failAhead .endInValue
    | some 'n' => s.skip.word ['u', 'l', 'l']
    | some 't' => s.skip.word ['r', 'u', 'e']
    | some 'f' => s.skip.word ['a', 'l', 's', 'e']
    | some '"' => s.skip.skipString
    | some '[' => passItems fuel true s.skip
    | some '\x7b' => passMembers fuel true s.skip
    | some c => if c = '-' || isDigit c then s.skipNumber else s.failAhead .expectedValue

def passItems : (fuel : Nat) → (first : Bool) → Cursor → Except ReadError Cursor
  | 0, _, s => s.failHere .endInList
  | fuel + 1, first, s =>
    let s := s.skipBlanks
    match s.peek? with
    | none => s.failAhead .endInList
    | some ']' => .ok s.skip
    | some c =>
      if first then do passItems fuel false (← passValue fuel s)
      else if c = ',' then do passItems fuel false (← passValue fuel s.skip)
      else s.failAhead .expectedCommaOrBracket

def passMembers : (fuel : Nat) → (first : Bool) → Cursor → Except ReadError Cursor
  | 0, _, s => s.failHere .endInObject
  | fuel + 1, first, s =>
    let s := s.skipBlanks
    match s.peek? with
    | none => s.failAhead .endInObject
    | some '\x7d' => .ok s.skip
    | some c =>
      if first then passMember fuel s
      else if c = ',' then passMember fuel s.skip.skipBlanks
      else s.failAhead .expectedCommaOrBrace

def passMember : (fuel : Nat) → Cursor → Except ReadError Cursor
  | 0, s => s.failHere .endInObject
  | fuel + 1, s =>
    match s.peek? with
    | none => s.failAhead .endInObject
    | some '"' => do
      let s ← s.skip.skipString
      let s ← s.colon
      passMembers fuel false (← passValue fuel s)
    | some _ => s.failAhead .keyNotString

end

/-- Enough steps for every reader of a text. -/
def fuel (s : Cursor) : Nat := 2 * s.rest.length + 2

def pastValue (s : Cursor) : Except ReadError Cursor := passValue s.fuel s

def atEnd (s : Cursor) : Except ReadError Unit :=
  let s := s.skipBlanks
  match s.rest with
  | [] => .ok ()
  | _ :: _ => s.failAhead .trailingCharacters

def whole {α : Type} (read : Cursor → Except ReadError (α × Cursor)) (text : String) :
    Except ReadError α := do
  let (x, s) ← read (ofText text)
  s.atEnd
  pure x

end Cursor

namespace Json

def readWithin (room : Nat) (s : Cursor) : Except ReadError (Json × Cursor) := s.value s.fuel room

def read (text : String) : Except ReadError Json :=
  Cursor.whole (readWithin Cursor.nestingLimit) text

end Json

end EventAdmission
