import EventAdmission.Json.Reader

/-!
# Reading typed values from JSON text

Readers for strings, lists of strings, choices and records. They build no JSON
value in between, so the first fault in the order of the text is the one that
is reported. A record may be written as an object or as the list of its fields.
-/

namespace EventAdmission.Cursor

/-- The fault of a value of another type, which is read as far as it is a scalar. -/
def unexpected {α : Type} (expected : String) (s : Cursor) : Except ReadError α :=
  let refuse (found : Json) (s : Cursor) : Except ReadError α :=
    s.failHere (.shape (.wrongType found.found expected))
  match s.peek? with
  | some 'n' => do refuse .null (← s.skip.word ['u', 'l', 'l'])
  | some 't' => do refuse (.bool true) (← s.skip.word ['r', 'u', 'e'])
  | some 'f' => do refuse (.bool false) (← s.skip.word ['a', 'l', 's', 'e'])
  | some '"' => do
    let (text, s) ← s.skip.string
    refuse (.str text) s
  | some '[' => refuse (.arr []) s
  | some '\x7b' => refuse (.obj []) s
  | some c =>
    if c = '-' || isDigit c then do
      let (n, s) ← s.number
      refuse (.num n) s
    else s.failAhead .expectedValue
  | none => s.failAhead .endInValue

def text (expected : String) (s : Cursor) : Except ReadError (String × Cursor) :=
  let s := s.skipBlanks
  match s.peek? with
  | some '"' => s.skip.string
  | _ => s.unexpected expected

def unit (s : Cursor) : Except ReadError Cursor :=
  let s := s.skipBlanks
  match s.peek? with
  | some 'n' => s.skip.word ['u', 'l', 'l']
  | _ => s.unexpected "unit"

def closeList (s : Cursor) : Except ReadError Cursor :=
  let s := s.skipBlanks
  match s.peek? with
  | none => s.failAhead .endInList
  | some ']' => .ok s.skip
  | some ',' =>
    let s := s.skip.skipBlanks
    if s.peek? = some ']' then s.failAhead .trailingComma else s.failAhead .trailingCharacters
  | some _ => s.failAhead .trailingCharacters

def textItems : (fuel : Nat) → (first : Bool) → Cursor → Except ReadError (List String × Cursor)
  | 0, _, s => s.failHere .endInList
  | fuel + 1, first, s => do
    match ← s.nextItem? first with
    | none => pure ([], s.skipBlanks.skip)
    | some s =>
      let (x, s) ← s.text "a string"
      let (xs, s) ← textItems fuel false s
      pure (x :: xs, s)

def texts (room : Nat) (s : Cursor) : Except ReadError (List String × Cursor) :=
  let s := s.skipBlanks
  match s.peek? with
  | some '[' => if room = 0 then s.failAhead .tooDeep else textItems s.fuel true s.skip
  | _ => s.unexpected "a sequence"

def variant {α : Type} (known : List (String × α)) (name : String) (s : Cursor) :
    Except ReadError (α × Cursor) :=
  match known.find? (·.1 == name) with
  | some (_, x) => .ok (x, s)
  | none => s.failHere (.shape (.unknownVariant name (known.map (·.1))))

/-- One of several names: a string, or an object with the name as its only key and `null` under
it. -/
def choice {α : Type} (known : List (String × α)) (room : Nat) (s : Cursor) :
    Except ReadError (α × Cursor) :=
  let s := s.skipBlanks
  match s.peek? with
  | none => s.failAhead .endInValue
  | some '"' => do
    let (name, s) ← s.skip.string
    variant known name s
  | some '\x7b' =>
    if room = 0 then s.failAhead .tooDeep
    else do
      let (name, s) ← s.skip.text "variant identifier"
      let (x, s) ← variant known name s
      let s ← (← s.colon).unit
      let s := s.skipBlanks
      match s.peek? with
      | some '\x7d' => pure (x, s.skip)
      | some _ => s.failHere .expectedValue
      | none => s.failHere .endInObject
  | some _ => s.failAhead .expectedValue

-- ---------------------------------------------------------------------------
-- Records
-- ---------------------------------------------------------------------------

/-- A fault of the record as a whole is reported where the object was left, or behind its brace if
that comes next. -/
def failInObject {α : Type} (s : Cursor) (fault : ShapeFault) : Except ReadError α :=
  let s := s.skipBlanks
  (if s.peek? = some '\x7d' then s.skip else s).failHere (.shape fault)

def failInList {α : Type} (s : Cursor) (fault : ShapeFault) : Except ReadError α :=
  let s := s.skipBlanks
  let closes := s.peek? = some ']' || s.peek? = some ','
  (if closes then s.skip else s).failHere (.shape fault)

/-- What is to be done with a member: its value is skipped, refused or read. -/
inductive MemberPlan (σ : Type) where
  | skip
  | refuse (fault : ShapeFault)
  | read (run : Cursor → Except ReadError (σ × Cursor))

def recordMembers {σ : Type} (plan : String → σ → MemberPlan σ) :
    (fuel : Nat) → (first : Bool) → σ → Cursor → Except ReadError (σ × Cursor)
  | 0, _, _, s => s.failHere .endInObject
  | fuel + 1, first, state, s => do
    match ← s.nextKey? first with
    | none => pure (state, s.skipBlanks)
    | some s =>
      let (key, s) ← s.skip.string
      match plan key state with
      | .skip => recordMembers plan fuel false state (← (← s.colon).pastValue)
      | .refuse fault => s.failInObject fault
      | .read run =>
        let (state, s) ← run (← s.colon)
        recordMembers plan fuel false state s

def record {σ α : Type} (plan : String → σ → MemberPlan σ) (start : σ)
    (finish : σ → Except ShapeFault α) (s : Cursor) : Except ReadError (α × Cursor) := do
  let (state, s) ← recordMembers plan s.fuel true start s
  match finish state with
  | .ok x => pure (x, s.skip)
  | .error fault => s.failInObject fault

/-- The next field of a record that is written as a list; `absent` stands for a list that ends
before it. -/
def field {α : Type} (first : Bool) (absent : Except ShapeFault α)
    (read : Cursor → Except ReadError (α × Cursor)) (s : Cursor) :
    Except ReadError (α × Cursor) := do
  match ← s.nextItem? first with
  | some s => read s
  | none =>
    match absent with
    | .ok x => pure (x, s)
    | .error fault => s.failInList fault

end EventAdmission.Cursor
