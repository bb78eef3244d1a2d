import EventAdmission.Json.Typed
import EventAdmission.Proofs.Outcome

/-!
# JSON text taken apart

The grammar of JSON text, apart from any reader. `Written` is a value in the way it
was written: strings and numbers as their characters, members in their order with
all repetitions. `Spans` says which stretch of a text spells it, blanks included.
What a written value stands for is a matter of its own (`string?`, `texts?`,
`choice?`, `json?`): half of a surrogate pair is well written and stands for nothing.
-/

namespace EventAdmission

-- ---------------------------------------------------------------------------
-- Characters
-- ---------------------------------------------------------------------------

def Blanks (t u : List Char) : Prop := ∃ blanks, t = blanks ++ u ∧ ∀ c ∈ blanks, Cursor.isBlank c = true

def Unblank (t : List Char) : Prop := ∀ c ∈ t.head?, Cursor.isBlank c = false

def closes (c : Char) : Bool := Cursor.isBlank c || c == ',' || c == ']' || c == '\x7d'

def Over (t : List Char) : Prop := ∀ c ∈ t.head?, closes c = true

def isPlain (c : Char) : Bool := c != '"' && c != '\\' && 0x20 ≤ c.toNat

def hexCode? (a b c d : Char) : Option Nat := do
  let a ← Cursor.hexValue? a
  let b ← Cursor.hexValue? b
  let c ← Cursor.hexValue? c
  let d ← Cursor.hexValue? d
  pure (((a * 16 + b) * 16 + c) * 16 + d)

-- ---------------------------------------------------------------------------
-- Numbers
-- ---------------------------------------------------------------------------

def IsDigits (ds : List Char) : Prop := ds ≠ [] ∧ ∀ c ∈ ds, Cursor.isDigit c = true

/-- Digits before the point: a zero stands alone. -/
def IsWhole (ds : List Char) : Prop := IsDigits ds ∧ (ds.head? = some '0' → ds = ['0'])

def IsFraction (cs : List Char) : Prop := ∃ ds, cs = '.' :: ds ∧ IsDigits ds

def IsSign (sign : List Char) : Prop := sign = [] ∨ sign = ['+'] ∨ sign = ['-']

def IsExponent (cs : List Char) : Prop :=
  ∃ mark sign ds, cs = mark :: (sign ++ ds) ∧ (mark = 'e' ∨ mark = 'E') ∧ IsSign sign ∧ IsDigits ds

def IsTail (cs : List Char) : Prop :=
  ∃ fraction exponent, cs = fraction ++ exponent ∧ (fraction = [] ∨ IsFraction fraction) ∧
    (exponent = [] ∨ IsExponent exponent)

def IsUnsigned (cs : List Char) : Prop := ∃ whole tail, cs = whole ++ tail ∧ IsWhole whole ∧ IsTail tail

def IsNumber (cs : List Char) : Prop := ∃ ds, (cs = ds ∨ cs = '-' :: ds) ∧ IsUnsigned ds

def numberOf? (digits : List Char) : Option Number :=
  match Cursor.number ⟨digits, ⟨1, 0⟩⟩ with
  | .ok (n, ⟨[], _⟩) => some n
  | _ => none

-- ---------------------------------------------------------------------------
-- Strings
-- ---------------------------------------------------------------------------

/-- A piece of a string: a character, an escape by a letter, or an escape by four digits. -/
inductive StringPiece where
  | plain (c : Char) (h : isPlain c = true)
  | short (letter c : Char) (h : Cursor.simpleEscape? letter = some c)
  | code (a b c d : Char) (n : Nat) (h : hexCode? a b c d = some n)

def StringPiece.chars : StringPiece → List Char
  | plain c _ => [c]
  | short letter _ _ => ['\\', letter]
  | code a b c d _ _ => ['\\', 'u', a, b, c, d]

/-- The characters that pieces stand for; `high` is the first half of a pair, still without the
second one. -/
def unescape? : (high : Option Nat) → List StringPiece → Option (List Char)
  | none, [] => some []
  | none, .plain c _ :: rest => (c :: ·) <$> unescape? none rest
  | none, .short _ c _ :: rest => (c :: ·) <$> unescape? none rest
  | none, .code _ _ _ _ n _ :: rest =>
    if Cursor.isLowSurrogate n then none
    else if Cursor.isHighSurrogate n then unescape? (some n) rest
    else (Char.ofNat n :: ·) <$> unescape? none rest
  | some n, .code _ _ _ _ m _ :: rest =>
    if Cursor.isLowSurrogate m then
      (Char.ofNat (0x10000 + (n - 0xD800) * 0x400 + (m - 0xDC00)) :: ·) <$> unescape? none rest
    else none
  | some _, _ => none

def textOf? (pieces : List StringPiece) : Option String := String.ofList <$> unescape? none pieces

def quotedPieces (pieces : List StringPiece) (rest : List Char) : List Char :=
  '"' :: (pieces.flatMap StringPiece.chars ++ '"' :: rest)

-- ---------------------------------------------------------------------------
-- Values
-- ---------------------------------------------------------------------------

inductive Written where
  | null
  | bool (b : Bool)
  | number (digits : List Char)
  | string (pieces : List StringPiece)
  | list (items : List Written)
  | object (members : List (List StringPiece × Written))

namespace Written

def Opens (first : Bool) (t u : List Char) : Prop := if first then t = u else Blanks t (',' :: u)

mutual

/-- The text from `t` up to `u` spells the value. -/
def Spans : Written → (t u : List Char) → Prop
  | null, t, u => t = 'n' :: 'u' :: 'l' :: 'l' :: u
  | bool true, t, u => t = 't' :: 'r' :: 'u' :: 'e' :: u
  | bool false, t, u => t = 'f' :: 'a' :: 'l' :: 's' :: 'e' :: u
  | number digits, t, u => IsNumber digits ∧ t = digits ++ u
  | string pieces, t, u => t = quotedPieces pieces u
  | list items, t, u => ∃ body, t = '[' :: body ∧ SpansItems true items body u
  | object members, t, u => ∃ body, t = '\x7b' :: body ∧ SpansMembers true members body u

def SpansItems : (first : Bool) → List Written → (t u : List Char) → Prop
  | _, [], t, u => Blanks t (']' :: u)
  | first, x :: xs, t, u => ∃ opened start rest, Opens first t opened ∧ Blanks opened start ∧
      Spans x start rest ∧ SpansItems false xs rest u

def SpansMembers : (first : Bool) → List (List StringPiece × Written) → (t u : List Char) → Prop
  | _, [], t, u => Blanks t ('\x7d' :: u)
  | first, (key, x) :: xs, t, u => ∃ opened afterKey afterColon start rest, Opens first t opened ∧
      Blanks opened (quotedPieces key afterKey) ∧ Blanks afterKey (':' :: afterColon) ∧
      Blanks afterColon start ∧ Spans x start rest ∧ SpansMembers false xs rest u

end

/-- The text holds the value and nothing else but blanks. -/
def SpelledBy (x : Written) (text : String) : Prop :=
  ∃ t u, Blanks text.toList t ∧ x.Spans t u ∧ Blanks u []

-- ---------------------------------------------------------------------------
-- What is meant
-- ---------------------------------------------------------------------------

def string? : Written → Option String
  | string pieces => textOf? pieces
  | _ => none

def texts? : Written → Option (List String)
  | list items => items.mapM string?
  | _ => none

def choice? {α : Type} (known : List (String × α)) : Written → Option α
  | string pieces => (textOf? pieces).bind (Keyed.find? known)
  | object [(key, null)] => (textOf? key).bind (Keyed.find? known)
  | _ => none

mutual

/-- The value, if at most `room` brackets are open at once. -/
def json? (room : Nat) : Written → Option Json
  | null => some .null
  | bool b => some (.bool b)
  | number digits => .num <$> numberOf? digits
  | string pieces => .str <$> textOf? pieces
  | list items =>
    match room with
    | 0 => none
    | room + 1 => .arr <$> jsonItems? room items
  | object members =>
    match room with
    | 0 => none
    | room + 1 => .obj <$> jsonMembers? room [] members

def jsonItems? (room : Nat) : List Written → Option (List Json)
  | [] => some []
  | x :: xs => do pure ((← json? room x) :: (← jsonItems? room xs))

/-- The members, added to others; of a key that is there already the new value stays. -/
def jsonMembers? (room : Nat) (others : Members) :
    List (List StringPiece × Written) → Option Members
  | [] => some others
  | (key, x) :: xs => do
    let key ← textOf? key
    let x ← json? room x
    jsonMembers? room (Keyed.insert others key x) xs

end

def under (key : String) (members : List (List StringPiece × Written)) : List Written :=
  members.filterMap fun e => if textOf? e.1 = some key then some e.2 else none

end Written

end EventAdmission
