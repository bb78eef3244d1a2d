/-!
# UTF-8

Decoding of bytes, with the place and kind of the first fault: a sequence that
cannot be completed, with the number of its bytes that belong together, or one
that the end of the text cuts off.
-/

namespace EventAdmission.Text

inductive Utf8Fault where
  | invalid (length index : Nat)
  | incomplete (index : Nat)
deriving DecidableEq

def Utf8Fault.message : Utf8Fault → String
  | invalid length index =>
    "invalid utf-8 sequence of " ++ toString length ++ " bytes from index " ++ toString index
  | incomplete index => "incomplete utf-8 byte sequence from index " ++ toString index

/-- The bytes that may follow a first byte: the range of the second one, and how many more there
are behind it. -/
def utf8Tail? (first : Nat) : Option (Nat × Nat × Nat) :=
  if 0xc2 ≤ first ∧ first ≤ 0xdf then some (0x80, 0xbf, 0)
  else if first = 0xe0 then some (0xa0, 0xbf, 1)
  else if first = 0xed then some (0x80, 0x9f, 1)
  else if 0xe1 ≤ first ∧ first ≤ 0xef then some (0x80, 0xbf, 1)
  else if first = 0xf0 then some (0x90, 0xbf, 2)
  else if 0xf1 ≤ first ∧ first ≤ 0xf3 then some (0x80, 0xbf, 2)
  else if first = 0xf4 then some (0x80, 0x8f, 2)
  else none

def utf8Lead (first : Nat) : Nat :=
  if first < 0xe0 then first - 0xc0 else if first < 0xf0 then first - 0xe0 else first - 0xf0

/-- The rest of a sequence that starts at `index`: `seen` bytes are read, `more` are to come. -/
def utf8Continue (index : Nat) (low high seen code : Nat) :
    (more : Nat) → List Nat → Except Utf8Fault (Char × List Nat)
  | _, [] => .error (.incomplete index)
  | more, b :: rest =>
    if low ≤ b ∧ b ≤ high then
      let code := code * 64 + (b - 0x80)
      match more with
      | 0 => .ok (Char.ofNat code, rest)
      | more + 1 => utf8Continue index 0x80 0xbf (seen + 1) code more rest
    else .error (.invalid seen index)

/-- `fuel` bounds the number of characters. -/
def utf8DecodeFrom : (fuel index : Nat) → List Nat → Except Utf8Fault (List Char)
  | 0, _, _ => .ok []
  | _ + 1, _, [] => .ok []
  | fuel + 1, index, b :: rest =>
    if b < 0x80 then do
      let cs ← utf8DecodeFrom fuel (index + 1) rest
      pure (Char.ofNat b :: cs)
    else
      match utf8Tail? b with
      | none => .error (.invalid 1 index)
      | some (low, high, more) => do
        let (c, after) ← utf8Continue index low high 1 (utf8Lead b) more rest
        let cs ← utf8DecodeFrom fuel (index + 2 + more) after
        pure (c :: cs)

def utf8Decode (bytes : List Nat) : Except Utf8Fault (List Char) :=
  utf8DecodeFrom bytes.length 0 bytes

def utf8Bytes (c : Char) : List Nat :=
  let n := c.toNat
  if n < 0x80 then [n]
  else if n < 0x800 then [0xc0 + n / 64, 0x80 + n % 64]
  else if n < 0x10000 then [0xe0 + n / 4096, 0x80 + n / 64 % 64, 0x80 + n % 64]
  else [0xf0 + n / 262144, 0x80 + n / 4096 % 64, 0x80 + n / 64 % 64, 0x80 + n % 64]

end EventAdmission.Text
