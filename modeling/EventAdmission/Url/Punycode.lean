/-!
# Punycode

The ASCII form of a label with other characters: its ASCII characters, then for
each other one, in order of code points, how far the decoder has to move on.
-/

namespace EventAdmission.Punycode

def digit (n : Nat) : Char :=
  if n < 26 then Char.ofNat ('a'.toNat + n) else Char.ofNat ('0'.toNat + (n - 26))

def digitValue? (c : Char) : Option Nat :=
  if 'a' ≤ c ∧ c ≤ 'z' then some (c.toNat - 'a'.toNat)
  else if 'A' ≤ c ∧ c ≤ 'Z' then some (c.toNat - 'A'.toNat)
  else if '0' ≤ c ∧ c ≤ '9' then some (c.toNat - '0'.toNat + 26)
  else none

def threshold (bias position : Nat) : Nat :=
  let k := 36 * (position + 1)
  if k ≤ bias then 1 else if bias + 26 ≤ k then 26 else k - bias

def settle : (fuel delta k : Nat) → Nat × Nat
  | 0, delta, k => (delta, k)
  | fuel + 1, delta, k => if 455 < delta then settle fuel (delta / 35) (k + 36) else (delta, k)

def adapt (delta length : Nat) (isFirst : Bool) : Nat :=
  let delta := if isFirst then delta / 700 else delta / 2
  let delta := delta + delta / length
  let (delta, k) := settle 16 delta 0
  k + 36 * delta / (delta + 38)

def number (bias : Nat) : (fuel position n : Nat) → List Char
  | 0, _, _ => []
  | fuel + 1, position, n =>
    let t := threshold bias position
    if n < t then [digit n]
    else digit (t + (n - t) % (36 - t)) :: number bias fuel (position + 1) ((n - t) / (36 - t))

structure State where
  delta : Nat
  bias : Nat
  handled : Nat
  output : List Char

/-- One character of the label in the pass for a code point. -/
def encodeChar (basic code : Nat) (s : State) (c : Char) : State :=
  if c.toNat < code then { s with delta := s.delta + 1 }
  else if c.toNat = code then
    { delta := 0
      bias := adapt s.delta (s.handled + 1) (s.handled == basic)
      handled := s.handled + 1
      output := s.output ++ number s.bias 16 0 s.delta }
  else s

def encodePasses (label : List Char) (basic : Nat) :
    (codes : List Nat) → (next : Nat) → State → State
  | [], _, s => s
  | code :: codes, next, s =>
    let s := { s with delta := s.delta + (code - next) * (s.handled + 1) }
    let s := label.foldl (encodeChar basic code) s
    encodePasses label basic codes (code + 1) { s with delta := s.delta + 1 }

def encode (label : List Char) : List Char :=
  let ascii := label.filter fun c => c.toNat < 0x80
  let codes := ((label.filter fun c => 0x80 ≤ c.toNat).map (·.toNat)).mergeSort.eraseDups
  let start := if ascii.isEmpty then [] else ascii ++ ['-']
  (encodePasses label ascii.length codes 0x80 ⟨0, 72, ascii.length, start⟩).output

/-- The next number, its weight growing from digit to digit. -/
def readNumber (bias : Nat) : (position value weight : Nat) → List Char → Option (Nat × List Char)
  | _, _, _, [] => none
  | position, value, weight, c :: rest => do
    let d ← digitValue? c
    let value := value + d * weight
    let t := threshold bias position
    if d < t then some (value, rest)
    else readNumber bias (position + 1) value (weight * (36 - t)) rest

/-- `fuel` bounds the number of characters that are not ASCII. -/
def decodeLoop : (fuel : Nat) → (isFirst : Bool) → (code index bias : Nat) → (out : List Char) →
    List Char → Option (List Char)
  | _, _, _, _, _, out, [] => some out
  | 0, _, _, _, _, _, _ => none
  | fuel + 1, isFirst, code, index, bias, out, rest => do
    let (step, rest) ← readNumber bias 0 0 1 rest
    let length := out.length + 1
    let code := code + (index + step) / length
    let place := (index + step) % length
    if 0x10ffff < code ∨ (0xd800 ≤ code ∧ code ≤ 0xdfff) then none
    else
      let out := out.take place ++ Char.ofNat code :: out.drop place
      decodeLoop fuel false code (place + 1) (adapt step length isFirst) out rest

def splitLastHyphen (text : List Char) : List Char × List Char :=
  let back := text.reverse.takeWhile (· ≠ '-')
  if back.length = text.length then ([], text)
  else (text.take (text.length - back.length - 1), back.reverse)

def decode? (text : List Char) : Option (List Char) :=
  let (ascii, rest) := splitLastHyphen text
  if ascii.all fun c => c.toNat < 0x80 then decodeLoop rest.length true 0x80 0 72 ascii rest
  else none

end EventAdmission.Punycode
