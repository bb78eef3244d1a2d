import EventAdmission.Json.Basic
import EventAdmission.Json.Cursor

/-!
# Strings and numbers in JSON text

The lexical part of JSON text: words, strings with their escapes, numbers. A
reader takes a cursor and gives a value with the cursor behind it. A skipping
reader checks the form only, and is more lenient about what a value must mean.
-/

namespace EventAdmission

namespace Cursor

-- ---------------------------------------------------------------------------
-- Strings
-- ---------------------------------------------------------------------------

def hexValue? (c : Char) : Option Nat :=
  if '0' ≤ c ∧ c ≤ '9' then some (c.toNat - '0'.toNat)
  else if 'a' ≤ c ∧ c ≤ 'f' then some (c.toNat - 'a'.toNat + 10)
  else if 'A' ≤ c ∧ c ≤ 'F' then some (c.toNat - 'A'.toNat + 10)
  else none

/-- The place a number of bytes further on; `none` when the text ends before. -/
def placeAfter (place : Place) : Nat → List Char → Option Place
  | 0, _ => some place
  | _, [] => none
  | n + 1, c :: rest =>
    if c.utf8Size ≤ n + 1 then placeAfter (advance place c) (n + 1 - c.utf8Size) rest
    else some { place with column := place.column + (n + 1) }
termination_by _ rest => rest.length

def endPlace (place : Place) (rest : List Char) : Place := rest.foldl advance place

def hexEscape (s : Cursor) : Except ReadError (Nat × Cursor) :=
  match s.rest with
  | a :: b :: c :: d :: rest =>
    match hexValue? a, hexValue? b, hexValue? c, hexValue? d with
    | some a', some b', some c', some d' =>
      let place := { s.place with column := s.place.column + 4 }
      .ok (((a' * 16 + b') * 16 + c') * 16 + d', ⟨rest, place⟩)
    | _, _, _, _ => malformed
  | _ => malformed
where
  malformed : Except ReadError (Nat × Cursor) :=
    match placeAfter s.place 4 s.rest with
    | some place => .error ⟨.invalidEscape, place⟩
    | none => .error ⟨.endInString, endPlace s.place s.rest⟩

def halfMark (s : Cursor) (expected : Char) : Except ReadError Cursor :=
  match s.peek? with
  | none => s.failHere .endInString
  | some c => if c = expected then .ok s.skip else s.failAhead .unexpectedEndOfHex

def isHighSurrogate (n : Nat) : Bool := 0xD800 ≤ n && n ≤ 0xDBFF

def isLowSurrogate (n : Nat) : Bool := 0xDC00 ≤ n && n ≤ 0xDFFF

def unicodeEscape (s : Cursor) : Except ReadError (Char × Cursor) := do
  let (n, s) ← s.hexEscape
  if isLowSurrogate n then s.failHere .loneSurrogate
  else if isHighSurrogate n then
    let s ← s.halfMark '\\'
    let s ← s.halfMark 'u'
    let (m, s) ← s.hexEscape
    if isLowSurrogate m then
      pure (Char.ofNat (0x10000 + (n - 0xD800) * 0x400 + (m - 0xDC00)), s)
    else s.failHere .loneSurrogate
  else pure (Char.ofNat n, s)

def simpleEscape? (c : Char) : Option Char :=
  match c with
  | '"' => some '"'
  | '\\' => some '\\'
  | '/' => some '/'
  | 'b' => some '\x08'
  | 'f' => some '\x0c'
  | 'n' => some '\n'
  | 'r' => some '\r'
  | 't' => some '\t'
  | _ => none

def escaped (s : Cursor) : Except ReadError (Char × Cursor) :=
  match s.peek? with
  | none => s.failHere .endInString
  | some 'u' => s.skip.unicodeEscape
  | some c =>
    match simpleEscape? c with
    | some d => .ok (d, s.skip)
    | none => s.failAhead .invalidEscape

/-- The characters up to the closing quote; every step reads one, so `fuel` is their number. -/
def stringTail : (fuel : Nat) → Cursor → Except ReadError (List Char × Cursor)
  | 0, s => s.failHere .endInString
  | fuel + 1, s =>
    match s.peek? with
    | none => s.failHere .endInString
    | some '"' => .ok ([], s.skip)
    | some '\\' => do
      let (c, s) ← s.skip.escaped
      let (cs, s) ← stringTail fuel s
      pure (c :: cs, s)
    | some c =>
      if c.toNat < 0x20 then s.failAhead .controlCharacter
      else do
        let (cs, s) ← stringTail fuel s.skip
        pure (c :: cs, s)

def string (s : Cursor) : Except ReadError (String × Cursor) := do
  let (cs, s) ← stringTail (s.rest.length + 1) s
  pure (String.ofList cs, s)

def skipEscape (s : Cursor) : Except ReadError Cursor :=
  match s.peek? with
  | none => s.failHere .endInString
  | some 'u' => (·.2) <$> s.skip.hexEscape
  | some c => if (simpleEscape? c).isSome then .ok s.skip else s.failAhead .invalidEscape

def skipStringTail : (fuel : Nat) → Cursor → Except ReadError Cursor
  | 0, s => s.failHere .endInString
  | fuel + 1, s =>
    match s.peek? with
    | none => s.failHere .endInString
    | some '"' => .ok s.skip
    | some '\\' => do skipStringTail fuel (← s.skip.skipEscape)
    | some c => if c.toNat < 0x20 then s.failHere .controlCharacter else skipStringTail fuel s.skip

def skipString (s : Cursor) : Except ReadError Cursor := skipStringTail (s.rest.length + 1) s

-- ---------------------------------------------------------------------------
-- Numbers
-- ---------------------------------------------------------------------------

def isDigit (c : Char) : Bool := '0' ≤ c && c ≤ '9'

def digit (c : Char) : Nat := c.toNat - '0'.toNat

def peeksDigit (s : Cursor) : Bool := s.peek?.any isDigit

/-- Digits are gathered as long as the number stays below `2 ^ 64`: the number, how many digits
were added, and whether a digit was left because it does not fit. -/
def gatherDigits (start : Nat) (s : Cursor) : (Nat × Nat × Bool) × Cursor :=
  go start 0 s.rest s.place
where
  go (n count : Nat) : List Char → Place → (Nat × Nat × Bool) × Cursor
  | [], place => ((n, count, false), ⟨[], place⟩)
  | c :: rest, place =>
    if isDigit c then
      if n * 10 + digit c < 2 ^ 64 then go (n * 10 + digit c) (count + 1) rest (advance place c)
      else ((n, count, true), ⟨c :: rest, place⟩)
    else ((n, count, false), ⟨c :: rest, place⟩)

def powerOfTen (n : Nat) : Binary64 :=
  (Binary64.ofQuotient false (10 ^ n) 1).getD (Binary64.zero false)

/-- `x / 10 ^ n` for `x` below `2 ^ 64`, in at most two divisions; a third one would only find
zero. -/
def shrink (x : Binary64) (n : Nat) : Binary64 :=
  let divided (x : Binary64) (n : Nat) := (x.div? (powerOfTen n)).getD (Binary64.zero false)
  if n ≤ 308 then divided x n
  else if n ≤ 616 then divided (divided x 308) (n - 308)
  else Binary64.zero false

/-- The double of `n * 10 ^ exponent`: the digits are rounded, then scaled. -/
def scaled (negative : Bool) (n : Nat) (exponent : Int) (s : Cursor) :
    Except ReadError (Number × Cursor) :=
  let x := (Binary64.ofNat n).getD (Binary64.zero false)
  let signed (y : Binary64) : Number := .float (if negative then y.neg else y)
  if exponent < 0 then .ok (signed (shrink x (-exponent).toNat), s)
  else if x.isZero then .ok (signed x, s)
  else if 308 < exponent then s.failHere .numberOutOfRange
  else
    match x.mul? (powerOfTen exponent.toNat) with
    | some y => .ok (signed y, s)
    | none => s.failHere .numberOutOfRange

def skipDigits (s : Cursor) : Cursor := s.skipWhile isDigit

/-- The digits of an exponent while they stay below `2 ^ 31`; `none` with the cursor behind the
digit that does not fit. -/
def exponentDigits (start : Nat) (s : Cursor) : Option Nat × Cursor :=
  go start s.rest s.place
where
  go (n : Nat) : List Char → Place → Option Nat × Cursor
  | [], place => (some n, ⟨[], place⟩)
  | c :: rest, place =>
    if isDigit c then
      if n * 10 + digit c < 2 ^ 31 then go (n * 10 + digit c) rest (advance place c)
      else (none, ⟨rest, advance place c⟩)
    else (some n, ⟨c :: rest, place⟩)

def exponentSign (s : Cursor) : Bool × Cursor :=
  match s.peek? with
  | some '+' => (false, s.skip)
  | some '-' => (true, s.skip)
  | _ => (false, s)

def exponentPart (negative : Bool) (n : Nat) (exponent : Int) (s : Cursor) :
    Except ReadError (Number × Cursor) :=
  let (down, s) := s.skip.exponentSign
  match s.peek? with
  | none => s.failHere .endInValue
  | some c =>
    if isDigit c then
      match s.skip.exponentDigits (digit c) with
      | (some e, s) => scaled negative n (if down then exponent - e else exponent + e) s
      | (none, s) =>
        if n ≠ 0 ∧ !down then s.failHere .numberOutOfRange
        else .ok (.float (Binary64.zero negative), s.skipDigits)
    else s.failAhead .invalidNumber

/-- The digits behind the point of a number, at the point. Digits that do not fit are dropped. -/
def fractionPart (negative : Bool) (n : Nat) (exponent : Int) (s : Cursor) :
    Except ReadError (Number × Cursor) :=
  let ((m, count, full), after) := s.skip.gatherDigits n
  if full then
    finish m (exponent - count) after.skipDigits
  else if count = 0 then
    match after.peek? with
    | none => after.failAhead .endInValue
    | some _ => after.failAhead .invalidNumber
  else finish m (exponent - count) after
where
  finish (m : Nat) (exponent : Int) (s : Cursor) : Except ReadError (Number × Cursor) :=
    match s.peek? with
    | some 'e' => exponentPart negative m exponent s
    | some 'E' => exponentPart negative m exponent s
    | _ => scaled negative m exponent s

/-- A whole number of one of the integer kinds, or a double where it fits none. -/
def integer (negative : Bool) (n : Nat) : Number :=
  if !negative then .natural (UInt64.ofNat n)
  else if h : n ≠ 0 ∧ n - 1 < 2 ^ 63 then .negative ⟨n - 1, h.2⟩
  else .float ((Binary64.ofNat n).getD (Binary64.zero false)).neg

def afterInteger (negative : Bool) (n : Nat) (s : Cursor) : Except ReadError (Number × Cursor) :=
  match s.peek? with
  | some '.' => fractionPart negative n 0 s
  | some 'e' => exponentPart negative n 0 s
  | some 'E' => exponentPart negative n 0 s
  | _ => .ok (integer negative n, s)

/-- Too many digits: the remaining ones only raise the exponent. -/
def longInteger (negative : Bool) (n : Nat) (s : Cursor) : Except ReadError (Number × Cursor) :=
  let after := s.skipDigits
  let exponent : Int := s.rest.length - after.rest.length
  match after.peek? with
  | some '.' => fractionPart negative n exponent after
  | some 'e' => exponentPart negative n exponent after
  | some 'E' => exponentPart negative n exponent after
  | _ => scaled negative n exponent after

def unsigned (negative : Bool) (s : Cursor) : Except ReadError (Number × Cursor) :=
  match s.peek? with
  | none => s.failHere .endInValue
  | some c =>
    if c = '0' then
      if s.skip.peeksDigit then s.skip.failAhead .invalidNumber else afterInteger negative 0 s.skip
    else if isDigit c then
      match s.skip.gatherDigits (digit c) with
      | ((n, _, false), s) => afterInteger negative n s
      | ((n, _, true), s) => longInteger negative n s
    else s.failAhead .invalidNumber

def number (s : Cursor) : Except ReadError (Number × Cursor) :=
  if s.peek? = some '-' then unsigned true s.skip else unsigned false s

def skipExponent (s : Cursor) : Except ReadError Cursor :=
  let (_, s) := s.skip.exponentSign
  if s.peeksDigit then .ok s.skipDigits else s.failAhead .invalidNumber

def skipAfterInteger (s : Cursor) : Except ReadError Cursor :=
  match s.peek? with
  | some '.' =>
    if s.skip.peeksDigit then skipTail s.skip.skipDigits else s.skip.failAhead .invalidNumber
  | _ => skipTail s
where
  skipTail (s : Cursor) : Except ReadError Cursor :=
    match s.peek? with
    | some 'e' => skipExponent s
    | some 'E' => skipExponent s
    | _ => .ok s

def skipNumber (s : Cursor) : Except ReadError Cursor :=
  let s := if s.peek? = some '-' then s.skip else s
  match s.peek? with
  | none => s.failHere .invalidNumber
  | some c =>
    if c = '0' then
      if s.skip.peeksDigit then s.skip.failAhead .invalidNumber else skipAfterInteger s.skip
    else if isDigit c then skipAfterInteger s.skipDigits
    else s.failAhead .invalidNumber

end Cursor

end EventAdmission
