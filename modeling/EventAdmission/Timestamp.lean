/-!
# Timestamps

Date, time and offset in the written form `1996-12-19T16:39:57-08:00`. Two
readings of the form are in use: the one for envelopes is strict about the
separator, and the one for schema formats is strict about leap seconds.
-/

namespace EventAdmission

structure Timestamp where
  year : Nat
  month : Nat
  day : Nat
  hour : Nat
  minute : Nat
  second : Nat
  /-- Minutes ahead of universal time. -/
  offset : Int
deriving DecidableEq

namespace Timestamp

def isLeapYear (year : Nat) : Bool := year % 4 == 0 && (year % 100 != 0 || year % 400 == 0)

def daysInMonth (year month : Nat) : Nat :=
  if month = 2 then if isLeapYear year then 29 else 28
  else if month = 4 ∨ month = 6 ∨ month = 9 ∨ month = 11 then 30 else 31

def dateExists (year month day : Nat) : Bool :=
  1 ≤ month && month ≤ 12 && 1 ≤ day && day ≤ daysInMonth year month

def isDigit (c : Char) : Bool := '0' ≤ c && c ≤ '9'

def digits (count : Nat) (text : List Char) : Option (Nat × List Char) :=
  let front := text.take count
  if front.length = count && front.all isDigit then
    some (front.foldl (fun n c => n * 10 + (c.toNat - '0'.toNat)) 0, text.drop count)
  else none

def literal (c : Char) : List Char → Option (List Char)
  | d :: rest => if d = c then some rest else none
  | [] => none

def date (text : List Char) : Option ((Nat × Nat × Nat) × List Char) := do
  let (year, text) ← digits 4 text
  let (month, text) ← digits 2 (← literal '-' text)
  let (day, text) ← digits 2 (← literal '-' text)
  if dateExists year month day then some ((year, month, day), text) else none

/-- Hour, minute and second; a second may be the sixtieth. -/
def clock (text : List Char) : Option ((Nat × Nat × Nat) × List Char) := do
  let (hour, text) ← digits 2 text
  let (minute, text) ← digits 2 (← literal ':' text)
  let (second, text) ← digits 2 (← literal ':' text)
  if hour ≤ 23 && minute ≤ 59 && second ≤ 60 then some ((hour, minute, second), text) else none

def pastFraction (text : List Char) : Option (List Char) :=
  match text with
  | '.' :: rest => if rest.head?.any isDigit then some (rest.dropWhile isDigit) else none
  | _ => some text

def offsetAtEnd (isMinus : Char → Bool) (text : List Char) : Option Int :=
  match text with
  | ['Z'] => some 0
  | ['z'] => some 0
  | sign :: rest => do
    let (hours, rest) ← digits 2 rest
    let (minutes, rest) ← digits 2 (← literal ':' rest)
    let size : Int := hours * 60 + minutes
    if rest.isEmpty && hours ≤ 23 && minutes ≤ 59 then
      if sign = '+' then some size else if isMinus sign then some (-size) else none
    else none
  | [] => none

def readWith (isSeparator isMinus : Char → Bool) (text : List Char) : Option Timestamp := do
  let ((year, month, day), text) ← date text
  match text with
  | [] => none
  | separator :: text =>
    if isSeparator separator then
      let ((hour, minute, second), text) ← clock text
      let offset ← offsetAtEnd isMinus (← pastFraction text)
      some ⟨year, month, day, hour, minute, second, offset⟩
    else none

def read (text : String) : Option Timestamp :=
  readWith (fun c => c == 'T' || c == 't' || c == ' ') (fun c => c == '-' || c == '\u2212')
    text.toList

/-- Whether the minute is the last one of a month in universal time, when leap seconds fall. The
offset is shorter than a day, so that minute is on the written date or on the one before. -/
def endsMonth (t : Timestamp) : Bool :=
  let minute : Int := t.hour * 60 + t.minute - t.offset
  (minute == 1439 && t.day == daysInMonth t.year t.month) || (minute == -1 && t.day == 1)

/-- The timestamp of a schema format: any one byte stands between date and time, and a leap second
must be possible. -/
def readFormat (text : String) : Option Timestamp := do
  let t ← readWith (fun c => c.toNat < 0x80) (· == '-') text.toList
  if t.second = 60 && !t.endsMonth then none else some t

def isDate (text : String) : Bool :=
  match date text.toList with
  | some (_, rest) => rest.isEmpty
  | none => false

end Timestamp

end EventAdmission
