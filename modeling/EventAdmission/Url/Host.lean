import EventAdmission.Text.Percent
import EventAdmission.Text.Split
import EventAdmission.Unicode.LowerCase
import EventAdmission.Unicode.Unprintable
import EventAdmission.Url.Punycode

/-!
# Hosts

The host of a URL: a domain, an address of either version, or, for schemes
without rules of their own, an opaque text. Domains are brought to lower case
and to ASCII.
-/

namespace EventAdmission

inductive UrlFault where
  | emptyHost
  | invalidInternationalName
  | invalidPort
  | invalidIpv4
  | invalidIpv6
  | invalidDomainCharacter
  | relativeWithoutBase
  | relativeToOpaqueBase
deriving DecidableEq

def UrlFault.message : UrlFault → String
  | emptyHost => "empty host"
  | invalidInternationalName => "invalid international domain name"
  | invalidPort => "invalid port number"
  | invalidIpv4 => "invalid IPv4 address"
  | invalidIpv6 => "invalid IPv6 address"
  | invalidDomainCharacter => "invalid domain character"
  | relativeWithoutBase => "relative URL without a base"
  | relativeToOpaqueBase => "relative URL with a cannot-be-a-base base"

namespace Host

-- ---------------------------------------------------------------------------
-- Addresses
-- ---------------------------------------------------------------------------

def isDigit (c : Char) : Bool := '0' ≤ c && c ≤ '9'

def decimal (digits : List Char) : Nat :=
  digits.foldl (fun n c => n * 10 + (c.toNat - '0'.toNat)) 0

/-- The number of a part of a dotted address as a URL writes it, in base 8, 10 or 16. -/
def part? (text : List Char) : Option Nat :=
  let inBase (base : Nat) (digits : List Char) : Option Nat :=
    digits.foldlM (fun n c => do
      let d ← Text.hexValue? c
      if d < base then some (n * base + d) else none) 0
  match text with
  | [] => none
  | '0' :: 'x' :: rest => inBase 16 rest
  | '0' :: 'X' :: rest => inBase 16 rest
  | ['0'] => some 0
  | '0' :: rest => inBase 8 rest
  | digits => inBase 10 digits

/-- The parts of a host between the dots, without an empty one at the end. -/
def dotted (text : List Char) : List (List Char) :=
  let parts := Text.splitAt '.' text
  if 1 < parts.length ∧ parts.getLast? = some [] then parts.dropLast else parts

/-- Whether a domain has to be an address: its last part is a number. -/
def endsInNumber (text : List Char) : Bool :=
  match (dotted text).getLast? with
  | none => false
  | some last => !last.isEmpty && (last.all isDigit || (part? last).isSome)

/-- A dotted address as four bytes, the last part filling what the others leave. -/
def ipv4? (text : List Char) : Option Nat := do
  let parts := dotted text
  if 4 < parts.length then none
  else
    let numbers ← parts.mapM part?
    let front := numbers.dropLast
    let last ← numbers.getLast?
    if front.all (· ≤ 255) && last < 256 ^ (5 - numbers.length) then
      some (front.foldl (fun n d => n * 256 + d) 0 * 256 ^ (5 - numbers.length) + last)
    else none

def ipv4Text (address : Nat) : List Char :=
  let byte (n : Nat) := Nat.toDigits 10 (address / 256 ^ n % 256)
  byte 3 ++ '.' :: byte 2 ++ '.' :: byte 1 ++ '.' :: byte 0

/-- A strict dotted address: four numbers without leading zeros. -/
def quad? (text : List Char) : Option (List Nat) := do
  let parts := Text.splitAt '.' text
  if parts.length ≠ 4 then none
  else parts.mapM fun p =>
    if p.isEmpty || 3 < p.length || !p.all isDigit || (1 < p.length && p.head? = some '0') then none
    else if decimal p ≤ 255 then some (decimal p) else none

/-- The sixteen-bit groups between colons; a dotted address may end them. -/
def groups? : List (List Char) → Option (List Nat)
  | [] => some []
  | [last] =>
    match quad? last with
    | some [a, b, c, d] => some [a * 256 + b, c * 256 + d]
    | _ => do some [← group? last]
  | g :: rest => do
    let n ← group? g
    some (n :: (← groups? rest))
where
  group? (text : List Char) : Option Nat :=
    if text.isEmpty || 4 < text.length then none
    else text.foldlM (fun n c => do some (n * 16 + (← Text.hexValue? c))) 0

def splitDouble : List Char → Option (List Char × List Char)
  | ':' :: ':' :: rest => some ([], rest)
  | c :: rest => do
    let (before, after) ← splitDouble rest
    some (c :: before, after)
  | [] => none

def ipv6? (text : List Char) : Option (List Nat) := do
  let side (t : List Char) : Option (List Nat) :=
    if t.isEmpty then some [] else groups? (Text.splitAt ':' t)
  match splitDouble text with
  | none =>
    let groups ← side text
    if groups.length = 8 then some groups else none
  | some (before, after) =>
    if before.contains '.' then none
    else
      let front ← side before
      let back ← side after
      if front.length + back.length ≤ 7 then
        some (front ++ List.replicate (8 - front.length - back.length) 0 ++ back)
      else none

/-- The start and length of the first longest run of zeros. -/
def zeroRun (groups : List Nat) : Nat × Nat :=
  let runs := (List.range groups.length).map fun i =>
    (i, ((groups.drop i).takeWhile (· = 0)).length)
  runs.foldl (fun best run => if best.2 < run.2 then run else best) (0, 1)

def ipv6Text (groups : List Nat) : List Char :=
  let write (gs : List Nat) : List Char :=
    (String.intercalate ":" (gs.map fun g => String.ofList (Nat.toDigits 16 g))).toList
  let (start, length) := zeroRun groups
  if length < 2 then write groups
  else write (groups.take start) ++ [':', ':'] ++ write (groups.drop (start + length))

-- ---------------------------------------------------------------------------
-- Domains
-- ---------------------------------------------------------------------------

def isForbidden (c : Char) : Bool :=
  c.toNat = 0 || "\t\n\r #/:<>?@[\\]^|".toList.contains c

def isForbiddenInDomain (c : Char) : Bool :=
  isForbidden c || c.toNat ≤ 0x1f || c = '%' || c.toNat = 0x7f

/-- A character as domains write it: lower case, the plain form of a wide letter, a dot for every
kind of dot; some marks are dropped. -/
def mapped (c : Char) : List Char :=
  let n := c.toNat
  if n = 0x3002 || n = 0xff0e || n = 0xff61 then ['.']
  else if 0xff01 ≤ n ∧ n ≤ 0xff5e then Unicode.lowerCase (Char.ofNat (n - 0xfee0))
  else if n = 0xad || n = 0x200b || n = 0x2060 || n = 0xfeff || (0xfe00 ≤ n && n ≤ 0xfe0f) then []
  else if n = 0xdf || n = 0x3c2 then [c]
  else Unicode.lowerCase c

def isAllowed (c : Char) : Bool :=
  c.toNat < 0x80 || !Unicode.isUnprintable c || Unicode.caseIgnorable.holds c.toNat

def label (text : List Char) : Except UrlFault (List Char) :=
  let isAscii := text.all fun c => c.toNat < 0x80
  if isAscii then
    match text with
    | 'x' :: 'n' :: '-' :: '-' :: rest =>
      match Punycode.decode? rest with
      | some decoded =>
        if rest.isEmpty || decoded.all (fun c => c.toNat < 0x80) || !decoded.all isAllowed
            || Punycode.encode decoded ≠ rest then
          .error .invalidInternationalName
        else .ok text
      | none => .error .invalidInternationalName
    | _ => .ok text
  else if text.all isAllowed && !(text.head?.any Unicode.isUnprintable) then
    .ok (['x', 'n', '-', '-'] ++ Punycode.encode text)
  else .error .invalidInternationalName

def joinDots : List (List Char) → List Char
  | [] => []
  | [last] => last
  | l :: rest => l ++ '.' :: joinDots rest

def domain (text : List Char) : Except UrlFault (List Char) := do
  let mappedText := text.flatMap mapped
  if mappedText.any isForbiddenInDomain then .error .invalidDomainCharacter
  else
    let labels ← (Text.splitAt '.' mappedText).mapM label
    let ascii := joinDots labels
    if ascii.isEmpty then .error .emptyHost else pure ascii

def bracketed? : List Char → Option (Except UrlFault (List Char))
  | '[' :: rest =>
    if rest.getLast? = some ']' then
      match ipv6? rest.dropLast with
      | some groups => some (.ok ('[' :: ipv6Text groups ++ [']']))
      | none => some (.error .invalidIpv6)
    else some (.error .invalidIpv6)
  | _ => none

def special (text : List Char) : Except UrlFault (List Char) :=
  match bracketed? text with
  | some result => result
  | none => do
    let decoded ← match Text.utf8Decode (Text.percentDecode text) with
      | .ok cs => pure cs
      | .error _ => .error .invalidInternationalName
    let ascii ← domain decoded
    if endsInNumber ascii then
      match ipv4? ascii with
      | some address => pure (ipv4Text address)
      | none => .error .invalidIpv4
    else pure ascii

def opaqueText (text : List Char) : Except UrlFault (List Char) :=
  match bracketed? text with
  | some result => result
  | none =>
    if text.any isForbidden then .error .invalidDomainCharacter
    else .ok (Text.percentEncode (fun c => c.toNat ≤ 0x1f || c.toNat = 0x7f) text)

end Host

end EventAdmission
