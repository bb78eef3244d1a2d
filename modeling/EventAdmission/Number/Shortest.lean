import EventAdmission.Number.Binary64

/-!
# Shortest decimal text

The decimal digits of a double are the fewest that read back as the same
double, and of those the nearest to it. A style then decides where positional
writing ends. All arithmetic is on natural numbers.
-/

namespace EventAdmission

/-- `digits * 10 ^ exponent`. -/
structure Decimal where
  digits : Nat
  exponent : Int
deriving DecidableEq

namespace Decimal

def text (d : Decimal) : List Char := Nat.toDigits 10 d.digits

/-- The power of ten of the leading digit. -/
def order (d : Decimal) : Int := d.exponent + d.text.length - 1

def trim : (fuel : Nat) → Decimal → Decimal
  | 0, d => d
  | fuel + 1, d =>
    if d.digits ≠ 0 ∧ d.digits % 10 = 0 then trim fuel ⟨d.digits / 10, d.exponent + 1⟩ else d

def toFraction (d : Decimal) : Fraction :=
  if 0 ≤ d.exponent then ⟨d.digits * 10 ^ d.exponent.toNat, 1⟩
  else ⟨d.digits, 10 ^ (-d.exponent).toNat⟩

end Decimal

namespace Binary64

/-- The power of ten at or below `n / d`, for positive `n` and `d`. -/
def decimalExponent (n d : Nat) : Int :=
  let guess := (((n.log2 : Int) - d.log2) * 30103) / 100000
  let reached (e : Int) : Bool :=
    if 0 ≤ e then d * 10 ^ e.toNat ≤ n else d ≤ n * 10 ^ (-e).toNat
  if reached (guess + 1) then guess + 1
  else if reached guess then guess else guess - 1

/-- The reals that round to a double, as quotients over one denominator: the value and the two
ends, which belong to the interval when the significand is even. -/
structure Neighbourhood where
  value : Nat
  low : Nat
  high : Nat
  den : Nat
  closed : Bool

/-- Halfway to the two neighbours. Below a power of two the neighbour is twice as near. -/
def neighbourhood (x : Binary64) : Neighbourhood :=
  let m := x.significand
  let below := if x.fraction.val = 0 ∧ 1 < x.exponent.val then 1 else 2
  let unit := x.unit - 2
  let scale := if 0 ≤ unit then 2 ^ unit.toNat else 1
  { value := 4 * m * scale
    low := (4 * m - below) * scale
    high := (4 * m + 2) * scale
    den := if 0 ≤ unit then 1 else 2 ^ (-unit).toNat
    closed := m % 2 = 0 }

def Neighbourhood.contains (i : Neighbourhood) (n d : Nat) : Bool :=
  if i.closed then i.low * d ≤ n * i.den && n * i.den ≤ i.high * d
  else i.low * d < n * i.den && n * i.den < i.high * d

/-- The nearest multiple of `10 ^ p` that rounds to the double, of the two beside it. -/
def Neighbourhood.onGrid (i : Neighbourhood) (p : Int) : Option Decimal :=
  let (up, down) := if 0 ≤ p then (10 ^ p.toNat, 1) else (1, 10 ^ (-p).toNat)
  let below := (i.value * down) / (i.den * up)
  let rest := (i.value * down) % (i.den * up)
  let keeps (c : Nat) : Bool := i.contains (c * up) down
  let nearer := if 2 * rest < i.den * up then below
    else if i.den * up < 2 * rest then below + 1
    else if below % 2 = 0 then below else below + 1
  let other := if nearer = below then below + 1 else below
  if keeps nearer then some ⟨nearer, p⟩ else if keeps other then some ⟨other, p⟩ else none

/-- The shortest decimal of the magnitude: the first grid with a hit, from one digit on. Seventeen
digits always hit. -/
def shortest (x : Binary64) : Decimal :=
  if x.isZero then ⟨0, 0⟩
  else
    let i := x.neighbourhood
    let top := decimalExponent i.value i.den
    match (List.range 17).findSome? fun (k : Nat) => i.onGrid (top - k) with
    | some d => d.trim 20
    | none => ⟨0, 0⟩

end Binary64

/-- How a double is written: the orders of magnitude that are written without an exponent, and
whether a whole number keeps a `.0`. -/
structure FloatStyle where
  least : Option Int
  most : Option Int
  keepsPoint : Bool

namespace FloatStyle

def json : FloatStyle := ⟨some (-5), some 15, true⟩

/-- A number in running text, always without an exponent. -/
def plain : FloatStyle := ⟨none, none, false⟩

def isPositional (s : FloatStyle) (order : Int) : Bool :=
  s.least.all (· ≤ order) && s.most.all (order ≤ ·)

def positional (s : FloatStyle) (d : Decimal) : List Char :=
  let digits := d.text
  if 0 ≤ d.exponent then
    digits ++ List.replicate d.exponent.toNat '0' ++ (if s.keepsPoint then ['.', '0'] else [])
  else
    let places := (-d.exponent).toNat
    if places < digits.length then
      digits.take (digits.length - places) ++ '.' :: digits.drop (digits.length - places)
    else
      ['0', '.'] ++ List.replicate (places - digits.length) '0' ++ digits

def scientific (d : Decimal) : List Char :=
  let sign := if d.order < 0 then '-' else '+'
  let power := 'e' :: sign :: Nat.toDigits 10 d.order.natAbs
  match d.text with
  | first :: second :: rest => first :: '.' :: second :: rest ++ power
  | digits => digits ++ power

def write (s : FloatStyle) (x : Binary64) : String :=
  let d := x.shortest
  let body := if s.isPositional d.order then s.positional d else scientific d
  String.ofList (if x.negative then '-' :: body else body)

end FloatStyle

end EventAdmission
