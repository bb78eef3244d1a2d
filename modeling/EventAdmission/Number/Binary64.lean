/-!
# Binary floating point

The finite numbers of the 64-bit binary interchange format, held by their
fields. Comparison is exact, on fractions; arithmetic rounds the exact result
once, to nearest with ties to even. Infinities and NaN are no values here: an
operation whose result would overflow gives `none`.
-/

namespace EventAdmission

-- Powers of natural numbers are the ones of the core library, also where an algebra library brings
-- along its own.
attribute [default_instance high, instance (high)] instPowNat

/-- A fraction with a sign, not necessarily in lowest terms. -/
structure Fraction where
  num : Int
  den : Nat
deriving DecidableEq

namespace Fraction

def ofInt (n : Int) : Fraction := ⟨n, 1⟩

/-- Cross multiplication; both denominators are positive wherever this is used. -/
def le (x y : Fraction) : Bool := x.num * y.den ≤ y.num * x.den

def lt (x y : Fraction) : Bool := x.num * y.den < y.num * x.den

def eq (x y : Fraction) : Bool := x.num * y.den == y.num * x.den

def isWhole (x : Fraction) : Bool := x.num % x.den == 0

/-- Whether `x / y` is a whole number; never so for `y = 0`. -/
def divides (y x : Fraction) : Bool :=
  y.num != 0 && (x.num * y.den) % (y.num * x.den) == 0

end Fraction

def roundHalfEven (n d : Nat) : Nat :=
  let q := n / d
  let r := n % d
  if 2 * r < d then q
  else if d < 2 * r then q + 1
  else if q % 2 = 0 then q else q + 1

/-- A finite double: its sign, biased exponent and fraction field. -/
structure Binary64 where
  negative : Bool
  exponent : Fin 2047
  fraction : Fin (2 ^ 52)
deriving DecidableEq

namespace Binary64

def zero (negative : Bool) : Binary64 := ⟨negative, 0, 0⟩

/-- The whole-number significand, with the leading bit of a normal number. -/
def significand (x : Binary64) : Nat :=
  if x.exponent.val = 0 then x.fraction.val else 2 ^ 52 + x.fraction.val

/-- The power of two that the significand counts. -/
def unit (x : Binary64) : Int :=
  if x.exponent.val = 0 then -1074 else x.exponent.val - 1075

def magnitude (x : Binary64) : Nat × Nat :=
  if 0 ≤ x.unit then (x.significand * 2 ^ x.unit.toNat, 1)
  else (x.significand, 2 ^ (-x.unit).toNat)

def isZero (x : Binary64) : Bool := x.significand == 0

def toFraction (x : Binary64) : Fraction :=
  let (n, d) := x.magnitude
  ⟨if x.negative then -(n : Int) else n, d⟩

def sameValue (x y : Binary64) : Bool := x == y || (x.isZero && y.isZero)

/-- The power of two at or below `n / d`, for positive `n` and `d`. -/
def binaryExponent (n d : Nat) : Int :=
  let e : Int := (n.log2 : Int) - d.log2
  let reached := if 0 ≤ e then d * 2 ^ e.toNat ≤ n else d ≤ n * 2 ^ (-e).toNat
  if reached then e else e - 1

/-- A significand of at most 53 bits counted in units of `2 ^ unit`. -/
def ofSignificand (negative : Bool) (m : Nat) (unit : Int) : Option Binary64 :=
  if m < 2 ^ 52 then some ⟨negative, 0, Fin.ofNat _ m⟩
  else
    let biased := (unit + 1075).toNat
    if h : biased < 2047 then some ⟨negative, ⟨biased, h⟩, Fin.ofNat _ (m - 2 ^ 52)⟩ else none

/-- The double nearest to `n / d`, for positive `d`; `none` when it overflows. -/
def ofQuotient (negative : Bool) (n d : Nat) : Option Binary64 :=
  if n = 0 then some (zero negative)
  else
    let unit := max (binaryExponent n d - 52) (-1074)
    let m := if 0 ≤ unit then roundHalfEven n (d * 2 ^ unit.toNat)
      else roundHalfEven (n * 2 ^ (-unit).toNat) d
    if m = 2 ^ 53 then ofSignificand negative (2 ^ 52) (unit + 1)
    else ofSignificand negative m unit

def ofNat (n : Nat) : Option Binary64 := ofQuotient false n 1

def neg (x : Binary64) : Binary64 := { x with negative := !x.negative }

def mul? (x y : Binary64) : Option Binary64 :=
  ofQuotient (x.negative != y.negative) (x.magnitude.1 * y.magnitude.1)
    (x.magnitude.2 * y.magnitude.2)

/-- `none` also for a zero divisor. -/
def div? (x y : Binary64) : Option Binary64 :=
  if y.isZero then none
  else ofQuotient (x.negative != y.negative) (x.magnitude.1 * y.magnitude.2)
    (x.magnitude.2 * y.magnitude.1)

def distance? (x y : Binary64) : Option Binary64 :=
  let a := x.toFraction
  let b := y.toFraction
  ofQuotient false (a.num * b.den - b.num * a.den).natAbs (a.den * b.den)

def fractionalPart (x : Binary64) : Fraction :=
  let (n, d) := x.magnitude
  let rest : Int := n % d
  ⟨if x.negative then -rest else rest, d⟩

end Binary64

end EventAdmission
