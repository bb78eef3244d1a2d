import EventAdmission.Json.Basic

/-!
# Equalities of JSON values

`Json.equal` compares as stored: numbers of different kinds differ, and so `1`
is not `1.0`, but the two float zeros agree. `Json.sameMeaning` compares numbers
by their mathematical values, at every depth.
-/

namespace EventAdmission

namespace Number

/-- Equality within one kind. -/
def equal : Number → Number → Bool
  | natural a, natural b => a == b
  | negative a, negative b => a == b
  | float a, float b => a.sameValue b
  | _, _ => false

/-- Equality of mathematical values. -/
def sameMeaning (a b : Number) : Bool := a.toFraction.eq b.toFraction

end Number

namespace Json

mutual

def equalBy (same : Number → Number → Bool) : Json → Json → Bool
  | null, null => true
  | bool a, bool b => a == b
  | num a, num b => same a b
  | str a, str b => a == b
  | arr xs, arr ys => equalItemsBy same xs ys
  | obj xs, obj ys => equalMembersBy same xs ys
  | _, _ => false

def equalItemsBy (same : Number → Number → Bool) : List Json → List Json → Bool
  | [], [] => true
  | x :: xs, y :: ys => equalBy same x y && equalItemsBy same xs ys
  | _, _ => false

def equalMembersBy (same : Number → Number → Bool) :
    List (String × Json) → List (String × Json) → Bool
  | [], [] => true
  | (k, x) :: xs, (l, y) :: ys => k == l && equalBy same x y && equalMembersBy same xs ys
  | _, _ => false

end

/-- Equality as stored. -/
def equal : Json → Json → Bool := equalBy Number.equal

/-- Equality that reads numbers by their values. -/
def sameMeaning : Json → Json → Bool := equalBy Number.sameMeaning

def hasRepeat (same : Json → Json → Bool) : List Json → Bool
  | [] => false
  | x :: xs => xs.any (same x) || hasRepeat same xs

/-- Whether all items differ. Short lists compare numbers by value, long ones are told apart
by identity. -/
def allDistinct (items : List Json) : Bool :=
  if items.length < 16 then !hasRepeat sameMeaning items else !hasRepeat identical items

end Json

end EventAdmission
