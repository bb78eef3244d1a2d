import EventAdmission.Keyed
import EventAdmission.Number.Binary64

/-!
# JSON values

Numbers come in three kinds that stay apart: natural numbers below `2 ^ 64`,
negative integers down to `-2 ^ 63`, and doubles. The members of an object are
sorted by key. `Json.Canonical` says so at every depth; the reader and all
operations of this library build canonical values.
-/

namespace EventAdmission

inductive Number where
  | natural : UInt64 → Number
  /-- Stands for `-(n + 1)`. -/
  | negative : Fin (2 ^ 63) → Number
  | float : Binary64 → Number
deriving DecidableEq

namespace Number

def toFraction : Number → Fraction
  | natural n => Fraction.ofInt n.toNat
  | negative n => Fraction.ofInt (-(n.val + 1 : Int))
  | float x => x.toFraction

/-- The nearest double; every integer kind is far below the overflow. -/
def toBinary64 : Number → Binary64
  | natural n => (Binary64.ofNat n.toNat).getD (Binary64.zero false)
  | negative n => ((Binary64.ofNat (n.val + 1)).getD (Binary64.zero false)).neg
  | float x => x

def isFloat : Number → Bool
  | float _ => true
  | _ => false

/-- Mathematical order, across the kinds. -/
def le (a b : Number) : Bool := a.toFraction.le b.toFraction

def lt (a b : Number) : Bool := a.toFraction.lt b.toFraction

def ofNat (n : Nat) : Number := natural (UInt64.ofNat n)

end Number

inductive Json where
  | null : Json
  | bool : Bool → Json
  | num : Number → Json
  | str : String → Json
  | arr : List Json → Json
  | obj : List (String × Json) → Json
deriving Inhabited

abbrev Members := Keyed Json

namespace Json

-- ---------------------------------------------------------------------------
-- Identity
-- ---------------------------------------------------------------------------

mutual

/-- Identity of values; unlike equality it tells the two float zeros apart. -/
def identical : Json → Json → Bool
  | null, null => true
  | bool a, bool b => a == b
  | num a, num b => a == b
  | str a, str b => a == b
  | arr xs, arr ys => identicalItems xs ys
  | obj xs, obj ys => identicalMembers xs ys
  | _, _ => false

def identicalItems : List Json → List Json → Bool
  | [], [] => true
  | x :: xs, y :: ys => identical x y && identicalItems xs ys
  | _, _ => false

def identicalMembers : List (String × Json) → List (String × Json) → Bool
  | [], [] => true
  | (k, x) :: xs, (l, y) :: ys => k == l && identical x y && identicalMembers xs ys
  | _, _ => false

end

mutual

theorem eq_of_identical : (x y : Json) → identical x y = true → x = y
  | null, y, h => by cases y <;> simp_all [identical]
  | bool _, y, h => by cases y <;> simp_all [identical]
  | num _, y, h => by cases y <;> simp_all [identical]
  | str _, y, h => by cases y <;> simp_all [identical]
  | arr xs, y, h => by
    cases y with
    | arr ys => rw [eq_of_identicalItems xs ys (by simpa [identical] using h)]
    | _ => simp [identical] at h
  | obj xs, y, h => by
    cases y with
    | obj ys => rw [eq_of_identicalMembers xs ys (by simpa [identical] using h)]
    | _ => simp [identical] at h

theorem eq_of_identicalItems : (xs ys : List Json) → identicalItems xs ys = true → xs = ys
  | [], ys, h => by cases ys <;> simp_all [identicalItems]
  | x :: xs, ys, h => by
    cases ys with
    | nil => simp [identicalItems] at h
    | cons y ys =>
      simp only [identicalItems, Bool.and_eq_true] at h
      rw [eq_of_identical x y h.1, eq_of_identicalItems xs ys h.2]

theorem eq_of_identicalMembers :
    (xs ys : List (String × Json)) → identicalMembers xs ys = true → xs = ys
  | [], ys, h => by cases ys <;> simp_all [identicalMembers]
  | (k, x) :: xs, ys, h => by
    cases ys with
    | nil => simp [identicalMembers] at h
    | cons e ys =>
      obtain ⟨l, y⟩ := e
      simp only [identicalMembers, Bool.and_eq_true, beq_iff_eq] at h
      rw [h.1.1, eq_of_identical x y h.1.2, eq_of_identicalMembers xs ys h.2]

end

mutual

theorem identical_self : (x : Json) → identical x x = true
  | null => rfl
  | bool _ => by simp [identical]
  | num _ => by simp [identical]
  | str _ => by simp [identical]
  | arr xs => by simp [identical, identicalItems_self xs]
  | obj xs => by simp [identical, identicalMembers_self xs]

theorem identicalItems_self : (xs : List Json) → identicalItems xs xs = true
  | [] => rfl
  | x :: xs => by simp [identicalItems, identical_self x, identicalItems_self xs]

theorem identicalMembers_self : (xs : List (String × Json)) → identicalMembers xs xs = true
  | [] => rfl
  | (k, x) :: xs => by simp [identicalMembers, identical_self x, identicalMembers_self xs]

end

instance : DecidableEq Json := fun x y =>
  if h : identical x y = true then isTrue (eq_of_identical x y h)
  else isFalse fun e => h (e ▸ identical_self x)

-- ---------------------------------------------------------------------------
-- Parts
-- ---------------------------------------------------------------------------

def str? : Json → Option String
  | str s => some s
  | _ => none

def arr? : Json → Option (List Json)
  | arr items => some items
  | _ => none

def obj? : Json → Option Members
  | obj members => some members
  | _ => none

def member? : Json → String → Option Json
  | obj members, key => Keyed.find? members key
  | _, _ => none

def isObj : Json → Bool
  | obj _ => true
  | _ => false

def ofNat (n : Nat) : Json := num (Number.ofNat n)

/-- An object from its members in any order, the last of a key counting. -/
def ofMembers (members : List (String × Json)) : Json := obj (Keyed.ofList members)

def strings (names : List String) : Json := arr (names.map str)

-- ---------------------------------------------------------------------------
-- Measures
-- ---------------------------------------------------------------------------

mutual

/-- The number of values in a document, itself included. -/
def size : Json → Nat
  | arr items => 1 + sizeItems items
  | obj members => 1 + sizeMembers members
  | _ => 1

def sizeItems : List Json → Nat
  | [] => 0
  | x :: xs => size x + sizeItems xs

def sizeMembers : List (String × Json) → Nat
  | [] => 0
  | (_, x) :: xs => size x + sizeMembers xs

end

mutual

/-- The number of levels of a document, a scalar having one. -/
def depth : Json → Nat
  | arr items => 1 + depthItems items
  | obj members => 1 + depthMembers members
  | _ => 1

def depthItems : List Json → Nat
  | [] => 0
  | x :: xs => max (depth x) (depthItems xs)

def depthMembers : List (String × Json) → Nat
  | [] => 0
  | (_, x) :: xs => max (depth x) (depthMembers xs)

end

-- ---------------------------------------------------------------------------
-- Canonical values
-- ---------------------------------------------------------------------------

mutual

/-- Every object has its keys in order, each once. -/
def Canonical : Json → Prop
  | arr items => CanonicalItems items
  | obj members => Keyed.Sorted members ∧ CanonicalMembers members
  | _ => True

def CanonicalItems : List Json → Prop
  | [] => True
  | x :: xs => Canonical x ∧ CanonicalItems xs

def CanonicalMembers : List (String × Json) → Prop
  | [] => True
  | (_, x) :: xs => Canonical x ∧ CanonicalMembers xs

end

end Json

end EventAdmission
