import EventAdmission.EventType.Basic

/-!
# What equality of snapshots leaves out

Equality as stored follows the structure of two values and looks at their
numbers. `equal_iff`: all that it leaves out is the sign of a float zero. So it
is an equality after all, of values whose zeros have lost their signs, and the
same holds of event types.
-/

namespace EventAdmission

/-- The double, a zero without its sign. -/
def Binary64.unsigned (x : Binary64) : Binary64 := if x.isZero then zero false else x

theorem Binary64.sameValue_iff {x y : Binary64} :
    x.sameValue y = true ↔ x.unsigned = y.unsigned := by
  have hzero : (zero false).isZero = true := rfl
  simp only [sameValue, unsigned, Bool.or_eq_true, beq_iff_eq, Bool.and_eq_true]
  cases hx : x.isZero with
  | true =>
    cases hy : y.isZero with
    | true => simp
    | false =>
      refine iff_of_false ?_ ?_
      · rintro (rfl | ⟨-, ⟨⟩⟩)
        simp [hx] at hy
      · rintro rfl
        simp [hzero] at hy
  | false =>
    cases hy : y.isZero with
    | true =>
      refine iff_of_false ?_ ?_
      · rintro (rfl | ⟨⟨⟩, -⟩)
        simp [hx] at hy
      · rintro rfl
        simp [hzero] at hx
    | false => simp

def Number.unsigned : Number → Number
  | float x => float x.unsigned
  | n => n

theorem Number.equal_iff {m n : Number} : m.equal n = true ↔ m.unsigned = n.unsigned := by
  cases m <;> cases n <;> simp [equal, unsigned, Binary64.sameValue_iff]

namespace Json

mutual

def mapNumbers (f : Number → Number) : Json → Json
  | num n => num (f n)
  | arr items => arr (mapItemNumbers f items)
  | obj members => obj (mapMemberNumbers f members)
  | x => x

def mapItemNumbers (f : Number → Number) : List Json → List Json
  | [] => []
  | x :: xs => mapNumbers f x :: mapItemNumbers f xs

def mapMemberNumbers (f : Number → Number) : List (String × Json) → List (String × Json)
  | [] => []
  | (k, x) :: xs => (k, mapNumbers f x) :: mapMemberNumbers f xs

end

variable {same : Number → Number → Bool} {f : Number → Number}

mutual

/-- Values that differ in nothing but numbers that count as the same. -/
theorem equalBy_iff (h : ∀ m n, same m n = true ↔ f m = f n) : (x y : Json) →
    equalBy same x y = true ↔ mapNumbers f x = mapNumbers f y
  | null, y => by cases y <;> simp [equalBy, mapNumbers]
  | bool _, y => by cases y <;> simp [equalBy, mapNumbers]
  | num _, y => by cases y <;> simp [equalBy, mapNumbers, h]
  | str _, y => by cases y <;> simp [equalBy, mapNumbers]
  | arr xs, y => by cases y <;> simp [equalBy, mapNumbers, equalItemsBy_iff h xs]
  | obj xs, y => by cases y <;> simp [equalBy, mapNumbers, equalMembersBy_iff h xs]

theorem equalItemsBy_iff (h : ∀ m n, same m n = true ↔ f m = f n) : (xs ys : List Json) →
    equalItemsBy same xs ys = true ↔ mapItemNumbers f xs = mapItemNumbers f ys
  | [], ys => by cases ys <;> simp [equalItemsBy, mapItemNumbers]
  | x :: xs, ys => by
    cases ys with
    | nil => simp [equalItemsBy, mapItemNumbers]
    | cons y ys => simp [equalItemsBy, mapItemNumbers, equalBy_iff h x y, equalItemsBy_iff h xs ys]

theorem equalMembersBy_iff (h : ∀ m n, same m n = true ↔ f m = f n) :
    (xs ys : List (String × Json)) →
    equalMembersBy same xs ys = true ↔ mapMemberNumbers f xs = mapMemberNumbers f ys
  | [], ys => by cases ys <;> simp [equalMembersBy, mapMemberNumbers]
  | (k, x) :: xs, ys => by
    cases ys with
    | nil => simp [equalMembersBy, mapMemberNumbers]
    | cons e ys =>
      obtain ⟨l, y⟩ := e
      simp [equalMembersBy, mapMemberNumbers, equalBy_iff h x y, equalMembersBy_iff h xs ys]

end

def unsigned (x : Json) : Json := x.mapNumbers Number.unsigned

theorem equal_iff {x y : Json} : x.equal y = true ↔ x.unsigned = y.unsigned := by
  have h : ∀ m n : Number, m.equal n = true ↔ m.unsigned = n.unsigned := fun _ _ => Number.equal_iff
  exact equalBy_iff h x y

end Json

namespace EventType

def unsigned (t : EventType) : EventType := { t with schema := t.schema.unsigned }

theorem equal_iff {a b : EventType} : a.equal b = true ↔ a.unsigned = b.unsigned := by
  cases a
  cases b
  simp [equal, unsigned, Json.equal_iff, and_assoc]

end EventType

end EventAdmission
