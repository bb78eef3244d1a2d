import EventAdmission.Log

/-!
# Steps that may fail

A chain of steps succeeds if each of them does, and the log that it leaves on
the way does not change its result.
-/

namespace EventAdmission

variable {α β ε : Type} {b : β}

theorem isOk_iff {x : Except ε α} : x.isOk = true ↔ ∃ a, x = .ok a := by
  cases x <;> simp [Except.isOk, Except.toBool]

theorem toOption_eq_some {x : Except ε α} {a : α} : x.toOption = some a ↔ x = .ok a := by
  cases x <;> simp [Except.toOption]

theorem bind_ok {x : Except ε α} {f : α → Except ε β} :
    x >>= f = .ok b ↔ ∃ a, x = .ok a ∧ f a = .ok b := by
  cases x <;> simp [bind, Except.bind]

theorem map_ok {x : Except ε α} {f : α → β} : f <$> x = .ok b ↔ ∃ a, x = .ok a ∧ f a = b := by
  cases x <;> simp [Functor.map, Except.map]

theorem map_error {x : Except ε α} {f : α → β} {e : ε} : x.map f = .error e ↔ x = .error e := by
  cases x <;> simp [Except.map]

theorem mapError_error {ε' : Type} {x : Except ε α} {f : ε → ε'} {e : ε'} :
    x.mapError f = .error e ↔ ∃ e', x = .error e' ∧ f e' = e := by
  cases x with
  | error e' =>
    show Except.error (f e') = .error e ↔ _
    simp
  | ok a =>
    show Except.ok a = .error e ↔ _
    simp

theorem mapError_ok {ε' : Type} {x : Except ε α} {f : ε → ε'} {a : α} :
    x.mapError f = .ok a ↔ x = .ok a := by
  cases x with
  | error e =>
    show Except.error (f e) = .ok a ↔ _
    simp
  | ok b =>
    show Except.ok b = .ok a ↔ _
    simp

namespace Logged

theorem result_andThen_ok {x : Logged (Except ε α)} {f : α → Logged (Except ε β)} :
    (x.andThen f).result = .ok b ↔ ∃ a, x.result = .ok a ∧ (f a).result = .ok b := by
  cases h : x.result <;> simp [andThen, h]

theorem result_andThen_error {x : Logged (Except ε α)} {f : α → Logged (Except ε β)} {e : ε} :
    (x.andThen f).result = .error e ↔
      x.result = .error e ∨ ∃ a, x.result = .ok a ∧ (f a).result = .error e := by
  cases h : x.result <;> simp [andThen, h]

@[simp] theorem result_map {x : Logged α} {f : α → β} : (x.map f).result = f x.result := rfl

@[simp] theorem result_silent {a : α} : (silent a).result = a := rfl

theorem records_andThen_ok {x : Logged (Except ε α)} {f : α → Logged (Except ε β)} {a : α}
    (h : x.result = .ok a) : (x.andThen f).records = x.records ++ (f a).records := by
  simp [andThen, h]

theorem records_andThen_error {x : Logged (Except ε α)} {f : α → Logged (Except ε β)} {e : ε}
    (h : x.result = .error e) : (x.andThen f).records = x.records := by
  simp [andThen, h]

@[simp] theorem records_map {x : Logged α} {f : α → β} : (x.map f).records = x.records := rfl

@[simp] theorem records_silent {a : α} : (silent a).records = [] := rfl

end Logged

end EventAdmission
