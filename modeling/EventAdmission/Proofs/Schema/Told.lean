import EventAdmission.Proofs.Schema.Discovery

/-!
# Every fault is told

A fault with a list of unexpected properties becomes one violation for each, so
it would be lost if the list were empty. `violations_eq_nil`: that never
happens, so a document without violations has no faults.
-/

namespace EventAdmission

theorem Fault.violations_ne_nil {f : Fault} (h : f.cause.isTold = true) : f.violations ≠ [] := by
  rw [Fault.violations, Ne, List.map_eq_nil_iff, Fault.reasons]
  split
  case h_2 keys hcause =>
    cases keys with
    | nil => simp [hcause, Cause.isTold] at h
    | cons key keys => simp
  all_goals simp

theorem faultLaw_told : FaultLaw fun _ _ f => f.cause.isTold = true where
  here h := h
  first := rfl
  broken h := h.2
  item _ h := h
  member _ h := h

/-- A document without violations has no faults. -/
theorem CompiledSchema.violations_eq_nil {c : CompiledSchema} {x : Json} :
    c.violations x = some [] ↔ Evaluation.faults c.corpus c.scope x = some [] := by
  rw [violations, Option.map_eq_some_iff]
  constructor
  · rintro ⟨faults, hfaults, hnil⟩
    have htold := faultLaw_told.faults hfaults
    cases faults with
    | nil => exact hfaults
    | cons f rest =>
      have hf := List.flatMap_eq_nil_iff.mp hnil f (by simp)
      exact absurd hf (Fault.violations_ne_nil (htold f (by simp)))
  · intro h
    exact ⟨[], h, rfl⟩

end EventAdmission
