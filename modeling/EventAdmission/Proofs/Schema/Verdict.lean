import EventAdmission.Proofs.Schema.Ending

/-!
# The verdict and the faults

An evaluation that only looks for the first fault finds one if and only if there
are any (`judged_faultsWithin`). So a choice between schemas, which asks for
verdicts, is passed if the value passes one of the schemas (`memberFaults_anyOf`).
-/

namespace EventAdmission.Evaluation

variable {α : Type} {corpus : Corpus} {sub : Evaluator} {scope : Scope} {s x : Json}
  {members siblings : Members} {path : Path} {rule : Rule} {steps : Nat}

def Agree (r r' : Option (List Fault)) : Prop := r = some [] ↔ r' = some []

theorem agree_self {r : Option (List Fault)} : Agree r r := Iff.rfl

theorem agree_inOrder {check check' : α → Option (List Fault)} {xs : List α}
    (h : ∀ x ∈ xs, Agree (check x) (check' x)) :
    Agree (inOrder .verdict check xs) (inOrder .faults check' xs) := by
  rw [Agree, inOrder_eq_nil, inOrder_eq_nil]
  exact forall₂_congr h

theorem agree_bind {r : Option α} {f f' : α → Option (List Fault)} (h : ∀ a, Agree (f a) (f' a)) :
    Agree (r >>= f) (r >>= f') := by
  cases r with
  | none => exact agree_self
  | some a => exact h a

theorem agree_bind_faults {r r' : Option (List Fault)} {f : List Fault → Option (List Fault)}
    (h : Agree r r') (hf : ∀ fs, f fs = some [] → fs = []) : Agree (r >>= f) (r' >>= f) := by
  have hside : ∀ {r : Option (List Fault)}, r >>= f = some [] ↔ r = some [] ∧ f [] = some [] := by
    intro r
    rw [Option.bind_eq_bind, Option.bind_eq_some_iff]
    constructor
    · rintro ⟨fs, hr, hfs⟩
      obtain rfl := hf fs hfs
      exact ⟨hr, hfs⟩
    · rintro ⟨hr, hfs⟩
      exact ⟨[], hr, hfs⟩
  rw [Agree, hside, hside]
  exact and_congr_left fun _ => h

-- ---------------------------------------------------------------------------
-- Rules
-- ---------------------------------------------------------------------------

/-- The verdict on a value is that there are no faults, if there are none. -/
def Judged (sub : Evaluator) : Prop :=
  ∀ scope s x path, Agree (sub .verdict scope s x path) (sub .faults scope s x path)

theorem agree_closedFaults {named : Option Members} {patterns : Option (List KeyPattern)}
    {rest : Remainder} (h : Judged sub) :
    Agree (closedFaults sub .verdict scope named patterns rest members x path)
      (closedFaults sub .faults scope named patterns rest members x path) := by
  cases members with
  | nil => exact agree_self
  | cons e members =>
    refine agree_bind_faults (agree_inOrder fun e _ => agree_inOrder fun s _ => h _ s _ _) ?_
    intro fs hfs
    split at hfs
    · exact Option.some.inj hfs
    · split at hfs
      · cases hfs
      · split at hfs
        · exact Option.some.inj hfs
        · simp at hfs

theorem agree_nameFaults (h : Judged sub) :
    Agree (nameFaults sub .verdict scope s members x path)
      (nameFaults sub .faults scope s members x path) := by
  unfold nameFaults
  split
  · exact agree_self
  · exact agree_inOrder fun key _ => agree_bind_faults (h _ _ _ _) fun fs hfs =>
      List.map_eq_nil_iff.mp (Option.some.inj hfs)

theorem agree_ruleFaults (h : Judged sub) :
    Agree (ruleFaults sub .verdict scope rule x path) (ruleFaults sub .faults scope rule x path) := by
  unfold ruleFaults
  dsimp only
  split
  case h_14 =>
    refine agree_inOrder fun e _ => ?_
    split
    · exact agree_self
    · exact h _ _ _ _
  case h_15 =>
    refine agree_inOrder fun e _ => ?_
    split
    · exact h _ _ _ _
    · exact agree_self
  case h_16 => exact agree_inOrder fun p _ => agree_inOrder fun e _ => agree_inOrder fun s _ => h _ s _ _
  case h_17 => exact agree_closedFaults h
  case h_18 => exact agree_nameFaults h
  case h_19 | h_20 | h_21 => exact agree_inOrder fun e _ => h _ _ _ _
  case h_25 => exact agree_inOrder fun s _ => h _ s _ _
  case h_29 =>
    refine agree_bind fun valid => ?_
    split
    · exact h _ _ _ _
    · exact agree_self
  all_goals exact agree_self

-- ---------------------------------------------------------------------------
-- Schemas
-- ---------------------------------------------------------------------------

theorem judged_faultsWithin : Judged (faultsWithin corpus steps) := by
  induction steps with
  | zero => exact fun _ _ _ _ => agree_self
  | succ steps ih =>
    intro scope s x path
    cases s with
    | obj members =>
      rw [faultsWithin]
      cases href : Keyed.find? members "$ref" with
      | none =>
        rw [schemaFaults_obj href, schemaFaults_obj href]
        refine agree_inOrder fun e _ => ?_
        unfold memberFaults
        split
        · exact agree_ruleFaults ih
        · exact agree_self
      | some r =>
        cases r with
        | str reference =>
          rw [schemaFaults_ref href, schemaFaults_ref href]
          split
          · exact ih _ _ _ _
          · exact agree_self
        | _ =>
          simp only [schemaFaults, href]
          exact agree_self
    | bool b => cases b <;> exact agree_self
    | _ => exact agree_self

theorem isValid_iff : isValid (faultsWithin corpus steps) scope s x = some true ↔
    Passes corpus steps scope s x [] := by
  have hagree : faultsWithin corpus steps .verdict scope s x [] = some [] ↔
      Passes corpus steps scope s x [] := judged_faultsWithin scope s x []
  rw [← hagree, isValid]
  cases faultsWithin corpus steps .verdict scope s x [] with
  | none => simp
  | some fs => simp

theorem memberFaults_anyOf {first second : Json} {goal : Goal} (path : Path)
    (h : (isValid sub scope first x).isSome) :
    memberFaults sub goal scope siblings x path ("anyOf", .arr [first, second]) = some [] ↔
      isValid sub scope first x = some true ∨ isValid sub scope second x = some true := by
  have hrule : Rule.ofMember scope.draft siblings "anyOf" (.arr [first, second]) =
      .ok (some (.any [first, second])) := rfl
  obtain ⟨valid, hvalid⟩ := Option.isSome_iff_exists.mp h
  rw [memberFaults, hrule]
  simp only [ruleFaults, behindFirstValid, hvalid]
  cases valid with
  | true => simp
  | false =>
    cases isValid sub scope second x with
    | none => simp
    | some valid => cases valid <;> simp [faultUnless]

end EventAdmission.Evaluation
