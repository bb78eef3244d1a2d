import EventAdmission.Unicode.LowerCase

/-!
# Letters that differ in case only

Each character has one representative: its lower case, or for a few old forms
the letter they stand for. Characters with one representative are variants of
each other.
-/

namespace EventAdmission.Unicode

/-- Lower-case forms that are variants of another lower-case letter. -/
def foldRuns : List CaseRun :=
  [⟨181, 181, 1, 775⟩, ⟨383, 383, 1, -268⟩, ⟨837, 837, 1, 116⟩, ⟨962, 962, 1, 1⟩,
   ⟨976, 976, 1, -30⟩, ⟨977, 977, 1, -25⟩, ⟨981, 981, 1, -15⟩, ⟨982, 982, 1, -22⟩,
   ⟨1008, 1008, 1, -54⟩, ⟨1009, 1009, 1, -48⟩, ⟨1013, 1013, 1, -64⟩, ⟨7296, 7296, 1, -6222⟩,
   ⟨7297, 7297, 1, -6221⟩, ⟨7298, 7298, 1, -6212⟩, ⟨7299, 7299, 1, -6210⟩,
   ⟨7300, 7300, 1, -6210⟩, ⟨7301, 7301, 1, -6211⟩, ⟨7302, 7302, 1, -6204⟩,
   ⟨7303, 7303, 1, -6180⟩, ⟨7304, 7304, 1, 35267⟩, ⟨7835, 7835, 1, -58⟩, ⟨8126, 8126, 1, -7173⟩,
   ⟨8147, 8147, 1, -7235⟩, ⟨8163, 8163, 1, -7219⟩, ⟨64261, 64261, 1, 1⟩]

def CaseRun.target (run : CaseRun) (code : Nat) : Nat := (code + run.shift).toNat

def CaseRun.source? (run : CaseRun) (target : Nat) : Option Nat :=
  let code := (target - run.shift).toNat
  if run.covers code && run.target code == target then some code else none

def foldingRuns : List CaseRun := foldRuns ++ caseRuns

def representative (code : Nat) : Nat :=
  match foldingRuns.find? (·.covers code) with
  | some run => run.target code
  | none => code

/-- All characters that differ from this one in case only, itself among them. -/
def caseVariants (code : Nat) : List Nat :=
  let target := representative code
  target :: foldingRuns.filterMap (·.source? target)

end EventAdmission.Unicode
