import EventAdmission.Proofs.Pipeline
import EventAdmission.Proofs.Schema.Quotes

/-!
# A line for each violation

A publisher is to be told each violation in a line of its own, below their number if
there are several. `violations_lines`: that is so exactly if none of the texts that the
violations quote has a line feed in it. A string of an event that has one is quoted as
it is, and what stands behind the line feed looks like a violation (`forgedNote_lines`).
-/

namespace EventAdmission

open Text

variable {vs : List Violation} {r : Rejection} {c : CompiledSchema} {x : Json}

def headline (n : Nat) : String := "#: " ++ toString n ++ " schema violations found"

/-- A line for each violation, below the headline if there are several. -/
def report (vs : List Violation) : List String :=
  if vs.length = 1 then vs.map Violation.text else headline vs.length :: vs.map Violation.text

theorem oneLine_headline {n : Nat} : OneLine (headline n) := by
  simp +decide [headline]

theorem lines_ofViolations (h : Rejection.ofViolations vs = some r) :
    lines r.message = (report vs).flatMap lines := by
  match vs with
  | [] => cases h
  | [v] =>
    cases h
    simp [report]
  | v :: w :: rest =>
    cases h
    have htexts : ((v :: w :: rest).map fun v => "\n" ++ v.text) =
        ((v :: w :: rest).map Violation.text).map ("\n" ++ ·) := by simp
    have hreport : report (v :: w :: rest) =
        headline (v :: w :: rest).length :: (v :: w :: rest).map Violation.text :=
      if_neg (by simp)
    rw [hreport, List.flatMap_cons, ← lines_join, ← htexts, headline]

theorem lines_eq_report (h : Rejection.ofViolations vs = some r) :
    lines r.message = report vs ↔ ∀ v ∈ vs, OneLine v.text := by
  rw [lines_ofViolations h, flatMap_lines, report]
  split
  · rw [List.forall_mem_map]
  · rw [List.forall_mem_cons, List.forall_mem_map, and_iff_right oneLine_headline]

/-- The rejection of an event is its report, line by line, exactly if no quote of a violation has a
line feed. Only the strings and keys of the event, texts of the schema and references can have one. -/
theorem violations_lines (hv : c.violations x = some vs)
    (hr : (EventCheck.conforms c).run x = some r) :
    lines r.message = (report vs).flatMap lines ∧
      ∃ fs, Evaluation.faults c.corpus c.scope x = some fs ∧ vs = fs.flatMap Fault.violations ∧
        (lines r.message = report vs ↔ ∀ f ∈ fs, ∀ text ∈ f.quotes, OneLine text) ∧
        (x.IsPlain → (∀ rule, c.Asks rule → ∀ text ∈ rule.texts, OneLine text) →
          (∀ f, c.Misses f → ∀ text ∈ f.quotes, OneLine text) → lines r.message = report vs) := by
  have hmessage : Rejection.ofViolations vs = some r := by
    rw [EventCheck.run, hv] at hr
    exact hr
  obtain ⟨fs, hfs, rfl⟩ := Option.map_eq_some_iff.mp hv
  have hiff : lines r.message = report (fs.flatMap Fault.violations) ↔
      ∀ f ∈ fs, ∀ text ∈ f.quotes, OneLine text := by
    rw [lines_eq_report hmessage]
    simp only [List.mem_flatMap, forall_exists_index, and_imp]
    constructor
    · intro h f hf
      apply (Fault.oneLine_violations (faultLaw_told.faults hfs f hf)).mp
      exact fun v hv => h v f hf hv
    · intro h v f hf hv
      exact (Fault.oneLine_violations (faultLaw_told.faults hfs f hf)).mpr (h f hf) v hv
  refine ⟨lines_ofViolations hmessage, fs, hfs, rfl, hiff, ?_⟩
  intro hx hrules hmisses
  apply hiff.mpr
  intro f hf
  exact (c.found hfs f hf).oneLine_quotes hrules hmisses hx (List.forall_mem_nil _)

def listedNote : Json :=
  .obj [("additionalProperties", .bool false),
    ("properties", .obj [("op", .obj [("enum", .strings ["C"])])])]

def forgedNote : Json := .obj [("extra", .null), ("op", .str "X\n#/metadata/eid: forged")]

def forgedViolations : List Violation :=
  [⟨"/op", "X\n#/metadata/eid: forged is not a valid enum value"⟩,
    ⟨"", "extraneous key [extra] is not permitted"⟩]

theorem forgedNote_violations : (Schema.compile .draft7 listedNote).toOption.bind
    (fun c => c.violations forgedNote) = some forgedViolations := by
  decide +kernel

/-- Two violations in four lines, one of which is about metadata that the note does not have. -/
theorem forgedNote_lines : ∃ c r, Schema.compile .draft7 listedNote = .ok c ∧
    c.violations forgedNote = some forgedViolations ∧
    (EventCheck.conforms c).run forgedNote = some r ∧
    lines r.message = ["#: 2 schema violations found", "#/op: X",
      "#/metadata/eid: forged is not a valid enum value",
      "#: extraneous key [extra] is not permitted"] ∧
    lines r.message ≠ report forgedViolations := by
  obtain ⟨c, hc, hv⟩ := Option.bind_eq_some_iff.mp forgedNote_violations
  obtain ⟨r, hr⟩ : ∃ r, (EventCheck.conforms c).run forgedNote = some r := by
    rw [EventCheck.run, hv]
    exact ⟨_, rfl⟩
  obtain ⟨hlines, -⟩ := violations_lines hv hr
  have hall : (report forgedViolations).flatMap lines = ["#: 2 schema violations found", "#/op: X",
      "#/metadata/eid: forged is not a valid enum value",
      "#: extraneous key [extra] is not permitted"] := by
    decide +kernel
  refine ⟨c, r, toOption_eq_some.mp hc, hv, hr, hlines.trans hall, ?_⟩
  rw [hlines, hall]
  decide +kernel

end EventAdmission
