import EventAdmission.Proofs.DataChange.Envelope
import EventAdmission.Proofs.Schema.Patterns

/-!
# The patterns of a data change schema

The envelope brings two patterns of its own, both that of identifiers, and the
owner's hoisted members come before the others (`patterns_envelope`).
`slowPatterns_dataChange`: to a matcher that takes the pattern of identifiers the
envelope therefore looks like the owner's schema, pattern for pattern.
-/

namespace EventAdmission.Enrichment

open Schema

variable {n : String} {owner head : Members} {accepts : String → Bool}

@[simp] theorem patterns_stringSchema : patterns stringSchema = [] := rfl

@[simp] theorem patterns_uuidSchema : patterns uuidSchema = [uuidPattern] := rfl

@[simp] theorem patterns_enumSchema {names : List String} : patterns (enumSchema names) = [] := by
  rw [enumSchema_eq, patterns_obj, patternsInMembers_cons, patternsInMembers_cons,
    patterns_strings]
  rfl

theorem patterns_metadataSchema : patterns (metadataSchema n) = [uuidPattern, uuidPattern] := by
  simp [metadataSchema_eq, metadataProperties_eq, parentsSchema, spanSchema, memberPatterns_other]

theorem patternsInMembers_head (h : Head owner head) :
    patternsInMembers head = patternsInMembers (hoisted owner) := by
  obtain ⟨front, back, hsplit, rfl⟩ := h.split
  rw [hsplit, patternsInMembers_append, patternsInMembers_append]
  rfl

theorem patterns_envelope (h : Head owner head) :
    patterns (.obj (envelope n owner head)) =
      patternsInMembers (hoisted owner ++ lowered owner) ++ [uuidPattern, uuidPattern] := by
  have hend : patternsInMembers (envelopeEnd n owner) =
      patternsInMembers (lowered owner) ++ patterns (metadataSchema n) := by
    simp [envelopeEnd, fields, memberPatterns_other]
  rw [patterns_obj, envelope, patternsInMembers_append, patternsInMembers_head h, hend,
    patterns_metadataSchema, patternsInMembers_append, List.append_assoc]

theorem hoisted_lowered_perm : (hoisted owner ++ lowered owner).Perm owner :=
  List.filter_append_perm (fun e : String × Json => hoistedKeywords.contains e.1) owner

theorem patternsOutside_envelope (h : Head owner head) (hu : accepts uuidPattern = true) :
    patternsOutside accepts (.obj (envelope n owner head)) =
      patternsOutside accepts (.obj (hoisted owner ++ lowered owner)) := by
  rw [patternsOutside, patterns_envelope h, List.filter_append]
  simp [patternsOutside, hu]

theorem isLinear_uuidPattern : Pattern.isLinear uuidPattern = true := by
  decide +kernel

/-- The patterns of a data change schema that a matcher does not take are those of the owner's
schema, each as often as there, if the matcher takes the pattern of identifiers; and the linear
matcher takes it. -/
theorem slowPatterns_dataChange (schema effective : Json) (n : String)
    (h : enrich .dataChange schema n = .ok effective) :
    (∀ accepts : String → Bool, accepts uuidPattern = true →
      (patternsOutside accepts effective).Perm (patternsOutside accepts schema)) ∧
    (backtrackingPatterns effective).Perm (backtrackingPatterns schema) := by
  obtain ⟨owner, head, rfl, hhead, rfl⟩ := enrich_dataChange_ok h
  have hperm : ∀ accepts : String → Bool, accepts uuidPattern = true →
      (patternsOutside accepts (.obj (envelope n owner head))).Perm
        (patternsOutside accepts (.obj owner)) := by
    intro accepts hu
    rw [patternsOutside_envelope hhead hu]
    exact patternsOutside_perm (patternsInMembers_perm hoisted_lowered_perm)
  exact ⟨hperm, hperm _ isLinear_uuidPattern⟩

def lookaheads : Json :=
  .obj [("allOf", .arr [.obj [("pattern", .str "(?=a)")]]),
    ("default", .obj [("pattern", .str "(?=a)")]),
    ("definitions", .obj [("pattern", .str "(?!b)"), ("patternProperties", .obj [("^c", .null)])]),
    ("patternProperties", .obj [("(?<=d)", .obj [("pattern", .str "e")])])]

/-- The definition comes first in the envelope, and no pattern is lost. -/
theorem lookaheads_reordered : ∃ effective, enrich .dataChange lookaheads "order" = .ok effective ∧
    backtrackingPatterns effective = ["(?!b)", "(?=a)", "(?=a)", "(?<=d)"] ∧
    backtrackingPatterns lookaheads = ["(?=a)", "(?=a)", "(?!b)", "(?<=d)"] ∧
    (backtrackingPatterns effective).Perm (backtrackingPatterns lookaheads) := by
  refine ⟨_, rfl, by decide +kernel, by decide +kernel, ?_⟩
  exact (slowPatterns_dataChange lookaheads _ "order" rfl).2

end EventAdmission.Enrichment
