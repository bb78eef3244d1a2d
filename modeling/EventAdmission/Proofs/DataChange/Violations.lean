import EventAdmission.Proofs.DataChange.Gate
import EventAdmission.Proofs.DataChange.Meaning

/-!
# The violations of a data change

`dataChange_meaning`: the schema that the broker makes of the owner's compiles,
and a data change whose other fields are as the broker asks has the violations
that its data have under the owner's schema, in the same order and for the same
reasons. They are told below `data`, as long as they have a place at all: data
whose base 64 decodes to bytes that are no text are told at the root of the
event.
-/

namespace EventAdmission

open Schema Evaluation Enrichment Corpus

variable {above path : Path} {f : Fault} {fs : List Fault} {owner : Members} {draft : Draft}
  {root : Json} {n : String} {c : CompiledSchema}

-- ---------------------------------------------------------------------------
-- Violations below some steps
-- ---------------------------------------------------------------------------

def Violation.below (above : Path) (v : Violation) : Violation :=
  { v with pointer := above.pointer ++ v.pointer }

theorem Path.pointer_append : (above ++ path).pointer = above.pointer ++ path.pointer := by
  simp [Path.pointer, Path.chars]

theorem Path.pointer_ne_nil (h : above ≠ []) : above.pointer ≠ "" := by
  cases above with
  | nil => exact absurd rfl h
  | cons s above => simp [Path.pointer, Path.chars]

theorem Violation.below_ne (h : above ≠ []) (v : Violation) : v.below above ≠ v := by
  intro heq
  have hpointer : above.pointer ++ v.pointer = v.pointer := congrArg Violation.pointer heq
  exact Path.pointer_ne_nil h (by simpa using hpointer)

theorem Fault.violations_below : (f.below above).violations =
    f.violations.map (if f.isPlaced then Violation.below above else id) := by
  rw [Fault.violations, Fault.violations, Fault.reasons_below, List.map_map]
  unfold Fault.below
  split
  · refine List.map_congr_left fun reason _ => ?_
    simp [Violation.below, Path.pointer_append]
  · rfl

theorem Fault.violations_unplaced (h : f.isPlaced = false) :
    ∃ text, f.violations = [⟨f.path.pointer, text⟩] := by
  obtain ⟨path, x, cause⟩ := f
  cases cause with
  | unusable text => exact ⟨_, rfl⟩
  | _ => cases h

theorem Fault.violations_below_iff (h : above ≠ []) :
    (f.below above).violations = f.violations.map (Violation.below above) ↔ f.isPlaced = true := by
  rw [Fault.violations_below]
  cases hplaced : f.isPlaced with
  | true => simp
  | false =>
    obtain ⟨text, hviolations⟩ := Fault.violations_unplaced hplaced
    rw [hviolations]
    simpa using (Violation.below_ne h ⟨f.path.pointer, text⟩).symm

theorem flatMap_violations_below (h : above ≠ []) :
    fs.flatMap (fun f => (f.below above).violations) =
        (fs.flatMap Fault.violations).map (Violation.below above) ↔
      ∀ f ∈ fs, f.isPlaced = true := by
  induction fs with
  | nil => simp
  | cons f fs ih =>
    rw [List.flatMap_cons, List.flatMap_cons, List.map_append, List.forall_mem_cons, ← ih,
      ← Fault.violations_below_iff h]
    constructor
    · intro heq
      exact List.append_inj heq (by rw [Fault.violations_below, List.length_map, List.length_map])
    · rintro ⟨hf, hfs⟩
      rw [hf, hfs]

-- ---------------------------------------------------------------------------
-- Meaning
-- ---------------------------------------------------------------------------

/-- A data change has the violations of its data, below `data`, if each of them has a place. The
owner's schema has no identifiers, and the references that can be met are to its own definitions. -/
theorem dataChange_meaning (he : isEnriched (.obj owner) = false) (hn : Nameless (.obj owner))
    (hr : RefersLocally (.obj owner) draft) (hc : Schema.compile draft (.obj owner) = .ok c) :
    ∃ effective c', enrich .dataChange (.obj owner) n = .ok effective ∧
      Schema.compile draft effective = .ok c' ∧
      ∀ data faults, Evaluation.faults c.corpus c.scope data = some faults →
        ∀ operation ∈ dataOperations, ∀ type metadata, WellFormed n metadata →
          c'.violations (.obj (dataEvent data operation type metadata)) =
            some (faults.flatMap fun f =>
              f.violations.map (if f.isPlaced then Violation.below [.key "data"] else id)) ∧
          (c'.violations (.obj (dataEvent data operation type metadata)) =
              (c.violations data).map (List.map (Violation.below [.key "data"])) ↔
            ∀ f ∈ faults, f.isPlaced = true) := by
  obtain ⟨head, hhead, henrich⟩ := enrich_dataChange (n := n) he
  obtain ⟨base, named, hbase, hnamed, -, -, rfl⟩ := Schema.compile_ok.mp hc
  obtain rfl := Except.ok.inj ((rootBase_nameless hn).symm.trans hbase)
  obtain rfl := Except.ok.inj ((namesIn_nameless hn).symm.trans hnamed)
  refine ⟨_, _, henrich, compile_envelope hn hhead hc, ?_⟩
  intro data faults hfaults operation hop type metadata hmetadata
  have hbelow : Evaluation.faults (anonymous (.obj (envelope n owner head))) ⟨anonymousBase, draft⟩
      (.obj (dataEvent data operation type metadata)) =
        some (faults.map (Fault.below [.key "data"])) :=
    faults_below_data hn hr hhead hop hmetadata hfaults
  have hfaults' : Evaluation.faults ⟨.obj owner, []⟩ ⟨anonymousBase, draft⟩ data = some faults :=
    hfaults
  simp only [CompiledSchema.violations, hbelow, hfaults', Option.map_some, Option.some.injEq,
    List.flatMap_map, Fault.violations_below, true_and]
  have hiff : faults.flatMap (fun f => (f.below [.key "data"]).violations) =
      (faults.flatMap Fault.violations).map (Violation.below [.key "data"]) ↔
        ∀ f ∈ faults, f.isPlaced = true := flatMap_violations_below (List.cons_ne_nil _ _)
  simpa only [Fault.violations_below] using hiff

def packedOrder : Members :=
  [("definitions", .obj [("packed", .obj [("contentEncoding", .str "base64"),
      ("contentMediaType", .str "application/json")])]),
    ("properties", .obj [("body", .obj [("$ref", .str "#/definitions/packed")])])]

/-- An order whose body is the byte 255, which is no text. -/
def brokenOrder : Json := .obj [("body", .str "/w==")]

theorem packedOrder_nameless : Nameless (.obj packedOrder) :=
  nameless_of_drafts (by decide)

theorem packedOrder_refersLocally : RefersLocally (.obj packedOrder) draft :=
  refersLocally_of_values packedOrder_nameless (by decide)

theorem packedOrder_compiles : (Schema.compile .draft7 (.obj packedOrder)).isOk = true := by
  decide +kernel

theorem packedOrder_faults :
    (Evaluation.faults (anonymous (.obj packedOrder)) ⟨anonymousBase, .draft7⟩ brokenOrder).map
        (fun fs => fs.map fun f => (f.isPlaced, f.violations)) =
      some [(false, [⟨"", "invalid utf-8 sequence of 1 bytes from index 0"⟩])] := by
  decide +kernel

/-- The body is a part of the data, but its fault is told at the root of the event. -/
theorem packedOrder_misplaced : ∃ effective c c',
    enrich .dataChange (.obj packedOrder) "order" = .ok effective ∧
      Schema.compile .draft7 (.obj packedOrder) = .ok c ∧
      Schema.compile .draft7 effective = .ok c' ∧
      c'.violations (.obj (dataEvent brokenOrder "C" "order" orderMetadata)) =
        some [⟨"", "invalid utf-8 sequence of 1 bytes from index 0"⟩] ∧
      c'.violations (.obj (dataEvent brokenOrder "C" "order" orderMetadata)) ≠
        (c.violations brokenOrder).map (List.map (Violation.below [.key "data"])) := by
  obtain ⟨c, hc⟩ := isOk_iff.mp packedOrder_compiles
  obtain ⟨effective, c', henrich, hc', hmeaning⟩ := dataChange_meaning (n := "order") rfl
    packedOrder_nameless packedOrder_refersLocally hc
  obtain ⟨fs, hfs, hfound⟩ := Option.map_eq_some_iff.mp packedOrder_faults
  obtain ⟨base, named, hbase, hnamed, -, -, rfl⟩ := Schema.compile_ok.mp hc
  obtain rfl := Except.ok.inj ((rootBase_nameless packedOrder_nameless).symm.trans hbase)
  obtain rfl := Except.ok.inj ((namesIn_nameless packedOrder_nameless).symm.trans hnamed)
  obtain ⟨f, rfl, hf⟩ := List.map_eq_singleton_iff.mp hfound
  obtain ⟨hunplaced, hviolations⟩ := Prod.mk.inj hf
  obtain ⟨hall, hiff⟩ := hmeaning brokenOrder [f] hfs "C" (by decide) "order" orderMetadata
    orderMetadata_wellFormed
  refine ⟨effective, _, c', henrich, hc, hc', ?_, fun heq => ?_⟩
  · rw [hall]
    simp [hunplaced, hviolations]
  · have hplaced := hiff.mp heq f (List.mem_singleton_self f)
    exact absurd hplaced (by simp [hunplaced])

end EventAdmission
