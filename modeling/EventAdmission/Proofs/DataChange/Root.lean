import EventAdmission.Proofs.DataChange.Violations
import EventAdmission.Proofs.Schema.Reached

/-!
# What a data change is told about its root

The envelope is closed and asks for four keys, so the faults of its root are about
keys: those that do not belong there, then those that are missing.
`violations_at_root`: they are told once each and in a fixed order. Nothing else is
told at the root but faults without a place, which come first: of texts whose base 64
is no text, and of references that lead nowhere.
-/

namespace EventAdmission

open Evaluation Enrichment

variable {owner head event : Members} {scope : Scope} {sub : Evaluator} {path : Path} {n key : String}
  {rules : Rule → Prop} {broken : Fault → Prop} {f : Fault} {fs : List Fault} {schema effective : Json}
  {draft : Draft} {c : CompiledSchema} {vs : List Violation} {v : Violation} {value : Json}

-- ---------------------------------------------------------------------------
-- Keys of the root
-- ---------------------------------------------------------------------------

def strayKeys (event : Members) : List String :=
  (Keyed.keys event).filter fun key => key ∉ dataChangeKeys

def absentKeys (event : Members) : List String :=
  dataChangeKeys.filter fun key => !Keyed.contains event key

theorem find?_fields : (∃ s, Keyed.find? (fields n owner) key = some s) ↔ key ∈ dataChangeKeys := by
  constructor
  · rintro ⟨s, hs⟩
    exact mem_dataChangeKeys hs
  · intro h
    simp only [dataChangeKeys, List.mem_cons, List.not_mem_nil, or_false] at h
    rcases h with rfl | rfl | rfl | rfl <;> exact ⟨_, rfl⟩

theorem unnamedKeys_fields : unnamedKeys (some (fields n owner)) none event = strayKeys event := by
  apply List.filter_congr
  intro key _
  rw [namedSchemas_named]
  cases hs : Keyed.find? (fields n owner) key with
  | none =>
    have hkey : key ∉ dataChangeKeys := by
      intro hin
      obtain ⟨s, hfound⟩ := find?_fields.mpr hin
      exact nomatch hs.symm.trans hfound
    simp [hkey]
  | some s => simp [mem_dataChangeKeys hs]

def strayFaults (event : Members) (path : Path) : List Fault :=
  match strayKeys event with
  | [] => []
  | keys => [⟨path, .obj event, .unexpectedProperties keys⟩]

def fieldFaults (sub : Evaluator) (scope : Scope) (n : String) (owner event : Members)
    (path : Path) : Option (List Fault) :=
  inOrder .faults (fun e : String × Json =>
    inOrder .faults (fun s => sub .faults scope s e.2 (path ++ [.key e.1]))
      (Keyed.find? (fields n owner) e.1).toList) event

theorem closedFaults_fields :
    closedFaults sub .faults scope (some (fields n owner)) none .forbidden event (.obj event) path =
      (fieldFaults sub scope n owner event path).map (· ++ strayFaults event path) := by
  have hfields : fieldFaults sub scope n owner event path =
      inOrder .faults (fun e : String × Json =>
        inOrder .faults (fun s => sub .faults scope s e.2 (path ++ [.key e.1]))
          (schemasFor (some (fields n owner)) none .forbidden e.1)) event := by
    simp only [fieldFaults, schemasFor_forbidden, namedSchemas_named]
  unfold closedFaults
  simp only [Option.isNone_some, Bool.false_and, Bool.false_eq_true, ↓reduceIte, unnamedKeys_fields]
  rw [hfields, strayFaults]
  cases strayKeys event with
  | nil =>
    simp only [List.append_nil, Option.map_id_fun', id_eq]
    exact Option.bind_fun_some _
  | cons key keys => exact (Option.map_eq_bind ..).symm

theorem inOrder_append {α : Type} {check : α → Option (List Fault)} {xs ys : List α} :
    inOrder .faults check (xs ++ ys) = (inOrder .faults check xs).bind fun front =>
      (inOrder .faults check ys).map (front ++ ·) := by
  induction xs with
  | nil => simp [inOrder]
  | cons x xs ih =>
    rw [List.cons_append, inOrder, inOrder, ih]
    cases check x <;> cases inOrder .faults check xs <;> cases inOrder .faults check ys <;> simp

theorem memberFaults_root (h : Head owner head) :
    inOrder .faults (memberFaults sub .faults scope (envelope n owner head) (.obj event) path)
        (envelope n owner head) =
      (fieldFaults sub scope n owner event path).map
        (· ++ strayFaults event path ++ missingKeys event path (.obj event) dataChangeKeys) := by
  obtain ⟨front, back, hsplit, hhead⟩ := h.split
  have hsilent : ∀ e ∈ front ++ back,
      memberFaults sub .faults scope (envelope n owner head) (.obj event) path e = some [] :=
    fun e he => memberFaults_hoisted (mem_hoisted (hsplit ▸ he))
  have htype : ("type", Json.str "object") = ("type", .str Kind.object.name) := rfl
  have htop : inOrder .faults (memberFaults sub .faults scope (envelope n owner head) (.obj event)
      path) head = (fieldFaults sub scope n owner event path).map (· ++ strayFaults event path) := by
    rw [inOrder_only hhead (fun e he => hsilent e (List.mem_append_left _ he))
      fun e he => hsilent e (List.mem_append_right _ he),
      memberFaults_additionalProperties (additionalOf_envelope h), closedFaults_fields]
  have hend : inOrder .faults (memberFaults sub .faults scope (envelope n owner head) (.obj event)
      path) (envelopeEnd n owner) = some (missingKeys event path (.obj event) dataChangeKeys) := by
    have hlist : envelopeEnd n owner = [("properties", .obj (fields n owner))] ++
        ("required", .strings dataChangeKeys) :: [("type", .str "object")] := rfl
    rw [inOrder_only hlist, memberFaults_required_eq namesOf_strings]
    · rw [List.forall_mem_singleton]
      exact memberFaults_closed_properties (envelope_closes h)
    · rw [List.forall_mem_singleton, htype, memberFaults_type, holds_object]
      exact ⟨event, rfl⟩
  show inOrder .faults _ (head ++ envelopeEnd n owner) = _
  rw [inOrder_append, htop, hend]
  cases fieldFaults sub scope n owner event path <;> simp

-- ---------------------------------------------------------------------------
-- Violations of the root
-- ---------------------------------------------------------------------------

def keyFaults (event : Members) : List Fault :=
  strayFaults event [] ++ missingKeys event [] (.obj event) dataChangeKeys

def keyViolations (event : Members) : List Violation :=
  (strayKeys event).map (fun key => ⟨"", "extraneous key [" ++ key ++ "] is not permitted"⟩) ++
    (absentKeys event).map fun key => ⟨"", "required key [" ++ key ++ "] not found"⟩

theorem violations_strayFaults : (strayFaults event []).flatMap Fault.violations =
    (strayKeys event).map fun key => ⟨"", "extraneous key [" ++ key ++ "] is not permitted"⟩ := by
  rw [strayFaults]
  cases strayKeys event with
  | nil => rfl
  | cons key keys => simp [Fault.violations, Fault.reasons, Path.pointer, Path.chars]

theorem violations_missingKeys :
    (missingKeys event [] (.obj event) dataChangeKeys).flatMap Fault.violations =
      (absentKeys event).map fun key => ⟨"", "required key [" ++ key ++ "] not found"⟩ := by
  rw [missingKeys, absentKeys]
  induction dataChangeKeys.filter fun key => !Keyed.contains event key with
  | nil => rfl
  | cons key keys ih =>
    rw [List.map_cons, List.flatMap_cons, ih]
    rfl

theorem violations_keyFaults : (keyFaults event).flatMap Fault.violations = keyViolations event := by
  rw [keyFaults, List.flatMap_append, violations_strayFaults, violations_missingKeys, keyViolations]

theorem keyFaults_placed (hf : f ∈ keyFaults event) : f.path = [] ∧ f.isPlaced = true := by
  rcases List.mem_append.mp hf with hf | hf
  · unfold strayFaults at hf
    split at hf
    · cases hf
    · obtain rfl := List.mem_singleton.mp hf
      exact ⟨rfl, rfl⟩
  · obtain ⟨key, -, rfl⟩ := List.mem_map.mp hf
    exact ⟨rfl, rfl⟩

theorem filter_flatMap_violations : (fs.flatMap Fault.violations).filter (fun v => v.pointer = "") =
    (fs.filter fun f => f.path = []).flatMap Fault.violations := by
  induction fs with
  | nil => rfl
  | cons f fs ih =>
    rw [List.flatMap_cons, List.filter_append, ih, Fault.violations]
    by_cases hpath : f.path = []
    · simp [hpath, Path.pointer, Path.chars, Fault.violations]
    · simp [hpath, Path.pointer_ne_nil hpath]

theorem reached_field (h : Head owner head) (hroot : c.corpus.root = .obj (envelope n owner head))
    {s : Json} (hs : Keyed.find? (fields n owner) key = some s) : Reached c c.scope s := by
  have href : Keyed.find? (envelope n owner head) "$ref" = none := envelope_find? h (by decide)
  have hsub : Rule.Subschema c.scope.draft (envelope n owner head) s := by
    refine ⟨_, Keyed.mem_of_find? (envelope_additional h), _, additionalOf_envelope h, ?_⟩
    simp only [Rule.schemas, Option.getD_some, List.mem_append]
    exact .inl (.inl (List.mem_map.mpr ⟨_, Keyed.mem_of_find? hs, rfl⟩))
  have htop : Reached c c.scope (.obj (envelope n owner head)) := hroot ▸ .root
  have hreached := htop.part href hsub
  rwa [envelope_inside h] at hreached

theorem faults_envelope (h : Head owner head)
    (hroot : c.corpus.root = .obj (envelope n owner head))
    (hfs : Evaluation.faults c.corpus c.scope (.obj event) = some fs) :
    ∃ named : List Fault, fs = named ++ keyFaults event ∧
      ∀ f ∈ named, ∃ e ∈ event, Found c.Asks c.Misses e.2 [.key e.1] f := by
  obtain ⟨k, hk⟩ := enoughSteps_pieces c.corpus (.obj event)
  rw [Evaluation.faults, hroot, hk, faultsWithin, schemaFaults_obj (envelope_find? h (by decide)),
    envelope_inside h, memberFaults_root h] at hfs
  obtain ⟨named, hnamed, rfl⟩ := Option.map_eq_some_iff.mp hfs
  refine ⟨named, List.append_assoc .., ?_⟩
  have hfinds : Finds (fun f => ∃ e ∈ event, Found c.Asks c.Misses e.2 [.key e.1] f)
      (fieldFaults (faultsWithin c.corpus (k + 3)) c.scope n owner event []) := by
    refine finds_inOrder fun e he => finds_inOrder fun s hs => ?_
    have hmet := reached_field h hroot (Option.mem_toList.mp hs)
    exact finds_imp (found_evaluation c.covers hmet) fun f hf => ⟨e, he, hf⟩
  exact hfinds named hnamed

theorem field_fault {e : String × Json} (h : Found c.Asks c.Misses e.2 [.key e.1] f)
    (he : e ∈ event) : (f.path ≠ [] ∧ f.isPlaced = true) ∨
      c.Misses f ∨ c.Asks (.jsonText true) ∧ f.IsUndecoded (.obj event) := by
  rcases h.placed with ⟨hplace, hplaced⟩ | hmisses | ⟨hasks, hundecoded⟩
  · refine .inl ⟨?_, hplaced⟩
    intro hpath
    rw [hpath] at hplace
    cases List.prefix_nil.mp hplace
  · exact .inr (.inl hmisses)
  · have hvalue := Json.inside_member he Json.mem_values_self
    exact .inr (.inr ⟨hasks, hundecoded.trans (Json.mem_values.mpr (.inr hvalue))⟩)

/-- Where all references are followed, a fault of a field is at the root if it has no place. -/
theorem at_root_iff (hrefs : ∀ f, ¬ c.Misses f) {e : String × Json} (he : e ∈ event)
    (h : Found c.Asks c.Misses e.2 [.key e.1] f) : f.path = [] ↔ f.isPlaced = false := by
  rcases field_fault h he with ⟨hne, hplaced⟩ | hmisses | ⟨-, hundecoded⟩
  · simp [hne, hplaced]
  · exact absurd hmisses (hrefs f)
  · simp [hundecoded.unplaced]

theorem flatMap_at_root_eq_nil (h : ∀ f ∈ fs, f.path = [] ↔ f.isPlaced = false) :
    (fs.filter fun f => f.path = []).flatMap Fault.violations = [] ↔
      ∀ f ∈ fs, f.isPlaced = true := by
  rw [List.flatMap_eq_nil_iff]
  constructor
  · intro hnil f hf
    cases hplaced : f.isPlaced with
    | true => rfl
    | false =>
      obtain ⟨text, hviolations⟩ := Fault.violations_unplaced hplaced
      have hpath := decide_eq_true ((h f hf).mpr hplaced)
      have hnone := hnil f (List.mem_filter.mpr ⟨hf, hpath⟩)
      exact absurd hnone (by simp [hviolations])
  · intro hall f hf
    obtain ⟨hf, hpath⟩ := List.mem_filter.mp hf
    have hunplaced := (h f hf).mp (of_decide_eq_true hpath)
    exact absurd (hall f hf) (by simp [hunplaced])

/-- What an event is told about its root: which keys do not belong there and which are missing,
in the order of the keys and in the order in which they are asked for. Only faults without a place
are told there too, before that, of references that lead nowhere and of strings decoded in vain. -/
theorem violations_at_root (henrich : enrich .dataChange schema n = .ok effective)
    (hc : Schema.compile draft effective = .ok c) (hs : Keyed.Sorted event)
    (hv : c.violations (.obj event) = some vs) :
    (strayKeys event).Pairwise (· < ·) ∧
      ∃ fs astray : List Fault, Evaluation.faults c.corpus c.scope (.obj event) = some fs ∧
        astray.Sublist fs ∧
        vs.filter (fun v => v.pointer = "") =
          astray.flatMap Fault.violations ++ keyViolations event ∧
        (∀ f ∈ astray, c.Misses f ∨ c.Asks (.jsonText true) ∧ f.IsUndecoded (.obj event)) ∧
        ((∀ f, ¬ c.Misses f) → (vs.filter (fun v => v.pointer = "") = keyViolations event ↔
          ∀ f ∈ fs, f.isPlaced = true)) := by
  obtain ⟨owner, head, -, hhead, rfl⟩ := enrich_dataChange_ok henrich
  have hroot : c.corpus.root = .obj (envelope n owner head) := by
    obtain ⟨base, named, -, -, -, -, rfl⟩ := Schema.compile_ok.mp hc
    rfl
  obtain ⟨fs, hfs, rfl⟩ := Option.map_eq_some_iff.mp hv
  obtain ⟨named, rfl, hnamed⟩ := faults_envelope hhead hroot hfs
  have hkeys : (strayKeys event).Pairwise (· < ·) := (List.pairwise_map.mpr hs).filter _
  have hkeyFaults : (keyFaults event).filter (fun f => f.path = []) = keyFaults event :=
    List.filter_eq_self.mpr fun f hf => decide_eq_true (keyFaults_placed hf).1
  have htold : ((named ++ keyFaults event).flatMap Fault.violations).filter
      (fun v => v.pointer = "") =
        (named.filter fun f => f.path = []).flatMap Fault.violations ++ keyViolations event := by
    rw [filter_flatMap_violations, List.filter_append, hkeyFaults, List.flatMap_append,
      violations_keyFaults]
  refine ⟨hkeys, _, named.filter fun f => f.path = [], hfs,
    List.filter_sublist.trans (List.sublist_append_left ..), htold, ?_, ?_⟩
  · intro f hf
    obtain ⟨hf, hpath⟩ := List.mem_filter.mp hf
    obtain ⟨e, he, hfound⟩ := hnamed f hf
    exact (field_fault hfound he).resolve_left fun h => h.1 (of_decide_eq_true hpath)
  · intro hrefs
    have hat : ∀ f ∈ named, f.path = [] ↔ f.isPlaced = false := by
      intro f hf
      obtain ⟨e, he, hfound⟩ := hnamed f hf
      exact at_root_iff hrefs he hfound
    rw [htold, List.append_left_eq_self, flatMap_at_root_eq_nil hat, List.forall_mem_append]
    exact (and_iff_left fun f hf => (keyFaults_placed hf).2).symm

def packedBody : Members :=
  [("properties", .obj [("body", .obj [("contentEncoding", .str "base64"),
    ("contentMediaType", .str "application/json")])])]

theorem packedBody_compiles : (Schema.compile .draft7 (.obj packedBody)).isOk = true := by
  decide +kernel

def untypedOrder : Members :=
  [("data", brokenOrder), ("data_op", .str "C"), ("metadata", .obj orderMetadata),
    ("region", .str "north")]

def untypedViolations : List Violation :=
  [⟨"", "invalid utf-8 sequence of 1 bytes from index 0"⟩,
    ⟨"", "extraneous key [region] is not permitted"⟩, ⟨"", "required key [data_type] not found"⟩]

theorem packedBody_effective : ∃ effective,
    enrich .dataChange (.obj packedBody) "order" = .ok effective ∧
      (∀ y ∈ effective.values, y.member? "$ref" = none) ∧
      CompiledSchema.violations ⟨⟨anonymousBase, .draft7⟩, Corpus.anonymous effective⟩
        (.obj untypedOrder) = some untypedViolations := by
  refine ⟨_, rfl, ?_, ?_⟩
  · decide +kernel
  · decide +kernel

/-- The body of the order is told at the root, before the keys, and there are no references. -/
theorem untypedOrder_astray : ∃ effective c fs,
    enrich .dataChange (.obj packedBody) "order" = .ok effective ∧
      Schema.compile .draft7 effective = .ok c ∧ Keyed.Sorted untypedOrder ∧
      (∀ f, ¬ c.Misses f) ∧ c.violations (.obj untypedOrder) = some untypedViolations ∧
      untypedViolations ≠ keyViolations untypedOrder ∧
      Evaluation.faults c.corpus c.scope (.obj untypedOrder) = some fs ∧
      ¬ ∀ f ∈ fs, f.isPlaced = true := by
  obtain ⟨effective, henrich, hplain, hv⟩ := packedBody_effective
  obtain ⟨c, howner⟩ := isOk_iff.mp packedBody_compiles
  have hc := compile_dataChange (nameless_of_drafts (by decide)) howner henrich
  have hs : Keyed.Sorted untypedOrder :=
    Keyed.sorted_of_keys (rfl : _ = ["data", "data_op", "metadata", "region"]) (by decide)
  have hrefs : ∀ f, ¬ CompiledSchema.Misses
      ⟨⟨anonymousBase, .draft7⟩, Corpus.anonymous effective⟩ f :=
    fun f => CompiledSchema.not_misses hplain
  obtain ⟨-, fs, astray, hfs, -, -, -, hiff⟩ := violations_at_root henrich hc hs hv
  have hroot : untypedViolations.filter (fun v => v.pointer = "") = untypedViolations := by decide
  have hkeys : untypedViolations ≠ keyViolations untypedOrder := by decide
  refine ⟨effective, _, fs, henrich, hc, hs, hrefs, hv, hkeys, hfs, ?_⟩
  rw [← hiff hrefs, hroot]
  exact hkeys

end EventAdmission
