import EventAdmission.Proofs.DataChange.Published
import EventAdmission.Proofs.Schema.Met

/-!
# What a data change says about its data

`faults_below_data`: an event with the four fields of the envelope has the faults
that its data have under the owner's schema, each told below `data`. What the
envelope takes out of the owner's schema asks for nothing there (`moves_lowered`),
and the fields beside the data have no faults (`faults_dataEvent`).
-/

namespace EventAdmission

open Schema Evaluation Enrichment Corpus

variable {owner head members : Members} {draft d : Draft} {x s : Json} {goal : Goal}
  {above path : Path} {steps steps' : Nat} {scope : Scope} {n key : String}

-- ---------------------------------------------------------------------------
-- The owner's schema below the data
-- ---------------------------------------------------------------------------

/-- The schema of the data has the faults of the owner's schema, whose hoisted members ask for
nothing. -/
theorem moves_lowered {corpus corpus' : Corpus} {sub sub' : Evaluator}
    (hid : id? scope.draft (.obj owner) = none)
    (hpart : Keyed.find? owner "$ref" = none →
      ∀ s, Rule.Subschema scope.draft owner s → Answers above sub sub' scope s)
    (hbehind : ∀ reference, Keyed.find? owner "$ref" = some (.str reference) →
      ∃ inner target, follow corpus scope reference = .ok (inner, target) ∧
        follow corpus' scope reference = .ok (inner, target) ∧
        Answers above sub sub' inner target) :
    Moves above (schemaFaults corpus sub goal scope (.obj owner) x path)
      (schemaFaults corpus' sub' goal scope (.obj (lowered owner)) x (above ++ path)) := by
  have hlowered : Keyed.find? (lowered owner) "$ref" = Keyed.find? owner "$ref" :=
    find?_lowered (by decide)
  have hin := Scope.inside_of_no_id hid
  have hin' := Scope.inside_of_no_id (lowered_no_id hid)
  refine moves_schemaFaults_obj (hin.trans hin'.symm) hlowered.symm (fun href => ?_)
    fun reference href => ?_
  · have hcheck : ∀ e, memberFaults sub' goal scope (lowered owner) x (above ++ path) e =
        memberFaults sub' goal scope owner x (above ++ path) e := fun e => by
      rw [memberFaults, memberFaults, ofMember_lowered]
    rw [hin, funext hcheck, lowered,
      inOrder_filter fun e _ he => memberFaults_hoisted (by simpa using he)]
    exact moves_inOrder fun e he => moves_memberFaults (hpart href) he
  · obtain ⟨inner, target, hf, hf', hanswers⟩ := hbehind reference href
    rw [behindFaults, behindFaults, hin, hf, hf']
    exact hanswers.here

-- ---------------------------------------------------------------------------
-- The envelope around the data
-- ---------------------------------------------------------------------------

theorem inOrder_only {α : Type} {check : α → Option (List Fault)} {xs front back : List α} {y : α}
    (hxs : xs = front ++ y :: back) (hfront : ∀ x ∈ front, check x = some [])
    (hback : ∀ x ∈ back, check x = some []) : inOrder goal check xs = check y := by
  subst hxs
  induction front with
  | nil =>
    rw [List.nil_append, inOrder, inOrder_eq_nil.mpr hback]
    cases check y <;> simp
  | cons x front ih =>
    obtain ⟨hx, hrest⟩ := List.forall_mem_cons.mp hfront
    rw [List.cons_append, inOrder, hx, ih hrest]
    cases check y <;> simp

theorem closedFaults_named {sub : Evaluator} {properties : Members}
    (h : ∀ e ∈ members, namedSchemas (some properties) none e.1 ≠ []) :
    closedFaults sub goal scope (some properties) none .forbidden members x path =
      inOrder goal (fun e : String × Json =>
        inOrder goal (fun s => sub goal scope s e.2 (path ++ [.key e.1]))
          (namedSchemas (some properties) none e.1)) members := by
  unfold closedFaults
  simp only [unnamedKeys_eq_nil.mpr h, Option.isNone_some, Bool.false_and, Bool.false_eq_true,
    ↓reduceIte]
  refine (Option.bind_fun_some _).trans (congrArg (inOrder goal · members) (funext fun e => ?_))
  exact congrArg (inOrder goal _) (schemasFor_forbidden e.1)

/-- The members of the root of the envelope ask for nothing but closed fields, of an object that has
them all. -/
theorem memberFaults_envelope (h : Head owner head) {sub : Evaluator} {event : Members}
    (hkeys : ∀ key ∈ dataChangeKeys, ∃ value, Keyed.find? event key = some value) :
    inOrder goal (memberFaults sub goal scope (envelope n owner head) (.obj event) path)
        (envelope n owner head) =
      closedFaults sub goal scope (some (fields n owner)) none .forbidden event (.obj event) path := by
  obtain ⟨front, back, hsplit, hhead⟩ := h.split
  have hlist : envelope n owner head =
      front ++ ("additionalProperties", .bool false) :: (back ++ envelopeEnd n owner) := by
    rw [envelope, hhead, List.append_assoc, List.cons_append]
  have hsilent : ∀ e ∈ front ++ back,
      memberFaults sub goal scope (envelope n owner head) (.obj event) path e = some [] :=
    fun e he => memberFaults_hoisted (mem_hoisted (hsplit ▸ he))
  have htype : ("type", Json.str "object") = ("type", .str Kind.object.name) := rfl
  rw [← memberFaults_additionalProperties (additionalOf_envelope h)]
  refine inOrder_only hlist (fun e he => hsilent e (List.mem_append_left _ he)) fun e he => ?_
  rcases List.mem_append.mp he with he | he
  · exact hsilent e (List.mem_append_right _ he)
  · simp only [envelopeEnd, List.mem_cons, List.not_mem_nil, or_false] at he
    rcases he with rfl | rfl | rfl
    · exact memberFaults_closed_properties (envelope_closes h)
    · exact (memberFaults_required namesOf_strings).mpr hkeys
    · rw [htype, memberFaults_type, holds_object]
      exact ⟨event, rfl⟩

def dataEvent (data : Json) (operation type : String) (metadata : Members) : Members :=
  [("data", data), ("data_op", .str operation), ("data_type", .str type),
    ("metadata", .obj metadata)]

variable {data : Json} {operation type : String} {metadata : Members}

/-- Whatever the fields besides the data are, as long as they are as the broker asks: the faults of
the event are those of its data. -/
theorem faults_dataEvent {corpus : Corpus} (h : Head owner head)
    (hop : operation ∈ dataOperations) (hmetadata : WellFormed n metadata) :
    faultsWithin corpus (steps + 4) .faults scope (.obj (envelope n owner head))
        (.obj (dataEvent data operation type metadata)) path =
      faultsWithin corpus (steps + 3) .faults scope (.obj (lowered owner)) data
        (path ++ [.key "data"]) := by
  have hkeys : ∀ key ∈ dataChangeKeys,
      ∃ value, Keyed.find? (dataEvent data operation type metadata) key = some value := by
    simp [dataChangeKeys, dataEvent, Keyed.find?]
  have hnamed : ∀ e ∈ dataEvent data operation type metadata,
      namedSchemas (some (fields n owner)) none e.1 ≠ [] := by
    simp [dataEvent, namedSchemas_named, fields, Keyed.find?]
  have hpass : ∀ e ∈ [("data_op", Json.str operation), ("data_type", .str type),
      ("metadata", .obj metadata)], ∀ s ∈ namedSchemas (some (fields n owner)) none e.1,
        Passes corpus (steps + 3) scope s e.2 (path ++ [.key e.1]) := by
    simp only [List.forall_mem_cons, namedSchemas_named, fields, Keyed.find?, List.not_mem_nil,
      false_implies, implies_true, and_true, Option.mem_toList, String.reduceEq, ↓reduceIte,
      Option.some.injEq, forall_eq']
    exact ⟨passes_enumSchema.mpr ⟨operation, hop, rfl⟩, passes_stringSchema.mpr ⟨type, rfl⟩,
      passes_metadataSchema_iff.mpr ⟨metadata, rfl, hmetadata⟩⟩
  have hdata : namedSchemas (some (fields n owner)) none "data" = [.obj (lowered owner)] := rfl
  rw [faultsWithin, schemaFaults_obj (envelope_find? h (by decide)), envelope_inside h,
    memberFaults_envelope h hkeys, closedFaults_named hnamed]
  rw [inOrder_only (List.nil_append (dataEvent data operation type metadata)).symm
    (List.forall_mem_nil _) fun e he => inOrder_eq_nil.mpr (hpass e he), hdata]
  exact inOrder_only (List.nil_append _).symm (List.forall_mem_nil _) (List.forall_mem_nil _)

-- ---------------------------------------------------------------------------
-- Steps
-- ---------------------------------------------------------------------------

theorem size_dataEvent :
    data.size < (Json.obj (dataEvent data operation type metadata)).size := by
  simp only [dataEvent, Json.size, Json.sizeMembers]
  omega

/-- An event takes more steps than its data do, by the steps through the envelope. -/
theorem enoughSteps_dataEvent (h : Head owner head) :
    enoughSteps (anonymous (.obj owner)) data + 4 ≤
      enoughSteps (anonymous (.obj (envelope n owner head)))
        (.obj (dataEvent data operation type metadata)) :=
  enoughSteps_add_four (Nat.le_of_lt (size_envelope h)) size_dataEvent

-- ---------------------------------------------------------------------------
-- Faults
-- ---------------------------------------------------------------------------

theorem faults_below_data {fs : List Fault} (hn : Nameless (.obj owner))
    (hr : RefersLocally (.obj owner) draft) (h : Head owner head)
    (hop : operation ∈ dataOperations) (hmetadata : WellFormed n metadata)
    (hf : Evaluation.faults (anonymous (.obj owner)) ⟨anonymousBase, draft⟩ data = some fs) :
    Evaluation.faults (anonymous (.obj (envelope n owner head))) ⟨anonymousBase, draft⟩
        (.obj (dataEvent data operation type metadata)) =
      some (fs.map (Fault.below [.key "data"])) := by
  have hsteps : enoughSteps (anonymous (.obj owner)) data + 4 ≤
      enoughSteps (anonymous (.obj (envelope n owner head)))
        (.obj (dataEvent data operation type metadata)) := enoughSteps_dataEvent h
  unfold Evaluation.faults at hf ⊢
  generalize enoughSteps (anonymous (.obj owner)) data = few at hf hsteps
  generalize enoughSteps (anonymous (.obj (envelope n owner head)))
    (.obj (dataEvent data operation type metadata)) = many at hsteps ⊢
  obtain ⟨few, rfl⟩ : ∃ k, few = k + 1 := by
    cases few with
    | zero => cases hf
    | succ k => exact ⟨k, rfl⟩
  obtain ⟨many, rfl⟩ : ∃ k, many = k + 4 := ⟨many - 4, by omega⟩
  have hid : ∀ d, id? d (.obj owner) = id? d (.obj (envelope n owner head)) := fun d =>
    hn.self.trans (envelope_no_id h).symm
  have hlocal : ∀ key ∈ localKeys, key ∈ hoistedKeywords := by decide
  have hclosed := closed_met hn hr hid fun key hk => (envelope_hoisted h (hlocal key hk)).symm
  show faultsWithin _ (many + 4) .faults _ (.obj (envelope n owner head)) _ [] = _
  rw [faults_dataEvent h hop hmetadata]
  have hroot : Met (.obj owner) draft draft (.obj owner) := .root
  have hinside : Scope.inside ⟨anonymousBase, draft⟩ (.obj owner) = ⟨anonymousBase, draft⟩ :=
    Scope.inside_of_no_id hn.self
  refine (moves_lowered hn.self (fun href s hs => ?_) fun reference href => ?_ :
    Moves [.key "data"] _ (schemaFaults _ (faultsWithin _ (many + 2)) _ _ _ _ [.key "data"])) fs hf
  · exact hclosed.answers (by omega) ⟨rfl, hroot.part href hs⟩
  · obtain ⟨inner, target, hf, hf', hmet⟩ :=
      hclosed.behind ⟨anonymousBase, draft⟩ owner reference ⟨rfl, hroot⟩ href
    rw [hinside] at hf hf'
    exact ⟨inner, target, hf, hf', hclosed.answers (by omega) hmet⟩

end EventAdmission
