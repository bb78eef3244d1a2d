import EventAdmission.Proofs.Schema.Passing
import EventAdmission.Proofs.Schema.Subschemas
import Mathlib.Data.List.Forall2

/-!
# Faults that move with their value

A value can be evaluated where it stands alone or below some steps of a larger
document, and with few steps or with more. `moves_ruleFaults`: if the schemas
below a rule answer alike, up to the steps before each path, so does the rule. An
evaluation that ends is therefore not changed by more steps
(`faultsWithin_mono`). Only a fault of no place in the document stays as it is:
a reference that cannot be used, or bytes that are no text.
-/

namespace EventAdmission

variable {above path : Path} {f : Fault}

/-- The fault is told at a place of the document. -/
def Fault.isPlaced (f : Fault) : Bool :=
  match f.cause with
  | .unusable _ => false
  | _ => true

def Fault.below (above : Path) (f : Fault) : Fault :=
  if f.isPlaced then { f with path := above ++ f.path } else f

@[simp] theorem Fault.below_nil : f.below [] = f := by
  simp [Fault.below]

@[simp] theorem Fault.map_below_nil (fs : List Fault) : fs.map (Fault.below []) = fs := by
  have hid : Fault.below [] = id := funext fun _ => Fault.below_nil
  rw [hid, List.map_id]

@[simp] theorem Fault.instanceValue_below : (f.below above).instanceValue = f.instanceValue := by
  unfold Fault.below
  split <;> rfl

@[simp] theorem Fault.cause_below : (f.below above).cause = f.cause := by
  unfold Fault.below
  split <;> rfl

theorem Fault.text_below : (f.below above).text = f.text := by
  rw [Fault.text, Fault.text, Fault.cause_below, Fault.instanceValue_below]

theorem Fault.reasons_below : (f.below above).reasons = f.reasons := by
  simp only [Fault.reasons, Fault.cause_below, Fault.instanceValue_below, Fault.text_below]

theorem Fault.below_placed {x : Json} {cause : Cause}
    (h : Fault.isPlaced ⟨path, x, cause⟩ = true) :
    Fault.below above ⟨path, x, cause⟩ = ⟨above ++ path, x, cause⟩ := by
  rw [Fault.below, if_pos h]

namespace Evaluation

variable {α β : Type} {corpus : Corpus} {sub sub' : Evaluator} {goal : Goal} {scope : Scope}
  {schema x : Json} {members : Members}

def Keeps (r r' : Option α) : Prop := ∀ a, r = some a → r' = some a

def Moves (above : Path) (r r' : Option (List Fault)) : Prop :=
  ∀ fs, r = some fs → r' = some (fs.map (Fault.below above))

theorem keeps_self {r : Option α} : Keeps r r := fun _ h => h

theorem keeps_bind {r r' : Option α} {f f' : α → Option β} (h : Keeps r r')
    (hf : ∀ a, Keeps (f a) (f' a)) : Keeps (r >>= f) (r' >>= f') := by
  intro b hb
  obtain ⟨a, ha, hfa⟩ := Option.bind_eq_some_iff.mp hb
  exact Option.bind_eq_some_iff.mpr ⟨a, h a ha, hf a b hfa⟩

theorem moves_some {fs fs' : List Fault} (h : fs' = fs.map (Fault.below above)) :
    Moves above (some fs) (some fs') := by
  rintro _ ⟨⟩
  rw [h]

theorem moves_nil : Moves above (some []) (some []) := moves_some rfl

theorem moves_single {cause : Cause} (h : Fault.isPlaced ⟨path, x, cause⟩ = true) :
    Moves above (some [⟨path, x, cause⟩]) (some [⟨above ++ path, x, cause⟩]) :=
  moves_some (by rw [List.map_singleton, Fault.below_placed h])

theorem moves_faultUnless {right : Bool} {cause : Cause}
    (h : Fault.isPlaced ⟨path, x, cause⟩ = true) :
    Moves above (faultUnless right path x cause) (faultUnless right (above ++ path) x cause) := by
  cases right with
  | true => exact moves_nil
  | false => exact moves_single h

theorem moves_bind {r r' : Option α} {f f' : α → Option (List Fault)} (h : Keeps r r')
    (hf : ∀ a, r = some a → Moves above (f a) (f' a)) : Moves above (r >>= f) (r' >>= f') := by
  intro fs hfs
  obtain ⟨a, ha, hfa⟩ := Option.bind_eq_some_iff.mp hfs
  exact Option.bind_eq_some_iff.mpr ⟨a, h a ha, hf a ha fs hfa⟩

theorem moves_bind_faults {r r' : Option (List Fault)} {f f' : List Fault → Option (List Fault)}
    (h : Moves above r r') (hf : ∀ fs, Moves above (f fs) (f' (fs.map (Fault.below above)))) :
    Moves above (r >>= f) (r' >>= f') := by
  intro fs hfs
  obtain ⟨first, hfirst, hrest⟩ := Option.bind_eq_some_iff.mp hfs
  exact Option.bind_eq_some_iff.mpr ⟨_, h first hfirst, hf first fs hrest⟩

theorem moves_inOrder_both {check : α → Option (List Fault)} {check' : β → Option (List Fault)}
    {xs : List α} {ys : List β}
    (h : List.Forall₂ (fun x y => Moves above (check x) (check' y)) xs ys) :
    Moves above (inOrder goal check xs) (inOrder goal check' ys) := by
  induction h with
  | nil => exact moves_nil
  | cons hxy _ ih =>
    rw [inOrder, inOrder]
    refine moves_bind_faults hxy fun first => ?_
    rw [List.isEmpty_map]
    split
    · exact moves_some rfl
    · exact moves_bind_faults ih fun rest => moves_some List.map_append.symm

theorem moves_inOrder {check check' : α → Option (List Fault)} {xs : List α}
    (h : ∀ x ∈ xs, Moves above (check x) (check' x)) :
    Moves above (inOrder goal check xs) (inOrder goal check' xs) :=
  moves_inOrder_both (List.forall₂_same.mpr h)

/-- One entry of a sorted list is set: it answers like the one that it replaces, or has no fault. -/
theorem moves_inOrder_insert {entries : Keyed α} {check check' : String × α → Option (List Fault)}
    {key : String} {value : α} (hs : entries.Sorted)
    (hothers : ∀ e ∈ entries, e.1 ≠ key → Moves above (check e) (check' e))
    (hold : ∀ old, entries.find? key = some old →
      Moves above (check (key, old)) (check' (key, value)))
    (hnew : entries.find? key = none → check' (key, value) = some []) :
    Moves above (inOrder goal check entries) (inOrder goal check' (entries.insert key value)) := by
  obtain ⟨front, back, hinsert, hne, ⟨old, hfind, rfl⟩ | ⟨hfind, rfl⟩⟩ :=
    Keyed.insert_split hs key value
  · rw [hinsert]
    have hsame : ∀ part ⊆ front ++ back, part ⊆ front ++ (key, old) :: back →
        List.Forall₂ (fun x y => Moves above (check x) (check' y)) part part :=
      fun part hpart hall => List.forall₂_same.mpr fun e he => hothers e (hall he) (hne e (hpart he))
    exact moves_inOrder_both (List.rel_append (hsame front (by simp) (by simp))
      (.cons (hold old hfind) (hsame back (by simp) (by simp))))
  · have hfilter : (front ++ (key, value) :: back).filter (fun e => e.1 != key) = front ++ back := by
      have hkeep : ∀ part ⊆ front ++ back, part.filter (fun e => e.1 != key) = part :=
        fun part hpart => List.filter_eq_self.mpr fun e he => bne_iff_ne.mpr (hne e (hpart he))
      rw [List.filter_append, List.filter_cons_of_neg (by simp), hkeep front (by simp),
        hkeep back (by simp)]
    have hsilent : ∀ e ∈ front ++ (key, value) :: back, (e.1 != key) = false → check' e = some [] := by
      intro e he hkey
      have heq : e.1 = key := by simpa using hkey
      rcases List.mem_append.mp he with he | he
      · exact absurd heq (hne e (List.mem_append_left _ he))
      · rcases List.mem_cons.mp he with rfl | he
        · exact hnew hfind
        · exact absurd heq (hne e (List.mem_append_right _ he))
    rw [hinsert, ← inOrder_filter hsilent, hfilter]
    exact moves_inOrder fun e he => hothers e he (hne e he)

theorem keeps_of_moves {f : List Fault → α} {r r' : Option (List Fault)} (h : Moves [] r r') :
    Keeps (r.map f) (r'.map f) := by
  intro a ha
  obtain ⟨fs, hfs, rfl⟩ := Option.map_eq_some_iff.mp ha
  exact Option.map_eq_some_iff.mpr ⟨fs, by simpa using h fs hfs, rfl⟩

-- ---------------------------------------------------------------------------
-- Rules
-- ---------------------------------------------------------------------------

/-- The second evaluation answers for a schema whenever the first does, with the faults below the
steps before its path; and so it does without these steps. -/
def Answers (above : Path) (sub sub' : Evaluator) (scope : Scope) (schema : Json) : Prop :=
  ∀ start, start = [] ∨ start = above → ∀ goal x path,
    Moves start (sub goal scope schema x path) (sub' goal scope schema x (start ++ path))

theorem Answers.at_start {start : Path} (h : Answers above sub sub' scope schema)
    (hstart : start = [] ∨ start = above) : Answers start sub sub' scope schema := by
  intro start' hstart' goal x path
  refine h start' ?_ goal x path
  rcases hstart' with rfl | rfl
  · exact .inl rfl
  · exact hstart

theorem Answers.here (h : Answers above sub sub' scope schema) :
    Moves above (sub goal scope schema x path) (sub' goal scope schema x (above ++ path)) :=
  h above (.inr rfl) goal x path

theorem Answers.below (h : Answers above sub sub' scope schema) {step : Step} :
    Moves above (sub goal scope schema x (path ++ [step]))
      (sub' goal scope schema x (above ++ path ++ [step])) := by
  rw [List.append_assoc]
  exact h.here

theorem keeps_isValid (h : Answers above sub sub' scope schema) :
    Keeps (isValid sub scope schema x) (isValid sub' scope schema x) :=
  keeps_of_moves (h [] (.inl rfl) .verdict x [])

theorem keeps_behindFirstValid {schemas : List Json}
    (h : ∀ s ∈ schemas, Answers above sub sub' scope s) :
    Keeps (behindFirstValid sub scope x schemas) (behindFirstValid sub' scope x schemas) := by
  induction schemas with
  | nil => exact keeps_self
  | cons s rest ih =>
    obtain ⟨hs, hrest⟩ := List.forall_mem_cons.mp h
    refine keeps_bind (keeps_isValid hs) fun valid => ?_
    split
    · exact keeps_self
    · exact ih hrest

theorem behindFirstValid_subset {schemas others : List Json}
    (h : behindFirstValid sub scope x schemas = some (some others)) : others ⊆ schemas := by
  induction schemas with
  | nil => cases h
  | cons s rest ih =>
    obtain ⟨valid, -, h⟩ := Option.bind_eq_some_iff.mp h
    split at h
    · obtain rfl := Option.some.inj (Option.some.inj h)
      exact List.subset_cons_self s rest
    · exact fun y hy => List.mem_cons_of_mem _ (ih h hy)

theorem keeps_someValid (h : Answers above sub sub' scope schema) {items : List Json} :
    Keeps (someValid sub scope schema items) (someValid sub' scope schema items) := by
  induction items with
  | nil => exact keeps_self
  | cons item items ih =>
    refine keeps_bind (keeps_isValid h) fun valid => ?_
    split
    · exact keeps_self
    · exact ih

theorem moves_missingKeys {names : List String} :
    Moves above (some (missingKeys members path x names))
      (some (missingKeys members (above ++ path) x names)) := by
  refine moves_some ?_
  simp only [missingKeys, List.map_map, Function.comp_def]
  refine List.map_congr_left fun name _ => ?_
  rw [Fault.below_placed rfl]

theorem moves_decodedFaults {text : String} :
    Moves above (some (decodedFaults path x text)) (some (decodedFaults (above ++ path) x text)) := by
  unfold decodedFaults
  split
  · exact moves_single rfl
  · split
    · exact moves_some rfl
    · split
      · exact moves_nil
      · exact moves_single rfl

theorem moves_nameFaults (h : Answers above sub sub' scope schema) :
    Moves above (nameFaults sub goal scope schema members x path)
      (nameFaults sub' goal scope schema members x (above ++ path)) := by
  unfold nameFaults
  split
  · exact moves_faultUnless rfl
  · refine moves_inOrder fun key _ => moves_bind_faults h.here fun faults => moves_some ?_
    simp only [List.map_map, Function.comp_def, Fault.text_below]
    refine List.map_congr_left fun f _ => ?_
    rw [Fault.below_placed rfl]

theorem mem_matchingSchemas {patterns : List KeyPattern} {key : String} {s : Json}
    (h : s ∈ matchingSchemas patterns key) : s ∈ patterns.map (·.schema) := by
  obtain ⟨p, hp, hs⟩ := List.mem_filterMap.mp h
  refine List.mem_map.mpr ⟨p, hp, ?_⟩
  split at hs
  · split at hs
    · exact Option.some.inj hs
    · cases hs
  · cases hs

theorem mem_schemas_of_named {named : Option Members} {patterns : Option (List KeyPattern)}
    {rest : Remainder} {key : String} {s : Json} (hs : s ∈ namedSchemas named patterns key) :
    s ∈ (Rule.closed named patterns rest).schemas := by
  simp only [Rule.schemas, List.mem_append]
  rcases List.mem_append.mp hs with hs | hs
  · have hfind := Keyed.mem_of_find? (Option.mem_toList.mp hs)
    exact .inl (.inl (List.mem_map.mpr ⟨_, hfind, rfl⟩))
  · exact .inl (.inr (mem_matchingSchemas hs))

theorem moves_closedFaults {named : Option Members} {patterns : Option (List KeyPattern)}
    {rest : Remainder}
    (h : ∀ s ∈ (Rule.closed named patterns rest).schemas, Answers above sub sub' scope s) :
    Moves above (closedFaults sub goal scope named patterns rest members x path)
      (closedFaults sub' goal scope named patterns rest members x (above ++ path)) := by
  have hnamed : ∀ key, ∀ s ∈ namedSchemas named patterns key, Answers above sub sub' scope s :=
    fun _ s hs => h s (mem_schemas_of_named hs)
  refine moves_bind_faults (moves_inOrder fun e _ => ?_) fun found => ?_
  · dsimp only
    split
    · exact moves_inOrder fun s hs => by
        obtain rfl := List.mem_singleton.mp hs
        exact (h s (by simp [Rule.schemas])).below
    · exact moves_inOrder fun s hs => (hnamed e.1 s hs).below
  · split
    · exact moves_some rfl
    · split
      · split
        · exact moves_nil
        · exact moves_single rfl
      · split
        · exact moves_some rfl
        · exact moves_some (by rw [List.map_append, List.map_singleton, Fault.below_placed rfl])

theorem moves_ruleFaults {rule : Rule} (h : ∀ s ∈ rule.schemas, Answers above sub sub' scope s) :
    Moves above (ruleFaults sub goal scope rule x path)
      (ruleFaults sub' goal scope rule x (above ++ path)) := by
  unfold ruleFaults
  dsimp only
  split
  case h_1 | h_2 | h_3 | h_5 | h_6 | h_7 | h_9 | h_10 | h_11 | h_22 | h_23 =>
    exact moves_faultUnless rfl
  case h_4 =>
    split
    · exact moves_faultUnless rfl
    · exact moves_nil
  case h_8 =>
    split
    · exact moves_nil
    · rename_i cause hcause
      refine moves_single ?_
      unfold search at hcause
      split at hcause <;> cases hcause <;> rfl
  case h_12 => exact moves_decodedFaults
  case h_13 => exact moves_missingKeys
  case h_14 =>
    refine moves_inOrder fun e he => ?_
    split
    · exact moves_missingKeys
    · exact (h _ (List.mem_map.mpr ⟨e, (List.mem_filter.mp he).1, rfl⟩)).here
  case h_15 =>
    refine moves_inOrder fun e he => ?_
    split
    · exact (h _ (List.mem_map.mpr ⟨e, he, rfl⟩)).below
    · exact moves_nil
  case h_16 =>
    refine moves_inOrder fun p hp => moves_inOrder fun e _ => moves_inOrder fun s hs => ?_
    obtain rfl := List.mem_singleton.mp (mem_matchingSchemas hs)
    exact (h _ (List.mem_map.mpr ⟨p, hp, rfl⟩)).below
  case h_17 => exact moves_closedFaults h
  case h_18 schema _ => exact moves_nameFaults (h schema (List.mem_singleton.mpr rfl))
  case h_19 schema _ | h_21 count schema _ =>
    exact moves_inOrder fun _ _ => (h schema (List.mem_singleton.mpr rfl)).below
  case h_20 => exact moves_inOrder fun e he => (h _ (List.of_mem_zip he).1).below
  case h_24 schema _ =>
    have hs := h schema (List.mem_singleton.mpr rfl)
    exact moves_bind (keeps_someValid hs) fun _ _ => moves_faultUnless rfl
  case h_25 => exact moves_inOrder fun s hs => (h s hs).here
  case h_26 =>
    refine moves_bind (keeps_behindFirstValid h) fun valid _ => ?_
    split
    · exact moves_nil
    · exact moves_faultUnless rfl
  case h_27 schemas =>
    refine moves_bind (keeps_behindFirstValid h) fun first hfirst => ?_
    split
    · exact moves_faultUnless rfl
    · have hothers := behindFirstValid_subset hfirst
      refine moves_bind (keeps_behindFirstValid fun s hs => h s (hothers hs)) fun second _ => ?_
      split
      · exact moves_nil
      · exact moves_faultUnless rfl
  case h_28 schema =>
    have hs := h schema (List.mem_singleton.mpr rfl)
    exact moves_bind (keeps_isValid hs) fun _ _ => moves_faultUnless rfl
  case h_29 condition yes no =>
    have hs := h condition (List.mem_cons_self ..)
    refine moves_bind (keeps_isValid hs) fun valid _ => ?_
    split
    · rename_i s hs
      refine (h s ?_).here
      cases valid <;> simp_all [Rule.schemas]
    · exact moves_nil
  case h_30 => exact moves_nil

-- ---------------------------------------------------------------------------
-- Schemas
-- ---------------------------------------------------------------------------

theorem moves_memberFaults {siblings : Members}
    (h : ∀ s, Rule.Subschema scope.draft siblings s → Answers above sub sub' scope s)
    {e : String × Json} (he : e ∈ siblings) :
    Moves above (memberFaults sub goal scope siblings x path e)
      (memberFaults sub' goal scope siblings x (above ++ path) e) := by
  unfold memberFaults
  split
  · rename_i rule hrule
    exact moves_ruleFaults fun s hs => h s ⟨e, he, rule, hrule, hs⟩
  · exact moves_nil

theorem moves_self {r : Option (List Fault)} : Moves [] r r := by
  intro fs hfs
  rw [hfs, Fault.map_below_nil]

theorem moves_trans {r r' r'' : Option (List Fault)} (h : Moves [] r r') (h' : Moves [] r' r'') :
    Moves [] r r'' := by
  intro fs hfs
  simpa using h' _ (h fs hfs)

theorem answers_nil
    (h : ∀ goal x path, Moves [] (sub goal scope schema x path) (sub' goal scope schema x path)) :
    Answers [] sub sub' scope schema := by
  rintro start (rfl | rfl) goal x path
  · exact h goal x path
  · exact h goal x path

def behindFaults (corpus : Corpus) (sub : Evaluator) (goal : Goal) (scope : Scope)
    (reference : String) (x : Json) (path : Path) : Option (List Fault) :=
  match follow corpus scope reference with
  | .ok (inner, target) => sub goal inner target x path
  | .error fault => some [fault]

variable {corpus' : Corpus}

theorem moves_schemaFaults_obj {members' : Members}
    (hin : scope.inside (.obj members) = scope.inside (.obj members'))
    (hsame : Keyed.find? members "$ref" = Keyed.find? members' "$ref")
    (hmembers : Keyed.find? members "$ref" = none → Moves above
      (inOrder goal (memberFaults sub goal (scope.inside (.obj members)) members x path) members)
      (inOrder goal (memberFaults sub' goal (scope.inside (.obj members)) members' x (above ++ path))
        members'))
    (hbehind : ∀ reference, Keyed.find? members "$ref" = some (.str reference) → Moves above
      (behindFaults corpus sub goal (scope.inside (.obj members)) reference x path)
      (behindFaults corpus' sub' goal (scope.inside (.obj members)) reference x (above ++ path))) :
    Moves above (schemaFaults corpus sub goal scope (.obj members) x path)
      (schemaFaults corpus' sub' goal scope (.obj members') x (above ++ path)) := by
  cases href : Keyed.find? members "$ref" with
  | none =>
    rw [schemaFaults_obj href, schemaFaults_obj (hsame.symm.trans href), ← hin]
    exact hmembers href
  | some r =>
    cases r with
    | str reference =>
      rw [schemaFaults_ref href, schemaFaults_ref (hsame.symm.trans href), ← hin]
      exact hbehind reference href
    | _ =>
      simp only [schemaFaults, href, ← hsame]
      exact moves_nil

theorem moves_schemaFaults
    (hpart : ∀ members, schema = .obj members → Keyed.find? members "$ref" = none →
      ∀ s, Rule.Subschema scope.draft members s →
        Answers above sub sub' (scope.inside (.obj members)) s)
    (hbehind : ∀ members reference, schema = .obj members →
      Keyed.find? members "$ref" = some (.str reference) → Moves above
        (behindFaults corpus sub goal (scope.inside (.obj members)) reference x path)
        (behindFaults corpus' sub' goal (scope.inside (.obj members)) reference x (above ++ path))) :
    Moves above (schemaFaults corpus sub goal scope schema x path)
      (schemaFaults corpus' sub' goal scope schema x (above ++ path)) := by
  cases schema with
  | obj members =>
    refine moves_schemaFaults_obj rfl rfl (fun href => ?_) fun reference href =>
      hbehind members reference rfl href
    refine moves_inOrder fun e he => moves_memberFaults (fun s hs => hpart members rfl href s ?_) he
    rwa [Scope.draft_inside] at hs
  | bool b =>
    cases b with
    | true => exact moves_nil
    | false => exact moves_single rfl
  | _ => exact moves_nil

theorem answers_mono {steps more : Nat} :
    Answers [] (faultsWithin corpus steps) (faultsWithin corpus (steps + more)) scope schema := by
  induction steps generalizing scope schema with
  | zero => exact fun _ _ _ _ _ _ h => nomatch h
  | succ steps ih =>
    refine answers_nil fun goal x path => ?_
    rw [Nat.add_right_comm]
    refine moves_schemaFaults (fun _ _ _ _ _ => ih) fun members reference _ _ => ?_
    unfold behindFaults
    split
    · exact ih.here
    · exact moves_self

theorem faultsWithin_mono {steps steps' : Nat} {path : Path} {fs : List Fault}
    (hle : steps ≤ steps') (h : faultsWithin corpus steps goal scope schema x path = some fs) :
    faultsWithin corpus steps' goal scope schema x path = some fs := by
  obtain ⟨more, rfl⟩ := Nat.exists_eq_add_of_le hle
  simpa using answers_mono.here fs h

-- ---------------------------------------------------------------------------
-- Steps
-- ---------------------------------------------------------------------------

theorem four_le_totalSize : 4 ≤ MetaSchema.totalSize := by
  decide

theorem enoughSteps_pos (corpus : Corpus) (x : Json) : 15 < enoughSteps corpus x := by
  have htotal := four_le_totalSize
  have hpow : 4 ^ 2 ≤ (corpus.root.size + MetaSchema.totalSize + 1) ^ 2 :=
    Nat.pow_le_pow_left (by omega) 2
  calc 15 < 4 ^ 2 * 1 := by decide
    _ ≤ enoughSteps corpus x := Nat.mul_le_mul hpow (by omega)

variable {y : Json}

theorem pow_totalSize_mono (h : corpus.root.size ≤ corpus'.root.size) :
    (corpus.root.size + MetaSchema.totalSize + 1) ^ 2 ≤
      (corpus'.root.size + MetaSchema.totalSize + 1) ^ 2 :=
  Nat.pow_le_pow_left (by omega) 2

theorem enoughSteps_mono (hroot : corpus.root.size ≤ corpus'.root.size) (h : x.size ≤ y.size) :
    enoughSteps corpus x ≤ enoughSteps corpus' y :=
  Nat.mul_le_mul (pow_totalSize_mono hroot) (Nat.succ_le_succ h)

theorem enoughSteps_add_four (hroot : corpus.root.size ≤ corpus'.root.size) (h : x.size < y.size) :
    enoughSteps corpus x + 4 ≤ enoughSteps corpus' y := by
  have htotal := four_le_totalSize
  have hfour : 2 ^ 2 ≤ (corpus.root.size + MetaSchema.totalSize + 1) ^ 2 :=
    Nat.pow_le_pow_left (by omega) 2
  calc enoughSteps corpus x + 4
      ≤ (corpus.root.size + MetaSchema.totalSize + 1) ^ 2 * (x.size + 1 + 1) := by
        rw [Nat.mul_succ]
        exact Nat.add_le_add_left hfour _
    _ ≤ enoughSteps corpus' y := Nat.mul_le_mul (pow_totalSize_mono hroot) (Nat.succ_le_succ h)

-- ---------------------------------------------------------------------------
-- Two documents
-- ---------------------------------------------------------------------------

/-- Schemas, each in its scope, that an evaluation does not leave; their references lead to the same
places in both documents. -/
structure Closed (corpus corpus' : Corpus) (met : Scope → Json → Prop) : Prop where
  part : ∀ scope members s, met scope (.obj members) → Keyed.find? members "$ref" = none →
    Rule.Subschema scope.draft members s → met (scope.inside (.obj members)) s
  behind : ∀ scope members reference, met scope (.obj members) →
    Keyed.find? members "$ref" = some (.str reference) →
    ∃ inner target, follow corpus (scope.inside (.obj members)) reference = .ok (inner, target) ∧
      follow corpus' (scope.inside (.obj members)) reference = .ok (inner, target) ∧
      met inner target

/-- Where references do not fail, a value has the same faults in both documents, at whatever place
it is met. -/
theorem Closed.answers {met : Scope → Json → Prop} {steps steps' : Nat}
    (h : Closed corpus corpus' met) (hle : steps ≤ steps') (hm : met scope schema) :
    Answers above (faultsWithin corpus steps) (faultsWithin corpus' steps') scope schema := by
  induction steps generalizing steps' scope schema with
  | zero => exact fun _ _ _ _ _ _ h => nomatch h
  | succ steps ih =>
    obtain ⟨more, rfl⟩ : ∃ more, steps' = more + 1 := ⟨steps' - 1, by omega⟩
    have hmore : steps ≤ more := by omega
    intro start hstart goal x path
    refine moves_schemaFaults (fun members hobj href s hs => ?_) fun members reference hobj href => ?_
    · subst hobj
      exact (ih hmore (h.part _ _ _ hm href hs)).at_start hstart
    · subst hobj
      obtain ⟨inner, target, hf, hf', hmet⟩ := h.behind _ _ _ hm href
      rw [behindFaults, behindFaults, hf, hf']
      exact ((ih hmore hmet).at_start hstart).here

end Evaluation

end EventAdmission
