import EventAdmission.Proofs.Schema.Broken
import EventAdmission.Proofs.Schema.Moved

/-!
# Where faults are found

Evaluation goes down to a member or an item and adds the step to the path, or it
stays where it is. `Found` lists the ways in which a fault comes about, with what
its cause may be, and `found_evaluation` says that there are no others. What holds
of the faults that a value has itself, and goes up from the items and members to
the value, holds of all faults of an evaluation (`FaultLaw.evaluation`).
-/

namespace EventAdmission

/-- A relation between a value, the path that it is met at and a fault, which the faults found at
the value have if those found below it do. -/
structure FaultLaw (P : Json → Path → Fault → Prop) : Prop where
  here : ∀ {x path cause}, cause.isTold = true → P x path ⟨path, x, cause⟩
  /-- Where no key is allowed, the value of the first one is told. -/
  first : ∀ {e : String × Json} {rest path},
    P (.obj (e :: rest)) path ⟨path, e.2, .nothingAllowed⟩
  broken : ∀ {x path} {f : Fault}, f.IsBroken → P x path f
  item : ∀ {items : List Json} {i y path f}, items[i]? = some y →
    P y (path ++ [.index i]) f → P (.arr items) path f
  member : ∀ {members : Members} {e path f}, e ∈ members →
    P e.2 (path ++ [.key e.1]) f → P (.obj members) path f

-- ---------------------------------------------------------------------------
-- How a fault comes about
-- ---------------------------------------------------------------------------

def Rule.texts : Rule → List String
  | matching source _ => [source]
  | format name _ => [name]
  | required names => names
  | dependencies entries => entries.flatMap fun e =>
    match e.2 with
    | .arr names => names.filterMap Json.str?
    | _ => []
  | _ => []

def Rule.Tells (rule : Rule) (x : Json) : Cause → Prop
  | .missing key => key ∈ rule.texts
  | .noMatch pattern => pattern ∈ rule.texts
  | .wrongFormat name => name ∈ rule.texts
  | .unexpectedProperties keys =>
    keys ≠ [] ∧ ∃ members, x = .obj members ∧ ∀ key ∈ keys, key ∈ Keyed.keys members
  | .noneValid keyword => keyword ∈ ["anyOf", "oneOf"]
  | .wrongEncoding name => name = "base64"
  | .wrongMediaType name => name = "application/json"
  | .badName _ | .unusable _ => False
  | _ => True

def Undecodable (text : String) (fault : Text.Utf8Fault) : Prop :=
  ∃ bytes, Text.base64Decode? text.toList = some bytes ∧ Text.utf8Decode bytes = .error fault

/-- A fault comes about at a value that is met at a path: by one of the given rules, by a schema
that allows nothing, at a text that a rule decodes in vain, by one of the given faults of
references, or below the value. -/
inductive Found (rules : Rule → Prop) (broken : Fault → Prop) : Json → Path → Fault → Prop
  | told {rule : Rule} {x : Json} {path : Path} {cause : Cause} : rules rule →
    rule.Tells x cause → Found rules broken x path ⟨path, x, cause⟩
  | refused {x : Json} {path : Path} : Found rules broken x path ⟨path, x, .nothingAllowed⟩
  | first {e : String × Json} {rest : Members} {path : Path} :
    Found rules broken (.obj (e :: rest)) path ⟨path, e.2, .nothingAllowed⟩
  | undecoded {text : String} {fault : Text.Utf8Fault} {path : Path} : rules (.jsonText true) →
    Undecodable text fault →
    Found rules broken (.str text) path ⟨[], .str text, .unusable fault.message⟩
  | broken {x : Json} {path : Path} {f : Fault} : broken f → Found rules broken x path f
  | name {e : String × Json} {members : Members} {path : Path} {f : Fault} : e ∈ members →
    Found rules broken (.str e.1) path f →
    Found rules broken (.obj members) path ⟨path, .obj members, .badName f.text⟩
  | item {items : List Json} {i : Nat} {y : Json} {path : Path} {f : Fault} : items[i]? = some y →
    Found rules broken y (path ++ [.index i]) f → Found rules broken (.arr items) path f
  | member {members : Members} {e : String × Json} {path : Path} {f : Fault} : e ∈ members →
    Found rules broken e.2 (path ++ [.key e.1]) f → Found rules broken (.obj members) path f

/-- The given schemas, each in its scope, with their rules and the faults of their references. An
evaluation does not leave them. -/
structure Covers (corpus : Corpus) (met : Scope → Json → Prop) (rules : Rule → Prop)
    (broken : Fault → Prop) : Prop where
  rule : ∀ scope members e rule, met scope (.obj members) → Keyed.find? members "$ref" = none →
    e ∈ members → Rule.ofMember scope.draft members e.1 e.2 = .ok (some rule) → rules rule
  part : ∀ scope members s, met scope (.obj members) → Keyed.find? members "$ref" = none →
    Rule.Subschema scope.draft members s → met (scope.inside (.obj members)) s
  behind : ∀ scope members reference inner target, met scope (.obj members) →
    Keyed.find? members "$ref" = some (.str reference) →
    Evaluation.follow corpus (scope.inside (.obj members)) reference = .ok (inner, target) →
    met inner target
  broken : ∀ scope members reference f, met scope (.obj members) →
    Keyed.find? members "$ref" = some (.str reference) →
    Evaluation.follow corpus (scope.inside (.obj members)) reference = .error f → broken f

variable {rules : Rule → Prop} {broken : Fault → Prop} {met : Scope → Json → Prop}

theorem Rule.Tells.isTold {rule : Rule} {x : Json} {cause : Cause} (h : rule.Tells x cause) :
    cause.isTold = true := by
  cases cause with
  | unexpectedProperties keys =>
    cases keys with
    | nil => exact absurd rfl h.1
    | cons key keys => rfl
  | _ => rfl

theorem FaultLaw.found {P : Json → Path → Fault → Prop} (hP : FaultLaw P) {x : Json} {path : Path}
    {f : Fault} (h : Found rules Fault.IsBroken x path f) : P x path f := by
  induction h with
  | told _ htells => exact hP.here htells.isTold
  | refused => exact hP.here rfl
  | first => exact hP.first
  | undecoded _ _ => exact hP.broken ⟨rfl, rfl⟩
  | broken hf => exact hP.broken hf
  | name _ _ _ => exact hP.here rfl
  | item hi _ ih => exact hP.item hi ih
  | member he _ ih => exact hP.member he ih

namespace Evaluation

variable {α : Type} {corpus : Corpus} {sub : Evaluator} {goal : Goal} {scope : Scope} {x : Json}
  {path : Path} {p : Fault → Prop} {rule : Rule}

theorem mem_numbered {start : Nat} {items : List Json} {e : Nat × Json}
    (h : e ∈ numbered start items) : items[e.1]? = some e.2 := by
  obtain ⟨⟨y, i⟩, hmem, rfl⟩ := List.mem_map.mp h
  simpa using List.mem_zipIdx_iff_getElem?.mp hmem

def Finds (p : Fault → Prop) (r : Option (List Fault)) : Prop := ∀ fs, r = some fs → ∀ f ∈ fs, p f

theorem finds_none : Finds p none := by
  rintro _ ⟨⟩

theorem finds_some {fs : List Fault} (h : ∀ f ∈ fs, p f) : Finds p (some fs) := by
  rintro _ ⟨⟩
  exact h

theorem finds_nil : Finds p (some []) := finds_some (List.forall_mem_nil _)

theorem finds_single {f : Fault} (h : p f) : Finds p (some [f]) :=
  finds_some fun _ hf => List.mem_singleton.mp hf ▸ h

theorem finds_imp {q : Fault → Prop} {r : Option (List Fault)} (h : Finds p r)
    (hpq : ∀ f, p f → q f) : Finds q r := fun fs hfs f hf => hpq f (h fs hfs f hf)

theorem finds_bind {o : Option α} {f : α → Option (List Fault)}
    (h : ∀ a, o = some a → Finds p (f a)) : Finds p (o >>= f) := by
  cases o with
  | none => exact finds_none
  | some a => exact h a rfl

theorem finds_inOrder {check : α → Option (List Fault)} {xs : List α}
    (h : ∀ x ∈ xs, Finds p (check x)) : Finds p (inOrder goal check xs) := by
  induction xs with
  | nil => exact finds_nil
  | cons x xs ih =>
    obtain ⟨hx, hxs⟩ := List.forall_mem_cons.mp h
    rw [inOrder]
    refine finds_bind fun first hfirst => ?_
    split
    · exact finds_some (hx first hfirst)
    · refine finds_bind fun rest hrest => finds_some fun f hf => ?_
      rcases List.mem_append.mp hf with hf | hf
      · exact hx first hfirst f hf
      · exact ih hxs rest hrest f hf

-- ---------------------------------------------------------------------------
-- Rules
-- ---------------------------------------------------------------------------

theorem finds_faultUnless {right : Bool} {cause : Cause} (h : p ⟨path, x, cause⟩) :
    Finds p (faultUnless right path x cause) := by
  cases right with
  | true => exact finds_nil
  | false => exact finds_single h

theorem tells_search {source text : String} {pattern : Pattern} {cause : Cause}
    (h : search source pattern text = some cause) : (Rule.matching source pattern).Tells x cause := by
  unfold search at h
  split at h
  · cases h
  · obtain rfl := Option.some.inj h
    exact List.mem_singleton.mpr rfl
  · obtain rfl := Option.some.inj h
    trivial

section

variable (hrule : rules rule)

include hrule

theorem finds_told {right : Bool} {cause : Cause} (h : rule.Tells x cause) :
    Finds (Found rules broken x path) (faultUnless right path x cause) :=
  finds_faultUnless (.told hrule h)

theorem finds_missingKeys {members : Members} {names : List String}
    (h : ∀ name ∈ names, name ∈ rule.texts) :
    Finds (Found rules broken x path) (some (missingKeys members path x names)) := by
  refine finds_some fun f hf => ?_
  obtain ⟨name, hname, rfl⟩ := List.mem_map.mp hf
  exact .told hrule (h name (List.mem_filter.mp hname).1)

theorem finds_decodedFaults (hencoded : rule = .jsonText true) {text : String} :
    Finds (Found rules broken (.str text) path) (some (decodedFaults path (.str text) text)) := by
  subst hencoded
  unfold decodedFaults
  split
  · exact finds_single (.told hrule rfl)
  · rename_i bytes hbytes
    split
    · rename_i fault hfault
      exact finds_single (.undecoded hrule ⟨bytes, hbytes, hfault⟩)
    · split
      · exact finds_nil
      · exact finds_single (.told hrule rfl)

end

theorem finds_nameFaults {schema : Json} {members : Members}
    (hsub : ∀ goal x path, Finds (Found rules broken x path) (sub goal scope schema x path)) :
    Finds (Found rules broken (.obj members) path)
      (nameFaults sub goal scope schema members (.obj members) path) := by
  unfold nameFaults
  split
  · exact finds_faultUnless .refused
  · refine finds_inOrder fun key hkey => finds_bind fun faults hfaults => finds_some fun f hf => ?_
    obtain ⟨g, hg, rfl⟩ := List.mem_map.mp hf
    obtain ⟨e, he, rfl⟩ := List.mem_map.mp hkey
    exact .name he (hsub _ _ _ faults hfaults g hg)

variable (hsub : ∀ s ∈ rule.schemas, ∀ goal x path,
  Finds (Found rules broken x path) (sub goal scope s x path))

include hsub

theorem finds_member {members : Members} {e : String × Json} (he : e ∈ members) {s : Json}
    (hs : s ∈ rule.schemas) :
    Finds (Found rules broken (.obj members) path) (sub goal scope s e.2 (path ++ [.key e.1])) :=
  finds_imp (hsub s hs _ _ _) fun _ => .member he

theorem finds_item {items : List Json} {i : Nat} {y : Json} (hi : items[i]? = some y) {s : Json}
    (hs : s ∈ rule.schemas) :
    Finds (Found rules broken (.arr items) path) (sub goal scope s y (path ++ [.index i])) :=
  finds_imp (hsub s hs _ _ _) fun _ => .item hi

theorem finds_closedFaults {properties : Option Members} {patterns : Option (List KeyPattern)}
    {rest : Remainder} {members : Members} (hclosed : rule = .closed properties patterns rest)
    (hrule : rules rule) : Finds (Found rules broken (.obj members) path)
      (closedFaults sub goal scope properties patterns rest members (.obj members) path) := by
  have hproperty : ∀ e ∈ members, ∀ s ∈ schemasFor properties patterns rest e.1,
      Finds (Found rules broken (.obj members) path)
        (sub goal scope s e.2 (path ++ [.key e.1])) := by
    intro e he s hs
    apply finds_member hsub he
    rw [hclosed]
    rcases mem_schemasFor.mp hs with hs | ⟨-, rfl⟩
    · exact mem_schemas_of_named hs
    · simp [Rule.schemas]
  refine finds_bind fun named hnamed => ?_
  have hfound : ∀ f ∈ named, Found rules broken (.obj members) path f :=
    finds_inOrder (fun e he => finds_inOrder fun s hs => hproperty e he s hs) named hnamed
  split
  · exact finds_some hfound
  · split
    · split
      · exact finds_nil
      · exact finds_single .first
    · split
      · exact finds_some hfound
      · rename_i hkeys
        refine finds_some fun f hf => ?_
        rcases List.mem_append.mp hf with hf | hf
        · exact hfound f hf
        · obtain rfl := List.mem_singleton.mp hf
          exact .told hrule ⟨hkeys, members, rfl, fun key hkey => (List.mem_filter.mp hkey).1⟩

theorem finds_ruleFaults (hrule : rules rule) :
    Finds (Found rules broken x path) (ruleFaults sub goal scope rule x path) := by
  unfold ruleFaults
  dsimp only
  split
  -- Rules that look at the value itself come first, then those that check its members and items,
  -- and those that only ask whether the value is valid under other schemas.
  case h_1 | h_2 | h_3 | h_5 | h_6 | h_7 | h_22 | h_23 => exact finds_told hrule trivial
  case h_9 => exact finds_told hrule (List.mem_singleton.mpr rfl)
  case h_10 | h_11 => exact finds_told hrule rfl
  case h_4 =>
    split
    · exact finds_told hrule trivial
    · exact finds_nil
  case h_8 =>
    split
    · exact finds_nil
    · rename_i cause hcause
      exact finds_single (.told hrule (tells_search hcause))
  case h_12 => exact finds_decodedFaults hrule rfl
  case h_13 => exact finds_missingKeys hrule fun _ h => h
  case h_14 =>
    refine finds_inOrder fun e he => ?_
    have he := (List.mem_filter.mp he).1
    split
    · rename_i names hnames
      refine finds_missingKeys hrule fun name hname => List.mem_flatMap.mpr ⟨e, he, ?_⟩
      rw [hnames]
      exact hname
    · exact hsub _ (List.mem_map.mpr ⟨e, he, rfl⟩) _ _ _
  case h_15 =>
    refine finds_inOrder fun e he => ?_
    split
    · rename_i hvalue
      exact finds_member hsub (Keyed.mem_of_find? hvalue) (List.mem_map.mpr ⟨e, he, rfl⟩)
    · exact finds_nil
  case h_16 =>
    refine finds_inOrder fun p hp => finds_inOrder fun _ he => finds_inOrder fun s hs => ?_
    obtain rfl := List.mem_singleton.mp (mem_matchingSchemas hs)
    exact finds_member hsub he (List.mem_map.mpr ⟨p, hp, rfl⟩)
  case h_17 => exact finds_closedFaults hsub rfl hrule
  case h_18 schema _ => exact finds_nameFaults (hsub schema (List.mem_singleton.mpr rfl))
  case h_19 | h_21 =>
    exact finds_inOrder fun _ he => finds_item hsub (mem_numbered he) (List.mem_singleton.mpr rfl)
  case h_20 =>
    refine finds_inOrder fun _ he => ?_
    exact finds_item hsub (mem_numbered (List.of_mem_zip he).2) (List.of_mem_zip he).1
  case h_25 => exact finds_inOrder fun s hs => hsub s hs _ _ _
  case h_24 | h_28 => exact finds_bind fun _ _ => finds_told hrule trivial
  case h_26 =>
    refine finds_bind fun valid _ => ?_
    split
    · exact finds_nil
    · exact finds_told hrule (by simp [Rule.Tells])
  case h_27 =>
    refine finds_bind fun valid _ => ?_
    split
    · exact finds_told hrule (by simp [Rule.Tells])
    · refine finds_bind fun others _ => ?_
      split
      · exact finds_nil
      · exact finds_told hrule trivial
  case h_29 =>
    refine finds_bind fun valid _ => ?_
    split
    · rename_i s hs
      refine hsub s ?_ _ _ _
      cases valid <;> simp_all [Rule.schemas]
    · exact finds_nil
  case h_30 => exact finds_nil

omit hsub

-- ---------------------------------------------------------------------------
-- Schemas
-- ---------------------------------------------------------------------------

theorem finds_schemaFaults (hc : Covers corpus met rules broken)
    (hsub : ∀ goal scope s x path, met scope s →
      Finds (Found rules broken x path) (sub goal scope s x path)) {schema : Json}
    (hmet : met scope schema) :
    Finds (Found rules broken x path) (schemaFaults corpus sub goal scope schema x path) := by
  unfold schemaFaults
  split
  · exact finds_single .refused
  · rename_i members
    dsimp only
    split
    · rename_i reference href
      split
      · rename_i inner target hfollow
        exact hsub _ _ _ _ _ (hc.behind scope members reference inner target hmet href hfollow)
      · rename_i f hfollow
        exact finds_single (.broken (hc.broken scope members reference f hmet href hfollow))
    · exact finds_nil
    · rename_i href
      refine finds_inOrder fun e he => ?_
      split
      · rename_i rule hrule
        have hrule : Rule.ofMember scope.draft members e.1 e.2 = .ok (some rule) := by
          rw [← Scope.draft_inside scope (.obj members)]
          exact hrule
        refine finds_ruleFaults (fun s hs goal x path => hsub goal _ s x path ?_)
          (hc.rule scope members e rule hmet href he hrule)
        exact hc.part scope members s hmet href ⟨e, he, rule, hrule, hs⟩
      · exact finds_nil
  · exact finds_nil

theorem found_evaluation (hc : Covers corpus met rules broken) {steps : Nat} {schema : Json}
    (hmet : met scope schema) :
    Finds (Found rules broken x path) (faultsWithin corpus steps goal scope schema x path) := by
  induction steps generalizing goal scope schema x path with
  | zero => exact finds_none
  | succ steps ih => exact finds_schemaFaults hc (fun _ _ _ _ _ hmet => ih hmet) hmet

end Evaluation

/-- A law of faults holds of everything that an evaluation finds. -/
theorem FaultLaw.evaluation {P : Json → Path → Fault → Prop} (hP : FaultLaw P) {corpus : Corpus}
    {steps : Nat} {goal : Goal} {scope : Scope} {schema x : Json} {path : Path} :
    Evaluation.Finds (P x path)
      (Evaluation.faultsWithin corpus steps goal scope schema x path) := by
  have hc : Covers corpus (fun _ _ => True) (fun _ => True) Fault.IsBroken :=
    ⟨fun _ _ _ _ _ _ _ _ => trivial, fun _ _ _ _ _ _ => trivial, fun _ _ _ _ _ _ _ _ => trivial,
      fun _ _ _ _ _ _ hf => Evaluation.isBroken_follow hf⟩
  exact Evaluation.finds_imp (Evaluation.found_evaluation hc trivial) fun _ hf => hP.found hf

theorem FaultLaw.faults {P : Json → Path → Fault → Prop} (hP : FaultLaw P) {corpus : Corpus}
    {scope : Scope} {x : Json} {fs : List Fault} (h : Evaluation.faults corpus scope x = some fs) :
    ∀ f ∈ fs, P x [] f :=
  hP.evaluation fs h

end EventAdmission
