import EventAdmission.Proofs.Keyed
import EventAdmission.Schema.Evaluate

/-!
# When a value passes

`Passes`: the evaluation of a value under a schema comes to an end and finds
nothing. A schema object without a reference is passed if each of its members
is (`passes_obj`), so for every keyword there is one law that says what the
keyword asks. The schemas below the keyword stay as they are: they are asked in
one step less.
-/

namespace EventAdmission

def Scope.inside (scope : Scope) (schema : Json) : Scope :=
  match scope.enter schema with
  | .ok inner => inner
  | .error _ => scope

@[simp] theorem Scope.draft_inside (scope : Scope) (schema : Json) :
    (scope.inside schema).draft = scope.draft := by
  simp only [Scope.inside, Scope.enter]
  cases Schema.id? scope.draft schema with
  | none => rfl
  | some id =>
    simp only [bind, Except.bind]
    cases scope.base.join id <;> rfl

theorem Scope.inside_of_no_id {scope : Scope} {schema : Json}
    (h : Schema.id? scope.draft schema = none) : scope.inside schema = scope := by
  simp [Scope.inside, Scope.enter, h]

namespace Evaluation

variable {α : Type} {corpus : Corpus} {sub : Evaluator} {goal : Goal} {scope : Scope}
  {siblings members : Members} {x value schema : Json} {path : Path} {steps : Nat}

def memberFaults (sub : Evaluator) (goal : Goal) (scope : Scope) (siblings : Members) (x : Json)
    (path : Path) (e : String × Json) : Option (List Fault) :=
  match Rule.ofMember scope.draft siblings e.1 e.2 with
  | .ok (some rule) => ruleFaults sub goal scope rule x path
  | _ => some []

/-- The evaluation of a value ends within the steps and finds nothing. -/
def Passes (corpus : Corpus) (steps : Nat) (scope : Scope) (schema x : Json) (path : Path) : Prop :=
  faultsWithin corpus steps .faults scope schema x path = some []

theorem inOrder_eq_nil {check : α → Option (List Fault)} {xs : List α} :
    inOrder goal check xs = some [] ↔ ∀ x ∈ xs, check x = some [] := by
  induction xs with
  | nil => simp [inOrder]
  | cons x xs ih =>
    simp only [inOrder, List.forall_mem_cons, ← ih]
    cases hx : check x with
    | none => simp
    | some first =>
      cases first with
      | nil => cases hxs : inOrder goal check xs <;> simp
      | cons f rest =>
        cases goal with
        | verdict => simp
        | faults => cases hxs : inOrder Goal.faults check xs <;> simp

theorem inOrder_filter {check : α → Option (List Fault)} {keep : α → Bool} {xs : List α}
    (h : ∀ x ∈ xs, keep x = false → check x = some []) :
    inOrder goal check (xs.filter keep) = inOrder goal check xs := by
  induction xs with
  | nil => rfl
  | cons x xs ih =>
    obtain ⟨hx, hxs⟩ := List.forall_mem_cons.mp h
    cases hk : keep x with
    | true => rw [List.filter_cons_of_pos hk, inOrder, inOrder, ih hxs]
    | false =>
      rw [List.filter_cons_of_neg (by simp [hk]), inOrder, hx hk, ih hxs]
      cases inOrder goal check xs <;> simp

theorem faultUnless_eq_nil {right : Bool} {cause : Cause} :
    faultUnless right path x cause = some [] ↔ right = true := by
  cases right <;> simp [faultUnless]

theorem schemaFaults_obj (h : Keyed.find? members "$ref" = none) :
    schemaFaults corpus sub goal scope (.obj members) x path =
      inOrder goal (memberFaults sub goal (scope.inside (.obj members)) members x path) members := by
  simp only [schemaFaults, h]
  rfl

theorem schemaFaults_ref {reference : String}
    (h : Keyed.find? members "$ref" = some (.str reference)) :
    schemaFaults corpus sub goal scope (.obj members) x path =
      match follow corpus (scope.inside (.obj members)) reference with
      | .ok (scope, target) => sub goal scope target x path
      | .error fault => some [fault] := by
  simp only [schemaFaults, h]
  rfl

theorem passes_obj (h : Keyed.find? members "$ref" = none) :
    Passes corpus (steps + 1) scope (.obj members) x path ↔
      ∀ e ∈ members, memberFaults (faultsWithin corpus steps) .faults (scope.inside (.obj members))
        members x path e = some [] := by
  rw [Passes, faultsWithin, schemaFaults_obj h, inOrder_eq_nil]

-- ---------------------------------------------------------------------------
-- Keywords for any value
-- ---------------------------------------------------------------------------

theorem memberFaults_type (k : Kind) :
    memberFaults sub goal scope siblings x path ("type", .str k.name) = some [] ↔
      k.holds scope.draft x = true := by
  have hrule : Rule.ofMember scope.draft siblings "type" (.str k.name) =
      .ok (some (.kinds [k])) := by
    cases k <;> rfl
  rw [memberFaults, hrule]
  simp [ruleFaults, faultUnless_eq_nil]

theorem holds_object {draft : Draft} : Kind.object.holds draft x = true ↔ ∃ m, x = .obj m := by
  cases x <;> simp [Kind.holds]

theorem holds_array {draft : Draft} : Kind.array.holds draft x = true ↔ ∃ items, x = .arr items := by
  cases x <;> simp [Kind.holds]

theorem holds_string {draft : Draft} : Kind.string.holds draft x = true ↔ ∃ s, x = .str s := by
  cases x <;> simp [Kind.holds]

theorem memberFaults_enum (options : List Json) :
    memberFaults sub goal scope siblings x path ("enum", .arr options) = some [] ↔
      options.any x.sameMeaning = true := by
  have hrule : Rule.ofMember scope.draft siblings "enum" (.arr options) =
      .ok (some (.listed options)) := rfl
  rw [memberFaults, hrule]
  simp only [ruleFaults, faultUnless_eq_nil]

theorem memberFaults_pattern {source : String} {p : Pattern} (s : String)
    (hp : Pattern.ofKeyword? source = some p) :
    memberFaults sub goal scope siblings (.str s) path ("pattern", .str source) = some [] ↔
      p.search s = .found := by
  have hrule : Rule.ofMember scope.draft siblings "pattern" (.str source) =
      some <$> Rule.patternOf (.str source) := rfl
  have hpattern : Rule.patternOf (.str source) = .ok (.matching source p) := by
    simp only [Rule.patternOf, Rule.stringOf, bind, Except.bind, hp]
    rfl
  rw [memberFaults, hrule, hpattern]
  simp only [Functor.map, Except.map, ruleFaults, search]
  cases p.search s <;> simp

-- ---------------------------------------------------------------------------
-- Keywords for objects
-- ---------------------------------------------------------------------------

theorem missingKeys_eq_nil {names : List String} :
    missingKeys members path x names = [] ↔
      ∀ name ∈ names, ∃ value, Keyed.find? members name = some value := by
  simp [missingKeys, Keyed.contains_iff]

theorem memberFaults_required_eq {names : List String} (h : Rule.namesOf value = .ok names) :
    memberFaults sub goal scope siblings (.obj members) path ("required", value) =
      some (missingKeys members path (.obj members) names) := by
  have hrule : Rule.ofMember scope.draft siblings "required" value =
      some <$> (.required <$> Rule.namesOf value) := rfl
  rw [memberFaults, hrule, h]
  rfl

theorem memberFaults_required {names : List String} (h : Rule.namesOf value = .ok names) :
    memberFaults sub goal scope siblings (.obj members) path ("required", value) = some [] ↔
      ∀ name ∈ names, ∃ v, Keyed.find? members name = some v := by
  rw [memberFaults_required_eq h, Option.some.injEq, missingKeys_eq_nil]

def propertyFaults (sub : Evaluator) (goal : Goal) (scope : Scope) (members : Members) (path : Path)
    (e : String × Json) : Option (List Fault) :=
  match Keyed.find? members e.1 with
  | some value => sub goal scope e.2 value (path ++ [.key e.1])
  | none => some []

theorem propertyFaults_eq_nil {e : String × Json} :
    propertyFaults sub goal scope members path e = some [] ↔
      ∀ v, Keyed.find? members e.1 = some v →
        sub goal scope e.2 v (path ++ [.key e.1]) = some [] := by
  rw [propertyFaults]
  cases Keyed.find? members e.1 <;> simp

theorem memberFaults_properties_eq {entries : Members}
    (h : Rule.closesProperties siblings = false) :
    memberFaults sub goal scope siblings (.obj members) path ("properties", .obj entries) =
      inOrder goal (propertyFaults sub goal scope members path) entries := by
  have hrule : Rule.ofMember scope.draft siblings "properties" (.obj entries) =
      if Rule.closesProperties siblings = true then .ok none
      else .ok (some (.properties entries)) := rfl
  rw [memberFaults, hrule, h]
  rfl

theorem memberFaults_properties {entries : Members}
    (h : Rule.closesProperties siblings = false) :
    memberFaults sub goal scope siblings (.obj members) path ("properties", .obj entries) =
        some [] ↔
      ∀ e ∈ entries, ∀ v, Keyed.find? members e.1 = some v →
        sub goal scope e.2 v (path ++ [.key e.1]) = some [] := by
  rw [memberFaults_properties_eq h, inOrder_eq_nil]
  simp only [propertyFaults_eq_nil]

theorem memberFaults_closed_properties (h : Rule.closesProperties siblings = true) :
    memberFaults sub goal scope siblings x path ("properties", value) = some [] := by
  have hrule : Rule.ofMember scope.draft siblings "properties" value =
      if Rule.closesProperties siblings = true then .ok none
      else some <$> (.properties <$> Rule.membersOf value) := rfl
  rw [memberFaults, hrule, if_pos h]

def schemasFor (properties : Option Members) (patterns : Option (List KeyPattern))
    (rest : Remainder) (key : String) : List Json :=
  let schemas := namedSchemas properties patterns key
  match schemas, rest with
  | [], .checked schema => [schema]
  | _, _ => schemas

variable {properties : Option Members} {patterns : Option (List KeyPattern)} {rest : Remainder}

theorem schemasFor_forbidden (key : String) :
    schemasFor properties patterns .forbidden key = namedSchemas properties patterns key := by
  simp only [schemasFor]
  split
  · rename_i h
    cases h
  · rfl

theorem mem_schemasFor {s : Json} {key : String} :
    s ∈ schemasFor properties patterns rest key ↔ s ∈ namedSchemas properties patterns key ∨
      (namedSchemas properties patterns key = [] ∧ rest = .checked s) := by
  simp only [schemasFor]
  split
  · rename_i hnil
    simp [hnil, eq_comm]
  · rename_i hnot
    constructor
    · exact .inl
    · rintro (h | ⟨hnil, rfl⟩)
      · exact h
      · exact absurd rfl (hnot _ hnil)

def PropertiesPass (sub : Evaluator) (goal : Goal) (scope : Scope) (properties : Option Members)
    (patterns : Option (List KeyPattern)) (rest : Remainder) (members : Members) (path : Path) :
    Prop :=
  ∀ e ∈ members, ∀ s ∈ schemasFor properties patterns rest e.1,
    sub goal scope s e.2 (path ++ [.key e.1]) = some []

theorem propertiesPass_iff :
    PropertiesPass sub goal scope properties patterns rest members path ↔
      inOrder goal (fun e : String × Json =>
        inOrder goal (fun s => sub goal scope s e.2 (path ++ [.key e.1]))
          (schemasFor properties patterns rest e.1)) members = some [] := by
  simp only [PropertiesPass, inOrder_eq_nil]

theorem closedFaults_checked :
    closedFaults sub goal scope properties patterns (.checked schema) members x path = some [] ↔
      PropertiesPass sub goal scope properties patterns (.checked schema) members path := by
  rw [propertiesPass_iff]
  unfold closedFaults
  rw [Option.bind_eq_bind, Option.bind_eq_some_iff]
  constructor
  · rintro ⟨named, hnamed, h⟩
    obtain rfl := Option.some.inj h
    exact hnamed
  · intro h
    exact ⟨[], h, rfl⟩

theorem unnamedKeys_eq_nil :
    unnamedKeys properties patterns members = [] ↔
      ∀ e ∈ members, namedSchemas properties patterns e.1 ≠ [] := by
  simp [unnamedKeys, Keyed.keys]

theorem closedFaults_forbidden (h : properties.isSome = true) :
    closedFaults sub goal scope properties patterns .forbidden members x path = some [] ↔
      PropertiesPass sub goal scope properties patterns .forbidden members path ∧
        ∀ e ∈ members, namedSchemas properties patterns e.1 ≠ [] := by
  have hnone : (properties.isNone && patterns.isNone) = false := by
    cases properties <;> simp_all
  rw [← unnamedKeys_eq_nil, propertiesPass_iff]
  unfold closedFaults
  rw [Option.bind_eq_bind, Option.bind_eq_some_iff]
  simp only [hnone, Bool.false_eq_true, ↓reduceIte]
  constructor
  · rintro ⟨named, hnamed, h⟩
    split at h
    · rename_i hkeys
      obtain rfl := Option.some.inj h
      exact ⟨hnamed, hkeys⟩
    · simp at h
  · rintro ⟨hall, hkeys⟩
    exact ⟨[], hall, by rw [hkeys]⟩

theorem closedFaults_eq_nil (h : properties.isSome = true) :
    closedFaults sub goal scope properties patterns rest members x path = some [] ↔
      PropertiesPass sub goal scope properties patterns rest members path ∧
        (rest = .forbidden → ∀ e ∈ members, namedSchemas properties patterns e.1 ≠ []) := by
  cases rest with
  | checked schema => simp [closedFaults_checked]
  | forbidden => simp [closedFaults_forbidden h]

theorem memberFaults_additionalProperties
    (h : Rule.additionalOf siblings value = .ok (some (.closed properties patterns rest))) :
    memberFaults sub goal scope siblings (.obj members) path ("additionalProperties", value) =
      closedFaults sub goal scope properties patterns rest members (.obj members) path := by
  have hrule : Rule.ofMember scope.draft siblings "additionalProperties" value =
      Rule.additionalOf siblings value := rfl
  rw [memberFaults, hrule, h]
  rfl

-- ---------------------------------------------------------------------------
-- Keywords for lists
-- ---------------------------------------------------------------------------

theorem memberFaults_items {entries : Members} (items : List Json) :
    memberFaults sub goal scope siblings (.arr items) path ("items", .obj entries) = some [] ↔
      ∀ i item, items[i]? = some item →
        sub goal scope (.obj entries) item (path ++ [.index i]) = some [] := by
  have hrule : Rule.ofMember scope.draft siblings "items" (.obj entries) =
      .ok (some (.eachItem (.obj entries))) := rfl
  rw [memberFaults, hrule]
  simp only [ruleFaults, inOrder_eq_nil, numbered, List.drop_zero, Nat.zero_add, List.mem_map,
    Prod.exists, List.mk_mem_zipIdx_iff_getElem?]
  constructor
  · intro h i item hi
    exact h (i, item) ⟨item, i, hi, rfl⟩
  · rintro h _ ⟨item, i, hi, rfl⟩
    exact h i item hi

end Evaluation

end EventAdmission
