import EventAdmission.Proofs.Schema.Discovery

/-!
# What an evaluation gets to

`Reached` follows the rules and references of a compiled schema from its root. All
faults of a document come about by the rules of these schemas and at their
references (`CompiledSchema.found`), and `Found.placed` tells which of them have no
place in the document.
-/

namespace EventAdmission

open Evaluation

variable {c : CompiledSchema} {x : Json} {path : Path} {f : Fault} {fs : List Fault}
  {rules : Rule → Prop} {broken : Fault → Prop}

/-- The schemas that an evaluation can get to, each in the scope that it is met in. -/
inductive Reached (c : CompiledSchema) : Scope → Json → Prop
  | root : Reached c c.scope c.corpus.root
  | part {scope : Scope} {members : Members} {s : Json} : Reached c scope (.obj members) →
    Keyed.find? members "$ref" = none → Rule.Subschema scope.draft members s →
    Reached c (scope.inside (.obj members)) s
  | behind {scope inner : Scope} {members : Members} {reference : String} {target : Json} :
    Reached c scope (.obj members) → Keyed.find? members "$ref" = some (.str reference) →
    follow c.corpus (scope.inside (.obj members)) reference = .ok (inner, target) →
    Reached c inner target

namespace CompiledSchema

def Asks (c : CompiledSchema) (rule : Rule) : Prop :=
  ∃ scope members e, Reached c scope (.obj members) ∧ Keyed.find? members "$ref" = none ∧
    e ∈ members ∧ Rule.ofMember scope.draft members e.1 e.2 = .ok (some rule)

/-- The fault of a reference that an evaluation can get to and that leads nowhere. -/
def Misses (c : CompiledSchema) (f : Fault) : Prop :=
  ∃ scope members reference, Reached c scope (.obj members) ∧
    Keyed.find? members "$ref" = some (.str reference) ∧
      follow c.corpus (scope.inside (.obj members)) reference = .error f

theorem covers (c : CompiledSchema) : Covers c.corpus (Reached c) c.Asks c.Misses where
  rule scope members e _ h href he hrule := ⟨scope, members, e, h, href, he, hrule⟩
  part _ _ _ h href hs := h.part href hs
  behind _ _ _ _ _ h href hf := h.behind href hf
  broken scope members reference _ h href hf := ⟨scope, members, reference, h, href, hf⟩

theorem found (h : Evaluation.faults c.corpus c.scope x = some fs) :
    ∀ f ∈ fs, Found c.Asks c.Misses x [] f :=
  found_evaluation c.covers .root fs h

end CompiledSchema

-- ---------------------------------------------------------------------------
-- Places
-- ---------------------------------------------------------------------------

theorem Rule.Tells.isPlaced {rule : Rule} {cause : Cause} (h : rule.Tells x cause) :
    Fault.isPlaced ⟨path, x, cause⟩ = true := by
  cases cause with
  | unusable text => exact h.elim
  | _ => rfl

/-- A string in the document is base 64 of bytes that are no text, which is told without a place. -/
def Fault.IsUndecoded (x : Json) (f : Fault) : Prop :=
  ∃ text fault, .str text ∈ x.values ∧ Undecodable text fault ∧
    f = ⟨[], .str text, .unusable fault.message⟩

theorem Fault.IsUndecoded.trans {y : Json} (h : f.IsUndecoded y) (hy : y ∈ x.values) :
    f.IsUndecoded x := by
  obtain ⟨text, fault, htext, hf⟩ := h
  exact ⟨text, fault, Json.mem_values_trans hy htext, hf⟩

theorem Fault.IsUndecoded.unplaced (h : f.IsUndecoded x) : f.path = [] ∧ f.isPlaced = false := by
  obtain ⟨text, fault, -, -, rfl⟩ := h
  exact ⟨rfl, rfl⟩

/-- A fault has the place of its value or one below, but for those of a string that a rule decodes
in vain, and those of references. -/
theorem Found.placed (h : Found rules broken x path f) :
    (path <+: f.path ∧ f.isPlaced = true) ∨ broken f ∨
      rules (.jsonText true) ∧ f.IsUndecoded x := by
  induction h with
  | told _ htells => exact .inl ⟨List.prefix_refl _, htells.isPlaced⟩
  | refused => exact .inl ⟨List.prefix_refl _, rfl⟩
  | first => exact .inl ⟨List.prefix_refl _, rfl⟩
  | undecoded hrule h => exact .inr (.inr ⟨hrule, _, _, Json.mem_values_self, h, rfl⟩)
  | broken h => exact .inr (.inl h)
  | name _ _ _ => exact .inl ⟨List.prefix_refl _, rfl⟩
  | item hi _ ih =>
    have hy := Json.inside_item (List.mem_of_getElem? hi) Json.mem_values_self
    rcases ih with ⟨hplace, hplaced⟩ | hbroken | ⟨hrule, hundecoded⟩
    · exact .inl ⟨(List.prefix_append _ _).trans hplace, hplaced⟩
    · exact .inr (.inl hbroken)
    · exact .inr (.inr ⟨hrule, hundecoded.trans (Json.mem_values.mpr (.inr hy))⟩)
  | member he _ ih =>
    have hy := Json.inside_member he Json.mem_values_self
    rcases ih with ⟨hplace, hplaced⟩ | hbroken | ⟨hrule, hundecoded⟩
    · exact .inl ⟨(List.prefix_append _ _).trans hplace, hplaced⟩
    · exact .inr (.inl hbroken)
    · exact .inr (.inr ⟨hrule, hundecoded.trans (Json.mem_values.mpr (.inr hy))⟩)

-- ---------------------------------------------------------------------------
-- Schemas without references
-- ---------------------------------------------------------------------------

variable {scope : Scope} {s : Json}

theorem Reached.mem_values (hplain : ∀ y ∈ c.corpus.root.values, y.member? "$ref" = none)
    (h : Reached c scope s) : s ∈ c.corpus.root.values := by
  induction h with
  | root => exact Json.mem_values_self
  | part _ _ hs ih => exact Json.mem_values_trans ih (Json.mem_values.mpr (.inr hs.inside))
  | behind _ href _ ih => exact absurd ((hplain _ ih).symm.trans href) (by simp)

theorem CompiledSchema.not_misses (hplain : ∀ y ∈ c.corpus.root.values, y.member? "$ref" = none) :
    ¬ c.Misses f := by
  rintro ⟨scope, members, reference, hreached, href, -⟩
  exact absurd ((hplain _ (hreached.mem_values hplain)).symm.trans href) (by simp)

end EventAdmission
