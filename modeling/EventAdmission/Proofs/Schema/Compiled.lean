import EventAdmission.Proofs.Schema.Passing
import EventAdmission.Proofs.Schema.References
import EventAdmission.Proofs.Schema.Subschemas
import EventAdmission.Schema.Compile

/-!
# What compilation makes sure of

`compile_ok` reads the success of `Schema.compile` as what it has checked.
`Compiles` is its last part, the look at the keywords: every member of a schema
has a rule or asks for nothing, and the schemas below it compile too. It does
not mention how deep the look goes; one that is as deep as the schema sees all
of it (`compiles_of_firstFault`).
-/

namespace EventAdmission

variable {scope : Scope} {members : Members} {draft : Draft} {schema : Json} {c : CompiledSchema}

namespace Schema

theorem compile_ok : compile draft schema = .ok c ↔
    ∃ base named, Corpus.rootBase draft schema = .ok base ∧
      Corpus.namesIn draft base schema = .ok named ∧ publishedFault draft schema = .ok () ∧
      Evaluation.firstFault (schema.depth + 1) ⟨base, draft⟩ schema = none ∧
      c = ⟨⟨base, draft⟩, ⟨schema, named⟩⟩ := by
  unfold compile Corpus.ofSchema
  cases Corpus.rootBase draft schema with
  | error fault => simp [bind, Except.bind]
  | ok base =>
    cases hn : Corpus.namesIn draft base schema with
    | error fault => simp [bind, Except.bind, hn]
    | ok named =>
      cases hp : publishedFault draft schema with
      | error fault => simp [bind, Except.bind, hn, pure, Except.pure]
      | ok u =>
        cases hf : Evaluation.firstFault (schema.depth + 1) ⟨base, draft⟩ schema with
        | some fault => simp [bind, Except.bind, hn, pure, Except.pure, hf]
        | none => simp [bind, Except.bind, hn, pure, Except.pure, hf, eq_comm]

end Schema

namespace Evaluation

/-- The keywords of a schema make sense, however deep one looks. -/
def Compiles (scope : Scope) (schema : Json) : Prop := ∀ fuel, firstFault fuel scope schema = none

def partFault (fuel : Nat) (scope : Scope) : Rule.Part → Option Fault
  | .schema s => firstFault fuel scope s
  | .masked s fault => (firstFault fuel scope s).map fun _ => fault
  | .fault fault => some fault

def memberFault (fuel : Nat) (scope : Scope) (members : Members) (e : String × Json) :
    Option Fault :=
  match Rule.ofMember scope.draft members e.1 e.2 with
  | .error fault => some fault
  | .ok none => none
  | .ok (some rule) => (rule.parts e.2).findSome? (partFault fuel scope)

theorem firstFault_obj {fuel : Nat} {inner : Scope} (hin : scope.enter (.obj members) = .ok inner)
    (href : Keyed.find? members "$ref" = none) :
    firstFault (fuel + 1) scope (.obj members) =
      members.findSome? (memberFault fuel inner members) := by
  simp only [firstFault, hin, href]
  rfl

theorem firstFault_enter {fuel : Nat} (h : firstFault (fuel + 1) scope (.obj members) = none) :
    scope.enter (.obj members) = .ok (scope.inside (.obj members)) := by
  rw [Scope.inside]
  cases hin : scope.enter (.obj members) with
  | error fault => simp [firstFault, hin] at h
  | ok inner => rfl

theorem partFault_eq_none {fuel : Nat} {part : Rule.Part} :
    partFault fuel scope part = none ↔
      ∃ s, part.schema? = some s ∧ firstFault fuel scope s = none := by
  cases part <;> simp [partFault, Rule.Part.schema?]

theorem memberFault_eq_none {fuel : Nat} {e : String × Json} :
    memberFault fuel scope members e = none ↔
      ∃ r, Rule.ofMember scope.draft members e.1 e.2 = .ok r ∧
        ∀ rule, r = some rule → ∀ part ∈ rule.parts e.2,
          ∃ s, part.schema? = some s ∧ firstFault fuel scope s = none := by
  rw [memberFault]
  cases hr : Rule.ofMember scope.draft members e.1 e.2 with
  | error fault => simp
  | ok r => cases r <;> simp [List.findSome?_eq_none_iff, partFault_eq_none]

/-- What a look finds in order below the depth of a schema, every look does. -/
theorem compiles_of_firstFault {fuel : Nat} (hd : schema.depth ≤ fuel)
    (h : firstFault fuel scope schema = none) : Compiles scope schema := by
  intro more
  induction more generalizing fuel scope schema with
  | zero => rfl
  | succ more ih =>
    obtain ⟨fuel, rfl⟩ : ∃ k, fuel = k + 1 := ⟨fuel - 1, by have := schema.depth_pos; omega⟩
    cases schema with
    | bool b => rfl
    | obj members =>
      have hin := firstFault_enter h
      cases href : Keyed.find? members "$ref" with
      | some r =>
        simp only [firstFault, hin, href] at h ⊢
        cases r <;> exact h
      | none =>
        rw [firstFault_obj hin href, List.findSome?_eq_none_iff] at h ⊢
        intro e he
        obtain ⟨r, hr, hparts⟩ := memberFault_eq_none.mp (h e he)
        refine memberFault_eq_none.mpr ⟨r, hr, fun rule hrule part hpart => ?_⟩
        obtain ⟨s, hs, hfault⟩ := hparts rule hrule part hpart
        subst hrule
        have hinside := Rule.within_ofMember he rule hr s (Rule.mem_schemas_of_part hpart hs)
        have hlt := Json.depth_lt hinside
        exact ⟨s, hs, ih (by omega) hfault⟩
    | _ => cases h

theorem compiles_of_compile (h : Schema.compile draft schema = .ok c) :
    Compiles c.scope schema := by
  obtain ⟨base, named, -, -, -, hf, rfl⟩ := Schema.compile_ok.mp h
  exact compiles_of_firstFault (Nat.le_succ _) hf

theorem root_of_compile (h : Schema.compile draft schema = .ok c) : c.corpus.root = schema := by
  obtain ⟨base, named, -, -, -, -, rfl⟩ := Schema.compile_ok.mp h
  rfl

/-- A schema without identifiers compiles to itself, if the published schema has nothing against it
and its keywords make sense. -/
theorem compile_nameless (hn : Schema.Nameless schema) : Schema.compile draft schema = .ok c ↔
    Schema.publishedFault draft schema = .ok () ∧ Compiles ⟨anonymousBase, draft⟩ schema ∧
      c = ⟨⟨anonymousBase, draft⟩, Corpus.anonymous schema⟩ := by
  constructor
  · intro h
    have hcompiles := compiles_of_compile h
    obtain ⟨base, named, hbase, hnamed, hpublished, -, rfl⟩ := Schema.compile_ok.mp h
    obtain rfl := Except.ok.inj ((Corpus.rootBase_nameless hn).symm.trans hbase)
    obtain rfl := Except.ok.inj ((Corpus.namesIn_nameless hn).symm.trans hnamed)
    exact ⟨hpublished, hcompiles, rfl⟩
  · rintro ⟨hpublished, hcompiles, rfl⟩
    exact Schema.compile_ok.mpr ⟨_, [], Corpus.rootBase_nameless hn, Corpus.namesIn_nameless hn,
      hpublished, hcompiles _, rfl⟩

def MemberCompiles (scope : Scope) (members : Members) (e : String × Json) : Prop :=
  ∃ r, Rule.ofMember scope.draft members e.1 e.2 = .ok r ∧
    ∀ rule, r = some rule → ∀ part ∈ rule.parts e.2, ∃ s, part.schema? = some s ∧ Compiles scope s

theorem memberCompiles_none {e : String × Json}
    (h : Rule.ofMember scope.draft members e.1 e.2 = .ok none) :
    MemberCompiles scope members e := by
  refine ⟨none, h, ?_⟩
  rintro _ ⟨⟩

theorem memberCompiles_some {e : String × Json} {rule : Rule}
    (h : Rule.ofMember scope.draft members e.1 e.2 = .ok (some rule))
    (hparts : ∀ part ∈ rule.parts e.2, ∃ s, part.schema? = some s ∧ Compiles scope s) :
    MemberCompiles scope members e := by
  refine ⟨some rule, h, ?_⟩
  rintro _ ⟨⟩
  exact hparts

theorem memberCompiles_plain {e : String × Json} {rule : Rule}
    (h : Rule.ofMember scope.draft members e.1 e.2 = .ok (some rule))
    (hparts : rule.parts e.2 = []) : MemberCompiles scope members e := by
  refine memberCompiles_some h ?_
  rw [hparts]
  exact List.forall_mem_nil _

theorem compiles_obj (hin : scope.enter (.obj members) = .ok (scope.inside (.obj members)))
    (href : Keyed.find? members "$ref" = none) :
    Compiles scope (.obj members) ↔
      ∀ e ∈ members, MemberCompiles (scope.inside (.obj members)) members e := by
  constructor
  · intro h e he
    have hnone : ∀ fuel, memberFault fuel (scope.inside (.obj members)) members e = none := by
      intro fuel
      have hf := h (fuel + 1)
      rw [firstFault_obj hin href, List.findSome?_eq_none_iff] at hf
      exact hf e he
    obtain ⟨r, hr, -⟩ := memberFault_eq_none.mp (hnone 0)
    have hparts : ∀ fuel rule, r = some rule → ∀ part ∈ rule.parts e.2,
        ∃ s, part.schema? = some s ∧ firstFault fuel (scope.inside (.obj members)) s = none := by
      intro fuel
      obtain ⟨r', hr', hparts⟩ := memberFault_eq_none.mp (hnone fuel)
      obtain rfl := Except.ok.inj (hr.symm.trans hr')
      exact hparts
    refine ⟨r, hr, fun rule hrule part hpart => ?_⟩
    obtain ⟨s, hs, -⟩ := hparts 0 rule hrule part hpart
    refine ⟨s, hs, fun fuel => ?_⟩
    obtain ⟨s', hs', hfault⟩ := hparts fuel rule hrule part hpart
    obtain rfl := Option.some.inj (hs.symm.trans hs')
    exact hfault
  · intro h fuel
    cases fuel with
    | zero => rfl
    | succ fuel =>
      rw [firstFault_obj hin href, List.findSome?_eq_none_iff]
      intro e he
      obtain ⟨r, hr, hparts⟩ := h e he
      refine memberFault_eq_none.mpr ⟨r, hr, fun rule hrule part hpart => ?_⟩
      obtain ⟨s, hs, hcompiles⟩ := hparts rule hrule part hpart
      exact ⟨s, hs, hcompiles fuel⟩

theorem compiles_of_members (hid : Schema.id? scope.draft (.obj members) = none)
    (href : Keyed.find? members "$ref" = none) :
    Compiles scope (.obj members) ↔ ∀ e ∈ members, MemberCompiles scope members e := by
  have hin : scope.inside (.obj members) = scope := Scope.inside_of_no_id hid
  have henter : scope.enter (.obj members) = .ok scope := by simp [Scope.enter, hid]
  have hobj := compiles_obj (henter.trans (congrArg Except.ok hin.symm)) href
  rwa [hin] at hobj

theorem Compiles.member (h : Compiles scope (.obj members))
    (href : Keyed.find? members "$ref" = none) {e : String × Json} (he : e ∈ members) :
    ∃ r, Rule.ofMember scope.draft members e.1 e.2 = .ok r ∧
      ∀ rule, r = some rule → ∀ s, Rule.Part.schema s ∈ rule.parts e.2 →
        Compiles (scope.inside (.obj members)) s := by
  obtain ⟨r, hr, hparts⟩ := (compiles_obj (firstFault_enter (h 1)) href).mp h e he
  rw [Scope.draft_inside] at hr
  refine ⟨r, hr, fun rule hrule s hs => ?_⟩
  obtain ⟨s', hs', hcompiles⟩ := hparts rule hrule _ hs
  exact Option.some.inj hs' ▸ hcompiles

theorem Compiles.property {properties : Members} {key : String}
    (h : Compiles scope (.obj members)) (href : Keyed.find? members "$ref" = none)
    (hp : Keyed.find? members "properties" = some (.obj properties))
    (hs : Keyed.find? properties key = some schema) :
    Compiles (scope.inside (.obj members)) schema := by
  have hmem := Keyed.mem_of_find? hp
  cases hclose : Rule.closesProperties members with
  | false =>
    obtain ⟨r, hr, hparts⟩ := h.member href hmem
    have hrule : Rule.ofMember scope.draft members "properties" (.obj properties) =
        if Rule.closesProperties members = true then .ok none
        else .ok (some (.properties properties)) := rfl
    rw [hrule, hclose] at hr
    obtain rfl := Except.ok.inj hr
    refine hparts _ rfl schema ?_
    exact List.mem_map.mpr ⟨(key, schema), Keyed.mem_of_find? hs, rfl⟩
  | true =>
    obtain ⟨value, hv, hvalue⟩ := additional_of_closes hclose
    obtain ⟨r, hr, hparts⟩ := h.member href (Keyed.mem_of_find? hv)
    obtain ⟨named, patterns, rfl, hnamed, -⟩ := additionalOf_ok hvalue hr
    cases named with
    | none => simp [hp] at hnamed
    | some named =>
      obtain rfl : properties = named := by simpa [hp] using hnamed
      refine hparts _ rfl schema ?_
      simp only [Rule.parts, List.mem_append]
      exact .inl (.inr (List.mem_map.mpr ⟨(key, schema), Keyed.mem_of_find? hs, rfl⟩))

end Evaluation

end EventAdmission
