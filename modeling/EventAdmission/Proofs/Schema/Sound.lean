import EventAdmission.Proofs.Schema.Siblings

/-!
# Keywords that make sense

A schema without a reference compiles if its keywords make sense, each of them
together with few others. For the three keywords about properties that comes to
a condition on the value of each (`PropertiesSound`): what closes an object looks
at the same schemas and patterns as the keywords themselves do. The other rules
read few keywords, and none of the required names.
-/

namespace EventAdmission.Evaluation

variable {scope : Scope} {members siblings siblings' : Members} {x v : Json} {key : String}

-- ---------------------------------------------------------------------------
-- Properties
-- ---------------------------------------------------------------------------

def propertyKeywords : List String := ["additionalProperties", "patternProperties", "properties"]

def NamedSound (scope : Scope) (v : Json) : Prop :=
  ∃ entries, v = .obj entries ∧ ∀ e ∈ entries, Compiles scope e.2

def PatternsSound (scope : Scope) (v : Json) : Prop :=
  ∃ entries, v = .obj entries ∧
    ∀ e ∈ entries, (Pattern.compile? e.1).isSome = true ∧ Compiles scope e.2

structure PropertiesSound (scope : Scope) (members : Members) : Prop where
  properties : ∀ v, Keyed.find? members "properties" = some v → NamedSound scope v
  patterns : ∀ v, Keyed.find? members "patternProperties" = some v → PatternsSound scope v
  additional : ∀ v, Keyed.find? members "additionalProperties" = some v → Compiles scope v

theorem compiles_bool {b : Bool} : Compiles scope (.bool b) := by
  intro fuel
  cases fuel <;> rfl

def PartsCompile (scope : Scope) (parts : List Rule.Part) : Prop :=
  ∀ part ∈ parts, ∃ s, part.schema? = some s ∧ Compiles scope s

variable {parts others : List Rule.Part} {entries : Members} {fault : Fault}

theorem partsCompile_append :
    PartsCompile scope (parts ++ others) ↔ PartsCompile scope parts ∧ PartsCompile scope others :=
  List.forall_mem_append

theorem partsCompile_single : PartsCompile scope [.schema x] ↔ Compiles scope x := by
  simp [PartsCompile, Rule.Part.schema?]

theorem partsCompile_schemas : PartsCompile scope (entries.map fun e => .schema e.2) ↔
    ∀ e ∈ entries, Compiles scope e.2 := by
  rw [PartsCompile, List.forall_mem_map]
  exact forall₂_congr fun _ _ => by simp [Rule.Part.schema?]

theorem partsCompile_flatMap {α : Type} {f : α → List Rule.Part} {xs : List α} :
    PartsCompile scope (xs.flatMap f) ↔ ∀ x ∈ xs, PartsCompile scope (f x) := by
  simp only [PartsCompile, List.mem_flatMap, forall_exists_index, and_imp]
  exact ⟨fun h x hx part hpart => h part x hx hpart, fun h part x hx hpart => h x hx part hpart⟩

theorem partsCompile_ofPattern {e : String × Json} :
    PartsCompile scope (Rule.Part.ofPattern ⟨e.1, Pattern.compile? e.1, e.2⟩) ↔
      (Pattern.compile? e.1).isSome = true ∧ Compiles scope e.2 := by
  cases hp : Pattern.compile? e.1 <;>
    simp [PartsCompile, Rule.Part.ofPattern, Rule.Part.schema?]

theorem partsCompile_ofMaskedPattern {e : String × Json} :
    PartsCompile scope (Rule.Part.ofMaskedPattern fault ⟨e.1, Pattern.compile? e.1, e.2⟩) ↔
      (Pattern.compile? e.1).isSome = true ∧ Compiles scope e.2 := by
  cases hp : Pattern.compile? e.1 <;>
    simp [PartsCompile, Rule.Part.ofMaskedPattern, Rule.Part.schema?]

theorem partsCompile_patterns :
    PartsCompile scope ((Rule.keyPatterns entries).flatMap Rule.Part.ofPattern) ↔
      ∀ e ∈ entries, (Pattern.compile? e.1).isSome = true ∧ Compiles scope e.2 := by
  rw [partsCompile_flatMap, Rule.keyPatterns, List.forall_mem_map]
  exact forall₂_congr fun _ _ => partsCompile_ofPattern

theorem partsCompile_maskedPatterns :
    PartsCompile scope ((Rule.keyPatterns entries).flatMap (Rule.Part.ofMaskedPattern fault)) ↔
      ∀ e ∈ entries, (Pattern.compile? e.1).isSome = true ∧ Compiles scope e.2 := by
  rw [partsCompile_flatMap, Rule.keyPatterns, List.forall_mem_map]
  exact forall₂_congr fun _ _ => partsCompile_ofMaskedPattern

theorem memberCompiles_ok {e : String × Json} {r : Option Rule}
    (hr : Rule.ofMember scope.draft siblings e.1 e.2 = .ok r) :
    MemberCompiles scope siblings e ↔ ∀ rule, r = some rule → PartsCompile scope (rule.parts e.2) := by
  constructor
  · rintro ⟨r', hr', hparts⟩
    obtain rfl := Except.ok.inj (hr.symm.trans hr')
    exact hparts
  · exact fun h => ⟨r, hr, h⟩

theorem memberCompiles_rule {e : String × Json} {rule : Rule}
    (hr : Rule.ofMember scope.draft siblings e.1 e.2 = .ok (some rule)) :
    MemberCompiles scope siblings e ↔ PartsCompile scope (rule.parts e.2) := by
  rw [memberCompiles_ok hr]
  simp

-- ---------------------------------------------------------------------------
-- Properties
-- ---------------------------------------------------------------------------

theorem memberCompiles_properties (h : Rule.closesProperties siblings = false) :
    MemberCompiles scope siblings ("properties", v) ↔ NamedSound scope v := by
  have hrule : Rule.ofMember scope.draft siblings "properties" v =
      if Rule.closesProperties siblings = true then .ok none
      else some <$> (.properties <$> Rule.membersOf v) := rfl
  rw [h] at hrule
  cases v with
  | obj entries =>
    rw [memberCompiles_rule hrule]
    simp [Rule.parts, partsCompile_schemas, NamedSound]
  | _ =>
    constructor
    · rintro ⟨r, hr, -⟩
      cases hrule.symm.trans hr
    · rintro ⟨_, ⟨⟩, -⟩

theorem ofMember_malformed {draft : Draft} (h : Rule.closesProperties siblings = false)
    (hv : v.isObj = false) :
    Rule.ofMember draft siblings "patternProperties" v = .error (Rule.malformed v) := by
  have hclosed : ¬Rule.closesProperties siblings = true := by simp [h]
  cases v with
  | obj entries => cases hv
  | _ => exact if_neg hclosed

theorem memberCompiles_patternProperties (h : Rule.closesProperties siblings = false) :
    MemberCompiles scope siblings ("patternProperties", v) ↔ PatternsSound scope v := by
  cases v with
  | obj entries =>
    have hrule : Rule.ofMember scope.draft siblings "patternProperties" (.obj entries) =
        if Rule.closesProperties siblings = true then .ok none
        else .ok (some (.patternProperties (Rule.keyPatterns entries))) := rfl
    rw [h] at hrule
    rw [memberCompiles_rule hrule]
    simp [Rule.parts, partsCompile_patterns, PatternsSound]
  | _ =>
    constructor
    · rintro ⟨r, hr, -⟩
      cases (ofMember_malformed h rfl).symm.trans hr
    · rintro ⟨_, ⟨⟩, -⟩

/-- Where additional properties are closed, the other two keywords have no rule of their own. -/
theorem memberCompiles_closed (h : Rule.closesProperties siblings = true)
    (hkey : key = "patternProperties" ∨ key = "properties") :
    MemberCompiles scope siblings (key, v) := by
  refine memberCompiles_none ?_
  rcases hkey with rfl | rfl <;> cases v <;> exact if_pos h

theorem patternsBeside_sound (fault : Fault) :
    (∃ patterns, patternsBeside siblings v = .ok patterns ∧
      PartsCompile scope ((patterns.getD []).flatMap (Rule.Part.ofMaskedPattern fault))) ↔
        ∀ p, Keyed.find? siblings "patternProperties" = some p → PatternsSound scope p := by
  unfold patternsBeside
  cases Keyed.find? siblings "patternProperties" with
  | none => simp [PartsCompile]
  | some p =>
    cases p with
    | obj entries => simp [PatternsSound, partsCompile_maskedPatterns]
    | _ => simp [PatternsSound]

theorem propertiesBeside_sound :
    (∃ properties, propertiesBeside siblings = .ok properties ∧
      PartsCompile scope ((properties.getD []).map fun e => .schema e.2)) ↔
        ∀ p, Keyed.find? siblings "properties" = some p → NamedSound scope p := by
  unfold propertiesBeside
  cases Keyed.find? siblings "properties" with
  | none => simp [PartsCompile]
  | some p =>
    cases p with
    | obj entries =>
      simp [NamedSound, Rule.membersOf, partsCompile_schemas, Functor.map, Except.map]
    | _ => simp [NamedSound, Rule.membersOf, Rule.expectKind, Functor.map, Except.map]

theorem partsCompile_remainder (hv : v ≠ .bool true) :
    PartsCompile scope (match remainderOf v with
      | .forbidden => []
      | .checked schema => [.schema schema]) ↔ Compiles scope v := by
  cases v with
  | bool b => simp [remainderOf, PartsCompile, compiles_bool]
  | _ => simp [remainderOf, partsCompile_single]

theorem memberCompiles_additional :
    MemberCompiles scope siblings ("additionalProperties", v) ↔ Compiles scope v ∧
      (v ≠ .bool true → ∀ p, Keyed.find? siblings "properties" = some p → NamedSound scope p) ∧
      ∀ p, Keyed.find? siblings "patternProperties" = some p → PatternsSound scope p := by
  have hrule : Rule.ofMember scope.draft siblings "additionalProperties" v =
      Rule.additionalOf siblings v := rfl
  rw [← patternsBeside_sound (Rule.malformed v) (v := v), ← propertiesBeside_sound]
  by_cases hv : v = .bool true
  -- `true` forbids nothing: the patterns still have to be readable, the named properties are not read.
  · subst hv
    rw [additionalOf_true] at hrule
    simp only [compiles_bool, true_and, ne_eq, not_true_eq_false, false_implies]
    constructor
    · rintro ⟨r, hr, hparts⟩
      obtain ⟨patterns, hpatterns, heq⟩ := bind_ok.mp (hrule.symm.trans hr)
      obtain rfl := Except.ok.inj heq
      refine ⟨patterns, hpatterns, ?_⟩
      cases patterns with
      | none => exact List.forall_mem_nil _
      | some entries => exact hparts _ rfl
    · rintro ⟨patterns, hpatterns, hparts⟩
      refine (memberCompiles_ok (hrule.trans (bind_ok.mpr ⟨patterns, hpatterns, rfl⟩))).mpr ?_
      rintro rule hrule
      obtain ⟨entries, rfl, rfl⟩ := Option.map_eq_some_iff.mp hrule
      exact hparts
  · rw [additionalOf_eq hv] at hrule
    simp only [ne_eq, hv, not_false_eq_true, true_implies]
    have hclosed : ∀ named patterns,
        PartsCompile scope ((Rule.closed named patterns (remainderOf v)).parts v) ↔
          (PartsCompile scope ((patterns.getD []).flatMap
              (Rule.Part.ofMaskedPattern (Rule.malformed v))) ∧
            PartsCompile scope ((named.getD []).map fun e => .schema e.2)) ∧ Compiles scope v :=
      fun named patterns => by
        have hparts : (Rule.closed named patterns (remainderOf v)).parts v =
            (patterns.getD []).flatMap (Rule.Part.ofMaskedPattern (Rule.malformed v))
              ++ ((named.getD []).map fun e => .schema e.2)
              ++ (match remainderOf v with
                | .forbidden => []
                | .checked schema => [.schema schema]) := rfl
        rw [hparts, partsCompile_append, partsCompile_append, partsCompile_remainder hv]
    constructor
    · rintro ⟨r, hr, hparts⟩
      obtain ⟨patterns, hpatterns, heq⟩ := bind_ok.mp (hrule.symm.trans hr)
      obtain ⟨named, hnamed, heq⟩ := bind_ok.mp heq
      obtain rfl := Except.ok.inj heq
      obtain ⟨⟨hmasked, hschemas⟩, hrest⟩ := (hclosed named patterns).mp (hparts _ rfl)
      exact ⟨hrest, ⟨named, hnamed, hschemas⟩, patterns, hpatterns, hmasked⟩
    · rintro ⟨hrest, ⟨named, hnamed, hschemas⟩, patterns, hpatterns, hmasked⟩
      have hok := hrule.trans (bind_ok.mpr ⟨patterns, hpatterns, bind_ok.mpr ⟨named, hnamed, rfl⟩⟩)
      exact (memberCompiles_rule hok).mpr ((hclosed named patterns).mpr ⟨⟨hmasked, hschemas⟩, hrest⟩)

theorem compiles_iff_sound (hs : Keyed.Sorted members)
    (hid : Schema.id? scope.draft (.obj members) = none)
    (href : Keyed.find? members "$ref" = none) :
    Compiles scope (.obj members) ↔ PropertiesSound scope members ∧
      ∀ e ∈ members, e.1 ∉ propertyKeywords → MemberCompiles scope members e := by
  rw [compiles_of_members hid href]
  constructor
  · intro h
    have hmember : ∀ {key v}, Keyed.find? members key = some v →
        MemberCompiles scope members (key, v) := fun hv => h _ (Keyed.mem_of_find? hv)
    refine ⟨⟨fun v hv => ?_, fun v hv => ?_, fun v hv => ?_⟩, fun e he _ => h e he⟩
    · cases hclose : Rule.closesProperties members with
      | false => exact (memberCompiles_properties hclose).mp (hmember hv)
      | true =>
        obtain ⟨a, ha, hne⟩ := additional_of_closes hclose
        exact (memberCompiles_additional.mp (hmember ha)).2.1 hne v hv
    · cases hclose : Rule.closesProperties members with
      | false => exact (memberCompiles_patternProperties hclose).mp (hmember hv)
      | true =>
        obtain ⟨a, ha, -⟩ := additional_of_closes hclose
        exact (memberCompiles_additional.mp (hmember ha)).2.2 v hv
    · exact (memberCompiles_additional.mp (hmember hv)).1
  · rintro ⟨hsound, hothers⟩ ⟨key, v⟩ he
    have hv : Keyed.find? members key = some v := Keyed.find?_of_mem hs he
    by_cases hkey : key ∈ propertyKeywords
    · simp only [propertyKeywords, List.mem_cons, List.not_mem_nil, or_false] at hkey
      rcases hkey with rfl | rfl | rfl
      · exact memberCompiles_additional.mpr
          ⟨hsound.additional v hv, fun _ => hsound.properties, hsound.patterns⟩
      · cases hclose : Rule.closesProperties members with
        | false => exact (memberCompiles_patternProperties hclose).mpr (hsound.patterns v hv)
        | true => exact memberCompiles_closed hclose (.inl rfl)
      · cases hclose : Rule.closesProperties members with
        | false => exact (memberCompiles_properties hclose).mpr (hsound.properties v hv)
        | true => exact memberCompiles_closed hclose (.inr rfl)
    · exact hothers _ he hkey

-- ---------------------------------------------------------------------------
-- Other keywords
-- ---------------------------------------------------------------------------

def plainKeywords : List String :=
  ["contentEncoding", "contentMediaType", "else", "exclusiveMaximum", "exclusiveMinimum", "then"]

theorem ofMember_plain {draft : Draft}
    (h : ∀ k ∈ plainKeywords, Keyed.find? siblings k = Keyed.find? siblings' k)
    (hkey : key ∉ "additionalItems" :: propertyKeywords) :
    Rule.ofMember draft siblings key v = Rule.ofMember draft siblings' key v := by
  have hmin := h "exclusiveMinimum" (by decide)
  have hmax := h "exclusiveMaximum" (by decide)
  have hencoding := h "contentEncoding" (by decide)
  have hmedia := h "contentMediaType" (by decide)
  have hthen := h "then" (by decide)
  have helse := h "else" (by decide)
  have hencodingOf : Rule.encodingOf siblings v = Rule.encodingOf siblings' v := by
    have hcontains : Keyed.contains siblings "contentMediaType" =
        Keyed.contains siblings' "contentMediaType" := by
      rw [Keyed.contains, Keyed.contains, hmedia]
    rw [Rule.encodingOf, Rule.encodingOf, hcontains]
  unfold Rule.ofMember
  dsimp only
  split
  case h_22 | h_23 | h_24 | h_27 => exact absurd (by decide) hkey
  all_goals
    first
      | rfl
      | simp only [hencodingOf, Rule.exclusiveBeside, Rule.mediaTypeOf, Rule.conditionalOf, hmin,
          hmax, hencoding, hthen, helse]

end EventAdmission.Evaluation
