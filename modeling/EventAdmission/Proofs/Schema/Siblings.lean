import EventAdmission.Proofs.Schema.Keywords

/-!
# What a keyword reads beside itself

The rule of a keyword depends on few of the keywords beside it: apart from the
rule for additional properties, none depends on the properties or the required
names. A reference depends on nothing beside it but the identifier.
-/

namespace EventAdmission

variable {corpus : Corpus} {scope : Scope} {members siblings siblings' : Members} {x value r : Json}
  {path : Path} {steps : Nat} {key : String} {draft : Draft}

theorem Scope.enter_congr {schema schema' : Json}
    (h : Schema.id? scope.draft schema = Schema.id? scope.draft schema') :
    scope.enter schema = scope.enter schema' := by
  simp only [Scope.enter, h]

theorem Scope.inside_congr {schema schema' : Json}
    (h : Schema.id? scope.draft schema = Schema.id? scope.draft schema') :
    scope.inside schema = scope.inside schema' := by
  rw [Scope.inside, Scope.inside, Scope.enter_congr h]

def besideKeywords : List String :=
  ["additionalProperties", "contentEncoding", "contentMediaType", "else", "exclusiveMaximum",
    "exclusiveMinimum", "items", "then"]

theorem closesProperties_congr
    (h : Keyed.find? siblings "additionalProperties" = Keyed.find? siblings' "additionalProperties") :
    Rule.closesProperties siblings = Rule.closesProperties siblings' := by
  rw [Rule.closesProperties, Rule.closesProperties, h]

theorem ofMember_congr (h : ∀ k ∈ besideKeywords, Keyed.find? siblings k = Keyed.find? siblings' k)
    (hkey : key ≠ "additionalProperties") :
    Rule.ofMember draft siblings key value = Rule.ofMember draft siblings' key value := by
  have hmin := h "exclusiveMinimum" (by decide)
  have hmax := h "exclusiveMaximum" (by decide)
  have hencoding := h "contentEncoding" (by decide)
  have hmedia := h "contentMediaType" (by decide)
  have hitems := h "items" (by decide)
  have hthen := h "then" (by decide)
  have helse := h "else" (by decide)
  have hcloses := closesProperties_congr (h "additionalProperties" (by decide))
  have hencodingOf : Rule.encodingOf siblings value = Rule.encodingOf siblings' value := by
    have hcontains : Keyed.contains siblings "contentMediaType" =
        Keyed.contains siblings' "contentMediaType" := by
      rw [Keyed.contains, Keyed.contains, hmedia]
    rw [Rule.encodingOf, Rule.encodingOf, hcontains]
  unfold Rule.ofMember
  dsimp only
  split
  case h_24 => exact absurd rfl hkey
  all_goals
    first
      | rfl
      | simp only [hencodingOf, hcloses, Rule.exclusiveBeside, Rule.mediaTypeOf,
          Rule.additionalItemsOf, Rule.conditionalOf, hmin, hmax, hencoding, hitems, hthen, helse]

theorem additionalOf_congr
    (hproperties : Keyed.find? siblings "properties" = Keyed.find? siblings' "properties")
    (hpatterns : Keyed.find? siblings "patternProperties" =
      Keyed.find? siblings' "patternProperties") :
    Rule.additionalOf siblings value = Rule.additionalOf siblings' value := by
  have hp : Evaluation.patternsBeside siblings value = Evaluation.patternsBeside siblings' value := by
    rw [Evaluation.patternsBeside, Evaluation.patternsBeside, hpatterns]
  by_cases hvalue : value = .bool true
  · subst hvalue
    rw [Evaluation.additionalOf_true, Evaluation.additionalOf_true, hp]
  · rw [Evaluation.additionalOf_eq hvalue, Evaluation.additionalOf_eq hvalue, hp,
      Evaluation.propertiesBeside, Evaluation.propertiesBeside, hproperties]

def readKeywords : List String := "patternProperties" :: "properties" :: besideKeywords

theorem ofMember_of_read (h : ∀ k ∈ readKeywords, Keyed.find? siblings k = Keyed.find? siblings' k) :
    Rule.ofMember draft siblings key value = Rule.ofMember draft siblings' key value := by
  by_cases hkey : key = "additionalProperties"
  · subst hkey
    exact additionalOf_congr (h _ (by decide)) (h _ (by decide))
  · exact ofMember_congr (fun k hk => h k (List.mem_cons_of_mem _ (List.mem_cons_of_mem _ hk))) hkey

/-- The same keywords stand beside a keyword, apart from the properties and the required names. -/
def SameBeside (siblings siblings' : Members) : Prop :=
  ∀ k, k ≠ "properties" → k ≠ "required" → Keyed.find? siblings k = Keyed.find? siblings' k

theorem SameBeside.closesProperties (h : SameBeside siblings siblings') :
    Rule.closesProperties siblings = Rule.closesProperties siblings' :=
  closesProperties_congr (h _ (by decide) (by decide))

theorem SameBeside.ofMember (h : SameBeside siblings siblings') (hkey : key ≠ "additionalProperties") :
    Rule.ofMember draft siblings key value = Rule.ofMember draft siblings' key value := by
  have hne : ∀ k ∈ besideKeywords, k ≠ "properties" ∧ k ≠ "required" := by decide
  exact ofMember_congr (fun k hk => h k (hne k hk).1 (hne k hk).2) hkey

namespace Evaluation

variable {sub : Evaluator} {goal : Goal}

theorem memberFaults_congr (h : SameBeside siblings siblings') (hkey : key ≠ "additionalProperties") :
    memberFaults sub goal scope siblings x path (key, value) =
      memberFaults sub goal scope siblings' x path (key, value) := by
  rw [memberFaults, memberFaults, h.ofMember hkey]

theorem memberCompiles_congr (h : SameBeside siblings siblings') (hkey : key ≠ "additionalProperties")
    (hc : MemberCompiles scope siblings (key, value)) :
    MemberCompiles scope siblings' (key, value) := by
  obtain ⟨r, hr, hparts⟩ := hc
  exact ⟨r, h.ofMember hkey ▸ hr, hparts⟩

theorem compiles_of_ref {members' : Members} (hr : Keyed.find? members "$ref" = some r)
    (hr' : Keyed.find? members' "$ref" = some r)
    (hid : Schema.id? scope.draft (.obj members) = Schema.id? scope.draft (.obj members'))
    (hc : Compiles scope (.obj members)) : Compiles scope (.obj members') := by
  intro fuel
  have hfuel := hc fuel
  cases fuel with
  | zero => rfl
  | succ fuel =>
    have henter := firstFault_enter hfuel
    simp only [firstFault, henter, hr] at hfuel
    simp only [firstFault, (Scope.enter_congr hid).symm.trans henter, hr']
    cases r with
    | str reference =>
      cases hjoin : (scope.inside (.obj members)).base.join reference with
      | ok url => simp only [hjoin]
      | error fault => simp [hjoin] at hfuel
    | _ => rfl

def mergedKeywords : List String := ["properties", "required", "additionalProperties"]

theorem memberFaults_of_not_obj (hkey : key ∈ mergedKeywords) (hx : x.isObj = false) :
    memberFaults sub goal scope siblings x path (key, value) = some [] := by
  have hrequired : ∀ names, ruleFaults sub goal scope (.required names) x path = some [] := by
    cases x <;> first | exact fun _ => rfl | cases hx
  have hproperties : ∀ entries, ruleFaults sub goal scope (.properties entries) x path = some [] := by
    cases x <;> first | exact fun _ => rfl | cases hx
  have hclosed : ∀ properties patterns rest,
      ruleFaults sub goal scope (.closed properties patterns rest) x path = some [] := by
    cases x <;> first | exact fun _ _ _ => rfl | cases hx
  have hreadable : ∀ entries, ruleFaults sub goal scope (.readable entries) x path = some [] := by
    cases x <;> exact fun _ => rfl
  simp only [mergedKeywords, List.mem_cons, List.not_mem_nil, or_false] at hkey
  rcases hkey with rfl | rfl | rfl
  · have hrule : Rule.ofMember scope.draft siblings "properties" value =
        if Rule.closesProperties siblings = true then .ok none
        else some <$> (.properties <$> Rule.membersOf value) := rfl
    rw [memberFaults, hrule]
    split
    · rename_i heq
      split at heq
      · cases heq
      · obtain ⟨_, hmap, hsome⟩ := map_ok.mp heq
        obtain ⟨entries, -, rfl⟩ := map_ok.mp hmap
        exact Option.some.inj hsome ▸ hproperties entries
    · rfl
  · have hrule : Rule.ofMember scope.draft siblings "required" value =
        some <$> (.required <$> Rule.namesOf value) := rfl
    rw [memberFaults, hrule]
    cases Rule.namesOf value with
    | error fault => rfl
    | ok names => exact hrequired names
  · have hrule : Rule.ofMember scope.draft siblings "additionalProperties" value =
        Rule.additionalOf siblings value := rfl
    rw [memberFaults, hrule]
    split
    · rename_i heq
      by_cases hvalue : value = .bool true
      · subst hvalue
        rw [additionalOf_true] at heq
        obtain ⟨patterns, -, hpatterns⟩ := bind_ok.mp heq
        obtain ⟨entries, -, rfl⟩ := Option.map_eq_some_iff.mp (Except.ok.inj hpatterns)
        exact hreadable entries
      · obtain ⟨properties, patterns, hr, -⟩ := additionalOf_ok hvalue heq
        exact Option.some.inj hr ▸ hclosed _ _ _
    · rfl

theorem faults_of_ref {members' : Members} (hr : Keyed.find? members "$ref" = some r)
    (hr' : Keyed.find? members' "$ref" = some r)
    (hid : Schema.id? scope.draft (.obj members) = Schema.id? scope.draft (.obj members')) :
    faultsWithin corpus steps goal scope (.obj members) x path =
      faultsWithin corpus steps goal scope (.obj members') x path := by
  cases steps with
  | zero => rfl
  | succ steps =>
    rw [faultsWithin, schemaFaults, schemaFaults]
    simp only [Scope.enter, hid, hr, hr']
    cases r <;> rfl

end Evaluation

end EventAdmission
