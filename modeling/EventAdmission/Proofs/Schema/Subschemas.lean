import EventAdmission.Proofs.Json.Values
import EventAdmission.Proofs.Schema.Additional

/-!
# The schemas below a rule

`Rule.schemas` lists the schemas that a rule may ask for an answer. All of them
stand inside the schema object whose member the rule belongs to
(`Subschema.inside`), so an evaluation only ever goes down in a schema unless it
follows a reference.
-/

namespace EventAdmission.Rule

variable {α β : Type} {draft : Draft} {siblings : Members} {key : String} {value s : Json}
  {rule : Rule}

def schemas : Rule → List Json
  | dependencies entries => entries.map (·.2)
  | properties entries => entries.map (·.2)
  | patternProperties entries => entries.map (·.schema)
  | readable entries => entries.map (·.schema)
  | closed named patterns rest =>
    (named.getD []).map (·.2) ++ (patterns.getD []).map (·.schema)
      ++ (match rest with
        | .forbidden => []
        | .checked schema => [schema])
  | propertyNames schema => [schema]
  | eachItem schema => [schema]
  | itemsInOrder schemas => schemas
  | itemsBehind _ schema => [schema]
  | contains schema => [schema]
  | all schemas => schemas
  | any schemas => schemas
  | one schemas => schemas
  | exclude schema => [schema]
  | conditional condition yes no => condition :: (yes.toList ++ no.toList)
  | _ => []

def Within (x : Json) (r : Except Fault (Option Rule)) : Prop :=
  ∀ rule, r = .ok (some rule) → ∀ s ∈ rule.schemas, s ∈ x.inside

variable {x : Json}

theorem within_none : Within x (.ok none) := by
  rintro _ ⟨⟩

theorem within_error {fault : Fault} : Within x (.error fault) := by
  rintro _ ⟨⟩

theorem within_some (h : ∀ s ∈ rule.schemas, s ∈ x.inside) : Within x (.ok (some rule)) := by
  rintro _ ⟨⟩
  exact h

theorem within_plain {r : Except Fault α} {f : α → Rule} (h : ∀ a, (f a).schemas = []) :
    Within x (some <$> (f <$> r)) := by
  intro rule hr s hs
  obtain ⟨_, hmap, hsome⟩ := map_ok.mp hr
  obtain ⟨a, -, rfl⟩ := map_ok.mp hmap
  obtain rfl := Option.some.inj hsome
  simp [h] at hs

theorem within_map {r : Except Fault α} {f : α → Rule}
    (h : ∀ a, r = .ok a → ∀ s ∈ (f a).schemas, s ∈ x.inside) : Within x (some <$> (f <$> r)) := by
  intro rule hr
  obtain ⟨_, hmap, hsome⟩ := map_ok.mp hr
  obtain ⟨a, ha, rfl⟩ := map_ok.mp hmap
  obtain rfl := Option.some.inj hsome
  exact h a ha

theorem within_bind {r : Except Fault α} {f : α → Except Fault (Option Rule)}
    (h : ∀ a, r = .ok a → Within x (f a)) : Within x (r >>= f) := by
  intro rule hr
  obtain ⟨a, ha, hf⟩ := bind_ok.mp hr
  exact h a ha rule hf

theorem within_ite {p : Prop} [Decidable p] {r r' : Except Fault (Option Rule)} (h : Within x r)
    (h' : Within x r') : Within x (if p then r else r') := by
  split
  · exact h
  · exact h'

-- ---------------------------------------------------------------------------
-- Keywords
-- ---------------------------------------------------------------------------

theorem listOf_ok {items : List Json} : listOf value = .ok items ↔ value = .arr items := by
  cases value <;> simp [listOf, expectKind, eq_comm]

theorem membersOf_ok {members : Members} : membersOf value = .ok members ↔ value = .obj members := by
  cases value <;> simp [membersOf, expectKind, eq_comm]

theorem within_patternOf : Within x (some <$> patternOf value) := by
  intro rule hr s hs
  obtain ⟨_, hpattern, hsome⟩ := map_ok.mp hr
  obtain ⟨source, -, h⟩ := bind_ok.mp hpattern
  obtain rfl := Option.some.inj hsome
  split at h <;> cases h
  cases hs

variable (hmem : (key, value) ∈ siblings)

include hmem

theorem inside_self : value ∈ (Json.obj siblings).inside :=
  Json.inside_member hmem Json.mem_values_self

theorem inside_item (h : ∃ items, value = .arr items ∧ s ∈ items) :
    s ∈ (Json.obj siblings).inside := by
  obtain ⟨items, rfl, hs⟩ := h
  exact Json.mem_inside_trans (inside_self hmem)
    (Json.mem_values.mpr (.inr (Json.inside_item hs Json.mem_values_self)))

theorem inside_entry {entries : Members} (h : value = .obj entries)
    (hs : s ∈ entries.map (·.2)) : s ∈ (Json.obj siblings).inside := by
  obtain ⟨e, he, rfl⟩ := List.mem_map.mp hs
  subst h
  exact Json.mem_inside_trans (inside_self hmem)
    (Json.mem_values.mpr (.inr (Json.inside_member he Json.mem_values_self)))

theorem within_list {f : List Json → Rule} (h : ∀ items, (f items).schemas = items) :
    Within (.obj siblings) (some <$> (f <$> listOf value)) :=
  within_map fun items hitems _ hs =>
    inside_item hmem ⟨items, listOf_ok.mp hitems, h items ▸ hs⟩

theorem within_members {f : Members → Rule} (h : ∀ entries, (f entries).schemas = entries.map (·.2)) :
    Within (.obj siblings) (some <$> (f <$> membersOf value)) :=
  within_map fun entries hentries _ hs =>
    inside_entry hmem (membersOf_ok.mp hentries) (h entries ▸ hs)

theorem within_single {rule : Rule} (h : rule.schemas = [value]) :
    Within (.obj siblings) (.ok (some rule)) :=
  within_some fun _ hs => List.mem_singleton.mp (h ▸ hs) ▸ inside_self hmem

omit hmem

theorem schemas_keyPatterns {entries : Members} :
    (keyPatterns entries).map (·.schema) = entries.map (·.2) := by
  simp [keyPatterns, Function.comp_def]

theorem inside_sibling {k : String} (h : Keyed.find? siblings k = some s) :
    s ∈ (Json.obj siblings).inside :=
  Json.inside_find? h

theorem within_additionalOf (hmem : (key, value) ∈ siblings) :
    Within (.obj siblings) (additionalOf siblings value) := by
  intro rule hr s hs
  by_cases hvalue : value = .bool true
  · subst hvalue
    rw [Evaluation.additionalOf_true] at hr
    obtain ⟨patterns, hpatterns, hreadable⟩ := bind_ok.mp hr
    obtain ⟨_, rfl, rfl⟩ := Option.map_eq_some_iff.mp (Except.ok.inj hreadable)
    obtain ⟨entries, hsome, hfind⟩ := Evaluation.patternsBeside_ok hpatterns
    obtain ⟨entries, rfl, rfl⟩ := Option.map_eq_some_iff.mp hsome.symm
    exact inside_entry (Keyed.mem_of_find? hfind) rfl (schemas_keyPatterns ▸ hs)
  · obtain ⟨properties, patterns, hsome, hproperties, hpatterns⟩ :=
      Evaluation.additionalOf_ok hvalue hr
    obtain rfl := Option.some.inj hsome
    simp only [schemas, List.mem_append] at hs
    rcases hs with (hs | hs) | hs
    · cases properties with
      | none => cases hs
      | some entries => exact inside_entry (Keyed.mem_of_find? hproperties) rfl hs
    · cases patterns with
      | none => cases hs
      | some entries =>
        exact inside_entry (Keyed.mem_of_find? hpatterns) rfl (schemas_keyPatterns ▸ hs)
    · cases value with
      | bool b => cases hs
      | _ =>
        obtain rfl := List.mem_singleton.mp hs
        exact inside_self hmem

theorem within_itemsOf (hmem : (key, value) ∈ siblings) :
    Within (.obj siblings) (itemsOf value) := by
  unfold itemsOf
  split
  · exact within_some fun s hs => inside_item hmem ⟨_, rfl, hs⟩
  · exact within_none
  · exact within_single hmem rfl

theorem within_additionalItemsOf (hmem : (key, value) ∈ siblings) :
    Within (.obj siblings) (additionalItemsOf siblings value) := by
  unfold additionalItemsOf
  split
  · exact within_some (List.forall_mem_nil _)
  · split
    · exact within_single hmem rfl
    · exact within_some (List.forall_mem_nil _)
    · exact within_none
  · exact within_none

theorem within_mediaTypeOf : Within x (mediaTypeOf siblings value) := by
  refine within_bind fun media _ => within_ite within_none ?_
  split
  · exact within_some (List.forall_mem_nil _)
  · refine within_bind fun name _ => ?_
    show Within x (.ok (if name = "base64" then some (.jsonText true) else none))
    split
    · exact within_some (List.forall_mem_nil _)
    · exact within_none

theorem within_encodingOf : Within x (encodingOf siblings value) := by
  refine within_ite within_none (within_bind fun name _ => ?_)
  show Within x (.ok (if name = "base64" then some .encoded else none))
  split
  · exact within_some (List.forall_mem_nil _)
  · exact within_none

theorem within_conditionalOf (hmem : (key, value) ∈ siblings) :
    Within (.obj siblings) (.ok (conditionalOf siblings value)) := by
  unfold conditionalOf
  split
  · exact within_none
  · refine within_some fun s hs => ?_
    rcases List.mem_cons.mp hs with rfl | hs
    · exact inside_self hmem
    · rcases List.mem_append.mp hs with hs | hs
      · exact inside_sibling (Option.mem_toList.mp hs)
      · exact inside_sibling (Option.mem_toList.mp hs)

theorem within_ofMember (hmem : (key, value) ∈ siblings) :
    Within (.obj siblings) (ofMember draft siblings key value) := by
  unfold ofMember
  dsimp only
  split
  case h_1 | h_2 | h_3 | h_6 | h_7 | h_8 | h_9 | h_10 | h_11 | h_12 | h_14 | h_20 =>
    exact within_plain fun _ => rfl
  case h_4 | h_5 => exact within_ite within_none (within_plain fun _ => rfl)
  case h_13 =>
    split
    · exact within_some (List.forall_mem_nil _)
    · exact within_none
  case h_15 => exact within_ite within_none (within_some (List.forall_mem_nil _))
  case h_16 => exact within_patternOf
  case h_17 =>
    intro rule hr s hs
    obtain ⟨name, -, h⟩ := bind_ok.mp hr
    obtain ⟨format, -, rfl⟩ := Option.map_eq_some_iff.mp (Except.ok.inj h)
    cases hs
  case h_18 => exact within_ite within_none within_encodingOf
  case h_19 => exact within_ite within_none within_mediaTypeOf
  case h_21 => exact within_members hmem fun _ => rfl
  case h_22 => exact within_ite within_none (within_members hmem fun _ => rfl)
  case h_23 =>
    refine within_ite within_none ?_
    split
    · exact within_some fun s hs => inside_entry hmem rfl (schemas_keyPatterns ▸ hs)
    · exact within_error
  case h_24 => exact within_additionalOf hmem
  case h_25 =>
    refine within_ite within_none ?_
    split
    · exact within_none
    · exact within_single hmem rfl
  case h_26 => exact within_itemsOf hmem
  case h_27 => exact within_additionalItemsOf hmem
  case h_28 => exact within_ite within_none (within_single hmem rfl)
  case h_29 | h_30 | h_31 => exact within_list hmem fun _ => rfl
  case h_32 => exact within_single hmem rfl
  case h_33 => exact within_ite (within_conditionalOf hmem) within_none
  case h_34 => exact within_none

-- ---------------------------------------------------------------------------
-- Parts
-- ---------------------------------------------------------------------------

def Part.schema? : Part → Option Json
  | schema s => some s
  | masked s _ => some s
  | fault _ => none

variable {part : Part}

theorem mem_ofPattern {entry : KeyPattern} (h : part ∈ Part.ofPattern entry)
    (hs : part.schema? = some s) : s = entry.schema := by
  unfold Part.ofPattern at h
  split at h <;> obtain rfl := List.mem_singleton.mp h
  · exact (Option.some.inj hs).symm
  · cases hs

theorem mem_ofMaskedPattern {fault : Fault} {entry : KeyPattern}
    (h : part ∈ Part.ofMaskedPattern fault entry) (hs : part.schema? = some s) :
    s = entry.schema := by
  unfold Part.ofMaskedPattern at h
  split at h <;> obtain rfl := List.mem_singleton.mp h
  · exact (Option.some.inj hs).symm
  · cases hs

theorem mem_ofDependency (h : part ∈ Part.ofDependency value) (hs : part.schema? = some s) :
    s = value := by
  unfold Part.ofDependency at h
  split at h
  · split at h
    · cases h
    · obtain rfl := List.mem_singleton.mp h
      cases hs
  · obtain rfl := List.mem_singleton.mp h
    exact (Option.some.inj hs).symm

theorem mem_map_schema {schemas : List Json} (h : part ∈ schemas.map Part.schema)
    (hs : part.schema? = some s) : s ∈ schemas := by
  obtain ⟨_, hmem, rfl⟩ := List.mem_map.mp h
  obtain rfl := Option.some.inj hs
  exact hmem

theorem mem_schemas_of_part (h : part ∈ rule.parts value) (hs : part.schema? = some s) :
    s ∈ rule.schemas := by
  unfold parts at h
  split at h
  case h_1 =>
    obtain ⟨e, he, h⟩ := List.mem_flatMap.mp h
    exact List.mem_map.mpr ⟨e, he, (mem_ofDependency h hs).symm⟩
  case h_2 =>
    obtain ⟨e, he, rfl⟩ := List.mem_map.mp h
    exact List.mem_map.mpr ⟨e, he, Option.some.inj hs⟩
  case h_3 =>
    obtain ⟨e, he, h⟩ := List.mem_flatMap.mp h
    exact List.mem_map.mpr ⟨e, he, (mem_ofPattern h hs).symm⟩
  case h_4 =>
    obtain ⟨e, he, h⟩ := List.mem_flatMap.mp h
    exact List.mem_map.mpr ⟨e, he, (mem_ofMaskedPattern h hs).symm⟩
  case h_5 =>
    simp only [schemas, List.mem_append]
    rcases List.mem_append.mp h with h | h
    · rcases List.mem_append.mp h with h | h
      · obtain ⟨e, he, h⟩ := List.mem_flatMap.mp h
        exact .inl (.inr (List.mem_map.mpr ⟨e, he, (mem_ofMaskedPattern h hs).symm⟩))
      · obtain ⟨e, he, rfl⟩ := List.mem_map.mp h
        exact .inl (.inl (List.mem_map.mpr ⟨e, he, Option.some.inj hs⟩))
    · split at h
      · cases h
      · obtain rfl := List.mem_singleton.mp h
        exact .inr (List.mem_singleton.mpr (Option.some.inj hs).symm)
  case h_8 | h_11 | h_12 | h_13 => exact mem_map_schema h hs
  case h_6 | h_7 | h_9 | h_10 | h_14 =>
    obtain rfl := List.mem_singleton.mp h
    exact List.mem_singleton.mpr (Option.some.inj hs).symm
  case h_15 =>
    rcases List.mem_cons.mp h with rfl | h
    · exact List.mem_cons.mpr (.inl (Option.some.inj hs).symm)
    · exact List.mem_cons_of_mem _ (mem_map_schema h hs)
  case h_16 => cases h

/-- A schema that one of the rules of a schema object may ask. -/
def Subschema (draft : Draft) (siblings : Members) (s : Json) : Prop :=
  ∃ e ∈ siblings, ∃ rule, ofMember draft siblings e.1 e.2 = .ok (some rule) ∧ s ∈ rule.schemas

theorem Subschema.inside (h : Subschema draft siblings s) : s ∈ (Json.obj siblings).inside := by
  obtain ⟨e, he, rule, hrule, hs⟩ := h
  exact within_ofMember he rule hrule s hs

end EventAdmission.Rule
