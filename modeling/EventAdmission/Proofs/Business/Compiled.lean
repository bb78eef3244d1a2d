import EventAdmission.Proofs.DataChange.Published
import EventAdmission.Proofs.Metadata.Guard
import EventAdmission.Proofs.Schema.PublishedShapes

/-!
# Metadata beside the owner's properties

Where the owner says nothing of the metadata, the merged root is the owner's with
one property and one required name more. `compile_merged`: if the owner's schema
compiles, the metadata can be added to it, and the merged schema compiles too.
Its names are the owner's; only the root itself, if it has a name, is another.
-/

namespace EventAdmission

open Schema Evaluation Enrichment MetaSchema Corpus

variable {draft : Draft} {n key name : String} {owner properties : Members} {names : List String}
  {steps : Nat} {v : Json} {scope : Scope} {base : Url} {c : CompiledSchema}
  {named : List (String × Json)}

-- ---------------------------------------------------------------------------
-- The merged root
-- ---------------------------------------------------------------------------

def addName (names : List String) (name : String) : List String :=
  if name ∈ names then names else names ++ [name]

theorem appendNames_strings (names : List String) (name : String) :
    .arr (appendNames (names.map .str) [name]) = Json.strings (addName names name) := by
  have hany : ((names.map Json.str).any fun x => x.str? == some name) = true ↔ name ∈ names := by
    simp [Json.str?]
  rw [appendNames, addName]
  simp only [hany]
  split <;> simp [appendNames, Json.strings]

theorem mem_addName {other : String} : other ∈ addName names name ↔ other ∈ names ∨ other = name := by
  unfold addName
  split
  · rename_i h
    constructor
    · exact .inl
    · rintro (h' | rfl)
      · exact h'
      · exact h
  · simp

theorem nodup_addName (h : names.Nodup) : (addName names name).Nodup := by
  unfold addName
  split
  · exact h
  · rename_i hnew
    refine List.nodup_append.mpr ⟨h, List.pairwise_singleton _ _, fun a ha b hb heq => hnew ?_⟩
    exact List.mem_singleton.mp hb ▸ heq ▸ ha

def merged (n : String) (owner properties : Members) (names : List String) : Members :=
  Keyed.insert (Keyed.insert owner "properties"
      (.obj (Keyed.insert properties "metadata" (metadataSchema n)))) "required"
    (.strings (addName names "metadata"))

/-- A root to which metadata can be added, with its properties and its required names. -/
structure Mergeable (owner properties : Members) (names : List String) : Prop where
  sorted : Keyed.Sorted owner
  sorted_properties : Keyed.Sorted properties
  old : objectAt owner "properties" = .ok properties
  texts : ∀ key text, Keyed.find? properties key ≠ some (.str text)
  required : (Keyed.find? owner "required").getD (.arr []) = .strings names
  nodup : names.Nodup
  fresh : Keyed.find? properties "metadata" = none

theorem isEnriched_of_no_metadata (h : ownMetadata v = none) : isEnriched v = false := by
  have hat : v.at? [.key "properties", .key "metadata"] = none := h
  rw [isEnriched, hat]

theorem Mergeable.addMetadata (h : Mergeable owner properties names) :
    addMetadata n owner = .ok (merged n owner properties names) := by
  have hrequired : appendRequired (Keyed.insert owner "properties"
      (.obj (Keyed.insert properties "metadata" (metadataSchema n)))) ["metadata"] =
        some (merged n owner properties names) := by
    rw [appendRequired, Keyed.find?_insert_of_ne (by decide), h.required]
    show some (Keyed.insert _ _ (Json.arr (appendNames (names.map .str) _))) = _
    rw [appendNames_strings, merged]
  simp only [Enrichment.addMetadata, h.old, bind, Except.bind, h.fresh, pure, Except.pure,
    hrequired]

theorem Mergeable.enrich (h : Mergeable owner properties names) :
    enrich .business (.obj owner) n = .ok (.obj (merged n owner properties names)) := by
  have hown : ownMetadata (.obj owner) = none :=
    (ownMetadata_of_objectAt h.old).trans h.fresh
  simp only [Enrichment.enrich, checkedRoot, isEnriched_of_no_metadata hown, bind, Except.bind,
    Bool.false_eq_true, ↓reduceIte, h.addMetadata]
  rfl

theorem find?_merged (hk : key ≠ "properties") (hk' : key ≠ "required") :
    Keyed.find? (merged n owner properties names) key = Keyed.find? owner key := by
  rw [merged, Keyed.find?_insert_of_ne hk', Keyed.find?_insert_of_ne hk]

theorem find?_merged_properties : Keyed.find? (merged n owner properties names) "properties" =
    some (.obj (Keyed.insert properties "metadata" (metadataSchema n))) := by
  rw [merged, Keyed.find?_insert_of_ne (by decide), Keyed.find?_insert_self]

theorem find?_merged_required : Keyed.find? (merged n owner properties names) "required" =
    some (.strings (addName names "metadata")) := by
  rw [merged, Keyed.find?_insert_self]

theorem Mergeable.old_properties (h : Mergeable owner properties names)
    (hv : Keyed.find? owner "properties" = some v) : v = .obj properties := by
  have hp := h.old
  rw [objectAt, hv] at hp
  cases v <;> cases hp
  rfl

theorem Mergeable.no_properties (h : Mergeable owner properties names)
    (hv : Keyed.find? owner "properties" = none) : properties = [] := by
  have hp := h.old
  rw [objectAt, hv] at hp
  exact (Except.ok.inj hp).symm

theorem Mergeable.old_required (h : Mergeable owner properties names)
    (hv : Keyed.find? owner "required" = some v) : v = .strings names := by
  have hr := h.required
  rwa [hv, Option.getD_some] at hr

theorem Mergeable.no_required (h : Mergeable owner properties names)
    (hv : Keyed.find? owner "required" = none) : names = [] := by
  have hr := h.required
  rw [hv, Option.getD_none, Json.strings, Json.arr.injEq] at hr
  exact List.map_eq_nil_iff.mp hr.symm

-- ---------------------------------------------------------------------------
-- The published schema
-- ---------------------------------------------------------------------------

theorem objectAt_of_allowed
    (h : ∀ v, Keyed.find? owner "properties" = some v → Allowed draft (steps + 2) "properties" v) :
    ∃ properties, objectAt owner "properties" = .ok properties ∧
      Allowed draft (steps + 2) "properties" (.obj properties) := by
  unfold objectAt
  cases hp : Keyed.find? owner "properties" with
  | none => exact ⟨[], rfl, allowed_properties nofun⟩
  | some v =>
    have hallowed := h v hp
    obtain ⟨properties, rfl, -⟩ := allowed_properties_iff.mp hallowed
    exact ⟨properties, rfl, hallowed⟩

theorem required_of_allowed
    (h : ∀ v, Keyed.find? owner "required" = some v → Allowed draft (steps + 3) "required" v) :
    ∃ names, (Keyed.find? owner "required").getD (.arr []) = .strings names ∧ names.Nodup := by
  cases hr : Keyed.find? owner "required" with
  | none => exact ⟨[], rfl, List.nodup_nil⟩
  | some v =>
    obtain ⟨names, rfl, hnodup, -⟩ := allowed_required_iff.mp (h v hr)
    exact ⟨names, rfl, hnodup⟩

theorem sorted_objectAt (hcanon : (Json.obj owner).Canonical)
    (h : objectAt owner key = .ok properties) : Keyed.Sorted properties := by
  unfold objectAt at h
  split at h
  · obtain rfl := Except.ok.inj h
    exact .nil
  · rename_i hv
    obtain rfl := Except.ok.inj h
    exact (Json.canonical_of_find? hcanon.2 hv).1
  · cases h

theorem mergeable_of_admitted (hcanon : (Json.obj owner).Canonical)
    (h : Admitted draft (steps + 4) (.obj owner)) (hmeta : ownMetadata (.obj owner) = none) :
    ∃ properties names, Mergeable owner properties names := by
  obtain ⟨hallowed, -⟩ := admitted_obj.mp h
  obtain ⟨properties, hp, hobj⟩ := objectAt_of_allowed fun v => hallowed "properties" v
  obtain ⟨names, hr, hnodup⟩ := required_of_allowed fun v => hallowed "required" v
  exact ⟨properties, names, hcanon.1, sorted_objectAt hcanon hp, hp,
    fun _ _ => allowed_properties_text hobj, hr, hnodup,
    (ownMetadata_of_objectAt hp).symm.trans hmeta⟩

theorem admitted_merged (hm : Mergeable owner properties names) (hs : 15 ≤ steps)
    (h : Admitted draft (steps + 1) (.obj owner)) :
    Admitted draft (steps + 1) (.obj (merged n owner properties names)) := by
  -- No step more is needed: the metadata are not as deep as the steps that there always are.
  obtain ⟨few, rfl⟩ : ∃ few, steps = few + 3 := ⟨steps - 3, by omega⟩
  obtain ⟨hallowed, hlimited⟩ := admitted_obj.mp h
  refine admitted_obj.mpr ⟨fun key v hv => ?_, fun hdraft e he hc => ?_⟩
  · by_cases hp : key = "properties"
    · subst hp
      obtain rfl := Option.some.inj (find?_merged_properties.symm.trans hv)
      obtain ⟨properties', hp', hobj⟩ :=
        objectAt_of_allowed fun v => (hallowed "properties" v :
          _ → Allowed draft (few + 1 + 2) "properties" v)
      obtain rfl := Except.ok.inj (hm.old.symm.trans hp')
      exact allowed_properties_insert hobj (admitted_metadataSchema.mono (by omega))
    · by_cases hr : key = "required"
      · subst hr
        obtain rfl := Option.some.inj (find?_merged_required.symm.trans hv)
        refine allowed_required_iff.mpr ⟨_, rfl, nodup_addName hm.nodup, fun _ => ?_⟩
        exact List.ne_nil_of_mem (mem_addName.mpr (.inr rfl))
      · exact hallowed key v (find?_merged hp hr ▸ hv)
  · have hkeys : ∀ e ∈ exclusiveKeywords, (e.1 ≠ "properties" ∧ e.1 ≠ "required") ∧
        e.2 ≠ "properties" ∧ e.2 ≠ "required" := by decide
    obtain ⟨⟨hp, hr⟩, hp', hr'⟩ := hkeys e he
    rw [Keyed.contains, find?_merged hp hr] at hc
    rw [Keyed.contains, find?_merged hp' hr']
    exact hlimited hdraft e he hc

theorem size_merged (hm : Mergeable owner properties names) :
    (Json.obj owner).size ≤ (Json.obj (merged n owner properties names)).size := by
  have hproperties : ∀ old, Keyed.find? owner "properties" = some old →
      old.size ≤ (Json.obj (Keyed.insert properties "metadata" (metadataSchema n))).size := by
    intro old hold
    obtain rfl := hm.old_properties hold
    have hle : Json.sizeMembers properties ≤ _ :=
      Json.sizeMembers_le_insert (x := metadataSchema n) fun old hold =>
        nomatch hm.fresh.symm.trans hold
    simp only [Json.size]
    omega
  have hrequired : ∀ old, Keyed.find? (Keyed.insert owner "properties"
        (.obj (Keyed.insert properties "metadata" (metadataSchema n)))) "required" = some old →
      old.size ≤ (Json.strings (addName names "metadata")).size := by
    intro old hold
    rw [Keyed.find?_insert_of_ne (by decide)] at hold
    obtain rfl := hm.old_required hold
    unfold addName
    split
    · exact Nat.le_refl _
    · simp only [Json.strings, Json.size, List.map_append, Json.sizeItems_append]
      omega
  have hle := Json.sizeMembers_le_insert hproperties
  have hle' := Json.sizeMembers_le_insert hrequired
  simp only [Json.size, merged]
  omega

-- ---------------------------------------------------------------------------
-- Keywords
-- ---------------------------------------------------------------------------

theorem sameBeside_merged : SameBeside owner (merged n owner properties names) :=
  fun _ hk hk' => (find?_merged hk hk').symm

theorem id?_merged : id? draft (.obj (merged n owner properties names)) = id? draft (.obj owner) := by
  have hkey : Keyed.find? (merged n owner properties names) (idKeyword draft) =
      Keyed.find? owner (idKeyword draft) := by
    cases draft <;> exact find?_merged (by decide) (by decide)
  simp only [id?, Json.member?, hkey]

theorem inside_merged :
    scope.inside (.obj (merged n owner properties names)) = scope.inside (.obj owner) :=
  Scope.inside_congr id?_merged

theorem closesProperties_of_open (h : Keyed.find? owner "additionalProperties" = none) :
    Rule.closesProperties owner = false := by
  rw [Rule.closesProperties, h]

theorem Mergeable.compiles_properties (hm : Mergeable owner properties names)
    (href : Keyed.find? owner "$ref" = none) (hc : Compiles scope (.obj owner)) :
    ∀ e ∈ Keyed.insert properties "metadata" (metadataSchema n),
      Compiles (scope.inside (.obj owner)) e.2 := by
  intro e he
  rcases Keyed.mem_of_mem_insert he with rfl | he
  · exact compiles_metadataSchema
  · cases hp : Keyed.find? owner "properties" with
    | none =>
      rw [hm.no_properties hp] at he
      cases he
    | some v =>
      obtain rfl := hm.old_properties hp
      exact hc.property href hp (Keyed.find?_of_mem hm.sorted_properties he)

theorem compiles_merged (hm : Mergeable owner properties names)
    (hopen : Keyed.find? owner "additionalProperties" = none) (hc : Compiles scope (.obj owner)) :
    Compiles scope (.obj (merged n owner properties names)) := by
  have hsame : Keyed.find? (merged n owner properties names) "$ref" = Keyed.find? owner "$ref" :=
    find?_merged (by decide) (by decide)
  cases href : Keyed.find? owner "$ref" with
  | some r => exact compiles_of_ref href (hsame.trans href) id?_merged.symm hc
  | none =>
    have henter := firstFault_enter (hc 1)
    have henter' : scope.enter (.obj (merged n owner properties names)) =
        .ok (scope.inside (.obj (merged n owner properties names))) := by
      rw [inside_merged, ← henter, Scope.enter_congr id?_merged]
    rw [compiles_obj henter' (hsame.trans href), inside_merged]
    intro e he
    rcases Keyed.mem_of_mem_insert he with rfl | he
    · exact memberCompiles_required
    · rcases Keyed.mem_of_mem_insert he with rfl | he
      · have hclosed : Rule.closesProperties (merged n owner properties names) = false := by
          rw [← sameBeside_merged.closesProperties, closesProperties_of_open hopen]
        have hrule : Rule.ofMember (scope.inside (.obj owner)).draft
            (merged n owner properties names) "properties"
            (.obj (Keyed.insert properties "metadata" (metadataSchema n))) =
          if Rule.closesProperties (merged n owner properties names) = true then .ok none
          else .ok (some (.properties (Keyed.insert properties "metadata" (metadataSchema n)))) := rfl
        rw [hclosed] at hrule
        refine memberCompiles_some hrule fun part hpart => ?_
        obtain ⟨entry, hentry, rfl⟩ := List.mem_map.mp hpart
        exact ⟨entry.2, rfl, hm.compiles_properties href hc entry hentry⟩
      · exact memberCompiles_congr sameBeside_merged (Keyed.find?_eq_none.mp hopen e he)
          ((compiles_obj henter href).mp hc e he)

-- ---------------------------------------------------------------------------
-- Names
-- ---------------------------------------------------------------------------

/-- The same names for the same schemas, but for the root, which is another one. -/
inductive Renamed (root root' : Json) : List (String × Json) → List (String × Json) → Prop
  | nameless (named : List (String × Json)) : Renamed root root' named named
  | named (name : String) (inner : List (String × Json)) :
    Renamed root root' ((name, root) :: inner) ((name, root') :: inner)

theorem Mergeable.properties_no_id {d : Draft} (hm : Mergeable owner properties names) :
    id? d (.obj properties) = none := by
  rw [id?, Json.member?]
  cases hid : Keyed.find? properties (idKeyword d) with
  | none => rfl
  | some v =>
    cases v with
    | str text => exact absurd hid (hm.texts _ _)
    | _ => rfl

theorem find?_properties (hk : key ≠ "metadata") :
    Keyed.find? (Keyed.insert properties "metadata" (metadataSchema n)) key =
      Keyed.find? properties key :=
  Keyed.find?_insert_of_ne hk

theorem Mergeable.id?_properties (hm : Mergeable owner properties names) :
    id? draft (.obj (Keyed.insert properties "metadata" (metadataSchema n))) = none := by
  have hkey : idKeyword draft ≠ "metadata" := by cases draft <;> decide
  have hid := hm.properties_no_id (d := draft)
  simp only [id?, Json.member?, find?_properties hkey] at hid ⊢
  exact hid

theorem Mergeable.namesIn_properties (hm : Mergeable owner properties names) :
    namesIn draft base (.obj (Keyed.insert properties "metadata" (metadataSchema n))) =
      namesIn draft base (.obj properties) := by
  rw [namesIn, namesIn, hm.properties_no_id, hm.id?_properties]
  exact namesInMembers_insert hm.sorted_properties (fun old hold => by simp [hm.fresh] at hold)
    fun _ => namesIn_nameless nameless_metadataSchema

theorem Mergeable.namesInMembers_merged (hm : Mergeable owner properties names) :
    namesInMembers draft base (merged n owner properties names) = namesInMembers draft base owner := by
  rw [merged, namesInMembers_insert (Keyed.sorted_insert hm.sorted) (fun old hold => ?_)
    fun _ => namesIn_nameless nameless_strings]
  · refine namesInMembers_insert hm.sorted (fun old hold => ?_) fun hnone => ?_
    · obtain rfl := hm.old_properties hold
      exact hm.namesIn_properties
    · rw [hm.namesIn_properties, hm.no_properties hnone]
      rfl
  · rw [Keyed.find?_insert_of_ne (by decide)] at hold
    obtain rfl := hm.old_required hold
    rw [namesIn_nameless nameless_strings, namesIn_nameless nameless_strings]

theorem Mergeable.namesIn_merged (hm : Mergeable owner properties names)
    (h : namesIn draft base (.obj owner) = .ok named) :
    ∃ named', namesIn draft base (.obj (merged n owner properties names)) = .ok named' ∧
      Renamed (.obj owner) (.obj (merged n owner properties names)) named named' := by
  rw [namesIn] at h ⊢
  rw [id?_merged]
  cases hid : id? draft (.obj owner) with
  | none =>
    simp only [hid] at h ⊢
    exact ⟨named, hm.namesInMembers_merged.trans h, .nameless named⟩
  | some name =>
    simp only [hid] at h ⊢
    obtain ⟨url, hurl, h⟩ := bind_ok.mp h
    obtain ⟨inner, hinner, h⟩ := bind_ok.mp h
    obtain rfl := Except.ok.inj h
    refine ⟨_, bind_ok.mpr ⟨url, hurl, bind_ok.mpr ⟨inner, ?_, rfl⟩⟩, .named _ inner⟩
    exact hm.namesInMembers_merged.trans hinner

-- ---------------------------------------------------------------------------
-- Compilation
-- ---------------------------------------------------------------------------

theorem compile_merged (hcanon : (Json.obj owner).Canonical)
    (hc : Schema.compile draft (.obj owner) = .ok c) (hmeta : ownMetadata (.obj owner) = none)
    (hopen : Keyed.find? owner "additionalProperties" = none) :
    ∃ properties names named', Mergeable owner properties names ∧
      Renamed (.obj owner) (.obj (merged n owner properties names)) c.corpus.named named' ∧
      Schema.compile draft (.obj (merged n owner properties names)) =
        .ok ⟨c.scope, ⟨.obj (merged n owner properties names), named'⟩⟩ := by
  have hcompiles := compiles_of_compile hc
  obtain ⟨base, named, hbase, hnamed, hpublished, -, rfl⟩ := Schema.compile_ok.mp hc
  have hadmitted := admitted_of_passes (publishedFault_ok.mp hpublished)
  have henough := enoughSteps_pos (published draft) (.obj owner)
  obtain ⟨k, hk⟩ : ∃ k, enoughSteps (published draft) (.obj owner) = k + 4 :=
    ⟨enoughSteps (published draft) (.obj owner) - 4, by omega⟩
  rw [hk] at hadmitted henough
  obtain ⟨properties, names, hm⟩ := mergeable_of_admitted hcanon hadmitted hmeta
  obtain ⟨named', hnamed', hrenamed⟩ := hm.namesIn_merged (n := n) hnamed
  have hadmitted' : Admitted draft (k + 4) (.obj (merged n owner properties names)) :=
    admitted_merged hm (by omega) hadmitted
  have hmore : k + 4 ≤ enoughSteps (published draft) (.obj (merged n owner properties names)) :=
    hk ▸ enoughSteps_mono (Nat.le_refl _) (size_merged hm)
  refine ⟨properties, names, named', hm, hrenamed, ?_⟩
  refine Schema.compile_ok.mpr ⟨base, named', ?_, hnamed', publishedFault_ok.mpr ?_, ?_, rfl⟩
  · rwa [rootBase, id?_merged]
  · exact hadmitted'.mono hmore _ (by decide) []
  · exact compiles_merged hm hopen hcompiles _

end EventAdmission
