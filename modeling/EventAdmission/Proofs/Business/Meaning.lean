import EventAdmission.Proofs.Business.References
import EventAdmission.Proofs.DataChange.Gate
import EventAdmission.Proofs.Enrichment.Compiled
import EventAdmission.Proofs.Schema.Met
import EventAdmission.Proofs.Schema.Reached

/-!
# What a business schema says about its events

`business_meaning`: where the owner leaves the metadata to the broker and the
root open, an event with metadata as the broker asks for them has the same
violations under the merged schema as under the owner's, in the same order. The
schemas in both documents are met side by side (`moves_kin`), and at the root
the metadata add nothing (`moves_merged`). References may go anywhere but to the
root: what they find there asks for metadata once more (`nested_refused`).
-/

namespace EventAdmission

open Schema Evaluation Enrichment Corpus

variable {n name : String} {owner properties members event metadata : Members}
  {names : List String} {scope top : Scope} {steps steps' : Nat} {goal : Goal} {x s s' : Json}
  {path : Path} {named named' : List (String × Json)} {c : CompiledSchema} {draft : Draft}
  {reference : String} {sub sub' : Evaluator}

/-- No reference leads to the root, and one that cannot be used is of no more use in the other
schema. -/
def Undisturbed (c c' : CompiledSchema) : Prop :=
  ∀ scope members reference, Reached c scope (.obj members) →
    Keyed.find? members "$ref" = some (.str reference) →
    (∃ inner target,
      follow c.corpus (scope.inside (.obj members)) reference = .ok (inner, target) ∧
        target ≠ c.corpus.root) ∨
    ∃ fault, follow c.corpus (scope.inside (.obj members)) reference = .error fault ∧
      follow c'.corpus (scope.inside (.obj members)) reference = .error fault

theorem reached_met {root : Json} (hn : Nameless root) (hr : RefersLocally root draft)
    (h : Reached ⟨⟨anonymousBase, draft⟩, anonymous root⟩ scope s) :
    scope.base = anonymousBase ∧ Met root draft scope.draft s := by
  induction h with
  | root => exact ⟨rfl, .root⟩
  | part _ href hs ih =>
    obtain ⟨hbase, hm⟩ := ih
    rw [hm.inside hn hr]
    exact ⟨hbase, hm.part href hs⟩
  | @behind scope inner members reference target _ href hf ih =>
    obtain ⟨base, d⟩ := scope
    obtain ⟨rfl, hm⟩ := ih
    rw [hm.inside hn hr] at hf
    obtain ⟨hlocal, -⟩ := hr _ _ _ hm href
    exact ⟨by rw [(follow_nameless hn hlocal rfl hf).1], hm.behind href hf⟩

/-- References of a schema to its own definitions never lead to the root. -/
theorem undisturbed_of_local {root : Json} {c' : CompiledSchema} (hn : Nameless root)
    (hr : RefersLocally root draft) :
    Undisturbed ⟨⟨anonymousBase, draft⟩, anonymous root⟩ c' := by
  rintro ⟨base, d⟩ members reference hreached href
  obtain ⟨rfl, hm⟩ := reached_met hn hr hreached
  obtain ⟨hlocal, ⟨inner, target⟩, hf⟩ := hr _ _ _ hm href
  rw [hm.inside hn hr]
  refine .inl ⟨inner, target, hf, ?_⟩
  rintro rfl
  exact Nat.lt_irrefl _ (Json.depth_lt (follow_nameless hn hlocal rfl hf).2)

-- ---------------------------------------------------------------------------
-- Schemas side by side
-- ---------------------------------------------------------------------------

section Kin

variable (hm : Mergeable owner properties names)
  (hr : Renamed (.obj owner) (.obj (merged n owner properties names)) named named')
  (hu : Undisturbed ⟨top, ⟨.obj owner, named⟩⟩ ⟨top, ⟨.obj (merged n owner properties names), named'⟩⟩)

include hm hr hu

theorem moves_behind (hreached : Reached ⟨top, ⟨.obj owner, named⟩⟩ scope (.obj members))
    (href : Keyed.find? members "$ref" = some (.str reference))
    (h : ∀ inner target target', Reached ⟨top, ⟨.obj owner, named⟩⟩ inner target →
      Kin n properties target target' →
      Moves [] (sub goal inner target x path) (sub' goal inner target' x path)) :
    Moves []
      (behindFaults ⟨.obj owner, named⟩ sub goal (scope.inside (.obj members)) reference x path)
      (behindFaults ⟨.obj (merged n owner properties names), named'⟩ sub' goal
        (scope.inside (.obj members)) reference x path) := by
  rcases hu scope members reference hreached href with ⟨inner, target, hf, hne⟩ | ⟨fault, hf, hf'⟩
  · obtain ⟨target', hf', hkin⟩ := hm.follow hr hf hne
    rw [behindFaults, behindFaults, hf, hf']
    exact h inner target target' (hreached.behind href hf) hkin
  · rw [behindFaults, behindFaults, hf, hf']
    exact moves_self

theorem moves_kin (hle : steps ≤ steps') (hreached : Reached ⟨top, ⟨.obj owner, named⟩⟩ scope s)
    (hkin : Kin n properties s s') :
    Moves [] (faultsWithin ⟨.obj owner, named⟩ steps goal scope s x path)
      (faultsWithin ⟨.obj (merged n owner properties names), named'⟩ steps' goal scope s' x path) := by
  -- On the steps of the owner's side. The parts of what is met are the same schemas on both sides,
  -- even where it is the properties, so each of them is met one step earlier.
  induction steps generalizing steps' scope s s' goal x path with
  | zero => exact fun _ h => nomatch h
  | succ steps ih =>
    obtain ⟨more, rfl⟩ : ∃ more, steps' = more + 1 := ⟨steps' - 1, by omega⟩
    have hmore : steps ≤ more := by omega
    have hpart : ∀ members, Reached ⟨top, ⟨.obj owner, named⟩⟩ scope (.obj members) →
        Keyed.find? members "$ref" = none → ∀ s, Rule.Subschema scope.draft members s →
        Answers [] (faultsWithin ⟨.obj owner, named⟩ steps)
          (faultsWithin ⟨.obj (merged n owner properties names), named'⟩ more)
          (scope.inside (.obj members)) s := fun members hreached href s hs =>
      answers_nil fun _ _ _ => ih hmore (hreached.part href hs) (.same s)
    have hbehind : ∀ inner target target', Reached ⟨top, ⟨.obj owner, named⟩⟩ inner target →
        Kin n properties target target' →
        Moves [] (faultsWithin ⟨.obj owner, named⟩ steps goal inner target x path)
          (faultsWithin ⟨.obj (merged n owner properties names), named'⟩ more goal inner target' x
            path) := fun _ _ _ hreached hkin => ih hmore hreached hkin
    cases hkin with
    | same =>
      refine moves_schemaFaults (fun members hobj href => ?_) fun members reference hobj href => ?_
      · exact hpart members (hobj ▸ hreached) href
      · exact moves_behind hm hr hu (hobj ▸ hreached) href hbehind
    | properties =>
      have hin : scope.inside (.obj properties) =
          scope.inside (.obj (Keyed.insert properties "metadata" (metadataSchema n))) :=
        Scope.inside_congr (hm.properties_no_id.trans hm.id?_properties.symm)
      refine moves_schemaFaults_obj hin (find?_properties (by decide)).symm (fun href => ?_)
        fun reference href => moves_behind hm hr hu hreached href hbehind
      refine moves_inOrder_insert hm.sorted_properties (fun e he _ => ?_)
        (fun old hold => nomatch hm.fresh.symm.trans hold) fun _ => rfl
      rw [List.nil_append, memberFaults, memberFaults, ofMember_properties]
      refine moves_memberFaults (fun s hs => hpart properties hreached href s ?_) he
      rwa [Scope.draft_inside] at hs

end Kin

-- ---------------------------------------------------------------------------
-- The root
-- ---------------------------------------------------------------------------

theorem missingKeys_addName {v : Json} (h : Keyed.find? event name = some v) :
    missingKeys event path x (addName names name) = missingKeys event path x names := by
  unfold addName
  split
  · rfl
  · simp [missingKeys, Keyed.contains, h]

theorem propertyFaults_metadata {corpus : Corpus}
    (h : Keyed.find? event "metadata" = some (.obj metadata)) (hwell : WellFormed n metadata) :
    propertyFaults (faultsWithin corpus (steps + 3)) .faults scope event path
      ("metadata", metadataSchema n) = some [] := by
  refine propertyFaults_eq_nil.mpr fun v hv => ?_
  obtain rfl := Option.some.inj (h.symm.trans hv)
  exact passes_metadataSchema_iff.mpr ⟨metadata, rfl, hwell⟩

theorem subschema_property (hopen : Keyed.find? owner "additionalProperties" = none)
    (hp : Keyed.find? owner "properties" = some (.obj properties)) {e : String × Json}
    (he : e ∈ properties) : Rule.Subschema draft owner e.2 := by
  have hrule : Rule.ofMember draft owner "properties" (.obj properties) =
      if Rule.closesProperties owner = true then .ok none
      else .ok (some (.properties properties)) := rfl
  rw [closesProperties_of_open hopen] at hrule
  exact ⟨_, Keyed.mem_of_find? hp, _, hrule, List.mem_map.mpr ⟨e, he, rfl⟩⟩

theorem moves_merged (hm : Mergeable owner properties names)
    (hopen : Keyed.find? owner "additionalProperties" = none)
    (hmetadata : Keyed.find? event "metadata" = some (.obj metadata))
    (hpass : propertyFaults sub' goal scope event path ("metadata", metadataSchema n) = some [])
    (hpart : ∀ s, Rule.Subschema scope.draft owner s → Answers [] sub sub' scope s) :
    Moves [] (inOrder goal (memberFaults sub goal scope owner (.obj event) path) owner)
      (inOrder goal (memberFaults sub' goal scope (merged n owner properties names) (.obj event) path)
        (merged n owner properties names)) := by
  have hclosed := closesProperties_of_open hopen
  have hclosed' : Rule.closesProperties (merged n owner properties names) = false := by
    rw [← sameBeside_merged.closesProperties, hclosed]
  -- First the properties are set, then the required names.
  refine moves_trans (moves_inOrder_insert hm.sorted ?_ ?_ ?_)
    (moves_inOrder_insert (Keyed.sorted_insert hm.sorted) (fun _ _ _ => moves_self) ?_ ?_)
  · intro e he _
    rw [← memberFaults_congr sameBeside_merged (Keyed.find?_eq_none.mp hopen e he)]
    exact moves_memberFaults hpart he
  · intro old hold
    obtain rfl := hm.old_properties hold
    rw [memberFaults_properties_eq hclosed, memberFaults_properties_eq hclosed']
    refine moves_inOrder_insert hm.sorted_properties (fun e he _ => ?_)
      (fun old hold => nomatch hm.fresh.symm.trans hold) fun _ => hpass
    unfold propertyFaults
    split
    · exact (hpart e.2 (subschema_property hopen hold he)).here
    · exact moves_nil
  · intro hnone
    rw [memberFaults_properties_eq hclosed', hm.no_properties hnone]
    exact inOrder_eq_nil.mpr (by simpa [Keyed.insert] using hpass)
  · intro old hold
    rw [Keyed.find?_insert_of_ne (by decide)] at hold
    obtain rfl := hm.old_required hold
    rw [memberFaults_required_eq namesOf_strings, memberFaults_required_eq namesOf_strings,
      missingKeys_addName hmetadata]
    exact moves_self
  · intro hnone
    rw [Keyed.find?_insert_of_ne (by decide)] at hnone
    rw [memberFaults_required_eq namesOf_strings, missingKeys_addName hmetadata,
      hm.no_required hnone]
    rfl

-- ---------------------------------------------------------------------------
-- Meaning
-- ---------------------------------------------------------------------------

theorem faults_merged {fs : List Fault} (hm : Mergeable owner properties names)
    (hr : Renamed (.obj owner) (.obj (merged n owner properties names)) named named')
    (hu : Undisturbed ⟨top, ⟨.obj owner, named⟩⟩
      ⟨top, ⟨.obj (merged n owner properties names), named'⟩⟩)
    (hopen : Keyed.find? owner "additionalProperties" = none)
    (hmetadata : Keyed.find? event "metadata" = some (.obj metadata)) (hwell : WellFormed n metadata)
    (h : Evaluation.faults ⟨.obj owner, named⟩ top (.obj event) = some fs) :
    Evaluation.faults ⟨.obj (merged n owner properties names), named'⟩ top (.obj event) = some fs := by
  have hmore : enoughSteps ⟨.obj owner, named⟩ (.obj event) ≤
      enoughSteps ⟨.obj (merged n owner properties names), named'⟩ (.obj event) :=
    enoughSteps_mono (size_merged hm) (Nat.le_refl _)
  obtain ⟨few, hfew⟩ := enoughSteps_pieces ⟨.obj owner, named⟩ (.obj event)
  obtain ⟨many, hmany⟩ :=
    enoughSteps_pieces ⟨.obj (merged n owner properties names), named'⟩ (.obj event)
  have hle : few + 3 ≤ many + 3 := by omega
  rw [Evaluation.faults, hfew] at h
  rw [Evaluation.faults, hmany]
  have hroot : Reached ⟨top, ⟨.obj owner, named⟩⟩ top (.obj owner) := .root
  have hmoves : Moves [] (faultsWithin ⟨.obj owner, named⟩ (few + 4) .faults top (.obj owner)
      (.obj event) []) (faultsWithin ⟨.obj (merged n owner properties names), named'⟩ (many + 4)
        .faults top (.obj (merged n owner properties names)) (.obj event) []) := by
    rw [faultsWithin, faultsWithin]
    refine moves_schemaFaults_obj inside_merged.symm (find?_merged (by decide) (by decide)).symm
      (fun href => ?_) fun reference href => moves_behind hm hr hu hroot href
        fun _ _ _ hreached hkin => moves_kin hm hr hu hle hreached hkin
    refine moves_merged hm hopen hmetadata (propertyFaults_metadata hmetadata hwell) fun s hs => ?_
    rw [Scope.draft_inside] at hs
    exact answers_nil fun _ _ _ => moves_kin hm hr hu hle (hroot.part href hs) (.same s)
  simpa using hmoves fs h

/-- A property of the root is to be like the root itself. -/
def Nests (c : CompiledSchema) (key : String) : Prop :=
  ∃ root properties members reference inner, c.corpus.root = .obj root ∧
    Keyed.find? root "$ref" = none ∧ Keyed.find? root "properties" = some (.obj properties) ∧
    Keyed.find? properties key = some (.obj members) ∧
    Keyed.find? members "$ref" = some (.str reference) ∧
    follow c.corpus ((c.scope.inside (.obj root)).inside (.obj members)) reference =
      .ok (inner, .obj root)

theorem nested_refused {key : String} {nested : Members}
    (hcompiles : Compiles top (.obj (merged n owner properties names)))
    (h : Nests ⟨top, ⟨.obj (merged n owner properties names), named'⟩⟩ key)
    (hkey : Keyed.find? event key = some (.obj nested))
    (hnone : Keyed.find? nested "metadata" = none) :
    CompiledSchema.violations ⟨top, ⟨.obj (merged n owner properties names), named'⟩⟩
      (.obj event) ≠ some [] := by
  intro hviolations
  obtain ⟨root, entries, members, reference, inner, hroot, href, hp, hs, hr, hf⟩ := h
  obtain rfl := Json.obj.inj hroot
  -- Through the property and its reference back to the root, where the metadata are required.
  obtain ⟨k, hk⟩ :=
    enoughSteps_pieces ⟨.obj (merged n owner properties names), named'⟩ (.obj event)
  have hpass := CompiledSchema.violations_eq_nil.mp hviolations
  rw [Evaluation.faults, hk] at hpass
  have hproperty := Passes.property hpass hcompiles href hp hs hkey
  rw [Passes, faultsWithin, schemaFaults_ref hr, hf] at hproperty
  have hrequired := Passes.member hproperty href find?_merged_required
  obtain ⟨v, hv⟩ := (memberFaults_required namesOf_strings).mp hrequired "metadata"
    (mem_addName.mpr (.inr rfl))
  cases hnone.symm.trans hv

/-- Where the owner says nothing of the metadata and does not close the root, the merged schema
compiles. If no reference leads to the root, it has no other violations to tell of an event whose
metadata are as the broker asks. If a property refers to the root, it turns away every event in
which that property is an object without metadata. -/
theorem business_meaning (hcanon : (Json.obj owner).Canonical)
    (hc : Schema.compile draft (.obj owner) = .ok c) (hmeta : ownMetadata (.obj owner) = none)
    (hopen : Keyed.find? owner "additionalProperties" = none) :
    ∃ effective c', enrich .business (.obj owner) n = .ok effective ∧
      Schema.compile draft effective = .ok c' ∧
      (Undisturbed c c' → ∀ event metadata violations,
        Keyed.find? event "metadata" = some (.obj metadata) → WellFormed n metadata →
        c.violations (.obj event) = some violations →
        c'.violations (.obj event) = some violations) ∧
      ∀ key, Nests c' key → ∀ event nested, Keyed.find? event key = some (.obj nested) →
        Keyed.find? nested "metadata" = none → c'.violations (.obj event) ≠ some [] := by
  obtain ⟨properties, names, named', hm, hr, hc'⟩ := compile_merged (n := n) hcanon hc hmeta hopen
  have hcompiles := compiles_of_compile hc'
  obtain ⟨base, named, -, -, -, -, rfl⟩ := Schema.compile_ok.mp hc
  refine ⟨_, _, hm.enrich, hc', ?_, fun key h event nested => nested_refused hcompiles h⟩
  intro hu event metadata violations hmetadata hwell hviolations
  obtain ⟨fs, hfs, rfl⟩ := Option.map_eq_some_iff.mp hviolations
  have hfs' := faults_merged hm hr hu hopen hmetadata hwell hfs
  exact Option.map_eq_some_iff.mpr ⟨fs, hfs', rfl⟩

def folders : Members :=
  [("definitions", .obj [("folder", .obj [("properties", .obj [
      ("child", .obj [("$ref", .str "#/definitions/folder")]),
      ("title", .obj [("type", .str "string")])])])]),
    ("properties", .obj [("child", .obj [("$ref", .str "#/definitions/folder")])])]

def foldersEvent : Members :=
  [("child", .obj [("child", .obj [("title", Json.ofNat 5)])]), ("metadata", .obj orderMetadata)]

theorem folders_canonical : (Json.obj folders).Canonical := by
  simp only [Json.Canonical, Json.CanonicalMembers, Keyed.Sorted, folders]
  decide

theorem folders_nameless : Nameless (.obj folders) :=
  nameless_of_drafts (by decide)

theorem folders_refersLocally : RefersLocally (.obj folders) draft :=
  refersLocally_of_values folders_nameless (by decide)

theorem folders_violations : ((Schema.compile .draft7 (.obj folders)).toOption.bind fun c =>
    c.violations (.obj foldersEvent)) =
      some [⟨"/child/child/title", "5 is not of type \"string\""⟩] := by
  decide +kernel

/-- Nested folders need no metadata, and what the owner asks of them is told as before. -/
theorem folders_undisturbed : ∃ effective c c',
    enrich .business (.obj folders) "folder" = .ok effective ∧
      Schema.compile .draft7 (.obj folders) = .ok c ∧ Schema.compile .draft7 effective = .ok c' ∧
      Undisturbed c c' ∧ c'.violations (.obj foldersEvent) =
        some [⟨"/child/child/title", "5 is not of type \"string\""⟩] := by
  obtain ⟨c, hc, hviolations⟩ := Option.bind_eq_some_iff.mp folders_violations
  have hc := toOption_eq_some.mp hc
  obtain ⟨effective, c', henrich, hc', hmeaning, -⟩ :=
    business_meaning (n := "folder") folders_canonical hc rfl rfl
  have hu : Undisturbed c c' := by
    obtain ⟨base, named, hbase, hnamed, -, -, rfl⟩ := Schema.compile_ok.mp hc
    obtain rfl := Except.ok.inj ((rootBase_nameless folders_nameless).symm.trans hbase)
    obtain rfl := Except.ok.inj ((namesIn_nameless folders_nameless).symm.trans hnamed)
    exact undisturbed_of_local folders_nameless folders_refersLocally
  exact ⟨effective, c, c', henrich, hc, hc', hu,
    hmeaning hu foldersEvent orderMetadata _ rfl orderMetadata_wellFormed hviolations⟩

def rootFolders : Members := [("properties", .obj [("child", .obj [("$ref", .str "#")])])]

def rootFoldersEvent : Members := [("child", .obj []), ("metadata", .obj orderMetadata)]

theorem rootFolders_canonical : (Json.obj rootFolders).Canonical := by
  simp only [Json.Canonical, Json.CanonicalMembers, Keyed.Sorted, rootFolders]
  decide

theorem rootFolders_nameless : Nameless (.obj rootFolders) :=
  nameless_of_drafts (by decide)

theorem rootFolders_compiles : (Schema.compile .draft7 (.obj rootFolders)).isOk = true := by
  decide +kernel

theorem rootFolders_effective : ∃ effective,
    enrich .business (.obj rootFolders) "folder" = .ok effective ∧
      CompiledSchema.violations ⟨⟨anonymousBase, .draft7⟩, Corpus.anonymous effective⟩
        (.obj rootFoldersEvent) = some [⟨"/child", "required key [metadata] not found"⟩] := by
  refine ⟨_, rfl, ?_⟩
  decide +kernel

/-- Behind a reference to the root the metadata are asked for once more. -/
theorem rootFolders_disturbed : ((Schema.compile .draft7 (.obj rootFolders)).toOption.bind fun c =>
      c.violations (.obj rootFoldersEvent)) = some [] ∧
    ((enrich .business (.obj rootFolders) "folder").toOption.bind fun effective =>
      (Schema.compile .draft7 effective).toOption.bind fun c' =>
        c'.violations (.obj rootFoldersEvent)) =
      some [⟨"/child", "required key [metadata] not found"⟩] := by
  obtain ⟨c, hc⟩ := isOk_iff.mp rootFolders_compiles
  obtain ⟨effective, henrich, hviolations⟩ := rootFolders_effective
  have hc' := compile_enriched rootFolders_canonical rootFolders_nameless hc henrich
  constructor
  · obtain ⟨-, -, rfl⟩ := (compile_nameless rootFolders_nameless).mp hc
    rw [hc]
    decide +kernel
  · rw [henrich, Except.toOption, Option.bind_some, hc', Except.toOption, Option.bind_some]
    exact hviolations

end EventAdmission
