import EventAdmission.Proofs.DataChange.Envelope
import EventAdmission.Proofs.Enrichment.Compiled
import EventAdmission.Proofs.Json.Values
import EventAdmission.Proofs.Metadata.Guard
import EventAdmission.Proofs.Schema.Siblings

/-!
# Events without metadata

`skips_metadata_iff`: an event without a metadata object is accepted exactly if
it is a business event, the broker's demand for metadata is out of force where
the event would break it, and the event passes the schema as its owner wrote it.
The demand is out of force for a value that is no object, behind a reference of
the owner at the root, and, for metadata of another kind, behind one at the
metadata. A data change always has its metadata.
-/

namespace EventAdmission

open Evaluation Enrichment

variable {corpus : Corpus} {scope : Scope} {x value r : Json} {path : Path} {steps : Nat}
  {n key : String} {owner root properties event members members' : Members} {metadata : Json}
  {draft : Draft} {t : EventType} {v : EventValidator} {c : CompiledSchema}

-- ---------------------------------------------------------------------------
-- Keywords by their keys
-- ---------------------------------------------------------------------------

def KeysPass (corpus : Corpus) (steps : Nat) (scope : Scope) (members : Members) (x : Json)
    (path : Path) (keys : String → Prop) : Prop :=
  ∀ key, keys key → ∀ value, Keyed.find? members key = some value →
    memberFaults (faultsWithin corpus steps) .faults scope members x path (key, value) = some []

theorem passes_iff_keys (hs : Keyed.Sorted members) (href : Keyed.find? members "$ref" = none) :
    Passes corpus (steps + 1) scope (.obj members) x path ↔
      KeysPass corpus steps (scope.inside (.obj members)) members x path (· ∉ mergedKeywords) ∧
      KeysPass corpus steps (scope.inside (.obj members)) members x path (· ∈ mergedKeywords) := by
  rw [passes_obj href, Keyed.forall_mem hs]
  constructor
  · intro h
    exact ⟨fun key _ => h key, fun key _ => h key⟩
  · rintro ⟨hothers, hmerged⟩ key
    by_cases hkey : key ∈ mergedKeywords
    · exact hmerged key hkey
    · exact hothers key hkey

theorem not_mergedKeywords (h : key ∉ mergedKeywords) :
    key ≠ "properties" ∧ key ≠ "required" ∧ key ≠ "additionalProperties" := by
  simpa [mergedKeywords] using h

theorem keysPass_others (h : SameBeside members members') :
    KeysPass corpus steps scope members x path (· ∉ mergedKeywords) ↔
      KeysPass corpus steps scope members' x path (· ∉ mergedKeywords) := by
  refine forall_congr' fun key => forall_congr' fun hkey => ?_
  obtain ⟨hp, hr, ha⟩ := not_mergedKeywords hkey
  rw [h key hp hr]
  refine forall_congr' fun value => ?_
  rw [memberFaults_congr h ha]

theorem keysPass_of_not_obj (hx : x.isObj = false) :
    KeysPass corpus steps scope members x path (· ∈ mergedKeywords) :=
  fun _ hkey _ _ => memberFaults_of_not_obj hkey hx

-- ---------------------------------------------------------------------------
-- Properties with other schemas that are passed alike
-- ---------------------------------------------------------------------------

structure SamePasses (sub : Evaluator) (scope : Scope) (ps ps' : Members) : Prop where
  keys : ∀ key, Keyed.find? ps key = none ↔ Keyed.find? ps' key = none
  pass : ∀ key s s', Keyed.find? ps key = some s → Keyed.find? ps' key = some s' →
    ∀ value path, sub .faults scope s value path = some [] ↔ sub .faults scope s' value path = some []

variable {sub : Evaluator} {ps ps' : Members} {patterns : Option (List KeyPattern)}
  {rest : Remainder}

theorem SamePasses.symm (h : SamePasses sub scope ps ps') : SamePasses sub scope ps' ps where
  keys key := (h.keys key).symm
  pass key s s' hs hs' value path := (h.pass key s' s hs' hs value path).symm

theorem SamePasses.find? (h : SamePasses sub scope ps ps') {s : Json}
    (hs : Keyed.find? ps key = some s) : ∃ s', Keyed.find? ps' key = some s' ∧
      ∀ value path, sub .faults scope s value path = some [] ↔
        sub .faults scope s' value path = some [] := by
  cases hs' : Keyed.find? ps' key with
  | none => simp [(h.keys key).mpr hs'] at hs
  | some s' => exact ⟨s', rfl, h.pass key s s' hs hs'⟩

theorem mem_namedSchemas {s : Json} : s ∈ namedSchemas (some ps) patterns key ↔
    Keyed.find? ps key = some s ∨ s ∈ matchingSchemas (patterns.getD []) key := by
  simp [namedSchemas, eq_comm]

theorem SamePasses.named (h : SamePasses sub scope ps ps') :
    namedSchemas (some ps) patterns key = [] ↔ namedSchemas (some ps') patterns key = [] := by
  simp only [namedSchemas, Option.getD_some, List.append_eq_nil_iff, Option.toList_eq_nil_iff,
    h.keys key]

theorem SamePasses.schemasFor (h : SamePasses sub scope ps ps')
    (hall : ∀ s ∈ schemasFor (some ps) patterns rest key, sub .faults scope s value path = some []) :
    ∀ s ∈ schemasFor (some ps') patterns rest key, sub .faults scope s value path = some [] := by
  intro s' hs'
  rcases mem_schemasFor.mp hs' with hnamed | ⟨hnil, hrest⟩
  · rcases mem_namedSchemas.mp hnamed with hfind | hmatch
    · obtain ⟨s, hs, hpass⟩ := h.symm.find? hfind
      exact (hpass _ _).mpr (hall s (mem_schemasFor.mpr (.inl (mem_namedSchemas.mpr (.inl hs)))))
    · exact hall s' (mem_schemasFor.mpr (.inl (mem_namedSchemas.mpr (.inr hmatch))))
  · exact hall s' (mem_schemasFor.mpr (.inr ⟨h.named.mpr hnil, hrest⟩))

theorem SamePasses.closed (h : SamePasses sub scope ps ps')
    (hpass : closedFaults sub .faults scope (some ps) patterns rest event x path = some []) :
    closedFaults sub .faults scope (some ps') patterns rest event x path = some [] := by
  obtain ⟨hpass, hnamed⟩ := (closedFaults_eq_nil rfl).mp hpass
  refine (closedFaults_eq_nil rfl).mpr ⟨fun e he => h.schemasFor (hpass e he), fun hrest e he => ?_⟩
  exact fun hnil => hnamed hrest e he (h.named.mpr hnil)

theorem SamePasses.entries (h : SamePasses sub scope ps ps') (hs : Keyed.Sorted ps')
    (hpass : ∀ e ∈ ps, ∀ value, Keyed.find? event e.1 = some value →
      sub .faults scope e.2 value (path ++ [.key e.1]) = some []) :
    ∀ e ∈ ps', ∀ value, Keyed.find? event e.1 = some value →
      sub .faults scope e.2 value (path ++ [.key e.1]) = some [] := by
  rintro ⟨key, s'⟩ he value hvalue
  obtain ⟨s, hs, hiff⟩ := h.symm.find? (Keyed.find?_of_mem hs he)
  exact (hiff _ _).mpr (hpass _ (Keyed.mem_of_find? hs) value hvalue)

-- ---------------------------------------------------------------------------
-- Metadata behind a reference
-- ---------------------------------------------------------------------------

theorem appendNames_single (items : List Json) (name : String) :
    appendNames items [name] = items ∨ appendNames items [name] = items ++ [.str name] := by
  rw [appendNames]
  split
  · exact .inl rfl
  · exact .inr rfl

theorem required_added {items : List Json} {names : List String}
    (hnames : Rule.namesOf (.arr (appendNames items ["metadata"])) = .ok names)
    (hmetadata : Keyed.find? event "metadata" = some value) :
    ∃ own, Rule.namesOf (.arr items) = .ok own ∧
      ((∀ name ∈ names, ∃ v, Keyed.find? event name = some v) ↔
        ∀ name ∈ own, ∃ v, Keyed.find? event name = some v) := by
  rw [Rule.namesOf_arr] at hnames
  rcases appendNames_single items "metadata" with h | h
  · exact ⟨names, Rule.namesOf_arr.mpr (h.symm.trans hnames), Iff.rfl⟩
  · obtain ⟨own, last, rfl, hown, hlast⟩ := List.append_eq_map_iff.mp (h.symm.trans hnames)
    obtain rfl : last = ["metadata"] := by
      cases last with
      | nil => cases hlast
      | cons name rest =>
        obtain ⟨hname, hrest⟩ := List.cons.inj hlast
        cases rest with
        | nil => rw [Json.str.inj hname]
        | cons => cases hrest
    refine ⟨own, Rule.namesOf_arr.mpr hown.symm, ?_⟩
    simp only [List.forall_mem_append, List.forall_mem_singleton, and_iff_left_iff_imp]
    exact fun _ => ⟨value, hmetadata⟩

theorem Enrichment.WithMetadata.sameBeside (hw : WithMetadata n owner root properties metadata) :
    SameBeside root owner := fun _ => hw.find?_other

theorem patternsBeside_congr (h : SameBeside members members') :
    patternsBeside members value = patternsBeside members' value := by
  rw [patternsBeside, patternsBeside, h _ (by decide) (by decide)]

/-- The rules for additional properties in the merged root and in the owner's differ in the schema
of the metadata only. -/
theorem additional_pair (hbeside : SameBeside members members')
    (hp : Keyed.find? members "properties" = some (.obj ps))
    (hp' : Keyed.find? members' "properties" = some (.obj ps')) (hvalue : value ≠ .bool true)
    {rule : Option Rule} (h : Rule.additionalOf members value = .ok rule) :
    ∃ patterns,
      Rule.additionalOf members value =
        .ok (some (.closed (some ps) patterns (remainderOf value))) ∧
      Rule.additionalOf members' value =
        .ok (some (.closed (some ps') patterns (remainderOf value))) := by
  rw [additionalOf_eq hvalue] at h ⊢
  obtain ⟨patterns, hpatterns, -⟩ := bind_ok.mp h
  have hown : propertiesBeside members = .ok (some ps) := by
    rw [propertiesBeside, hp]
    rfl
  have hown' : propertiesBeside members' = .ok (some ps') := by
    rw [propertiesBeside, hp']
    rfl
  refine ⟨patterns, ?_, ?_⟩
  · rw [hpatterns, hown]
    rfl
  · rw [additionalOf_eq hvalue, ← patternsBeside_congr hbeside, hpatterns, hown']
    rfl

theorem additional_congr (hbeside : SameBeside members members')
    (hp : Keyed.find? members "properties" = some (.obj ps))
    (hp' : Keyed.find? members' "properties" = some (.obj ps'))
    (hsame : SamePasses sub scope ps ps') {rule : Option Rule}
    (hrule : Rule.additionalOf members value = .ok rule) :
    memberFaults sub .faults scope members (.obj event) path ("additionalProperties", value) =
        some [] ↔
      memberFaults sub .faults scope members' (.obj event) path ("additionalProperties", value) =
        some [] := by
  by_cases hvalue : value = .bool true
  · subst hvalue
    have hsiblings : ∀ siblings, Rule.ofMember scope.draft siblings "additionalProperties"
        (.bool true) = Rule.additionalOf siblings (.bool true) := fun _ => rfl
    rw [memberFaults, memberFaults, hsiblings, hsiblings, additionalOf_true, additionalOf_true,
      patternsBeside_congr hbeside]
  · obtain ⟨patterns, hr, hr'⟩ := additional_pair hbeside hp hp' hvalue hrule
    rw [memberFaults_additionalProperties hr, memberFaults_additionalProperties hr']
    exact ⟨hsame.closed, hsame.symm.closed⟩

theorem properties_congr (hbeside : SameBeside members members') (hs : Keyed.Sorted ps)
    (hs' : Keyed.Sorted ps') (hsame : SamePasses sub scope ps ps') :
    memberFaults sub .faults scope members (.obj event) path ("properties", .obj ps) = some [] ↔
      memberFaults sub .faults scope members' (.obj event) path ("properties", .obj ps') =
        some [] := by
  cases hcloses : Rule.closesProperties members with
  | true =>
    rw [memberFaults_closed_properties hcloses,
      memberFaults_closed_properties (hbeside.closesProperties ▸ hcloses)]
  | false =>
    rw [memberFaults_properties hcloses,
      memberFaults_properties (hbeside.closesProperties ▸ hcloses)]
    exact ⟨hsame.entries hs', hsame.symm.entries hs⟩

theorem required_congr {items : List Json} {names : List String}
    (hnames : Rule.namesOf (.arr (appendNames items ["metadata"])) = .ok names)
    (hitems : (Keyed.find? owner "required").getD (.arr []) = .arr items)
    (hmetadata : Keyed.find? event "metadata" = some value) :
    memberFaults sub .faults scope members (.obj event) path
        ("required", .arr (appendNames items ["metadata"])) = some [] ↔
      ∀ own, Keyed.find? owner "required" = some own →
        memberFaults sub .faults scope owner (.obj event) path ("required", own) = some [] := by
  obtain ⟨own, hown, hiff⟩ := required_added hnames hmetadata
  rw [memberFaults_required hnames, hiff]
  cases hreq : Keyed.find? owner "required" with
  | none =>
    rw [hreq] at hitems
    obtain rfl := Json.arr.inj hitems
    obtain rfl : own = [] := List.map_eq_nil_iff.mp (Rule.namesOf_arr.mp hown).symm
    simp
  | some required =>
    rw [hreq] at hitems
    obtain rfl : required = .arr items := hitems
    simp only [Option.some.injEq, forall_eq', memberFaults_required hown]

/-- An object that has a member for the metadata passes the merged keywords if it passes the
owner's, provided that the owner's schema of the metadata stays in force. -/
theorem keysPass_merged (hw : WithMetadata n owner root properties metadata)
    (hc : Compiles scope (.obj root)) (href : Keyed.find? root "$ref" = none)
    (hp : Keyed.find? owner "properties" = some (.obj properties))
    (hs : Keyed.Sorted properties)
    (hsame : SamePasses (faultsWithin corpus steps) (scope.inside (.obj root))
      (Keyed.insert properties "metadata" metadata) properties)
    (hmetadata : Keyed.find? event "metadata" = some value) :
    KeysPass corpus steps (scope.inside (.obj root)) root (.obj event) path (· ∈ mergedKeywords) ↔
      KeysPass corpus steps (scope.inside (.obj root)) owner (.obj event) path
        (· ∈ mergedKeywords) := by
  have hproperties := hw.find?_properties
  obtain ⟨items, hitems, hroot⟩ := hw.result
  have hrequired : Keyed.find? root "required" =
      some (.arr (appendNames items ["metadata"])) := by
    rw [hroot, Keyed.find?_insert_self]
  have hadditional : Keyed.find? root "additionalProperties" =
      Keyed.find? owner "additionalProperties" := hw.find?_other (by decide) (by decide)
  obtain ⟨names, hnames⟩ := hc.required href hrequired
  simp only [KeysPass, mergedKeywords, List.forall_mem_cons, hproperties, hp, hrequired,
    hadditional, Option.some.injEq, forall_eq', List.not_mem_nil, false_implies, implies_true,
    and_true]
  refine and_congr (properties_congr hw.sameBeside (Keyed.sorted_insert hs) hs hsame)
    (and_congr (required_congr hnames hitems hmetadata) ?_)
  refine forall_congr' fun own => forall_congr' fun hown => ?_
  obtain ⟨r, hr⟩ := hc.additional href (hadditional.trans hown)
  exact additional_congr hw.sameBeside hproperties hp hsame hr

theorem id?_eq {schema schema' : Json} (hid : schema.member? "id" = schema'.member? "id")
    (hid' : schema.member? "$id" = schema'.member? "$id") :
    Schema.id? draft schema = Schema.id? draft schema' := by
  cases draft
  · simp only [Schema.id?, Schema.idKeyword, hid]
  all_goals simp only [Schema.id?, Schema.idKeyword, hid']

theorem Enrichment.WithMetadata.id?_eq (hw : WithMetadata n owner root properties metadata) :
    Schema.id? draft (.obj root) = Schema.id? draft (.obj owner) :=
  EventAdmission.id?_eq (hw.find?_other (by decide) (by decide))
    (hw.find?_other (by decide) (by decide))

theorem merged_ref {own source : Members} {result : Json} {goal : Goal}
    (hm : Merged (some (.obj own)) (.obj source) result) (hr : Keyed.find? own "$ref" = some r)
    (href : Keyed.find? source "$ref" = none) (hid : Keyed.find? source "id" = none)
    (hid' : Keyed.find? source "$id" = none) :
    faultsWithin corpus steps goal scope result x path =
      faultsWithin corpus steps goal scope (.obj own) x path := by
  obtain ⟨members, rfl⟩ := hm.isObj
  have hr' : Keyed.find? members "$ref" = some r := (hm.member?_other href).trans hr
  exact faults_of_ref hr' hr (id?_eq (hm.member?_other hid) (hm.member?_other hid'))

theorem ownMetadata_of_refers (hw : WithMetadata n owner root properties metadata)
    (href : Refers (.obj owner) metadataPlace) :
    ∃ own r, Keyed.find? properties "metadata" = some (.obj own) ∧
      Keyed.find? own "$ref" = some r := by
  obtain ⟨y, hy, r, hr⟩ := refers_append.mp ((List.append_nil metadataPlace).symm ▸ href)
  have hown : Keyed.find? properties "metadata" = some y := hw.ownMetadata_eq.symm.trans hy
  cases y with
  | obj own =>
    simp only [List.map_nil, List.nil_append, at?_key, Option.bind_eq_some_iff] at hr
    obtain ⟨r', hr', -⟩ := hr
    exact ⟨own, r', hown, hr'⟩
  | _ => cases hr

theorem samePasses_of_ref (hw : WithMetadata n owner root properties metadata)
    (href : Refers (.obj owner) metadataPlace) :
    SamePasses (faultsWithin corpus steps) scope (Keyed.insert properties "metadata" metadata)
      properties := by
  obtain ⟨own, r, hown, hr⟩ := ownMetadata_of_refers hw href
  have hmerged := hw.merged
  rw [hown] at hmerged
  refine ⟨fun key => ?_, fun key s s' hs hs' value path => ?_⟩
  · by_cases hkey : key = "metadata"
    · subst hkey
      simp [hown]
    · rw [Keyed.find?_insert_of_ne hkey]
  · by_cases hkey : key = "metadata"
    · subst hkey
      obtain rfl := Option.some.inj (hown.symm.trans hs')
      obtain rfl := Option.some.inj (Keyed.find?_insert_self.symm.trans hs)
      rw [merged_ref (merged_metadata hmerged) hr rfl rfl rfl]
    · rw [Keyed.find?_insert_of_ne hkey] at hs
      obtain rfl := Option.some.inj (hs.symm.trans hs')
      exact Iff.rfl

-- ---------------------------------------------------------------------------
-- Events without metadata
-- ---------------------------------------------------------------------------

def HasMetadata (x : Json) : Prop := ∃ metadata, x.member? "metadata" = some (.obj metadata)

/-- The broker's demand for metadata is out of force for an event. -/
def Unguarded (owner x : Json) : Prop :=
  Refers owner [] ∨ x.isObj = false ∨
    ((∃ value, x.member? "metadata" = some value) ∧ Refers owner metadataPlace)

theorem properties_of_refers (hw : WithMetadata n owner root properties metadata)
    (href : Refers (.obj owner) metadataPlace) :
    Keyed.find? owner "properties" = some (.obj properties) := by
  obtain ⟨own, r, hown, -⟩ := ownMetadata_of_refers hw href
  have hold := hw.old
  unfold objectAt at hold
  cases hp : Keyed.find? owner "properties" with
  | none =>
    rw [hp] at hold
    obtain rfl := Except.ok.inj hold
    cases hown
  | some p =>
    rw [hp] at hold
    cases p <;> cases hold
    rfl

variable (hw : WithMetadata n owner root properties metadata) (hcanonical : (Json.obj owner).Canonical)
  (hc : Compiles scope (.obj root))

include hw in
theorem sorted_root (hs : Keyed.Sorted owner) : Keyed.Sorted root := by
  obtain ⟨items, -, rfl⟩ := hw.result
  exact Keyed.sorted_insert (Keyed.sorted_insert hs)

include hw hcanonical in
theorem root_iff_owner_of_not_obj (href : ¬ Refers (.obj owner) []) (hx : x.isObj = false) :
    Passes corpus (steps + 1) scope (.obj root) x path ↔
      Passes corpus (steps + 1) scope (.obj owner) x path := by
  have hown : Keyed.find? owner "$ref" = none := refers_nil.mp href
  have hroot : Keyed.find? root "$ref" = none :=
    (hw.find?_other (by decide) (by decide)).trans hown
  rw [passes_iff_keys (sorted_root hw hcanonical.1) hroot, passes_iff_keys hcanonical.1 hown,
    Scope.inside_congr hw.id?_eq, keysPass_others hw.sameBeside]
  simp only [keysPass_of_not_obj hx, and_true]

include hw hcanonical hc in
theorem root_iff_owner_of_refers (href : ¬ Refers (.obj owner) [])
    (hmeta : Refers (.obj owner) metadataPlace)
    (hmetadata : Keyed.find? event "metadata" = some value) :
    Passes corpus (steps + 1) scope (.obj root) (.obj event) path ↔
      Passes corpus (steps + 1) scope (.obj owner) (.obj event) path := by
  have hown : Keyed.find? owner "$ref" = none := refers_nil.mp href
  have hroot : Keyed.find? root "$ref" = none :=
    (hw.find?_other (by decide) (by decide)).trans hown
  have hp := properties_of_refers hw hmeta
  have hs : Keyed.Sorted properties := (Json.canonical_of_find? hcanonical.2 hp).1
  rw [passes_iff_keys (sorted_root hw hcanonical.1) hroot, passes_iff_keys hcanonical.1 hown,
    keysPass_others hw.sameBeside,
    keysPass_merged hw hc hroot hp hs (samePasses_of_ref hw hmeta) hmetadata,
    Scope.inside_congr hw.id?_eq]

theorem root_iff_owner_of_ref (hw : WithMetadata n owner root properties metadata)
    (href : Refers (.obj owner) []) :
    Passes corpus steps scope (.obj root) x path ↔ Passes corpus steps scope (.obj owner) x path := by
  obtain ⟨r, hr⟩ := href
  simp only [List.map_nil, List.nil_append, at?_key, at?_nil, Option.bind_fun_some, Json.member?]
    at hr
  have hroot : Keyed.find? root "$ref" = some r :=
    (hw.find?_other (by decide) (by decide)).trans hr
  rw [Passes, Passes, faults_of_ref hroot hr hw.id?_eq]

theorem conforms_without_metadata (hs : BusinessSetup draft t v c owner root properties metadata)
    (hcanonical : t.schema.Canonical) (hx : ¬ HasMetadata x) :
    Conforms c x ↔ Unguarded t.schema x ∧
      Passes c.corpus (enoughSteps c.corpus x) c.scope t.schema x [] := by
  have hw := hs.withMetadata
  have hc : Compiles c.scope (.obj root) := hs.root ▸ hs.compiles
  obtain ⟨k, hk⟩ := enoughSteps_pieces c.corpus x
  rw [hs.schema] at hcanonical ⊢
  rw [Conforms, hs.root, hk]
  by_cases href : Refers (.obj owner) []
  · rw [root_iff_owner_of_ref hw href]
    exact ⟨fun h => ⟨.inl href, h⟩, And.right⟩
  · cases x with
    | obj event =>
      constructor
      · intro h
        obtain ⟨value, hvalue, hpass, hcm⟩ := root_passes hw h hc href
        have hmeta : Refers (.obj owner) metadataPlace := by
          refine Classical.byContradiction fun hnot => hx ?_
          have hmerged : Merged (ownMetadata (.obj owner)) (metadataSchema t.name) metadata :=
            hw.ownMetadata_eq ▸ hw.merged
          obtain ⟨members, rfl, -⟩ := metadata_passes hmerged hpass hcm fun y hy hr =>
            hnot ((List.append_nil metadataPlace) ▸ refers_append.mpr ⟨y, hy, hr⟩)
          exact ⟨members, hvalue⟩
        exact ⟨.inr (.inr ⟨⟨value, hvalue⟩, hmeta⟩),
          (root_iff_owner_of_refers hw hcanonical hc href hmeta hvalue).mp h⟩
      · rintro ⟨hroot | hobj | ⟨⟨value, hvalue⟩, hmeta⟩, h⟩
        · exact absurd hroot href
        · cases hobj
        · exact (root_iff_owner_of_refers hw hcanonical hc href hmeta hvalue).mpr h
    | _ =>
      rw [root_iff_owner_of_not_obj hw hcanonical href rfl]
      exact ⟨fun h => ⟨.inr (.inl rfl), h⟩, And.right⟩

theorem dataChange_hasMetadata {head : Members} (hhead : Head owner head)
    (h : Passes corpus (steps + 4) scope (.obj (envelope n owner head)) x path) : HasMetadata x := by
  obtain ⟨event, rfl, hrequired, hfields⟩ := (passes_envelope hhead).mp h
  obtain ⟨value, hvalue⟩ := hrequired "metadata" (by decide)
  obtain ⟨s, hs, hpass⟩ := hfields _ (Keyed.mem_of_find? hvalue)
  obtain rfl : metadataSchema n = s := Option.some.inj hs
  obtain ⟨members, rfl, -⟩ := passes_metadataSchema.mp hpass
  exact ⟨members, hvalue⟩

theorem skips_metadata_iff (hcat : t.category.requiresMetadata = true)
    (hcanonical : t.schema.Canonical) (hv : standardValidator draft t = .ok v) :
    ∃ effective c, enrich t.category t.schema t.name = .ok effective ∧
      Schema.compile draft effective = .ok c ∧
      ∀ x, ¬ HasMetadata x → (v.validate x = none ↔
        t.category = .business ∧ Strategy.missingField? t = none ∧ Unguarded t.schema x ∧
          Passes c.corpus (enoughSteps c.corpus x) c.scope t.schema x []) := by
  cases hcategory : t.category with
  | undefined => rw [hcategory] at hcat; cases hcat
  | business =>
    obtain ⟨c, owner, root, properties, metadata, hs⟩ := business_setup hcategory hv
    refine ⟨.obj root, c, hs.enriched, hs.compiled, fun x hx => ?_⟩
    have hcross : EventCheck.metadataRejection t.name x = none :=
      metadataRejection_eq_none.mpr fun metadata hmetadata => absurd ⟨metadata, hmetadata⟩ hx
    rw [hs.validator, validate_eq_none, conforms_without_metadata hs hcanonical hx]
    simp only [hcross, true_and, Option.map_eq_none_iff]
    exact ⟨fun ⟨⟨hgap, hpass⟩, hfield⟩ => ⟨hfield, hgap, hpass⟩,
      fun ⟨hfield, hgap, hpass⟩ => ⟨⟨hgap, hpass⟩, hfield⟩⟩
  | dataChange =>
    obtain ⟨effective, c, he, hc, rfl⟩ := (standardValidator_ok hcat).mp hv
    rw [hcategory] at he
    obtain ⟨owner, head, -, hhead, rfl⟩ := enrich_dataChange_ok he
    refine ⟨_, c, he, hc, fun x hx => ?_⟩
    obtain ⟨base, named, -, -, -, -, rfl⟩ := Schema.compile_ok.mp hc
    rw [validate_eq_none, Conforms]
    obtain ⟨k, hk⟩ := enoughSteps_pieces ⟨.obj (envelope t.name owner head), named⟩ x
    simp only [hk, reduceCtorEq, false_and, iff_false]
    rintro ⟨hpass, -⟩
    exact hx (dataChange_hasMetadata hhead hpass)

-- ---------------------------------------------------------------------------
-- A number for an event
-- ---------------------------------------------------------------------------

def heartbeat : EventType := ⟨"heartbeat", .business, .obj [], []⟩

theorem standardValidator_heartbeat : (standardValidator .draft7 heartbeat).isOk = true := by
  obtain ⟨effective, he⟩ : ∃ effective, enrich .business (.obj []) "heartbeat" = .ok effective :=
    ⟨_, rfl⟩
  have hcanonical : (Json.obj []).Canonical := ⟨.nil, trivial⟩
  have hc : Schema.compile .draft7 effective = .ok _ :=
    compile_enriched hcanonical (nameless_of_drafts (by decide)) compile_nil he
  exact isOk_iff.mpr ⟨_, (standardValidator_ok rfl).mpr ⟨effective, _, he, hc, rfl⟩⟩

/-- A number passes for a heartbeat, though it has no metadata. -/
theorem heartbeat_accepts_number : ∃ v, standardValidator .draft7 heartbeat = .ok v ∧
    ¬ HasMetadata (.ofNat 5) ∧ v.validate (.ofNat 5) = none := by
  have hnot : ¬ HasMetadata (.ofNat 5) := by
    rintro ⟨metadata, h⟩
    cases h
  have hcanonical : heartbeat.schema.Canonical := ⟨.nil, trivial⟩
  obtain ⟨v, hv⟩ := isOk_iff.mp standardValidator_heartbeat
  obtain ⟨_, c, -, -, hiff⟩ := skips_metadata_iff rfl hcanonical hv
  refine ⟨v, hv, hnot, (hiff _ hnot).mpr ⟨rfl, rfl, .inr (.inl rfl), ?_⟩⟩
  obtain ⟨k, hk⟩ := enoughSteps_pieces c.corpus (.ofNat 5)
  rw [hk]
  exact (passes_obj rfl).mpr nofun

end EventAdmission
