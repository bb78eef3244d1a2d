import EventAdmission.Proofs.Enrichment.Envelope
import EventAdmission.Proofs.Json.Pointer
import EventAdmission.Proofs.Pipeline
import EventAdmission.Proofs.Schema.Keywords

/-!
# What the metadata in a business schema enforce

The metadata are merged into what the owner says at the same place. There they
are in force unless the owner has a reference at the place or above it, which
puts everything beside it out of force. One law for each level: the root
(`root_passes`), the metadata (`metadata_passes`), a field (`field_passes`).
-/

namespace EventAdmission

open Evaluation Enrichment

variable {corpus : Corpus} {scope : Scope} {x value schema metadata : Json} {path : Path}
  {steps : Nat} {n field : String} {owner root properties event : Members} {old : Option Json}
  {draft : Draft} {t : EventType} {v : EventValidator}

-- ---------------------------------------------------------------------------
-- Places
-- ---------------------------------------------------------------------------

def Refers (schema : Json) (place : List String) : Prop :=
  ∃ r, schema.at? (place.map .key ++ [.key "$ref"]) = some r

theorem refers_nil : ¬ Refers x [] ↔ x.member? "$ref" = none := by
  simp [Refers, at?_key, at?_nil, Option.eq_none_iff_forall_ne_some]

theorem refers_cons {key : String} {place : List String} :
    Refers x (key :: place) ↔ ∃ y, x.member? key = some y ∧ Refers y place := by
  simp only [Refers, List.map_cons, List.cons_append, at?_key, Option.bind_eq_some_iff]
  constructor
  · rintro ⟨r, y, hy, hr⟩
    exact ⟨y, hy, r, hr⟩
  · rintro ⟨y, hy, r, hr⟩
    exact ⟨r, y, hy, hr⟩

def metadataPlace : List String := ["properties", "metadata"]

def ownMetadata (owner : Json) : Option Json := owner.at? (metadataPlace.map .key)

theorem refers_append {place rest : List String} :
    Refers x (place ++ rest) ↔ ∃ y, x.at? (place.map .key) = some y ∧ Refers y rest := by
  induction place generalizing x with
  | nil => simp [at?_nil]
  | cons key place ih =>
    simp only [List.cons_append, refers_cons, ih, List.map_cons, at?_key, Option.bind_eq_some_iff]
    constructor
    · rintro ⟨y, hy, z, hz, h⟩
      exact ⟨z, ⟨y, hy, hz⟩, h⟩
    · rintro ⟨z, ⟨y, hy, hz⟩, h⟩
      exact ⟨y, hy, z, hz, h⟩

theorem ownMetadata_of_objectAt (h : objectAt owner "properties" = .ok properties) :
    ownMetadata (.obj owner) = Keyed.find? properties "metadata" := by
  unfold objectAt at h
  simp only [ownMetadata, metadataPlace, List.map_cons, List.map_nil, at?_key,
    at?_nil, Json.member?]
  cases hp : Keyed.find? owner "properties" with
  | none =>
    rw [hp] at h
    obtain rfl := Except.ok.inj h
    rfl
  | some p =>
    rw [hp] at h
    cases p <;> cases h
    cases h : Keyed.find? properties "metadata" <;> simp [h]

theorem Enrichment.WithMetadata.ownMetadata_eq (h : WithMetadata n owner root properties metadata) :
    ownMetadata (.obj owner) = Keyed.find? properties "metadata" :=
  ownMetadata_of_objectAt h.old

-- ---------------------------------------------------------------------------
-- The root
-- ---------------------------------------------------------------------------

theorem mem_of_namesOf {items : List Json} {names : List String} {name : String}
    (h : Rule.namesOf (.arr items) = .ok names) (hname : .str name ∈ items) : name ∈ names := by
  rw [Rule.namesOf_arr.mp h] at hname
  obtain ⟨other, hother, heq⟩ := List.mem_map.mp hname
  exact Json.str.inj heq ▸ hother

theorem root_passes (hw : WithMetadata n owner root properties metadata)
    (h : Passes corpus (steps + 1) scope (.obj root) (.obj event) path)
    (hc : Compiles scope (.obj root)) (href : ¬ Refers (.obj owner) []) :
    ∃ value, Keyed.find? event "metadata" = some value ∧
      Passes corpus steps (scope.inside (.obj root)) metadata value (path ++ [.key "metadata"]) ∧
      Compiles (scope.inside (.obj root)) metadata := by
  have href : Keyed.find? root "$ref" = none := by
    rw [hw.find?_other (by decide) (by decide)]
    exact refers_nil.mp href
  obtain ⟨items, hrequired, hmem⟩ := hw.find?_required
  obtain ⟨names, hnames, hall⟩ := h.required hc href hrequired
  obtain ⟨value, hvalue⟩ := hall "metadata" (mem_of_namesOf hnames hmem)
  exact ⟨value, hvalue, h.property hc href hw.find?_properties Keyed.find?_insert_self hvalue,
    hc.property href hw.find?_properties Keyed.find?_insert_self⟩

-- ---------------------------------------------------------------------------
-- The metadata
-- ---------------------------------------------------------------------------

def metadataKeywords (n : String) : Members :=
  [("properties", .obj (metadataProperties n)), ("required", .strings requiredMetadata),
    ("type", .str "object")]

theorem sorted_metadataKeywords : Keyed.Sorted (metadataKeywords n) :=
  Keyed.sorted_of_keys (rfl : _ = ["properties", "required", "type"]) (by decide)

theorem sorted_metadataProperties : Keyed.Sorted (metadataProperties n) :=
  Keyed.sorted_of_keys (rfl : _ = ["eid", "event_type", "flow_id", "occurred_at", "parent_eids",
    "partition", "partition_compaction_key", "span_ctx", "version"]) (by decide)

theorem merged_metadata (h : Merged old (metadataSchema n) metadata) :
    Merged old (.obj (metadataKeywords n)) metadata := by
  rwa [metadataSchema_eq] at h

theorem refers_merged {source : Members} {result : Json} (h : Merged old (.obj source) result)
    (hs : Keyed.find? source "$ref" = none) (href : ∀ y, old = some y → ¬ Refers y []) :
    result.member? "$ref" = none := by
  rw [h.member?_other hs]
  cases old with
  | none => rfl
  | some y => exact refers_nil.mp (href y rfl)

theorem metadata_passes (hm : Merged old (metadataSchema n) metadata)
    (h : Passes corpus (steps + 1) scope metadata x path) (hc : Compiles scope metadata)
    (href : ∀ y, old = some y → ¬ Refers y []) :
    ∃ members, x = .obj members ∧
      ∀ name ∈ requiredMetadata, ∃ v, Keyed.find? members name = some v := by
  have hm := merged_metadata hm
  have href := refers_merged hm rfl href
  obtain ⟨keywords, rfl⟩ := hm.isObj
  have hkeyword : Keyed.find? (metadataKeywords n) "type" = some (.str Kind.object.name) := rfl
  obtain ⟨type, htype, hmerged⟩ :=
    hm.member?_same "type" sorted_metadataKeywords hkeyword (by decide)
  obtain rfl := hmerged.leaf rfl
  obtain ⟨members, rfl⟩ := holds_object.mp (h.type href htype)
  obtain ⟨items, hrequired, hmem⟩ := hm.required sorted_metadataKeywords rfl
  obtain ⟨names, hnames, hall⟩ := h.required hc href hrequired
  exact ⟨members, rfl, fun name hname => hall name (mem_of_namesOf hnames (hmem name hname))⟩

def ownField (old : Option Json) (field : String) : Option Json :=
  (old.bind (·.member? "properties")).bind (·.member? field)

theorem field_passes (hm : Merged old (metadataSchema n) metadata)
    (h : Passes corpus (steps + 1) scope metadata (.obj event) path) (hc : Compiles scope metadata)
    (href : ∀ y, old = some y → ¬ Refers y [])
    (hs : Keyed.find? (metadataProperties n) field = some schema)
    (hv : Keyed.find? event field = some value) (hne : field ≠ "required") :
    ∃ result, Merged (ownField old field) schema result ∧
      Passes corpus steps (scope.inside metadata) result value (path ++ [.key field]) ∧
      Compiles (scope.inside metadata) result := by
  have hm := merged_metadata hm
  have href := refers_merged hm rfl href
  obtain ⟨keywords, rfl⟩ := hm.isObj
  obtain ⟨fields, hfields, hmerged⟩ :=
    hm.member?_same "properties" sorted_metadataKeywords rfl (by decide)
  obtain ⟨entries, rfl⟩ := hmerged.isObj
  obtain ⟨result, hresult, hmerged⟩ := hmerged.member?_same field sorted_metadataProperties hs hne
  exact ⟨result, hmerged, h.property hc href hfields hresult hv,
    hc.property href hfields hresult⟩

-- ---------------------------------------------------------------------------
-- Business event types
-- ---------------------------------------------------------------------------

/-- What there is when a business event type has a validator. -/
structure BusinessSetup (draft : Draft) (t : EventType) (v : EventValidator) (c : CompiledSchema)
    (owner root properties : Members) (metadata : Json) : Prop where
  schema : t.schema = .obj owner
  enriched : enrich .business t.schema t.name = .ok (.obj root)
  withMetadata : WithMetadata t.name owner root properties metadata
  compiled : Schema.compile draft (.obj root) = .ok c
  root : c.corpus.root = .obj root
  validator : v = ⟨t.name, [.conforms c, .metadata t.name,
    .verdict ((Strategy.missingField? t).map Strategy.undeclared)]⟩

theorem BusinessSetup.compiles {c : CompiledSchema}
    (h : BusinessSetup draft t v c owner root properties metadata) :
    Compiles c.scope c.corpus.root := by
  rw [h.root]
  exact compiles_of_compile h.compiled

theorem enrich_business_ok {effective : Json} (h : enrich .business schema n = .ok effective) :
    ∃ owner root, schema = .obj owner ∧ addMetadata n owner = .ok root ∧ effective = .obj root := by
  cases schema with
  | obj owner =>
    cases hs : isEnriched (.obj owner) with
    | true =>
      simp only [enrich, checkedRoot, hs] at h
      cases h
    | false =>
      simp only [enrich, checkedRoot, hs, bind, Except.bind, Bool.false_eq_true, ↓reduceIte] at h
      cases hadd : addMetadata n owner with
      | error keyword =>
        rw [hadd] at h
        cases h
      | ok root =>
        rw [hadd] at h
        exact ⟨owner, root, rfl, hadd, (Except.ok.inj h).symm⟩
  | _ => cases h

theorem business_setup (hcat : t.category = .business) (hv : standardValidator draft t = .ok v) :
    ∃ c owner root properties metadata, BusinessSetup draft t v c owner root properties metadata := by
  obtain ⟨effective, c, he, hc, rfl⟩ := (standardValidator_ok (by rw [hcat]; rfl)).mp hv
  rw [hcat] at he
  obtain ⟨owner, root, hschema, hadd, rfl⟩ := enrich_business_ok he
  obtain ⟨properties, metadata, hw⟩ := addMetadata_ok hadd
  exact ⟨c, owner, root, properties, metadata, hschema, he, hw, hc, root_of_compile hc, rfl⟩

end EventAdmission
