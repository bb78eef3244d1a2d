import EventAdmission.Proofs.Enrichment.Compiled
import EventAdmission.Proofs.Metadata.Guard

/-!
# The content of business metadata

`business_content`: what the metadata of an accepted business event hold, for
every schema of the owner. The event type and a time that is told are right in
any case. The rest is in force as far as the owner has no reference on the way, which
the merge does not see to (`ticket_eid_unchecked`); the values of the span context are
strings, apart from those under keys that the owner names there.
-/

namespace EventAdmission

open Evaluation Enrichment

variable {corpus : Corpus} {scope : Scope} {x value schema : Json} {path : Path} {steps : Nat}
  {n field key : String} {owner root properties event metadata : Members} {draft : Draft}
  {t : EventType} {v : EventValidator} {c : CompiledSchema}

def fieldPlace (field : String) : List String := ["properties", "metadata", "properties", field]

/-- The owner has no reference above or at a field of the metadata. -/
structure InForce (owner : Json) (field : String) : Prop where
  root : ¬ Refers owner []
  metadata : ¬ Refers owner ["properties", "metadata"]
  field : ¬ Refers owner (fieldPlace field)

/-- The owner names a key of the span context, by itself or by a pattern. -/
def NamesSpan (owner : Json) (key : String) : Prop :=
  ∃ members, owner.at? ((fieldPlace "span_ctx").map .key) = some (.obj members) ∧
    Names members key

/-- The content that metadata are sure to have, given what the owner says about them. -/
structure Content (owner : Json) (n : String) (metadata : Members) : Prop where
  eid : InForce owner "eid" → ∃ s, Keyed.find? metadata "eid" = some (.str s) ∧ IsUuid s
  occurredAt : InForce owner "occurred_at" →
    ∃ s, Keyed.find? metadata "occurred_at" = some (.str s) ∧ (Timestamp.read s).isSome = true
  eventType : ∀ x, Keyed.find? metadata "event_type" = some x → x = .str n
  span : InForce owner "span_ctx" → ∀ x, Keyed.find? metadata "span_ctx" = some x →
    ∃ entries, x = .obj entries ∧
      (¬ Refers owner (fieldPlace "span_ctx" ++ ["additionalProperties"]) →
        ∀ e ∈ entries, ¬ NamesSpan owner e.1 → ∃ s, e.2 = .str s)

theorem ownField_eq :
    ownField (ownMetadata x) field = x.at? ((fieldPlace field).map .key) := by
  simp only [ownField, ownMetadata, metadataPlace, fieldPlace, List.map_cons, List.map_nil, at?_key,
    at?_nil, Option.bind_assoc, Option.bind_fun_some]

theorem InForce.not_metadata (h : InForce x field) :
    ∀ y, ownMetadata x = some y → ¬ Refers y [] := fun y hy hr =>
  h.metadata (refers_append.mpr ⟨y, hy, hr⟩)

theorem InForce.not_field (h : InForce x field) :
    ∀ y, ownField (ownMetadata x) field = some y → ¬ Refers y [] := fun y hy hr =>
  h.field ((List.append_nil (fieldPlace field)) ▸ refers_append.mpr ⟨y, ownField_eq ▸ hy, hr⟩)

variable {m : Json}

theorem metadata_of_root (hs : BusinessSetup draft t v c owner root properties m)
    (hx : Passes c.corpus (steps + 1) c.scope (.obj root) (.obj event) path)
    (hmetadata : Keyed.find? event "metadata" = some (.obj metadata))
    (hroot : ¬ Refers t.schema []) :
    Passes c.corpus steps (c.scope.inside (.obj root)) m (.obj metadata)
        (path ++ [.key "metadata"]) ∧
      Compiles (c.scope.inside (.obj root)) m := by
  have hc : Compiles c.scope (.obj root) := hs.root ▸ hs.compiles
  obtain ⟨value, hvalue, hpass, hc⟩ := root_passes hs.withMetadata hx hc (hs.schema ▸ hroot)
  obtain rfl := Option.some.inj (hmetadata.symm.trans hvalue)
  exact ⟨hpass, hc⟩

theorem inForce_passes (hs : BusinessSetup draft t v c owner root properties m)
    (hx : Passes c.corpus (steps + 2) c.scope (.obj root) (.obj event) path)
    (hmetadata : Keyed.find? event "metadata" = some (.obj metadata))
    (hforce : InForce t.schema field)
    (hfield : Keyed.find? (metadataProperties t.name) field = some schema)
    (hv : Keyed.find? metadata field = some value) (hne : field ≠ "required") :
    ∃ result scope path, Merged (ownField (ownMetadata t.schema) field) schema result ∧
      Passes c.corpus steps scope result value path ∧ Compiles scope result := by
  obtain ⟨hpass, hc⟩ := metadata_of_root hs hx hmetadata hforce.root
  have hmerged : Merged (ownMetadata t.schema) (metadataSchema t.name) m := by
    rw [hs.schema, hs.withMetadata.ownMetadata_eq]
    exact hs.withMetadata.merged
  obtain ⟨result, hresult, hpass, hc⟩ :=
    field_passes hmerged hpass hc hforce.not_metadata hfield hv hne
  exact ⟨result, _, _, hresult, hpass, hc⟩

-- ---------------------------------------------------------------------------
-- Merged pieces
-- ---------------------------------------------------------------------------

variable {old : Option Json} {source members : Members} {result : Json}

theorem merged_type_passes {k : Kind} (hm : Merged old (.obj source) result)
    (hs : Keyed.Sorted source) (htype : Keyed.find? source "type" = some (.str k.name))
    (href : result.member? "$ref" = none) (hx : Passes corpus (steps + 1) scope result x path) :
    k.holds scope.draft x = true := by
  obtain ⟨members, rfl⟩ := hm.isObj
  obtain ⟨type, hfind, hmerged⟩ := hm.member?_same "type" hs htype (by decide)
  exact hx.type href (hmerged.leaf rfl ▸ hfind)

theorem merged_string_passes (hm : Merged old stringSchema result)
    (href : ∀ y, old = some y → ¬ Refers y []) (hx : Passes corpus (steps + 1) scope result x path) :
    ∃ s, x = .str s := by
  have htype : Keyed.find? [("type", Json.str "string")] "type" = some (.str Kind.string.name) := rfl
  exact holds_string.mp
    (merged_type_passes hm (List.pairwise_singleton _ _) htype (refers_merged hm rfl href) hx)

theorem merged_uuid_passes (hm : Merged old uuidSchema result)
    (href : ∀ y, old = some y → ¬ Refers y []) (hx : Passes corpus (steps + 1) scope result x path) :
    ∃ s, x = .str s ∧ IsUuid s := by
  rw [uuidSchema_eq] at hm
  have hsorted : Keyed.Sorted [("pattern", Json.str uuidPattern), ("type", .str "string")] :=
    Keyed.sorted_of_keys (rfl : _ = ["pattern", "type"]) (by decide)
  have htype : Keyed.find? [("pattern", Json.str uuidPattern), ("type", .str "string")] "type" =
      some (.str Kind.string.name) := rfl
  have href := refers_merged hm rfl href
  obtain ⟨s, rfl⟩ := holds_string.mp (merged_type_passes hm hsorted htype href hx)
  obtain ⟨members, rfl⟩ := hm.isObj
  obtain ⟨pattern, hfind, hmerged⟩ := hm.member?_same "pattern" hsorted rfl (by decide)
  have hfound := hx.pattern href (hmerged.leaf rfl ▸ hfind) Uuid.ofKeyword?_uuidPattern
  exact ⟨s, rfl, (Uuid.search_uuidPattern s).mp hfound⟩

theorem names_merged (hm : Merged old (.obj source) (.obj members))
    (hproperties : Keyed.find? source "properties" = none)
    (hpatterns : Keyed.find? source "patternProperties" = none) (h : Names members key) :
    ∃ own, old = some (.obj own) ∧ Names own key := by
  have hp : Keyed.find? members "properties" = _ := hm.member?_other hproperties
  have hpp : Keyed.find? members "patternProperties" = _ := hm.member?_other hpatterns
  rw [Names, hp, hpp] at h
  cases old with
  | none => simp at h
  | some y =>
    cases y with
    | obj own => exact ⟨own, rfl, h⟩
    | _ => simp [Json.member?] at h

theorem merged_span_passes (hm : Merged old spanSchema result)
    (href : ∀ y, old = some y → ¬ Refers y []) (hc : Compiles scope result)
    (hx : Passes corpus (steps + 2) scope result x path) :
    ∃ entries, x = .obj entries ∧
      ((∀ y, old = some y → ¬ Refers y ["additionalProperties"]) →
        ∀ e ∈ entries, (∀ own, old = some (.obj own) → ¬ Names own e.1) → ∃ s, e.2 = .str s) := by
  rw [spanSchema] at hm
  have hsorted : Keyed.Sorted [("additionalProperties", stringSchema), ("type", .str "object")] :=
    Keyed.sorted_of_keys (rfl : _ = ["additionalProperties", "type"]) (by decide)
  have htype : Keyed.find? [("additionalProperties", stringSchema), ("type", .str "object")] "type" =
      some (.str Kind.object.name) := rfl
  have href := refers_merged hm rfl href
  obtain ⟨entries, rfl⟩ := holds_object.mp (merged_type_passes hm hsorted htype href hx)
  refine ⟨entries, rfl, fun hadditional e he hnames => ?_⟩
  obtain ⟨additional, hfind, hmerged⟩ :=
    hm.member?_same "additionalProperties" hsorted rfl (by decide)
  obtain ⟨members, rfl⟩ := hm.isObj
  obtain ⟨additional, rfl⟩ := hmerged.isObj
  have hkey : ¬ Names members e.1 := fun h => by
    obtain ⟨own, hown, hnamed⟩ := names_merged hm rfl rfl h
    exact hnames own hown hnamed
  have hpass := hx.additional hc href hfind hkey he
  refine merged_string_passes hmerged (fun y hy hr => ?_) hpass
  obtain ⟨own, hown, hmember⟩ := Option.bind_eq_some_iff.mp hy
  exact hadditional own hown (refers_cons.mpr ⟨y, hmember, hr⟩)

-- ---------------------------------------------------------------------------
-- Accepted events
-- ---------------------------------------------------------------------------

theorem inForce_present (hs : BusinessSetup draft t v c owner root properties m)
    (hx : Passes c.corpus (steps + 2) c.scope (.obj root) (.obj event) path)
    (hmetadata : Keyed.find? event "metadata" = some (.obj metadata))
    (hforce : InForce t.schema field) (hfield : field ∈ requiredMetadata) :
    ∃ value, Keyed.find? metadata field = some value := by
  obtain ⟨hpass, hc⟩ := metadata_of_root hs hx hmetadata hforce.root
  have hmerged : Merged (ownMetadata t.schema) (metadataSchema t.name) m := by
    rw [hs.schema, hs.withMetadata.ownMetadata_eq]
    exact hs.withMetadata.merged
  obtain ⟨_, ⟨⟩, hall⟩ := metadata_passes hmerged hpass hc hforce.not_metadata
  exact hall field hfield

theorem not_refers_additional
    (h : ¬ Refers x (fieldPlace "span_ctx" ++ ["additionalProperties"])) :
    ∀ y, ownField (ownMetadata x) "span_ctx" = some y → ¬ Refers y ["additionalProperties"] :=
  fun y hy hr => h (refers_append.mpr ⟨y, ownField_eq ▸ hy, hr⟩)

/-- The metadata of an accepted business event. -/
theorem business_content (hcat : t.category = .business) (hv : standardValidator draft t = .ok v)
    (hx : v.validate (.obj event) = none)
    (hmetadata : Keyed.find? event "metadata" = some (.obj metadata)) :
    Content t.schema t.name metadata := by
  obtain ⟨c, owner, root, properties, m, hs⟩ := business_setup hcat hv
  rw [hs.validator, validate_eq_none, Conforms, hs.root] at hx
  obtain ⟨hpass, hcross, -⟩ := hx
  obtain ⟨htype, htime⟩ := metadataRejection_eq_none.mp hcross metadata hmetadata
  obtain ⟨k, hk⟩ := enoughSteps_pieces c.corpus (.obj event)
  rw [hk] at hpass
  constructor
  case eid =>
    intro hforce
    obtain ⟨value, hvalue⟩ := inForce_present hs hpass hmetadata hforce (by decide)
    obtain ⟨result, _, _, hmerged, hpass, -⟩ :=
      inForce_passes hs hpass hmetadata hforce rfl hvalue (by decide)
    obtain ⟨s, rfl, huuid⟩ := merged_uuid_passes hmerged hforce.not_field hpass
    exact ⟨s, hvalue, huuid⟩
  case occurredAt =>
    intro hforce
    obtain ⟨value, hvalue⟩ := inForce_present hs hpass hmetadata hforce (by decide)
    obtain ⟨result, _, _, hmerged, hpass, -⟩ :=
      inForce_passes hs hpass hmetadata hforce rfl hvalue (by decide)
    obtain ⟨s, rfl⟩ := merged_string_passes hmerged hforce.not_field hpass
    exact ⟨s, hvalue, htime s hvalue⟩
  case eventType => exact htype
  case span =>
    intro hforce x hvalue
    have hspan : Keyed.find? (metadataProperties t.name) "span_ctx" = some spanSchema := rfl
    obtain ⟨result, _, _, hmerged, hpass, hc⟩ :=
      inForce_passes hs hpass hmetadata hforce hspan hvalue (by decide)
    obtain ⟨entries, rfl, hentries⟩ := merged_span_passes hmerged hforce.not_field hc hpass
    refine ⟨entries, rfl, fun hadditional e he hnames => ?_⟩
    refine hentries (not_refers_additional hadditional) e he fun own hown hnamed => ?_
    exact hnames ⟨own, ownField_eq ▸ hown, hnamed⟩

-- ---------------------------------------------------------------------------
-- A key of the span context that the owner names
-- ---------------------------------------------------------------------------

theorem accepted_of_violations {effective : Json} (hcat : t.category.requiresMetadata = true)
    (hs : t.schema.Canonical) (hn : Schema.Nameless t.schema)
    (hc : (Schema.compile draft t.schema).isOk = true)
    (he : enrich t.category t.schema t.name = .ok effective)
    (hx : CompiledSchema.violations ⟨⟨anonymousBase, draft⟩, Corpus.anonymous effective⟩ x = some [])
    (hmetadata : EventCheck.metadataRejection t.name x = none)
    (hfields : Strategy.missingField? t = none) :
    ∃ v, standardValidator draft t = .ok v ∧ v.validate x = none := by
  obtain ⟨_, hc⟩ := isOk_iff.mp hc
  have hc' := compile_enriched hs hn hc he
  refine ⟨_, (standardValidator_ok hcat).mpr ⟨effective, _, he, hc', rfl⟩, ?_⟩
  rw [validate_eq_none, hfields]
  exact ⟨conforms_iff.mpr hx, hmetadata, rfl⟩

/-- Logins, whose owner names a key of the span context without saying more about it. -/
def login : EventType :=
  ⟨"login", .business, .obj [("properties", .obj [("metadata", .obj [("properties", .obj [
    ("span_ctx", .obj [("properties", .obj [("depth", .obj [])])])])])])], []⟩

def loginMetadata : Members :=
  [("eid", .str "0123abcd-0123-4567-89ab-0123456789AB"),
    ("occurred_at", .str "2024-02-29T12:00:00Z"), ("span_ctx", .obj [("depth", .ofNat 5)])]

def loggedIn : Members := [("metadata", .obj loginMetadata)]

theorem login_canonical : login.schema.Canonical := by
  simp only [login, Json.Canonical, Json.CanonicalMembers, Keyed.Sorted]
  decide

theorem login_compiles : (Schema.compile .draft7 login.schema).isOk = true := by
  decide +kernel

theorem login_effective : ∃ effective, enrich .business login.schema "login" = .ok effective ∧
    CompiledSchema.violations ⟨⟨anonymousBase, .draft7⟩, Corpus.anonymous effective⟩
      (.obj loggedIn) = some [] := by
  refine ⟨_, rfl, ?_⟩
  decide +kernel

theorem login_validator : ∃ v, standardValidator .draft7 login = .ok v ∧
    v.validate (.obj loggedIn) = none := by
  obtain ⟨effective, henrich, hviolations⟩ := login_effective
  exact accepted_of_violations rfl login_canonical (nameless_of_drafts (by decide)) login_compiles
    henrich hviolations rfl rfl

theorem login_content : ∃ v, standardValidator .draft7 login = .ok v ∧
    v.validate (.obj loggedIn) = none ∧ Content login.schema "login" loginMetadata := by
  obtain ⟨v, hv, hx⟩ := login_validator
  exact ⟨v, hv, hx, business_content rfl hv hx rfl⟩

/-- The span context of an accepted event need not hold strings only. -/
theorem login_span_unchecked : ¬ ∀ v, standardValidator .draft7 login = .ok v →
    v.validate (.obj loggedIn) = none →
    ∀ entries, Keyed.find? loginMetadata "span_ctx" = some (.obj entries) →
      ∀ e ∈ entries, ∃ s, e.2 = .str s := by
  intro h
  obtain ⟨v, hv, hx⟩ := login_validator
  obtain ⟨s, hs⟩ := h v hv hx [("depth", .ofNat 5)] rfl _ List.mem_cons_self
  cases hs

-- ---------------------------------------------------------------------------
-- A reference at a field of the metadata
-- ---------------------------------------------------------------------------

/-- Tickets, whose owner writes a reference where the broker describes the identifier. -/
def ticket : EventType :=
  ⟨"ticket", .business, .obj [("definitions", .obj [("any", .obj [])]),
    ("properties", .obj [("metadata", .obj [("properties", .obj [
      ("eid", .obj [("$ref", .str "#/definitions/any")])])])])], []⟩

def ticketMetadata : Members :=
  [("eid", .ofNat 5), ("occurred_at", .str "2024-02-29T12:00:00Z")]

def ticketSold : Members := [("metadata", .obj ticketMetadata)]

theorem ticket_canonical : ticket.schema.Canonical := by
  simp only [ticket, Json.Canonical, Json.CanonicalMembers, Keyed.Sorted]
  decide

theorem ticket_compiles : (Schema.compile .draft7 ticket.schema).isOk = true := by
  decide +kernel

theorem ticket_effective : ∃ effective, enrich .business ticket.schema "ticket" = .ok effective ∧
    CompiledSchema.violations ⟨⟨anonymousBase, .draft7⟩, Corpus.anonymous effective⟩
      (.obj ticketSold) = some [] := by
  refine ⟨_, rfl, ?_⟩
  decide +kernel

/-- Why content is only in force where no reference stands: the merge puts the pattern and the type
of the identifier beside the owner's `$ref`, where a schema is not read any further, and a number is
accepted for an identifier. This is a slip of the merge, not a freedom that owners are given. -/
theorem ticket_eid_unchecked : Refers ticket.schema (fieldPlace "eid") ∧
    ∃ v, standardValidator .draft7 ticket = .ok v ∧ v.validate (.obj ticketSold) = none ∧
      ¬ ∃ s, Keyed.find? ticketMetadata "eid" = some (.str s) := by
  obtain ⟨effective, henrich, hviolations⟩ := ticket_effective
  obtain ⟨v, hv, hx⟩ := accepted_of_violations rfl ticket_canonical
    (nameless_of_drafts (by decide)) ticket_compiles henrich hviolations rfl rfl
  refine ⟨⟨_, rfl⟩, v, hv, hx, ?_⟩
  rintro ⟨s, hs⟩
  cases hs

end EventAdmission
