import EventAdmission.Proofs.DataChange.Published
import EventAdmission.Proofs.Pipeline

/-!
# The gate for data changes

`dataChange_accepted_iff`: a data change is accepted exactly if it has the four
fields of the envelope and no others, the operation, the type and the metadata
are as the broker asks, and the data pass the owner's schema where it stands in
the envelope. Nothing that the owner writes opens or closes the envelope.
-/

namespace EventAdmission

open Evaluation Enrichment

variable {corpus : Corpus} {scope : Scope} {steps : Nat} {n : String} {owner head event : Members}
  {draft : Draft} {t : EventType} {v : EventValidator} {x : Json}

def Timed (metadata : Members) : Prop :=
  ∃ text, Keyed.find? metadata "occurred_at" = some (.str text) ∧
    (Timestamp.read text).isSome = true

/-- A data change as the broker asks for it, whatever its data are. -/
structure IsDataChange (n : String) (event : Members) : Prop where
  keys : ∀ key, (∃ value, Keyed.find? event key = some value) ↔ key ∈ dataChangeKeys
  operation : ∃ op ∈ dataOperations, Keyed.find? event "data_op" = some (.str op)
  type : ∃ text, Keyed.find? event "data_type" = some (.str text)
  metadata : ∃ metadata, Keyed.find? event "metadata" = some (.obj metadata) ∧
    WellFormed n metadata ∧ Timed metadata

theorem passes_field {key : String} {schema value : Json}
    (h : ∀ e ∈ event, ∃ s, Keyed.find? (fields n owner) e.1 = some s ∧
      Passes corpus steps scope s e.2 ([] ++ [.key e.1]))
    (hs : Keyed.find? (fields n owner) key = some schema)
    (hv : Keyed.find? event key = some value) :
    Passes corpus steps scope schema value [.key key] := by
  obtain ⟨s, hs', hpass⟩ := h _ (Keyed.mem_of_find? hv)
  obtain rfl := Option.some.inj (hs.symm.trans hs')
  exact hpass

theorem mem_dataChangeKeys {key : String} {schema : Json}
    (h : Keyed.find? (fields n owner) key = some schema) : key ∈ dataChangeKeys := by
  have hmem := Keyed.mem_of_find? h
  simp only [fields, List.mem_cons, Prod.mk.injEq, List.not_mem_nil, or_false] at hmem
  rcases hmem with ⟨rfl, -⟩ | ⟨rfl, -⟩ | ⟨rfl, -⟩ | ⟨rfl, -⟩ <;> decide

/-- What the schema of data changes asks of an object, its data left to the owner's schema. -/
theorem passes_dataChange (h : Head owner head) (hs : Keyed.Sorted event) :
    Passes corpus (steps + 4) scope (.obj (envelope n owner head)) (.obj event) [] ↔
      (∀ key, (∃ value, Keyed.find? event key = some value) ↔ key ∈ dataChangeKeys) ∧
      (∃ op ∈ dataOperations, Keyed.find? event "data_op" = some (.str op)) ∧
      (∃ text, Keyed.find? event "data_type" = some (.str text)) ∧
      (∃ metadata, Keyed.find? event "metadata" = some (.obj metadata) ∧ WellFormed n metadata) ∧
      ∃ data, Keyed.find? event "data" = some data ∧
        Passes corpus (steps + 3) scope (.obj (lowered owner)) data [.key "data"] := by
  have hop : Keyed.find? (fields n owner) "data_op" = some (enumSchema dataOperations) := rfl
  have htype : Keyed.find? (fields n owner) "data_type" = some stringSchema := rfl
  have hmetadata : Keyed.find? (fields n owner) "metadata" = some (metadataSchema n) := rfl
  have hdata : Keyed.find? (fields n owner) "data" = some (.obj (lowered owner)) := rfl
  rw [passes_envelope h]
  constructor
  · rintro ⟨_, ⟨⟩, hrequired, hfields⟩
    obtain ⟨op, hopv⟩ := hrequired "data_op" (by decide)
    obtain ⟨type, htypev⟩ := hrequired "data_type" (by decide)
    obtain ⟨metadata, hmetadatav⟩ := hrequired "metadata" (by decide)
    obtain ⟨data, hdatav⟩ := hrequired "data" (by decide)
    obtain ⟨name, hname, rfl⟩ := passes_enumSchema.mp (passes_field hfields hop hopv)
    obtain ⟨text, rfl⟩ := passes_stringSchema.mp (passes_field hfields htype htypev)
    obtain ⟨members, rfl, hwell⟩ :=
      passes_metadataSchema_iff.mp (passes_field hfields hmetadata hmetadatav)
    refine ⟨fun key => ⟨?_, hrequired key⟩, ⟨name, hname, hopv⟩, ⟨text, htypev⟩,
      ⟨members, hmetadatav, hwell⟩, data, hdatav, passes_field hfields hdata hdatav⟩
    rintro ⟨value, hvalue⟩
    obtain ⟨s, hs, -⟩ := hfields _ (Keyed.mem_of_find? hvalue)
    exact mem_dataChangeKeys hs
  · rintro ⟨hkeys, ⟨op, hopmem, hopv⟩, ⟨text, htypev⟩, ⟨metadata, hmetadatav, hwell⟩, data, hdatav,
      hpass⟩
    refine ⟨event, rfl, fun name hname => (hkeys name).mpr hname, ?_⟩
    rintro ⟨key, value⟩ he
    have hvalue := Keyed.find?_of_mem hs he
    have hkey := (hkeys key).mp ⟨value, hvalue⟩
    simp only [dataChangeKeys, List.mem_cons, List.not_mem_nil, or_false] at hkey
    rcases hkey with rfl | rfl | rfl | rfl
    · obtain rfl := Option.some.inj (hmetadatav.symm.trans hvalue)
      exact ⟨_, hmetadata, passes_metadataSchema_iff.mpr ⟨metadata, rfl, hwell⟩⟩
    · obtain rfl := Option.some.inj (hopv.symm.trans hvalue)
      exact ⟨_, hop, passes_enumSchema.mpr ⟨op, hopmem, rfl⟩⟩
    · obtain rfl := Option.some.inj (htypev.symm.trans hvalue)
      exact ⟨_, htype, passes_stringSchema.mpr ⟨text, rfl⟩⟩
    · obtain rfl := Option.some.inj (hdatav.symm.trans hvalue)
      exact ⟨_, hdata, hpass⟩

theorem metadataRejection_dataChange {metadata : Members}
    (hmetadata : Keyed.find? event "metadata" = some (.obj metadata))
    (hwell : WellFormed n metadata) :
    EventCheck.metadataRejection n (.obj event) = none ↔ Timed metadata := by
  obtain ⟨time, htime⟩ := hwell.occurredAt
  rw [metadataRejection_eq_none]
  constructor
  · intro h
    exact ⟨time, htime, (h metadata hmetadata).2 time htime⟩
  · rintro ⟨text, htext, hread⟩ metadata' hmetadata'
    obtain rfl := Json.obj.inj (Option.some.inj (hmetadata.symm.trans hmetadata'))
    refine ⟨hwell.eventType, fun text' htext' => ?_⟩
    obtain rfl := Json.str.inj (Option.some.inj (htext.symm.trans htext'))
    exact hread

/-- The data of an event pass the owner's schema where it stands in the envelope; the root of the
envelope has taken one step. -/
def DataPass (c : CompiledSchema) (dataSchema x data : Json) : Prop :=
  faultsWithin c.corpus (enoughSteps c.corpus x - 1) .faults c.scope dataSchema data
    [.key "data"] = some []

instance {c : CompiledSchema} {dataSchema x data : Json} :
    Decidable (DataPass c dataSchema x data) :=
  decidable_of_iff ((faultsWithin c.corpus (enoughSteps c.corpus x - 1) .faults c.scope dataSchema
    data [.key "data"]).map List.isEmpty = some true) (by simp [DataPass])

/-- The schema has nothing against a data change whose data pass. -/
theorem conforms_dataChange {c : CompiledSchema} {data : Json} (h : Head owner head)
    (hroot : c.corpus.root = .obj (envelope n owner head)) (hs : Keyed.Sorted event)
    (hevent : IsDataChange n event) (hdata : Keyed.find? event "data" = some data)
    (hpass : DataPass c (.obj (lowered owner)) (.obj event) data) : Conforms c (.obj event) := by
  obtain ⟨k, hk⟩ := enoughSteps_pieces c.corpus (.obj event)
  obtain ⟨metadata, hmetadata, hwell, -⟩ := hevent.metadata
  rw [DataPass, hk] at hpass
  rw [Conforms, hroot, hk]
  exact (passes_dataChange h hs).mpr ⟨hevent.keys, hevent.operation, hevent.type,
    ⟨metadata, hmetadata, hwell⟩, data, hdata, hpass⟩

theorem dataChange_accepted_iff (hcat : t.category = .dataChange)
    (hfields : Strategy.missingField? t = none) (hv : standardValidator draft t = .ok v) :
    ∃ effective c dataSchema, enrich .dataChange t.schema t.name = .ok effective ∧
      Schema.compile draft effective = .ok c ∧
      effective.at? [.key "properties", .key "data"] = some dataSchema ∧
      ∀ x : Json, x.Canonical → (v.validate x = none ↔
        ∃ event data, x = .obj event ∧ IsDataChange t.name event ∧
          Keyed.find? event "data" = some data ∧ DataPass c dataSchema x data) := by
  obtain ⟨effective, c, he, hc, rfl⟩ := (standardValidator_ok (by rw [hcat]; rfl)).mp hv
  rw [hcat] at he
  obtain ⟨owner, head, -, hhead, rfl⟩ := enrich_dataChange_ok he
  refine ⟨_, c, .obj (lowered owner), he, hc, envelope_data hhead, fun x hx => ?_⟩
  obtain ⟨base, named, -, -, -, -, rfl⟩ := Schema.compile_ok.mp hc
  rw [validate_eq_none, hfields, Option.map_none]
  constructor
  · rintro ⟨hpass, hmeta, -⟩
    obtain ⟨k, hk⟩ := enoughSteps_pieces ⟨.obj (envelope t.name owner head), named⟩ x
    rw [Conforms, hk] at hpass
    obtain ⟨event, rfl, -⟩ := (passes_envelope hhead).mp hpass
    obtain ⟨hkeys, hop, htype, ⟨metadata, hmetadata, hwell⟩, data, hdata, hdatapass⟩ :=
      (passes_dataChange hhead hx.1).mp hpass
    refine ⟨event, data, rfl, ⟨hkeys, hop, htype, metadata, hmetadata, hwell, ?_⟩, hdata, ?_⟩
    · exact (metadataRejection_dataChange hmetadata hwell).mp hmeta
    · rw [DataPass, hk]
      exact hdatapass
  · rintro ⟨event, data, rfl, hevent, hdata, hpass⟩
    obtain ⟨metadata, hmetadata, hwell, htimed⟩ := hevent.metadata
    exact ⟨conforms_dataChange hhead rfl hx.1 hevent hdata hpass,
      (metadataRejection_dataChange hmetadata hwell).mpr htimed, rfl⟩

-- ---------------------------------------------------------------------------
-- Accepted and rejected orders
-- ---------------------------------------------------------------------------

/-- Orders of tea, whose lines are defined once and referred to. -/
def teaOrder : EventType :=
  ⟨"order", .dataChange, .obj [
    ("definitions", .obj [("line", .obj [
      ("properties", .obj [("amount", .obj [("minimum", .ofNat 1), ("type", .str "integer")]),
        ("item", .obj [("type", .str "string")])]),
      ("required", .strings ["amount", "item"])])]),
    ("properties", .obj [("id", .obj [("type", .str "string")]),
      ("lines", .obj [("items", .obj [("$ref", .str "#/definitions/line")]),
        ("minItems", .ofNat 1)])]),
    ("required", .strings ["id", "lines"]), ("type", .str "object")], ["id", "lines"]⟩

def teaLine (amount : Nat) : Json := .obj [("amount", .ofNat amount), ("item", .str "tea")]

def teaOrdered (amount : Nat) : Json :=
  .obj [("id", .str "o-17"), ("lines", .arr [teaLine amount])]

def orderMetadata : Members :=
  [("eid", .str "0123abcd-0123-4567-89ab-0123456789AB"), ("occurred_at", .str "2024-02-29T12:00:00Z")]

def orderCreated (amount : Nat) : Members :=
  [("data", teaOrdered amount), ("data_op", .str "C"), ("data_type", .str "order"),
    ("metadata", .obj orderMetadata)]

theorem orderMetadata_wellFormed : WellFormed n orderMetadata := by
  refine ⟨⟨_, rfl, by decide +kernel⟩, ⟨_, rfl⟩, ?_, ?_, ?_, ?_⟩
  all_goals simp [Keyed.find?_cons, orderMetadata]

theorem orderCreated_isDataChange {amount : Nat} : IsDataChange "order" (orderCreated amount) where
  keys key := by
    constructor
    · rintro ⟨value, h⟩
      have hmem := Keyed.mem_of_find? h
      simp only [orderCreated, List.mem_cons, Prod.mk.injEq, List.not_mem_nil, or_false] at hmem
      rcases hmem with ⟨rfl, -⟩ | ⟨rfl, -⟩ | ⟨rfl, -⟩ | ⟨rfl, -⟩ <;> decide
    · intro h
      simp only [dataChangeKeys, List.mem_cons, List.not_mem_nil, or_false] at h
      rcases h with rfl | rfl | rfl | rfl <;> exact ⟨_, rfl⟩
  operation := ⟨"C", by decide, rfl⟩
  type := ⟨_, rfl⟩
  metadata := ⟨orderMetadata, rfl, orderMetadata_wellFormed, _, rfl, by decide⟩

theorem teaOrdered_canonical {amount : Nat} : (teaOrdered amount).Canonical := by
  have hline : Keyed.Sorted [("amount", Json.ofNat amount), ("item", .str "tea")] :=
    Keyed.sorted_of_keys (rfl : _ = ["amount", "item"]) (by decide)
  have hdata : Keyed.Sorted [("id", Json.str "o-17"), ("lines", .arr [teaLine amount])] :=
    Keyed.sorted_of_keys (rfl : _ = ["id", "lines"]) (by decide)
  exact ⟨hdata, trivial, ⟨⟨hline, trivial, trivial, trivial⟩, trivial⟩, trivial⟩

theorem orderCreated_canonical {amount : Nat} : (Json.obj (orderCreated amount)).Canonical := by
  have hevent : Keyed.Sorted (orderCreated amount) :=
    Keyed.sorted_of_keys (rfl : _ = ["data", "data_op", "data_type", "metadata"]) (by decide)
  have hmetadata : Keyed.Sorted orderMetadata :=
    Keyed.sorted_of_keys (rfl : _ = ["eid", "occurred_at"]) (by decide)
  exact ⟨hevent, teaOrdered_canonical, trivial, trivial, ⟨hmetadata, trivial, trivial, trivial⟩,
    trivial⟩

theorem teaOrder_compiles : (Schema.compile .draft7 teaOrder.schema).isOk = true := by
  decide +kernel

theorem teaOrder_declared : Strategy.missingField? teaOrder = none := by
  decide +kernel

theorem teaOrder_data : ∃ effective dataSchema,
    enrich .dataChange teaOrder.schema "order" = .ok effective ∧
      effective.at? [.key "properties", .key "data"] = some dataSchema ∧
      DataPass ⟨⟨anonymousBase, .draft7⟩, Corpus.anonymous effective⟩ dataSchema
        (.obj (orderCreated 2)) (teaOrdered 2) ∧
      ¬ DataPass ⟨⟨anonymousBase, .draft7⟩, Corpus.anonymous effective⟩ dataSchema
        (.obj (orderCreated 0)) (teaOrdered 0) := by
  refine ⟨_, _, rfl, rfl, ?_, ?_⟩
  · decide +kernel
  · decide +kernel

theorem teaOrder_compiled {effective : Json}
    (h : enrich .dataChange teaOrder.schema "order" = .ok effective) :
    Schema.compile .draft7 effective =
      .ok ⟨⟨anonymousBase, .draft7⟩, Corpus.anonymous effective⟩ := by
  obtain ⟨_, howner⟩ := isOk_iff.mp teaOrder_compiles
  exact compile_dataChange (nameless_of_drafts (by decide)) howner h

/-- An order of two is accepted, and an order of none is rejected for its data alone. -/
theorem teaOrder_accepts : ∃ v, standardValidator .draft7 teaOrder = .ok v ∧
    v.validate (.obj (orderCreated 2)) = none ∧ v.validate (.obj (orderCreated 0)) ≠ none := by
  obtain ⟨effective, dataSchema, henrich, hdata, hpass, hfails⟩ := teaOrder_data
  have hc := teaOrder_compiled henrich
  have hv := (standardValidator_ok (t := teaOrder) rfl).mpr ⟨_, _, henrich, hc, rfl⟩
  obtain ⟨_, _, _, henrich', hc', hdata', hiff⟩ := dataChange_accepted_iff rfl teaOrder_declared hv
  obtain rfl := Except.ok.inj (henrich.symm.trans henrich')
  obtain rfl := Except.ok.inj (hc.symm.trans hc')
  obtain rfl := Option.some.inj (hdata.symm.trans hdata')
  refine ⟨_, hv, ?_, ?_⟩
  · exact (hiff _ orderCreated_canonical).mpr
      ⟨orderCreated 2, teaOrdered 2, rfl, orderCreated_isDataChange, rfl, hpass⟩
  · intro hnone
    obtain ⟨_, _, ⟨⟩, -, ⟨⟩, hpasses⟩ := (hiff _ orderCreated_canonical).mp hnone
    exact hfails hpasses

end EventAdmission
