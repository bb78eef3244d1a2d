import EventAdmission.Proofs.Business.Admissible
import EventAdmission.Proofs.Business.Sound
import EventAdmission.Proofs.Pipeline.Setup
import EventAdmission.Proofs.Schema.Met

/-!
# Enrichment never breaks compilation

Compilation has two parts, and a merge preserves both: the published schemas
admit the result (`Piece.conforms`), and its keywords make sense
(`Piece.sound`). With the envelope of a data change, which compiles by
`compile_dataChange`, this holds in every category. An event type without a
validator because of compilation thus has a schema that does not compile itself.
-/

namespace EventAdmission

open Enrichment Schema Evaluation

variable {draft : Draft} {owner root : Members} {category : Category} {n : String}
  {s effective value : Json} {c : CompiledSchema}

-- ---------------------------------------------------------------------------
-- Compilation
-- ---------------------------------------------------------------------------

theorem Enrichment.Piece.compile (h : Piece none value) (hs : value.Canonical) (hv : Nameless value)
    (hm : Merged (some (.obj owner)) value (.obj root)) (ho : (Json.obj owner).Canonical)
    (hn : Nameless (.obj owner)) (hc : Schema.compile draft (.obj owner) = .ok c) :
    Schema.compile draft (.obj root) =
      .ok ⟨⟨anonymousBase, draft⟩, Corpus.anonymous (.obj root)⟩ := by
  obtain ⟨hpublished, hown, rfl⟩ := (compile_nameless hn).mp hc
  have hadmissible : Admissible draft (.obj root) := by
    refine h.conforms hs hm fun x hx => ?_
    cases hx
    exact ⟨ho, publishedFault_iff.mp hpublished⟩
  have hcompiles : Compiles ⟨anonymousBase, draft⟩ (.obj root) := by
    refine h.sound hs hv hm fun x hx => ?_
    cases hx
    exact ⟨ho, hn, hown⟩
  have hnameless : Nameless (.obj root) := by
    refine hm.nameless hs h.listsNames hv fun x hx => ?_
    cases hx
    exact ⟨ho, hn⟩
  exact (compile_nameless hnameless).mpr ⟨publishedFault_iff.mpr hadmissible, hcompiles, rfl⟩

/-- What has been enriched compiles to itself, as there are no identifiers. -/
theorem compile_enriched (hs : s.Canonical) (hn : Nameless s) (hc : Schema.compile draft s = .ok c)
    (he : enrich category s n = .ok effective) :
    Schema.compile draft effective =
      .ok ⟨⟨anonymousBase, draft⟩, Corpus.anonymous effective⟩ := by
  cases category with
  | undefined =>
    obtain rfl := Except.ok.inj he
    obtain ⟨-, -, rfl⟩ := (compile_nameless hn).mp hc
    exact hc
  | business =>
    obtain ⟨owner, root, rfl, hadd, rfl⟩ := enrich_business_ok he
    exact piece_businessEnvelope.compile canonical_businessEnvelope
      nameless_businessEnvelope (merged_envelope hadd) hs hn hc
  | dataChange => exact compile_dataChange hn hc he

theorem compile_enrich (hs : s.Canonical) (hn : Nameless s) (hc : Schema.compile draft s = .ok c)
    (he : enrich category s n = .ok effective) : ∃ c', Schema.compile draft effective = .ok c' :=
  ⟨_, compile_enriched hs hn hc he⟩

-- ---------------------------------------------------------------------------
-- Setups
-- ---------------------------------------------------------------------------

/-- Whatever the draft, the category and the name, an owner's schema that compiles and can be
enriched compiles afterwards too. So where a validator cannot be set up for want of a compiled
schema, there is a strategy in the pipeline whose draft the owner's own schema does not compile
under. -/
theorem enrich_compiles (hs : s.Canonical) (hn : Nameless s) :
    (∀ draft category n c effective, Schema.compile draft s = .ok c →
      enrich category s n = .ok effective → ∃ c', Schema.compile draft effective = .ok c') ∧
    ∀ r settings v t name fault, (Validation.new r settings).result = .ok v → t.schema = s →
      (v.forType t).result = .error (.schema (.compilation name fault)) →
      ∃ strategy ∈ settings.pipeline t.category, ∃ draft fault',
        r.get strategy = .ok (.schemaConformance draft) ∧
          Schema.compile draft s = .error fault' := by
  refine ⟨fun draft category n c effective => compile_enrich hs hn, ?_⟩
  rintro r settings v t name fault hv rfl herror
  have hknown := new_isOk.mp (isOk_iff.mpr ⟨v, hv⟩)
  cases new_ok hv
  obtain ⟨before, strategy, after, hplace, -, draft, hget, hfails⟩ :=
    (materializeAll_error (hknown t.category)).mp (forType_error.mp herror)
  have hmem : strategy ∈ settings.pipeline t.category := by
    rw [hplace]
    exact List.mem_append_right _ (List.mem_cons_self ..)
  cases hfails with
  | compilation he hfault =>
    refine ⟨strategy, hmem, draft, ?_⟩
    cases hc : Schema.compile draft t.schema with
    | error fault' => exact ⟨fault', hget, rfl⟩
    | ok c =>
      obtain ⟨c', hc'⟩ := compile_enrich hs hn hc he
      cases hfault.symm.trans hc'

/-- A limit that is exclusive by a flag, as in draft 4. The owner has a schema of its own for the
metadata; the broker's keywords replace some of it. -/
def meter : EventType :=
  ⟨"meter", .business, .obj [("exclusiveMinimum", .bool true), ("minimum", Json.ofNat 0),
    ("properties", .obj [("metadata", .obj [("properties", .obj [("eid", .obj [
      ("maxLength", Json.ofNat 36), ("type", .arr [.str "null", .str "string"])])]),
      ("required", .strings ["flow_id", "eid"])])]), ("required", .strings ["unit"])], []⟩

def meterChecks : Registry := Registry.ofCalls [("schema", .schemaConformance .draft7)]

def meterSettings : Settings := ⟨.draft7, ⟨[], ["schema"], []⟩⟩

theorem meter_canonical : meter.schema.Canonical := by
  simp only [meter, Json.strings, Json.ofNat, List.map, Json.Canonical, Json.CanonicalMembers,
    Json.CanonicalItems, Keyed.Sorted]
  decide

theorem meter_nameless : Nameless meter.schema :=
  nameless_of_drafts (by decide)

theorem meter_draft4 : (Schema.compile .draft4 meter.schema).isOk = true := by
  decide +kernel

theorem meter_limit : ((enrich .business meter.schema "meter").toOption.bind
    (·.member? "exclusiveMinimum")) = some (.bool true) := by
  decide

theorem meter_draft7 (he : enrich .business meter.schema "meter" = .ok effective) :
    ∃ fault, Schema.compile .draft7 effective = .error fault := by
  have hlimit := meter_limit
  rw [he] at hlimit
  cases hc : Schema.compile .draft7 effective with
  | error fault => exact ⟨fault, rfl⟩
  | ok c =>
    obtain ⟨base, named, -, -, hpublished, -, -⟩ := compile_ok.mp hc
    cases effective with
    | obj members =>
      have hpermitted := (admissible_obj.mp (publishedFault_iff.mp hpublished)).1 _ _ hlimit
      cases hpermitted.kind (k := .number) (by decide)
    | _ => cases hlimit

/-- In draft 4 the schema compiles, and so does what the broker makes of it. In draft 7 there is no
validator, because the schema of the owner does not compile. -/
theorem meter_compiles : ∃ c effective c' v fault fault',
    Schema.compile .draft4 meter.schema = .ok c ∧
      enrich .business meter.schema "meter" = .ok effective ∧
      Schema.compile .draft4 effective = .ok c' ∧
      (Validation.new meterChecks meterSettings).result = .ok v ∧
      (v.forType meter).result = .error (.schema (.compilation "meter" fault)) ∧
      Schema.compile .draft7 meter.schema = .error fault' := by
  obtain ⟨c, hc⟩ := isOk_iff.mp meter_draft4
  obtain ⟨effective, heffective, -⟩ := Option.bind_eq_some_iff.mp meter_limit
  have he := toOption_eq_some.mp heffective
  obtain ⟨fault, hfault⟩ := meter_draft7 he
  obtain ⟨hcompiles, hsetup⟩ := enrich_compiles meter_canonical meter_nameless
  obtain ⟨c', hc'⟩ := hcompiles .draft4 .business "meter" c effective hc he
  have herror : (Validation.forType ⟨meterChecks, meterSettings⟩ meter).result =
      .error (.schema (.compilation "meter" fault)) := by
    refine forType_error.mpr ((materializeAll_error (by decide)).mpr ?_)
    exact ⟨[], "schema", [], rfl, List.forall_mem_nil _, .draft7, rfl, .compilation he hfault⟩
  obtain ⟨strategy, hstrategy, draft, fault', hget, hown⟩ :=
    hsetup meterChecks meterSettings _ meter "meter" fault rfl rfl herror
  obtain rfl := List.mem_singleton.mp hstrategy
  cases hget
  exact ⟨c, effective, c', _, fault, fault', hc, he, hc', rfl, herror, hown⟩

end EventAdmission
