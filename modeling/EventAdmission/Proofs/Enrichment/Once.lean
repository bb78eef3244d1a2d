import EventAdmission.Proofs.DataChange.Envelope
import EventAdmission.Proofs.Json.Values
import EventAdmission.Proofs.Metadata.Guard

/-!
# Enrichment after enrichment

A schema that has been enriched is to be recognised, so that it is not enriched
again. Recognition looks for five pieces that the merge has put there. Four of
them are always found. The fifth is the schema of the values of the span context,
which the merge leaves beside whatever the owner says there. `enrich_once` gives
the exact condition, for every chain of enrichments.
-/

namespace EventAdmission.Enrichment

variable {schema metadata value source result d e : Json} {old : Option Json} {n : String}
  {owner root properties members : Members} {c : Category} {names : List String}
  {items : List Json}

-- ---------------------------------------------------------------------------
-- Merged places
-- ---------------------------------------------------------------------------

theorem Merged.at? (place : List String) (h : Merged old source result) (hs : source.Canonical)
    (hv : source.at? (place.map .key) = some value) (hne : "required" ∉ place) :
    ∃ r, result.at? (place.map .key) = some r ∧
      Merged (old.bind (·.at? (place.map .key))) value r := by
  induction place generalizing old source result with
  | nil =>
    cases hv
    exact ⟨result, rfl, by cases old <;> exact h⟩
  | cons key place ih =>
    obtain ⟨hkey, hplace⟩ := not_or.mp (mt List.mem_cons.mpr hne)
    simp only [List.map_cons, at?_key, Option.bind_eq_some_iff] at hv ⊢
    obtain ⟨inner, hinner, hv⟩ := hv
    cases source with
    | obj members =>
      obtain ⟨r, hr, hmerged⟩ := h.member?_same key hs.1 hinner (Ne.symm hkey)
      obtain ⟨r', hr', hmerged⟩ := ih hmerged (Json.canonical_of_find? hs.2 hinner) hv hplace
      exact ⟨r', ⟨r, hr, hr'⟩, by rwa [Option.bind_assoc] at hmerged⟩
    | _ => cases hinner

theorem merged_stringSchema (h : Merged old stringSchema result) :
    result = stringSchema ↔
      ∀ x, old = some x → x = .obj [] ∨ ∃ type, x = .obj [("type", type)] := by
  rw [stringSchema_eq] at h ⊢
  obtain ⟨rfl, rfl⟩ | ⟨members, keyword, merged, rfl, rfl, hm⟩ := h.obj
  · simp
  · have hmerged : merged = Keyed.insert members "type" (.str "string") := by
      rw [mergeMembers_cons, mergeMember, if_neg (by decide)] at hm
      cases htype : Keyed.find? members "type" <;>
        simpa [htype, mergeMembers, deepMerge, bind, Except.bind, Functor.map, Except.map, eq_comm]
          using hm
    subst hmerged
    simp only [Option.some.injEq, forall_eq', Json.obj.injEq]
    exact Keyed.insert_eq_singleton

-- ---------------------------------------------------------------------------
-- Recognition
-- ---------------------------------------------------------------------------

theorem requiresAll_iff :
    requiresAll (some (.arr items)) names = true ↔ ∀ name ∈ names, .str name ∈ items := by
  simp [requiresAll, str?_eq_some]

theorem canonical_metadataSchema : (metadataSchema n).Canonical := by
  have hstring : stringSchema.Canonical := Json.canonical_ofMembers (by simp [Json.Canonical])
  have huuid : uuidSchema.Canonical := Json.canonical_ofMembers (by simp [Json.Canonical])
  have henum : (enumSchema [n]).Canonical :=
    Json.canonical_ofMembers (by simp [Json.Canonical, Json.canonical_strings])
  have hparents : (Json.ofMembers [("type", .str "array"), ("items", uuidSchema)]).Canonical :=
    Json.canonical_ofMembers (by simp [Json.Canonical, huuid])
  have hspan : (Json.ofMembers [("type", .str "object"),
      ("additionalProperties", stringSchema)]).Canonical :=
    Json.canonical_ofMembers (by simp [Json.Canonical, hstring])
  have hproperties : (Json.obj (metadataProperties n)).Canonical := by
    refine ⟨sorted_metadataProperties, Json.canonicalMembers_iff.mpr ?_⟩
    simp [metadataProperties, hstring, huuid, henum, hparents, hspan]
  refine Json.canonical_ofMembers ?_
  simpa [Json.Canonical, Json.canonical_strings] using hproperties

theorem metadataSchema_at? {field keyword : String} {piece : Json}
    (hf : Keyed.find? (metadataProperties n) field = some piece)
    (hv : piece.member? keyword = some value) :
    (metadataSchema n).at? (["properties", field, keyword].map .key) = some value := by
  have hproperties : (metadataSchema n).member? "properties" = some (.obj (metadataProperties n)) :=
    metadataSchema_eq ▸ rfl
  have hfield : (Json.obj (metadataProperties n)).member? field = some piece := hf
  simp only [List.map_cons, List.map_nil, at?_key, at?_nil, hproperties, hfield, hv,
    Option.bind_some]

def spanValues : List String := ["properties", "span_ctx", "additionalProperties"]

/-- Merged metadata are recognised by the schema of the values of the span context: the other
pieces are all there. -/
theorem isEnriched_iff (hmeta : schema.at? (metadataPlace.map .key) = some metadata)
    (hmerged : Merged old (metadataSchema n) metadata)
    (hrequired : requiresAll (schema.member? "required") ["metadata"] = true) :
    isEnriched schema = true ↔ metadata.at? (spanValues.map .key) = some stringSchema := by
  have hpattern : (metadataSchema n).at? (["properties", "eid", "pattern"].map .key) =
      some (.str uuidPattern) := metadataSchema_at? rfl rfl
  have henum : (metadataSchema n).at? (["properties", "event_type", "enum"].map .key) =
      some (.arr [.str n]) := metadataSchema_at? rfl (enumSchema_eq ▸ rfl)
  have hspan : (metadataSchema n).at? (spanValues.map .key) = some stringSchema :=
    metadataSchema_at? rfl rfl
  obtain ⟨pattern, hpattern, heid⟩ := hmerged.at? _ canonical_metadataSchema hpattern (by decide)
  obtain ⟨enum, henum, htype⟩ := hmerged.at? _ canonical_metadataSchema henum (by decide)
  obtain ⟨values, hvalues, -⟩ := hmerged.at? _ canonical_metadataSchema hspan (by decide)
  obtain ⟨items, hitems, hmem⟩ :=
    (merged_metadata hmerged).required sorted_metadataKeywords rfl
  obtain rfl := heid.leaf rfl
  obtain rfl := htype.leaf rfl
  simp only [metadataPlace, spanValues, List.map_cons, List.map_nil] at *
  simp [isEnriched, hmeta, hpattern, henum, hvalues, hitems, hrequired, requiresAll_iff.mpr hmem,
    isSingleName, Json.str?]

/-- The owner says nothing of the values of the span context but what their type is. -/
def PlainSpan (schema : Json) : Prop :=
  ∀ x, schema.at? ((metadataPlace ++ spanValues).map .key) = some x →
    x = .obj [] ∨ ∃ type, x = .obj [("type", type)]

theorem business_metadata (h : enrich .business d n = .ok e) :
    ∃ metadata, e.at? (metadataPlace.map .key) = some metadata ∧
      Merged (d.at? (metadataPlace.map .key)) (metadataSchema n) metadata ∧
      requiresAll (e.member? "required") ["metadata"] = true := by
  obtain ⟨owner, root, rfl, hadd, rfl⟩ := enrich_business_ok h
  obtain ⟨properties, metadata, hw⟩ := addMetadata_ok hadd
  have hmerged : Merged (ownMetadata (.obj owner)) (metadataSchema n) metadata :=
    hw.ownMetadata_eq ▸ hw.merged
  refine ⟨metadata, ?_, hmerged, ?_⟩
  · have hproperties : (Json.obj root).member? "properties" = _ := hw.find?_properties
    have hself : (Json.obj (Keyed.insert properties "metadata" metadata)).member? "metadata" =
        some metadata := Keyed.find?_insert_self
    simp only [metadataPlace, List.map_cons, List.map_nil, at?_key, at?_nil, hproperties, hself,
      Option.bind_some]
  · obtain ⟨items, hitems, hmem⟩ := hw.find?_required
    have hmember : (Json.obj root).member? "required" = some (.arr items) := hitems
    rw [hmember, requiresAll_iff]
    simpa using hmem

theorem business_span (h : enrich .business d n = .ok e) :
    ∃ result, e.at? ((metadataPlace ++ spanValues).map .key) = some result ∧
      Merged (d.at? ((metadataPlace ++ spanValues).map .key)) stringSchema result ∧
      (isEnriched e = true ↔ result = stringSchema) := by
  obtain ⟨metadata, hmeta, hmerged, hrequired⟩ := business_metadata h
  obtain ⟨result, hresult, hspan⟩ :=
    hmerged.at? spanValues canonical_metadataSchema (metadataSchema_at? rfl rfl) (by decide)
  rw [List.map_append, at?_append, at?_append, hmeta]
  refine ⟨result, hresult, hspan, ?_⟩
  rw [isEnriched_iff hmeta hmerged hrequired, hresult, Option.some.injEq]

theorem isEnriched_business (h : enrich .business d n = .ok e) :
    isEnriched e = true ↔ PlainSpan d := by
  obtain ⟨result, -, hmerged, hiff⟩ := business_span h
  rw [hiff, merged_stringSchema hmerged, PlainSpan]

theorem merged_plain (h : Merged old stringSchema result)
    (hplain : result = .obj [] ∨ ∃ type, result = .obj [("type", type)]) :
    result = stringSchema := by
  rw [stringSchema_eq] at h
  obtain ⟨type, htype, hmerged⟩ := h.member?_same "type" (List.pairwise_singleton _ _) rfl (by decide)
  obtain rfl := hmerged.leaf rfl
  obtain rfl | ⟨type, rfl⟩ := hplain
  · cases htype
  · cases htype
    rfl

theorem plainSpan_business (h : enrich .business d n = .ok e) : PlainSpan e ↔ PlainSpan d := by
  rw [← isEnriched_business h]
  obtain ⟨result, hresult, hmerged, hiff⟩ := business_span h
  rw [hiff, PlainSpan, hresult]
  constructor
  · intro hplain
    exact merged_plain hmerged (hplain result rfl)
  · rintro rfl x ⟨⟩
    exact .inr ⟨_, stringSchema_eq⟩

theorem dataChange_metadata (h : enrich .dataChange d n = .ok e) :
    e.at? (metadataPlace.map .key) = some (metadataSchema n) ∧
      requiresAll (e.member? "required") ["metadata"] = true := by
  obtain ⟨owner, head, rfl, hhead, rfl⟩ := enrich_dataChange_ok h
  have hproperties : (Json.obj (envelope n owner head)).member? "properties" =
      some (.obj (fields n owner)) := envelope_find? hhead (by decide)
  have hmetadata : (Json.obj (fields n owner)).member? "metadata" = some (metadataSchema n) := rfl
  have hrequired : (Json.obj (envelope n owner head)).member? "required" =
      some (.strings dataChangeKeys) := envelope_find? hhead (by decide)
  constructor
  · simp only [metadataPlace, List.map_cons, List.map_nil, at?_key, at?_nil, hproperties,
      hmetadata, Option.bind_some]
  · rw [hrequired]
    rfl

theorem isEnriched_dataChange (h : enrich .dataChange d n = .ok e) : isEnriched e = true := by
  obtain ⟨hmeta, hrequired⟩ := dataChange_metadata h
  have hmerged : Merged none (metadataSchema n) (metadataSchema n) := rfl
  rw [isEnriched_iff hmeta hmerged hrequired]
  exact metadataSchema_at? rfl rfl

-- ---------------------------------------------------------------------------
-- Chains
-- ---------------------------------------------------------------------------

def next (schema : Json) (step : Category × String) : Json :=
  match enrich step.1 schema step.2 with
  | .ok effective => effective
  | .error _ => schema

/-- The results of some steps, each applied to the result of the last one that succeeded. -/
def chain (schema : Json) : List (Category × String) → List (Except EnrichmentError Json)
  | [] => []
  | step :: steps => enrich step.1 schema step.2 :: chain (next schema step) steps

def chainEnd (schema : Json) (steps : List (Category × String)) : Json := steps.foldl next schema

def settled (schema : Json) (step : Category × String) : Except EnrichmentError Json :=
  match step.1 with
  | .undefined => .ok schema
  | _ => .error (.alreadyEnriched step.2)

def enrichments (schema : Json) : List (Category × String) → Nat
  | [] => 0
  | step :: steps =>
    (if step.1.requiresMetadata && (enrich step.1 schema step.2).isOk then 1 else 0) +
      enrichments (next schema step) steps

variable {step : Category × String} {steps before after : List (Category × String)}

theorem isObj_of_isEnriched (h : isEnriched d = true) : ∃ members, d = .obj members := by
  cases d with
  | obj members => exact ⟨members, rfl⟩
  | _ => cases h

theorem enrich_settled (h : isEnriched d = true) : enrich step.1 d step.2 = settled d step := by
  obtain ⟨members, rfl⟩ := isObj_of_isEnriched h
  obtain ⟨c, n⟩ := step
  cases c with
  | undefined => rfl
  | business => simp [enrich, settled, checkedRoot, h, bind, Except.bind]
  | dataChange => simp [enrich, settled, checkedRoot, h, bind, Except.bind]

theorem next_settled (h : isEnriched d = true) : next d step = d := by
  rw [next, enrich_settled h]
  obtain ⟨c, n⟩ := step
  cases c <;> rfl

theorem chain_settled (h : isEnriched d = true) : chain d steps = steps.map (settled d) := by
  induction steps with
  | nil => rfl
  | cons step steps ih => rw [chain, next_settled h, ih, enrich_settled h, List.map_cons]

theorem enrichments_settled (h : isEnriched d = true) : enrichments d steps = 0 := by
  induction steps with
  | nil => rfl
  | cons step steps ih =>
    rw [enrichments, next_settled h, ih, enrich_settled h]
    obtain ⟨c, n⟩ := step
    cases c <;> rfl

theorem chain_append : chain d (before ++ step :: after) =
    chain d before ++ enrich step.1 (chainEnd d before) step.2 ::
      chain (next (chainEnd d before) step) after := by
  induction before generalizing d with
  | nil => rfl
  | cons first before ih => rw [List.cons_append, chain, ih, chain]; rfl

theorem next_ok (h : enrich step.1 d step.2 = .ok e) : next d step = e := by
  rw [next, h]

theorem not_isEnriched (hc : c.requiresMetadata = true) (h : enrich c d n = .ok e) :
    isEnriched d = false := by
  cases hd : isEnriched d with
  | false => rfl
  | true =>
    have hsettled : enrich c d n = settled d (c, n) := @enrich_settled d (c, n) hd
    rw [hsettled] at h
    cases c with
    | undefined => cases hc
    | business => cases h
    | dataChange => cases h

def Kept (schema d : Json) : Prop := isEnriched d = true ∨ (PlainSpan d ↔ PlainSpan schema)

theorem Kept.after_step (h : Kept schema d) : Kept schema (next d step) := by
  obtain hd | hplain := h
  · rw [next_settled hd]
    exact .inl hd
  · unfold next
    obtain ⟨c, n⟩ := step
    cases hresult : enrich c d n with
    | error _ => exact .inr hplain
    | ok e =>
      cases c with
      | undefined =>
        cases hresult
        exact .inr hplain
      | business => exact .inr ((plainSpan_business hresult).trans hplain)
      | dataChange => exact .inl (isEnriched_dataChange hresult)

theorem Kept.after_chain (h : Kept schema d) : Kept schema (chainEnd d steps) := by
  induction steps generalizing d with
  | nil => exact h
  | cons step steps ih => exact ih h.after_step

/-- What a step that adds metadata leaves is recognised if it is a data change or the owner says
nothing of the values of the span context. -/
theorem isEnriched_chainEnd (hc : c.requiresMetadata = true)
    (h : enrich c (chainEnd schema before) n = .ok e) :
    isEnriched e = true ↔ c = .dataChange ∨ PlainSpan schema := by
  have hkept : Kept schema (chainEnd schema before) := Kept.after_chain (.inr Iff.rfl)
  have hplain := hkept.resolve_left (by simp [not_isEnriched hc h])
  cases c with
  | undefined => cases hc
  | business => simp [isEnriched_business h, hplain]
  | dataChange => simp [isEnriched_dataChange h]

theorem enrichments_plain (h : PlainSpan d) : enrichments d steps ≤ 1 := by
  induction steps generalizing d with
  | nil => simp [enrichments]
  | cons step steps ih =>
    obtain ⟨c, n⟩ := step
    cases hresult : enrich c d n with
    | error _ => simpa [enrichments, next, hresult, Except.isOk, Except.toBool] using ih h
    | ok e =>
      cases hc : c.requiresMetadata with
      | false =>
        cases c with
        | undefined =>
          cases hresult
          simpa [enrichments, next, enrich, Category.requiresMetadata] using ih h
        | _ => cases hc
      | true =>
        have he : isEnriched e = true := by
          cases c with
          | undefined => cases hc
          | business => exact (isEnriched_business hresult).mpr h
          | dataChange => exact isEnriched_dataChange hresult
        simp [enrichments, next, hresult, hc, Except.isOk, Except.toBool, enrichments_settled he]

theorem dataChange_again (hobj : ∃ members, e = .obj members) (h : isEnriched e = false)
    (n : String) : (enrich .dataChange e n).isOk = true := by
  obtain ⟨members, rfl⟩ := hobj
  obtain ⟨head, -, henrich⟩ := enrich_dataChange (n := n) h
  exact isOk_iff.mpr ⟨_, henrich⟩

/-- A schema that metadata have been added to is recognised exactly if it is a data change or the
first schema of the chain has a plain span context. Then it stays as it is for ever, and every later
step that would add metadata fails. If it is not recognised, it can be enriched once more. -/
theorem enrich_once (schema : Json) (before after : List (Category × String)) (c : Category)
    (n : String) (e : Json) (hc : c.requiresMetadata = true)
    (h : enrich c (chainEnd schema before) n = .ok e) :
    (isEnriched e = true ↔ c = .dataChange ∨ PlainSpan schema) ∧
    (isEnriched e = true → chain schema (before ++ (c, n) :: after) =
      chain schema before ++ .ok e :: after.map (settled e)) ∧
    (isEnriched e = false → ∀ n', (enrich .dataChange e n').isOk = true) ∧
    (PlainSpan schema → enrichments schema (before ++ (c, n) :: after) ≤ 1) := by
  refine ⟨isEnriched_chainEnd hc h, fun he => ?_, fun he => dataChange_again ?_ he, enrichments_plain⟩
  · have hnext : next (chainEnd schema before) (c, n) = e := next_ok h
    rw [chain_append, h, hnext, chain_settled he]
  · cases c with
    | undefined => cases hc
    | business =>
      obtain ⟨_, root, -, -, rfl⟩ := enrich_business_ok h
      exact ⟨root, rfl⟩
    | dataChange =>
      obtain ⟨_, _, -, -, rfl⟩ := enrich_dataChange_ok h
      exact ⟨_, rfl⟩

def tracedLogin : Json :=
  .obj [("properties", .obj [("metadata", .obj [("properties", .obj [("span_ctx",
    .obj [("additionalProperties", .obj [("maxLength", Json.ofNat 64)])])])])])]

theorem not_plainSpan_tracedLogin : ¬PlainSpan tracedLogin := by
  intro h
  obtain h | ⟨type, h⟩ := h (.obj [("maxLength", Json.ofNat 64)]) rfl
  · cases h
  · simp at h

theorem tracedLogin_twice : ∃ e, enrich .business tracedLogin "login" = .ok e ∧
    isEnriched e = false ∧ (enrich .business e "logout").isOk = true := by
  have hok : (enrich .business tracedLogin "login").isOk = true := rfl
  have htwice : (enrich .business tracedLogin "login" >>= fun e =>
    enrich .business e "logout").isOk = true := rfl
  obtain ⟨e, he⟩ := isOk_iff.mp hok
  obtain ⟨hiff, -⟩ := enrich_once tracedLogin [] [] .business "login" e rfl he
  refine ⟨e, he, ?_, ?_⟩
  · simpa [not_plainSpan_tracedLogin] using hiff
  · rwa [he] at htwice

end EventAdmission.Enrichment
