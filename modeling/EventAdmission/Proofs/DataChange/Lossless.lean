import EventAdmission.Proofs.DataChange.Envelope

/-!
# What a data change keeps of the owner's schema

`enrich_dataChange_lossless`: an owner's schema without the metadata always has
an envelope, whatever its members are. The envelope has the keys of the category
and the owner's hoisted members, and the owner's schema is read back from it
(`unwrap`), so that no two schemas have the same envelope.
-/

namespace EventAdmission.Enrichment

variable {n key : String} {owner other root head data : Members}

-- ---------------------------------------------------------------------------
-- Reading back
-- ---------------------------------------------------------------------------

def putBack (root data : Members) : Members :=
  (hoisted root).foldl (fun data e => Keyed.insert data e.1 e.2) data

def unwrap (effective : Json) : Option Json := do
  let root ← effective.obj?
  let data ← (effective.at? [.key "properties", .key "data"]).bind Json.obj?
  pure (.obj (putBack root data))

theorem hoisted_find? : Keyed.find? (hoisted root) key =
    if key ∈ hoistedKeywords then Keyed.find? root key else none := by
  split
  · rename_i hk
    exact Keyed.find?_filter (fun k => hoistedKeywords.contains k) (by simpa using hk)
  · rename_i hk
    exact Keyed.find?_filter_of_not (fun k => hoistedKeywords.contains k) (by simpa using hk)

theorem lowered_find? : Keyed.find? (lowered owner) key =
    if key ∈ hoistedKeywords then none else Keyed.find? owner key := by
  split
  · rename_i hk
    exact Keyed.find?_filter_of_not (fun k => !hoistedKeywords.contains k) (by simpa using hk)
  · rename_i hk
    exact Keyed.find?_filter (fun k => !hoistedKeywords.contains k) (by simpa using hk)

theorem find?_putBack (hs : Keyed.Sorted root) : Keyed.find? (putBack root data) key =
    if key ∈ hoistedKeywords then (Keyed.find? root key).or (Keyed.find? data key)
    else Keyed.find? data key := by
  have hhoisted : Keyed.Sorted (hoisted root) := hs.filter _
  rw [putBack, Keyed.find?_foldl_insert hhoisted, hoisted_find?]
  split
  · rfl
  · rw [Option.none_or]

/-- Between them the root and the data hold all that the owner said. -/
theorem putBack_envelope (h : Head owner head) (hs : Keyed.Sorted owner)
    (hroot : Keyed.Sorted (envelope n owner head)) :
    putBack (envelope n owner head) (lowered owner) = owner := by
  refine Keyed.ext (Keyed.sorted_foldl_insert (hs.filter _)) hs fun key => ?_
  rw [find?_putBack hroot, lowered_find?]
  split
  · rename_i hk
    rw [envelope_hoisted h hk, Option.or_none]
  · rfl

theorem sorted_closedEnvelope (hs : Keyed.Sorted owner) : Keyed.Sorted (closedEnvelope owner) :=
  Keyed.sorted_insert (Keyed.sorted_insert (Keyed.sorted_insert (hs.filter _)))

theorem sorted_addMetadata (h : addMetadata n owner = .ok root) (hs : Keyed.Sorted owner) :
    Keyed.Sorted root := by
  obtain ⟨properties, metadata, hw⟩ := addMetadata_ok h
  obtain ⟨items, -, rfl⟩ := hw.result
  exact Keyed.sorted_insert (Keyed.sorted_insert hs)

theorem sorted_dataChangeEnvelope (h : dataChangeEnvelope n owner = .ok root)
    (hs : Keyed.Sorted owner) : Keyed.Sorted root := by
  obtain ⟨before, hbefore, h⟩ := bind_ok.mp h
  cases ha : appendRequired before Category.dataChange.requiredFields with
  | none => simp [ha] at h
  | some appended =>
    simp only [ha] at h
    obtain rfl := Except.ok.inj h
    obtain ⟨items, -, rfl⟩ := appendRequired_ok ha
    exact Keyed.sorted_insert (sorted_addMetadata hbefore (sorted_closedEnvelope hs))

-- ---------------------------------------------------------------------------
-- The envelope as a whole
-- ---------------------------------------------------------------------------

def requiredNames (c : Category) : List String :=
  (if c.requiresMetadata then ["metadata"] else []) ++ c.requiredFields

/-- The root of a data change schema with the owner's schema in it. -/
structure Wrapped (owner root : Members) : Prop where
  sorted : Keyed.Sorted root
  keys : ∀ key, Keyed.contains root key = true ↔
    key ∈ ["type", "additionalProperties", "properties", "required"] ∨
      key ∈ hoistedKeywords ∧ Keyed.contains owner key = true
  hoisted : ∀ key ∈ hoistedKeywords, Keyed.find? root key = Keyed.find? owner key
  fields : ∃ fields, Keyed.find? root "properties" = some (.obj fields) ∧
    Keyed.keys fields = ["data", "data_op", "data_type", "metadata"]
  required : Keyed.find? root "required" = some (.strings (requiredNames .dataChange)) ∧
    requiredNames .dataChange = ["metadata", "data_op", "data_type", "data"]
  closed : Keyed.find? root "additionalProperties" = some (.bool !Category.dataChange.closesRoot)
  recovered : unwrap (.obj root) = some (.obj owner)

theorem contains_envelope (h : Head owner head) :
    Keyed.contains (envelope n owner head) key = true ↔
      key ∈ ["type", "additionalProperties", "properties", "required"] ∨
        key ∈ hoistedKeywords ∧ Keyed.contains owner key = true := by
  have hdisjoint : ∀ k ∈ hoistedKeywords,
      k ∉ ["type", "additionalProperties", "properties", "required"] := by decide
  by_cases hk : key ∈ hoistedKeywords
  · rw [Keyed.contains, envelope_hoisted h hk]
    simp only [hk, hdisjoint key hk, true_and, false_or, Keyed.contains]
  · simp only [hk, false_and, or_false]
    by_cases hadditional : key = "additionalProperties"
    · subst hadditional
      simp [Keyed.contains, envelope_additional h]
    · have hhead : key ∉ headKeys := by simp [headKeys, hk, hadditional]
      rw [Keyed.contains, envelope_find? h hhead]
      simp only [envelopeEnd, Keyed.find?_cons, Keyed.find?_nil]
      split <;> rename_i hp
      · simp [← hp]
      · split <;> rename_i hr
        · simp [← hr]
        · split <;> rename_i ht
          · simp [← ht]
          · simp [hadditional, Ne.symm hp, Ne.symm hr, Ne.symm ht]

theorem wrapped_envelope (h : Head owner head) (hs : Keyed.Sorted owner)
    (hroot : Keyed.Sorted (envelope n owner head)) : Wrapped owner (envelope n owner head) where
  sorted := hroot
  keys _ := contains_envelope h
  hoisted _ hk := envelope_hoisted h hk
  fields := ⟨fields n owner, envelope_find? h (by decide), rfl⟩
  required := ⟨envelope_find? h (by decide), rfl⟩
  closed := envelope_additional h
  recovered := by
    simp only [unwrap, Json.obj?, envelope_data h, putBack_envelope h hs hroot, bind,
      Option.bind_some, pure]

theorem wrapped_of_enrich (hs : Keyed.Sorted owner)
    (h : enrich .dataChange (.obj owner) n = .ok (.obj root)) : Wrapped owner root := by
  have hopen : isEnriched (.obj owner) = false := by
    cases hopen : isEnriched (.obj owner) with
    | false => rfl
    | true =>
      simp only [enrich, checkedRoot, hopen] at h
      cases h
  obtain ⟨head, hhead, henvelope⟩ := dataChangeEnvelope_eq n owner
  have hroot : root = envelope n owner head := by
    simp only [enrich, checkedRoot, hopen, bind, Except.bind, Bool.false_eq_true, ↓reduceIte,
      henvelope] at h
    cases h
    rfl
  subst hroot
  exact wrapped_envelope hhead hs (sorted_dataChangeEnvelope henvelope hs)

/-- Wrapping an owner's schema always works, and nothing of it is lost. -/
theorem enrich_dataChange_lossless (hs : Keyed.Sorted owner)
    (h : isEnriched (.obj owner) = false) :
    ∃ root, enrich .dataChange (.obj owner) n = .ok (.obj root) ∧ Wrapped owner root ∧
      ∀ other m, Keyed.Sorted other → enrich .dataChange (.obj other) m = .ok (.obj root) →
        other = owner := by
  obtain ⟨head, hhead, henrich⟩ := enrich_dataChange (n := n) h
  have hwrapped := wrapped_of_enrich hs henrich
  refine ⟨_, henrich, hwrapped, fun other m hother hsame => ?_⟩
  have hback : some (Json.obj other) = some (.obj owner) :=
    (wrapped_of_enrich hother hsame).recovered.symm.trans hwrapped.recovered
  cases hback
  rfl

def oddOwner : Members :=
  [("$schema", .str "http://json-schema.org/draft-07/schema#"),
    ("definitions", .obj [("id", stringSchema)]), ("metadata", .null),
    ("properties", .arr [.str "data"]), ("required", .str "id")]

theorem oddOwner_lossless : Keyed.Sorted oddOwner ∧ isEnriched (.obj oddOwner) = false ∧
    ∃ root, enrich .dataChange (.obj oddOwner) "users" = .ok (.obj root) ∧ Wrapped oddOwner root ∧
      ∀ other m, Keyed.Sorted other → enrich .dataChange (.obj other) m = .ok (.obj root) →
        other = oddOwner := by
  have hs : Keyed.Sorted oddOwner := Keyed.sorted_of_keys rfl (by decide)
  exact ⟨hs, rfl, enrich_dataChange_lossless hs rfl⟩

end EventAdmission.Enrichment
