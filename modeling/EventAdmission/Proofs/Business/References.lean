import EventAdmission.Proofs.Business.Compiled

/-!
# References into the merged schema

A reference that leads anywhere but to the owner's root leads to the same schema
of the merged root. Only the properties, should they be referred to as a schema
themselves, have the metadata among them then (`Kin`). Behind the required names
there are no schemas.
-/

namespace EventAdmission

open Schema Evaluation Enrichment Corpus

variable {draft : Draft} {n key reference : String} {owner properties : Members}
  {names ids : List String} {scope inner : Scope} {base url : Url} {root root' target x : Json}
  {named named' : List (String × Json)} {tokens : List (List Char)}

/-- The same schema in both documents, or the owner's properties without and with the metadata. -/
inductive Kin (n : String) (properties : Members) : Json → Json → Prop
  | same (s : Json) : Kin n properties s s
  | properties : Kin n properties (.obj properties)
      (.obj (Keyed.insert properties "metadata" (metadataSchema n)))

-- ---------------------------------------------------------------------------
-- Documents
-- ---------------------------------------------------------------------------

theorem Renamed.find? (h : Renamed root root' named named') (name : String) :
    (⟨root', named'⟩ : Corpus).find? name = (⟨root, named⟩ : Corpus).find? name ∨
      ((⟨root, named⟩ : Corpus).find? name = some root ∧
        (⟨root', named'⟩ : Corpus).find? name = some root') := by
  cases h with
  | nameless => exact .inl rfl
  | named first inner =>
    simp only [Corpus.find?, List.reverse_cons, List.find?_append]
    cases inner.reverse.find? fun e => e.1 == name with
    | some e => exact .inl rfl
    | none =>
      cases hname : first == name with
      | true => exact .inr (by simp [hname])
      | false => exact .inl (by simp [hname])

theorem Renamed.document? (h : Renamed root root' named named') (url : Url) :
    (⟨root', named'⟩ : Corpus).document? url = (⟨root, named⟩ : Corpus).document? url ∨
      ((⟨root, named⟩ : Corpus).document? url = some root ∧
        (⟨root', named'⟩ : Corpus).document? url = some root') := by
  rw [Corpus.document?, Corpus.document?]
  rcases h.find? url.text with hsame | ⟨hroot, hroot'⟩
  · rw [hsame]
    split
    · exact .inl rfl
    · split
      · exact .inr ⟨rfl, rfl⟩
      · exact .inl rfl
  · rw [hroot, hroot']
    exact .inr ⟨rfl, rfl⟩

-- ---------------------------------------------------------------------------
-- Places
-- ---------------------------------------------------------------------------

theorem descend_strings (h : descend draft (.strings names) tokens = some (ids, target)) :
    firstFault 1 scope target ≠ none := by
  rcases Json.mem_values.mp (Json.follow_mem (descend_iff.mp ⟨_, h⟩)) with rfl | hinside
  · exact Option.some_ne_none _
  · obtain ⟨x, hx, hmem⟩ := Json.mem_inside_arr.mp hinside
    obtain ⟨name, -, rfl⟩ := List.mem_map.mp hx
    obtain rfl := List.mem_singleton.mp hmem
    exact Option.some_ne_none _

theorem Mergeable.descend_properties (hm : Mergeable owner properties names)
    (h : descend draft (.obj properties) tokens = some (ids, target)) : ∃ target',
      descend draft (.obj (Keyed.insert properties "metadata" (metadataSchema n))) tokens =
        some (ids, target') ∧ Kin n properties target target' := by
  cases tokens with
  | nil =>
    obtain ⟨rfl, rfl⟩ := Prod.mk.inj (Option.some.inj h)
    exact ⟨_, rfl, .properties⟩
  | cons token tokens =>
    refine ⟨target, ?_, .same target⟩
    obtain ⟨x, hx, h⟩ := Option.bind_eq_some_iff.mp h
    have hne : String.ofList (Step.unescape token) ≠ "metadata" := by
      intro heq
      rw [Json.token?, heq, hm.fresh] at hx
      cases hx
    refine Option.bind_eq_some_iff.mpr ⟨x, (find?_properties hne).trans hx, ?_⟩
    rwa [hm.id?_properties, ← hm.properties_no_id (d := draft)]

theorem Mergeable.descend (hm : Mergeable owner properties names)
    (h : Corpus.descend draft (.obj owner) tokens = some (ids, target)) (hne : target ≠ .obj owner)
    (hs : firstFault 1 scope target = none) : ∃ target',
      Corpus.descend draft (.obj (merged n owner properties names)) tokens = some (ids, target') ∧
        Kin n properties target target' := by
  cases tokens with
  | nil =>
    obtain ⟨-, rfl⟩ := Prod.mk.inj (Option.some.inj h)
    exact absurd rfl hne
  | cons token tokens =>
    obtain ⟨x, hx, h⟩ := Option.bind_eq_some_iff.mp h
    obtain ⟨⟨rest, place⟩, hrest, h⟩ := Option.bind_eq_some_iff.mp h
    obtain ⟨rfl, rfl⟩ := Prod.mk.inj (Option.some.inj h)
    have hx : Keyed.find? owner (String.ofList (Step.unescape token)) = some x := hx
    -- What remains is to find the way from the value under the first token.
    suffices hway : ∃ y target', Keyed.find? (merged n owner properties names)
        (String.ofList (Step.unescape token)) = some y ∧
          Corpus.descend draft y tokens = some (rest, target') ∧ Kin n properties place target' by
      obtain ⟨y, target', hy, hd, hkin⟩ := hway
      refine ⟨target', Option.bind_eq_some_iff.mpr ⟨y, hy, ?_⟩, hkin⟩
      exact Option.bind_eq_some_iff.mpr ⟨_, hd, by rw [id?_merged]⟩
    by_cases hp : String.ofList (Step.unescape token) = "properties"
    · rw [hp] at hx ⊢
      obtain rfl := hm.old_properties hx
      obtain ⟨target', hd, hkin⟩ := hm.descend_properties (n := n) hrest
      exact ⟨_, target', find?_merged_properties, hd, hkin⟩
    · by_cases hr : String.ofList (Step.unescape token) = "required"
      · rw [hr] at hx
        obtain rfl := hm.old_required hx
        exact absurd hs (descend_strings hrest)
      · exact ⟨x, place, (find?_merged hp hr).trans hx, hrest, .same place⟩

-- ---------------------------------------------------------------------------
-- References
-- ---------------------------------------------------------------------------

theorem Mergeable.resolve (hm : Mergeable owner properties names)
    (hr : Renamed (.obj owner) (.obj (merged n owner properties names)) named named')
    (h : (⟨.obj owner, named⟩ : Corpus).resolve draft url = .ok (base, target))
    (hne : target ≠ .obj owner) (hs : firstFault 1 scope target = none) : ∃ target',
      (⟨.obj (merged n owner properties names), named'⟩ : Corpus).resolve draft url =
        .ok (base, target') ∧ Kin n properties target target' := by
  rw [Corpus.resolve] at h ⊢
  rcases hr.find? url.text with hsame | ⟨hroot, -⟩
  · rw [hsame]
    split at h
    · exact ⟨target, h, .same target⟩
    · split at h
      · cases h
      · rcases hr.document? url.withoutFragment with hdocument | ⟨hroot, hroot'⟩
        · exact ⟨target, by simpa only [hdocument] using h, .same target⟩
        · simp only [hroot] at h
          simp only [hroot']
          split at h
          · cases h
          · rename_i ids place hplace
            obtain ⟨tokens, htokens, hd⟩ := Option.bind_eq_some_iff.mp hplace
            split at h
            · rename_i hbase
              obtain ⟨rfl, rfl⟩ := Prod.mk.inj (Except.ok.inj h)
              obtain ⟨target', hd', hkin⟩ := hm.descend (n := n) hd hne hs
              have hplace' := Option.bind_eq_some_iff.mpr ⟨tokens, htokens, hd'⟩
              exact ⟨target', by simp only [hplace', hbase], hkin⟩
            · cases h
  · rw [hroot] at h
    exact absurd (Prod.mk.inj (Except.ok.inj h)).2.symm hne

theorem ofMember_properties : Rule.ofMember draft
      (Keyed.insert properties "metadata" (metadataSchema n)) key x =
    Rule.ofMember draft properties key x := by
  have hread : ∀ k ∈ readKeywords, k ≠ "metadata" := by decide
  exact ofMember_of_read fun k hk => find?_properties (hread k hk)

theorem Mergeable.compiles_insert (hm : Mergeable owner properties names)
    (h : Compiles scope (.obj properties)) :
    Compiles scope (.obj (Keyed.insert properties "metadata" (metadataSchema n))) := by
  have hsame : Keyed.find? (Keyed.insert properties "metadata" (metadataSchema n)) "$ref" =
      Keyed.find? properties "$ref" := find?_properties (by decide)
  cases href : Keyed.find? properties "$ref" with
  | some r =>
    exact compiles_of_ref href (hsame.trans href) (hm.properties_no_id.trans hm.id?_properties.symm) h
  | none =>
    rw [compiles_of_members hm.id?_properties (hsame.trans href)]
    intro e he
    rcases Keyed.mem_of_mem_insert he with rfl | he
    · -- As a keyword, `metadata` means nothing.
      exact memberCompiles_none rfl
    · obtain ⟨r, hr, hparts⟩ := (compiles_of_members hm.properties_no_id href).mp h e he
      exact ⟨r, ofMember_properties.trans hr, hparts⟩

theorem Kin.draft? (h : Kin n properties x target) : Schema.draft? target = Schema.draft? x := by
  cases h with
  | same => rfl
  | properties =>
    have hsame : Keyed.find? (Keyed.insert properties "metadata" (metadataSchema n)) "$schema" =
        Keyed.find? properties "$schema" := find?_properties (by decide)
    simp only [Schema.draft?, Json.member?, hsame]

theorem Kin.compiles (hm : Mergeable owner properties names) (h : Kin n properties x target)
    (hc : Compiles scope x) : Compiles scope target := by
  cases h with
  | same => exact hc
  | properties => exact hm.compiles_insert hc

theorem Mergeable.follow (hm : Mergeable owner properties names)
    (hr : Renamed (.obj owner) (.obj (merged n owner properties names)) named named')
    (h : Evaluation.follow ⟨.obj owner, named⟩ scope reference = .ok (inner, target))
    (hne : target ≠ .obj owner) : ∃ target',
      Evaluation.follow ⟨.obj (merged n owner properties names), named'⟩ scope reference =
        .ok (inner, target') ∧ Kin n properties target target' := by
  cases hjoin : scope.base.join reference with
  | error fault => simp [Evaluation.follow, hjoin] at h
  | ok url =>
    obtain ⟨base, hresolve, rfl, hfault⟩ := (follow_ok hjoin).mp h
    have hcompiles := compiles_of_firstFault (Nat.le_succ _) hfault
    obtain ⟨target', hresolve', hkin⟩ := hm.resolve hr hresolve hne (hcompiles 1)
    refine ⟨target', (follow_ok hjoin).mpr ⟨base, hresolve', ?_, ?_⟩, hkin⟩
    · rw [hkin.draft?]
    · exact hkin.compiles hm hcompiles _

end EventAdmission
