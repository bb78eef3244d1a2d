import EventAdmission.Proofs.DataChange.Published
import EventAdmission.Proofs.Enrichment.Members

/-!
# The merge of a business event as one merge

All that the broker writes into the schema of a business event is one document
(`businessEnvelope`), and enrichment merges it into the owner's root
(`merged_envelope`). It is put together from few kinds of pieces (`Piece`), so
what a merge preserves is proved by induction on them. No merge brings an
identifier into a document without any (`Merged.nameless`).
-/

namespace EventAdmission.Enrichment

open Schema

variable {keyword other key n : String} {target source merged olds news owner root entries : Members}
  {value result x v : Json} {old : Option Json} {items : List Json} {names : List String}

-- ---------------------------------------------------------------------------
-- One merge
-- ---------------------------------------------------------------------------

theorem deepMerge_keyword (h : deepMerge keyword x value = .ok result) (other : String) :
    deepMerge other x value = .ok result := by
  induction value using Json.induct generalizing keyword x result other with
  | scalar value harr hobj =>
    cases value with
    | obj members => cases hobj
    | _ => exact h
  | array items ih => exact h
  | object source ih =>
    cases x with
    | obj target =>
      rw [deepMerge] at h ⊢
      obtain ⟨merged, hm, rfl⟩ := map_ok.mp h
      refine map_ok.mpr ⟨merged, ?_, rfl⟩
      clear h
      induction source generalizing target with
      | nil => exact hm
      | cons e rest ihrest =>
        obtain ⟨key, value⟩ := e
        obtain ⟨ihvalue, ih⟩ := List.forall_mem_cons.mp ih
        rw [mergeMembers_cons] at hm ⊢
        obtain ⟨step, hstep, hm⟩ := bind_ok.mp hm
        refine bind_ok.mpr ⟨step, ?_, ihrest ih step hm⟩
        unfold mergeMember at hstep ⊢
        split
        · rename_i hkey
          rw [if_pos hkey] at hstep
          cases ha : appendRequired target (namesOf value) with
          | none => simp [ha] at hstep
          | some appended => simpa [ha] using hstep
        · rename_i hkey
          rw [if_neg hkey] at hstep
          cases ht : Keyed.find? target key with
          | none => simpa [ht] using hstep
          | some existing =>
            simp only [ht] at hstep ⊢
            obtain ⟨result, hd, rfl⟩ := map_ok.mp hstep
            exact map_ok.mpr ⟨result, ihvalue hd _, rfl⟩
    | _ => cases h

def businessEnvelope (n : String) : Json :=
  .obj [("properties", .obj [("metadata", metadataSchema n)]), ("required", .strings ["metadata"])]

theorem merged_envelope (h : addMetadata n owner = .ok root) :
    Merged (some (.obj owner)) (businessEnvelope n) (.obj root) := by
  obtain ⟨properties, metadata, hw⟩ := addMetadata_ok h
  obtain ⟨items, hitems, rfl⟩ := hw.result
  have hmerged := hw.merged
  have hproperties : mergeMember "" owner "properties" (.obj [("metadata", metadataSchema n)]) =
      .ok (Keyed.insert owner "properties" (.obj (Keyed.insert properties "metadata" metadata))) := by
    have hold := hw.old
    rw [mergeMember, if_neg (by decide)]
    unfold objectAt at hold
    cases hp : Keyed.find? owner "properties" with
    | none =>
      rw [hp] at hold
      obtain rfl := Except.ok.inj hold
      obtain rfl : metadata = metadataSchema n := hmerged
      rfl
    | some p =>
      rw [hp] at hold
      cases p <;> cases hold
      refine map_ok.mpr ⟨.obj (Keyed.insert properties "metadata" metadata), ?_, rfl⟩
      rw [deepMerge]
      refine map_ok.mpr ⟨Keyed.insert properties "metadata" metadata, ?_, rfl⟩
      rw [mergeMembers_cons, mergeMember, if_neg (by decide)]
      cases hm : Keyed.find? properties "metadata" with
      | none =>
        rw [hm] at hmerged
        obtain rfl : metadata = metadataSchema n := hmerged
        rfl
      | some existing =>
        rw [hm] at hmerged
        obtain ⟨keyword, hd⟩ := hmerged
        simp only [deepMerge_keyword hd]
        rfl
  refine ⟨"", map_ok.mpr ⟨_, ?_, rfl⟩⟩
  rw [mergeMembers_cons, hproperties]
  refine bind_ok.mpr ⟨_, rfl, ?_⟩
  rw [mergeMembers_cons, mergeMember, if_pos rfl, namesOf_names, appendRequired,
    Keyed.find?_insert_of_ne (by decide), hitems]
  rfl

-- ---------------------------------------------------------------------------
-- What any merge preserves
-- ---------------------------------------------------------------------------

theorem MergedMembers.mem {e : String × Json} (h : MergedMembers olds source news)
    (hs : Keyed.Sorted olds) (hn : ListsNames (.obj source)) (he : e ∈ news) :
    e ∈ olds ∨
      (∃ v, Keyed.find? source e.1 = some v ∧ Merged (Keyed.find? olds e.1) v e.2) ∨
      ∃ (items : List Json) (names : List String),
        Keyed.find? source "required" = some (.strings names) ∧ names.Nodup ∧
          (Keyed.find? olds "required").getD (.arr []) = .arr items ∧
            e = ("required",
              .arr (items ++ (names.filter fun name => .str name ∉ items).map .str)) := by
  obtain ⟨key, x⟩ := e
  have hx : Keyed.find? news key = some x := Keyed.find?_of_mem (h.sorted hs) he
  cases hv : Keyed.find? source key with
  | none => exact .inl (Keyed.mem_of_find? (h.other key hv ▸ hx))
  | some v =>
    by_cases hkey : key = "required"
    · subst hkey
      obtain ⟨names, rfl, hnodup⟩ := hn _ Json.mem_values_self v hv
      obtain ⟨items, hitems, hnews⟩ := h.required names hv hnodup
      obtain rfl := Option.some.inj (hx.symm.trans hnews)
      exact .inr (.inr ⟨items, names, hv, hnodup, hitems, rfl⟩)
    · obtain ⟨result, hresult, hmerged⟩ := h.same key v hv hkey
      obtain rfl := Option.some.inj (hx.symm.trans hresult)
      exact .inr (.inl ⟨v, rfl, hmerged⟩)

theorem Merged.old_obj (h : Merged old (.obj source) result) (hx : old = some x) :
    ∃ members, x = .obj members := by
  obtain ⟨rfl, -⟩ | ⟨members, _, _, rfl, -⟩ := h.obj
  · cases hx
  · exact ⟨members, (Option.some.inj hx).symm⟩

theorem Merged.str?_eq_none (h : Merged old value result) (hv : value.str? = none) :
    result.str? = none := by
  cases value with
  | obj source =>
    obtain ⟨members, rfl⟩ := h.isObj
    rfl
  | _ => exact h.leaf rfl ▸ hv

theorem MergedMembers.id?_eq_none {draft : Draft} (h : MergedMembers olds source news)
    (hs : id? draft (.obj source) = none) (ho : id? draft (.obj olds) = none) :
    id? draft (.obj news) = none := by
  have hkey : idKeyword draft ≠ "required" := by cases draft <;> decide
  simp only [id?, Json.member?] at hs ho ⊢
  cases hv : Keyed.find? source (idKeyword draft) with
  | none => rw [h.other _ hv, ho]
  | some v =>
    obtain ⟨result, hresult, hmerged⟩ := h.same _ v hv hkey
    rw [hv] at hs
    rw [hresult]
    exact hmerged.str?_eq_none hs

theorem nameless_nil : Nameless (.obj []) := nameless_obj.mpr ⟨fun _ => rfl, by simp⟩

theorem Merged.nameless (h : Merged old value result) (hs : value.Canonical) (hn : ListsNames value)
    (hv : Nameless value) (hold : ∀ x, old = some x → x.Canonical ∧ Nameless x) :
    Nameless result := by
  induction value using Json.induct generalizing old result with
  | scalar value harr hobj =>
    cases value with
    | obj members => cases hobj
    | _ => exact h.leaf rfl ▸ hv
  | array items ih => exact h.leaf rfl ▸ hv
  | object source ih =>
    obtain ⟨olds, news, holds, rfl, hm⟩ := h.members_of hs.1 ⟨⟨.nil, trivial⟩, nameless_nil⟩ hold
    refine nameless_obj.mpr ⟨fun draft => ?_, fun e he => ?_⟩
    · exact hm.id?_eq_none hv.self holds.2.self
    · rcases hm.mem holds.1.1 hn he with he | ⟨v, hfind, hmerged⟩ | ⟨items, names, -, -, hitems, rfl⟩
      · exact (nameless_obj.mp holds.2).2 e he
      · exact ih _ (Keyed.mem_of_find? hfind) hmerged (Json.canonical_of_find? hs.2 hfind)
          (hn.member hfind) ((nameless_obj.mp hv).2 _ (Keyed.mem_of_find? hfind)) fun x hx =>
          ⟨Json.canonical_of_find? holds.1.2 hx,
            (nameless_obj.mp holds.2).2 _ (Keyed.mem_of_find? hx)⟩
      · have hlist := oldNames_cases hitems fun x hx =>
          (nameless_obj.mp holds.2).2 _ (Keyed.mem_of_find? hx)
        refine nameless_arr.mpr fun x hx => ?_
        rcases List.mem_append.mp hx with hx | hx
        · rcases hlist with rfl | hlist
          · cases hx
          · exact nameless_arr.mp hlist x hx
        · obtain ⟨name, -, rfl⟩ := List.mem_map.mp hx
          exact nameless_str

theorem MergedMembers.contains (h : MergedMembers olds source news) (hn : ListsNames (.obj source))
    (hk : Keyed.contains olds key = true) : Keyed.contains news key = true := by
  cases hv : Keyed.find? source key with
  | none => rwa [Keyed.contains, h.other key hv]
  | some v =>
    by_cases hkey : key = "required"
    · subst hkey
      obtain ⟨names, rfl, hnodup⟩ := hn _ Json.mem_values_self v hv
      obtain ⟨items, -, hnews⟩ := h.required names hv hnodup
      exact Keyed.contains_iff.mpr ⟨_, hnews⟩
    · obtain ⟨result, hresult, -⟩ := h.same key v hv hkey
      exact Keyed.contains_iff.mpr ⟨result, hresult⟩

-- ---------------------------------------------------------------------------
-- Pieces
-- ---------------------------------------------------------------------------

/-- What the envelope of a business event is made of: schemas, and values of a keyword. -/
inductive Piece : (keyword : Option String) → (value : Json) → Prop
  | schema {source : Members} (members : ∀ e ∈ source, Piece (some e.1) e.2) :
    Piece none (.obj source)
  | properties {entries : Members} (schemas : ∀ e ∈ entries, Piece none e.2)
    (unlisted : Keyed.find? entries "required" = none) : Piece (some "properties") (.obj entries)
  | additional {source : Members} (schema : Piece none (.obj source)) :
    Piece (some "additionalProperties") (.obj source)
  | items {source : Members} (schema : Piece none (.obj source)) :
    Piece (some "items") (.obj source)
  | required {names : List String} (nodup : names.Nodup) (nonempty : names ≠ []) :
    Piece (some "required") (.strings names)
  | enum {names : List String} : Piece (some "enum") (.strings names)
  | scalar {key text : String} (fixed : (key, .str text) ∈ fixedMembers) :
    Piece (some key) (.str text)

theorem piece_stringSchema : Piece none stringSchema := by
  refine .schema fun e he => ?_
  obtain rfl := List.mem_singleton.mp he
  exact .scalar (by decide)

theorem piece_uuidSchema : Piece none uuidSchema := by
  rw [uuidSchema_eq]
  refine .schema ?_
  simp only [List.forall_mem_cons, List.not_mem_nil, false_implies, implies_true, and_true]
  exact ⟨.scalar (by decide), .scalar (by decide)⟩

theorem piece_enumSchema : Piece none (enumSchema names) := by
  rw [enumSchema_eq]
  refine .schema ?_
  simp only [List.forall_mem_cons, List.not_mem_nil, false_implies, implies_true, and_true]
  exact ⟨.enum, .scalar (by decide)⟩

theorem piece_parentsSchema : Piece none parentsSchema := by
  refine .schema ?_
  simp only [List.forall_mem_cons, List.not_mem_nil, false_implies, implies_true, and_true]
  exact ⟨.items piece_uuidSchema, .scalar (by decide)⟩

theorem piece_spanSchema : Piece none spanSchema := by
  refine .schema ?_
  simp only [List.forall_mem_cons, List.not_mem_nil, false_implies, implies_true, and_true]
  exact ⟨.additional piece_stringSchema, .scalar (by decide)⟩

theorem piece_metadataSchema : Piece none (metadataSchema n) := by
  have hall : ∀ e ∈ metadataProperties n, Piece none e.2 := by
    simp [metadataProperties_eq, piece_uuidSchema, piece_enumSchema, piece_stringSchema,
      piece_parentsSchema, piece_spanSchema]
  rw [metadataSchema_eq]
  refine .schema ?_
  simp only [List.forall_mem_cons, List.not_mem_nil, false_implies, implies_true, and_true]
  exact ⟨.properties hall rfl, .required (by decide) (by decide), .scalar (by decide)⟩

theorem piece_businessEnvelope : Piece none (businessEnvelope n) := by
  refine .schema ?_
  simp only [List.forall_mem_cons, List.not_mem_nil, false_implies, implies_true, and_true]
  refine ⟨.properties (fun e he => ?_) rfl, .required (by decide) (by decide)⟩
  obtain rfl := List.mem_singleton.mp he
  exact piece_metadataSchema

def pieceKeywords : List String :=
  ["additionalProperties", "enum", "items", "pattern", "properties", "required", "type"]

theorem Piece.known {v : Json} (h : Piece (some key) v) : key ∈ pieceKeywords := by
  have hfixed : ∀ e ∈ fixedMembers, e.1 ∈ pieceKeywords := by decide
  generalize hkey : some key = keyword at h
  cases h with
  | schema _ => cases hkey
  | scalar fixed => exact Option.some.inj hkey ▸ hfixed _ fixed
  | _ => exact Option.some.inj hkey ▸ by decide

theorem find?_of_pieces (h : ∀ e ∈ source, Piece (some e.1) e.2) (hkey : key ∉ pieceKeywords) :
    Keyed.find? source key = none := by
  cases hv : Keyed.find? source key with
  | none => rfl
  | some v => exact absurd (h _ (Keyed.mem_of_find? hv)).known hkey

theorem Piece.required_names {v : Json} (h : Piece (some "required") v) :
    ∃ names : List String, v = .strings names ∧ names.Nodup ∧ names ≠ [] := by
  have hfixed : ∀ text, ("required", Json.str text) ∉ fixedMembers := by
    simp [fixedMembers, Json.strings]
  generalize hkey : some "required" = key at h
  cases h with
  | required nodup nonempty => exact ⟨_, rfl, nodup, nonempty⟩
  | scalar fixed =>
    obtain rfl := Option.some.inj hkey
    exact absurd fixed (hfixed _)
  | _ => simp at hkey

theorem Piece.items_obj {v : Json} (h : Piece (some "items") v) : ∃ entries, v = .obj entries := by
  have hfixed : ∀ text, ("items", Json.str text) ∉ fixedMembers := by
    simp [fixedMembers, uuidSchema_eq]
  generalize hkey : some "items" = key at h
  cases h with
  | items schema => exact ⟨_, rfl⟩
  | scalar fixed =>
    obtain rfl := Option.some.inj hkey
    exact absurd fixed (hfixed _)
  | _ => simp at hkey

theorem Piece.listsNames {keyword : Option String} (h : Piece keyword v) : ListsNames v := by
  have hmembers : ∀ {members : Members},
      (∀ value, Keyed.find? members "required" = some value →
        ∃ names : List String, value = .strings names ∧ names.Nodup) →
      (∀ e ∈ members, ListsNames e.2) → ListsNames (.obj members) := by
    intro members hself hall y hy value hvalue
    rcases Json.mem_values.mp hy with rfl | hy
    · exact hself value hvalue
    · obtain ⟨e, he, hy⟩ := Json.mem_inside_obj.mp hy
      exact hall e he y hy value hvalue
  have hstrings : ∀ names : List String, ListsNames (.strings names) := by
    intro names y hy value hvalue
    rcases Json.mem_values.mp hy with rfl | hy
    · cases hvalue
    · obtain ⟨x, hx, hy⟩ := Json.mem_inside_arr.mp hy
      obtain ⟨name, -, rfl⟩ := List.mem_map.mp hx
      obtain rfl := List.mem_singleton.mp hy
      cases hvalue
  induction h with
  | schema members ih =>
    refine hmembers (fun value hvalue => ?_) ih
    obtain ⟨names, rfl, nodup, -⟩ := (members _ (Keyed.mem_of_find? hvalue)).required_names
    exact ⟨names, rfl, nodup⟩
  | properties _ unlisted ih =>
    refine hmembers (fun value hvalue => ?_) ih
    cases unlisted.symm.trans hvalue
  | additional _ ih => exact ih
  | items _ ih => exact ih
  | required _ _ => exact hstrings _
  | enum => exact hstrings _
  | scalar _ =>
    intro y hy value hvalue
    obtain rfl := List.mem_singleton.mp hy
    cases hvalue

theorem canonical_businessEnvelope : (businessEnvelope n).Canonical := by
  have hmetadata : (Json.obj [("metadata", metadataSchema n)]).Canonical :=
    ⟨List.pairwise_singleton _ _, canonical_metadataSchema, trivial⟩
  have hkeys : ["properties", "required"].Pairwise (· < ·) := by decide
  exact ⟨Keyed.sorted_of_keys rfl hkeys, hmetadata, Json.canonical_strings _, trivial⟩

theorem nameless_businessEnvelope : Nameless (businessEnvelope n) := by
  have hmetadata : Nameless (.obj [("metadata", metadataSchema n)]) :=
    nameless_obj.mpr ⟨fun draft => by cases draft <;> rfl, by simp [nameless_metadataSchema]⟩
  exact nameless_obj.mpr
    ⟨fun draft => by cases draft <;> rfl, by simp [hmetadata, nameless_strings]⟩

end EventAdmission.Enrichment
