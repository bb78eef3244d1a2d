import EventAdmission.Proofs.Enrichment.Blended
import EventAdmission.Proofs.Schema.Admissible

/-!
# The published schemas admit what a merge makes of them

`Piece.conforms`: where a piece of the broker's is merged into an owner's schema
that the published schema admits, or into a value that it allows for a keyword,
it admits the result.
-/

namespace EventAdmission.Enrichment

open Schema

variable {draft : Draft} {olds source news : Members} {value result : Json} {old : Option Json}
  {keyword : Option String} {key : String}

/-- The published schema has nothing against a schema, or against a value of a keyword. -/
def Conforms (draft : Draft) : (keyword : Option String) → (value : Json) → Prop
  | none, x => Admissible draft x
  | some key, v => Permitted draft key v

theorem admissible_nil : Admissible draft (.obj []) := ⟨1, admitted_nil⟩

theorem permitted_nil : Permitted draft "properties" (.obj []) :=
  permitted_properties.mpr ⟨[], rfl, List.forall_mem_nil _⟩

theorem permitted_required_append {items : List Json} {names : List String} (hnodup : names.Nodup)
    (hne : names ≠ []) (hitems : items = [] ∨ Permitted draft "required" (.arr items)) :
    Permitted draft "required"
      (.arr (items ++ (names.filter fun name => .str name ∉ items).map .str)) := by
  obtain ⟨others, hothers, rfl⟩ : ∃ others : List String, others.Nodup ∧ items = others.map .str := by
    rcases hitems with rfl | hitems
    · exact ⟨[], List.nodup_nil, rfl⟩
    · obtain ⟨others, hothers, hnodup, -⟩ := permitted_required.mp hitems
      exact ⟨others, hnodup, Json.arr.inj hothers⟩
  have hmem : ∀ name, Json.str name ∈ others.map Json.str ↔ name ∈ others := by simp
  simp only [hmem]
  refine permitted_required.mpr ⟨others ++ names.filter (· ∉ others), ?_, ?_, fun _ hnil => ?_⟩
  · rw [Json.strings, List.map_append]
  · refine List.nodup_append.mpr ⟨hothers, hnodup.filter _, fun a ha b hb heq => ?_⟩
    have hnew := (List.mem_filter.mp hb).2
    exact absurd (heq ▸ ha) (by simpa using hnew)
  · obtain ⟨hothers, hfilter⟩ := List.append_eq_nil_iff.mp hnil
    subst hothers
    exact hne (by simpa using hfilter)

/-- A merge that brings no exclusive limits takes no limits away. -/
theorem limited_merged (hm : MergedMembers olds source news) (hn : ListsNames (.obj source))
    (hpieces : ∀ e ∈ source, Piece (some e.1) e.2) (h : Limited draft olds) : Limited draft news := by
  have hkeys : ∀ e ∈ exclusiveKeywords, e.1 ∉ pieceKeywords := by decide
  intro hdraft e he hc
  rw [Keyed.contains, hm.other e.1 (find?_of_pieces hpieces (hkeys e he))] at hc
  exact hm.contains hn (h hdraft e he hc)

theorem Piece.conforms (h : Piece keyword value) (hs : value.Canonical)
    (hm : Merged old value result)
    (hold : ∀ x, old = some x → x.Canonical ∧ Conforms draft keyword x) :
    Conforms draft keyword result := by
  induction h generalizing old result with
  | @schema source hpieces ih =>
    have hn : ListsNames (.obj source) := (Piece.schema hpieces).listsNames
    obtain ⟨olds, news, ⟨hcanonical, hadmissible⟩, rfl, hmembers⟩ :=
      hm.members_of hs.1 ⟨⟨.nil, trivial⟩, admissible_nil⟩ hold
    obtain ⟨hpermitted, hlimited⟩ := admissible_obj.mp hadmissible
    refine admissible_obj.mpr ⟨fun key x hx => ?_, limited_merged hmembers hn hpieces hlimited⟩
    rcases hmembers.mem hcanonical.1 hn (Keyed.mem_of_find? hx) with
      he | ⟨v, hv, hmerged⟩ | ⟨items, names, hnames, hnodup, hitems, heq⟩
    · exact hpermitted key x (Keyed.find?_of_mem hcanonical.1 he)
    · refine ih (key, v) (Keyed.mem_of_find? hv) (Json.canonical_of_find? hs.2 hv) hmerged ?_
      exact fun y hy => ⟨Json.canonical_of_find? hcanonical.2 hy, hpermitted key y hy⟩
    · obtain ⟨rfl, rfl⟩ := Prod.mk.inj heq
      obtain ⟨names', hsame, -, hne⟩ := (hpieces _ (Keyed.mem_of_find? hnames)).required_names
      have hne : names ≠ [] := by
        rintro rfl
        exact hne (by simpa [Json.strings] using hsame)
      exact permitted_required_append hnodup hne (oldNames_cases hitems (hpermitted "required"))
  | @properties entries hschemas unlisted ih =>
    have hn : ListsNames (.obj entries) := (Piece.properties hschemas unlisted).listsNames
    obtain ⟨olds, news, ⟨hcanonical, hpermitted⟩, rfl, hmembers⟩ :=
      hm.members_of hs.1 ⟨⟨.nil, trivial⟩, permitted_nil⟩ hold
    obtain ⟨_, ⟨⟩, hadmissible⟩ := permitted_properties.mp hpermitted
    refine permitted_properties.mpr ⟨news, rfl, fun e he => ?_⟩
    rcases hmembers.mem hcanonical.1 hn he with he | ⟨v, hv, hmerged⟩ | ⟨_, _, hnames, -⟩
    · exact hadmissible e he
    · refine ih _ (Keyed.mem_of_find? hv) (Json.canonical_of_find? hs.2 hv) hmerged ?_
      exact fun x hx =>
        ⟨Json.canonical_of_find? hcanonical.2 hx, hadmissible _ (Keyed.mem_of_find? hx)⟩
    · cases unlisted.symm.trans hnames
  | additional _ ih =>
    obtain ⟨news, rfl⟩ := hm.isObj
    refine permitted_additional.mpr (ih hs hm fun x hx => ?_)
    obtain ⟨olds, rfl⟩ := hm.old_obj hx
    exact (hold _ hx).imp_right permitted_additional.mp
  | items _ ih =>
    obtain ⟨news, rfl⟩ := hm.isObj
    refine permitted_items.mpr (ih hs hm fun x hx => ?_)
    obtain ⟨olds, rfl⟩ := hm.old_obj hx
    exact (hold _ hx).imp_right permitted_items.mp
  | required nodup nonempty =>
    exact hm.leaf rfl ▸ permitted_required.mpr ⟨_, rfl, nodup, fun _ => nonempty⟩
  | enum => exact hm.leaf rfl ▸ permitted_enum
  | scalar fixed => exact hm.leaf rfl ▸ permitted_fixed fixed

end EventAdmission.Enrichment
