import EventAdmission.Proofs.Enrichment.Blended
import EventAdmission.Proofs.Schema.Sound

/-!
# The keywords of a merge make sense

`Piece.sound`: where a piece of the broker's is merged into an owner's schema
that compiles, or into a value that makes sense for a keyword, the result does.
Beside a reference nothing has to make sense; otherwise the owner's keywords
that read what the broker writes still find something that they can use.
-/

namespace EventAdmission.Enrichment

open Schema Evaluation

variable {draft : Draft} {olds source news siblings siblings' entries : Members}
  {value result v x : Json} {old : Option Json} {keyword : Option String} {key : String}
  {scope : Scope}

/-- A schema compiles, or a keyword makes sense with a value whatever stands beside it. -/
def Sound (scope : Scope) : (keyword : Option String) → (value : Json) → Prop
  | none, x => Compiles scope x
  | some "additionalProperties", v => Compiles scope v
  | some "properties", v => NamedSound scope v
  | some key, v => ∀ siblings, MemberCompiles scope siblings (key, v)

def loneKeywords : List String := ["enum", "items", "pattern", "required", "type"]

theorem sound_lone (hkey : key ∈ loneKeywords) :
    Sound scope (some key) v ↔ ∀ siblings, MemberCompiles scope siblings (key, v) := by
  simp only [loneKeywords, List.mem_cons, List.not_mem_nil, or_false] at hkey
  rcases hkey with rfl | rfl | rfl | rfl | rfl <;> rfl

theorem memberCompiles_lone (hkey : key ∈ loneKeywords)
    (h : MemberCompiles scope siblings (key, v)) : MemberCompiles scope siblings' (key, v) := by
  simp only [loneKeywords, List.mem_cons, List.not_mem_nil, or_false] at hkey
  rcases hkey with rfl | rfl | rfl | rfl | rfl <;> exact h

theorem memberCompiles_items :
    MemberCompiles scope siblings ("items", .obj entries) ↔ Compiles scope (.obj entries) := by
  have hrule : Rule.ofMember scope.draft siblings "items" (.obj entries) =
      .ok (some (.eachItem (.obj entries))) := rfl
  rw [memberCompiles_rule hrule]
  exact partsCompile_single

theorem lone_or_property (h : key ∈ pieceKeywords) :
    key = "additionalProperties" ∨ key = "properties" ∨ key ∈ loneKeywords := by
  have hall : ∀ key ∈ pieceKeywords,
      key = "additionalProperties" ∨ key = "properties" ∨ key ∈ loneKeywords := by decide
  exact hall key h

theorem sound_of_compiles (hsound : PropertiesSound scope olds)
    (hothers : ∀ e ∈ olds, e.1 ∉ propertyKeywords → MemberCompiles scope olds e)
    (hkey : key ∈ pieceKeywords) (hx : Keyed.find? olds key = some x) :
    Sound scope (some key) x := by
  rcases lone_or_property hkey with rfl | rfl | hlone
  · exact hsound.additional x hx
  · exact hsound.properties x hx
  · have hnot : ∀ key ∈ loneKeywords, key ∉ propertyKeywords := by decide
    exact (sound_lone hlone).mpr fun siblings =>
      memberCompiles_lone hlone (hothers _ (Keyed.mem_of_find? hx) (hnot key hlone))

theorem sound_required_append {items : List Json} {names : List String}
    (hitems : items = [] ∨ Sound scope (some "required") (.arr items)) :
    Sound scope (some "required") (.arr (items ++ names.map .str)) := by
  obtain ⟨others, rfl⟩ : ∃ others : List String, items = others.map .str := by
    rcases hitems with rfl | hitems
    · exact ⟨[], rfl⟩
    · have hrule : Rule.ofMember scope.draft [] "required" (.arr items) =
          some <$> (.required <$> Rule.namesOf (.arr items)) := rfl
      obtain ⟨rule, hr, -⟩ := hitems []
      obtain ⟨_, hrequired, -⟩ := map_ok.mp (hrule.symm.trans hr)
      obtain ⟨others, hothers, -⟩ := map_ok.mp hrequired
      exact ⟨others, Rule.namesOf_arr.mp hothers⟩
  intro siblings
  rw [← List.map_append]
  exact memberCompiles_required

-- ---------------------------------------------------------------------------
-- Merges
-- ---------------------------------------------------------------------------

/-- The owner's rule for further items reads the same, or there is none any more. -/
theorem memberCompiles_additionalItems (hm : MergedMembers olds source news)
    (hpieces : ∀ e ∈ source, Piece (some e.1) e.2)
    (h : MemberCompiles scope olds ("additionalItems", v)) :
    MemberCompiles scope news ("additionalItems", v) := by
  have hrule : ∀ siblings, Rule.ofMember scope.draft siblings "additionalItems" v =
      Rule.additionalItemsOf siblings v := fun _ => rfl
  cases hi : Keyed.find? source "items" with
  | none =>
    obtain ⟨r, hr, hparts⟩ := h
    refine ⟨r, ?_, hparts⟩
    rw [hrule, Rule.additionalItemsOf, hm.other "items" hi, ← Rule.additionalItemsOf, ← hrule, hr]
  | some value =>
    obtain ⟨entries, rfl⟩ := (hpieces _ (Keyed.mem_of_find? hi)).items_obj
    obtain ⟨result, hresult, hmerged⟩ := hm.same "items" _ hi (by decide)
    obtain ⟨news, rfl⟩ := hmerged.isObj
    refine memberCompiles_none ?_
    rw [hrule, Rule.additionalItemsOf, hresult]

theorem sound_members (hm : MergedMembers olds source news)
    (hpieces : ∀ e ∈ source, Piece (some e.1) e.2) (hs : Keyed.Sorted news)
    (hsound : PropertiesSound scope olds)
    (hothers : ∀ e ∈ olds, e.1 ∉ propertyKeywords → MemberCompiles scope olds e)
    (hall : ∀ key ∈ pieceKeywords, ∀ x, Keyed.find? news key = some x → Sound scope (some key) x) :
    PropertiesSound scope news ∧
      ∀ e ∈ news, e.1 ∉ propertyKeywords → MemberCompiles scope news e := by
  have hkept : ∀ {key}, key ∉ pieceKeywords → Keyed.find? news key = Keyed.find? olds key :=
    fun hkey => hm.other _ (find?_of_pieces hpieces hkey)
  refine ⟨⟨fun v hv => ?_, fun v hv => ?_, fun v hv => ?_⟩, fun ⟨key, x⟩ he hkey => ?_⟩
  · exact hall "properties" (by decide) v hv
  · have hpatterns : "patternProperties" ∉ pieceKeywords := by decide
    exact hsound.patterns v (hkept hpatterns ▸ hv)
  · exact hall "additionalProperties" (by decide) v hv
  · have hx : Keyed.find? news key = some x := Keyed.find?_of_mem hs he
    by_cases hpiece : key ∈ pieceKeywords
    · rcases lone_or_property hpiece with rfl | rfl | hlone
      · exact absurd (List.mem_cons_self ..) hkey
      · exact absurd (by simp [propertyKeywords]) hkey
      · exact (sound_lone hlone).mp (hall key hpiece x hx) news
    · have hold : MemberCompiles scope olds (key, x) :=
        hothers _ (Keyed.mem_of_find? (hkept hpiece ▸ hx)) hkey
      by_cases hitems : key = "additionalItems"
      · subst hitems
        exact memberCompiles_additionalItems hm hpieces hold
      · have hplain : ∀ k ∈ plainKeywords, k ∉ pieceKeywords := by decide
        obtain ⟨r, hr, hparts⟩ := hold
        refine ⟨r, (ofMember_plain (fun k hk => hkept (hplain k hk)) ?_).trans hr, hparts⟩
        exact List.not_mem_cons_of_ne_of_not_mem hitems hkey

theorem compiles_nil : Compiles scope (.obj []) := by
  rw [compiles_of_members (by cases scope.draft <;> rfl) rfl]
  exact List.forall_mem_nil _

theorem sound_fixed {text : String} (h : (key, .str text) ∈ fixedMembers) :
    Sound scope (some key) (.str text) := by
  simp only [fixedMembers, stringSchema_eq, uuidSchema_eq, Json.strings, List.mem_cons,
    List.not_mem_nil, or_false, Prod.mk.injEq, reduceCtorEq, and_false, false_or, Json.str.injEq] at h
  rcases h with ⟨rfl, rfl⟩ | ⟨rfl, rfl⟩ | ⟨rfl, rfl⟩ | ⟨rfl, rfl⟩
  · exact fun _ => memberCompiles_pattern Uuid.ofKeyword?_uuidPattern
  · exact fun _ => memberCompiles_type .array
  · exact fun _ => memberCompiles_type .object
  · exact fun _ => memberCompiles_type .string

theorem Piece.sound (h : Piece keyword value) (hs : value.Canonical) (hv : Nameless value)
    (hm : Merged old value result)
    (hold : ∀ x, old = some x → x.Canonical ∧ Nameless x ∧ Sound scope keyword x) :
    Sound scope keyword result := by
  induction h generalizing old result with
  | @schema source hpieces ih =>
    have hn : ListsNames (.obj source) := (Piece.schema hpieces).listsNames
    obtain ⟨olds, news, ⟨hcanonical, hnameless, hcompiles⟩, rfl, hmembers⟩ :=
      hm.members_of hs.1 ⟨⟨.nil, trivial⟩, nameless_nil, compiles_nil⟩ hold
    have hid : id? scope.draft (.obj news) = none :=
      hmembers.id?_eq_none hv.self hnameless.self
    have href : Keyed.find? news "$ref" = Keyed.find? olds "$ref" :=
      hmembers.other _ (find?_of_pieces hpieces (by decide))
    -- Beside a reference of the owner's no keyword counts; the broker writes no references.
    cases hr : Keyed.find? olds "$ref" with
    | some r => exact compiles_of_ref hr (href.trans hr) (hnameless.self.trans hid.symm) hcompiles
    | none =>
      obtain ⟨hsound, hothers⟩ := (compiles_iff_sound hcanonical.1 hnameless.self hr).mp hcompiles
      have hsorted := hmembers.sorted hcanonical.1
      refine (compiles_iff_sound hsorted hid (href.trans hr)).mpr
        (sound_members hmembers hpieces hsorted hsound hothers fun key hkey x hx => ?_)
      rcases hmembers.mem hcanonical.1 hn (Keyed.mem_of_find? hx) with
        he | ⟨v, hfind, hmerged⟩ | ⟨items, names, -, -, hitems, heq⟩
      · exact sound_of_compiles hsound hothers hkey (Keyed.find?_of_mem hcanonical.1 he)
      · refine ih (key, v) (Keyed.mem_of_find? hfind) (Json.canonical_of_find? hs.2 hfind)
          ((nameless_obj.mp hv).2 _ (Keyed.mem_of_find? hfind)) hmerged fun y hy => ?_
        exact ⟨Json.canonical_of_find? hcanonical.2 hy,
          (nameless_obj.mp hnameless).2 _ (Keyed.mem_of_find? hy),
          sound_of_compiles hsound hothers hkey hy⟩
      · obtain ⟨rfl, rfl⟩ := Prod.mk.inj heq
        exact sound_required_append (oldNames_cases hitems fun x hx =>
          sound_of_compiles hsound hothers (by decide) hx)
  | @properties entries hschemas unlisted ih =>
    have hn : ListsNames (.obj entries) := (Piece.properties hschemas unlisted).listsNames
    obtain ⟨olds, news, ⟨hcanonical, hnameless, _, ⟨⟩, hcompile⟩, rfl, hmembers⟩ :=
      hm.members_of hs.1 ⟨⟨.nil, trivial⟩, nameless_nil, [], rfl, List.forall_mem_nil _⟩ hold
    refine ⟨news, rfl, fun e he => ?_⟩
    rcases hmembers.mem hcanonical.1 hn he with he | ⟨v, hfind, hmerged⟩ | ⟨_, _, hnames, -⟩
    · exact hcompile e he
    · refine ih _ (Keyed.mem_of_find? hfind) (Json.canonical_of_find? hs.2 hfind)
        ((nameless_obj.mp hv).2 _ (Keyed.mem_of_find? hfind)) hmerged fun x hx => ?_
      exact ⟨Json.canonical_of_find? hcanonical.2 hx,
        (nameless_obj.mp hnameless).2 _ (Keyed.mem_of_find? hx), hcompile _ (Keyed.mem_of_find? hx)⟩
    · cases unlisted.symm.trans hnames
  | additional _ ih => exact ih hs hv hm hold
  | items _ ih =>
    obtain ⟨news, rfl⟩ := hm.isObj
    refine fun siblings => memberCompiles_items.mpr (ih hs hv hm fun x hx => ?_)
    obtain ⟨olds, rfl⟩ := hm.old_obj hx
    obtain ⟨hcanonical, hnameless, hsound⟩ := hold _ hx
    exact ⟨hcanonical, hnameless, memberCompiles_items.mp (hsound [])⟩
  | required _ _ => exact hm.leaf rfl ▸ fun _ => memberCompiles_required
  | enum => exact hm.leaf rfl ▸ fun _ => memberCompiles_plain rfl rfl
  | scalar fixed => exact hm.leaf rfl ▸ sound_fixed fixed

end EventAdmission.Enrichment
