import EventAdmission.Proofs.Category
import EventAdmission.Proofs.EventType.Reading
import EventAdmission.Proofs.Json.Printed

/-!
# Encodings of event types

An event type has many encodings: an object or the list of its fields, the significant
fields under either key or left out if there are none, the category as a string or as an
object, further members in between. All of them are decoded to it, as values and as
texts; an object with both keys of the significant fields is decoded to nothing
(`encodings`).
-/

namespace EventAdmission.EventType

open Written

variable {β γ : Type} {t t' : EventType} {f : Field} {p : Parts} {x : Json} {doc : Written}
  {items : List Json} {text : String}

-- ---------------------------------------------------------------------------
-- Values
-- ---------------------------------------------------------------------------

def decodeJson : (f : Field) → Json → Option f.Content
  | .name, x => (decodeText x).toOption
  | .category, x => (decodeCategory x).toOption
  | .schema, x => some x
  | .significantFields, x => (decodeTexts x).toOption

def InJson (t : EventType) (f : Field) (x : Json) : Prop :=
  match f with
  | .name => x = .str t.name
  | .category => x = .str t.category.name ∨ x = .obj [(t.category.name, .null)]
  | .schema => x = t.schema
  | .significantFields => x = .strings t.significantFields

/-- A value is an encoding of the event type. -/
def EncodedAs (t : EventType) : Json → Prop
  | .obj ms => ObjectOf t.InJson t ms
  | .arr items => ListOf t.InJson t items
  | _ => False

theorem toOption_bind {ε α : Type} {e : Except ε α} {g : α → Except ε β} :
    (e >>= g).toOption = e.toOption.bind fun a => (g a).toOption := by
  cases e <;> rfl

theorem decodeField_toOption : (decodeField p f x).toOption = p.put f <$> decodeJson f x := by
  cases f with
  | schema => rfl
  | name =>
    rw [decodeField, toOption_bind, decodeJson]
    cases decodeText x <;> rfl
  | category =>
    rw [decodeField, toOption_bind, decodeJson]
    cases decodeCategory x <;> rfl
  | significantFields =>
    rw [decodeField, toOption_bind, decodeJson]
    cases decodeTexts x <;> rfl

theorem decodeMembers_toOption {ms : List (String × Json)} :
    (decodeMembers p ms).toOption = gathered? decodeJson p ms := by
  induction ms generalizing p with
  | nil => rfl
  | cons e ms ih =>
    obtain ⟨key, x⟩ := e
    rw [decodeMembers, gathered?]
    cases Field.ofKey? key with
    | none => exact ih
    | some f =>
      dsimp only
      split
      · rfl
      · rw [toOption_bind, decodeField_toOption]
        simp only [ih, Option.map_eq_map, Option.bind_map]
        rfl

theorem ofJson_obj {ms : List (String × Json)} : (ofJson (.obj ms)).toOption =
    (gathered? decodeJson {} ms).bind fun p => p.finish.toOption := by
  rw [ofJson, toOption_bind, decodeMembers_toOption]

theorem decodeName_eq_ok {name : String} {c : Category} : decodeName name = .ok c ↔ name = c.name := by
  rw [← Category.find?_names, decodeName, Keyed.find?_eq_list]
  cases Category.names.find? (·.1 == name) with
  | none => simp
  | some e => simp

theorem decodeCategory_eq_ok : decodeCategory x = .ok t.category ↔ t.InJson .category x := by
  constructor
  · intro h
    unfold decodeCategory at h
    split at h
    · exact .inl (congrArg Json.str (decodeName_eq_ok.mp h))
    · obtain ⟨c, hc, h⟩ := bind_ok.mp h
      split at h
      · cases h
        exact .inr (by rw [decodeName_eq_ok.mp hc])
      · cases h
    · cases h
    · cases h
  · rintro (rfl | rfl)
    · exact decodeName_eq_ok.mpr rfl
    · exact bind_ok.mpr ⟨_, decodeName_eq_ok.mpr rfl, rfl⟩

theorem decodeText_eq_ok {name : String} : decodeText x = .ok name ↔ x = .str name := by
  cases x <;> simp [decodeText]

theorem mapM_decodeText_eq_ok {names : List String} :
    items.mapM decodeText = .ok names ↔ items = names.map Json.str := by
  induction items generalizing names with
  | nil => cases names <;> simp [pure, Except.pure]
  | cons item items ih =>
    rw [List.mapM_cons]
    constructor
    · intro h
      obtain ⟨name, hname, h⟩ := bind_ok.mp h
      obtain ⟨rest, hrest, h⟩ := bind_ok.mp h
      cases h
      rw [decodeText_eq_ok.mp hname, ih.mp hrest, List.map_cons]
    · intro h
      cases names with
      | nil => cases h
      | cons name names =>
        obtain ⟨rfl, hrest⟩ := List.cons.inj h
        exact bind_ok.mpr ⟨name, rfl, bind_ok.mpr ⟨names, ih.mpr hrest, rfl⟩⟩

theorem decodeTexts_eq_ok {names : List String} : decodeTexts x = .ok names ↔ x = .strings names := by
  cases x with
  | arr items => simpa [decodeTexts, Json.strings] using mapM_decodeText_eq_ok
  | _ => simp [decodeTexts, Json.strings]

theorem decodeJson_iff (f : Field) (x : Json) :
    decodeJson f x = some (t.content f) ↔ t.InJson f x := by
  cases f with
  | name => exact toOption_eq_some.trans decodeText_eq_ok
  | category => exact toOption_eq_some.trans decodeCategory_eq_ok
  | schema => exact Option.some_inj
  | significantFields => exact toOption_eq_some.trans decodeTexts_eq_ok

theorem decodeItems_ok_long (h : decodeItems items = .ok t) :
    ∃ name category schema rest, items = name :: category :: schema :: rest := by
  rcases items with _ | ⟨name, _ | ⟨category, _ | ⟨schema, rest⟩⟩⟩
  · cases h
  · obtain ⟨_, -, h⟩ := bind_ok.mp h
    obtain ⟨_, -, h⟩ := bind_ok.mp h
    cases h
  · obtain ⟨_, -, h⟩ := bind_ok.mp h
    obtain ⟨_, -, h⟩ := bind_ok.mp h
    obtain ⟨_, -, h⟩ := bind_ok.mp h
    obtain ⟨_, -, h⟩ := bind_ok.mp h
    cases h
  · exact ⟨name, category, schema, rest, rfl⟩

theorem decodeItems_cons {name category schema : Json} {rest : List Json} :
    decodeItems (name :: category :: schema :: rest) =
      decodeText name >>= fun n => decodeCategory category >>= fun c =>
        (match rest with
          | x :: _ => decodeTexts x
          | [] => pure []) >>= fun fields =>
        if 4 < rest.length + 3 then .error (.wrongLength (rest.length + 3) "fewer elements in array")
        else pure ⟨n, c, schema, fields⟩ := by
  cases rest <;> rfl

theorem decodeItems_eq_ok : decodeItems items = .ok t ↔ ListOf t.InJson t items := by
  constructor
  · intro h
    obtain ⟨name, category, schema, rest, rfl⟩ := decodeItems_ok_long h
    rw [decodeItems_cons] at h
    obtain ⟨n, hn, h⟩ := bind_ok.mp h
    obtain ⟨c, hc, h⟩ := bind_ok.mp h
    obtain ⟨fields, hfields, h⟩ := bind_ok.mp h
    split at h
    · cases h
    · rename_i hlength
      cases h
      refine ⟨name, category, schema, rest, rfl, decodeText_eq_ok.mp hn, decodeCategory_eq_ok.mp hc,
        rfl, ?_⟩
      rcases rest with _ | ⟨x, _ | ⟨y, rest⟩⟩
      · cases hfields
        exact .inl ⟨rfl, rfl⟩
      · exact .inr ⟨x, rfl, decodeTexts_eq_ok.mp hfields⟩
      · simp at hlength
  · rintro ⟨name, category, schema, rest, rfl, hname, hcategory, rfl, hrest⟩
    rw [decodeItems_cons]
    refine bind_ok.mpr ⟨_, decodeText_eq_ok.mpr hname, bind_ok.mpr ⟨_, decodeCategory_eq_ok.mpr hcategory, ?_⟩⟩
    rcases hrest with ⟨rfl, hempty⟩ | ⟨x, rfl, hx⟩
    · exact bind_ok.mpr ⟨[], rfl, by rw [← hempty]; rfl⟩
    · exact bind_ok.mpr ⟨_, decodeTexts_eq_ok.mpr hx, rfl⟩

theorem ofJson_iff : ofJson x = .ok t ↔ t.EncodedAs x := by
  cases x with
  | obj ms => rw [← toOption_eq_some, ofJson_obj, gathered?_iff decodeJson_iff]; rfl
  | arr items => exact decodeItems_eq_ok
  | _ => exact iff_of_false nofun id

theorem ObjectOf.not_both {holds : Field → β → Prop} {ms : List (String × β)} (h : ObjectOf holds t ms) :
    valuesUnder "significant_fields" ms = [] ∨ valuesUnder "partition_key_fields" ms = [] := by
  rcases h.fields with ⟨hnew, -⟩ | ⟨-, -, ⟨-, hold⟩ | ⟨hnew, -⟩⟩
  · exact .inl hnew
  · exact .inr hold
  · exact .inl hnew

-- ---------------------------------------------------------------------------
-- Texts
-- ---------------------------------------------------------------------------

def InText (t : EventType) (f : Field) (x : Written) : Prop :=
  match f with
  | .name => x.string? = some t.name
  | .category => x.string? = some t.category.name ∨
      ∃ key, x = .object [(key, .null)] ∧ textOf? key = some t.category.name
  | .schema => x.json? innerRoom = some t.schema
  | .significantFields => x.texts? = some t.significantFields

def WrittenAs (t : EventType) : Written → Prop
  | .object members => ∃ ms, named? members = some ms ∧ ObjectOf t.InText t ms
  | .list items => ListOf t.InText t items
  | _ => False

theorem decodeWritten_iff (f : Field) (x : Written) :
    decodeWritten innerRoom f x = some (t.content f) ↔ t.InText f x := by
  cases f with
  | category =>
    have hbind : ∀ key : List StringPiece,
        (textOf? key).bind (Keyed.find? Category.names) = some t.category ↔
          textOf? key = some t.category.name := by
      intro key
      simp [Option.bind_eq_some_iff, Category.find?_names]
    change x.choice? Category.names = some t.category ↔ _
    unfold choice?
    split
    · rename_i pieces
      rw [hbind]
      exact ⟨.inl, fun h => h.elim id fun ⟨_, h, _⟩ => nomatch h⟩
    · rename_i key
      rw [hbind]
      refine ⟨fun h => .inr ⟨key, rfl, h⟩, fun h => h.elim nofun ?_⟩
      rintro ⟨_, ⟨⟩, h⟩
      exact h
    · rename_i hstring hobject
      refine iff_of_false nofun ?_
      rintro (h | ⟨key, rfl, -⟩)
      · cases x with
        | string pieces => exact hstring pieces rfl
        | _ => cases h
      · exact hobject key rfl
  | _ => rfl

theorem ofWritten?_list {items : List Written} :
    ofWritten? innerRoom (.list items) = some t ↔ ListOf t.InText t items := by
  constructor
  · intro h
    rcases items with _ | ⟨name, _ | ⟨category, _ | ⟨schema, rest⟩⟩⟩
    · cases h
    · obtain ⟨n, -, h⟩ := Option.bind_eq_some_iff.mp h
      cases h
    · obtain ⟨n, -, h⟩ := Option.bind_eq_some_iff.mp h
      obtain ⟨c, -, h⟩ := Option.bind_eq_some_iff.mp h
      cases h
    · obtain ⟨n, hn, h⟩ := Option.bind_eq_some_iff.mp h
      obtain ⟨c, hc, h⟩ := Option.bind_eq_some_iff.mp h
      obtain ⟨j, hj, h⟩ := Option.bind_eq_some_iff.mp h
      rcases rest with _ | ⟨x, rest⟩
      · cases h
        exact ⟨_, _, _, _, rfl, (decodeWritten_iff .name _).mp hn,
          (decodeWritten_iff .category _).mp hc, (decodeWritten_iff .schema _).mp hj,
          .inl ⟨rfl, rfl⟩⟩
      · obtain ⟨fields, hfields, h⟩ := Option.bind_eq_some_iff.mp h
        cases rest with
        | nil =>
          cases h
          exact ⟨_, _, _, _, rfl, (decodeWritten_iff .name _).mp hn,
            (decodeWritten_iff .category _).mp hc, (decodeWritten_iff .schema _).mp hj,
            .inr ⟨x, rfl, (decodeWritten_iff .significantFields _).mp hfields⟩⟩
        | cons y rest => cases h
  · rintro ⟨name, category, schema, rest, rfl, hname, hcategory, hschema, hrest⟩
    refine Option.bind_eq_some_iff.mpr ⟨_, (decodeWritten_iff .name _).mpr hname,
      Option.bind_eq_some_iff.mpr ⟨_, (decodeWritten_iff .category _).mpr hcategory,
        Option.bind_eq_some_iff.mpr ⟨_, (decodeWritten_iff .schema _).mpr hschema, ?_⟩⟩⟩
    rcases hrest with ⟨rfl, hempty⟩ | ⟨x, rfl, hx⟩
    · exact congrArg some (by rw [← hempty]; rfl)
    · exact Option.bind_eq_some_iff.mpr ⟨_, (decodeWritten_iff .significantFields _).mpr hx, rfl⟩

theorem ofWritten?_iff : ofWritten? innerRoom doc = some t ↔ t.WrittenAs doc := by
  cases doc with
  | object members =>
    simp only [ofWritten?, recordOf?, WrittenAs, ← gathered?_iff decodeWritten_iff,
      Option.bind_eq_some_iff, taken?_eq_gathered?]
    constructor
    · rintro ⟨q, ⟨ms, hms, hq⟩, hfinish⟩
      exact ⟨ms, hms, q, hq, hfinish⟩
    · rintro ⟨ms, hms, q, hq, hfinish⟩
      exact ⟨q, ⟨ms, hms, hq⟩, hfinish⟩
  | list items => exact ofWritten?_list
  | _ => exact iff_of_false nofun id

theorem read_eq_ok : read text = .ok t ↔ ∃ doc : Written, doc.SpelledBy text ∧ t.WrittenAs doc := by
  simp only [read_iff, ofWritten?_iff]

-- ---------------------------------------------------------------------------
-- Printed event types
-- ---------------------------------------------------------------------------

/-- The members in the order of the declaration; `toJson` has them in the order of their keys. -/
def members (t : EventType) : List (String × Json) :=
  [("name", .str t.name), ("category", .str t.category.name), ("schema", t.schema),
    ("significant_fields", .strings t.significantFields)]

theorem toJson_eq : ∃ ms, t.toJson = .obj ms ∧ ms.Perm t.members := by
  refine ⟨[("category", .str t.category.name), ("name", .str t.name), ("schema", t.schema),
    ("significant_fields", .strings t.significantFields)], ?_, .swap _ _ _⟩
  simp only [toJson, Json.ofMembers, Keyed.ofList, List.foldl_cons, List.foldl_nil, Keyed.insert,
    String.reduceEq, String.reduceLT, ↓reduceIte]

/-- What counts are the values under each key, in whatever order the members come. -/
theorem ObjectOf.transfer {holds : Field → β → Prop} {holds' : Field → γ → Prop} {g : β → γ}
    {ms : List (String × β)} {ms' : List (String × γ)} (h : ObjectOf holds t ms)
    (hvalues : ∀ key, (valuesUnder key ms').Perm ((valuesUnder key ms).map g))
    (hg : ∀ f x, holds f x → holds' f (g x)) : ObjectOf holds' t ms' := by
  have hone : ∀ key x, valuesUnder key ms = [x] → valuesUnder key ms' = [g x] := by
    intro key x hx
    have hperm := hvalues key
    rw [hx] at hperm
    exact List.perm_singleton.mp hperm
  have hnone : ∀ key, valuesUnder key ms = [] → valuesUnder key ms' = [] := by
    intro key hx
    have hperm := hvalues key
    rw [hx] at hperm
    exact List.perm_nil.mp hperm
  obtain ⟨⟨n, hn, hname⟩, ⟨c, hc, hcategory⟩, ⟨x, hx, hschema⟩, hfields⟩ := h
  refine ⟨⟨_, hone _ n hn, hg _ _ hname⟩, ⟨_, hone _ c hc, hg _ _ hcategory⟩,
    ⟨_, hone _ x hx, hg _ _ hschema⟩, ?_⟩
  rcases hfields with ⟨hnew, hold, hempty⟩ | ⟨y, hy, ⟨hnew, hold⟩ | ⟨hnew, hold⟩⟩
  · exact .inl ⟨hnone _ hnew, hnone _ hold, hempty⟩
  · exact .inr ⟨g y, hg _ _ hy, .inl ⟨hone _ y hnew, hnone _ hold⟩⟩
  · exact .inr ⟨g y, hg _ _ hy, .inr ⟨hnone _ hnew, hone _ y hold⟩⟩

theorem objectOf_members : ObjectOf t.InJson t t.members :=
  ⟨⟨_, rfl, rfl⟩, ⟨_, rfl, .inl rfl⟩, ⟨_, rfl, rfl⟩, .inr ⟨_, rfl, .inl ⟨rfl, rfl⟩⟩⟩

theorem encodedAs_members {ms : List (String × Json)} (h : ms.Perm t.members) :
    t.EncodedAs (.obj ms) :=
  objectOf_members.transfer (g := id) (fun key => by rw [List.map_id]; exact h.filterMap _)
    fun _ _ h => h

theorem named?_written {ms : List (String × Json)} :
    named? (Json.writtenMembers ms) = some (ms.map fun e => (e.1, Json.written e.2)) := by
  induction ms with
  | nil => rfl
  | cons e ms ih => exact named?_cons.mpr ⟨e.1, _, textOf?_piecesOf, ih, rfl⟩

theorem valuesUnder_map {g : β → γ} {key : String} {ms : List (String × β)} :
    valuesUnder key (ms.map fun e => (e.1, g e.2)) = (valuesUnder key ms).map g := by
  induction ms with
  | nil => rfl
  | cons e ms ih =>
    rw [List.map_cons, valuesUnder_cons, valuesUnder_cons, ih]
    split <;> rfl

theorem inText_written (hcanonical : t.schema.Canonical) (hfloatless : t.schema.Floatless)
    (hnesting : t.schema.nesting ≤ innerRoom) (h : t.InJson f x) : t.InText f (Json.written x) := by
  cases f with
  | name =>
    obtain rfl : x = _ := h
    exact Json.string?_written
  | category =>
    rcases h with rfl | rfl
    · exact .inl Json.string?_written
    · exact .inr ⟨_, rfl, textOf?_piecesOf⟩
  | schema =>
    obtain rfl : x = _ := h
    exact Json.json?_written hcanonical hfloatless hnesting
  | significantFields =>
    obtain rfl : x = _ := h
    exact Json.texts?_written

theorem read_printed {ms : List (String × Json)} (hcanonical : t.schema.Canonical)
    (hfloatless : t.schema.Floatless) (hnesting : t.schema.nesting ≤ innerRoom)
    (h : ms.Perm t.members) : read (Json.obj ms).text = .ok t := by
  have hwritten : t.WrittenAs (Json.written (.obj ms)) := by
    refine ⟨_, named?_written, objectOf_members.transfer (g := Json.written) (fun key => ?_)
      fun f x => inText_written hcanonical hfloatless hnesting⟩
    rw [valuesUnder_map]
    exact (h.filterMap _).map _
  refine read_eq_ok.mpr
    ⟨_, Json.spelledBy_text (Json.floatless_obj.mpr fun e he => ?_), hwritten⟩
  have hmem := h.mem_iff.mp he
  simp only [members, List.mem_cons, List.not_mem_nil, or_false] at hmem
  rcases hmem with rfl | rfl | rfl | rfl
  · exact Json.floatless_str
  · exact Json.floatless_str
  · exact hfloatless
  · exact Json.floatless_strings

-- ---------------------------------------------------------------------------
-- All encodings
-- ---------------------------------------------------------------------------

/-- An event type is decoded from its own encoding, as a value, and as a text if the schema holds
no float and is not nested too deep. What is decoded to it, as a value or as a text, are its
encodings, all of them; and no object with both keys of the significant fields is decoded. -/
theorem encodings (t : EventType) :
    ofJson t.toJson = .ok t ∧
    (t.schema.Canonical → t.schema.Floatless → t.schema.nesting ≤ 126 →
      read t.toJson.text = .ok t ∧
      ∀ ms : List (String × Json), ms.Perm t.members → read (Json.obj ms).text = .ok t) ∧
    (∀ x, ofJson x = .ok t ↔ t.EncodedAs x) ∧
    (∀ text, read text = .ok t ↔ ∃ doc : Written, doc.SpelledBy text ∧ t.WrittenAs doc) ∧
    (∀ ms : List (String × Json), valuesUnder "significant_fields" ms ≠ [] →
      valuesUnder "partition_key_fields" ms ≠ [] → ofJson (.obj ms) ≠ .ok t) ∧
    ∀ (members : List (List StringPiece × Written)) text, under "significant_fields" members ≠ [] →
      under "partition_key_fields" members ≠ [] → (Written.object members).SpelledBy text →
        read text ≠ .ok t := by
  obtain ⟨ms, hms, hperm⟩ := toJson_eq (t := t)
  rw [hms]
  refine ⟨ofJson_iff.mpr (encodedAs_members hperm), fun hcanonical hfloatless hnesting =>
    ⟨read_printed hcanonical hfloatless hnesting hperm, fun ms' hperm' =>
      read_printed hcanonical hfloatless hnesting hperm'⟩, fun x => ofJson_iff,
    fun text => read_eq_ok, fun ms hnew hold h => ?_, fun members text hnew hold hdoc h => ?_⟩
  · rcases (ofJson_iff.mp h : ObjectOf t.InJson t ms).not_both with h | h
    · exact hnew h
    · exact hold h
  · obtain ⟨doc, hdoc', hwritten⟩ := read_eq_ok.mp h
    obtain rfl := hdoc'.unique hdoc
    obtain ⟨ms, hms, hobject⟩ := hwritten
    rcases hobject.not_both with h | h
    · exact hnew (valuesUnder_named hms ▸ h)
    · exact hold (valuesUnder_named hms ▸ h)

def reading : EventType :=
  ⟨"reading", .business, .obj [("maximum", .num (.natural 7)), ("type", .str "integer")], ["id"]⟩

def readingByOldKey : List (String × Json) :=
  [("category", .obj [("business", .null)]), ("name", .str "reading"),
    ("partition_key_fields", .strings ["id"]), ("schema", reading.schema), ("unit", .str "K")]

def readingByBothKeys : List (String × Json) :=
  readingByOldKey ++ [("significant_fields", .strings [])]

theorem encodings_reading : read reading.toJson.text = .ok reading ∧
    ofJson (.obj readingByOldKey) = .ok reading ∧
    ofJson (.obj readingByBothKeys) ≠ .ok reading ∧
    read (Json.obj readingByBothKeys).text ≠ .ok reading := by
  have hcanonical : reading.schema.Canonical := by
    simp only [reading, Json.Canonical, Json.CanonicalMembers, Keyed.Sorted]
    decide
  have hfloatless : reading.schema.Floatless := by
    simp [reading, Json.Floatless, Json.values, Json.valuesInMembers]
  have hobject : reading.EncodedAs (.obj readingByOldKey) :=
    ⟨⟨_, rfl, rfl⟩, ⟨_, rfl, .inr rfl⟩, ⟨_, rfl, rfl⟩, .inr ⟨_, rfl, .inr ⟨rfl, rfl⟩⟩⟩
  have hboth : (Json.obj readingByBothKeys).Floatless := by
    simp [readingByBothKeys, readingByOldKey, Json.floatless_obj, hfloatless]
  obtain ⟨-, htext, hvalue, -, hrefused, hrefused'⟩ := encodings reading
  refine ⟨(htext hcanonical hfloatless (by decide)).1, (hvalue _).mpr hobject,
    hrefused _ (by decide) (by decide), ?_⟩
  have hunder : ∀ key, valuesUnder key readingByBothKeys ≠ [] →
      under key (Json.writtenMembers readingByBothKeys) ≠ [] := by
    intro key hvalues hunder
    rw [← valuesUnder_named named?_written, valuesUnder_map, List.map_eq_nil_iff] at hunder
    exact hvalues hunder
  exact hrefused' (Json.writtenMembers readingByBothKeys) _ (hunder _ (by decide))
    (hunder _ (by decide)) (Json.spelledBy_text hboth)

end EventAdmission.EventType
