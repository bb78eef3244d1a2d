import EventAdmission.EventType.Decoding
import EventAdmission.Proofs.Outcome

/-!
# The fields of an event type

An object is taken apart in the same way whatever its values are. `gathered?` fills the
fields from the members in their order, and `gathered?_eq_some` tells the outcome from
the members of each field alone: of a field with two members, under one spelling or two,
nothing comes.
-/

namespace EventAdmission.EventType

variable {β : Type} {p q : Parts} {f g : Field} {key : String} {x : β} {ms : List (String × β)}
  {t : EventType}

-- ---------------------------------------------------------------------------
-- One field among the others
-- ---------------------------------------------------------------------------

def Field.Content : Field → Type
  | name => String
  | category => Category
  | schema => Json
  | significantFields => List String

namespace Parts

def get (p : Parts) : (f : Field) → Option f.Content
  | .name => p.name
  | .category => p.category
  | .schema => p.schema
  | .significantFields => p.significantFields

def put (p : Parts) : (f : Field) → f.Content → Parts
  | .name, v => { p with name := some v }
  | .category, v => { p with category := some v }
  | .schema, v => { p with schema := some v }
  | .significantFields, v => { p with significantFields := some v }

theorem has_eq : p.has f = (p.get f).isSome := by cases f <;> rfl

@[simp] theorem get_put_self {v : f.Content} : (p.put f v).get f = some v := by cases f <;> rfl

theorem get_put_of_ne {v : f.Content} (h : g ≠ f) : (p.put f v).get g = p.get g := by
  cases f <;> cases g <;> first | rfl | exact absurd rfl h

theorem ext_get (h : ∀ f, p.get f = q.get f) : p = q := by
  obtain ⟨_, _, _, _⟩ := p
  obtain ⟨_, _, _, _⟩ := q
  simp only [mk.injEq]
  exact ⟨h .name, h .category, h .schema, h .significantFields⟩

end Parts

-- ---------------------------------------------------------------------------
-- The members of a field
-- ---------------------------------------------------------------------------

def valuesUnder (key : String) (ms : List (String × β)) : List β :=
  ms.filterMap fun e => if e.1 = key then some e.2 else none

def valuesOf (f : Field) (ms : List (String × β)) : List β :=
  ms.filterMap fun e => if Field.ofKey? e.1 = some f then some e.2 else none

theorem valuesOf_cons : valuesOf f ((key, x) :: ms) =
    if Field.ofKey? key = some f then x :: valuesOf f ms else valuesOf f ms := by
  unfold valuesOf
  rw [List.filterMap_cons]
  by_cases h : Field.ofKey? key = some f <;> simp [h]

theorem valuesUnder_cons {k : String} : valuesUnder key ((k, x) :: ms) =
    if k = key then x :: valuesUnder key ms else valuesUnder key ms := by
  unfold valuesUnder
  rw [List.filterMap_cons]
  by_cases h : k = key <;> simp [h]

def Field.keys : Field → List String
  | name => ["name"]
  | category => ["category"]
  | schema => ["schema"]
  | significantFields => ["significant_fields", "partition_key_fields"]

theorem ofKey?_eq_some : Field.ofKey? key = some f ↔ key ∈ f.keys := by
  constructor
  · intro h
    unfold Field.ofKey? at h
    split at h <;> cases h <;> decide
  · intro h
    cases f <;> simp only [Field.keys, List.mem_cons, List.not_mem_nil, or_false] at h
    · exact h ▸ rfl
    · exact h ▸ rfl
    · exact h ▸ rfl
    · rcases h with rfl | rfl <;> rfl

theorem valuesOf_eq (h : f.keys = [key]) : valuesOf f ms = valuesUnder key ms := by
  unfold valuesOf valuesUnder
  simp only [ofKey?_eq_some, h, List.mem_singleton]

-- ---------------------------------------------------------------------------
-- Gathering
-- ---------------------------------------------------------------------------

variable {decode : (f : Field) → β → Option f.Content}

def gathered? (decode : (f : Field) → β → Option f.Content) :
    Parts → List (String × β) → Option Parts
  | p, [] => some p
  | p, (key, x) :: ms =>
    match Field.ofKey? key with
    | none => gathered? decode p ms
    | some f => if p.has f then none else (decode f x).bind fun v => gathered? decode (p.put f v) ms

def Filled (decode : (f : Field) → β → Option f.Content) (p q : Parts) (f : Field) : List β → Prop
  | [] => q.get f = p.get f
  | [x] => p.get f = none ∧ ∃ v, decode f x = some v ∧ q.get f = some v
  | _ :: _ :: _ => False

theorem filled_cons {vs : List β} : Filled decode p q f (x :: vs) ↔
    p.get f = none ∧ ∃ v, decode f x = some v ∧ Filled decode (p.put f v) q f vs := by
  cases vs with
  | nil => simp [Filled]
  | cons y vs =>
    cases vs with
    | nil => simp [Filled]
    | cons z vs => simp [Filled]

theorem filled_put {vs : List β} {v : g.Content} (h : f ≠ g) :
    Filled decode (p.put g v) q f vs ↔ Filled decode p q f vs := by
  rcases vs with _ | ⟨x, _ | ⟨y, vs⟩⟩ <;> simp [Filled, Parts.get_put_of_ne h]

theorem gathered?_eq_some : gathered? decode p ms = some q ↔
    ∀ f, Filled decode p q f (valuesOf f ms) := by
  induction ms generalizing p with
  | nil =>
    rw [gathered?, Option.some.injEq]
    constructor
    · rintro rfl f
      exact rfl
    · exact fun h => (Parts.ext_get h).symm
  | cons e ms ih =>
    obtain ⟨key, x⟩ := e
    rw [gathered?]
    cases hkey : Field.ofKey? key with
    | none => simp [ih, valuesOf_cons, hkey]
    | some g =>
      simp only [Parts.has_eq]
      by_cases hhas : p.get g = none
      · simp only [hhas, Option.isSome_none, Bool.false_eq_true, ↓reduceIte]
        rw [Option.bind_eq_some_iff]
        constructor
        · rintro ⟨v, hv, h⟩ f
          have hrest := ih.mp h f
          rw [valuesOf_cons, hkey]
          by_cases hf : g = f
          · subst hf
            rw [if_pos rfl]
            exact filled_cons.mpr ⟨hhas, v, hv, hrest⟩
          · rw [if_neg (by simpa using hf)]
            exact (filled_put (Ne.symm hf)).mp hrest
        · intro h
          have hg := h g
          rw [valuesOf_cons, hkey, if_pos rfl, filled_cons] at hg
          obtain ⟨-, v, hv, hg⟩ := hg
          refine ⟨v, hv, ih.mpr fun f => ?_⟩
          by_cases hf : g = f
          · subst hf
            exact hg
          · have hrest := h f
            rw [valuesOf_cons, hkey, if_neg (by simpa using hf)] at hrest
            exact (filled_put (Ne.symm hf)).mpr hrest
      · have hsome : (p.get g).isSome = true := Option.isSome_iff_ne_none.mpr hhas
        simp only [hsome, ↓reduceIte, reduceCtorEq, false_iff]
        intro h
        have hg := h g
        rw [valuesOf_cons, hkey, if_pos rfl, filled_cons] at hg
        exact hhas hg.1

theorem filled_iff {vs : List β} : Filled decode {} q f vs ↔
    (vs = [] ∧ q.get f = none) ∨ ∃ x v, vs = [x] ∧ decode f x = some v ∧ q.get f = some v := by
  have hnone : ({} : Parts).get f = none := by cases f <;> rfl
  rcases vs with _ | ⟨x, _ | ⟨y, vs⟩⟩ <;> simp [Filled, hnone]

theorem Filled.none {vs : List β} (h : Filled decode {} q f vs) (hq : q.get f = none) : vs = [] := by
  rcases filled_iff.mp h with ⟨hvs, -⟩ | ⟨x, v, -, -, hv⟩
  · exact hvs
  · rw [hq] at hv
    cases hv

theorem Filled.some {vs : List β} {v : f.Content} (h : Filled decode {} q f vs)
    (hq : q.get f = some v) : ∃ x, vs = [x] ∧ decode f x = some v := by
  rcases filled_iff.mp h with ⟨-, hv⟩ | ⟨x, w, hvs, hx, hw⟩
  · rw [hq] at hv
    cases hv
  · exact ⟨x, hvs, by rw [hx, ← hw, hq]⟩

theorem finish_eq_ok : p.finish = .ok t ↔ p.name = some t.name ∧ p.category = some t.category ∧
    p.schema = some t.schema ∧ p.significantFields.getD [] = t.significantFields := by
  obtain ⟨name, category, schema, fields⟩ := p
  obtain ⟨_, _, _, _⟩ := t
  cases name <;> cases category <;> cases schema <;> simp [Parts.finish]

/-- An object is an event type if it has one member for each field; the significant fields may be
left out, and are empty then. -/
theorem gathered?_finish :
    (gathered? decode {} ms).bind (fun p => p.finish.toOption) = some t ↔
      (∃ x, valuesOf .name ms = [x] ∧ decode .name x = some t.name) ∧
      (∃ x, valuesOf .category ms = [x] ∧ decode .category x = some t.category) ∧
      (∃ x, valuesOf .schema ms = [x] ∧ decode .schema x = some t.schema) ∧
      (valuesOf .significantFields ms = [] ∧ t.significantFields = [] ∨
        ∃ x, valuesOf .significantFields ms = [x] ∧
          decode .significantFields x = some t.significantFields) := by
  rw [Option.bind_eq_some_iff]
  constructor
  · rintro ⟨q, hq, hfinish⟩
    obtain ⟨hname, hcategory, hschema, hfields⟩ := finish_eq_ok.mp (toOption_eq_some.mp hfinish)
    have hfilled := gathered?_eq_some.mp hq
    refine ⟨(hfilled .name).some hname, (hfilled .category).some hcategory,
      (hfilled .schema).some hschema, ?_⟩
    cases hget : q.significantFields with
    | none =>
      rw [hget] at hfields
      exact .inl ⟨(hfilled .significantFields).none hget, hfields.symm⟩
    | some fields =>
      rw [hget] at hfields
      exact .inr ((hfilled .significantFields).some (hget.trans (congrArg some hfields)))
  · rintro ⟨⟨n, hname, hn⟩, ⟨c, hcategory, hc⟩, ⟨x, hschema, hx⟩, hfields⟩
    have hgiven : ∃ fields : Option (List String), fields.getD [] = t.significantFields ∧
        Filled decode {} ⟨some t.name, some t.category, some t.schema, fields⟩ .significantFields
          (valuesOf .significantFields ms) := by
      rcases hfields with ⟨hnone, hempty⟩ | ⟨y, hone, hy⟩
      · exact ⟨none, hempty.symm, by rw [hnone]; rfl⟩
      · exact ⟨some t.significantFields, rfl, by rw [hone]; exact ⟨rfl, _, hy, rfl⟩⟩
    obtain ⟨fields, hget, hfilled⟩ := hgiven
    refine ⟨⟨some t.name, some t.category, some t.schema, fields⟩, gathered?_eq_some.mpr fun f => ?_,
      toOption_eq_some.mpr (finish_eq_ok.mpr ⟨rfl, rfl, rfl, hget⟩)⟩
    cases f with
    | name => rw [hname]; exact ⟨rfl, _, hn, rfl⟩
    | category => rw [hcategory]; exact ⟨rfl, _, hc, rfl⟩
    | schema => rw [hschema]; exact ⟨rfl, _, hx, rfl⟩
    | significantFields => exact hfilled

-- ---------------------------------------------------------------------------
-- The two spellings
-- ---------------------------------------------------------------------------

theorem valuesOf_perm : (valuesOf .significantFields ms).Perm
    (valuesUnder "significant_fields" ms ++ valuesUnder "partition_key_fields" ms) := by
  induction ms with
  | nil => exact .refl _
  | cons e ms ih =>
    obtain ⟨key, x⟩ := e
    have hof : Field.ofKey? key = some .significantFields ↔
        key = "significant_fields" ∨ key = "partition_key_fields" := by
      simp [ofKey?_eq_some, Field.keys]
    rw [valuesOf_cons, valuesUnder_cons, valuesUnder_cons]
    by_cases hnew : key = "significant_fields"
    · have hold : key ≠ "partition_key_fields" := by
        rw [hnew]
        decide
      rw [if_pos (hof.mpr (.inl hnew)), if_pos hnew, if_neg hold]
      exact ih.cons x
    · rw [if_neg hnew]
      by_cases hold : key = "partition_key_fields"
      · rw [if_pos (hof.mpr (.inr hold)), if_pos hold]
        exact (ih.cons x).trans List.perm_middle.symm
      · rw [if_neg fun h => (hof.mp h).elim hnew hold, if_neg hold]
        exact ih

/-- The members hold the event type: one value for each field, the list of significant fields
under one of its two keys, or under none if it is empty. Members under other keys are free. -/
structure ObjectOf (holds : Field → β → Prop) (t : EventType) (ms : List (String × β)) : Prop where
  name : ∃ x, valuesUnder "name" ms = [x] ∧ holds .name x
  category : ∃ x, valuesUnder "category" ms = [x] ∧ holds .category x
  schema : ∃ x, valuesUnder "schema" ms = [x] ∧ holds .schema x
  fields :
    valuesUnder "significant_fields" ms = [] ∧ valuesUnder "partition_key_fields" ms = [] ∧
        t.significantFields = [] ∨
      ∃ x, holds .significantFields x ∧
        (valuesUnder "significant_fields" ms = [x] ∧ valuesUnder "partition_key_fields" ms = [] ∨
          valuesUnder "significant_fields" ms = [] ∧ valuesUnder "partition_key_fields" ms = [x])

def content (t : EventType) : (f : Field) → f.Content
  | .name => t.name
  | .category => t.category
  | .schema => t.schema
  | .significantFields => t.significantFields

theorem gathered?_iff {holds : Field → β → Prop}
    (hdecode : ∀ f x, decode f x = some (t.content f) ↔ holds f x) :
    (gathered? decode {} ms).bind (fun p => p.finish.toOption) = some t ↔ ObjectOf holds t ms := by
  have hone : ∀ f key, f.keys = [key] →
      ((∃ x, valuesOf f ms = [x] ∧ decode f x = some (t.content f)) ↔
        ∃ x, valuesUnder key ms = [x] ∧ holds f x) := by
    intro f key hkeys
    simp only [valuesOf_eq hkeys, hdecode]
  have hperm : (valuesOf .significantFields ms).Perm
      (valuesUnder "significant_fields" ms ++ valuesUnder "partition_key_fields" ms) := valuesOf_perm
  rw [gathered?_finish]
  constructor
  · rintro ⟨hname, hcategory, hschema, hfields⟩
    refine ⟨(hone .name _ rfl).mp hname, (hone .category _ rfl).mp hcategory,
      (hone .schema _ rfl).mp hschema, ?_⟩
    rcases hfields with ⟨hnone, hempty⟩ | ⟨x, hvalues, hx⟩
    · rw [hnone] at hperm
      obtain ⟨hnew, hold⟩ := List.append_eq_nil_iff.mp (List.nil_perm.mp hperm)
      exact .inl ⟨hnew, hold, hempty⟩
    · rw [hvalues] at hperm
      refine .inr ⟨x, (hdecode _ x).mp hx, ?_⟩
      rcases List.append_eq_singleton_iff.mp (List.singleton_perm.mp hperm).symm with
        ⟨hnew, hold⟩ | ⟨hnew, hold⟩
      · exact .inr ⟨hnew, hold⟩
      · exact .inl ⟨hnew, hold⟩
  · rintro ⟨hname, hcategory, hschema, hfields⟩
    refine ⟨(hone .name _ rfl).mpr hname, (hone .category _ rfl).mpr hcategory,
      (hone .schema _ rfl).mpr hschema, ?_⟩
    rcases hfields with ⟨hnew, hold, hempty⟩ | ⟨x, hx, ⟨hnew, hold⟩ | ⟨hnew, hold⟩⟩ <;>
      rw [hnew, hold] at hperm
    · exact .inl ⟨List.perm_nil.mp hperm, hempty⟩
    · exact .inr ⟨x, List.perm_singleton.mp hperm, (hdecode _ x).mpr hx⟩
    · exact .inr ⟨x, List.perm_singleton.mp hperm, (hdecode _ x).mpr hx⟩

-- ---------------------------------------------------------------------------
-- Lists
-- ---------------------------------------------------------------------------

/-- The items hold the event type: its fields in their order, the last one left out if it is
empty. -/
def ListOf (holds : Field → β → Prop) (t : EventType) (items : List β) : Prop :=
  ∃ name category schema rest, items = name :: category :: schema :: rest ∧ holds .name name ∧
    holds .category category ∧ holds .schema schema ∧
    (rest = [] ∧ t.significantFields = [] ∨ ∃ x, rest = [x] ∧ holds .significantFields x)

end EventAdmission.EventType
