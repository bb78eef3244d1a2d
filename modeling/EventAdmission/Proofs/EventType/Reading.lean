import EventAdmission.Proofs.EventType.Fields
import EventAdmission.Proofs.Json.Records

/-!
# What an event type's text says

A text is read as an event type exactly if it spells a written value that an event type
can be taken from (`EventType.read_iff`). The members of an object are gathered by the
names that their keys stand for (`taken?_eq_gathered?`).
-/

namespace EventAdmission.EventType

open Cursor Written

variable {text key : String} {t : EventType} {p q : Parts} {x : Written}
  {members : List (List StringPiece × Written)} {ms : List (String × Written)} {room : Nat}

-- ---------------------------------------------------------------------------
-- The fields in a text
-- ---------------------------------------------------------------------------

def decodeWritten (room : Nat) : (f : Field) → Written → Option f.Content
  | .name => string?
  | .category => choice? Category.names
  | .schema => json? room
  | .significantFields => texts?

/-- A member of the object; what is there already is not given twice. -/
def takeMember (room : Nat) (p : Parts) (key : String) (x : Written) : Option Parts :=
  match Field.ofKey? key with
  | none => some p
  | some f => if p.has f then none else p.put f <$> decodeWritten room f x

def ofWritten? (room : Nat) : Written → Option EventType :=
  recordOf?
    (fieldThen none string? fun name => fieldThen none (choice? Category.names) fun category =>
      fieldThen none (json? room) fun schema => fieldThen (some []) texts? fun fields =>
        lastField ⟨name, category, schema, fields⟩)
    fun members => (taken? textOf? (takeMember room) {} members).bind fun p => p.finish.toOption

theorem carries_memberPlan (hroom : 0 < room) (key : String) (p : Parts) :
    Carries (memberPlan room key p) (takeMember room p key) p := by
  unfold memberPlan
  cases hkey : Field.ofKey? key with
  | none =>
    intro x
    simp [takeMember, hkey]
  | some f =>
    by_cases hhas : p.has f = true
    · simp only [hhas, ↓reduceIte]
      intro x
      simp [takeMember, hkey, hhas]
    · simp only [hhas, Bool.false_eq_true, ↓reduceIte]
      have htake : takeMember room p key = fun x => p.put f <$> decodeWritten room f x := by
        funext x
        simp [takeMember, hkey, hhas]
      rw [htake]
      cases f with
      | name => exact decodes_text.map (p.put .name)
      | category => exact (decodes_choice hroom).map (p.put .category)
      | schema => exact (decodes_readWithin room).map (p.put .schema)
      | significantFields => exact (decodes_texts hroom).map (p.put .significantFields)

def innerRoom : Nat := nestingLimit - 1

theorem decodes_readAt : Decodes readAt (ofWritten? innerRoom) := by
  refine decodes_record (decodesItems_field decodes_text fun name =>
    decodesItems_field (decodes_choice (by decide)) fun category =>
      decodesItems_field (decodes_readWithin _) fun schema =>
        decodesItems_field (decodes_texts (by decide)) fun fields => decodesItems_close)
    fun s t u => ?_
  exact gives_record fun key p => carries_memberPlan (by decide) key p

theorem read_iff : read text = .ok t ↔
    ∃ doc : Written, doc.SpelledBy text ∧ ofWritten? innerRoom doc = some t :=
  decodes_readAt.whole

-- ---------------------------------------------------------------------------
-- Members by their names
-- ---------------------------------------------------------------------------

def named? (members : List (List StringPiece × Written)) : Option (List (String × Written)) :=
  members.mapM fun e => (·, e.2) <$> textOf? e.1

theorem named?_cons {pieces : List StringPiece} : named? ((pieces, x) :: members) = some ms ↔
    ∃ key rest, textOf? pieces = some key ∧ named? members = some rest ∧ ms = (key, x) :: rest := by
  simp only [named?, List.mapM_cons, Option.bind_eq_bind, Option.bind_eq_some_iff, Option.pure_def,
    Option.some.injEq]
  constructor
  · rintro ⟨e, he, rest, hrest, rfl⟩
    obtain ⟨key, hkey, rfl⟩ := Option.map_eq_some_iff.mp he
    exact ⟨key, rest, hkey, hrest, rfl⟩
  · rintro ⟨key, rest, hkey, hrest, rfl⟩
    exact ⟨(key, x), Option.map_eq_some_iff.mpr ⟨key, hkey, rfl⟩, rest, hrest, rfl⟩

theorem valuesUnder_named (h : named? members = some ms) : valuesUnder key ms = under key members := by
  induction members generalizing ms with
  | nil =>
    obtain rfl := Option.some.inj h
    rfl
  | cons e members ih =>
    obtain ⟨pieces, x⟩ := e
    obtain ⟨k, rest, hk, hrest, rfl⟩ := named?_cons.mp h
    have htail := ih hrest
    unfold under at htail ⊢
    rw [valuesUnder_cons, htail, List.filterMap_cons]
    by_cases hkey : k = key <;> simp [hk, hkey]

theorem taken?_eq_gathered? : taken? textOf? (takeMember room) p members = some q ↔
    ∃ ms, named? members = some ms ∧ gathered? (decodeWritten room) p ms = some q := by
  induction members generalizing p with
  | nil =>
    constructor
    · exact fun h => ⟨[], rfl, h⟩
    · rintro ⟨ms, hms, h⟩
      obtain rfl := Option.some.inj hms
      exact h
  | cons e members ih =>
    obtain ⟨pieces, x⟩ := e
    have hstep : ∀ key rest, (takeMember room p key x).bind
        (fun p => gathered? (decodeWritten room) p rest) =
          gathered? (decodeWritten room) p ((key, x) :: rest) := by
      intro key rest
      rw [takeMember, gathered?]
      cases Field.ofKey? key with
      | none => rfl
      | some f =>
        by_cases hhas : p.has f = true
        · simp [hhas]
        · dsimp only
          rw [if_neg hhas, if_neg hhas, Option.map_eq_map, Option.bind_map]
          rfl
    simp only [taken?, Option.bind_eq_bind, Option.bind_eq_some_iff, ih]
    constructor
    · rintro ⟨key, hkey, p', htake, rest, hrest, h⟩
      refine ⟨(key, x) :: rest, named?_cons.mpr ⟨key, rest, hkey, hrest, rfl⟩, ?_⟩
      rw [← hstep, htake]
      exact h
    · rintro ⟨ms, hms, h⟩
      obtain ⟨key, rest, hkey, hrest, rfl⟩ := named?_cons.mp hms
      rw [← hstep] at h
      obtain ⟨p', htake, h⟩ := Option.bind_eq_some_iff.mp h
      exact ⟨key, hkey, p', htake, rest, hrest, h⟩

end EventAdmission.EventType
