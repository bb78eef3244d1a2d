import EventAdmission.Proofs.Json.Reading
import EventAdmission.Proofs.Keyed

/-!
# Reading typed values

Each reader of a typed value succeeds for the written values of one shape. Of a list of
fields and of an object with its members the parts are taken in turn, so their shape is put
together from the shapes of the parts (`decodesItems_field`, `gives_record`).
-/

namespace EventAdmission

open Cursor Written

variable {α β σ : Type} {s : Cursor} {t u start : List Char} {first : Bool} {x : Written}
  {xs : List Written} {members : List (List StringPiece × Written)} {fuel room : Nat} {a : α}
  {expected : String}

-- ---------------------------------------------------------------------------
-- Strings and choices
-- ---------------------------------------------------------------------------

theorem unexpected_ne_ok : (s.unexpected expected : Except ReadError α) ≠ .ok a := by
  intro h
  simp only [unexpected] at h
  split at h
  · obtain ⟨_, -, h⟩ := bind_ok.mp h
    cases h
  · obtain ⟨_, -, h⟩ := bind_ok.mp h
    cases h
  · obtain ⟨_, -, h⟩ := bind_ok.mp h
    cases h
  · obtain ⟨_, -, h⟩ := bind_ok.mp h
    cases h
  · cases h
  · cases h
  · split at h
    · obtain ⟨_, -, h⟩ := bind_ok.mp h
      cases h
    · cases h
  · cases h

@[simp] theorem not_gives_unexpected : ¬ Gives (s.unexpected expected) a t :=
  fun ⟨_, h, _⟩ => unexpected_ne_ok h

theorem gives_text {text : String} : Gives (s.text expected) text t ↔
    ∃ pieces, Blanks s.rest (quotedPieces pieces t) ∧ textOf? pieces = some text := by
  simp only [Cursor.text]
  constructor
  · intro h
    split at h
    · rename_i hp
      obtain ⟨pieces, hs, htext⟩ := gives_string.mp h
      have hquoted : s.skipBlanks.rest = quotedPieces pieces t :=
        (rest_of_peek? hp).trans (by rw [hs]; rfl)
      exact ⟨pieces, hquoted ▸ blanks_skipBlanks, htext⟩
    · exact absurd h not_gives_unexpected
  · rintro ⟨pieces, hblanks, htext⟩
    have hs := skipBlanks_rest hblanks unblank_quotedPieces
    simp only [peek?_of_rest hs]
    exact gives_string.mpr ⟨pieces, skip_of_rest hs, htext⟩

theorem decodes_text : Decodes (·.text expected) string? := by
  intro s text t _
  rw [gives_text]
  constructor
  · rintro ⟨pieces, hblanks, htext⟩
    exact ⟨.string pieces, _, hblanks, rfl, htext⟩
  · rintro ⟨x, start, hblanks, hx, htext⟩
    cases x with
    | string pieces =>
      obtain rfl : start = _ := hx
      exact ⟨pieces, hblanks, htext⟩
    | _ => cases htext

theorem leaves_unit : Leaves s.unit t ↔ Blanks s.rest ('n' :: 'u' :: 'l' :: 'l' :: t) := by
  simp only [Cursor.unit]
  constructor
  · intro h
    split at h
    · rename_i hp
      have hs := rest_of_peek? hp
      rw [leaves_word.mp h] at hs
      have hblanks : Blanks s.rest s.skipBlanks.rest := blanks_skipBlanks
      exact hs ▸ hblanks
    · obtain ⟨_, h, -⟩ := h
      exact absurd h unexpected_ne_ok
  · intro h
    have hs := skipBlanks_rest h (unblank_cons.mpr (by decide))
    simp only [peek?_of_rest hs]
    exact leaves_word.mpr (skip_of_rest hs)

theorem gives_variant {known : List (String × α)} {name : String} :
    Gives (variant known name s) a t ↔ Keyed.find? known name = some a ∧ s.rest = t := by
  rw [variant, Keyed.find?_eq_list]
  cases known.find? (·.1 == name) with
  | none => simp
  | some e => simp

section

variable {known : List (String × α)}

theorem gives_choice_string (hp : s.skipBlanks.peek? = some '"') :
    Gives (s.choice known room) a t ↔ ∃ pieces, s.skipBlanks.rest = quotedPieces pieces t ∧
      (textOf? pieces).bind (Keyed.find? known) = some a := by
  simp only [choice, hp]
  rw [gives_bind]
  constructor
  · rintro ⟨name, s₁, hs₁, h⟩
    obtain ⟨hname, rfl⟩ := gives_variant.mp h
    obtain ⟨pieces, hrest, htext⟩ := gives_string.mp ⟨s₁, hs₁, rfl⟩
    exact ⟨pieces, (rest_of_peek? hp).trans (by rw [hrest]; rfl), by rw [htext]; exact hname⟩
  · rintro ⟨pieces, hrest, hname⟩
    obtain ⟨name, htext, hname⟩ := Option.bind_eq_some_iff.mp hname
    obtain ⟨s₁, hs₁, hleft⟩ := gives_string.mpr ⟨pieces, skip_of_rest hrest, htext⟩
    exact ⟨name, s₁, hs₁, gives_variant.mpr ⟨hname, hleft⟩⟩

theorem gives_choice_quoted (hp : s.peek? = some '"') :
    Gives (s.choice known room) a t ↔ ∃ pieces, s.rest = quotedPieces pieces t ∧
      (textOf? pieces).bind (Keyed.find? known) = some a := by
  have hs : s.skipBlanks.rest = s.rest :=
    skipBlanks_rest blanks_refl (rest_of_peek? hp ▸ unblank_cons.mpr (by decide))
  have hp' : s.skipBlanks.peek? = some '"' := by rw [peek?, hs]; exact hp
  rw [gives_choice_string hp', hs]

theorem gives_choice_object (hroom : 0 < room) (hp : s.skipBlanks.peek? = some '\x7b') :
    Gives (s.choice known room) a t ↔ ∃ key, (object [(key, .null)]).Spans s.skipBlanks.rest t ∧
      (textOf? key).bind (Keyed.find? known) = some a := by
  have hs := rest_of_peek? hp
  simp only [choice, hp, if_neg (Nat.ne_of_gt hroom)]
  constructor
  · intro h
    obtain ⟨name, s₁, hs₁, h⟩ := gives_bind.mp h
    obtain ⟨b, s₂, hs₂, h⟩ := gives_bind.mp h
    obtain ⟨s₃, hs₃, h⟩ := gives_step.mp h
    obtain ⟨s₄, hs₄, h⟩ := gives_step.mp h
    obtain ⟨key, hkey, htext⟩ := gives_text.mp ⟨s₁, hs₁, rfl⟩
    obtain ⟨hname, hplace⟩ := gives_variant.mp ⟨s₂, hs₂, rfl⟩
    have hcolon := leaves_colon.mp ⟨s₃, hs₃, rfl⟩
    have hunit := leaves_unit.mp ⟨s₄, hs₄, rfl⟩
    have hbrace : Blanks s₄.rest s₄.skipBlanks.rest := blanks_skipBlanks
    dsimp only at h hunit
    split at h
    · rename_i hp'
      obtain ⟨rfl, rfl⟩ := gives_ok_iff.mp h
      have hclose : Blanks s₄.rest ('\x7d' :: s₄.skipBlanks.skip.rest) := rest_of_peek? hp' ▸ hbrace
      rw [← hplace] at hcolon
      exact ⟨key, ⟨_, hs, _, s₁.rest, s₃.rest, _, s₄.rest, rfl, hkey, hcolon, hunit, rfl, hclose⟩,
        by rw [htext]; exact hname⟩
    · simp at h
    · simp at h
  · rintro ⟨key, ⟨body, hbody, opened, afterKey, afterColon, start, rest, rfl, hkey, hcolon, hnull,
      hstart, hclose⟩, ha⟩
    obtain ⟨name, htext, hname⟩ := Option.bind_eq_some_iff.mp ha
    obtain rfl : start = _ := hstart
    have hbrace : Blanks rest ('\x7d' :: t) := hclose
    obtain ⟨s₁, hs₁, rfl⟩ := gives_text.mpr ⟨key, (skip_of_rest hbody).symm ▸ hkey, htext⟩
    obtain ⟨s₂, hs₂, hplace⟩ := gives_variant.mpr ⟨hname, rfl⟩
    obtain ⟨s₃, hs₃, rfl⟩ := leaves_colon.mpr (hplace.symm ▸ hcolon)
    obtain ⟨s₄, hs₄, rfl⟩ := leaves_unit.mpr hnull
    have hend := skipBlanks_rest hbrace (unblank_cons.mpr (by decide))
    refine gives_bind.mpr ⟨name, s₁, hs₁, gives_bind.mpr ⟨a, s₂, hs₂, gives_step.mpr ⟨s₃, hs₃,
      gives_step.mpr ⟨s₄, hs₄, ?_⟩⟩⟩⟩
    simp only [peek?_of_rest hend]
    exact gives_ok_iff.mpr ⟨rfl, skip_of_rest hend⟩

theorem choice_start (h : Gives (s.choice known room) a t) :
    s.skipBlanks.peek? = some '"' ∨ s.skipBlanks.peek? = some '\x7b' := by
  simp only [choice] at h
  split at h
  · simp at h
  · exact .inl ‹_›
  · exact .inr ‹_›
  · simp at h

theorem decodes_choice (hroom : 0 < room) : Decodes (·.choice known room) (choice? known) := by
  intro s a t _
  constructor
  · intro h
    rcases choice_start h with hp | hp
    · obtain ⟨pieces, hrest, ha⟩ := (gives_choice_string hp).mp h
      exact ⟨.string pieces, _, blanks_skipBlanks, hrest, ha⟩
    · obtain ⟨key, hx, ha⟩ := (gives_choice_object hroom hp).mp h
      exact ⟨.object [(key, .null)], _, blanks_skipBlanks, hx, ha⟩
  · rintro ⟨x, start, hblanks, hx, ha⟩
    have hs : s.skipBlanks.rest = start := skipBlanks_rest hblanks hx.unblank
    unfold choice? at ha
    split at ha
    · have hstart : start = quotedPieces _ t := hx
      exact (gives_choice_string (peek?_of_rest (hs.trans hstart))).mpr ⟨_, hs.trans hstart, ha⟩
    · obtain ⟨body, hstart, -⟩ := id hx
      exact (gives_choice_object hroom (peek?_of_rest (hs.trans hstart))).mpr ⟨_, hs ▸ hx, ha⟩
    · cases ha

end

-- ---------------------------------------------------------------------------
-- Lists of strings
-- ---------------------------------------------------------------------------

theorem textItems_sound {texts : List String} (h : Gives (textItems fuel first s) texts t) :
    ∃ xs, SpansItems first xs s.rest t ∧ xs.mapM string? = some texts := by
  induction fuel generalizing first s texts with
  | zero => exact absurd h not_gives_failHere
  | succ fuel ih =>
    rw [textItems] at h
    obtain ⟨next, hnext, h⟩ := gives_step.mp h
    cases next with
    | none =>
      obtain ⟨rfl, rfl⟩ := gives_ok_iff.mp h
      exact ⟨[], nextItem?_none hnext, rfl⟩
    | some s' =>
      obtain ⟨text, s₁, hs₁, h⟩ := gives_bind.mp h
      obtain ⟨rest, s₂, hs₂, h⟩ := gives_bind.mp h
      obtain ⟨rfl, rfl⟩ := gives_ok_iff.mp h
      obtain ⟨xs, hxs, hrest⟩ := ih ⟨s₂, hs₂, rfl⟩
      obtain ⟨x, start, hstart, hx, htext⟩ :=
        (decodes_text s' text _ (spansItems_over hxs)).mp ⟨s₁, hs₁, rfl⟩
      exact ⟨x :: xs, spansItems_step hnext hstart hx hxs, by simp [htext, hrest]⟩

theorem textItems_complete {texts : List String} (h : SpansItems first xs s.rest t)
    (htexts : xs.mapM string? = some texts) (hfuel : s.rest.length < fuel) :
    Gives (textItems fuel first s) texts t := by
  induction fuel generalizing first s xs texts with
  | zero => cases hfuel
  | succ fuel ih =>
    rw [textItems]
    cases xs with
    | nil =>
      obtain rfl := Option.some.inj htexts
      obtain ⟨hnext, hleft⟩ := nextItem?_of_close first h
      exact gives_step.mpr ⟨none, hnext, gives_ok_iff.mpr ⟨rfl, hleft⟩⟩
    | cons x xs =>
      obtain ⟨s', u, hnext, hx, hxs, hlong, hshort⟩ := exists_nextItem? h
      obtain ⟨text, htext, others, hothers, rfl⟩ : ∃ text, string? x = some text ∧
          ∃ others, xs.mapM string? = some others ∧ text :: others = texts := by
        simpa [List.mapM_cons, Option.bind_eq_some_iff] using htexts
      obtain ⟨s₁, hs₁, rfl⟩ := (decodes_text s' text u (spansItems_over hxs)).mpr
        ⟨x, _, blanks_refl, hx, htext⟩
      obtain ⟨s₂, hs₂, hleft⟩ := ih hxs hothers (by omega)
      exact gives_step.mpr ⟨some s', hnext, gives_bind.mpr ⟨text, s₁, hs₁,
        gives_bind.mpr ⟨others, s₂, hs₂, gives_ok_iff.mpr ⟨rfl, hleft⟩⟩⟩⟩

theorem decodes_texts (hroom : 0 < room) : Decodes (·.texts room) texts? := by
  have hne : ¬ room = 0 := by omega
  intro s texts t _
  simp only [Cursor.texts]
  constructor
  · intro h
    split at h
    · rename_i hp
      rw [if_neg hne] at h
      obtain ⟨xs, hxs, htexts⟩ := textItems_sound h
      exact ⟨.list xs, _, blanks_skipBlanks, ⟨_, rest_of_peek? hp, hxs⟩, htexts⟩
    · exact absurd h not_gives_unexpected
  · rintro ⟨x, start, hblanks, hx, htexts⟩
    cases x with
    | list xs =>
      obtain ⟨body, rfl, hxs⟩ := hx
      have hs := skipBlanks_rest hblanks (unblank_cons.mpr (by decide))
      have hbody := skip_of_rest hs
      simp only [peek?_of_rest hs, if_neg hne]
      exact textItems_complete (hbody ▸ hxs) htexts (by rw [Cursor.fuel, hs, List.length_cons, hbody]; omega)
    | _ => cases htexts

end EventAdmission
