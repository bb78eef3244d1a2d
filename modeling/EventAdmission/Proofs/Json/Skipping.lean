import EventAdmission.Proofs.Json.Spans
import EventAdmission.Proofs.Json.Strings

/-!
# Skipping values

A value that nobody asks for is passed over, and that succeeds for the values of the
grammar and no others (`leaves_pastValue`): numbers out of range, halves of surrogate
pairs and any depth of brackets are passed. Both directions go by the number of steps,
for values, items and members at once.
-/

namespace EventAdmission

open Cursor Written

variable {s : Cursor} {c : Char} {t u start : List Char} {first : Bool} {x : Written} {xs : List Written}
  {key : List StringPiece} {members : List (List StringPiece × Written)} {fuel : Nat}

def SpansMember (key : List StringPiece) (x : Written) (members : List (List StringPiece × Written))
    (t u : List Char) : Prop :=
  ∃ afterKey afterColon start rest, t = quotedPieces key afterKey ∧
    Blanks afterKey (':' :: afterColon) ∧ Blanks afterColon start ∧ x.Spans start rest ∧
    SpansMembers false members rest u

theorem spansMembers_cons {w : List Char} (hopens : Opens first t u) (hblanks : Blanks u start)
    (h : SpansMember key x members start w) : SpansMembers first ((key, x) :: members) t w := by
  obtain ⟨afterKey, afterColon, value, rest, rfl, h⟩ := h
  exact ⟨u, afterKey, afterColon, value, rest, hopens, hblanks, h⟩

-- ---------------------------------------------------------------------------
-- What is passed is a value
-- ---------------------------------------------------------------------------

structure PassSound (fuel : Nat) : Prop where
  value : ∀ s t, Over t → Leaves (passValue fuel s) t →
    ∃ (x : Written) (start : List Char), Blanks s.rest start ∧ x.Spans start t
  items : ∀ first s t, Leaves (passItems fuel first s) t → ∃ xs, SpansItems first xs s.rest t
  members : ∀ first s t, Leaves (passMembers fuel first s) t →
    ∃ members, SpansMembers first members s.rest t
  member : ∀ s t, Leaves (passMember fuel s) t →
    ∃ key x members, SpansMember key x members s.rest t

theorem passValue_sound (ih : PassSound fuel) (ht : Over t) (h : Leaves (passValue (fuel + 1) s) t) :
    ∃ (x : Written) (start : List Char), Blanks s.rest start ∧ x.Spans start t := by
  suffices hspans : ∃ x : Written, x.Spans s.skipBlanks.rest t by
    obtain ⟨x, hx⟩ := hspans
    exact ⟨x, _, blanks_skipBlanks, hx⟩
  simp only [passValue] at h
  split at h
  · simp at h
  · rename_i hp
    exact ⟨.null, (rest_of_peek? hp).trans (by rw [leaves_word.mp h]; rfl)⟩
  · rename_i hp
    exact ⟨.bool true, (rest_of_peek? hp).trans (by rw [leaves_word.mp h]; rfl)⟩
  · rename_i hp
    exact ⟨.bool false, (rest_of_peek? hp).trans (by rw [leaves_word.mp h]; rfl)⟩
  · rename_i hp
    obtain ⟨pieces, hs⟩ := leaves_skipString.mp h
    exact ⟨.string pieces, (rest_of_peek? hp).trans (by rw [hs]; rfl)⟩
  · rename_i hp
    obtain ⟨xs, hs⟩ := ih.items _ _ _ h
    exact ⟨.list xs, _, rest_of_peek? hp, hs⟩
  · rename_i hp
    obtain ⟨members, hs⟩ := ih.members _ _ _ h
    exact ⟨.object members, _, rest_of_peek? hp, hs⟩
  · split at h
    · obtain ⟨w, hw, hs⟩ := (leaves_skipNumber ht).mp h
      exact ⟨.number w, hw, hs⟩
    · simp at h

theorem passItems_sound (ih : PassSound fuel) (h : Leaves (passItems (fuel + 1) first s) t) :
    ∃ xs, SpansItems first xs s.rest t := by
  have hblanks : Blanks s.rest s.skipBlanks.rest := blanks_skipBlanks
  -- What follows an item is known before the item is: only so a number in it ends.
  have hitem : ∀ s' : Cursor, Leaves (passValue fuel s' >>= passItems fuel false) t →
      ∃ x start rest xs, Blanks s'.rest start ∧ Spans x start rest ∧ SpansItems false xs rest t := by
    rintro s' ⟨s₂, hs₂, rfl⟩
    obtain ⟨s₁, hs₁, hs₂⟩ := bind_ok.mp hs₂
    obtain ⟨xs, hxs⟩ := ih.items _ _ _ ⟨s₂, hs₂, rfl⟩
    obtain ⟨x, start, hstart, hx⟩ := ih.value _ _ (spansItems_over hxs) ⟨s₁, hs₁, rfl⟩
    exact ⟨x, start, s₁.rest, xs, hstart, hx, hxs⟩
  simp only [passItems] at h
  split at h
  · simp at h
  · rename_i hp
    refine ⟨[], ?_⟩
    have hclose : Blanks s.rest (']' :: t) := leaves_ok_iff.mp h ▸ rest_of_peek? hp ▸ hblanks
    exact hclose
  · rename_i hp
    split at h
    · rename_i hfirst
      subst hfirst
      obtain ⟨x, start, rest, xs, hstart, hx, hxs⟩ := hitem _ h
      exact ⟨x :: xs, s.rest, start, rest, rfl, hblanks.trans hstart, hx, hxs⟩
    · rename_i hfirst
      split at h
      · rename_i hcomma
        subst hcomma
        obtain ⟨x, start, rest, xs, hstart, hx, hxs⟩ := hitem _ h
        have hopens : Opens first s.rest s.skipBlanks.skip.rest := by
          rw [Opens, if_neg hfirst]
          exact rest_of_peek? hp ▸ hblanks
        exact ⟨x :: xs, _, start, rest, hopens, hstart, hx, hxs⟩
      · simp at h

theorem passMembers_sound (ih : PassSound fuel) (h : Leaves (passMembers (fuel + 1) first s) t) :
    ∃ members, SpansMembers first members s.rest t := by
  have hblanks : Blanks s.rest s.skipBlanks.rest := blanks_skipBlanks
  simp only [passMembers] at h
  split at h
  · simp at h
  · rename_i hp
    refine ⟨[], ?_⟩
    have hclose : Blanks s.rest ('\x7d' :: t) := leaves_ok_iff.mp h ▸ rest_of_peek? hp ▸ hblanks
    exact hclose
  · rename_i hp
    split at h
    · rename_i hfirst
      subst hfirst
      obtain ⟨key, x, members, hmember⟩ := ih.member _ _ h
      exact ⟨(key, x) :: members, spansMembers_cons (t := s.rest) rfl hblanks hmember⟩
    · rename_i hfirst
      split at h
      · rename_i hcomma
        subst hcomma
        obtain ⟨key, x, members, hmember⟩ := ih.member _ _ h
        have hopens : Opens first s.rest s.skipBlanks.skip.rest := by
          rw [Opens, if_neg hfirst]
          exact rest_of_peek? hp ▸ hblanks
        exact ⟨(key, x) :: members, spansMembers_cons hopens blanks_skipBlanks hmember⟩
      · simp at h

theorem passMember_sound (ih : PassSound fuel) (h : Leaves (passMember (fuel + 1) s) t) :
    ∃ key x members, SpansMember key x members s.rest t := by
  rw [passMember] at h
  split at h
  · simp at h
  · rename_i hp
    obtain ⟨s₄, hs, rfl⟩ := h
    obtain ⟨s₁, hs₁, hs⟩ := bind_ok.mp hs
    obtain ⟨s₂, hs₂, hs⟩ := bind_ok.mp hs
    obtain ⟨s₃, hs₃, hs₄⟩ := bind_ok.mp hs
    obtain ⟨key, hkey⟩ := leaves_skipString.mp ⟨s₁, hs₁, rfl⟩
    obtain ⟨members, hmembers⟩ := ih.members _ _ _ ⟨s₄, hs₄, rfl⟩
    obtain ⟨x, start, hstart, hx⟩ := ih.value _ _ (spansMembers_over hmembers) ⟨s₃, hs₃, rfl⟩
    exact ⟨key, x, members, s₁.rest, s₂.rest, start, s₃.rest,
      (rest_of_peek? hp).trans (by rw [hkey]; rfl), leaves_colon.mp ⟨s₂, hs₂, rfl⟩, hstart, hx,
      hmembers⟩
  · simp at h

theorem passSound (fuel : Nat) : PassSound fuel := by
  induction fuel with
  | zero =>
    exact ⟨fun s t _ h => absurd h not_leaves_failHere, fun _ s t h => absurd h not_leaves_failHere,
      fun _ s t h => absurd h not_leaves_failHere, fun s t h => absurd h not_leaves_failHere⟩
  | succ fuel ih =>
    exact ⟨fun _ _ => passValue_sound ih, fun _ _ _ => passItems_sound ih,
      fun _ _ _ => passMembers_sound ih, fun _ _ => passMember_sound ih⟩

-- ---------------------------------------------------------------------------
-- Every value is passed
-- ---------------------------------------------------------------------------

structure PassComplete (fuel : Nat) : Prop where
  value : ∀ (s : Cursor) (x : Written) start t, Over t → Blanks s.rest start → x.Spans start t →
    2 * start.length ≤ fuel → Leaves (passValue fuel s) t
  items : ∀ first (s : Cursor) xs t, SpansItems first xs s.rest t → 2 * s.rest.length < fuel →
    Leaves (passItems fuel first s) t
  members : ∀ first (s : Cursor) members t, SpansMembers first members s.rest t →
    2 * s.rest.length < fuel → Leaves (passMembers fuel first s) t
  member : ∀ (s : Cursor) key x members t, SpansMember key x members s.rest t →
    2 * s.rest.length ≤ fuel → Leaves (passMember fuel s) t

theorem passValue_number (hs : s.skipBlanks.rest = c :: u) (hc : (c = '-' || isDigit c) = true) :
    passValue (fuel + 1) s = s.skipBlanks.skipNumber := by
  simp only [passValue, peek?_of_rest hs]
  split
  case h_8 c _ _ _ _ _ _ heq =>
    cases heq
    rw [if_pos hc]
  all_goals
    rename_i heq
    cases heq
  all_goals cases hc

theorem passValue_complete (ih : PassComplete fuel) (ht : Over t) (hblanks : Blanks s.rest start)
    (h : x.Spans start t) (hfuel : 2 * start.length ≤ fuel + 1) :
    Leaves (passValue (fuel + 1) s) t := by
  have hstart : s.skipBlanks.rest = start := skipBlanks_rest hblanks h.unblank
  cases x with
  | null =>
    have hs := hstart.trans h
    simp only [passValue, peek?_of_rest hs]
    exact leaves_word.mpr (skip_of_rest hs)
  | bool b =>
    cases b with
    | true =>
      have hs := hstart.trans h
      simp only [passValue, peek?_of_rest hs]
      exact leaves_word.mpr (skip_of_rest hs)
    | false =>
      have hs := hstart.trans h
      simp only [passValue, peek?_of_rest hs]
      exact leaves_word.mpr (skip_of_rest hs)
  | number digits =>
    obtain ⟨hnumber, rfl⟩ := h
    have hleaves := (leaves_skipNumber ht).mpr ⟨digits, hnumber, hstart⟩
    obtain ⟨c, rest, rfl, hc⟩ := hnumber.head
    rwa [passValue_number hstart hc]
  | string pieces =>
    have hs := hstart.trans h
    simp only [passValue, peek?_of_rest hs]
    exact leaves_skipString.mpr ⟨pieces, skip_of_rest hs⟩
  | list xs =>
    obtain ⟨body, rfl, hxs⟩ := h
    simp only [passValue, peek?_of_rest hstart]
    have hbody := skip_of_rest hstart
    rw [List.length_cons] at hfuel
    exact ih.items _ _ xs t (hbody ▸ hxs) (by rw [hbody]; omega)
  | object members =>
    obtain ⟨body, rfl, hmembers⟩ := h
    simp only [passValue, peek?_of_rest hstart]
    have hbody := skip_of_rest hstart
    rw [List.length_cons] at hfuel
    exact ih.members _ _ members t (hbody ▸ hmembers) (by rw [hbody]; omega)

theorem passItems_complete (ih : PassComplete fuel) (h : SpansItems first xs s.rest t)
    (hfuel : 2 * s.rest.length < fuel + 1) : Leaves (passItems (fuel + 1) first s) t := by
  simp only [passItems]
  cases xs with
  | nil =>
    have hs : s.skipBlanks.rest = ']' :: t := skipBlanks_rest h (unblank_cons.mpr (by decide))
    simp only [peek?_of_rest hs, leaves_ok_iff]
    exact skip_of_rest hs
  | cons x xs =>
    obtain ⟨opened, start, rest, hopens, hblanks, hx, hxs⟩ := h
    have hlength := hx.length_lt
    have hshort := hblanks.length_le
    have hlong := Opens.length_le hopens
    -- The item is passed from where it opens, and so are the ones behind it.
    have hitem : ∀ s' : Cursor, Blanks s'.rest start →
        Leaves (passValue fuel s' >>= passItems fuel false) t := by
      intro s' hs'
      obtain ⟨s₁, hs₁, rfl⟩ := ih.value s' x start rest (spansItems_over hxs) hs' hx (by omega)
      obtain ⟨s₂, hs₂, hleft⟩ := ih.items false s₁ xs t hxs (by omega)
      exact ⟨s₂, bind_ok.mpr ⟨s₁, hs₁, hs₂⟩, hleft⟩
    cases first with
    | true =>
      obtain rfl : s.rest = opened := hopens
      have hs := skipBlanks_rest hblanks hx.unblank
      obtain ⟨c, rest', rfl, hc⟩ := hx.head
      simp only [peek?_of_rest hs]
      split
      · simp_all
      · rename_i heq
        cases heq
        exact absurd rfl (opening_cases hc).2
      · exact hitem _ (by rw [hs]; exact blanks_refl)
    | false =>
      have hcomma : Blanks s.rest (',' :: opened) := hopens
      have hs := skipBlanks_rest hcomma (unblank_cons.mpr (by decide))
      simp only [peek?_of_rest hs, Bool.false_eq_true, ↓reduceIte]
      exact hitem _ (by rwa [skip_of_rest hs])

theorem passMembers_complete (ih : PassComplete fuel) (h : SpansMembers first members s.rest t)
    (hfuel : 2 * s.rest.length < fuel + 1) : Leaves (passMembers (fuel + 1) first s) t := by
  simp only [passMembers]
  cases members with
  | nil =>
    have hs : s.skipBlanks.rest = '\x7d' :: t := skipBlanks_rest h (unblank_cons.mpr (by decide))
    simp only [peek?_of_rest hs, leaves_ok_iff]
    exact skip_of_rest hs
  | cons e members =>
    obtain ⟨key, x⟩ := e
    obtain ⟨opened, afterKey, afterColon, start, rest, hopens, hkey, hcolon, hblanks, hx, hmembers⟩ := h
    have hmember : SpansMember key x members (quotedPieces key afterKey) t :=
      ⟨afterKey, afterColon, start, rest, rfl, hcolon, hblanks, hx, hmembers⟩
    have hshort := hkey.length_le
    have hlong := Opens.length_le hopens
    cases first with
    | true =>
      obtain rfl : s.rest = opened := hopens
      have hs := skipBlanks_rest hkey unblank_quotedPieces
      simp only [peek?_of_rest hs, ↓reduceIte]
      exact ih.member _ key x members t (hs ▸ hmember) (by rw [hs]; omega)
    | false =>
      have hcomma : Blanks s.rest (',' :: opened) := hopens
      have hs := skipBlanks_rest hcomma (unblank_cons.mpr (by decide))
      have hstart : Blanks s.skipBlanks.skip.rest (quotedPieces key afterKey) := by
        rwa [skip_of_rest hs]
      have hs' := skipBlanks_rest hstart unblank_quotedPieces
      simp only [peek?_of_rest hs, Bool.false_eq_true, ↓reduceIte]
      exact ih.member _ key x members t (hs' ▸ hmember) (by rw [hs']; omega)

theorem passMember_complete (ih : PassComplete fuel) (h : SpansMember key x members s.rest t)
    (hfuel : 2 * s.rest.length ≤ fuel + 1) : Leaves (passMember (fuel + 1) s) t := by
  obtain ⟨afterKey, afterColon, start, rest, hs, hcolon, hblanks, hx, hmembers⟩ := h
  have hquotes := length_quotedPieces key afterKey
  have hlength := hx.length_lt
  have hshort := hblanks.length_le
  have hlong := hcolon.length_le
  rw [← hs] at hquotes
  rw [List.length_cons] at hlong
  obtain ⟨s₁, hs₁, rfl⟩ := leaves_skipString.mpr ⟨key, skip_of_rest hs⟩
  obtain ⟨s₂, hs₂, rfl⟩ := leaves_colon.mpr hcolon
  obtain ⟨s₃, hs₃, rfl⟩ := ih.value s₂ x start rest (spansMembers_over hmembers) hblanks hx (by omega)
  obtain ⟨s₄, hs₄, hleft⟩ := ih.members false s₃ members t hmembers (by omega)
  rw [passMember, peek?_of_rest hs]
  exact ⟨s₄, bind_ok.mpr ⟨s₁, hs₁, bind_ok.mpr ⟨s₂, hs₂, bind_ok.mpr ⟨s₃, hs₃, hs₄⟩⟩⟩, hleft⟩

theorem passComplete (fuel : Nat) : PassComplete fuel := by
  induction fuel with
  | zero =>
    refine ⟨fun s x start t _ _ hx hfuel => ?_, fun _ s _ _ _ hfuel => absurd hfuel (by omega),
      fun _ s _ _ _ hfuel => absurd hfuel (by omega), fun s key x members t h hfuel => ?_⟩
    · have := hx.length_lt
      omega
    · obtain ⟨afterKey, _, _, _, hs, _⟩ := h
      have := length_quotedPieces key afterKey
      rw [← hs] at this
      omega
  | succ fuel ih =>
    exact ⟨fun _ _ _ _ => passValue_complete ih, fun _ _ _ _ => passItems_complete ih,
      fun _ _ _ _ => passMembers_complete ih, fun _ _ _ _ _ => passMember_complete ih⟩

theorem leaves_pastValue (ht : Over t) : Leaves s.pastValue t ↔
    ∃ (x : Written) (start : List Char), Blanks s.rest start ∧ x.Spans start t := by
  rw [pastValue]
  constructor
  · exact (passSound s.fuel).value s t ht
  · rintro ⟨x, start, hblanks, hx⟩
    have := hblanks.length_le
    exact (passComplete s.fuel).value s x start t ht hblanks hx (by rw [Cursor.fuel]; omega)

end EventAdmission
