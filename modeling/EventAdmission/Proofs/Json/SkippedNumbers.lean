import EventAdmission.Proofs.Json.Numbers

/-!
# Skipping numbers

Past a number that nobody asks for a reader checks the form alone: it comes through
exactly the numbers of the grammar, out of range or not (`leaves_skipNumber`). Where a
number ends is thereby settled (`IsNumber.unique`).
-/

namespace EventAdmission

open Cursor

variable {s : Cursor} {t t' u w w' ds : List Char}

theorem exists_digits_of_peeks (h : s.peeksDigit = true) :
    ∃ ds u, s.rest = ds ++ u ∧ IsDigits ds ∧ Undigit u := by
  obtain ⟨ds, u, hs, hds, hu⟩ := exists_digits s.rest
  refine ⟨ds, u, hs, ⟨?_, hds⟩, hu⟩
  rintro rfl
  rw [peeksDigit_eq_false.mpr (by rwa [hs])] at h
  cases h

theorem IsDigits.peeksDigit (hds : IsDigits ds) (hs : s.rest = ds ++ u) : s.peeksDigit = true := by
  cases ds with
  | nil => exact absurd rfl hds.1
  | cons c ds => simp [Cursor.peeksDigit, peek?, hs, hds.2 c List.mem_cons_self]

theorem skipExponent_ok {mark : Char} (hmark : mark = 'e' ∨ mark = 'E')
    (hp : s.peek? = some mark) (h : Leaves s.skipExponent t) :
    ∃ w, IsExponent w ∧ s.rest = w ++ t := by
  obtain ⟨sign, hsign, hrest⟩ := exponentSign_ok s.skip
  simp only [skipExponent] at h
  split at h
  · rename_i hpeeks
    obtain ⟨ds, u, hs, hds, hu⟩ := exists_digits_of_peeks hpeeks
    have hleft := skipDigits_of hds.2 hu hs
    rw [leaves_ok_iff.mp h] at hleft
    subst hleft
    exact ⟨mark :: (sign ++ ds), ⟨mark, sign, ds, rfl, hmark, hsign, hds⟩, by
      simp [rest_of_peek? hp, hrest, hs]⟩
  · simp at h

theorem skipExponent_of (hw : IsExponent w) (ht : Over t) (hs : s.rest = w ++ t) :
    Leaves s.skipExponent t := by
  obtain ⟨mark, sign, ds, rfl, -, hsign, hds⟩ := hw
  cases ds with
  | nil => exact absurd rfl hds.1
  | cons c ds =>
    obtain ⟨s₁, hsigned, hs₁⟩ := exponentSign_of (u := ds ++ t) hsign
      (hds.2 c List.mem_cons_self) (skip_of_rest (by simpa using hs))
    simp only [skipExponent, hsigned, hds.peeksDigit hs₁, ↓reduceIte, leaves_ok_iff]
    exact skipDigits_of hds.2 ht.undigit hs₁

theorem leaves_skipTail (ht : Over t) : Leaves (skipAfterInteger.skipTail s) t ↔
    ∃ w, (w = [] ∨ IsExponent w) ∧ s.rest = w ++ t := by
  rw [skipAfterInteger.skipTail]
  constructor
  · intro h
    split at h
    · obtain ⟨w, hw, hs⟩ := skipExponent_ok (.inl rfl) ‹_› h
      exact ⟨w, .inr hw, hs⟩
    · obtain ⟨w, hw, hs⟩ := skipExponent_ok (.inr rfl) ‹_› h
      exact ⟨w, .inr hw, hs⟩
    · exact ⟨[], .inl rfl, leaves_ok_iff.mp h⟩
  · rintro ⟨w, rfl | hw, hs⟩
    · have hover : Over s.rest := by rwa [hs]
      split
      · exact absurd ‹_› (hover.peek?_ne (by decide))
      · exact absurd ‹_› (hover.peek?_ne (by decide))
      · exact leaves_ok_iff.mpr hs
    · have hleaves := skipExponent_of hw ht hs
      obtain ⟨mark, sign, ds, rfl, rfl | rfl, -⟩ := hw <;>
        simpa [peek?_of_rest hs] using hleaves

theorem leaves_skipAfterInteger (ht : Over t) : Leaves s.skipAfterInteger t ↔
    ∃ w, IsTail w ∧ s.rest = w ++ t := by
  rw [skipAfterInteger]
  constructor
  · intro h
    split at h
    · rename_i hp
      split at h
      · rename_i hpeeks
        obtain ⟨ds, u, hs, hds, hu⟩ := exists_digits_of_peeks hpeeks
        obtain ⟨w, hw, hrest⟩ := (leaves_skipTail ht).mp h
        rw [skipDigits_of hds.2 hu hs] at hrest
        exact ⟨'.' :: (ds ++ w), ⟨'.' :: ds, w, rfl, .inr ⟨ds, rfl, hds⟩, hw⟩, by
          simp [rest_of_peek? hp, hs, hrest]⟩
      · simp at h
    · obtain ⟨w, hw, hs⟩ := (leaves_skipTail ht).mp h
      exact ⟨w, ⟨[], w, rfl, .inl rfl, hw⟩, hs⟩
  · rintro ⟨_, ⟨fraction, exponent, rfl, rfl | ⟨ds, rfl, hds⟩, hexponent⟩, hs⟩
    · have hpoint : s.peek? ≠ some '.' := by
        rcases hexponent with rfl | ⟨mark, sign, ds, rfl, rfl | rfl, -⟩
        · have hover : Over s.rest := by rwa [hs]
          exact hover.peek?_ne (by decide)
        · simp [peek?, hs]
        · simp [peek?, hs]
      split
      · exact absurd ‹_› hpoint
      · exact (leaves_skipTail ht).mpr ⟨exponent, hexponent, hs⟩
    · have hdigits : s.skip.rest = ds ++ (exponent ++ t) := skip_of_rest (by simpa using hs)
      rw [peek?_of_rest hs]
      simp only [hds.peeksDigit hdigits, ↓reduceIte]
      exact (leaves_skipTail ht).mpr ⟨exponent, hexponent,
        skipDigits_of hds.2 (undigit_exponent hexponent ht) hdigits⟩

def skipUnsigned (s : Cursor) : Except ReadError Cursor :=
  match s.peek? with
  | none => s.failHere .invalidNumber
  | some c =>
    if c = '0' then
      if s.skip.peeksDigit then s.skip.failAhead .invalidNumber else skipAfterInteger s.skip
    else if isDigit c then skipAfterInteger s.skipDigits
    else s.failAhead .invalidNumber

theorem leaves_skipUnsigned (ht : Over t) : Leaves (skipUnsigned s) t ↔
    ∃ w, IsUnsigned w ∧ s.rest = w ++ t := by
  rw [skipUnsigned]
  constructor
  · intro h
    split at h
    · simp at h
    · rename_i c hp
      split at h
      · rename_i hzero
        subst hzero
        split at h
        · simp at h
        · obtain ⟨w, hw, hs⟩ := (leaves_skipAfterInteger ht).mp h
          exact ⟨'0' :: w, ⟨['0'], w, rfl, isWhole_zero, hw⟩, by simp [rest_of_peek? hp, hs]⟩
      · rename_i hzero
        split at h
        · rename_i hc
          have hpeeks : s.peeksDigit = true := by simp [peeksDigit, hp, hc]
          obtain ⟨ds, u, hs, hds, hu⟩ := exists_digits_of_peeks hpeeks
          obtain ⟨w, hw, hrest⟩ := (leaves_skipAfterInteger ht).mp h
          rw [skipDigits_of hds.2 hu hs] at hrest
          refine ⟨ds ++ w, ⟨ds, w, rfl, ⟨hds, fun hhead => absurd ?_ hzero⟩, hw⟩, by simp [hs, hrest]⟩
          rw [peek?, hs, List.head?_append, hhead] at hp
          exact (Option.some.inj hp).symm
        · simp at h
  · rintro ⟨_, ⟨whole, tail, rfl, ⟨hds, hzero⟩, htail⟩, hs⟩
    cases whole with
    | nil => exact absurd rfl hds.1
    | cons c ds =>
      have hc : isDigit c = true := hds.2 c List.mem_cons_self
      rw [peek?_of_rest hs]
      by_cases hc0 : c = '0'
      · subst hc0
        obtain ⟨-, rfl⟩ := List.cons.inj (hzero rfl)
        have hskip : s.skip.rest = tail ++ t := skip_of_rest hs
        have hpeeks : s.skip.peeksDigit = false :=
          peeksDigit_eq_false.mpr (hskip ▸ htail.undigit ht)
        simp only [hpeeks, ↓reduceIte, Bool.false_eq_true]
        exact (leaves_skipAfterInteger ht).mpr ⟨tail, htail, hskip⟩
      · simp only [hc0, hc, ↓reduceIte]
        exact (leaves_skipAfterInteger ht).mpr ⟨tail, htail,
          skipDigits_of hds.2 (htail.undigit ht) (by simpa using hs)⟩

theorem leaves_skipNumber (ht : Over t) : Leaves s.skipNumber t ↔
    ∃ w, IsNumber w ∧ s.rest = w ++ t := by
  have heq : s.skipNumber = skipUnsigned (if s.peek? = some '-' then s.skip else s) := rfl
  rw [heq, leaves_skipUnsigned ht]
  constructor
  · rintro ⟨w, hw, hs⟩
    split at hs
    · rename_i hp
      exact ⟨'-' :: w, ⟨w, .inr rfl, hw⟩, by rw [rest_of_peek? hp, hs]; rfl⟩
    · exact ⟨w, ⟨w, .inl rfl, hw⟩, hs⟩
  · rintro ⟨_, ⟨w, rfl | rfl, hw⟩, hs⟩
    · rw [if_neg (hw.peek?_ne hs)]
      exact ⟨_, hw, hs⟩
    · rw [if_pos (peek?_of_rest hs)]
      exact ⟨w, hw, skip_of_rest hs⟩

/-- Of two numbers at one place, each with a value end behind it, none is longer. -/
theorem IsNumber.unique (hw : IsNumber w) (hw' : IsNumber w') (ht : Over t) (ht' : Over t')
    (h : w ++ t = w' ++ t') : w = w' ∧ t = t' := by
  have hleaves : Leaves (skipNumber ⟨w ++ t, ⟨1, 0⟩⟩) t := (leaves_skipNumber ht).mpr ⟨w, hw, rfl⟩
  have hleaves' : Leaves (skipNumber ⟨w ++ t, ⟨1, 0⟩⟩) t' :=
    (leaves_skipNumber ht').mpr ⟨w', hw', h⟩
  obtain rfl := hleaves.unique hleaves'
  exact ⟨List.append_cancel_right h, rfl⟩

end EventAdmission
