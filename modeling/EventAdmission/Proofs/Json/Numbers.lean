import EventAdmission.Proofs.Json.Steps
import EventAdmission.Proofs.Json.Pointer

/-!
# Reading numbers

A reader of a number takes its characters and nothing else: what it gives is told by
them, whatever ends the value behind them (`gives_number`). The numeral of an integer
stands for that integer (`numberOf?_chars`).
-/

namespace EventAdmission

open Cursor

variable {s : Cursor} {c : Char} {t u w ds : List Char} {x : Number} {n : Nat} {e : Int}
  {minus : Bool}

/-- The step gives `x` behind the characters, whatever value end follows them. -/
def Takes (step : Cursor → Except ReadError (Number × Cursor)) (w : List Char) (x : Number) : Prop :=
  ∀ s r, Over r → s.rest = w ++ r → Gives (step s) x r

-- ---------------------------------------------------------------------------
-- What follows a value
-- ---------------------------------------------------------------------------

def Undigit (t : List Char) : Prop := ∀ c ∈ t.head?, isDigit c = false

theorem undigit_cons : Undigit (c :: t) ↔ isDigit c = false := by simp [Undigit]

theorem Over.undigit (h : Over t) : Undigit t := by
  intro c hc
  have hcases : c = ' ' ∨ c = '\n' ∨ c = '\t' ∨ c = '\r' ∨ c = ',' ∨ c = ']' ∨ c = '\x7d' := by
    simpa [closes, isBlank, or_assoc] using h c hc
  rcases hcases with rfl | rfl | rfl | rfl | rfl | rfl | rfl <;> decide

theorem Over.peek?_ne (h : Over s.rest) (hc : closes c = false) : s.peek? ≠ some c := by
  intro hp
  have hclosed := h c hp
  rw [hc] at hclosed
  cases hclosed

-- ---------------------------------------------------------------------------
-- Digits
-- ---------------------------------------------------------------------------

theorem peeksDigit_eq_false : s.peeksDigit = false ↔ Undigit s.rest := by
  cases hs : s.rest with
  | nil => simp [peeksDigit, peek?, Undigit, hs]
  | cons c u => simp [peeksDigit, peek?, Undigit, hs]

theorem exists_digits (t : List Char) :
    ∃ ds u, t = ds ++ u ∧ (∀ c ∈ ds, isDigit c = true) ∧ Undigit u :=
  ⟨t.takeWhile isDigit, t.dropWhile isDigit, List.takeWhile_append_dropWhile.symm,
    List.all_eq_true.mp List.all_takeWhile, head_dropWhile isDigit t⟩

theorem skipDigits_of (hds : ∀ c ∈ ds, isDigit c = true) (hu : Undigit u) (hs : s.rest = ds ++ u) :
    s.skipDigits.rest = u := by
  rw [skipDigits, skipWhile_rest, hs]
  exact dropWhile_stretch hds hu

theorem gatherDigits_digits (hds : ∀ c ∈ ds, isDigit c = true) (n : Nat) :
    ∃ m count full left, (∀ c ∈ left, isDigit c = true) ∧
      (if full then ds ≠ [] else left = [] ∧ count = ds.length) ∧
      ∀ (s : Cursor) u, Undigit u → s.rest = ds ++ u →
        ∃ s' : Cursor, s.gatherDigits n = ((m, count, full), s') ∧ s'.rest = left ++ u := by
  have hgo : ∀ n k, ∃ m count full left, (∀ c ∈ left, isDigit c = true) ∧
      (if full then ds ≠ [] else left = [] ∧ count = k + ds.length) ∧
      ∀ u place, Undigit u →
        ∃ s' : Cursor, gatherDigits.go n k (ds ++ u) place = ((m, count, full), s') ∧ s'.rest = left ++ u := by
    induction ds with
    | nil =>
      intro n k
      refine ⟨n, k, false, [], by simp, by simp, fun u place hu => ?_⟩
      cases u with
      | nil => exact ⟨_, rfl, rfl⟩
      | cons c u => exact ⟨⟨c :: u, place⟩, by simp [gatherDigits.go, undigit_cons.mp hu], rfl⟩
    | cons c ds ih =>
      intro n k
      obtain ⟨hc, hds⟩ := List.forall_mem_cons.mp hds
      by_cases hfits : n * 10 + digit c < 2 ^ 64
      · obtain ⟨m, count, full, left, hleft, hfull, h⟩ := ih hds (n * 10 + digit c) (k + 1)
        refine ⟨m, count, full, left, hleft, ?_, fun u place hu => ?_⟩
        · cases full with
          | true => simp
          | false =>
            obtain ⟨rfl, rfl⟩ : left = [] ∧ count = k + 1 + ds.length := hfull
            simp only [Bool.false_eq_true, ↓reduceIte, List.length_cons, true_and]
            omega
        · simpa only [List.cons_append, gatherDigits.go, hc, hfits, ↓reduceIte] using h u _ hu
      · refine ⟨n, k, true, c :: ds, List.forall_mem_cons.mpr ⟨hc, hds⟩, by simp, fun u place _ => ?_⟩
        exact ⟨⟨c :: (ds ++ u), place⟩, by
          simp only [List.cons_append, gatherDigits.go, hc, hfits, ↓reduceIte], rfl⟩
  obtain ⟨m, count, full, left, hleft, hfull, h⟩ := hgo n 0
  refine ⟨m, count, full, left, hleft, by simpa using hfull, fun s u hu hs => ?_⟩
  rw [gatherDigits, hs]
  exact h u s.place hu

theorem exponentDigits_digits (hds : ∀ c ∈ ds, isDigit c = true) (n : Nat) :
    ∃ e left, (∀ c ∈ left, isDigit c = true) ∧ (e ≠ none → left = []) ∧
      ∀ (s : Cursor) u, Undigit u → s.rest = ds ++ u →
        ∃ s' : Cursor, s.exponentDigits n = (e, s') ∧ s'.rest = left ++ u := by
  have hgo : ∀ n, ∃ e left, (∀ c ∈ left, isDigit c = true) ∧ (e ≠ none → left = []) ∧
      ∀ u place, Undigit u →
        ∃ s' : Cursor, exponentDigits.go n (ds ++ u) place = (e, s') ∧ s'.rest = left ++ u := by
    induction ds with
    | nil =>
      intro n
      refine ⟨some n, [], by simp, by simp, fun u place hu => ?_⟩
      cases u with
      | nil => exact ⟨_, rfl, rfl⟩
      | cons c u => exact ⟨⟨c :: u, place⟩, by simp [exponentDigits.go, undigit_cons.mp hu], rfl⟩
    | cons c ds ih =>
      intro n
      obtain ⟨hc, hds⟩ := List.forall_mem_cons.mp hds
      by_cases hfits : n * 10 + digit c < 2 ^ 31
      · obtain ⟨e, left, hleft, hsome, h⟩ := ih hds (n * 10 + digit c)
        refine ⟨e, left, hleft, hsome, fun u place hu => ?_⟩
        simpa only [List.cons_append, exponentDigits.go, hc, hfits, ↓reduceIte] using h u _ hu
      · refine ⟨none, ds, hds, by simp, fun u place _ => ?_⟩
        exact ⟨⟨ds ++ u, advance place c⟩, by
          simp only [List.cons_append, exponentDigits.go, hc, hfits, ↓reduceIte], rfl⟩
  obtain ⟨e, left, hleft, hsome, h⟩ := hgo n
  refine ⟨e, left, hleft, hsome, fun s u hu hs => ?_⟩
  rw [exponentDigits, hs]
  exact h u s.place hu

-- ---------------------------------------------------------------------------
-- Exponents
-- ---------------------------------------------------------------------------

theorem exponentSign_ok (s : Cursor) :
    ∃ sign, IsSign sign ∧ s.rest = sign ++ s.exponentSign.2.rest := by
  rw [exponentSign]
  split
  · rename_i hp
    exact ⟨['+'], .inr (.inl rfl), rest_of_peek? hp⟩
  · rename_i hp
    exact ⟨['-'], .inr (.inr rfl), rest_of_peek? hp⟩
  · exact ⟨[], .inl rfl, rfl⟩

theorem exponentSign_of {sign : List Char} (hsign : IsSign sign) (hc : isDigit c = true)
    (hs : s.rest = sign ++ c :: u) :
    ∃ s' : Cursor, s.exponentSign = (decide (sign = ['-']), s') ∧ s'.rest = c :: u := by
  rw [exponentSign]
  rcases hsign with rfl | rfl | rfl
  · refine ⟨s, ?_, hs⟩
    rw [peek?_of_rest hs]
    split
    · simp_all [isDigit]
    · simp_all [isDigit]
    · simp
  · rw [peek?_of_rest hs]
    exact ⟨s.skip, by simp, skip_of_rest hs⟩
  · rw [peek?_of_rest hs]
    exact ⟨s.skip, by simp, skip_of_rest hs⟩

theorem gives_scaled (minus : Bool) (n : Nat) (e : Int) :
    ∃ y : Option Number, ∀ s x t, Gives (scaled minus n e s) x t ↔ y = some x ∧ s.rest = t := by
  simp only [scaled]
  by_cases hdown : e < 0
  · exact ⟨some _, fun s x t => by rw [if_pos hdown, gives_ok_iff, Option.some.injEq]⟩
  by_cases hzero : ((Binary64.ofNat n).getD (Binary64.zero false)).isZero
  · exact ⟨some _, fun s x t => by
      rw [if_neg hdown, if_pos hzero, gives_ok_iff, Option.some.injEq]⟩
  by_cases hlarge : 308 < e
  · exact ⟨none, fun s x t => by simp [hdown, hzero, hlarge]⟩
  cases hmul : ((Binary64.ofNat n).getD (Binary64.zero false)).mul? (powerOfTen e.toNat) with
  | some y => exact ⟨some _, fun s x t => by
      rw [if_neg hdown, if_neg hzero, if_neg hlarge, gives_ok_iff, Option.some.injEq]⟩
  | none => exact ⟨none, fun s x t => by simp [hdown, hzero, hlarge]⟩

theorem gives_exponentPart {sign : List Char} (hsign : IsSign sign) (hds : IsDigits ds)
    (minus : Bool) (n : Nat) (e : Int) :
    ∃ y : Option Number, ∀ s mark u, Undigit u → s.rest = mark :: (sign ++ (ds ++ u)) →
      ∀ x t, Gives (exponentPart minus n e s) x t ↔ y = some x ∧ u = t := by
  obtain ⟨hne, hall⟩ := hds
  cases ds with
  | nil => exact absurd rfl hne
  | cons c ds =>
    obtain ⟨hc, hall⟩ := List.forall_mem_cons.mp hall
    obtain ⟨value, left, hleft, hsome, hdigits⟩ := exponentDigits_digits hall (digit c)
    -- Sign and digits are read alike whatever follows them.
    have hread : ∀ (s : Cursor) mark u, Undigit u → s.rest = mark :: (sign ++ (c :: ds ++ u)) →
        ∃ s₁ s₂ : Cursor, s.skip.exponentSign = (decide (sign = ['-']), s₁) ∧ s₁.peek? = some c ∧
          s₁.skip.exponentDigits (digit c) = (value, s₂) ∧ s₂.rest = left ++ u := by
      intro s mark u hu hs
      obtain ⟨s₁, hsigned, hs₁⟩ := exponentSign_of hsign hc (skip_of_rest hs)
      obtain ⟨s₂, hvalue, hs₂⟩ := hdigits s₁.skip u hu (skip_of_rest hs₁)
      exact ⟨s₁, s₂, hsigned, peek?_of_rest hs₁, hvalue, hs₂⟩
    cases value with
    | some k =>
      obtain rfl : left = [] := hsome (by simp)
      obtain ⟨y, hy⟩ := gives_scaled minus n (if decide (sign = ['-']) then e - k else e + k)
      refine ⟨y, fun s mark u hu hs x t => ?_⟩
      obtain ⟨s₁, s₂, hsigned, hp, hvalue, hs₂⟩ := hread s mark u hu hs
      have heq : exponentPart minus n e s =
          scaled minus n (if decide (sign = ['-']) then e - k else e + k) s₂ := by
        simp only [exponentPart, hsigned, hp, hc, hvalue, ↓reduceIte]
      rw [heq, hy, hs₂, List.nil_append]
    | none =>
      by_cases hlarge : n ≠ 0 ∧ (!decide (sign = ['-'])) = true
      · refine ⟨none, fun s mark u hu hs x t => ?_⟩
        obtain ⟨s₁, s₂, hsigned, hp, hvalue, -⟩ := hread s mark u hu hs
        simp [exponentPart, hsigned, hp, hc, hvalue, hlarge]
      · refine ⟨some (.float (Binary64.zero minus)), fun s mark u hu hs x t => ?_⟩
        obtain ⟨s₁, s₂, hsigned, hp, hvalue, hs₂⟩ := hread s mark u hu hs
        simp only [exponentPart, hsigned, hp, hc, hvalue, if_neg hlarge, ↓reduceIte, gives_ok_iff,
          skipDigits_of hleft hu hs₂, Option.some.injEq]

theorem exponentPart_takes {mark : Char} (hmark : mark = 'e' ∨ mark = 'E')
    (hp : s.peek? = some mark) (h : Gives (exponentPart minus n e s) x t) :
    ∃ w, s.rest = w ++ t ∧ IsExponent w ∧ Takes (exponentPart minus n e) w x := by
  obtain ⟨sign, hsign, hrest⟩ := exponentSign_ok s.skip
  obtain ⟨ds, u, hsplit, hall, hu⟩ := exists_digits s.skip.exponentSign.2.rest
  have hne : ds ≠ [] := by
    rintro rfl
    simp only [exponentPart] at h
    split at h
    · simp at h
    · rename_i c hc
      have hdigit : isDigit c = false := hu c (by rw [← List.nil_append u, ← hsplit]; exact hc)
      simp [hdigit] at h
  have hs : s.rest = mark :: (sign ++ (ds ++ u)) := by rw [rest_of_peek? hp, hrest, hsplit]
  obtain ⟨y, hy⟩ := gives_exponentPart hsign ⟨hne, hall⟩ minus n e
  obtain ⟨rfl, rfl⟩ := (hy s mark u hu hs x t).mp h
  refine ⟨mark :: (sign ++ ds), by simp [hs], ⟨mark, sign, ds, rfl, hmark, hsign, hne, hall⟩, ?_⟩
  intro s' r hr hs'
  exact (hy s' mark r hr.undigit (by simp [hs']) x r).mpr ⟨rfl, rfl⟩

-- ---------------------------------------------------------------------------
-- Behind the digits before the point
-- ---------------------------------------------------------------------------

theorem scaled_takes (h : Gives (scaled minus n e s) x t) :
    s.rest = t ∧ Takes (scaled minus n e) [] x := by
  obtain ⟨y, hy⟩ := gives_scaled minus n e
  obtain ⟨rfl, rfl⟩ := (hy s x t).mp h
  exact ⟨rfl, fun s' r _ hs' => (hy s' x r).mpr ⟨rfl, hs'⟩⟩

theorem IsExponent.undigit (hw : IsExponent w) : Undigit (w ++ t) := by
  obtain ⟨mark, sign, ds, rfl, rfl | rfl, -⟩ := hw <;> exact undigit_cons.mpr (by decide)

theorem undigit_exponent (hw : w = [] ∨ IsExponent w) (ht : Over t) : Undigit (w ++ t) := by
  rcases hw with rfl | hw
  · exact ht.undigit
  · exact hw.undigit

theorem IsTail.undigit (hw : IsTail w) (ht : Over t) : Undigit (w ++ t) := by
  obtain ⟨fraction, exponent, rfl, rfl | ⟨ds, rfl, -⟩, hexponent⟩ := hw
  · exact undigit_exponent hexponent ht
  · exact undigit_cons.mpr (by decide)

def thenExponent (minus : Bool) (n : Nat) (e : Int)
    (rest : Cursor → Except ReadError (Number × Cursor)) (s : Cursor) :
    Except ReadError (Number × Cursor) :=
  match s.peek? with
  | some 'e' => exponentPart minus n e s
  | some 'E' => exponentPart minus n e s
  | _ => rest s

def thenTail (minus : Bool) (n : Nat) (e : Int)
    (rest : Cursor → Except ReadError (Number × Cursor)) (s : Cursor) :
    Except ReadError (Number × Cursor) :=
  match s.peek? with
  | some '.' => fractionPart minus n e s
  | _ => thenExponent minus n e rest s

section

variable {rest : Cursor → Except ReadError (Number × Cursor)}

theorem thenTail_eq : thenTail minus n e rest s =
    match s.peek? with
    | some '.' => fractionPart minus n e s
    | some 'e' => exponentPart minus n e s
    | some 'E' => exponentPart minus n e s
    | _ => rest s := by
  rw [thenTail]
  split
  · simp_all
  · rename_i hpoint
    rw [thenExponent]
    split
    · simp_all
    · simp_all
    · split <;> simp_all

theorem thenExponent_takes (hrest : ∀ s x t, Gives (rest s) x t → s.rest = t ∧ Takes rest [] x)
    (h : Gives (thenExponent minus n e rest s) x t) :
    ∃ w, s.rest = w ++ t ∧ (w = [] ∨ IsExponent w) ∧ Takes (thenExponent minus n e rest) w x := by
  have hmark : ∀ (s : Cursor) mark, mark = 'e' ∨ mark = 'E' → s.peek? = some mark →
      thenExponent minus n e rest s = exponentPart minus n e s := by
    rintro s mark (rfl | rfl) hp <;> simp [thenExponent, hp]
  have hnone : ∀ s : Cursor, s.peek? ≠ some 'e' → s.peek? ≠ some 'E' →
      thenExponent minus n e rest s = rest s := by
    intro s he hE
    rw [thenExponent]
    split
    · exact absurd ‹_› he
    · exact absurd ‹_› hE
    · rfl
  by_cases hp : ∃ mark, (mark = 'e' ∨ mark = 'E') ∧ s.peek? = some mark
  · obtain ⟨mark, hcases, hp⟩ := hp
    rw [hmark s mark hcases hp] at h
    obtain ⟨w, hs, hw, htakes⟩ := exponentPart_takes hcases hp h
    refine ⟨w, hs, .inr hw, fun s' r hr hs' => ?_⟩
    have hsame : s.peek? = s'.peek? := by
      obtain ⟨m, sign, ds, rfl, -⟩ := hw
      simp [peek?, hs, hs']
    rw [hmark s' mark hcases (hsame ▸ hp)]
    exact htakes s' r hr hs'
  · have he : s.peek? ≠ some 'e' := fun hp' => hp ⟨'e', .inl rfl, hp'⟩
    have hE : s.peek? ≠ some 'E' := fun hp' => hp ⟨'E', .inr rfl, hp'⟩
    rw [hnone s he hE] at h
    obtain ⟨hs, htakes⟩ := hrest s x t h
    refine ⟨[], hs, .inl rfl, fun s' r hr hs' => ?_⟩
    have hover : Over s'.rest := by rwa [hs']
    rw [hnone s' (hover.peek?_ne (by decide)) (hover.peek?_ne (by decide))]
    exact htakes s' r hr hs'

theorem fractionPart_digits (hds : ∀ c ∈ ds, isDigit c = true) (minus : Bool) (n : Nat) (e : Int) :
    ∃ m e', ∀ s u, Undigit u → s.rest = '.' :: (ds ++ u) →
      ∃ s' : Cursor, s'.rest = u ∧ (ds ≠ [] → fractionPart minus n e s =
        thenExponent minus m e' (scaled minus m e') s') ∧
      (ds = [] → ∀ x t, ¬ Gives (fractionPart minus n e s) x t) := by
  obtain ⟨m, count, full, left, hleft, hfull, hgather⟩ := gatherDigits_digits hds n
  refine ⟨m, e - count, fun s u hu hs => ?_⟩
  obtain ⟨s₁, hgathered, hs₁⟩ := hgather s.skip u hu (skip_of_rest hs)
  simp only [fractionPart, hgathered]
  cases full with
  | true => exact ⟨s₁.skipDigits, skipDigits_of hleft hu hs₁, fun _ => rfl, fun h => absurd h hfull⟩
  | false =>
    obtain ⟨rfl, rfl⟩ := hfull
    refine ⟨s₁, hs₁, fun hne => ?_, fun h x t => ?_⟩
    · simp only [Bool.false_eq_true, ↓reduceIte, List.length_eq_zero_iff, hne]
      rfl
    · subst h
      simp only [Bool.false_eq_true, ↓reduceIte, List.length_nil]
      split <;> simp

theorem fractionPart_takes (hp : s.peek? = some '.') (h : Gives (fractionPart minus n e s) x t) :
    ∃ fraction exponent, s.rest = fraction ++ exponent ++ t ∧ IsFraction fraction ∧
      (exponent = [] ∨ IsExponent exponent) ∧
      Takes (fractionPart minus n e) (fraction ++ exponent) x := by
  obtain ⟨ds, u, hsplit, hds, hu⟩ := exists_digits s.skip.rest
  have hs : s.rest = '.' :: (ds ++ u) := hsplit ▸ rest_of_peek? hp
  obtain ⟨m, e', hdigits⟩ := fractionPart_digits hds minus n e
  obtain ⟨s₁, rfl, hgo, hnot⟩ := hdigits s u hu hs
  have hne : ds ≠ [] := fun hnil => hnot hnil x t h
  rw [hgo hne] at h
  obtain ⟨w, hs₁, hw, htakes⟩ := thenExponent_takes (fun _ _ _ h => scaled_takes h) h
  refine ⟨'.' :: ds, w, by simp [hs, hs₁], ⟨ds, rfl, hne, hds⟩, hw, fun s' r hr hs' => ?_⟩
  obtain ⟨s₂, hs₂, hgo', -⟩ := hdigits s' (w ++ r) (undigit_exponent hw hr) (by simp [hs'])
  rw [hgo' hne]
  exact htakes s₂ r hr hs₂

theorem thenTail_takes (hrest : ∀ s x t, Gives (rest s) x t → s.rest = t ∧ Takes rest [] x)
    (h : Gives (thenTail minus n e rest s) x t) :
    ∃ w, s.rest = w ++ t ∧ IsTail w ∧ Takes (thenTail minus n e rest) w x := by
  have hpoint : ∀ s : Cursor, s.peek? = some '.' →
      thenTail minus n e rest s = fractionPart minus n e s := by
    intro s hp
    simp [thenTail, hp]
  have hnone : ∀ s : Cursor, s.peek? ≠ some '.' →
      thenTail minus n e rest s = thenExponent minus n e rest s := by
    intro s hp
    rw [thenTail]
    split
    · exact absurd ‹_› hp
    · rfl
  by_cases hp : s.peek? = some '.'
  · rw [hpoint s hp] at h
    obtain ⟨fraction, exponent, hs, hfraction, hexponent, htakes⟩ := fractionPart_takes hp h
    refine ⟨_, hs, ⟨_, _, rfl, .inr hfraction, hexponent⟩, fun s' r hr hs' => ?_⟩
    have hp' : s'.peek? = some '.' := by
      obtain ⟨ds, rfl, -⟩ := hfraction
      simp [peek?, hs']
    rw [hpoint s' hp']
    exact htakes s' r hr hs'
  · rw [hnone s hp] at h
    obtain ⟨w, hs, hw, htakes⟩ := thenExponent_takes hrest h
    refine ⟨w, hs, ⟨[], w, rfl, .inl rfl, hw⟩, fun s' r hr hs' => ?_⟩
    have hp' : s'.peek? ≠ some '.' := by
      rcases hw with rfl | ⟨mark, sign, ds, rfl, rfl | rfl, -⟩
      · have hover : Over s'.rest := by rwa [hs']
        exact hover.peek?_ne (by decide)
      · simp [peek?, hs']
      · simp [peek?, hs']
    rw [hnone s' hp']
    exact htakes s' r hr hs'

end

theorem afterInteger_takes (h : Gives (afterInteger minus n s) x t) :
    ∃ w, s.rest = w ++ t ∧ IsTail w ∧ Takes (afterInteger minus n) w x := by
  have heq : afterInteger minus n = thenTail minus n 0 fun s => .ok (integer minus n, s) := by
    funext s
    rw [thenTail_eq]
    rfl
  rw [heq] at h ⊢
  refine thenTail_takes (fun s x t h => ?_) h
  obtain ⟨rfl, rfl⟩ := gives_ok_iff.mp h
  exact ⟨rfl, fun s' r _ hs' => gives_ok_iff.mpr ⟨rfl, hs'⟩⟩

theorem longInteger_digits (hds : ∀ c ∈ ds, isDigit c = true) (hu : Undigit u)
    (hs : s.rest = ds ++ u) (minus : Bool) (n : Nat) :
    ∃ s' : Cursor, s'.rest = u ∧ longInteger minus n s =
      thenTail minus n ds.length (scaled minus n ds.length) s' := by
  have hrest := skipDigits_of hds hu hs
  have hcount : (s.rest.length : Int) - s.skipDigits.rest.length = ds.length := by
    rw [hrest, hs, List.length_append]
    omega
  refine ⟨s.skipDigits, hrest, ?_⟩
  rw [thenTail_eq, ← hcount]
  rfl

theorem longInteger_takes (hds : ∀ c ∈ ds, isDigit c = true) (hu : Undigit u)
    (hs : s.rest = ds ++ u) (h : Gives (longInteger minus n s) x t) :
    ∃ w, u = w ++ t ∧ IsTail w ∧ Takes (longInteger minus n) (ds ++ w) x := by
  obtain ⟨s₁, rfl, heq⟩ := longInteger_digits hds hu hs minus n
  rw [heq] at h
  obtain ⟨w, hs₁, hw, htakes⟩ := thenTail_takes (fun _ _ _ h => scaled_takes h) h
  refine ⟨w, hs₁, hw, fun s' r hr hs' => ?_⟩
  obtain ⟨s₂, hs₂, heq'⟩ := longInteger_digits hds (hw.undigit hr)
    (hs'.trans (List.append_assoc ..)) minus n
  rw [heq']
  exact htakes s₂ r hr hs₂

-- ---------------------------------------------------------------------------
-- Whole numbers
-- ---------------------------------------------------------------------------

theorem isWhole_zero : IsWhole ['0'] :=
  ⟨⟨List.cons_ne_nil _ _, List.forall_mem_singleton.mpr rfl⟩, fun _ => rfl⟩

theorem unsigned_zero (hs : s.rest = '0' :: u) (hu : Undigit u) :
    unsigned minus s = afterInteger minus 0 s.skip := by
  have hpeeks : s.skip.peeksDigit = false := peeksDigit_eq_false.mpr (by rwa [skip_of_rest hs])
  simp [unsigned, peek?_of_rest hs, hpeeks]

theorem unsigned_digits {m count : Nat} {full : Bool} {s' : Cursor} (hc : isDigit c = true)
    (hzero : c ≠ '0') (hs : s.rest = c :: u)
    (hgather : s.skip.gatherDigits (digit c) = ((m, count, full), s')) :
    unsigned minus s = if full then longInteger minus m s' else afterInteger minus m s' := by
  simp only [unsigned, peek?_of_rest hs, if_neg hzero, if_pos hc, hgather]
  cases full <;> rfl

theorem unsigned_takes (h : Gives (unsigned minus s) x t) :
    ∃ w, s.rest = w ++ t ∧ IsUnsigned w ∧ Takes (unsigned minus) w x := by
  cases hp : s.peek? with
  | none => simp [unsigned, hp] at h
  | some c =>
    have hs := rest_of_peek? hp
    by_cases hzero : c = '0'
    · subst hzero
      have hu : Undigit s.skip.rest := by
        cases hpeeks : s.skip.peeksDigit with
        | false => exact peeksDigit_eq_false.mp hpeeks
        | true => simp [unsigned, hp, hpeeks] at h
      rw [unsigned_zero hs hu] at h
      obtain ⟨w, hskip, hw, htakes⟩ := afterInteger_takes h
      refine ⟨'0' :: w, by rw [hs, hskip]; rfl, ⟨['0'], w, rfl, isWhole_zero, hw⟩,
        fun s' r hr hs' => ?_⟩
      rw [unsigned_zero hs' (hw.undigit hr)]
      exact htakes s'.skip r hr (skip_of_rest hs')
    · by_cases hc : isDigit c = true
      · obtain ⟨ds, u, hsplit, hds, hu⟩ := exists_digits s.skip.rest
        have hwhole : IsWhole (c :: ds) := by
          refine ⟨⟨by simp, List.forall_mem_cons.mpr ⟨hc, hds⟩⟩, fun hhead => ?_⟩
          exact absurd (Option.some.inj hhead) hzero
        obtain ⟨m, count, full, left, hleft, hfull, hgather⟩ := gatherDigits_digits hds (digit c)
        obtain ⟨s₁, hgathered, hs₁⟩ := hgather s.skip u hu hsplit
        rw [unsigned_digits hc hzero hs hgathered] at h
        -- Whether the digits fit is told by them: the tail behind them is read alike.
        have htail : ∃ w, u = w ++ t ∧ IsTail w ∧
            ∀ s' : Cursor, ∀ r, Over r → s'.rest = left ++ (w ++ r) →
              Gives (if full then longInteger minus m s' else afterInteger minus m s') x r := by
          cases full with
          | true =>
            obtain ⟨w, hu', hw, htakes⟩ := longInteger_takes hleft hu hs₁ h
            exact ⟨w, hu', hw, fun s' r hr hs' => htakes s' r hr (by simp [hs'])⟩
          | false =>
            obtain ⟨rfl, -⟩ := hfull
            obtain ⟨w, hu', hw, htakes⟩ := afterInteger_takes h
            exact ⟨w, hs₁.symm.trans hu', hw, fun s' r hr hs' => htakes s' r hr hs'⟩
        obtain ⟨w, rfl, hw, htakes⟩ := htail
        refine ⟨c :: ds ++ w, by simp [hs, hsplit], ⟨c :: ds, w, rfl, hwhole, hw⟩,
          fun s' r hr hs' => ?_⟩
        have hs'' : s'.rest = c :: (ds ++ (w ++ r)) := by simp [hs']
        obtain ⟨s₂, hgathered', hs₂⟩ := hgather s'.skip (w ++ r) (hw.undigit hr) (skip_of_rest hs'')
        have hgive := htakes s₂ r hr hs₂
        rw [unsigned_digits hc hzero hs'' hgathered']
        exact hgive
      · simp [unsigned, hp, hzero, hc] at h

theorem IsUnsigned.peek?_ne (hw : IsUnsigned w) (hs : s.rest = w ++ t) : s.peek? ≠ some '-' := by
  obtain ⟨whole, tail, rfl, ⟨⟨hne, hds⟩, -⟩, -⟩ := hw
  cases whole with
  | nil => exact absurd rfl hne
  | cons d ds =>
    rw [peek?_of_rest hs]
    rintro ⟨⟩
    cases hds '-' List.mem_cons_self

theorem number_takes (h : Gives s.number x t) :
    ∃ w, s.rest = w ++ t ∧ IsNumber w ∧ Takes number w x := by
  rw [number] at h
  split at h
  · rename_i hp
    obtain ⟨w, hs, hw, htakes⟩ := unsigned_takes h
    refine ⟨'-' :: w, by rw [rest_of_peek? hp, hs]; rfl, ⟨w, .inr rfl, hw⟩, fun s' r hr hs' => ?_⟩
    rw [number, if_pos (peek?_of_rest hs')]
    exact htakes _ r hr (skip_of_rest hs')
  · rename_i hp
    obtain ⟨w, hs, hw, htakes⟩ := unsigned_takes h
    refine ⟨w, hs, ⟨w, .inl rfl, hw⟩, fun s' r hr hs' => ?_⟩
    rw [number, if_neg (hw.peek?_ne hs')]
    exact htakes _ r hr hs'

theorem numberOf?_eq_some : numberOf? w = some x ↔ Gives (number ⟨w, ⟨1, 0⟩⟩) x [] := by
  rw [numberOf?]
  split
  · rename_i n place hn
    rw [hn, gives_ok_iff]
    simp
  · rename_i hnot
    refine ⟨nofun, fun ⟨s, hs, hrest⟩ => ?_⟩
    obtain ⟨rest, place⟩ := s
    subst hrest
    exact absurd hs (hnot x place)

theorem gives_number (ht : Over t) :
    Gives s.number x t ↔ ∃ w, IsNumber w ∧ s.rest = w ++ t ∧ numberOf? w = some x := by
  constructor
  · intro h
    obtain ⟨w, hs, hw, htakes⟩ := number_takes h
    exact ⟨w, hw, hs, numberOf?_eq_some.mpr (htakes _ [] over_nil (List.append_nil w).symm)⟩
  · rintro ⟨w, -, hs, hx⟩
    obtain ⟨w', hw, -, htakes⟩ := number_takes (numberOf?_eq_some.mp hx)
    rw [List.append_nil] at hw
    subst hw
    exact htakes s t ht hs

-- ---------------------------------------------------------------------------
-- Integers
-- ---------------------------------------------------------------------------

theorem le_ofDigitChars (ds : List Char) (n : Nat) : n ≤ Nat.ofDigitChars 10 ds n := by
  induction ds generalizing n with
  | nil => exact Nat.le_refl n
  | cons c ds ih =>
    rw [Nat.ofDigitChars_cons]
    exact Nat.le_trans (by omega) (ih _)

theorem gatherDigits_fits (hds : ∀ c ∈ ds, isDigit c = true)
    (hfits : Nat.ofDigitChars 10 ds n < 2 ^ 64) (hs : s.rest = ds) :
    ∃ count s', s.gatherDigits n = ((Nat.ofDigitChars 10 ds n, count, false), s') ∧
      s'.rest = [] := by
  have hgo : ∀ n k place, Nat.ofDigitChars 10 ds n < 2 ^ 64 → ∃ count s',
      gatherDigits.go n k ds place = ((Nat.ofDigitChars 10 ds n, count, false), s') ∧
        s'.rest = [] := by
    clear hfits hs
    induction ds with
    | nil => exact fun n k place _ => ⟨k, ⟨[], place⟩, rfl, rfl⟩
    | cons c ds ih =>
      intro n k place hfits
      obtain ⟨hc, hds⟩ := List.forall_mem_cons.mp hds
      rw [Nat.ofDigitChars_cons, Nat.mul_comm] at hfits ⊢
      have hstep : n * 10 + digit c < 2 ^ 64 := Nat.lt_of_le_of_lt (le_ofDigitChars ds _) hfits
      rw [gatherDigits.go, if_pos hc, if_pos hstep]
      exact ih hds _ _ _ hfits
  rw [gatherDigits, hs]
  exact hgo n 0 s.place hfits

theorem isDigit_of_mem_toDigits (h : c ∈ Nat.toDigits 10 n) : isDigit c = true := by
  have hdigit := Step.isDigit_toDigits h
  simp only [Char.isDigit, isDigit, Char.le_def, Bool.and_eq_true, decide_eq_true_eq] at hdigit ⊢
  exact hdigit

theorem isUnsigned_toDigits (n : Nat) : IsUnsigned (Nat.toDigits 10 n) := by
  refine ⟨_, [], (List.append_nil _).symm, ⟨⟨Nat.toDigits_ne_nil, ?_⟩, fun hhead => ?_⟩, ?_⟩
  · exact fun _ => isDigit_of_mem_toDigits
  · rcases Nat.eq_zero_or_pos n with rfl | hpos
    · rfl
    · exact absurd hhead (Step.head_toDigits hpos)
  · exact ⟨[], [], rfl, .inl rfl, .inl rfl⟩

theorem unsigned_toDigits (hfits : n < 2 ^ 64) (hs : s.rest = Nat.toDigits 10 n) :
    Gives (unsigned minus s) (integer minus n) [] := by
  have hend : ∀ s' : Cursor, s'.rest = [] → Gives (afterInteger minus n s') (integer minus n) [] := by
    intro s' hs'
    simp [afterInteger, peek?, hs']
  rcases Nat.eq_zero_or_pos n with rfl | hpos
  · have hs' : s.rest = ['0'] := hs
    rw [unsigned_zero hs' (by simp [Undigit])]
    exact hend _ (skip_of_rest hs')
  · have hround : Nat.ofDigitChars 10 (Nat.toDigits 10 n) 0 = n := Nat.ofDigitChars_ten_toDigits
    have hhead := Step.head_toDigits hpos
    have hall : ∀ c ∈ Nat.toDigits 10 n, isDigit c = true := fun _ => isDigit_of_mem_toDigits
    cases hds : Nat.toDigits 10 n with
    | nil => exact absurd hds Nat.toDigits_ne_nil
    | cons c ds =>
      rw [hds] at hs hround hhead hall
      rw [Nat.ofDigitChars_cons, Nat.mul_zero, Nat.zero_add] at hround
      obtain ⟨hc, hall⟩ := List.forall_mem_cons.mp hall
      have hvalue : Nat.ofDigitChars 10 ds (digit c) = n := hround
      obtain ⟨count, s', hgathered, hs'⟩ := gatherDigits_fits (n := digit c) hall
        (hvalue ▸ hfits) (skip_of_rest hs)
      rw [unsigned_digits hc (by simpa using hhead) hs hgathered, hvalue]
      exact hend s' hs'

theorem numberOf?_chars (hx : ∀ f, x ≠ .float f) : IsNumber x.chars ∧ numberOf? x.chars = some x := by
  rw [numberOf?_eq_some]
  cases x with
  | natural n =>
    have hunsigned := isUnsigned_toDigits n.toNat
    have hgives : Gives (unsigned false ⟨Nat.toDigits 10 n.toNat, ⟨1, 0⟩⟩)
        (integer false n.toNat) [] := unsigned_toDigits n.toNat_lt rfl
    refine ⟨⟨_, .inl rfl, hunsigned⟩, ?_⟩
    rw [number, if_neg (hunsigned.peek?_ne (List.append_nil _).symm)]
    simpa [integer, Number.chars] using hgives
  | negative n =>
    have hgives : Gives (unsigned true (skip ⟨'-' :: Nat.toDigits 10 (n.val + 1), ⟨1, 0⟩⟩))
        (integer true (n.val + 1)) [] := unsigned_toDigits (by omega) rfl
    refine ⟨⟨_, .inr rfl, isUnsigned_toDigits _⟩, ?_⟩
    rw [number, if_pos (by rfl)]
    simpa [integer, Number.chars, n.isLt] using hgives
  | float f => exact absurd rfl (hx f)

end EventAdmission
