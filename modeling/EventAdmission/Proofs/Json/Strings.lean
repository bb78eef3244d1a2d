import EventAdmission.Proofs.Json.Steps

/-!
# Reading strings

Between the quotes a reader takes one piece after the other. The strict reader gives
the text that the pieces stand for (`gives_string`), the skipping one needs only that
they are pieces (`leaves_skipString`).
-/

namespace EventAdmission

open Cursor

variable {s : Cursor} {c : Char} {t u v : List Char} {n : Nat} {text : String}
  {pieces more : List StringPiece} {cs : List Char} {high : Option Nat}

-- ---------------------------------------------------------------------------
-- Escapes
-- ---------------------------------------------------------------------------

theorem gives_hexEscape : Gives s.hexEscape n t ↔
    ∃ a b c d, s.rest = a :: b :: c :: d :: t ∧ hexCode? a b c d = some n := by
  have hmalformed : ¬ Gives (hexEscape.malformed s) n t := by
    unfold hexEscape.malformed
    split <;> simp
  rw [hexEscape]
  constructor
  · intro h
    split at h
    · rename_i a b c d rest hrest
      split at h
      · rename_i ha hb hc hd
        obtain ⟨hn, rfl⟩ := gives_ok_iff.mp h
        exact ⟨a, b, c, d, hrest, by simp [hexCode?, ha, hb, hc, hd, hn]⟩
      · exact absurd h hmalformed
    · exact absurd h hmalformed
  · rintro ⟨a, b, c, d, hrest, hcode⟩
    simp only [hexCode?, Option.bind_eq_bind, Option.bind_eq_some_iff, Option.pure_def,
      Option.some.injEq] at hcode
    obtain ⟨a', ha, b', hb, c', hc, d', hd, rfl⟩ := hcode
    simp [hrest, ha, hb, hc, hd]

theorem leaves_halfMark : Leaves (s.halfMark c) t ↔ s.rest = c :: t := by
  rw [halfMark]
  cases hp : s.peek? with
  | none => simp [peek?_eq_none.mp hp]
  | some d =>
    rw [rest_of_peek? hp]
    by_cases hd : d = c <;> simp [hd]

def Stands (pieces : List StringPiece) (c : Char) : Prop :=
  ∀ more cs, unescape? none more = some cs → unescape? none (pieces ++ more) = some (c :: cs)

theorem gives_unicodeEscape (h : Gives s.unicodeEscape c t) :
    ∃ pieces, '\\' :: 'u' :: s.rest = pieces.flatMap StringPiece.chars ++ t ∧ Stands pieces c := by
  rw [unicodeEscape] at h
  obtain ⟨n, s₁, hn, h⟩ := gives_bind.mp h
  obtain ⟨a, b, c', d, hrest, hcode⟩ := gives_hexEscape.mp ⟨s₁, hn, rfl⟩
  dsimp only at h
  split at h
  · simp at h
  · rename_i hlow
    split at h
    · rename_i hhigh
      obtain ⟨s₂, hs₂, h⟩ := gives_step.mp h
      obtain ⟨s₃, hs₃, h⟩ := gives_step.mp h
      obtain ⟨m, s₄, hm, h⟩ := gives_bind.mp h
      have hmark := leaves_halfMark.mp ⟨s₂, hs₂, rfl⟩
      have hletter := leaves_halfMark.mp ⟨s₃, hs₃, rfl⟩
      obtain ⟨e, f, g, i, hrest', hcode'⟩ := gives_hexEscape.mp ⟨s₄, hm, rfl⟩
      dsimp only at h
      split at h
      · rename_i hlow'
        obtain ⟨rfl, rfl⟩ := gives_ok_iff.mp h
        refine ⟨[.code a b c' d n hcode, .code e f g i m hcode'], ?_, fun more cs hcs => ?_⟩
        · simp [StringPiece.chars, hrest, hmark, hletter, hrest']
        · simp [unescape?, hlow, hhigh, hlow', hcs]
      · simp at h
    · rename_i hhigh
      obtain ⟨rfl, rfl⟩ := gives_ok_iff.mp h
      refine ⟨[.code a b c' d n hcode], by simp [StringPiece.chars, hrest], fun more cs hcs => ?_⟩
      simp [unescape?, hlow, hhigh, hcs]

theorem gives_escaped (h : Gives s.escaped c t) :
    ∃ pieces, '\\' :: s.rest = pieces.flatMap StringPiece.chars ++ t ∧ Stands pieces c := by
  rw [escaped] at h
  split at h
  · simp at h
  · rename_i hp
    rw [rest_of_peek? hp]
    exact gives_unicodeEscape h
  · rename_i letter _ hp
    split at h
    · rename_i d hd
      obtain ⟨rfl, rfl⟩ := gives_ok_iff.mp h
      refine ⟨[.short letter d hd], by simp [StringPiece.chars, rest_of_peek? hp],
        fun more cs hcs => ?_⟩
      simp [unescape?, hcs]
    · simp at h

theorem escaped_short {letter : Char} (hs : s.rest = letter :: t)
    (h : simpleEscape? letter = some c) : Gives s.escaped c t := by
  have hu : letter ≠ 'u' := by
    rintro rfl
    cases h
  rw [escaped, peek?_of_rest hs]
  simp [h, skip_of_rest hs]

-- ---------------------------------------------------------------------------
-- Strings
-- ---------------------------------------------------------------------------

theorem stringTail_ok {fuel : Nat} (h : Gives (stringTail fuel s) cs t) :
    ∃ pieces, s.rest = pieces.flatMap StringPiece.chars ++ '"' :: t ∧
      unescape? none pieces = some cs := by
  induction fuel generalizing s cs with
  | zero => simp [stringTail] at h
  | succ fuel ih =>
    rw [stringTail] at h
    split at h
    · simp at h
    · rename_i hp
      obtain ⟨rfl, rfl⟩ := gives_ok_iff.mp h
      exact ⟨[], rest_of_peek? hp, rfl⟩
    · rename_i hp
      obtain ⟨d, s₁, hd, h⟩ := gives_bind.mp h
      obtain ⟨ds, s₂, hds, h⟩ := gives_bind.mp h
      obtain ⟨rfl, hleft⟩ := gives_ok_iff.mp h
      obtain ⟨front, hfront, hstands⟩ := gives_escaped ⟨s₁, hd, rfl⟩
      obtain ⟨pieces, hpieces, htext⟩ := ih ⟨s₂, hds, hleft⟩
      refine ⟨front ++ pieces, ?_, hstands pieces ds htext⟩
      rw [rest_of_peek? hp, hfront, hpieces]
      simp
    · rename_i c hquote hback hp
      split at h
      · simp at h
      · rename_i hcontrol
        obtain ⟨ds, s₁, hds, h⟩ := gives_bind.mp h
        obtain ⟨rfl, hleft⟩ := gives_ok_iff.mp h
        obtain ⟨pieces, hpieces, htext⟩ := ih ⟨s₁, hds, hleft⟩
        have hplain : isPlain c = true := by simp_all [isPlain]
        refine ⟨.plain c hplain :: pieces, ?_, by simp [unescape?, htext]⟩
        rw [rest_of_peek? hp, hpieces]
        simp [StringPiece.chars]

theorem unicodeEscape_code {a b c d : Char} {m : Nat} (hs : s.rest = a :: b :: c :: d :: t)
    (h : hexCode? a b c d = some m) (hlow : isLowSurrogate m = false)
    (hhigh : isHighSurrogate m = false) : Gives s.unicodeEscape (Char.ofNat m) t := by
  obtain ⟨s₁, hn, hleft⟩ := gives_hexEscape.mpr ⟨a, b, c, d, hs, h⟩
  rw [unicodeEscape]
  refine gives_bind.mpr ⟨m, s₁, hn, ?_⟩
  simp [hlow, hhigh, hleft, pure, Except.pure]

theorem unicodeEscape_pair {a b c d e f g i : Char} {m : Nat}
    (hs : s.rest = a :: b :: c :: d :: '\\' :: 'u' :: e :: f :: g :: i :: t)
    (hn : hexCode? a b c d = some n) (hm : hexCode? e f g i = some m)
    (hnot : isLowSurrogate n = false) (hhigh : isHighSurrogate n = true)
    (hlow : isLowSurrogate m = true) :
    Gives s.unicodeEscape (Char.ofNat (0x10000 + (n - 0xD800) * 0x400 + (m - 0xDC00))) t := by
  obtain ⟨s₁, hs₁, hrest₁⟩ := gives_hexEscape.mpr ⟨a, b, c, d, hs, hn⟩
  obtain ⟨s₂, hs₂, hrest₂⟩ := leaves_halfMark.mpr hrest₁
  obtain ⟨s₃, hs₃, hrest₃⟩ := leaves_halfMark.mpr hrest₂
  obtain ⟨s₄, hs₄, hrest₄⟩ := gives_hexEscape.mpr ⟨e, f, g, i, hrest₃, hm⟩
  rw [unicodeEscape]
  refine gives_bind.mpr ⟨n, s₁, hs₁, ?_⟩
  simp only [hnot, hhigh, Bool.false_eq_true, ↓reduceIte]
  refine gives_step.mpr ⟨s₂, hs₂, gives_step.mpr ⟨s₃, hs₃, ?_⟩⟩
  refine gives_bind.mpr ⟨m, s₄, hs₄, ?_⟩
  simp [hlow, hrest₄, pure, Except.pure]

theorem escaped_unicode (hs : s.rest = 'u' :: t) (h : Gives s.skip.unicodeEscape c u) :
    Gives s.escaped c u := by
  rwa [escaped, peek?_of_rest hs]

theorem stringTail_escape {fuel : Nat} (hs : s.rest = '\\' :: t) (h : Gives s.skip.escaped c u)
    (hrest : ∀ s' : Cursor, s'.rest = u → Gives (stringTail fuel s') cs v) :
    Gives (stringTail (fuel + 1) s) (c :: cs) v := by
  obtain ⟨s₁, hs₁, hleft⟩ := h
  obtain ⟨s₂, hs₂, hleft₂⟩ := hrest s₁ hleft
  rw [stringTail, peek?_of_rest hs]
  refine gives_bind.mpr ⟨c, s₁, hs₁, gives_bind.mpr ⟨cs, s₂, hs₂, ?_⟩⟩
  simp [hleft₂, pure, Except.pure]

theorem stringTail_plain {fuel : Nat} (hc : isPlain c = true) (hs : s.rest = c :: u)
    (hrest : ∀ s' : Cursor, s'.rest = u → Gives (stringTail fuel s') cs v) :
    Gives (stringTail (fuel + 1) s) (c :: cs) v := by
  obtain ⟨s₁, hs₁, hleft⟩ := hrest s.skip (skip_of_rest hs)
  simp only [isPlain, Bool.and_eq_true, bne_iff_ne, decide_eq_true_eq] at hc
  rw [stringTail, peek?_of_rest hs]
  split
  · simp_all
  · simp_all
  · simp_all
  · rename_i d _ _ hd
    obtain rfl := Option.some.inj hd
    rw [if_neg (by omega)]
    refine gives_bind.mpr ⟨cs, s₁, hs₁, ?_⟩
    simp [hleft, pure, Except.pure]

/-- Pieces that stand for one character together. -/
inductive SpelledChar : List StringPiece → Char → Prop
  | plain {c : Char} (h : isPlain c = true) : SpelledChar [.plain c h] c
  | short {letter c : Char} (h : simpleEscape? letter = some c) : SpelledChar [.short letter c h] c
  | code {a b c d : Char} {n : Nat} (h : hexCode? a b c d = some n)
    (hlow : isLowSurrogate n = false) (hhigh : isHighSurrogate n = false) :
    SpelledChar [.code a b c d n h] (Char.ofNat n)
  | pair {a b c d e f g i : Char} {n m : Nat} (hn : hexCode? a b c d = some n)
    (hm : hexCode? e f g i = some m) (hnot : isLowSurrogate n = false)
    (hhigh : isHighSurrogate n = true) (hlow : isLowSurrogate m = true) :
    SpelledChar [.code a b c d n hn, .code e f g i m hm]
      (Char.ofNat (0x10000 + (n - 0xD800) * 0x400 + (m - 0xDC00)))

theorem unescape?_eq_some (h : unescape? none pieces = some cs) :
    (pieces = [] ∧ cs = []) ∨ ∃ front rest c ds, pieces = front ++ rest ∧ cs = c :: ds ∧
      SpelledChar front c ∧ unescape? none rest = some ds := by
  cases pieces with
  | nil => exact .inl ⟨rfl, (Option.some.inj h).symm⟩
  | cons piece pieces =>
    refine .inr ?_
    cases piece with
    | plain c hc =>
      obtain ⟨ds, hds, rfl⟩ := Option.map_eq_some_iff.mp h
      exact ⟨[_], pieces, c, ds, rfl, rfl, .plain hc, hds⟩
    | short letter c hc =>
      obtain ⟨ds, hds, rfl⟩ := Option.map_eq_some_iff.mp h
      exact ⟨[_], pieces, c, ds, rfl, rfl, .short hc, hds⟩
    | code a b c d n hn =>
      simp only [unescape?] at h
      split at h
      · cases h
      · rename_i hnot
        split at h
        · rename_i hhigh
          -- The other half comes next.
          cases pieces with
          | nil => cases h
          | cons piece pieces =>
            cases piece with
            | plain => cases h
            | short => cases h
            | code e f g i m hm =>
              simp only [unescape?] at h
              split at h
              · rename_i hlow
                obtain ⟨ds, hds, rfl⟩ := Option.map_eq_some_iff.mp h
                exact ⟨[_, _], pieces, _, ds, rfl, rfl,
                  .pair hn hm (by simpa using hnot) hhigh hlow, hds⟩
              · cases h
        · rename_i hhigh
          obtain ⟨ds, hds, rfl⟩ := Option.map_eq_some_iff.mp h
          exact ⟨[_], pieces, _, ds, rfl, rfl,
            .code hn (by simpa using hnot) (by simpa using hhigh), hds⟩

theorem stringTail_char {fuel : Nat} {front : List StringPiece} (h : SpelledChar front c)
    (hs : s.rest = front.flatMap StringPiece.chars ++ u)
    (hrest : ∀ s' : Cursor, s'.rest = u → Gives (stringTail fuel s') cs v) :
    Gives (stringTail (fuel + 1) s) (c :: cs) v := by
  cases h with
  | plain hc => exact stringTail_plain hc hs hrest
  | short hc => exact stringTail_escape hs (escaped_short (skip_of_rest hs) hc) hrest
  | code hn hlow hhigh =>
    have hmark := skip_of_rest hs
    exact stringTail_escape hs (escaped_unicode hmark
      (unicodeEscape_code (skip_of_rest hmark) hn hlow hhigh)) hrest
  | pair hn hm hnot hhigh hlow =>
    have hmark := skip_of_rest hs
    exact stringTail_escape hs (escaped_unicode hmark
      (unicodeEscape_pair (skip_of_rest hmark) hn hm hnot hhigh hlow)) hrest

theorem SpelledChar.length_pos {front : List StringPiece} (h : SpelledChar front c) :
    0 < (front.flatMap StringPiece.chars).length := by
  cases h <;> simp [StringPiece.chars]

theorem stringTail_of {fuel : Nat} (h : unescape? none pieces = some cs)
    (hs : s.rest = pieces.flatMap StringPiece.chars ++ '"' :: t) (hfuel : s.rest.length < fuel) :
    Gives (stringTail fuel s) cs t := by
  induction fuel generalizing s pieces cs with
  | zero => cases hfuel
  | succ fuel ih =>
    rcases unescape?_eq_some h with ⟨rfl, rfl⟩ | ⟨front, rest, c, ds, rfl, rfl, hfront, hds⟩
    · rw [stringTail, peek?_of_rest hs]
      simp [skip_of_rest hs]
    · rw [List.flatMap_append, List.append_assoc] at hs
      refine stringTail_char hfront hs fun s' hs' => ih hds hs' ?_
      have hpos := hfront.length_pos
      rw [hs, List.length_append, ← hs'] at hfuel
      omega

theorem gives_string : Gives s.string text t ↔
    ∃ pieces, s.rest = pieces.flatMap StringPiece.chars ++ '"' :: t ∧ textOf? pieces = some text := by
  rw [string]
  constructor
  · intro h
    obtain ⟨cs, s₁, hcs, h⟩ := gives_bind.mp h
    obtain ⟨rfl, hleft⟩ := gives_ok_iff.mp h
    obtain ⟨pieces, hpieces, htext⟩ := stringTail_ok ⟨s₁, hcs, hleft⟩
    exact ⟨pieces, hpieces, by simp [textOf?, htext]⟩
  · rintro ⟨pieces, hpieces, htext⟩
    obtain ⟨cs, hcs, rfl⟩ := Option.map_eq_some_iff.mp htext
    obtain ⟨s₁, hs₁, hleft⟩ := stringTail_of hcs hpieces (Nat.lt_succ_self _)
    refine gives_bind.mpr ⟨cs, s₁, hs₁, ?_⟩
    simp [hleft, pure, Except.pure]

-- ---------------------------------------------------------------------------
-- Skipped strings
-- ---------------------------------------------------------------------------

theorem leaves_skipEscape (h : Leaves s.skipEscape t) :
    ∃ piece : StringPiece, '\\' :: s.rest = piece.chars ++ t := by
  rw [skipEscape] at h
  split at h
  · simp at h
  · rename_i hp
    obtain ⟨s', hs', rfl⟩ := h
    obtain ⟨⟨n, s₁⟩, hn, rfl⟩ := map_ok.mp hs'
    obtain ⟨a, b, c, d, hrest, hcode⟩ := gives_hexEscape.mp ⟨s₁, hn, rfl⟩
    exact ⟨.code a b c d n hcode, by simp [StringPiece.chars, rest_of_peek? hp, hrest]⟩
  · rename_i letter _ hp
    split at h
    · rename_i hsome
      obtain ⟨c, hc⟩ := Option.isSome_iff_exists.mp hsome
      exact ⟨.short letter c hc, by
        simp [StringPiece.chars, rest_of_peek? hp, ← leaves_ok_iff.mp h]⟩
    · simp at h

theorem skipEscape_short {letter : Char} (hs : s.rest = letter :: t)
    (h : simpleEscape? letter = some c) : Leaves s.skipEscape t := by
  have hu : letter ≠ 'u' := by
    rintro rfl
    cases h
  rw [skipEscape, peek?_of_rest hs]
  simp [h, skip_of_rest hs]

theorem skipEscape_code {a b c d : Char} (hs : s.rest = 'u' :: a :: b :: c :: d :: t)
    (h : hexCode? a b c d = some n) : Leaves s.skipEscape t := by
  obtain ⟨s₁, hs₁, hleft⟩ := gives_hexEscape.mpr ⟨a, b, c, d, skip_of_rest hs, h⟩
  rw [skipEscape, peek?_of_rest hs]
  exact ⟨s₁, map_ok.mpr ⟨(n, s₁), hs₁, rfl⟩, hleft⟩

theorem skipStringTail_ok {fuel : Nat} (h : Leaves (skipStringTail fuel s) t) :
    ∃ pieces : List StringPiece, s.rest = pieces.flatMap StringPiece.chars ++ '"' :: t := by
  induction fuel generalizing s with
  | zero => simp [skipStringTail] at h
  | succ fuel ih =>
    rw [skipStringTail] at h
    split at h
    · simp at h
    · rename_i hp
      exact ⟨[], leaves_ok_iff.mp h ▸ rest_of_peek? hp⟩
    · rename_i hp
      obtain ⟨s', hs', rfl⟩ := h
      obtain ⟨s₁, hs₁, h⟩ := bind_ok.mp hs'
      obtain ⟨piece, hpiece⟩ := leaves_skipEscape ⟨s₁, hs₁, rfl⟩
      obtain ⟨pieces, hpieces⟩ := ih ⟨s', h, rfl⟩
      refine ⟨piece :: pieces, ?_⟩
      rw [rest_of_peek? hp, hpiece, hpieces]
      simp
    · rename_i c hquote hback hp
      split at h
      · simp at h
      · rename_i hcontrol
        obtain ⟨pieces, hpieces⟩ := ih h
        have hplain : isPlain c = true := by simp_all [isPlain]
        refine ⟨.plain c hplain :: pieces, ?_⟩
        rw [rest_of_peek? hp, hpieces]
        simp [StringPiece.chars]

theorem skipStringTail_escape {fuel : Nat} (hs : s.rest = '\\' :: t) (h : Leaves s.skip.skipEscape u)
    (hrest : ∀ s' : Cursor, s'.rest = u → Leaves (skipStringTail fuel s') v) :
    Leaves (skipStringTail (fuel + 1) s) v := by
  obtain ⟨s₁, hs₁, hleft⟩ := h
  obtain ⟨s₂, hs₂, hleft₂⟩ := hrest s₁ hleft
  rw [skipStringTail, peek?_of_rest hs]
  exact ⟨s₂, bind_ok.mpr ⟨s₁, hs₁, hs₂⟩, hleft₂⟩

theorem skipStringTail_plain {fuel : Nat} (hc : isPlain c = true) (hs : s.rest = c :: u)
    (hrest : ∀ s' : Cursor, s'.rest = u → Leaves (skipStringTail fuel s') v) :
    Leaves (skipStringTail (fuel + 1) s) v := by
  simp only [isPlain, Bool.and_eq_true, bne_iff_ne, decide_eq_true_eq] at hc
  rw [skipStringTail, peek?_of_rest hs]
  split
  · simp_all
  · simp_all
  · simp_all
  · rename_i d _ _ hd
    obtain rfl := Option.some.inj hd
    rw [if_neg (by omega)]
    exact hrest _ (skip_of_rest hs)

theorem skipStringTail_of {fuel : Nat}
    (hs : s.rest = pieces.flatMap StringPiece.chars ++ '"' :: t) (hfuel : s.rest.length < fuel) :
    Leaves (skipStringTail fuel s) t := by
  induction fuel generalizing s pieces with
  | zero => cases hfuel
  | succ fuel ih =>
    cases pieces with
    | nil =>
      rw [skipStringTail, peek?_of_rest hs]
      simp [skip_of_rest hs]
    | cons piece pieces =>
      rw [List.flatMap_cons] at hs
      -- Whatever the piece, it is read in one step and the others are left.
      have hothers : ∀ s' : Cursor, s'.rest = pieces.flatMap StringPiece.chars ++ '"' :: t →
          Leaves (skipStringTail fuel s') t := by
        intro s' hs'
        refine ih hs' ?_
        have hlength := congrArg List.length hs
        rw [List.append_assoc, List.length_append, ← hs'] at hlength
        have hpiece : 0 < piece.chars.length := by cases piece <;> simp [StringPiece.chars]
        omega
      cases piece with
      | plain c hplain =>
        exact skipStringTail_plain hplain hs hothers
      | short letter c hletter =>
        have hrest : s.rest =
            '\\' :: letter :: (pieces.flatMap StringPiece.chars ++ '"' :: t) := hs
        exact skipStringTail_escape hrest (skipEscape_short (skip_of_rest hrest) hletter) hothers
      | code a b c d n hcode =>
        have hrest : s.rest = '\\' :: 'u' :: a :: b :: c :: d ::
            (pieces.flatMap StringPiece.chars ++ '"' :: t) := hs
        exact skipStringTail_escape hrest (skipEscape_code (skip_of_rest hrest) hcode) hothers

theorem leaves_skipString : Leaves s.skipString t ↔
    ∃ pieces : List StringPiece, s.rest = pieces.flatMap StringPiece.chars ++ '"' :: t := by
  rw [skipString]
  exact ⟨skipStringTail_ok, fun ⟨_, hpieces⟩ => skipStringTail_of hpieces (Nat.lt_succ_self _)⟩

end EventAdmission
