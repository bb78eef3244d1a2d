import EventAdmission.Pattern.Position

/-!
# What a regular tree matches

`Spans text tree i j` says that the part of a text between two positions matches
a tree. `occurs_iff`: a tree whose loops all have an upper bound occurs in a
text if it spans some part of it. Sets of positions are numbers, so each lemma
reads one bit of a set.
-/

namespace EventAdmission.Pattern

variable {text : List Char} {r : Nat → Nat → Prop} {step : Nat → Nat} {i j n starts : Nat}

def Rounds (r : Nat → Nat → Prop) : Nat → Nat → Nat → Prop
  | 0, i, j => j = i
  | n + 1, i, j => ∃ k, r i k ∧ Rounds r n k j

def before? (text : List Char) (i : Nat) : Option Char := if i = 0 then none else text[i - 1]?

def Spans (text : List Char) : Regex CharSet Anchor → Nat → Nat → Prop
  | .empty, i, j => j = i
  | .one set, i, j => j = i + 1 ∧ ∃ c, text[i]? = some c ∧ set.mem c = true
  | .here anchor, i, j =>
    j = i ∧ i ≤ text.length ∧ holdsBetween anchor (before? text i) text[i]? = true
  | .seq a b, i, j => ∃ k, Spans text a i k ∧ Spans text b k j
  | .alt a b, i, j => Spans text a i j ∨ Spans text b i j
  | .loop body least most _, i, j =>
    ∃ n, least ≤ n ∧ (∀ m, most = some m → n ≤ max least m) ∧ Rounds (Spans text body) n i j
  | .group _ body, i, j => Spans text body i j
  | .look .., _, _ | .atomic _, _, _ | .sameAs _, _, _ | .matched _, _, _ | .choose .., _, _ => False

def isBounded : Regex CharSet Anchor → Bool
  | .empty | .one _ | .here _ => true
  | .seq a b | .alt a b => isBounded a && isBounded b
  | .loop body _ most _ => isBounded body && most.isSome
  | .group _ body => isBounded body
  | .look .. | .atomic _ | .sameAs _ | .matched _ | .choose .. => false

-- ---------------------------------------------------------------------------
-- Positions of characters and anchors
-- ---------------------------------------------------------------------------

theorem testBit_double_zero (a : Nat) (b : Bool) : (2 * a + bit b).testBit 0 = b := by
  cases b <;> simp [bit, Nat.testBit_zero]

theorem testBit_double_succ (a : Nat) (b : Bool) :
    (2 * a + bit b).testBit (i + 1) = a.testBit i := by
  have hbit : bit b < 2 := by cases b <;> decide
  have hhalf : (2 * a + bit b) / 2 = a := by omega
  rw [Nat.testBit_add_one, hhalf]

theorem testBit_charPositions (set : CharSet) :
    (charPositions set text).testBit i = true ↔ ∃ c, text[i]? = some c ∧ set.mem c = true := by
  induction text generalizing i with
  | nil => simp [charPositions]
  | cons c text ih =>
    rw [show charPositions set (c :: text) = 2 * charPositions set text + bit (set.mem c) from rfl]
    cases i with
    | zero =>
      rw [testBit_double_zero]
      simp
    | succ i => simpa [testBit_double_succ] using ih

theorem testBit_anchorPositions (anchor : Anchor) (before : Option Char) :
    (anchorPositions anchor before text).testBit i = true ↔
      i ≤ text.length ∧
        holdsBetween anchor (if i = 0 then before else text[i - 1]?) text[i]? = true := by
  induction text generalizing i before with
  | nil =>
    rw [anchorPositions, ← Nat.zero_add (bit _), ← Nat.mul_zero 2]
    cases i with
    | zero =>
      rw [testBit_double_zero]
      simp
    | succ i =>
      rw [testBit_double_succ]
      simp
  | cons c text ih =>
    rw [anchorPositions]
    cases i with
    | zero =>
      rw [testBit_double_zero]
      simp
    | succ i =>
      rw [testBit_double_succ, ih]
      cases i <;> simp

-- ---------------------------------------------------------------------------
-- Loops
-- ---------------------------------------------------------------------------

theorem rounds_fixed (hstep : ∀ s j, (step s).testBit j = true ↔ ∃ i, s.testBit i = true ∧ r i j)
    (hfix : step starts = starts) :
    (∃ i, starts.testBit i = true ∧ Rounds r n i j) ↔ starts.testBit j = true := by
  induction n with
  | zero => simp [Rounds]
  | succ n ih =>
    rw [← ih]
    constructor
    · rintro ⟨i, hi, k, hk, hr⟩
      refine ⟨k, ?_, hr⟩
      rw [← hfix, hstep]
      exact ⟨i, hi, hk⟩
    · rintro ⟨k, hk, hr⟩
      rw [← hfix, hstep] at hk
      obtain ⟨i, hi, hik⟩ := hk
      exact ⟨i, hi, k, hik, hr⟩

theorem testBit_rounds (hstep : ∀ s j, (step s).testBit j = true ↔ ∃ i, s.testBit i = true ∧ r i j) :
    (rounds step n starts).testBit j = true ↔ ∃ i, starts.testBit i = true ∧ Rounds r n i j := by
  induction n generalizing starts with
  | zero => simp [rounds, Rounds]
  | succ n ih =>
    simp only [rounds]
    split
    · rename_i hfix
      exact (rounds_fixed hstep hfix).symm
    · rw [ih]
      constructor
      · rintro ⟨k, hk, hr⟩
        obtain ⟨i, hi, hik⟩ := (hstep _ _).mp hk
        exact ⟨i, hi, k, hik, hr⟩
      · rintro ⟨i, hi, k, hik, hr⟩
        exact ⟨k, (hstep _ _).mpr ⟨i, hi, hik⟩, hr⟩

/-- Rounds that may stay in place are no more than some number of rounds that move. -/
theorem rounds_stay : Rounds (fun i k => k = i ∨ r i k) n i j ↔ ∃ m ≤ n, Rounds r m i j := by
  induction n generalizing i with
  | zero =>
    constructor
    · intro h
      exact ⟨0, Nat.le_refl 0, h⟩
    · rintro ⟨m, hm, h⟩
      obtain rfl := Nat.le_zero.mp hm
      exact h
  | succ n ih =>
    constructor
    · rintro ⟨k, rfl | hk, h⟩
      · obtain ⟨m, hm, h⟩ := ih.mp h
        exact ⟨m, Nat.le_succ_of_le hm, h⟩
      · obtain ⟨m, hm, h⟩ := ih.mp h
        exact ⟨m + 1, Nat.succ_le_succ hm, k, hk, h⟩
    · rintro ⟨m, hm, h⟩
      cases m with
      | zero => exact ⟨i, .inl rfl, ih.mpr ⟨0, Nat.zero_le n, h⟩⟩
      | succ m =>
        obtain ⟨k, hk, h⟩ := h
        exact ⟨k, .inr hk, ih.mpr ⟨m, Nat.le_of_succ_le_succ hm, h⟩⟩

theorem testBit_upTo (hstep : ∀ s j, (step s).testBit j = true ↔ ∃ i, s.testBit i = true ∧ r i j) :
    (upTo step n starts).testBit j = true ↔
      ∃ i, starts.testBit i = true ∧ ∃ m ≤ n, Rounds r m i j := by
  simp only [← rounds_stay]
  apply testBit_rounds
  intro s j
  rw [Nat.testBit_or, Bool.or_eq_true, hstep]
  constructor
  · rintro (h | ⟨i, hi, h⟩)
    · exact ⟨j, h, .inl rfl⟩
    · exact ⟨i, hi, .inr h⟩
  · rintro ⟨i, hi, rfl | h⟩
    · exact .inl hi
    · exact .inr ⟨i, hi, h⟩

theorem rounds_add {a b : Nat} : Rounds r (a + b) i j ↔ ∃ k, Rounds r a i k ∧ Rounds r b k j := by
  induction a generalizing i with
  | zero => simp [Rounds]
  | succ a ih =>
    rw [Nat.succ_add]
    simp only [Rounds, ih]
    constructor
    · rintro ⟨l, hl, k, hk, h⟩
      exact ⟨k, ⟨l, hl, hk⟩, h⟩
    · rintro ⟨k, ⟨l, hl, hk⟩, h⟩
      exact ⟨l, hl, k, hk, h⟩

-- ---------------------------------------------------------------------------
-- Trees
-- ---------------------------------------------------------------------------

theorem testBit_ends {size : Nat} {tree : Regex CharSet Anchor} (hb : isBounded tree = true) :
    (ends size (locate text tree) starts).testBit j = true ↔
      ∃ i, starts.testBit i = true ∧ Spans text tree i j := by
  induction tree generalizing starts j with
  | empty => simp [locate, Regex.map, ends, Spans]
  | one set =>
    simp only [locate, Regex.map, ends, Spans, Nat.testBit_shiftLeft, Nat.testBit_and,
      Bool.and_eq_true, decide_eq_true_eq, testBit_charPositions]
    constructor
    · rintro ⟨hj, hs, hc⟩
      exact ⟨j - 1, hs, by omega, hc⟩
    · rintro ⟨i, hs, rfl, hc⟩
      exact ⟨by omega, hs, hc⟩
  | here anchor =>
    simp only [locate, Regex.map, ends, Spans, Nat.testBit_and, Bool.and_eq_true,
      testBit_anchorPositions]
    constructor
    · rintro ⟨hs, hle, h⟩
      exact ⟨j, hs, rfl, hle, h⟩
    · rintro ⟨i, hs, rfl, hle, h⟩
      exact ⟨hs, hle, h⟩
  | seq a b iha ihb =>
    simp only [isBounded, Bool.and_eq_true] at hb
    simp only [locate, Regex.map, ends, Spans] at iha ihb ⊢
    rw [ihb hb.2]
    constructor
    · rintro ⟨k, hk, h⟩
      obtain ⟨i, hi, hik⟩ := (iha hb.1).mp hk
      exact ⟨i, hi, k, hik, h⟩
    · rintro ⟨i, hi, k, hik, h⟩
      exact ⟨k, (iha hb.1).mpr ⟨i, hi, hik⟩, h⟩
  | alt a b iha ihb =>
    simp only [isBounded, Bool.and_eq_true] at hb
    simp only [locate, Regex.map, ends, Spans, Nat.testBit_or, Bool.or_eq_true] at iha ihb ⊢
    rw [iha hb.1, ihb hb.2]
    simp only [and_or_left, exists_or]
  | loop body least most greedy ih =>
    simp only [isBounded, Bool.and_eq_true] at hb
    obtain ⟨m, rfl⟩ := Option.isSome_iff_exists.mp hb.2
    simp only [locate, Regex.map, ends, Spans] at ih ⊢
    have hstep := fun s j => @ih j s hb.1
    rw [testBit_upTo hstep]
    simp only [testBit_rounds hstep]
    constructor
    · rintro ⟨k, ⟨i, hi, hik⟩, d, hd, h⟩
      refine ⟨i, hi, least + d, by omega, ?_, rounds_add.mpr ⟨k, hik, h⟩⟩
      rintro _ ⟨⟩
      omega
    · rintro ⟨i, hi, n, hn, hmax, h⟩
      have hm := hmax m rfl
      obtain ⟨d, rfl⟩ := Nat.exists_eq_add_of_le hn
      obtain ⟨k, hik, h⟩ := rounds_add.mp h
      exact ⟨k, ⟨i, hi, hik⟩, d, by omega, h⟩
  | group index body ih => exact ih hb
  | look | atomic | sameAs | matched | choose => simp [isBounded] at hb

theorem occurs_iff {tree : Regex CharSet Anchor} (hb : isBounded tree = true) :
    occurs tree text = true ↔ ∃ i j, i ≤ text.length ∧ Spans text tree i j := by
  have hbits : ∀ i, (allPositions text).testBit i = true ↔ i ≤ text.length := by
    intro i
    rw [allPositions, Nat.testBit_two_pow_sub_one, decide_eq_true_eq, Nat.lt_succ_iff]
  rw [occurs, bne_iff_ne]
  constructor
  · intro hne
    obtain ⟨j, hj⟩ := Nat.exists_testBit_of_ne_zero hne
    obtain ⟨i, hi, h⟩ := (testBit_ends hb).mp hj
    exact ⟨i, j, (hbits i).mp hi, h⟩
  · rintro ⟨i, j, hi, h⟩ hzero
    have hj : (ends (text.length + 1) (locate text tree) (allPositions text)).testBit j = true :=
      (testBit_ends hb).mpr ⟨i, (hbits i).mpr hi, h⟩
    rw [hzero, Nat.zero_testBit] at hj
    cases hj

end EventAdmission.Pattern
