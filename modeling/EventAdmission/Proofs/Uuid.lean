import EventAdmission.Enrichment
import EventAdmission.Pattern.Basic
import EventAdmission.Proofs.Pattern.Spans

/-!
# The pattern of identifiers

`search_uuidPattern`: the pattern of the identifiers of events is found in
exactly the texts that are hexadecimal digits in groups of 8, 4, 4, 4 and 12
with dashes between. Its anchors leave no room for anything else.
-/

namespace EventAdmission

deriving instance DecidableEq for Unicode.Trait, CharSet, Regex, Pattern

def HexGroup (count : Nat) (digits : List Char) : Prop :=
  digits.length = count ∧ ∀ c ∈ digits, Pattern.isHexDigit c = true

def IsUuid (text : String) : Prop :=
  ∃ a b c d e : List Char, HexGroup 8 a ∧ HexGroup 4 b ∧ HexGroup 4 c ∧ HexGroup 4 d ∧
    HexGroup 12 e ∧ text.toList = a ++ '-' :: (b ++ '-' :: (c ++ '-' :: (d ++ '-' :: e)))

namespace Uuid

open Pattern

variable {text : List Char} {i j n : Nat}

-- ---------------------------------------------------------------------------
-- The tree of the pattern
-- ---------------------------------------------------------------------------

def hexDigits : CharSet :=
  .union (.union (.union .nothing (.span 0x61 0x66)) (.span 0x41 0x46)) (.span 0x30 0x39)

def hexRun (count : Nat) : Tree := .loop (.one hexDigits) count (some count) true

def dash : Tree := .one (.char '-')

def tree : Tree :=
  .seq (.here .textStart) (.seq (hexRun 8) (.seq dash (.seq (hexRun 4) (.seq dash
    (.seq (hexRun 4) (.seq dash (.seq (hexRun 4) (.seq dash
      (.seq (hexRun 12) (.here .textEnd))))))))))

theorem ofKeyword?_uuidPattern : ofKeyword? Enrichment.uuidPattern = some ⟨tree⟩ := by
  decide +kernel

theorem mem_hexDigits (c : Char) : hexDigits.mem c = isHexDigit c := by
  have hle : ∀ a b : Char, a ≤ b ↔ a.toNat ≤ b.toNat := fun a b => Iff.rfl
  have hdigit : c.isDigit = true ↔ 48 ≤ c.toNat ∧ c.toNat ≤ 57 := by
    simp only [Char.isDigit, Bool.and_eq_true, decide_eq_true_eq, ge_iff_le]
    exact Iff.rfl
  have hmem : hexDigits.mem c = true ↔
      (97 ≤ c.toNat ∧ c.toNat ≤ 102) ∨ (65 ≤ c.toNat ∧ c.toNat ≤ 70) ∨
        (48 ≤ c.toNat ∧ c.toNat ≤ 57) := by
    simp only [CharSet.mem, hexDigits, CharSet.contains, CharSet.nothing, Bool.or_eq_true,
      Bool.and_eq_true, decide_eq_true_eq]
    omega
  have hhex : isHexDigit c = true ↔
      c.isDigit = true ∨ ('a' ≤ c ∧ c ≤ 'f') ∨ ('A' ≤ c ∧ c ≤ 'F') := by
    simp only [isHexDigit, hexValue?]
    repeat' split
    all_goals simp_all
  rw [Bool.eq_iff_iff, hmem, hhex, hdigit, hle, hle, hle, hle]
  simp only [show 'a'.toNat = 97 from rfl, show 'f'.toNat = 102 from rfl,
    show 'A'.toNat = 65 from rfl, show 'F'.toNat = 70 from rfl]
  omega

-- ---------------------------------------------------------------------------
-- Its spans
-- ---------------------------------------------------------------------------

theorem drop_of_getElem? {c : Char} (h : text[i]? = some c) :
    text.drop i = c :: text.drop (i + 1) := by
  obtain ⟨hi, rfl⟩ := List.getElem?_eq_some_iff.mp h
  exact List.drop_eq_getElem_cons hi

theorem spans_one (set : CharSet) : Spans text (.one set) i j ↔
    j = i + 1 ∧ ∃ c, text.drop i = c :: text.drop j ∧ set.mem c = true := by
  simp only [Spans]
  constructor
  · rintro ⟨rfl, c, hc, hm⟩
    exact ⟨rfl, c, drop_of_getElem? hc, hm⟩
  · rintro ⟨rfl, c, hc, hm⟩
    refine ⟨rfl, c, ?_, hm⟩
    rw [← List.head?_drop, hc]
    rfl

theorem spans_dash : Spans text dash i j ↔ j = i + 1 ∧ text.drop i = '-' :: text.drop j := by
  rw [dash, spans_one]
  constructor
  · rintro ⟨hj, c, hc, hm⟩
    have hdash : c = '-' := by
      simp only [CharSet.mem, CharSet.char, CharSet.contains, Bool.and_eq_true,
        decide_eq_true_eq] at hm
      exact Char.ext (UInt32.toNat.inj (Nat.le_antisymm hm.2 hm.1))
    exact ⟨hj, hdash ▸ hc⟩
  · rintro ⟨hj, h⟩
    exact ⟨hj, '-', h, by decide⟩

theorem rounds_one (set : CharSet) : Rounds (Spans text (.one set)) n i j ↔
    j = i + n ∧ ∃ word, text.drop i = word ++ text.drop j ∧ word.length = n ∧
      ∀ c ∈ word, set.mem c = true := by
  induction n generalizing i with
  | zero =>
    constructor
    · rintro rfl
      exact ⟨rfl, [], rfl, rfl, by simp⟩
    · rintro ⟨rfl, _⟩
      rfl
  | succ n ih =>
    simp only [Rounds, ih, spans_one]
    constructor
    · rintro ⟨k, ⟨rfl, c, hc, hm⟩, rfl, word, hw, rfl, hall⟩
      refine ⟨by omega, c :: word, ?_, rfl, by simpa [hm] using hall⟩
      rw [hc, hw, List.cons_append]
    · rintro ⟨rfl, word, hw, hlen, hall⟩
      cases word with
      | nil => simp at hlen
      | cons c word =>
        have hnext : text.drop (i + 1) = word ++ text.drop (i + (n + 1)) := by
          rw [← List.tail_drop, hw]
          rfl
        refine ⟨i + 1, ⟨rfl, c, ?_, hall c (by simp)⟩, by omega, word, hnext, by simpa using hlen,
          fun d hd => hall d (by simp [hd])⟩
        rw [hw, hnext, List.cons_append]

theorem spans_hexRun : Spans text (hexRun n) i j ↔
    j = i + n ∧ ∃ word, HexGroup n word ∧ text.drop i = word ++ text.drop j := by
  simp only [hexRun, Spans]
  constructor
  · rintro ⟨m, hle, hmax, h⟩
    have hm := hmax n rfl
    obtain rfl : m = n := by omega
    obtain ⟨hj, word, hw, hlen, hall⟩ := (rounds_one hexDigits).mp h
    exact ⟨hj, word, ⟨hlen, fun c hc => mem_hexDigits c ▸ hall c hc⟩, hw⟩
  · rintro ⟨hj, word, ⟨hlen, hall⟩, hw⟩
    refine ⟨n, Nat.le_refl n, ?_, (rounds_one hexDigits).mpr
      ⟨hj, word, hw, hlen, fun c hc => mem_hexDigits c ▸ hall c hc⟩⟩
    rintro _ ⟨⟩
    omega

theorem spans_textStart : Spans text (.here .textStart) i j ↔ j = i ∧ i = 0 := by
  simp only [Spans, holdsBetween, before?]
  constructor
  · rintro ⟨rfl, hle, h⟩
    refine ⟨rfl, Decidable.byContradiction fun hj => ?_⟩
    rw [if_neg hj, Option.isNone_iff_eq_none, List.getElem?_eq_none_iff] at h
    omega
  · rintro ⟨rfl, rfl⟩
    simp

theorem spans_textEnd : Spans text (.here .textEnd) i j ↔ j = i ∧ i = text.length := by
  simp only [Spans, holdsBetween]
  constructor
  · rintro ⟨rfl, hle, h⟩
    rw [Option.isNone_iff_eq_none, List.getElem?_eq_none_iff] at h
    exact ⟨rfl, by omega⟩
  · rintro ⟨rfl, rfl⟩
    simp

theorem spans_seq (a b : Tree) :
    Spans text (.seq a b) i j ↔ ∃ k, Spans text a i k ∧ Spans text b k j := Iff.rfl

-- ---------------------------------------------------------------------------
-- Its occurrences
-- ---------------------------------------------------------------------------

theorem spans_hexRun_dash {rest : Tree} :
    Spans text (.seq (hexRun n) (.seq dash rest)) i j ↔
      ∃ word, HexGroup n word ∧ text.drop i = word ++ '-' :: text.drop (i + n + 1) ∧
        Spans text rest (i + n + 1) j := by
  simp only [spans_seq, spans_hexRun, spans_dash]
  constructor
  · rintro ⟨_, ⟨rfl, word, hg, hw⟩, _, ⟨rfl, hd⟩, h⟩
    exact ⟨word, hg, by rw [hw, hd], h⟩
  · rintro ⟨word, hg, hw, h⟩
    have hd : text.drop (i + n) = '-' :: text.drop (i + n + 1) := by
      rw [← List.drop_drop, hw, ← hg.1, List.drop_left]
    exact ⟨_, ⟨rfl, word, hg, by rw [hw, hd]⟩, _, ⟨rfl, hd⟩, h⟩

theorem spans_lastGroup : Spans text (.seq (hexRun n) (.here .textEnd)) i j ↔
    j = i + n ∧ text.length = i + n ∧ HexGroup n (text.drop i) := by
  simp only [spans_seq, spans_hexRun, spans_textEnd]
  constructor
  · rintro ⟨k, ⟨rfl, word, hg, hw⟩, rfl, hend⟩
    rw [List.drop_of_length_le (Nat.le_of_eq hend.symm), List.append_nil] at hw
    exact ⟨rfl, hend.symm, hw ▸ hg⟩
  · rintro ⟨rfl, hend, hg⟩
    refine ⟨_, ⟨rfl, _, hg, ?_⟩, rfl, hend.symm⟩
    rw [List.drop_of_length_le (Nat.le_of_eq hend), List.append_nil]

theorem drop_group {word rest : List Char} (hg : HexGroup n word)
    (h : text.drop i = word ++ '-' :: rest) : text.drop (i + n + 1) = rest := by
  rw [Nat.add_assoc, ← List.drop_drop, h, ← List.drop_drop, ← hg.1, List.drop_left]
  rfl

theorem occurs_tree : occurs tree text = true ↔
    ∃ a b c d e : List Char, HexGroup 8 a ∧ HexGroup 4 b ∧ HexGroup 4 c ∧ HexGroup 4 d ∧
      HexGroup 12 e ∧ text = a ++ '-' :: (b ++ '-' :: (c ++ '-' :: (d ++ '-' :: e))) := by
  rw [occurs_iff (by decide)]
  simp only [tree, spans_seq _ (.seq (hexRun 8) _), spans_textStart, spans_hexRun_dash,
    spans_lastGroup]
  constructor
  · rintro ⟨i, j, -, _, ⟨rfl, rfl⟩, a, ha, hab, b, hb, hbc, c, hc, hcd, d, hd, hde, -, -, he⟩
    refine ⟨a, b, c, d, _, ha, hb, hc, hd, he, ?_⟩
    rw [← hde, ← hcd, ← hbc, ← hab, List.drop_zero]
  · rintro ⟨a, b, c, d, e, ha, hb, hc, hd, he, h⟩
    have hab : text.drop 0 = _ := h
    have hbc := drop_group ha hab
    have hcd := drop_group hb hbc
    have hde := drop_group hc hcd
    have hend := drop_group hd hde
    have hlen : text.length = 0 + 8 + 1 + 4 + 1 + 4 + 1 + 4 + 1 + 12 := by
      simp only [h, List.length_append, List.length_cons, ha.1, hb.1, hc.1, hd.1, he.1]
    exact ⟨0, _, Nat.zero_le _, 0, ⟨rfl, rfl⟩, a, ha, by rw [hbc, hab], b, hb, by rw [hcd, hbc],
      c, hc, by rw [hde, hcd], d, hd, by rw [hend, hde], rfl, hlen, hend ▸ he⟩

theorem search_uuidPattern (text : String) :
    Pattern.search ⟨tree⟩ text = .found ↔ IsUuid text := by
  rw [Pattern.search, if_pos (by decide), IsUuid, ← occurs_tree]
  split <;> simp_all

end Uuid

instance (text : String) : Decidable (IsUuid text) :=
  decidable_of_iff _ (Uuid.search_uuidPattern text)

end EventAdmission
