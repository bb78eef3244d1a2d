import EventAdmission.Proofs.Text.Percent
import EventAdmission.Url.Basic

/-!
# References that are a fragment alone

A reference such as `#/definitions/a` names a place in the document that it
stands in. It keeps the base up to the fragment (`join_hash`). The fragment is
tidied and encoded there and decoded when it is looked at, so its text is
`fragmentText`. That is the text as it is written if it has nothing to tidy or to
decode (`Verbatim`); plain characters at its front stay in any case
(`fragment_front`), so they decide where the pointer starts.
-/

namespace EventAdmission.Url

open Text

variable {base : Url} {c : Char} {front rest text : List Char} {fragment : String}

-- ---------------------------------------------------------------------------
-- Tidying
-- ---------------------------------------------------------------------------

def isBlank (c : Char) : Bool := c.toNat ≤ 0x20

def isBreak (c : Char) : Bool := c = '\t' || c = '\n' || c = '\r'

def tidied (text : List Char) : List Char :=
  (text.reverse.dropWhile isBlank).reverse.filter fun c => !isBreak c

theorem trimmed_eq (text : List Char) : trimmed text = tidied (text.dropWhile isBlank) := by
  have hkept : ∀ c, (decide (c ≠ '\t') && decide (c ≠ '\n') && decide (c ≠ '\r')) = !isBreak c := by
    intro c
    simp [isBreak]
  simp only [trimmed, hkept]
  rfl

theorem not_isBreak (h : isBlank c = false) : isBreak c = false := by
  cases hc : isBreak c with
  | false => rfl
  | true =>
    simp only [isBreak, Bool.or_eq_true, decide_eq_true_eq] at hc
    obtain (rfl | rfl) | rfl := hc <;> exact absurd h (by decide)

theorem dropWhile_isBlank (h : ∀ c ∈ text, isBlank c = false) : text.dropWhile isBlank = text := by
  cases text with
  | nil => rfl
  | cons c text => rw [List.dropWhile_cons_of_neg (by simp [h c])]

theorem filter_isBreak (h : ∀ c ∈ text, isBreak c = false) :
    (text.filter fun c => !isBreak c) = text :=
  List.filter_eq_self.mpr fun c hc => by simp [h c hc]

theorem tidied_front (h : ∀ c ∈ front, isBlank c = false) :
    tidied (front ++ rest) = front ++ tidied rest := by
  have hback : (rest.reverse ++ front.reverse).dropWhile isBlank =
      rest.reverse.dropWhile isBlank ++ front.reverse := by
    rw [List.dropWhile_append]
    split
    · rename_i hempty
      rw [List.isEmpty_iff.mp hempty, List.nil_append,
        dropWhile_isBlank fun c hc => h c (List.mem_reverse.mp hc)]
    · rfl
  rw [tidied, List.reverse_append, hback, List.reverse_append, List.reverse_reverse,
    List.filter_append, filter_isBreak fun c hc => not_isBreak (h c hc), tidied]

theorem trimmed_hash (text : List Char) : trimmed ('#' :: text) = '#' :: tidied text := by
  have hfront : ∀ c ∈ ['#'], isBlank c = false := by simp [isBlank]
  rw [trimmed_eq]
  exact tidied_front hfront

-- ---------------------------------------------------------------------------
-- References
-- ---------------------------------------------------------------------------

theorem encodedInFragment_keepsEscapes : KeepsEscapes encodedInFragment := by
  have hsmall : ∀ n < 0x80, (hexValue? (Char.ofNat n)).isSome = true →
      encodedInFragment (Char.ofNat n) = false := by decide
  refine ⟨rfl, fun c hc => ?_⟩
  obtain ⟨d, hd⟩ := Option.isSome_iff_exists.mp hc
  have hdigit := hsmall c.toNat (hexValue?_lt hd)
  rw [Char.ofNat_toNat] at hdigit
  exact hdigit hc

theorem join_hash (fragment : String) : base.join ("#" ++ fragment) =
    .ok { base with fragment := some (percentEncode encodedInFragment (tidied fragment.toList)) } := by
  have hscheme : ∀ text, scheme? ('#' :: text) = none := fun text => rfl
  have htext : ("#" ++ fragment).toList = '#' :: fragment.toList := by simp
  rw [join, parseWith, htext, trimmed_hash]
  simp only [hscheme]

def fragmentText (fragment : String) : Except Utf8Fault (List Char) :=
  utf8Decode (percentDecode (tidied fragment.toList))

theorem decode_encoded (fragment : String) :
    utf8Decode (percentDecode (percentEncode encodedInFragment (tidied fragment.toList))) =
      fragmentText fragment := by
  rw [percentDecode_percentEncode encodedInFragment_keepsEscapes, fragmentText]

/-- A fragment with nothing to tidy and nothing to decode. -/
structure Verbatim (fragment : List Char) : Prop where
  unescaped : Unescaped fragment
  unbroken : ∀ c ∈ fragment, isBreak c = false
  closed : ∀ c ∈ fragment.getLast?, isBlank c = false

theorem Verbatim.tidied (h : Verbatim text) : tidied text = text := by
  have hback : text.reverse.dropWhile isBlank = text.reverse := by
    cases hr : text.reverse with
    | nil => rfl
    | cons c rest =>
      have hlast : c ∈ text.getLast? := by
        rw [← List.head?_reverse, hr]
        rfl
      rw [List.dropWhile_cons_of_neg (by simp [h.closed c hlast])]
  rw [Url.tidied, hback, List.reverse_reverse, filter_isBreak h.unbroken]

theorem Verbatim.fragmentText (h : Verbatim fragment.toList) :
    fragmentText fragment = .ok fragment.toList := by
  rw [Url.fragmentText, h.tidied, percentDecode_unescaped h.unescaped, utf8Decode_text]

-- ---------------------------------------------------------------------------
-- Plain characters
-- ---------------------------------------------------------------------------

def IsPlain (c : Char) : Bool := !isBlank c && c ≠ '%'

theorem fragment_front (h : ∀ c ∈ front, IsPlain c = true) (hfront : front <+: fragment.toList)
    (htext : fragmentText fragment = .ok text) : front <+: text := by
  obtain ⟨rest, hrest⟩ := hfront
  have hblank : ∀ c ∈ front, isBlank c = false := by
    intro c hc
    have hplain := h c hc
    simp only [IsPlain, Bool.and_eq_true, Bool.not_eq_true'] at hplain
    exact hplain.1
  have hpercent : '%' ∉ front := fun hc => absurd (h '%' hc) (by decide)
  rw [fragmentText, ← hrest, tidied_front hblank, percentDecode_front hpercent] at htext
  obtain ⟨rest', rfl⟩ := utf8Decode_front htext
  exact List.prefix_append front rest'

end EventAdmission.Url
