import EventAdmission.Proofs.Text.Utf8
import EventAdmission.Text.Percent

/-!
# Percent encoding and decoding

Decoding goes from one percent sign to the next: `percentDecode_percent` says what
happens at one, `percentDecode_other` elsewhere. A text without an escape stands for
its own bytes, and encoding a text does not change the bytes that it stands for
(`percentDecode_percentEncode`), as long as percent signs and digits are left alone.
-/

namespace EventAdmission.Text

variable {c : Char} {text rest front : List Char} {b : Nat} {encodes : Char → Bool}

-- ---------------------------------------------------------------------------
-- Decoding
-- ---------------------------------------------------------------------------

def hexPair? : List Char → Option (Nat × List Char)
  | a :: b :: rest => do some ((← hexValue? a) * 16 + (← hexValue? b), rest)
  | _ => none

theorem percentDecode_percent (text : List Char) : percentDecode ('%' :: text) =
    match hexPair? text with
    | some (b, rest) => b :: percentDecode rest
    | none => 0x25 :: percentDecode text := by
  cases text with
  | nil => rfl
  | cons a text =>
    cases text with
    | nil => rfl
    | cons b rest =>
      rw [percentDecode, hexPair?]
      cases hexValue? a with
      | none => rfl
      | some x => cases hexValue? b <;> rfl

theorem percentDecode_other (h : c ≠ '%') :
    percentDecode (c :: text) = utf8Bytes c ++ percentDecode text := by
  rw [percentDecode]
  rintro a b rest rfl
  exact absurd rfl h

theorem percentDecode_front (h : '%' ∉ front) :
    percentDecode (front ++ text) = front.flatMap utf8Bytes ++ percentDecode text := by
  induction front with
  | nil => rfl
  | cons c front ih =>
    rw [List.mem_cons, not_or] at h
    obtain ⟨hc, hfront⟩ := h
    rw [List.cons_append, percentDecode_other (Ne.symm hc), ih hfront, List.flatMap_cons,
      List.append_assoc]

def Unescaped (text : List Char) : Prop :=
  ∀ rest, '%' :: rest <:+ text → hexPair? rest = none

theorem unescaped_of_not_mem (h : '%' ∉ text) : Unescaped text := by
  intro rest hrest
  exact absurd (hrest.subset List.mem_cons_self) h

theorem percentDecode_unescaped (h : Unescaped text) :
    percentDecode text = text.flatMap utf8Bytes := by
  induction text with
  | nil => rfl
  | cons c text ih =>
    have htext : percentDecode text = text.flatMap utf8Bytes :=
      ih fun rest hrest => h rest (hrest.trans (List.suffix_cons c text))
    by_cases hc : c = '%'
    · subst hc
      rw [percentDecode_percent, h text List.suffix_rfl, htext]
      rfl
    · rw [percentDecode_other hc, htext, List.flatMap_cons]

-- ---------------------------------------------------------------------------
-- Encoding
-- ---------------------------------------------------------------------------

theorem hexValue?_digit : ∀ d < 16, hexValue? (Nat.digitChar d).toUpper = some d := by
  decide

theorem percentDecode_byte (h : b < 256) :
    percentDecode (percentByte b ++ text) = b :: percentDecode text := by
  have hpair : hexPair? ((Nat.digitChar (b / 16)).toUpper :: (Nat.digitChar (b % 16)).toUpper ::
      text) = some (b, text) := by
    have hhigh := hexValue?_digit (b / 16) (by omega)
    have hlow := hexValue?_digit (b % 16) (by omega)
    have hb : b / 16 * 16 + b % 16 = b := by omega
    simp [hexPair?, hhigh, hlow, hb]
  simp [percentByte, percentDecode_percent, hpair]

theorem percentDecode_bytes {bytes : List Nat} (h : ∀ b ∈ bytes, b < 256) :
    percentDecode (bytes.flatMap percentByte ++ text) = bytes ++ percentDecode text := by
  induction bytes with
  | nil => rfl
  | cons b bytes ih =>
    obtain ⟨hb, h⟩ := List.forall_mem_cons.mp h
    rw [List.flatMap_cons, List.append_assoc, percentDecode_byte hb, ih h, List.cons_append]

/-- The signs that an encoding leaves alone, so that what is encoded already stays as it is. -/
def KeepsEscapes (encodes : Char → Bool) : Prop :=
  encodes '%' = false ∧ ∀ c, (hexValue? c).isSome = true → encodes c = false

theorem percentEncode_cons : percentEncode encodes (c :: text) =
    (if 0x80 ≤ c.toNat || encodes c then (utf8Bytes c).flatMap percentByte else [c]) ++
      percentEncode encodes text := by
  rw [percentEncode, List.flatMap_cons, percentEncode]

theorem percentEncode_of_not (hsmall : c.toNat < 0x80) (h : encodes c = false) :
    percentEncode encodes (c :: text) = c :: percentEncode encodes text := by
  have hle : ¬ 0x80 ≤ c.toNat := by omega
  simp [percentEncode_cons, hle, h]

theorem hexValue?_lt {d : Nat} (h : hexValue? c = some d) : c.toNat < 0x80 := by
  unfold hexValue? at h
  split at h
  · rename_i hc
    have hle : c.toNat ≤ '9'.toNat := hc.2
    exact Nat.lt_of_le_of_lt hle (by decide)
  · split at h
    · rename_i hc
      have hle : c.toNat ≤ 'f'.toNat := hc.2
      exact Nat.lt_of_le_of_lt hle (by decide)
    · split at h
      · rename_i hc
        have hle : c.toNat ≤ 'F'.toNat := hc.2
        exact Nat.lt_of_le_of_lt hle (by decide)
      · cases h

theorem KeepsEscapes.digit (h : KeepsEscapes encodes) {d : Nat} (hd : hexValue? c = some d) :
    percentEncode encodes (c :: text) = c :: percentEncode encodes text :=
  percentEncode_of_not (hexValue?_lt hd) (h.2 c (by simp [hd]))

theorem hexValue?_head (encodes : Char → Bool) (text : List Char) (hc : hexValue? c = none) :
    ∃ head tail,
    percentEncode encodes (c :: text) = head :: tail ∧ hexValue? head = none := by
  rw [percentEncode_cons]
  split
  · cases hb : utf8Bytes c with
    | nil => exact absurd hb (utf8Bytes_ne_nil c)
    | cons b bytes => exact ⟨'%', _, rfl, rfl⟩
  · exact ⟨c, _, rfl, hc⟩

theorem hexPair?_of_head (h : hexValue? c = none) : hexPair? (c :: text) = none := by
  cases text with
  | nil => rfl
  | cons b rest => simp [hexPair?, h]

theorem hexPair?_of_second {a : Char} (h : hexValue? c = none) :
    hexPair? (a :: c :: text) = none := by
  simp [hexPair?, h]

theorem KeepsEscapes.hexPair? (h : KeepsEscapes encodes) (text : List Char) :
    hexPair? (percentEncode encodes text) =
      (hexPair? text).map fun e => (e.1, percentEncode encodes e.2) := by
  cases text with
  | nil => rfl
  | cons a text =>
    cases ha : hexValue? a with
    | none =>
      obtain ⟨head, tail, htext, hhead⟩ := hexValue?_head encodes text ha
      rw [htext, hexPair?_of_head hhead, hexPair?_of_head ha]
      rfl
    | some x =>
      rw [h.digit ha]
      cases text with
      | nil => rfl
      | cons b text =>
        cases hb : hexValue? b with
        | none =>
          obtain ⟨head, tail, htext, hhead⟩ := hexValue?_head encodes text hb
          rw [htext, hexPair?_of_second hhead, hexPair?_of_second hb]
          rfl
        | some y =>
          rw [h.digit hb]
          simp [Text.hexPair?, ha, hb]

theorem hexPair?_length {text : List Char} (h : hexPair? text = some (b, rest)) :
    rest.length < text.length := by
  cases text with
  | nil => cases h
  | cons x text =>
    cases text with
    | nil => cases h
    | cons y text =>
      obtain ⟨d, -, h⟩ := Option.bind_eq_some_iff.mp h
      obtain ⟨e, -, h⟩ := Option.bind_eq_some_iff.mp h
      obtain ⟨-, rfl⟩ := Prod.mk.inj (Option.some.inj h)
      simp only [List.length_cons]
      omega

theorem percentDecode_percentEncode (h : KeepsEscapes encodes) (text : List Char) :
    percentDecode (percentEncode encodes text) = percentDecode text := by
  induction hn : text.length using Nat.strongRecOn generalizing text with
  | ind n ih =>
    subst hn
    cases text with
    | nil => rfl
    | cons c text =>
      have htext : percentDecode (percentEncode encodes text) = percentDecode text :=
        ih text.length (by simp) text rfl
      by_cases hc : c = '%'
      · subst hc
        rw [percentEncode_of_not (by decide) h.1, percentDecode_percent, percentDecode_percent,
          h.hexPair?]
        cases hpair : Text.hexPair? text with
        | none => simp [htext]
        | some e =>
          obtain ⟨b, rest⟩ := e
          have hlength := hexPair?_length hpair
          simp [ih rest.length (by simp; omega) rest rfl]
      · rw [percentEncode_cons]
        split
        · rw [percentDecode_bytes fun _ => utf8Bytes_lt, htext, percentDecode_other hc]
        · rw [List.cons_append, List.nil_append, percentDecode_other hc, percentDecode_other hc,
            htext]

end EventAdmission.Text
