import EventAdmission.Text.Utf8

/-!
# Reading back what is written in UTF-8

The bytes of a text are read back as the text, whatever follows them
(`utf8DecodeFrom_text`). There is one case for each length of a sequence.
-/

namespace EventAdmission.Text

variable {c : Char} {fuel index n : Nat} {bytes : List Nat} {text : List Char}

-- ---------------------------------------------------------------------------
-- Sequences
-- ---------------------------------------------------------------------------

theorem toNat_range (c : Char) : c.toNat < 0xd800 ∨ 0xdfff < c.toNat ∧ c.toNat < 0x110000 := c.valid

theorem utf8Tail?_two (hlow : 0x80 ≤ n) (hhigh : n < 0x800) :
    utf8Tail? (0xc0 + n / 64) = some (0x80, 0xbf, 0) := by
  rw [utf8Tail?, if_pos (by omega)]

theorem utf8Tail?_three (hlow : 0x800 ≤ n) (hhigh : n < 0x10000)
    (hvalid : n < 0xd800 ∨ 0xdfff < n) : ∃ low high,
    utf8Tail? (0xe0 + n / 4096) = some (low, high, 1) ∧ low ≤ 0x80 + n / 64 % 64 ∧
      0x80 + n / 64 % 64 ≤ high := by
  unfold utf8Tail?
  rw [if_neg (by omega)]
  split
  · exact ⟨_, _, rfl, by omega, by omega⟩
  · split
    · exact ⟨_, _, rfl, by omega, by omega⟩
    · rw [if_pos (by omega)]
      exact ⟨_, _, rfl, by omega, by omega⟩

theorem utf8Tail?_four (hlow : 0x10000 ≤ n) (hhigh : n < 0x110000) : ∃ low high,
    utf8Tail? (0xf0 + n / 262144) = some (low, high, 2) ∧ low ≤ 0x80 + n / 4096 % 64 ∧
      0x80 + n / 4096 % 64 ≤ high := by
  unfold utf8Tail?
  rw [if_neg (by omega), if_neg (by omega), if_neg (by omega), if_neg (by omega)]
  split
  · exact ⟨_, _, rfl, by omega, by omega⟩
  · split
    · exact ⟨_, _, rfl, by omega, by omega⟩
    · rw [if_pos (by omega)]
      exact ⟨_, _, rfl, by omega, by omega⟩

theorem utf8DecodeFrom_sequence {b low high more : Nat} {rest : List Nat} (hb : ¬ b < 0x80)
    (htail : utf8Tail? b = some (low, high, more))
    (hrest : utf8Continue index low high 1 (utf8Lead b) more rest = .ok (c, bytes)) :
    utf8DecodeFrom (fuel + 1) index (b :: rest) =
      (c :: ·) <$> utf8DecodeFrom fuel (index + 2 + more) bytes := by
  simp only [utf8DecodeFrom, if_neg hb, htail, hrest, bind, Except.bind]
  cases utf8DecodeFrom fuel (index + 2 + more) bytes <;> rfl

theorem utf8Continue_step {low high seen code more b : Nat} {rest : List Nat}
    (hb : low ≤ b ∧ b ≤ high) :
    utf8Continue index low high seen code (more + 1) (b :: rest) =
      utf8Continue index 0x80 0xbf (seen + 1) (code * 64 + (b - 0x80)) more rest := by
  rw [utf8Continue, if_pos hb]

theorem utf8Continue_last {low high seen code b : Nat} {rest : List Nat}
    (hb : low ≤ b ∧ b ≤ high) (hc : code * 64 + (b - 0x80) = c.toNat) :
    utf8Continue index low high seen code 0 (b :: rest) = .ok (c, rest) := by
  simp only [utf8Continue, if_pos hb, hc, Char.ofNat_toNat]

theorem utf8DecodeFrom_char (c : Char) :
    utf8DecodeFrom (fuel + 1) index (utf8Bytes c ++ bytes) =
      (c :: ·) <$> utf8DecodeFrom fuel (index + (utf8Bytes c).length) bytes := by
  have hvalid := toNat_range c
  unfold utf8Bytes
  dsimp only
  -- One case for each length of the sequence.
  split
  · rename_i hone
    simp only [List.cons_append, List.nil_append, utf8DecodeFrom, if_pos hone, Char.ofNat_toNat,
      List.length_singleton]
    cases utf8DecodeFrom fuel (index + 1) bytes <;> rfl
  · split
    · simp only [List.cons_append, List.nil_append]
      refine utf8DecodeFrom_sequence (by omega) (utf8Tail?_two (by omega) (by omega)) ?_
      rw [utf8Lead, if_pos (by omega)]
      exact utf8Continue_last (by omega) (by omega)
    · split
      · obtain ⟨low, high, htail, hlow, hhigh⟩ :=
          utf8Tail?_three (n := c.toNat) (by omega) (by omega) (by omega)
        simp only [List.cons_append, List.nil_append]
        refine utf8DecodeFrom_sequence (by omega) htail ?_
        rw [utf8Lead, if_neg (by omega), if_pos (by omega), utf8Continue_step ⟨hlow, hhigh⟩]
        exact utf8Continue_last (by omega) (by omega)
      · obtain ⟨low, high, htail, hlow, hhigh⟩ :=
          utf8Tail?_four (n := c.toNat) (by omega) (by omega)
        simp only [List.cons_append, List.nil_append]
        refine utf8DecodeFrom_sequence (by omega) htail ?_
        rw [utf8Lead, if_neg (by omega), if_neg (by omega), utf8Continue_step ⟨hlow, hhigh⟩,
          utf8Continue_step (by omega)]
        exact utf8Continue_last (by omega) (by omega)

theorem utf8Bytes_ne_nil (c : Char) : utf8Bytes c ≠ [] := by
  unfold utf8Bytes
  dsimp only
  split
  · simp
  · split
    · simp
    · split <;> simp

theorem utf8Bytes_lt {b : Nat} (h : b ∈ utf8Bytes c) : b < 256 := by
  have hvalid := toNat_range c
  unfold utf8Bytes at h
  dsimp only at h
  split at h
  · simp at h
    omega
  · split at h
    · simp at h
      omega
    · split at h
      · simp at h
        omega
      · simp at h
        omega

-- ---------------------------------------------------------------------------
-- Texts
-- ---------------------------------------------------------------------------

theorem utf8DecodeFrom_text (h : text.length ≤ fuel) :
    utf8DecodeFrom fuel index (text.flatMap utf8Bytes ++ bytes) =
      (text ++ ·) <$> utf8DecodeFrom (fuel - text.length)
        (index + (text.flatMap utf8Bytes).length) bytes := by
  induction text generalizing fuel index with
  | nil =>
    show utf8DecodeFrom fuel index bytes = ([] ++ ·) <$> utf8DecodeFrom fuel index bytes
    cases utf8DecodeFrom fuel index bytes <;> rfl
  | cons c text ih =>
    cases fuel with
    | zero => simp at h
    | succ fuel =>
      rw [List.flatMap_cons, List.append_assoc, utf8DecodeFrom_char, ih (by simpa using h),
        List.length_append, List.length_cons, Nat.add_sub_add_right, Nat.add_assoc]
      cases utf8DecodeFrom (fuel - text.length)
        (index + ((utf8Bytes c).length + (text.flatMap utf8Bytes).length)) bytes <;> rfl

theorem length_le_utf8 (text : List Char) : text.length ≤ (text.flatMap utf8Bytes).length := by
  induction text with
  | nil => simp
  | cons c text ih =>
    have hpos := List.length_pos_iff.mpr (utf8Bytes_ne_nil c)
    simp only [List.length_cons, List.flatMap_cons, List.length_append]
    omega

theorem utf8Decode_text (text : List Char) : utf8Decode (text.flatMap utf8Bytes) = .ok text := by
  have h : utf8DecodeFrom _ 0 (text.flatMap utf8Bytes ++ []) = _ :=
    utf8DecodeFrom_text (length_le_utf8 text)
  rw [List.append_nil] at h
  have hnil : ∀ fuel index, utf8DecodeFrom fuel index [] = .ok [] := by
    intro fuel index
    cases fuel <;> rfl
  rw [utf8Decode, h, hnil]
  simp [Functor.map, Except.map]

theorem utf8Decode_front {front : List Char}
    (h : utf8Decode (front.flatMap utf8Bytes ++ bytes) = .ok text) :
    ∃ rest, text = front ++ rest := by
  have hfuel : front.length ≤ (front.flatMap utf8Bytes ++ bytes).length := by
    rw [List.length_append]
    exact Nat.le_trans (length_le_utf8 front) (Nat.le_add_right _ _)
  rw [utf8Decode, utf8DecodeFrom_text hfuel] at h
  cases hrest : utf8DecodeFrom ((front.flatMap utf8Bytes ++ bytes).length - front.length)
      (0 + (front.flatMap utf8Bytes).length) bytes with
  | error fault =>
    rw [hrest] at h
    cases h
  | ok rest =>
    rw [hrest] at h
    exact ⟨rest, (Except.ok.inj h).symm⟩

end EventAdmission.Text
