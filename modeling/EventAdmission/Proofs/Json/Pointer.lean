import EventAdmission.Json.Pointer
import EventAdmission.Proofs.Text.Split
import EventAdmission.Schema.Format

/-!
# Pointers

The pointer of a path leads where the path leads (`pointer?_pointer`), whatever
the keys are: a slash in a key is not written as one, so the text is cut between
the steps, and each key and index is read back as it was. The text has the form
that the format `json-pointer` asks for (`isJsonPointer_pointer`).
-/

namespace EventAdmission

open Text

variable {x y : Json} {s : Step} {path : Path} {c : Char} {n : Nat} {part rest : List Char}

-- ---------------------------------------------------------------------------
-- Places
-- ---------------------------------------------------------------------------

theorem at?_key {key : String} : x.at? (.key key :: path) = (x.member? key).bind (·.at? path) := by
  cases x <;> rfl

theorem at?_nil : x.at? [] = some x := rfl

theorem at?_step : x.at? (s :: path) = (x.step? s).bind (·.at? path) := rfl

theorem at?_append {further : Path} :
    x.at? (path ++ further) = (x.at? path).bind (·.at? further) := by
  induction path generalizing x with
  | nil => rfl
  | cons s path ih =>
    rw [List.cons_append, at?_step, at?_step, Option.bind_assoc]
    exact Option.bind_congr fun y _ => ih

theorem Json.tokens?_front (h : '/' ∉ part) :
    Json.tokens? ('/' :: part ++ '/' :: rest) = some (part :: splitAt '/' rest) := by
  rw [List.cons_append, Json.tokens?, splitAt_front h]

namespace Step

-- ---------------------------------------------------------------------------
-- Keys
-- ---------------------------------------------------------------------------

theorem unescape_cons (h : c ≠ '~') : unescape (c :: rest) = c :: unescape rest := by
  rw [unescape]
  · rintro _ rfl
    exact absurd rfl h
  · rintro _ rfl
    exact absurd rfl h

theorem unescape_plain (h : '~' ∉ part) : unescape part = part := by
  induction part with
  | nil => rfl
  | cons c part ih =>
    rw [List.mem_cons, not_or] at h
    obtain ⟨hc, hpart⟩ := h
    rw [unescape_cons (Ne.symm hc), ih hpart]

theorem unescape_escape : unescape (escape c ++ rest) = c :: unescape rest := by
  unfold escape
  split
  · rename_i hc
    rw [hc]
    rfl
  · split
    · rename_i hc
      rw [hc]
      rfl
    · rename_i hc _
      exact unescape_cons hc

theorem unescape_key (k : List Char) : unescape (k.flatMap escape) = k := by
  induction k with
  | nil => rfl
  | cons c k ih => rw [List.flatMap_cons, unescape_escape, ih]

theorem slash_not_mem_escape : '/' ∉ escape c := by
  unfold escape
  split
  · decide
  · split
    · decide
    · rename_i hc
      simpa using Ne.symm hc

-- ---------------------------------------------------------------------------
-- Indices
-- ---------------------------------------------------------------------------

theorem isDigit_toDigits (h : c ∈ Nat.toDigits 10 n) : c.isDigit = true :=
  Nat.isDigit_of_mem_toDigits (by decide) (by decide) h

theorem not_mem_toDigits (h : c.isDigit = false) : c ∉ Nat.toDigits 10 n := by
  intro hc
  exact Bool.eq_false_iff.mp h (isDigit_toDigits hc)

/-- Only zero is written with a zero at its front. -/
theorem head_toDigits (h : 0 < n) : (Nat.toDigits 10 n).head? ≠ some '0' := by
  induction n using Nat.strongRecOn with
  | ind n ih =>
    rw [Nat.toDigits_eq_if (by decide)]
    -- A number of several digits starts like its tenth.
    split
    · simpa [Nat.digitChar_eq_zero] using Nat.ne_of_gt h
    · rename_i hle
      have hsome : (Nat.toDigits 10 (n / 10)).head?.isSome = true := by
        simp [Nat.toDigits_ne_nil]
      rw [List.head?_append, Option.or_of_isSome hsome]
      exact ih (n / 10) (by omega) (by omega)

theorem index?_toDigits (n : Nat) : index? (Nat.toDigits 10 n) = some n := by
  have hdigits : (Nat.toDigits 10 n).all Char.isDigit = true :=
    List.all_eq_true.mpr fun _ => isDigit_toDigits
  have hvalue : (Nat.toDigits 10 n).foldl (fun m c => m * 10 + (c.toNat - '0'.toNat)) 0 = n := by
    have hround : Nat.ofDigitChars 10 (Nat.toDigits 10 n) 0 = n := Nat.ofDigitChars_ten_toDigits
    simpa only [Nat.ofDigitChars_eq_foldl, Nat.mul_comm] using hround
  rw [index?, hdigits, hvalue]
  rcases Nat.eq_zero_or_pos n with rfl | hpos
  · rfl
  · simp [head_toDigits hpos, Nat.toDigits_ne_nil]

-- ---------------------------------------------------------------------------
-- Steps
-- ---------------------------------------------------------------------------

theorem slash_not_mem_chars : '/' ∉ s.chars := by
  cases s with
  | key k =>
    intro h
    obtain ⟨c, -, hc⟩ := List.mem_flatMap.mp h
    exact slash_not_mem_escape hc
  | index n => exact not_mem_toDigits (by decide)

end Step

namespace Json

theorem token?_chars (h : x.step? s = some y) : x.token? s.chars = some y := by
  cases x with
  | obj members =>
    cases s with
    | key k => rwa [token?, Step.chars, Step.unescape_key, String.ofList_toList]
    | index n => cases h
  | arr items =>
    cases s with
    | key k => cases h
    | index n =>
      have htilde : '~' ∉ Nat.toDigits 10 n := Step.not_mem_toDigits (by decide)
      rw [token?, Step.chars, Step.unescape_plain htilde, Step.index?_toDigits]
      exact h
  | _ => cases s <;> cases h

theorem follow_chars (h : x.at? path = some y) : x.follow (path.map Step.chars) = some y := by
  induction path generalizing x with
  | nil => exact h
  | cons s path ih =>
    obtain ⟨z, hz, hrest⟩ := Option.bind_eq_some_iff.mp h
    rw [List.map_cons, follow, token?_chars hz]
    exact ih hrest

theorem splitAt_path (h : '/' ∉ part) :
    splitAt '/' (part ++ path.chars) = part :: path.map Step.chars := by
  induction path generalizing part with
  | nil =>
    rw [Path.chars, List.flatMap_nil, List.append_nil]
    exact splitAt_last h
  | cons s path ih =>
    have hchars : Path.chars (s :: path) = '/' :: (s.chars ++ Path.chars path) := rfl
    rw [hchars, splitAt_front h, ih Step.slash_not_mem_chars, List.map_cons]

theorem tokens?_chars (path : Path) : tokens? path.chars = some (path.map Step.chars) := by
  cases path with
  | nil => rfl
  | cons s path => exact congrArg some (splitAt_path Step.slash_not_mem_chars)

theorem pointer?_pointer (h : x.at? path = some y) : x.pointer? path.pointer = some y := by
  rw [pointer?, Path.pointer, String.toList_ofList, tokens?_chars]
  exact follow_chars h

end Json

-- ---------------------------------------------------------------------------
-- Form
-- ---------------------------------------------------------------------------

namespace Format

theorem tildesEscape_cons (h : c ≠ '~') : tildesEscape (c :: rest) = tildesEscape rest := by
  rw [tildesEscape]
  all_goals
    intros
    contradiction

theorem tildesEscape_plain (h : '~' ∉ part) : tildesEscape (part ++ rest) = tildesEscape rest := by
  induction part with
  | nil => rfl
  | cons c part ih =>
    rw [List.mem_cons, not_or] at h
    obtain ⟨hc, hpart⟩ := h
    rw [List.cons_append, tildesEscape_cons (Ne.symm hc), ih hpart]

theorem tildesEscape_escape : tildesEscape (Step.escape c ++ rest) = tildesEscape rest := by
  unfold Step.escape
  split
  · rfl
  · split
    · rfl
    · rename_i hc _
      exact tildesEscape_cons hc

theorem tildesEscape_chars : tildesEscape (s.chars ++ rest) = tildesEscape rest := by
  cases s with
  | key k =>
    rw [Step.chars]
    induction k.toList with
    | nil => rfl
    | cons c k ih => rw [List.flatMap_cons, List.append_assoc, tildesEscape_escape, ih]
  | index n => exact tildesEscape_plain (Step.not_mem_toDigits (by decide))

theorem tildesEscape_path (path : Path) : tildesEscape path.chars = true := by
  induction path with
  | nil => rfl
  | cons s path ih =>
    have hchars : Path.chars (s :: path) = '/' :: (s.chars ++ Path.chars path) := rfl
    rw [hchars, tildesEscape_cons (by decide), tildesEscape_chars, ih]

theorem isJsonPointer_pointer (path : Path) : isJsonPointer path.pointer.toList = true := by
  rw [isJsonPointer, Path.pointer, String.toList_ofList, tildesEscape_path, Bool.and_true]
  cases path <;> rfl

end Format

end EventAdmission
