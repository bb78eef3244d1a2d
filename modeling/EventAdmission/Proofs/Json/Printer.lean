import EventAdmission.Json.Printer
import EventAdmission.Proofs.Json.Values
import EventAdmission.Proofs.Text.Lines

/-!
# JSON text is one line

Control characters are escaped in strings and numbers have none, so the compact text
of a value has no line feeds, whatever strings and keys are in the value.
-/

namespace EventAdmission

variable {c : Char} {s : String} {n : Nat} {x : Json} {items : List Json} {members : Members}

-- ---------------------------------------------------------------------------
-- Numbers
-- ---------------------------------------------------------------------------

theorem newline_not_mem_toDigits : '\n' ∉ Nat.toDigits 10 n := Step.not_mem_toDigits rfl

namespace FloatStyle

variable {style : FloatStyle} {d : Decimal}

theorem newline_not_mem_positional : '\n' ∉ style.positional d := by
  have htake : ∀ k, '\n' ∉ d.text.take k := fun k h =>
    newline_not_mem_toDigits (List.mem_of_mem_take h)
  have hdrop : ∀ k, '\n' ∉ d.text.drop k := fun k h =>
    newline_not_mem_toDigits (List.mem_of_mem_drop h)
  have htext : '\n' ∉ d.text := newline_not_mem_toDigits
  unfold positional
  dsimp only
  split
  · split <;> simp [htext, List.mem_replicate]
  · split <;> simp [htake, hdrop, htext, List.mem_replicate]

theorem newline_not_mem_scientific : '\n' ∉ scientific d := by
  have htext : '\n' ∉ d.text := newline_not_mem_toDigits
  have hpower : '\n' ∉ Nat.toDigits 10 d.order.natAbs := newline_not_mem_toDigits
  unfold scientific
  dsimp only
  split
  · rename_i first second rest hdigits
    rw [hdigits] at htext
    simp only [List.mem_cons, not_or] at htext
    split <;> simp [htext, hpower]
  · split <;> simp [htext, hpower]

@[simp] theorem oneLine_write {value : Binary64} : Text.OneLine (style.write value) := by
  have hbody : '\n' ∉ (if style.isPositional value.shortest.order
      then style.positional value.shortest else scientific value.shortest) := by
    split
    · exact newline_not_mem_positional
    · exact newline_not_mem_scientific
  unfold write
  dsimp only
  rw [Text.oneLine_ofList]
  split
  · simpa using hbody
  · exact hbody

end FloatStyle

theorem Number.newline_not_mem_chars (n : Number) : '\n' ∉ n.chars := by
  cases n with
  | natural n => exact newline_not_mem_toDigits
  | negative n => simpa [chars] using newline_not_mem_toDigits
  | float value => exact FloatStyle.oneLine_write

-- ---------------------------------------------------------------------------
-- Values
-- ---------------------------------------------------------------------------

namespace Json

theorem newline_ne_hexDigit : '\n' ≠ hexDigit n := by
  have hall : ∀ k < 16, '\n' ≠ Nat.digitChar k := by decide
  exact hall _ (Nat.mod_lt _ (by decide))

theorem newline_not_mem_escape : '\n' ∉ escape c := by
  by_cases hc : c = '\n'
  · subst hc
    decide
  · unfold escape
    split
    case h_8 =>
      split
      · simp [newline_ne_hexDigit]
      · simpa using Ne.symm hc
    all_goals simp

theorem newline_not_mem_quoted : '\n' ∉ quoted s := by
  simp [quoted, newline_not_mem_escape]

theorem newline_not_mem_itemChars (h : ∀ x ∈ items, '\n' ∉ x.chars) : '\n' ∉ itemChars items := by
  induction items with
  | nil => simp [itemChars]
  | cons x items ih =>
    obtain ⟨hx, h⟩ := List.forall_mem_cons.mp h
    cases items with
    | nil => exact hx
    | cons y items => simp [itemChars, hx, ih h]

theorem newline_not_mem_memberChars (h : ∀ e ∈ members, '\n' ∉ e.2.chars) :
    '\n' ∉ memberChars members := by
  induction members with
  | nil => simp [memberChars]
  | cons e members ih =>
    obtain ⟨he, h⟩ := List.forall_mem_cons.mp h
    cases members with
    | nil => simp [memberChars, newline_not_mem_quoted, he]
    | cons next members => simp [memberChars, newline_not_mem_quoted, he, ih h]

theorem newline_not_mem_chars (x : Json) : '\n' ∉ x.chars := by
  induction x using Json.induct with
  | scalar x harr hobj =>
    cases x with
    | null => decide
    | bool b => cases b <;> decide
    | num n => exact n.newline_not_mem_chars
    | str s => exact newline_not_mem_quoted
    | arr items => cases harr
    | obj members => cases hobj
  | array items ih => simp [chars, newline_not_mem_itemChars ih]
  | object members ih => simp [chars, newline_not_mem_memberChars ih]

@[simp] theorem oneLine_text : Text.OneLine x.text := by
  simpa [text] using x.newline_not_mem_chars

end Json

end EventAdmission
