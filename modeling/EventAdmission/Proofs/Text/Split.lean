import EventAdmission.Text.Split

/-!
# Cutting texts

Cutting a text at a separator and joining parts with it undo each other
(`intercalate_splitAt`, `splitAt_intercalate`), for parts without the separator.
-/

namespace EventAdmission.Text

variable {separator : Char} {text front back part : List Char} {parts : List (List Char)}

theorem splitAt_ne_nil (text : List Char) : splitAt separator text ≠ [] := by
  cases text with
  | nil => simp [splitAt]
  | cons c rest =>
    simp only [splitAt]
    split
    · simp
    · split <;> simp

theorem splitAt_append : splitAt separator (front ++ separator :: back) =
    splitAt separator front ++ splitAt separator back := by
  induction front with
  | nil => simp [splitAt]
  | cons c front ih =>
    simp only [List.cons_append, splitAt, ih]
    split
    · rfl
    · cases hs : splitAt separator front with
      | nil => exact absurd hs (splitAt_ne_nil front)
      | cons part parts => rfl

theorem splitAt_last (h : separator ∉ part) : splitAt separator part = [part] := by
  induction part with
  | nil => rfl
  | cons c part ih =>
    rw [List.mem_cons, not_or] at h
    obtain ⟨hc, hpart⟩ := h
    rw [splitAt, if_neg (Ne.symm hc), ih hpart]

theorem splitAt_front (h : separator ∉ part) :
    splitAt separator (part ++ separator :: back) = part :: splitAt separator back := by
  rw [splitAt_append, splitAt_last h, List.singleton_append]

theorem not_mem_splitAt (h : part ∈ splitAt separator text) :
    separator ∉ part := by
  induction text generalizing part with
  | nil => simp_all [splitAt]
  | cons c text ih =>
    simp only [splitAt] at h
    split at h
    · rcases List.mem_cons.mp h with rfl | h
      · simp
      · exact ih h
    · rename_i hc
      cases hs : splitAt separator text with
      | nil => exact absurd hs (splitAt_ne_nil text)
      | cons first others =>
        rw [hs] at h ih
        rcases List.mem_cons.mp h with rfl | h
        · have hfirst := ih List.mem_cons_self
          simp [hfirst, Ne.symm hc]
        · exact ih (List.mem_cons_of_mem _ h)

theorem intercalate_splitAt (text : List Char) :
    [separator].intercalate (splitAt separator text) = text := by
  induction text with
  | nil => rfl
  | cons c text ih =>
    simp only [splitAt]
    cases hs : splitAt separator text with
    | nil => exact absurd hs (splitAt_ne_nil text)
    | cons first others =>
      rw [hs] at ih
      split
      · rename_i hc
        subst hc
        rw [← ih]
        rfl
      · cases others with
        | nil => simpa using ih
        | cons second others => simpa using ih

theorem splitAt_intercalate (hne : parts ≠ []) (h : ∀ part ∈ parts, separator ∉ part) :
    splitAt separator ([separator].intercalate parts) = parts := by
  induction parts with
  | nil => exact absurd rfl hne
  | cons part parts ih =>
    obtain ⟨hpart, h⟩ := List.forall_mem_cons.mp h
    cases parts with
    | nil => rw [List.intercalate_singleton, splitAt_last hpart]
    | cons next parts =>
      rw [List.intercalate_cons_cons, List.append_assoc, List.singleton_append,
        splitAt_front hpart, ih (by simp) h]

end EventAdmission.Text
