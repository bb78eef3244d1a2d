import EventAdmission.Proofs.Json.Pointer
import EventAdmission.Proofs.Text.Split

/-!
# Lines of a text

A text is as many lines as the line feeds in it and one. Where texts are put
together, each part brings its own line feeds (`oneLine_append`), and a list of
texts that start new lines has the lines of all of them (`lines_join`).
-/

namespace EventAdmission.Text

variable {text other separator : String} {texts : List String} {chars : List Char} {n : Nat}

def lines (text : String) : List String := (splitAt '\n' text.toList).map String.ofList

def OneLine (text : String) : Prop := '\n' ∉ text.toList

instance : DecidablePred OneLine := fun text => inferInstanceAs (Decidable ('\n' ∉ text.toList))

@[simp] theorem oneLine_append : OneLine (text ++ other) ↔ OneLine text ∧ OneLine other := by
  simp [OneLine]

@[simp] theorem oneLine_ofList : OneLine (String.ofList chars) ↔ '\n' ∉ chars := by
  simp [OneLine]

@[simp] theorem oneLine_repr : OneLine n.repr := oneLine_ofList.mpr (Step.not_mem_toDigits rfl)

theorem oneLine_intercalate (h : OneLine separator) :
    OneLine (separator.intercalate texts) ↔ ∀ text ∈ texts, OneLine text := by
  induction texts with
  | nil => simp [OneLine]
  | cons text texts ih =>
    cases texts with
    | nil => simp
    | cons next texts =>
      rw [String.intercalate_cons_cons, oneLine_append, oneLine_append, ih, List.forall_mem_cons]
      simp [h]

-- ---------------------------------------------------------------------------
-- Lines
-- ---------------------------------------------------------------------------

theorem oneLine_of_mem_lines (h : text ∈ lines other) : OneLine text := by
  obtain ⟨line, hline, rfl⟩ := List.mem_map.mp h
  exact oneLine_ofList.mpr (not_mem_splitAt hline)

theorem lines_of_oneLine (h : OneLine text) : lines text = [text] := by
  rw [lines, splitAt_last h]
  simp

theorem lines_append : lines (text ++ "\n" ++ other) = lines text ++ lines other := by
  have hfeed : (text ++ "\n" ++ other).toList = text.toList ++ '\n' :: other.toList := by simp
  rw [lines, hfeed, splitAt_append, List.map_append, lines, lines]

theorem lines_join : lines (text ++ String.join (texts.map ("\n" ++ ·))) =
    lines text ++ texts.flatMap lines := by
  induction texts generalizing text with
  | nil => simp
  | cons next texts ih =>
    rw [List.map_cons, String.join_cons, ← String.append_assoc, ← String.append_assoc, ih,
      lines_append, List.flatMap_cons, List.append_assoc]

theorem flatMap_lines : texts.flatMap lines = texts ↔ ∀ text ∈ texts, OneLine text := by
  constructor
  · intro h text htext
    rw [← h] at htext
    obtain ⟨other, -, htext⟩ := List.mem_flatMap.mp htext
    exact oneLine_of_mem_lines htext
  · intro h
    induction texts with
    | nil => rfl
    | cons text texts ih =>
      obtain ⟨htext, h⟩ := List.forall_mem_cons.mp h
      rw [List.flatMap_cons, lines_of_oneLine htext, ih h, List.singleton_append]

end EventAdmission.Text
