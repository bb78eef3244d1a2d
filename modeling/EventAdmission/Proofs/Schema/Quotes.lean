import EventAdmission.Proofs.Json.Printer
import EventAdmission.Proofs.Schema.Reached
import EventAdmission.Proofs.Schema.Told

/-!
# What violations quote

Some texts stand in a violation as they are: the keys on the way to a value, and for
some causes the value itself, if it is a string, keys of it or a text of the schema.
All else is told as JSON or in words of its own. `Fault.oneLine_violations`: the
violations of a fault are lines exactly if its quotes are.
-/

namespace EventAdmission

open Text

variable {x : Json} {path : Path} {f : Fault} {cause : Cause} {measure : Measure} {n : Nat}
  {kind : Kind} {c : CompiledSchema} {rules : Rule → Prop} {broken : Fault → Prop}

def Json.bare : Json → List String
  | .str s => [s]
  | _ => []

def Path.keys (path : Path) : List String :=
  path.filterMap fun step =>
    match step with
    | .key k => some k
    | .index _ => none

def Cause.terms : Cause → List String
  | noMatch pattern => [pattern]
  | wrongFormat name => [name]
  | unexpectedProperties keys => keys
  | noneValid keyword => [keyword]
  | wrongEncoding name => [name]
  | wrongMediaType name => [name]
  | badName text => [text]
  | unusable text => [text]
  | _ => []

def Cause.quotes (x : Json) (cause : Cause) : List String :=
  cause.terms ++ match cause with
    | missing key => [key]
    | noMatch _ => x.bare
    | notListed _ => x.bare
    | wrongFormat _ => x.bare
    | _ => []

/-- The texts that stand in the violations of a fault as they are. -/
def Fault.quotes (f : Fault) : List String := f.path.keys ++ f.cause.quotes f.instanceValue

-- ---------------------------------------------------------------------------
-- Places
-- ---------------------------------------------------------------------------

theorem Step.newline_mem_escape {c : Char} : '\n' ∈ Step.escape c ↔ c = '\n' := by
  unfold Step.escape
  split
  · rename_i hc
    subst hc
    decide
  · split
    · rename_i hc
      subst hc
      decide
    · simp [eq_comm]

theorem Path.oneLine_pointer : OneLine path.pointer ↔ ∀ key ∈ path.keys, OneLine key := by
  rw [pointer, oneLine_ofList]
  induction path with
  | nil => simp [chars, keys]
  | cons step path ih =>
    have hchars : chars (step :: path) = '/' :: (step.chars ++ chars path) := rfl
    rw [hchars, List.mem_cons, List.mem_append, not_or, not_or, ih]
    cases step with
    | key k =>
      have hkey : '\n' ∉ (Step.key k).chars ↔ OneLine k := by
        simp [Step.chars, Step.newline_mem_escape, OneLine]
      simp [keys, hkey]
    | index i => simp [keys, Step.chars, newline_not_mem_toDigits]

-- ---------------------------------------------------------------------------
-- Reasons
-- ---------------------------------------------------------------------------

theorem Json.oneLine_display : OneLine x.display ↔ ∀ text ∈ x.bare, OneLine text := by
  cases x <;> simp [display, bare]

@[simp] theorem Kind.oneLine_name : OneLine kind.name := by
  cases kind <;> decide

@[simp] theorem Measure.oneLine_count : OneLine (measure.count n) := by
  unfold count
  cases measure <;> dsimp only <;> split <;> simp +decide

theorem Cause.oneLine_unexpected {α : Type} {things : List α} : OneLine (unexpected things) := by
  unfold unexpected
  split <;> decide

@[simp] theorem Cause.oneLine_inQuotes {text : String} : OneLine (inQuotes text) ↔ OneLine text := by
  simp +decide [inQuotes]

theorem Cause.oneLine_text : OneLine (cause.text x) ↔ ∀ text ∈ cause.terms, OneLine text := by
  have hcomma : OneLine ", " := oneLine_ofList.mpr (by decide)
  have hkey : ∀ key : String, OneLine ("'" ++ key ++ "'") ↔ OneLine key := by
    intro key
    simp +decide
  unfold text
  split
  case h_2 => simp +decide [terms, oneLine_intercalate hcomma]
  case h_3 limit | h_4 limit | h_5 limit | h_6 limit =>
    have hlimit := limit.newline_not_mem_chars
    simp only [terms, oneLine_append, oneLine_ofList, Json.oneLine_text, hlimit, true_and,
      not_false_iff, and_true, List.not_mem_nil, false_implies, implies_true, iff_true]
    exact oneLine_ofList.mpr (by decide)
  case h_15 | h_17 | h_22 | h_26 | h_27 => simp +decide [terms]
  case h_19 => simp +decide [terms, oneLine_intercalate hcomma, oneLine_unexpected, hkey]
  case h_20 => simp +decide [terms, oneLine_intercalate hcomma, oneLine_unexpected]
  case h_28 | h_30 => simp [terms]
  case h_21 => simp +decide
  -- The others put JSON, counts and fixed words together.
  all_goals
    simp only [terms, oneLine_append, oneLine_inQuotes, Json.oneLine_text, Kind.oneLine_name,
      Measure.oneLine_count, FloatStyle.oneLine_write, true_and, and_true, List.not_mem_nil,
      false_implies, implies_true, iff_true]
    exact oneLine_ofList.mpr (by decide)

theorem Fault.oneLine_reasons : (∀ reason ∈ f.reasons, OneLine reason) ↔
    ∀ text ∈ f.cause.quotes f.instanceValue, OneLine text := by
  unfold reasons
  split
  case h_1 hcause => simp +decide [hcause, Cause.quotes, Cause.terms]
  case h_2 hcause => simp +decide [hcause, Cause.quotes, Cause.terms]
  case h_3 hcause =>
    simp +decide [hcause, Cause.quotes, Cause.terms, Json.oneLine_display, and_comm]
  case h_4 hcause => simp +decide [hcause, Cause.quotes, Cause.terms, Json.oneLine_display]
  case h_5 hcause =>
    simp +decide [hcause, Cause.quotes, Cause.terms, Json.oneLine_display, and_comm]
  case h_6 hmissing _ hmatch hlisted hformat =>
    have hquotes : f.cause.quotes f.instanceValue = f.cause.terms := by
      unfold Cause.quotes
      split
      · exact absurd ‹_› (hmissing _)
      · exact absurd ‹_› (hmatch _)
      · exact absurd ‹_› (hlisted _)
      · exact absurd ‹_› (hformat _)
      · exact List.append_nil _
    rw [List.forall_mem_singleton, hquotes]
    exact Cause.oneLine_text

-- ---------------------------------------------------------------------------
-- Violations
-- ---------------------------------------------------------------------------

theorem Violation.oneLine_text {v : Violation} :
    OneLine v.text ↔ OneLine v.pointer ∧ OneLine v.reason := by
  simp +decide [text]

theorem Fault.oneLine_violations (h : f.cause.isTold = true) :
    (∀ v ∈ f.violations, OneLine v.text) ↔ ∀ text ∈ f.quotes, OneLine text := by
  have hne : f.reasons ≠ [] := by
    intro hnil
    apply violations_ne_nil h
    rw [violations, hnil, List.map_nil]
  rw [quotes, List.forall_mem_append, ← Path.oneLine_pointer, ← oneLine_reasons, violations,
    List.forall_mem_map]
  simp only [Violation.oneLine_text]
  constructor
  · intro h
    obtain ⟨reason, hreason⟩ := List.exists_mem_of_ne_nil _ hne
    exact ⟨(h reason hreason).1, fun reason hreason => (h reason hreason).2⟩
  · rintro ⟨hpointer, h⟩ reason hreason
    exact ⟨hpointer, h reason hreason⟩

-- ---------------------------------------------------------------------------
-- Where quotes come from
-- ---------------------------------------------------------------------------

def Json.ownTexts : Json → List String
  | .str s => [s]
  | .obj members => Keyed.keys members
  | _ => []

/-- No string and no key in a document has a line feed. -/
def Json.IsPlain (x : Json) : Prop := ∀ y ∈ x.values, ∀ text ∈ y.ownTexts, OneLine text

theorem Json.IsPlain.inside (h : x.IsPlain) {y : Json} (hy : y ∈ x.inside) : y.IsPlain :=
  fun _ hz => h _ (Json.mem_values_trans (Json.mem_values.mpr (.inr hy)) hz)

theorem Json.isPlain_str {s : String} (h : OneLine s) : (Json.str s).IsPlain := by
  intro y hy text htext
  rcases mem_values.mp hy with rfl | hy
  · obtain rfl := List.mem_singleton.mp htext
    exact h
  · cases hy

theorem Json.IsPlain.bare (h : x.IsPlain) : ∀ text ∈ x.bare, OneLine text := by
  cases x with
  | str s => exact h _ mem_values_self
  | _ => exact List.forall_mem_nil _

@[simp] theorem Text.Utf8Fault.oneLine_message {fault : Utf8Fault} : OneLine fault.message := by
  unfold message
  split <;> simp +decide

theorem Rule.Tells.oneLine_quotes {rule : Rule} (h : rule.Tells x cause)
    (hrule : ∀ text ∈ rule.texts, OneLine text) (hx : x.IsPlain) :
    ∀ text ∈ cause.quotes x, OneLine text := by
  unfold Cause.quotes
  rw [List.forall_mem_append]
  cases cause with
  | missing key => exact ⟨List.forall_mem_nil _, List.forall_mem_singleton.mpr (hrule key h)⟩
  | noMatch pattern => exact ⟨List.forall_mem_singleton.mpr (hrule pattern h), hx.bare⟩
  | wrongFormat name => exact ⟨List.forall_mem_singleton.mpr (hrule name h), hx.bare⟩
  | notListed options => exact ⟨List.forall_mem_nil _, hx.bare⟩
  | unexpectedProperties keys =>
    obtain ⟨-, members, rfl, hkeys⟩ := h
    refine ⟨?_, List.forall_mem_nil _⟩
    intro key hkey
    exact hx _ Json.mem_values_self key (hkeys key hkey)
  | noneValid keyword =>
    have hkeywords : ∀ keyword ∈ ["anyOf", "oneOf"], OneLine keyword := by decide
    exact ⟨List.forall_mem_singleton.mpr (hkeywords keyword h), List.forall_mem_nil _⟩
  | wrongEncoding name =>
    have hname : OneLine "base64" := by decide
    exact ⟨List.forall_mem_singleton.mpr (h ▸ hname), List.forall_mem_nil _⟩
  | wrongMediaType name =>
    have hname : OneLine "application/json" := by decide
    exact ⟨List.forall_mem_singleton.mpr (h ▸ hname), List.forall_mem_nil _⟩
  | badName text => exact h.elim
  | unusable text => exact h.elim
  | _ => exact ⟨List.forall_mem_nil _, List.forall_mem_nil _⟩

theorem Found.oneLine_quotes (h : Found rules broken x path f)
    (hrules : ∀ rule, rules rule → ∀ text ∈ rule.texts, OneLine text)
    (hbroken : ∀ f, broken f → ∀ text ∈ f.quotes, OneLine text) (hx : x.IsPlain)
    (hpath : ∀ key ∈ path.keys, OneLine key) : ∀ text ∈ f.quotes, OneLine text := by
  induction h with
  | told hrule htells =>
    exact List.forall_mem_append.mpr ⟨hpath, htells.oneLine_quotes (hrules _ hrule) hx⟩
  | refused => exact List.forall_mem_append.mpr ⟨hpath, List.forall_mem_nil _⟩
  | first => exact List.forall_mem_append.mpr ⟨hpath, List.forall_mem_nil _⟩
  | undecoded _ _ => exact List.forall_mem_singleton.mpr Text.Utf8Fault.oneLine_message
  | broken hf => exact hbroken _ hf
  | @name e members path f he _ ih =>
    have hkey : OneLine e.1 := hx _ Json.mem_values_self e.1 (List.mem_map_of_mem he)
    have hquotes := ih (Json.isPlain_str hkey) hpath
    have hterms : ∀ text ∈ f.cause.terms, OneLine text := fun text htext =>
      hquotes text (List.mem_append_right _ (List.mem_append_left _ htext))
    have htext : OneLine f.text := Cause.oneLine_text.mpr hterms
    exact List.forall_mem_append.mpr ⟨hpath, List.forall_mem_singleton.mpr htext⟩
  | item hi _ ih =>
    apply ih (hx.inside (Json.inside_item (List.mem_of_getElem? hi) Json.mem_values_self))
    simpa [Path.keys] using hpath
  | @member members e path f he _ ih =>
    have hkey : OneLine e.1 := hx _ Json.mem_values_self e.1 (List.mem_map_of_mem he)
    apply ih (hx.inside (Json.inside_member he Json.mem_values_self))
    have hkeys : Path.keys (path ++ [.key e.1]) = path.keys ++ [e.1] := by simp [Path.keys]
    rw [hkeys]
    exact List.forall_mem_append.mpr ⟨hpath, List.forall_mem_singleton.mpr hkey⟩

end EventAdmission
