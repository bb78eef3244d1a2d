import EventAdmission.Category

/-!
# The words for categories

A category is parsed from the lower case of a text in the sense of Unicode, and
still nothing outside ASCII stands for one: whatever such a character becomes,
something in it is no letter of the five words (`exists_stray`). Among ASCII texts
it is the plain lower case that counts (`parse_exact`).
-/

namespace EventAdmission

variable {c : Char} {text before : List Char} {word : String}

-- ---------------------------------------------------------------------------
-- Lower case
-- ---------------------------------------------------------------------------

namespace Unicode

def isStray (c : Char) : Bool := !"-_abcdefghinstu".toList.contains c

theorem isStray_of_le (h : 0x80 ≤ c.toNat) : isStray c = true := by
  have hletters : "-_abcdefghinstu".toList.all fun l => l.toNat < 0x80 := by decide
  rw [isStray, Bool.not_eq_true', ← Bool.not_eq_true, List.contains_iff_mem]
  intro hmem
  have hlt := List.all_eq_true.mp hletters c hmem
  simp only [decide_eq_true_eq] at hlt
  omega

theorem isStray_ofNat {n : Nat} (h : 0x80 ≤ n) : isStray (Char.ofNat n) = true := by
  by_cases hn : n.isValidChar
  · have hcode : (Char.ofNat n).toNat = n := by
      rw [Char.ofNat, dif_pos hn]
      rfl
    exact isStray_of_le (hcode.symm ▸ h)
  · rw [Char.ofNat, dif_neg hn]
    decide

/-- Beyond ASCII the lower case of a letter is beyond ASCII too, but for the sign of the kelvin. -/
theorem caseRuns_beyond : caseRuns.all (fun run => run.last < 0x80 ||
    (0x80 ≤ run.first && (0x80 ≤ run.first + run.shift ||
      (run.first = run.last && run.first + run.shift = 'k'.toNat)))) = true := by
  decide

theorem exists_stray_lowerCase (h : 0x80 ≤ c.toNat) : ∃ d ∈ lowerCase c, isStray d = true := by
  rw [lowerCase, if_neg (Nat.not_lt.mpr h)]
  split
  · exact ⟨'\u0307', by simp, by decide⟩
  · split
    · rename_i run hrun
      refine ⟨_, List.mem_singleton_self _, ?_⟩
      have hcovers := List.find?_some hrun
      have hbeyond := List.all_eq_true.mp caseRuns_beyond run (List.mem_of_find?_eq_some hrun)
      simp only [CaseRun.covers, Bool.and_eq_true, decide_eq_true_eq] at hcovers
      simp only [Bool.or_eq_true, Bool.and_eq_true, decide_eq_true_eq] at hbeyond
      rcases hbeyond with hlast | ⟨-, hbeyond | ⟨hone, hkelvin⟩⟩
      · omega
      · exact isStray_ofNat (by omega)
      · have hcode : (c.toNat + run.shift : Int).toNat = 'k'.toNat := by omega
        rw [hcode]
        decide
    · exact ⟨c, List.mem_singleton_self _, isStray_of_le h⟩

theorem exists_stray (before : List Char) (hc : c ∈ text) (h : 0x80 ≤ c.toNat) :
    ∃ d ∈ lowerFrom before text, isStray d = true := by
  induction text generalizing before with
  | nil => cases hc
  | cons first rest ih =>
    simp only [lowerFrom, List.mem_append]
    rcases List.mem_cons.mp hc with rfl | hc
    · split
      · refine ⟨_, .inl (List.mem_singleton_self _), ?_⟩
        rw [lowerSigma]
        split <;> decide
      · obtain ⟨d, hd, hstray⟩ := exists_stray_lowerCase h
        exact ⟨d, .inl hd, hstray⟩
    · obtain ⟨d, hd, hstray⟩ := ih (first :: before) hc
      exact ⟨d, .inr hd, hstray⟩

theorem lowerFrom_ascii (h : ∀ c ∈ text, c.toNat < 0x80) :
    lowerFrom before text = text.map Char.toLower := by
  induction text generalizing before with
  | nil => rfl
  | cons first rest ih =>
    obtain ⟨hfirst, hrest⟩ := List.forall_mem_cons.mp h
    have hsigma : first ≠ 'Σ' := by
      rintro rfl
      exact absurd hfirst (by decide)
    rw [lowerFrom, if_neg hsigma, lowerCase, if_pos hfirst, ih hrest]
    rfl

theorem toLower_ascii (h : ∀ c ∈ word.toList, c.toNat < 0x80) :
    toLower word = word.map Char.toLower := by
  rw [toLower, lowerFrom_ascii h, ← String.toList_map, String.ofList_toList]

end Unicode

-- ---------------------------------------------------------------------------
-- Words
-- ---------------------------------------------------------------------------

namespace Category

def words : List (String × Category) :=
  [("undefined", undefined), ("business", business), ("data", dataChange),
    ("data_change", dataChange), ("data-change", dataChange)]

theorem ofWord?_iff {category : Category} :
    ofWord? word = some category ↔ (word, category) ∈ words := by
  unfold ofWord?
  split <;> simp_all [words, eq_comm]

theorem not_isStray_of_word {category : Category} (h : (word, category) ∈ words) :
    ∀ c ∈ word.toList, Unicode.isStray c = false := by
  have hall : words.all fun e => e.1.toList.all fun c => !Unicode.isStray c := by decide
  intro c hc
  simpa using List.all_eq_true.mp (List.all_eq_true.mp hall _ h) c hc

theorem find?_names {category : Category} :
    Keyed.find? names word = some category ↔ word = category.name := by
  constructor
  · intro h
    simp only [names, all, List.map_cons, List.map_nil, Keyed.find?] at h
    split at h
    · cases h
      exact ‹_ = word›.symm
    · split at h
      · cases h
        exact ‹_ = word›.symm
      · split at h
        · cases h
          exact ‹_ = word›.symm
        · cases h
  · rintro rfl
    cases category <;> rfl

/-- A text in ASCII that is one of the words when its letters are made small. -/
def Names (text : String) (category : Category) : Prop :=
  (∀ c ∈ text.toList, c.toNat < 0x80) ∧ (text.map Char.toLower, category) ∈ words

theorem ofWord?_toLower {text : String} {category : Category} :
    ofWord? (Unicode.toLower text) = some category ↔ Names text category := by
  rw [ofWord?_iff, Names]
  by_cases hascii : ∀ c ∈ text.toList, c.toNat < 0x80
  · rw [Unicode.toLower_ascii hascii]
    exact (and_iff_right hascii).symm
  · refine iff_of_false (fun hword => ?_) fun h => hascii h.1
    simp only [Classical.not_forall] at hascii
    obtain ⟨c, hc, hbeyond⟩ := hascii
    obtain ⟨d, hd, hstray⟩ := Unicode.exists_stray [] hc (Nat.not_lt.mp hbeyond)
    rw [not_isStray_of_word hword d (by rwa [Unicode.toLower, String.toList_ofList])] at hstray
    cases hstray

/-- The words are accepted in letters of either case, and nothing else is: the error of any other
text carries its lower case. -/
theorem parse_exact (text : String) :
    (∀ category, parse text = .ok category ↔ Names text category) ∧
      (∀ e, parse text = .error e ↔ (∀ category, ¬ Names text category) ∧
        e = ⟨Unicode.toLower text⟩ ∧
          e.message = "unknown event type category: " ++ Unicode.toLower text) ∧
      ∀ c ∈ text.toList, 0x80 ≤ c.toNat → parse text = .error ⟨Unicode.toLower text⟩ := by
  have hok : ∀ category, parse text = .ok category ↔ Names text category := by
    intro category
    rw [← ofWord?_toLower, parse]
    cases ofWord? (Unicode.toLower text) <;> simp
  have herror : ∀ e, parse text = .error e ↔
      (∀ category, ¬ Names text category) ∧ e = ⟨Unicode.toLower text⟩ := by
    intro e
    simp only [← ofWord?_toLower, parse]
    cases ofWord? (Unicode.toLower text) <;> simp [eq_comm]
  refine ⟨hok, fun e => (herror e).trans (and_congr_right fun _ => ?_), fun c hc hbeyond =>
    (herror _).mpr ⟨fun category hnames => ?_, rfl⟩⟩
  · exact ⟨fun h => ⟨h, h ▸ rfl⟩, And.left⟩
  · exact absurd (hnames.1 c hc) (Nat.not_lt.mpr hbeyond)

/-- One letter that becomes two, of which the first is a letter of a word. -/
theorem parse_dottedCapital : 'İ' ∈ "busİness".toList ∧ 0x80 ≤ 'İ'.toNat ∧
    parse "busİness" = .error ⟨"busi\u0307ness"⟩ := by
  have hlower : Unicode.toLower "busİness" = "busi\u0307ness" := by decide
  have hmem : 'İ' ∈ "busİness".toList := by decide
  refine ⟨hmem, by decide, ?_⟩
  rw [← hlower]
  exact (parse_exact "busİness").2.2 'İ' hmem (by decide)

end Category

end EventAdmission
