import EventAdmission.Proofs.Json.Written

/-!
# The steps of a reader

A reader goes on from a place in the text, and whether it succeeds, with what and how
far, hangs on the text from there alone: `Gives` and `Leaves` say so without the place.
The steps between the tokens (blanks, commas, colons, brackets) are known by what they
find in the text.
-/

namespace EventAdmission

variable {α β : Type} {s : Cursor} {c : Char} {t u v : List Char} {x : α} {first : Bool}

/-- The reading step succeeds with `x`, and `t` is left of the text. -/
def Gives (step : Except ReadError (α × Cursor)) (x : α) (t : List Char) : Prop :=
  ∃ s, step = .ok (x, s) ∧ s.rest = t

def Leaves (step : Except ReadError Cursor) (t : List Char) : Prop :=
  ∃ s, step = .ok s ∧ s.rest = t

@[simp] theorem not_gives_error {e : ReadError} : ¬ Gives (.error e) x t := by
  rintro ⟨_, ⟨⟩, _⟩

@[simp] theorem not_leaves_error {e : ReadError} : ¬ Leaves (.error e) t := by
  rintro ⟨_, ⟨⟩, _⟩

@[simp] theorem gives_ok_iff {y : α} : Gives (.ok (y, s)) x t ↔ y = x ∧ s.rest = t := by
  constructor
  · rintro ⟨_, ⟨⟩, h⟩
    exact ⟨rfl, h⟩
  · rintro ⟨rfl, h⟩
    exact ⟨s, rfl, h⟩

@[simp] theorem leaves_ok_iff : Leaves (.ok s) t ↔ s.rest = t := by
  constructor
  · rintro ⟨_, ⟨⟩, h⟩
    exact h
  · exact fun h => ⟨s, rfl, h⟩

@[simp] theorem not_gives_failHere {fault : SyntaxFault} : ¬ Gives (s.failHere fault) x t :=
  not_gives_error

@[simp] theorem not_gives_failAhead {fault : SyntaxFault} : ¬ Gives (s.failAhead fault) x t :=
  not_gives_error

@[simp] theorem not_leaves_failHere {fault : SyntaxFault} : ¬ Leaves (s.failHere fault) t :=
  not_leaves_error

@[simp] theorem not_leaves_failAhead {fault : SyntaxFault} : ¬ Leaves (s.failAhead fault) t :=
  not_leaves_error

theorem Leaves.unique {step : Except ReadError Cursor} (h : Leaves step t) (h' : Leaves step u) :
    t = u := by
  obtain ⟨s, rfl, rfl⟩ := h
  exact leaves_ok_iff.mp h'

theorem gives_step {γ : Type} {step : Except ReadError γ}
    {next : γ → Except ReadError (α × Cursor)} :
    Gives (step >>= next) x t ↔ ∃ y, step = .ok y ∧ Gives (next y) x t := by
  cases step <;> simp [bind, Except.bind]

theorem gives_bind {step : Except ReadError (β × Cursor)}
    {next : β × Cursor → Except ReadError (α × Cursor)} :
    Gives (step >>= next) x t ↔ ∃ y s, step = .ok (y, s) ∧ Gives (next (y, s)) x t := by
  rw [gives_step, Prod.exists]

-- ---------------------------------------------------------------------------
-- One character
-- ---------------------------------------------------------------------------

namespace Cursor

theorem peek?_eq_none : s.peek? = none ↔ s.rest = [] := by
  simp [peek?]

theorem rest_of_peek? (h : s.peek? = some c) : s.rest = c :: s.skip.rest := by
  rw [peek?] at h
  unfold skip
  cases hs : s.rest with
  | nil => simp [hs] at h
  | cons d rest => simp_all

theorem peek?_of_rest (h : s.rest = c :: t) : s.peek? = some c := by
  simp [peek?, h]

theorem skip_of_rest (h : s.rest = c :: t) : s.skip.rest = t := by
  simp [skip, h]

theorem skipWhile_rest {keep : Char → Bool} : (s.skipWhile keep).rest = s.rest.dropWhile keep := by
  have hgo : ∀ cs place, (skipWhile.go keep cs place).rest = cs.dropWhile keep := by
    intro cs
    induction cs with
    | nil => exact fun _ => rfl
    | cons c cs ih =>
      intro place
      rw [skipWhile.go, List.dropWhile_cons]
      split
      · exact ih _
      · rfl
  exact hgo s.rest s.place

end Cursor

theorem dropWhile_stretch {keep : Char → Bool} (ht : ∀ c ∈ t, keep c = true)
    (hu : ∀ c ∈ u.head?, keep c = false) : (t ++ u).dropWhile keep = u := by
  rw [List.dropWhile_append_of_pos ht]
  cases u with
  | nil => rfl
  | cons c u => exact List.dropWhile_cons_of_neg (by simp [hu c rfl])

theorem head_dropWhile (keep : Char → Bool) (t : List Char) :
    ∀ c ∈ (t.dropWhile keep).head?, keep c = false := by
  intro c hc
  have := List.head?_dropWhile_not keep t
  rw [Option.mem_def.mp hc] at this
  simpa using this

-- ---------------------------------------------------------------------------
-- Blanks
-- ---------------------------------------------------------------------------

theorem blanks_refl : Blanks t t := ⟨[], rfl, by simp⟩

theorem Blanks.length_le (h : Blanks t u) : u.length ≤ t.length := by
  obtain ⟨blanks, rfl, -⟩ := h
  simp

theorem Blanks.trans (h : Blanks t u) (h' : Blanks u v) : Blanks t v := by
  obtain ⟨blanks, rfl, hblanks⟩ := h
  obtain ⟨more, rfl, hmore⟩ := h'
  exact ⟨blanks ++ more, by simp, fun c hc => (List.mem_append.mp hc).elim (hblanks c) (hmore c)⟩

theorem unblank_nil : Unblank [] := by simp [Unblank]

theorem unblank_cons : Unblank (c :: t) ↔ Cursor.isBlank c = false := by simp [Unblank]

theorem blanks_dropWhile : Blanks t (t.dropWhile Cursor.isBlank) := by
  have hall := List.all_takeWhile (p := Cursor.isBlank) (l := t)
  exact ⟨t.takeWhile Cursor.isBlank, List.takeWhile_append_dropWhile.symm,
    List.all_eq_true.mp hall⟩

theorem unblank_dropWhile : Unblank (t.dropWhile Cursor.isBlank) :=
  head_dropWhile Cursor.isBlank t

theorem Blanks.dropWhile (h : Blanks t u) (hu : Unblank u) : t.dropWhile Cursor.isBlank = u := by
  obtain ⟨blanks, rfl, hblanks⟩ := h
  exact dropWhile_stretch hblanks hu

theorem Blanks.unique (h : Blanks t u) (h' : Blanks t v) (hu : Unblank u) (hv : Unblank v) :
    u = v :=
  (h.dropWhile hu).symm.trans (h'.dropWhile hv)

theorem blanks_skipBlanks : Blanks s.rest s.skipBlanks.rest := by
  rw [Cursor.skipBlanks, Cursor.skipWhile_rest]
  exact blanks_dropWhile

theorem unblank_skipBlanks : Unblank s.skipBlanks.rest := by
  rw [Cursor.skipBlanks, Cursor.skipWhile_rest]
  exact unblank_dropWhile

theorem skipBlanks_rest (h : Blanks s.rest t) (ht : Unblank t) : s.skipBlanks.rest = t :=
  blanks_skipBlanks.unique h unblank_skipBlanks ht

theorem over_nil : Over [] := by simp [Over]

theorem Blanks.over (h : Blanks t (c :: u)) (hc : closes c = true) : Over t := by
  obtain ⟨blanks, rfl, hblanks⟩ := h
  cases blanks with
  | nil => simpa [Over] using hc
  | cons b blanks =>
    have hb := hblanks b List.mem_cons_self
    simp [Over, closes, hb]

theorem Blanks.over_nil (h : Blanks t []) : Over t := by
  obtain ⟨blanks, rfl, hblanks⟩ := h
  cases blanks with
  | nil => exact EventAdmission.over_nil
  | cons b blanks =>
    have hb := hblanks b List.mem_cons_self
    simp [Over, closes, hb]

-- ---------------------------------------------------------------------------
-- Tokens
-- ---------------------------------------------------------------------------

open Cursor

theorem leaves_word {word : List Char} : Leaves (s.word word) t ↔ s.rest = word ++ t := by
  induction word generalizing s with
  | nil => simp [Cursor.word]
  | cons w word ih =>
    rw [Cursor.word]
    cases hp : s.peek? with
    | none => simp [peek?_eq_none.mp hp]
    | some c =>
      rw [rest_of_peek? hp]
      by_cases hc : c = w <;> simp [hc, ih]

theorem leaves_colon : Leaves s.colon t ↔ Blanks s.rest (':' :: t) := by
  simp only [Cursor.colon]
  constructor
  · intro h
    split at h
    · simp at h
    · rename_i hp
      rw [leaves_ok_iff] at h
      exact h ▸ rest_of_peek? hp ▸ blanks_skipBlanks
    · simp at h
  · intro h
    have hrest := skipBlanks_rest h (unblank_cons.mpr (by decide))
    simp [peek?_of_rest hrest, skip_of_rest hrest]

-- ---------------------------------------------------------------------------
-- Between the parts of a list or an object
-- ---------------------------------------------------------------------------

open Written

theorem Written.Opens.over (h : Opens false t u) : Over t := by
  have hcomma : Blanks t (',' :: u) := h
  exact hcomma.over (by decide)

theorem Written.Opens.length_le (h : Opens first t u) : u.length ≤ t.length := by
  cases first with
  | true => exact Nat.le_of_eq (congrArg List.length (show t = u from h)).symm
  | false =>
    have hcomma : Blanks t (',' :: u) := h
    have := hcomma.length_le
    simp only [List.length_cons] at this
    omega

theorem nextItem?_none (h : s.nextItem? first = .ok none) :
    Blanks s.rest (']' :: s.skipBlanks.skip.rest) := by
  simp only [nextItem?] at h
  split at h
  · cases h
  · rename_i hp
    exact rest_of_peek? hp ▸ blanks_skipBlanks
  · split at h
    · cases h
    · split at h
      · split at h <;> cases h
      · cases h

theorem nextItem?_some {item : Cursor} (h : s.nextItem? first = .ok (some item)) :
    ∃ opened, Opens first s.rest opened ∧ Blanks opened item.rest ∧ Unblank item.rest := by
  simp only [nextItem?] at h
  split at h
  · cases h
  · cases h
  · split at h
    · rename_i hfirst
      cases h
      subst hfirst
      exact ⟨s.rest, rfl, blanks_skipBlanks, unblank_skipBlanks⟩
    · rename_i hfirst
      split at h
      · rename_i hp hcomma
        subst hcomma
        split at h
        · cases h
        · cases h
        · cases h
          have hopens : Opens first s.rest s.skipBlanks.skip.rest := by
            rw [Opens, if_neg hfirst]
            exact rest_of_peek? hp ▸ blanks_skipBlanks
          exact ⟨_, hopens, blanks_skipBlanks, unblank_skipBlanks⟩
      · cases h

theorem nextItem?_of_close (first : Bool) (h : Blanks s.rest (']' :: t)) :
    s.nextItem? first = .ok none ∧ s.skipBlanks.skip.rest = t := by
  have hrest := skipBlanks_rest h (unblank_cons.mpr (by decide))
  exact ⟨by simp [nextItem?, peek?_of_rest hrest], skip_of_rest hrest⟩

theorem nextItem?_of_open (ho : Opens first s.rest u) (hb : Blanks u (c :: t))
    (hc : Cursor.isBlank c = false) (hne : c ≠ ']') :
    ∃ item, s.nextItem? first = .ok (some item) ∧ item.rest = c :: t := by
  cases first with
  | true =>
    obtain rfl : s.rest = u := ho
    have hrest := skipBlanks_rest hb (unblank_cons.mpr hc)
    refine ⟨s.skipBlanks, ?_, hrest⟩
    simp only [nextItem?, peek?_of_rest hrest]
    split <;> simp_all
  | false =>
    have hcomma : Blanks s.rest (',' :: u) := ho
    have hrest := skipBlanks_rest hcomma (unblank_cons.mpr (by decide))
    have hitem := skipBlanks_rest (s := s.skipBlanks.skip) (by rwa [skip_of_rest hrest])
      (unblank_cons.mpr hc)
    refine ⟨s.skipBlanks.skip.skipBlanks, ?_, hitem⟩
    simp only [nextItem?, peek?_of_rest hrest, Bool.false_eq_true, ↓reduceIte,
      peek?_of_rest hitem]
    simp

theorem keyStart_eq {key : Option Cursor} :
    s.keyStart = .ok key ↔ key = some s ∧ s.peek? = some '"' := by
  rw [keyStart]
  cases hp : s.peek? with
  | none => simp [failAhead]
  | some c =>
    by_cases hc : c = '"'
    · simp [hc, eq_comm]
    · simp [hc, failAhead]

theorem nextKey?_none (h : s.nextKey? first = .ok none) :
    Blanks s.rest ('\x7d' :: s.skipBlanks.skip.rest) := by
  simp only [nextKey?] at h
  split at h
  · cases h
  · rename_i hp
    exact rest_of_peek? hp ▸ blanks_skipBlanks
  · split at h
    · cases (keyStart_eq.mp h).1
    · split at h
      · split at h
        · cases h
        · cases (keyStart_eq.mp h).1
      · cases h

theorem nextKey?_some {key : Cursor} (h : s.nextKey? first = .ok (some key)) :
    ∃ opened, Opens first s.rest opened ∧ Blanks opened key.rest ∧ key.peek? = some '"' := by
  simp only [nextKey?] at h
  split at h
  · cases h
  · cases h
  · split at h
    · rename_i hfirst
      obtain ⟨hkey, hp⟩ := keyStart_eq.mp h
      cases hkey
      subst hfirst
      exact ⟨s.rest, rfl, blanks_skipBlanks, hp⟩
    · rename_i hfirst
      split at h
      · rename_i hp hcomma
        subst hcomma
        split at h
        · cases h
        · obtain ⟨hkey, hp'⟩ := keyStart_eq.mp h
          cases hkey
          have hopens : Opens first s.rest s.skipBlanks.skip.rest := by
            rw [Opens, if_neg hfirst]
            exact rest_of_peek? hp ▸ blanks_skipBlanks
          exact ⟨_, hopens, blanks_skipBlanks, hp'⟩
      · cases h

theorem nextKey?_of_close (first : Bool) (h : Blanks s.rest ('\x7d' :: t)) :
    s.nextKey? first = .ok none ∧ s.skipBlanks.skip.rest = t := by
  have hrest := skipBlanks_rest h (unblank_cons.mpr (by decide))
  exact ⟨by simp [nextKey?, peek?_of_rest hrest], skip_of_rest hrest⟩

theorem nextKey?_of_open (ho : Opens first s.rest u) (hb : Blanks u ('"' :: t)) :
    ∃ key, s.nextKey? first = .ok (some key) ∧ key.rest = '"' :: t := by
  cases first with
  | true =>
    obtain rfl : s.rest = u := ho
    have hrest := skipBlanks_rest hb (unblank_cons.mpr (by decide))
    refine ⟨s.skipBlanks, ?_, hrest⟩
    simp [nextKey?, peek?_of_rest hrest, keyStart_eq]
  | false =>
    have hcomma : Blanks s.rest (',' :: u) := ho
    have hrest := skipBlanks_rest hcomma (unblank_cons.mpr (by decide))
    have hkey := skipBlanks_rest (s := s.skipBlanks.skip) (by rwa [skip_of_rest hrest])
      (unblank_cons.mpr (by decide : Cursor.isBlank '"' = false))
    refine ⟨s.skipBlanks.skip.skipBlanks, ?_, hkey⟩
    simp [nextKey?, peek?_of_rest hrest, peek?_of_rest hkey, keyStart_eq]

theorem leaves_closeList : Leaves s.closeList t ↔ Blanks s.rest (']' :: t) := by
  simp only [closeList]
  constructor
  · intro h
    split at h
    · simp at h
    · rename_i hp
      rw [leaves_ok_iff] at h
      exact h ▸ rest_of_peek? hp ▸ blanks_skipBlanks
    · split at h <;> simp at h
    · simp at h
  · intro h
    have hrest := skipBlanks_rest h (unblank_cons.mpr (by decide))
    simp [peek?_of_rest hrest, skip_of_rest hrest]

-- ---------------------------------------------------------------------------
-- The end of the text
-- ---------------------------------------------------------------------------

theorem atEnd_iff : s.atEnd = .ok () ↔ Blanks s.rest [] := by
  simp only [atEnd]
  constructor
  · intro h
    split at h
    · rename_i hrest
      exact hrest ▸ blanks_skipBlanks
    · cases h
  · intro h
    rw [skipBlanks_rest h unblank_nil]

theorem whole_iff {read : Cursor → Except ReadError (α × Cursor)} {text : String} :
    whole read text = .ok x ↔ ∃ u, Gives (read (ofText text)) x u ∧ Blanks u [] := by
  rw [whole]
  constructor
  · intro h
    obtain ⟨⟨y, s⟩, hread, h⟩ := bind_ok.mp h
    obtain ⟨_, hend, h⟩ := bind_ok.mp h
    cases h
    exact ⟨s.rest, ⟨s, hread, rfl⟩, atEnd_iff.mp hend⟩
  · rintro ⟨u, ⟨s, hread, rfl⟩, hend⟩
    exact bind_ok.mpr ⟨_, hread, bind_ok.mpr ⟨(), atEnd_iff.mpr hend, rfl⟩⟩

end EventAdmission
