import EventAdmission.Proofs.Json.Decoding

/-!
# Reading records

A record is written as the list of its fields or as an object. A list is read field by
field, and what it decodes to is put together in the same way (`decodesItems_field`). An
object is read member by member: `taken?` folds over its members what the plan of the
record does with each of them (`gives_record`).
-/

namespace EventAdmission

open Cursor Written

variable {α β σ : Type} {s : Cursor} {t u : List Char} {first : Bool} {x : Written}
  {xs : List Written} {members : List (List StringPiece × Written)} {fuel : Nat} {a : α}

-- ---------------------------------------------------------------------------
-- Lists of fields
-- ---------------------------------------------------------------------------

/-- Behind the items read before, the reader takes the rest of a list. -/
def DecodesItems (first : Bool) (read : Cursor → Except ReadError (α × Cursor))
    (decode : List Written → Option α) : Prop :=
  ∀ s a t, Gives (read s) a t ↔ ∃ xs, SpansItems first xs s.rest t ∧ decode xs = some a

def fieldThen (absent : Option β) (decode : Written → Option β) (rest : β → List Written → Option α) :
    List Written → Option α
  | [] => absent.bind (rest · [])
  | x :: xs => (decode x).bind (rest · xs)

def lastField (a : α) : List Written → Option α
  | [] => some a
  | _ :: _ => none

theorem decodesItems_close :
    DecodesItems false (fun s => do pure (a, ← s.closeList)) (lastField a) := by
  intro s b t
  rw [gives_step]
  constructor
  · rintro ⟨s₁, hs₁, h⟩
    obtain ⟨rfl, rfl⟩ := gives_ok_iff.mp h
    exact ⟨[], leaves_closeList.mp ⟨s₁, hs₁, rfl⟩, rfl⟩
  · rintro ⟨xs, hxs, ha⟩
    cases xs with
    | nil =>
      obtain rfl := Option.some.inj ha
      obtain ⟨s₁, hs₁, hleft⟩ := leaves_closeList.mpr hxs
      exact ⟨s₁, hs₁, gives_ok_iff.mpr ⟨rfl, hleft⟩⟩
    | cons x xs => cases ha

theorem decodesItems_field {absent : Except ShapeFault β}
    {read : Cursor → Except ReadError (β × Cursor)} {decode : Written → Option β}
    {next : β → Cursor → Except ReadError (α × Cursor)} {rest : β → List Written → Option α}
    (hread : Decodes read decode) (hnext : ∀ b, DecodesItems false (next b) (rest b)) :
    DecodesItems first (fun s => do
        let (b, s) ← s.field first absent read
        next b s)
      (fieldThen absent.toOption decode rest) := by
  intro s a t
  rw [gives_bind]
  constructor
  · rintro ⟨b, s₁, hfield, h⟩
    obtain ⟨xs, hxs, ha⟩ := (hnext b s₁ a t).mp h
    obtain ⟨item, hnext, hfield⟩ := bind_ok.mp hfield
    cases item with
    | none =>
      dsimp only at hfield
      split at hfield
      · cases hfield
        have hclose : SpansItems false [] s.rest s.skipBlanks.skip.rest := nextItem?_none hnext
        obtain ⟨rfl, -⟩ := spansItems_unique hxs hclose
        exact ⟨[], hxs, ha⟩
      · cases hfield
    | some s' =>
      obtain ⟨x, start, hstart, hx, hb⟩ := (hread s' b _ (spansItems_over hxs)).mp ⟨s₁, hfield, rfl⟩
      refine ⟨x :: xs, spansItems_step hnext hstart hx hxs, ?_⟩
      rw [fieldThen, hb]
      exact ha
  · rintro ⟨xs, hxs, ha⟩
    cases xs with
    | nil =>
      obtain ⟨b, hb, ha⟩ := Option.bind_eq_some_iff.mp ha
      obtain ⟨hitem, -⟩ := nextItem?_of_close first hxs
      obtain rfl := toOption_eq_some.mp hb
      exact ⟨b, s, bind_ok.mpr ⟨none, hitem, rfl⟩, (hnext b s a t).mpr ⟨[], hxs, ha⟩⟩
    | cons x xs =>
      obtain ⟨s', u, hnext', hx, hxs, -⟩ := exists_nextItem? hxs
      obtain ⟨b, hb, ha⟩ := Option.bind_eq_some_iff.mp ha
      obtain ⟨s₁, hs₁, rfl⟩ := (hread s' b u (spansItems_over hxs)).mpr ⟨x, _, blanks_refl, hx, hb⟩
      exact ⟨b, s₁, bind_ok.mpr ⟨some s', hnext', hs₁⟩, (hnext b s₁ a t).mpr ⟨xs, hxs, ha⟩⟩

-- ---------------------------------------------------------------------------
-- Objects
-- ---------------------------------------------------------------------------

def taken? {κ : Type} (name? : List StringPiece → Option κ) (take : σ → κ → Written → Option σ) :
    σ → List (List StringPiece × Written) → Option σ
  | state, [] => some state
  | state, (key, x) :: members => do
    let key ← name? key
    let state ← take state key x
    taken? name? take state members

/-- What is planned for a member is what `take` does with it. -/
def Carries (plan : MemberPlan σ) (take : Written → Option σ) (state : σ) : Prop :=
  match plan with
  | .skip => ∀ x, take x = some state
  | .refuse _ => ∀ x, take x = none
  | .read run => Decodes run take

section

variable {plan : String → σ → MemberPlan σ} {take : σ → String → Written → Option σ}
  {state result : σ}

theorem recordMembers_sound (hplan : ∀ key state, Carries (plan key state) (take state key) state)
    (h : Gives (recordMembers plan fuel first state s) result u) :
    ∃ members t, u = '\x7d' :: t ∧ SpansMembers first members s.rest t ∧
      taken? textOf? take state members = some result := by
  induction fuel generalizing first state s with
  | zero => exact absurd h not_gives_failHere
  | succ fuel ih =>
    rw [recordMembers] at h
    obtain ⟨next, hnext, h⟩ := gives_step.mp h
    cases next with
    | none =>
      obtain ⟨rfl, rfl⟩ := gives_ok_iff.mp h
      have hclose := nextKey?_none hnext
      refine ⟨[], _, skipBlanks_rest hclose (unblank_cons.mpr (by decide)), hclose, rfl⟩
    | some s' =>
      obtain ⟨key, s₁, hs₁, h⟩ := gives_bind.mp h
      obtain ⟨pieces, hpieces, hkey⟩ := gives_string.mp ⟨s₁, hs₁, rfl⟩
      have hquoted := rest_of_nextKey? hnext hpieces
      have hcarries := hplan key state
      dsimp only at h
      split at h
      · rename_i hskip
        rw [hskip] at hcarries
        obtain ⟨s₂, hs₂, h⟩ := gives_step.mp h
        obtain ⟨s₃, hs₃, h⟩ := gives_step.mp h
        obtain ⟨members, t, hu, hmembers, htaken⟩ := ih h
        obtain ⟨x, start, hstart, hx⟩ :=
          (leaves_pastValue (spansMembers_over hmembers)).mp ⟨s₃, hs₃, rfl⟩
        refine ⟨(pieces, x) :: members, t, hu,
          spansMembers_step hnext hquoted hs₂ hstart hx hmembers, ?_⟩
        have htake : take state key x = some state := hcarries x
        simp [taken?, hkey, htake, htaken]
      · simp [failInObject] at h
      · rename_i run hrun
        rw [hrun] at hcarries
        obtain ⟨s₂, hs₂, h⟩ := gives_step.mp h
        obtain ⟨state', s₃, hs₃, h⟩ := gives_bind.mp h
        obtain ⟨members, t, hu, hmembers, htaken⟩ := ih h
        have hdecodes : Decodes run (take state key) := hcarries
        obtain ⟨x, start, hstart, hx, htake⟩ :=
          (hdecodes s₂ state' _ (spansMembers_over hmembers)).mp ⟨s₃, hs₃, rfl⟩
        refine ⟨(pieces, x) :: members, t, hu,
          spansMembers_step hnext hquoted hs₂ hstart hx hmembers, ?_⟩
        simp [taken?, hkey, htake, htaken]

theorem recordMembers_complete
    (hplan : ∀ key state, Carries (plan key state) (take state key) state)
    (h : SpansMembers first members s.rest t) (htaken : taken? textOf? take state members = some result)
    (hfuel : s.rest.length < fuel) :
    Gives (recordMembers plan fuel first state s) result ('\x7d' :: t) := by
  induction fuel generalizing first state s members with
  | zero => cases hfuel
  | succ fuel ih =>
    rw [recordMembers]
    cases members with
    | nil =>
      obtain rfl := Option.some.inj htaken
      obtain ⟨hnext, -⟩ := nextKey?_of_close first h
      exact gives_step.mpr ⟨none, hnext, gives_ok_iff.mpr
        ⟨rfl, skipBlanks_rest h (unblank_cons.mpr (by decide))⟩⟩
    | cons e members =>
      obtain ⟨pieces, x⟩ := e
      obtain ⟨s', afterKey, afterColon, start, u, hnext, hkey, hcolon, hblanks, hx, hmembers, hlong,
        hshort⟩ := exists_nextKey? h
      obtain ⟨key, htext, state', htake, htaken⟩ : ∃ key, textOf? pieces = some key ∧
          ∃ state', take state key x = some state' ∧
            taken? textOf? take state' members = some result := by
        simpa [taken?, Option.bind_eq_some_iff] using htaken
      obtain ⟨s₁, hs₁, rfl⟩ := gives_string.mpr ⟨pieces, skip_of_rest hkey, htext⟩
      obtain ⟨s₂, hs₂, rfl⟩ := leaves_colon.mpr hcolon
      refine gives_step.mpr ⟨some s', hnext, gives_bind.mpr ⟨key, s₁, hs₁, ?_⟩⟩
      have hcarries := hplan key state
      dsimp only
      split
      · rename_i hskip
        rw [hskip] at hcarries
        obtain rfl : state = state' := Option.some.inj ((hcarries x).symm.trans htake)
        obtain ⟨s₃, hs₃, rfl⟩ := (leaves_pastValue (spansMembers_over hmembers)).mpr
          ⟨x, start, hblanks, hx⟩
        have hless : s₃.rest.length < fuel := by omega
        exact gives_step.mpr ⟨s₂, hs₂, gives_step.mpr ⟨s₃, hs₃, ih hmembers htaken hless⟩⟩
      · rename_i hrefuse
        rw [hrefuse] at hcarries
        have hnone : take state key x = none := hcarries x
        rw [hnone] at htake
        cases htake
      · rename_i run hrun
        rw [hrun] at hcarries
        have hdecodes : Decodes run (take state key) := hcarries
        obtain ⟨s₃, hs₃, rfl⟩ := (hdecodes s₂ state' u (spansMembers_over hmembers)).mpr
          ⟨x, start, hblanks, hx, htake⟩
        have hless : s₃.rest.length < fuel := by omega
        exact gives_step.mpr ⟨s₂, hs₂, gives_bind.mpr ⟨state', s₃, hs₃, ih hmembers htaken hless⟩⟩

theorem gives_record (hplan : ∀ key state, Carries (plan key state) (take state key) state)
    {finish : σ → Except ShapeFault α} :
    Gives (s.record plan state finish) a t ↔ ∃ members, SpansMembers true members s.rest t ∧
      (taken? textOf? take state members).bind (fun state => (finish state).toOption) = some a := by
  rw [record, gives_bind]
  constructor
  · rintro ⟨result, s₁, hs₁, h⟩
    obtain ⟨members, u, hrest, hmembers, htaken⟩ := recordMembers_sound hplan ⟨s₁, hs₁, rfl⟩
    dsimp only at h
    split at h
    · rename_i hfinish
      obtain ⟨rfl, rfl⟩ := gives_ok_iff.mp h
      rw [skip_of_rest hrest]
      exact ⟨members, hmembers, by rw [htaken, Option.bind_some, hfinish]; rfl⟩
    · simp [failInObject] at h
  · rintro ⟨members, hmembers, ha⟩
    obtain ⟨result, htaken, hfinish⟩ := Option.bind_eq_some_iff.mp ha
    obtain ⟨s₁, hs₁, hrest⟩ := recordMembers_complete hplan hmembers htaken
      (by rw [Cursor.fuel]; omega : s.rest.length < s.fuel)
    refine ⟨result, s₁, hs₁, ?_⟩
    simp only [toOption_eq_some.mp hfinish]
    exact gives_ok_iff.mpr ⟨rfl, skip_of_rest hrest⟩

end

def recordOf? (ofItems : List Written → Option α)
    (ofMembers : List (List StringPiece × Written) → Option α) : Written → Option α
  | .list xs => ofItems xs
  | .object members => ofMembers members
  | _ => none

theorem decodes_record {items members : Cursor → Except ReadError (α × Cursor)}
    {ofItems : List Written → Option α} {ofMembers : List (List StringPiece × Written) → Option α}
    {expected : String} (hitems : DecodesItems true items ofItems)
    (hmembers : ∀ s a t, Gives (members s) a t ↔
      ∃ ms, SpansMembers true ms s.rest t ∧ ofMembers ms = some a) :
    Decodes (fun s =>
        let s := s.skipBlanks
        match s.peek? with
        | some '[' => items s.skip
        | some '\x7b' => members s.skip
        | _ => s.unexpected expected)
      (recordOf? ofItems ofMembers) := by
  intro s a t _
  dsimp only
  constructor
  · intro h
    split at h
    · rename_i hp
      obtain ⟨xs, hxs, ha⟩ := (hitems _ _ _).mp h
      exact ⟨.list xs, _, blanks_skipBlanks, ⟨_, rest_of_peek? hp, hxs⟩, ha⟩
    · rename_i hp
      obtain ⟨ms, hms, ha⟩ := (hmembers _ _ _).mp h
      exact ⟨.object ms, _, blanks_skipBlanks, ⟨_, rest_of_peek? hp, hms⟩, ha⟩
    · exact absurd h not_gives_unexpected
  · rintro ⟨x, start, hblanks, hx, ha⟩
    have hs := skipBlanks_rest hblanks hx.unblank
    cases x with
    | list xs =>
      obtain ⟨body, rfl, hxs⟩ := hx
      simp only [peek?_of_rest hs]
      exact (hitems _ _ _).mpr ⟨xs, (skip_of_rest hs).symm ▸ hxs, ha⟩
    | object ms =>
      obtain ⟨body, rfl, hms⟩ := hx
      simp only [peek?_of_rest hs]
      exact (hmembers _ _ _).mpr ⟨ms, (skip_of_rest hs).symm ▸ hms, ha⟩
    | _ => cases ha

end EventAdmission
