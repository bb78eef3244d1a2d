import EventAdmission.Proofs.Json.Skipping

/-!
# Reading values

The reader of a JSON value succeeds for the values of the grammar that stand for
something within the room it has, and gives what they stand for
(`decodes_readWithin`).
-/

namespace EventAdmission

open Cursor Written

variable {α β : Type} {s : Cursor} {t u start : List Char} {first : Bool} {x : Written}
  {xs : List Written} {members : List (List StringPiece × Written)} {fuel room : Nat} {j : Json}
  {js : List Json} {others result : Members}

/-- The reader succeeds for the values that `decode` knows, and gives what they stand for. -/
def Decodes (read : Cursor → Except ReadError (α × Cursor)) (decode : Written → Option α) : Prop :=
  ∀ s a t, Over t → (Gives (read s) a t ↔
    ∃ (x : Written) (start : List Char), Blanks s.rest start ∧ x.Spans start t ∧ decode x = some a)

theorem Decodes.map {read : Cursor → Except ReadError (α × Cursor)} {decode : Written → Option α}
    (h : Decodes read decode) (f : α → β) :
    Decodes (fun s => do
        let (a, s) ← read s
        pure (f a, s))
      (fun x => f <$> decode x) := by
  intro s b t ht
  rw [gives_bind]
  constructor
  · rintro ⟨a, s₁, hs₁, hb⟩
    obtain ⟨rfl, rfl⟩ := gives_ok_iff.mp hb
    obtain ⟨x, start, hblanks, hx, ha⟩ := (h s a _ ht).mp ⟨s₁, hs₁, rfl⟩
    exact ⟨x, start, hblanks, hx, Option.map_eq_some_iff.mpr ⟨a, ha, rfl⟩⟩
  · rintro ⟨x, start, hblanks, hx, hb⟩
    obtain ⟨a, ha, rfl⟩ := Option.map_eq_some_iff.mp hb
    obtain ⟨s₁, hs₁, hleft⟩ := (h s a t ht).mpr ⟨x, start, hblanks, hx, ha⟩
    exact ⟨a, s₁, hs₁, gives_ok_iff.mpr ⟨rfl, hleft⟩⟩

theorem Decodes.whole {read : Cursor → Except ReadError (α × Cursor)} {decode : Written → Option α}
    (h : Decodes read decode) {text : String} {a : α} :
    Cursor.whole read text = .ok a ↔ ∃ x : Written, x.SpelledBy text ∧ decode x = some a := by
  rw [whole_iff]
  constructor
  · rintro ⟨u, hread, hend⟩
    obtain ⟨x, start, hblanks, hx, ha⟩ := (h _ a u hend.over_nil).mp hread
    exact ⟨x, ⟨start, u, hblanks, hx, hend⟩, ha⟩
  · rintro ⟨x, ⟨start, u, hblanks, hx, hend⟩, ha⟩
    exact ⟨u, (h _ a u hend.over_nil).mpr ⟨x, start, hblanks, hx, ha⟩, hend⟩

-- ---------------------------------------------------------------------------
-- What is read is a value
-- ---------------------------------------------------------------------------

/-- With so many steps, only what stands for something is read. -/
structure ReadSound (fuel : Nat) : Prop where
  value : ∀ room s j t, Over t → Gives (value fuel room s) j t →
    ∃ (x : Written) (start : List Char), Blanks s.rest start ∧ x.Spans start t ∧
      x.json? room = some j
  items : ∀ room first s js t, Gives (valueItems fuel room first s) js t →
    ∃ xs, SpansItems first xs s.rest t ∧ jsonItems? room xs = some js
  members : ∀ room first others s result t, Gives (valueMembers fuel room first others s) result t →
    ∃ members, SpansMembers first members s.rest t ∧ jsonMembers? room others members = some result

theorem gives_map {step : Except ReadError Cursor} {a b : α} :
    Gives ((fun s => (a, s)) <$> step) b t ↔ a = b ∧ Leaves step t := by
  cases step with
  | error e => simp [Functor.map, Except.map]
  | ok s => simp [Functor.map, Except.map]

theorem value_sound (ih : ReadSound fuel) (ht : Over t) (h : Gives (value (fuel + 1) room s) j t) :
    ∃ (x : Written) (start : List Char), Blanks s.rest start ∧ x.Spans start t ∧
      x.json? room = some j := by
  suffices hspans : ∃ x : Written, x.Spans s.skipBlanks.rest t ∧ x.json? room = some j by
    obtain ⟨x, hx, hj⟩ := hspans
    exact ⟨x, _, blanks_skipBlanks, hx, hj⟩
  simp only [value] at h
  split at h
  · simp at h
  · rename_i hp
    obtain ⟨rfl, hword⟩ := gives_map.mp h
    exact ⟨.null, (rest_of_peek? hp).trans (by rw [leaves_word.mp hword]; rfl), rfl⟩
  · rename_i hp
    obtain ⟨rfl, hword⟩ := gives_map.mp h
    exact ⟨.bool true, (rest_of_peek? hp).trans (by rw [leaves_word.mp hword]; rfl), rfl⟩
  · rename_i hp
    obtain ⟨rfl, hword⟩ := gives_map.mp h
    exact ⟨.bool false, (rest_of_peek? hp).trans (by rw [leaves_word.mp hword]; rfl), rfl⟩
  · rename_i hp
    obtain ⟨text, s₁, hs₁, h⟩ := gives_bind.mp h
    obtain ⟨rfl, rfl⟩ := gives_ok_iff.mp h
    obtain ⟨pieces, hs, htext⟩ := gives_string.mp ⟨s₁, hs₁, rfl⟩
    exact ⟨.string pieces, (rest_of_peek? hp).trans (by rw [hs]; rfl), by simp [json?, htext]⟩
  · rename_i hp
    split at h
    · simp at h
    · obtain ⟨js, s₁, hs₁, h⟩ := gives_bind.mp h
      obtain ⟨rfl, rfl⟩ := gives_ok_iff.mp h
      obtain ⟨xs, hxs, hjs⟩ := ih.items _ _ _ _ _ ⟨s₁, hs₁, rfl⟩
      exact ⟨.list xs, ⟨_, rest_of_peek? hp, hxs⟩, by simp [json?, hjs]⟩
  · rename_i hp
    split at h
    · simp at h
    · obtain ⟨result, s₁, hs₁, h⟩ := gives_bind.mp h
      obtain ⟨rfl, rfl⟩ := gives_ok_iff.mp h
      obtain ⟨members, hmembers, hresult⟩ := ih.members _ _ _ _ _ _ ⟨s₁, hs₁, rfl⟩
      exact ⟨.object members, ⟨_, rest_of_peek? hp, hmembers⟩, by simp [json?, hresult]⟩
  · split at h
    · obtain ⟨n, s₁, hs₁, h⟩ := gives_bind.mp h
      obtain ⟨rfl, rfl⟩ := gives_ok_iff.mp h
      obtain ⟨w, hw, hs, hn⟩ := (gives_number ht).mp ⟨s₁, hs₁, rfl⟩
      exact ⟨.number w, ⟨hw, hs⟩, by simp [json?, hn]⟩
    · simp at h

theorem valueItems_sound (ih : ReadSound fuel)
    (h : Gives (valueItems (fuel + 1) room first s) js t) :
    ∃ xs, SpansItems first xs s.rest t ∧ jsonItems? room xs = some js := by
  rw [valueItems] at h
  obtain ⟨next, hnext, h⟩ := gives_step.mp h
  cases next with
  | none =>
    obtain ⟨rfl, rfl⟩ := gives_ok_iff.mp h
    exact ⟨[], nextItem?_none hnext, rfl⟩
  | some s' =>
    obtain ⟨j, s₁, hs₁, h⟩ := gives_bind.mp h
    obtain ⟨js, s₂, hs₂, h⟩ := gives_bind.mp h
    obtain ⟨rfl, rfl⟩ := gives_ok_iff.mp h
    obtain ⟨xs, hxs, hjs⟩ := ih.items _ _ _ _ _ ⟨s₂, hs₂, rfl⟩
    obtain ⟨x, start, hstart, hx, hj⟩ := ih.value _ _ _ _ (spansItems_over hxs) ⟨s₁, hs₁, rfl⟩
    exact ⟨x :: xs, spansItems_step hnext hstart hx hxs, by simp [jsonItems?, hj, hjs]⟩

theorem valueMembers_sound (ih : ReadSound fuel)
    (h : Gives (valueMembers (fuel + 1) room first others s) result t) :
    ∃ members, SpansMembers first members s.rest t ∧
      jsonMembers? room others members = some result := by
  rw [valueMembers] at h
  obtain ⟨next, hnext, h⟩ := gives_step.mp h
  cases next with
  | none =>
    obtain ⟨rfl, rfl⟩ := gives_ok_iff.mp h
    exact ⟨[], nextKey?_none hnext, rfl⟩
  | some s' =>
    obtain ⟨key, s₁, hs₁, h⟩ := gives_bind.mp h
    obtain ⟨s₂, hs₂, h⟩ := gives_step.mp h
    obtain ⟨j, s₃, hs₃, h⟩ := gives_bind.mp h
    obtain ⟨pieces, hpieces, hkey⟩ := gives_string.mp ⟨s₁, hs₁, rfl⟩
    obtain ⟨members, hmembers, hresult⟩ := ih.members _ _ _ _ _ _ h
    obtain ⟨x, start, hstart, hx, hj⟩ := ih.value _ _ _ _ (spansMembers_over hmembers) ⟨s₃, hs₃, rfl⟩
    exact ⟨(pieces, x) :: members,
      spansMembers_step hnext (rest_of_nextKey? hnext hpieces) hs₂ hstart hx hmembers,
      by simp [jsonMembers?, hkey, hj, hresult]⟩

theorem readSound (fuel : Nat) : ReadSound fuel := by
  induction fuel with
  | zero =>
    exact ⟨fun _ _ _ _ _ h => absurd h not_gives_failHere,
      fun _ _ _ _ _ h => absurd h not_gives_failHere,
      fun _ _ _ _ _ _ h => absurd h not_gives_failHere⟩
  | succ fuel ih =>
    exact ⟨fun _ _ _ _ => value_sound ih, fun _ _ _ _ _ => valueItems_sound ih,
      fun _ _ _ _ _ _ => valueMembers_sound ih⟩

-- ---------------------------------------------------------------------------
-- Every value that stands for something is read
-- ---------------------------------------------------------------------------

/-- So many steps are enough for what is not too long. -/
structure ReadComplete (fuel : Nat) : Prop where
  value : ∀ room (s : Cursor) (x : Written) start j t, Over t → Blanks s.rest start →
    x.Spans start t → x.json? room = some j → 2 * start.length ≤ fuel →
    Gives (value fuel room s) j t
  items : ∀ room first (s : Cursor) xs js t, SpansItems first xs s.rest t →
    jsonItems? room xs = some js → 2 * s.rest.length < fuel →
    Gives (valueItems fuel room first s) js t
  members : ∀ room first others (s : Cursor) members result t,
    SpansMembers first members s.rest t → jsonMembers? room others members = some result →
    2 * s.rest.length < fuel → Gives (valueMembers fuel room first others s) result t

theorem value_number {c : Char} (hs : s.skipBlanks.rest = c :: u)
    (hc : (c = '-' || isDigit c) = true) :
    value (fuel + 1) room s = (fun r => (.num r.1, r.2)) <$> s.skipBlanks.number := by
  simp only [value, peek?_of_rest hs]
  split
  case h_8 c _ _ _ _ _ _ heq =>
    cases heq
    rw [if_pos hc]
    rfl
  all_goals
    rename_i heq
    cases heq
  all_goals cases hc

theorem value_complete (ih : ReadComplete fuel) (ht : Over t) (hblanks : Blanks s.rest start)
    (h : x.Spans start t) (hj : x.json? room = some j) (hfuel : 2 * start.length ≤ fuel + 1) :
    Gives (value (fuel + 1) room s) j t := by
  have hstart : s.skipBlanks.rest = start := skipBlanks_rest hblanks h.unblank
  cases x with
  | null =>
    obtain rfl := Option.some.inj hj
    have hs := hstart.trans h
    simp only [value, peek?_of_rest hs]
    exact gives_map.mpr ⟨rfl, leaves_word.mpr (skip_of_rest hs)⟩
  | bool b =>
    obtain rfl := Option.some.inj hj
    cases b with
    | true =>
      have hs := hstart.trans h
      simp only [value, peek?_of_rest hs]
      exact gives_map.mpr ⟨rfl, leaves_word.mpr (skip_of_rest hs)⟩
    | false =>
      have hs := hstart.trans h
      simp only [value, peek?_of_rest hs]
      exact gives_map.mpr ⟨rfl, leaves_word.mpr (skip_of_rest hs)⟩
  | number digits =>
    obtain ⟨hnumber, rfl⟩ := h
    obtain ⟨n, hn, rfl⟩ := Option.map_eq_some_iff.mp hj
    obtain ⟨s₁, hs₁, hleft⟩ := (gives_number ht).mpr ⟨digits, hnumber, hstart, hn⟩
    obtain ⟨c, rest, rfl, hc⟩ := hnumber.head
    rw [value_number hstart hc, hs₁]
    exact gives_ok_iff.mpr ⟨rfl, hleft⟩
  | string pieces =>
    obtain ⟨text, htext, rfl⟩ := Option.map_eq_some_iff.mp hj
    have hs := hstart.trans h
    obtain ⟨s₁, hs₁, hleft⟩ := gives_string.mpr ⟨pieces, skip_of_rest hs, htext⟩
    simp only [value, peek?_of_rest hs]
    exact gives_bind.mpr ⟨text, s₁, hs₁, gives_ok_iff.mpr ⟨rfl, hleft⟩⟩
  | list xs =>
    obtain ⟨body, rfl, hxs⟩ := h
    simp only [value, peek?_of_rest hstart]
    have hbody := skip_of_rest hstart
    rw [List.length_cons] at hfuel
    cases room with
    | zero => cases hj
    | succ room =>
      obtain ⟨js, hjs, rfl⟩ := Option.map_eq_some_iff.mp hj
      obtain ⟨s₁, hs₁, hleft⟩ := ih.items room true s.skipBlanks.skip xs js t (hbody ▸ hxs) hjs
        (by rw [hbody]; omega)
      exact gives_bind.mpr ⟨js, s₁, hs₁, gives_ok_iff.mpr ⟨rfl, hleft⟩⟩
  | object members =>
    obtain ⟨body, rfl, hmembers⟩ := h
    simp only [value, peek?_of_rest hstart]
    have hbody := skip_of_rest hstart
    rw [List.length_cons] at hfuel
    cases room with
    | zero => cases hj
    | succ room =>
      obtain ⟨result, hresult, rfl⟩ := Option.map_eq_some_iff.mp hj
      obtain ⟨s₁, hs₁, hleft⟩ := ih.members room true [] s.skipBlanks.skip members result t
        (hbody ▸ hmembers) hresult (by rw [hbody]; omega)
      exact gives_bind.mpr ⟨result, s₁, hs₁, gives_ok_iff.mpr ⟨rfl, hleft⟩⟩

theorem valueItems_complete (ih : ReadComplete fuel) (h : SpansItems first xs s.rest t)
    (hjs : jsonItems? room xs = some js) (hfuel : 2 * s.rest.length < fuel + 1) :
    Gives (valueItems (fuel + 1) room first s) js t := by
  rw [valueItems]
  cases xs with
  | nil =>
    obtain rfl := Option.some.inj hjs
    obtain ⟨hnext, hleft⟩ := nextItem?_of_close first h
    exact gives_step.mpr ⟨none, hnext, gives_ok_iff.mpr ⟨rfl, hleft⟩⟩
  | cons x xs =>
    obtain ⟨s', u, hnext, hx, hxs, hlong, hshort⟩ := exists_nextItem? h
    obtain ⟨j, hj, js', hjs', rfl⟩ : ∃ j, x.json? room = some j ∧
        ∃ js', jsonItems? room xs = some js' ∧ j :: js' = js := by
      simpa [jsonItems?, Option.bind_eq_some_iff] using hjs
    obtain ⟨s₁, hs₁, rfl⟩ := ih.value room s' x _ j u (spansItems_over hxs) blanks_refl hx hj
      (by omega)
    obtain ⟨s₂, hs₂, hleft⟩ := ih.items room false s₁ xs js' t hxs hjs' (by omega)
    exact gives_step.mpr ⟨some s', hnext, gives_bind.mpr ⟨j, s₁, hs₁,
      gives_bind.mpr ⟨js', s₂, hs₂, gives_ok_iff.mpr ⟨rfl, hleft⟩⟩⟩⟩

theorem valueMembers_complete (ih : ReadComplete fuel) (h : SpansMembers first members s.rest t)
    (hresult : jsonMembers? room others members = some result)
    (hfuel : 2 * s.rest.length < fuel + 1) :
    Gives (valueMembers (fuel + 1) room first others s) result t := by
  rw [valueMembers]
  cases members with
  | nil =>
    obtain rfl := Option.some.inj hresult
    obtain ⟨hnext, hleft⟩ := nextKey?_of_close first h
    exact gives_step.mpr ⟨none, hnext, gives_ok_iff.mpr ⟨rfl, hleft⟩⟩
  | cons e members =>
    obtain ⟨pieces, x⟩ := e
    obtain ⟨s', afterKey, afterColon, start, u, hnext, hkey, hcolon, hblanks, hx, hmembers, hlong,
      hshort⟩ := exists_nextKey? h
    obtain ⟨key, htext, j, hj, hresult⟩ : ∃ key, textOf? pieces = some key ∧
        ∃ j, x.json? room = some j ∧
          jsonMembers? room (Keyed.insert others key j) members = some result := by
      simpa [jsonMembers?, Option.bind_eq_some_iff] using hresult
    obtain ⟨s₁, hs₁, rfl⟩ := gives_string.mpr ⟨pieces, skip_of_rest hkey, htext⟩
    obtain ⟨s₂, hs₂, rfl⟩ := leaves_colon.mpr hcolon
    obtain ⟨s₃, hs₃, rfl⟩ := ih.value room s₂ x start j u (spansMembers_over hmembers) hblanks hx hj
      (by omega)
    have hlast := ih.members room false _ s₃ members result t hmembers hresult (by omega)
    exact gives_step.mpr ⟨some s', hnext, gives_bind.mpr ⟨key, s₁, hs₁,
      gives_step.mpr ⟨s₂, hs₂, gives_bind.mpr ⟨j, s₃, hs₃, hlast⟩⟩⟩⟩

theorem readComplete (fuel : Nat) : ReadComplete fuel := by
  induction fuel with
  | zero =>
    refine ⟨fun _ s x start j t _ _ hx _ hfuel => ?_, fun _ _ s _ _ _ _ _ hfuel => absurd hfuel (by omega),
      fun _ _ _ s _ _ _ _ _ hfuel => absurd hfuel (by omega)⟩
    have := hx.length_lt
    omega
  | succ fuel ih =>
    exact ⟨fun _ _ _ _ _ _ => value_complete ih, fun _ _ _ _ _ _ => valueItems_complete ih,
      fun _ _ _ _ _ _ _ => valueMembers_complete ih⟩

theorem decodes_readWithin (room : Nat) : Decodes (Json.readWithin room) (json? room) := by
  intro s j t ht
  rw [Json.readWithin]
  constructor
  · exact (readSound s.fuel).value room s j t ht
  · rintro ⟨x, start, hblanks, hx, hj⟩
    have := hblanks.length_le
    exact (readComplete s.fuel).value room s x start j t ht hblanks hx hj
      (by rw [Cursor.fuel]; omega)

end EventAdmission
