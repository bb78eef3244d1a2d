import EventAdmission.Proofs.Json.SkippedNumbers

/-!
# What a text spells

A stretch of text spells at most one value: the first character of a value tells its
kind, and each part ends where the next one starts. `Spans.unique` says so of a value
within a text, `SpelledBy.unique` of the only value of a text.
-/

namespace EventAdmission

open Cursor Written

variable {c : Char} {t t' u u' w w' : List Char} {first : Bool} {x y : Written} {xs ys : List Written}
  {pieces pieces' : List StringPiece} {members members' : List (List StringPiece × Written)}

-- ---------------------------------------------------------------------------
-- How a value starts
-- ---------------------------------------------------------------------------

theorem IsNumber.head (h : IsNumber w) :
    ∃ c rest, w = c :: rest ∧ (c = '-' || isDigit c) = true := by
  obtain ⟨cs, rfl | rfl, whole, tail, rfl, ⟨⟨hne, hds⟩, -⟩, -⟩ := h
  · cases whole with
    | nil => exact absurd rfl hne
    | cons d ds => exact ⟨d, ds ++ tail, rfl, by simp [hds d List.mem_cons_self]⟩
  · exact ⟨'-', _, rfl, by simp⟩

def Written.opening : Written → Option Char
  | null => some 'n'
  | bool true => some 't'
  | bool false => some 'f'
  | number _ => none
  | string _ => some '"'
  | list _ => some '['
  | object _ => some '\x7b'

theorem Written.Spans.head (h : x.Spans t u) :
    ∃ c rest, t = c :: rest ∧ (x.opening = some c ∨
      x.opening = none ∧ (c = '-' || isDigit c) = true) := by
  cases x with
  | null => exact ⟨_, _, h, .inl rfl⟩
  | bool b => cases b <;> exact ⟨_, _, h, .inl rfl⟩
  | number digits =>
    obtain ⟨hnumber, rfl⟩ := h
    obtain ⟨c, rest, rfl, hc⟩ := hnumber.head
    exact ⟨c, rest ++ u, rfl, .inr ⟨rfl, hc⟩⟩
  | string pieces => exact ⟨_, _, h, .inl rfl⟩
  | list items =>
    obtain ⟨body, rfl, -⟩ := h
    exact ⟨_, _, rfl, .inl rfl⟩
  | object members =>
    obtain ⟨body, rfl, -⟩ := h
    exact ⟨_, _, rfl, .inl rfl⟩

theorem opening_cases (h : x.opening = some c ∨ x.opening = none ∧ (c = '-' || isDigit c) = true) :
    isBlank c = false ∧ c ≠ ']' := by
  rcases h with h | ⟨-, hc⟩
  · cases x with
    | bool b => cases b <;> cases h <;> decide
    | number digits => cases h
    | _ =>
      cases h
      decide
  · constructor
    · cases hblank : isBlank c with
      | false => rfl
      | true =>
        have hcases : c = ' ' ∨ c = '\n' ∨ c = '\t' ∨ c = '\r' := by
          simpa [isBlank, or_assoc] using hblank
        rcases hcases with rfl | rfl | rfl | rfl <;> exact absurd hc (by decide)
    · rintro rfl
      exact absurd hc (by decide)

theorem Written.Spans.unblank (h : x.Spans t u) : Unblank t := by
  obtain ⟨c, rest, rfl, hc⟩ := h.head
  exact unblank_cons.mpr (opening_cases hc).1

theorem Written.Spans.not_closed (h : x.Spans t u) {rest : List Char} (heq : t = ']' :: rest) :
    False := by
  obtain ⟨c, rest', rfl, hc⟩ := h.head
  exact (opening_cases hc).2 (List.cons.inj heq).1

theorem Written.Spans.opening_eq (h : x.Spans t u) (h' : y.Spans t u') : x.opening = y.opening := by
  obtain ⟨c, rest, rfl, hc⟩ := h.head
  obtain ⟨c', rest', heq, hc'⟩ := h'.head
  obtain ⟨rfl, rfl⟩ := List.cons.inj heq
  have hnumber : ∀ z : Written, z.opening = some c → (c = '-' || isDigit c) = true → False := by
    intro z hz hc
    cases z with
    | bool b => cases b <;> cases hz <;> cases hc
    | number digits => cases hz
    | _ =>
      cases hz
      cases hc
  rcases hc with hc | ⟨hc, hnum⟩
  · rcases hc' with hc' | ⟨hc', hnum⟩
    · rw [hc, hc']
    · exact (hnumber x hc hnum).elim
  · rcases hc' with hc' | ⟨hc', -⟩
    · exact (hnumber y hc' hnum).elim
    · rw [hc, hc']

-- ---------------------------------------------------------------------------
-- How a value ends
-- ---------------------------------------------------------------------------

theorem spansItems_over (h : SpansItems false xs t u) : Over t := by
  cases xs with
  | nil =>
    have hclose : Blanks t (']' :: u) := h
    exact hclose.over (by decide)
  | cons x xs =>
    obtain ⟨opened, start, rest, hopens, -⟩ := h
    exact Opens.over hopens

theorem spansMembers_over (h : SpansMembers false members t u) : Over t := by
  cases members with
  | nil =>
    have hclose : Blanks t ('\x7d' :: u) := h
    exact hclose.over (by decide)
  | cons e members =>
    obtain ⟨opened, afterKey, afterColon, start, rest, hopens, -⟩ := h
    exact Opens.over hopens

theorem length_quotedPieces (pieces : List StringPiece) (u : List Char) :
    u.length + 2 ≤ (quotedPieces pieces u).length := by
  simp only [quotedPieces, List.length_cons, List.length_append]
  omega

mutual

theorem Written.Spans.length_lt : ∀ {x : Written} {t u : List Char}, x.Spans t u → u.length < t.length
  | .null, t, u, h => by
    obtain rfl : t = _ := h
    simp only [List.length_cons]
    omega
  | .bool true, t, u, h => by
    obtain rfl : t = _ := h
    simp only [List.length_cons]
    omega
  | .bool false, t, u, h => by
    obtain rfl : t = _ := h
    simp only [List.length_cons]
    omega
  | .number digits, t, u, ⟨hnumber, h⟩ => by
    obtain ⟨c, rest, rfl, -⟩ := hnumber.head
    rw [h, List.length_append, List.length_cons]
    omega
  | .string pieces, t, u, h => by
    obtain rfl : t = _ := h
    have := length_quotedPieces pieces u
    omega
  | .list items, t, u, ⟨body, h, hitems⟩ => by
    have := spansItems_length_lt hitems
    rw [h, List.length_cons]
    omega
  | .object members, t, u, ⟨body, h, hmembers⟩ => by
    have := spansMembers_length_lt hmembers
    rw [h, List.length_cons]
    omega

theorem spansItems_length_lt : ∀ {xs : List Written} {first : Bool} {t u : List Char},
    SpansItems first xs t u → u.length < t.length
  | [], _, t, u, h => by
    have hclose : Blanks t (']' :: u) := h
    have := hclose.length_le
    rw [List.length_cons] at this
    omega
  | x :: xs, _, t, u, ⟨opened, start, rest, hopens, hblanks, hx, hxs⟩ => by
    have := Opens.length_le hopens
    have := hblanks.length_le
    have := Written.Spans.length_lt hx
    have := spansItems_length_lt hxs
    omega

theorem spansMembers_length_lt : ∀ {members : List (List StringPiece × Written)} {first : Bool}
    {t u : List Char}, SpansMembers first members t u → u.length < t.length
  | [], _, t, u, h => by
    have hclose : Blanks t ('\x7d' :: u) := h
    have := hclose.length_le
    rw [List.length_cons] at this
    omega
  | (key, x) :: members, _, t, u,
      ⟨opened, afterKey, afterColon, start, rest, hopens, hkey, hcolon, hblanks, hx, hmembers⟩ => by
    have := Opens.length_le hopens
    have := hkey.length_le
    have := length_quotedPieces key afterKey
    have := hcolon.length_le
    have := hblanks.length_le
    have := Written.Spans.length_lt hx
    have := spansMembers_length_lt hmembers
    simp only [List.length_cons] at *
    omega

end

-- ---------------------------------------------------------------------------
-- One value at most
-- ---------------------------------------------------------------------------

theorem chars_ne_quote (piece : StringPiece) : piece.chars ++ u ≠ '"' :: t := by
  cases piece with
  | plain c hc =>
    rintro ⟨⟩
    cases hc
  | short letter c hc => simp [StringPiece.chars]
  | code a b c d n hn => simp [StringPiece.chars]

theorem piece_unique {piece piece' : StringPiece} (h : piece.chars ++ u = piece'.chars ++ u') :
    piece = piece' ∧ u = u' := by
  cases piece with
  | plain c hc =>
    cases piece' with
    | plain c' hc' => simpa [StringPiece.chars] using h
    | _ =>
      -- A backslash does not stand for itself.
      cases h
      cases hc
  | short letter c hc =>
    cases piece' with
    | plain c' hc' =>
      cases h
      cases hc'
    | short letter' c' hc' =>
      cases h
      obtain rfl : c = c' := Option.some.inj (hc.symm.trans hc')
      exact ⟨rfl, rfl⟩
    | code a b c' d n hn =>
      cases h
      cases hc
  | code a b c d n hn =>
    cases piece' with
    | plain c' hc' =>
      cases h
      cases hc'
    | short letter' c' hc' =>
      cases h
      cases hc'
    | code a' b' c' d' n' hn' =>
      cases h
      obtain rfl : n = n' := Option.some.inj (hn.symm.trans hn')
      exact ⟨rfl, rfl⟩

theorem pieces_unique (h : pieces.flatMap StringPiece.chars ++ '"' :: t =
    pieces'.flatMap StringPiece.chars ++ '"' :: t') : pieces = pieces' ∧ t = t' := by
  induction pieces generalizing pieces' with
  | nil =>
    cases pieces' with
    | nil => exact ⟨rfl, by simpa using h⟩
    | cons piece pieces' =>
      rw [List.flatMap_cons, List.append_assoc] at h
      exact absurd h.symm (chars_ne_quote piece)
  | cons piece pieces ih =>
    rw [List.flatMap_cons, List.append_assoc] at h
    cases pieces' with
    | nil => exact absurd h (chars_ne_quote piece)
    | cons piece' pieces' =>
      rw [List.flatMap_cons, List.append_assoc] at h
      obtain ⟨rfl, hrest⟩ := piece_unique h
      obtain ⟨rfl, rfl⟩ := ih hrest
      exact ⟨rfl, rfl⟩

theorem quotedPieces_unique (h : quotedPieces pieces t = quotedPieces pieces' t') :
    pieces = pieces' ∧ t = t' :=
  pieces_unique (List.cons.inj h).2

theorem unblank_quotedPieces : Unblank (quotedPieces pieces t) := unblank_cons.mpr (by decide)

theorem Written.Opens.unique (h : Opens first t u) (h' : Opens first t u') : u = u' := by
  cases first with
  | true => exact (show t = u from h).symm.trans h'
  | false =>
    have hcomma : Blanks t (',' :: u) := h
    have hcomma' : Blanks t (',' :: u') := h'
    have heq := hcomma.unique hcomma' (unblank_cons.mpr (by decide)) (unblank_cons.mpr (by decide))
    exact (List.cons.inj heq).2

theorem Written.Opens.start_eq {start rest : List Char} (hopens : Opens first t u)
    (hblanks : Blanks u start) (hstart : Unblank start) (hclose : Blanks t (c :: rest))
    (hc : isBlank c = false) (hne : c ≠ ',') : start = c :: rest := by
  cases first with
  | true =>
    obtain rfl : t = u := hopens
    exact hblanks.unique hclose hstart (unblank_cons.mpr hc)
  | false =>
    have hcomma : Blanks t (',' :: u) := hopens
    have heq := hcomma.unique hclose (unblank_cons.mpr (by decide)) (unblank_cons.mpr hc)
    exact absurd (List.cons.inj heq).1.symm hne

mutual

/-- A stretch of text spells at most one value. -/
theorem Written.Spans.unique : ∀ {x y : Written} {t u u' : List Char}, x.Spans t u → y.Spans t u' →
    Over u → Over u' → x = y ∧ u = u'
  | .null, y, t, u, u', h, h', hu, hu' => by
    have hopening := h.opening_eq h'
    cases y with
    | null => exact ⟨rfl, by simpa [show t = _ from h] using show t = _ from h'⟩
    | bool b => cases b <;> cases hopening
    | _ => cases hopening
  | .bool b, y, t, u, u', h, h', hu, hu' => by
    have hopening := h.opening_eq h'
    cases y with
    | bool b' =>
      obtain rfl : b = b' := by cases b <;> cases b' <;> first | rfl | cases hopening
      cases b <;> exact ⟨rfl, by simpa [show t = _ from h] using show t = _ from h'⟩
    | _ => cases b <;> cases hopening
  | .number digits, y, t, u, u', ⟨hnumber, h⟩, h', hu, hu' => by
    have hopening := Written.Spans.opening_eq (x := .number digits) ⟨hnumber, h⟩ h'
    cases y with
    | number digits' =>
      obtain ⟨rfl, rfl⟩ := hnumber.unique h'.1 hu hu' (h.symm.trans h'.2)
      exact ⟨rfl, rfl⟩
    | bool b => cases b <;> cases hopening
    | _ => cases hopening
  | .string pieces, y, t, u, u', h, h', hu, hu' => by
    have hopening := h.opening_eq h'
    cases y with
    | string pieces' =>
      obtain ⟨rfl, rfl⟩ := quotedPieces_unique ((show t = _ from h).symm.trans h')
      exact ⟨rfl, rfl⟩
    | bool b => cases b <;> cases hopening
    | _ => cases hopening
  | .list items, y, t, u, u', ⟨body, h, hitems⟩, h', hu, hu' => by
    have hopening := Written.Spans.opening_eq (x := .list items) ⟨body, h, hitems⟩ h'
    cases y with
    | list items' =>
      obtain ⟨body', hbody, hitems'⟩ := h'
      obtain ⟨-, rfl⟩ := List.cons.inj (h.symm.trans hbody)
      obtain ⟨rfl, rfl⟩ := spansItems_unique hitems hitems'
      exact ⟨rfl, rfl⟩
    | bool b => cases b <;> cases hopening
    | _ => cases hopening
  | .object members, y, t, u, u', ⟨body, h, hmembers⟩, h', hu, hu' => by
    have hopening := Written.Spans.opening_eq (x := .object members) ⟨body, h, hmembers⟩ h'
    cases y with
    | object members' =>
      obtain ⟨body', hbody, hmembers'⟩ := h'
      obtain ⟨-, rfl⟩ := List.cons.inj (h.symm.trans hbody)
      obtain ⟨rfl, rfl⟩ := spansMembers_unique hmembers hmembers'
      exact ⟨rfl, rfl⟩
    | bool b => cases b <;> cases hopening
    | _ => cases hopening

theorem spansItems_unique : ∀ {xs ys : List Written} {first : Bool} {t u u' : List Char},
    SpansItems first xs t u → SpansItems first ys t u' → xs = ys ∧ u = u'
  | [], [], _, t, u, u', h, h' => by
    have hclose : Blanks t (']' :: u) := h
    have heq := hclose.unique h' (unblank_cons.mpr (by decide)) (unblank_cons.mpr (by decide))
    exact ⟨rfl, (List.cons.inj heq).2⟩
  | [], y :: ys, _, t, u, u', h, ⟨opened, start, rest, hopens, hblanks, hy, hys⟩ =>
    (hy.not_closed (hopens.start_eq hblanks hy.unblank h (by decide) (by decide))).elim
  | x :: xs, [], _, t, u, u', ⟨opened, start, rest, hopens, hblanks, hx, hxs⟩, h' =>
    (hx.not_closed (hopens.start_eq hblanks hx.unblank h' (by decide) (by decide))).elim
  | x :: xs, y :: ys, _, t, u, u', ⟨opened, start, rest, hopens, hblanks, hx, hxs⟩,
      ⟨opened', start', rest', hopens', hblanks', hy, hys⟩ => by
    obtain rfl := hopens.unique hopens'
    obtain rfl := hblanks.unique hblanks' hx.unblank hy.unblank
    obtain ⟨rfl, rfl⟩ := Written.Spans.unique hx hy (spansItems_over hxs) (spansItems_over hys)
    obtain ⟨rfl, rfl⟩ := spansItems_unique hxs hys
    exact ⟨rfl, rfl⟩

theorem spansMembers_unique : ∀ {members members' : List (List StringPiece × Written)}
    {first : Bool} {t u u' : List Char}, SpansMembers first members t u →
    SpansMembers first members' t u' → members = members' ∧ u = u'
  | [], [], _, t, u, u', h, h' => by
    have hclose : Blanks t ('\x7d' :: u) := h
    have heq := hclose.unique h' (unblank_cons.mpr (by decide)) (unblank_cons.mpr (by decide))
    exact ⟨rfl, (List.cons.inj heq).2⟩
  | [], (key, y) :: members', _, t, u, u', h, ⟨opened, afterKey, afterColon, start, rest, hopens,
      hkey, hcolon, hblanks, hy, hys⟩ => by
    cases hopens.start_eq hkey unblank_quotedPieces h (by decide) (by decide)
  | (key, x) :: members, [], _, t, u, u', ⟨opened, afterKey, afterColon, start, rest, hopens,
      hkey, hcolon, hblanks, hx, hxs⟩, h' => by
    cases hopens.start_eq hkey unblank_quotedPieces h' (by decide) (by decide)
  | (key, x) :: members, (key', y) :: members', _, t, u, u',
      ⟨opened, afterKey, afterColon, start, rest, hopens, hkey, hcolon, hblanks, hx, hxs⟩,
      ⟨opened', afterKey', afterColon', start', rest', hopens', hkey', hcolon', hblanks', hy,
        hys⟩ => by
    obtain rfl := hopens.unique hopens'
    obtain ⟨rfl, rfl⟩ := quotedPieces_unique
      (hkey.unique hkey' unblank_quotedPieces unblank_quotedPieces)
    obtain ⟨-, rfl⟩ := List.cons.inj
      (hcolon.unique hcolon' (unblank_cons.mpr (by decide)) (unblank_cons.mpr (by decide)))
    obtain rfl := hblanks.unique hblanks' hx.unblank hy.unblank
    obtain ⟨rfl, rfl⟩ := Written.Spans.unique hx hy (spansMembers_over hxs) (spansMembers_over hys)
    obtain ⟨rfl, rfl⟩ := spansMembers_unique hxs hys
    exact ⟨rfl, rfl⟩

end

theorem Written.SpelledBy.unique {text : String} (h : x.SpelledBy text) (h' : y.SpelledBy text) :
    x = y := by
  obtain ⟨t, u, hbefore, hx, hafter⟩ := h
  obtain ⟨t', u', hbefore', hy, hafter'⟩ := h'
  obtain rfl := hbefore.unique hbefore' hx.unblank hy.unblank
  exact (hx.unique hy hafter.over_nil hafter'.over_nil).1

-- ---------------------------------------------------------------------------
-- Part by part
-- ---------------------------------------------------------------------------

section

variable {s s' s₁ s₂ s₃ : Cursor} {start : List Char} {key : List StringPiece}

theorem spansItems_step (hnext : s.nextItem? first = .ok (some s')) (hstart : Blanks s'.rest start)
    (hx : x.Spans start s₁.rest) (hxs : SpansItems false xs s₁.rest t) :
    SpansItems first (x :: xs) s.rest t := by
  obtain ⟨opened, hopens, hblanks, -⟩ := nextItem?_some hnext
  exact ⟨opened, start, s₁.rest, hopens, hblanks.trans hstart, hx, hxs⟩

theorem exists_nextItem? (h : SpansItems first (x :: xs) s.rest t) :
    ∃ s' u, s.nextItem? first = .ok (some s') ∧ x.Spans s'.rest u ∧ SpansItems false xs u t ∧
      s'.rest.length ≤ s.rest.length ∧ u.length < s'.rest.length := by
  obtain ⟨opened, start, rest, hopens, hblanks, hx, hxs⟩ := h
  have hlength := hx.length_lt
  have hshort := hblanks.length_le
  have hlong := Opens.length_le hopens
  obtain ⟨c, start', rfl, hc⟩ := hx.head
  obtain ⟨s', hnext, hrest⟩ := nextItem?_of_open hopens hblanks (opening_cases hc).1
    (opening_cases hc).2
  rw [← hrest] at hx hlength hshort
  exact ⟨s', rest, hnext, hx, hxs, Nat.le_trans hshort hlong, hlength⟩

theorem spansMembers_step (hnext : s.nextKey? first = .ok (some s'))
    (hkey : s'.rest = quotedPieces key s₁.rest) (hcolon : s₁.colon = .ok s₂)
    (hstart : Blanks s₂.rest start) (hx : x.Spans start s₃.rest)
    (hmembers : SpansMembers false members s₃.rest t) :
    SpansMembers first ((key, x) :: members) s.rest t := by
  obtain ⟨opened, hopens, hblanks, -⟩ := nextKey?_some hnext
  exact ⟨opened, s₁.rest, s₂.rest, start, s₃.rest, hopens, hkey ▸ hblanks,
    leaves_colon.mp ⟨s₂, hcolon, rfl⟩, hstart, hx, hmembers⟩

theorem exists_nextKey? (h : SpansMembers first ((key, x) :: members) s.rest t) :
    ∃ s' afterKey afterColon start u, s.nextKey? first = .ok (some s') ∧
      s'.rest = quotedPieces key afterKey ∧ Blanks afterKey (':' :: afterColon) ∧
      Blanks afterColon start ∧ x.Spans start u ∧ SpansMembers false members u t ∧
      start.length < s.rest.length ∧ u.length < start.length := by
  obtain ⟨opened, afterKey, afterColon, start, rest, hopens, hkey, hcolon, hblanks, hx, hmembers⟩ := h
  obtain ⟨s', hnext, hrest⟩ := nextKey?_of_open hopens hkey
  refine ⟨s', afterKey, afterColon, start, rest, hnext, hrest, hcolon, hblanks, hx, hmembers, ?_,
    hx.length_lt⟩
  have hquotes := length_quotedPieces key afterKey
  have hfront := hkey.length_le
  have hmiddle := hcolon.length_le
  have hshort := hblanks.length_le
  have hlong := Opens.length_le hopens
  rw [List.length_cons] at hmiddle
  omega

theorem rest_of_nextKey? (hnext : s.nextKey? first = .ok (some s'))
    (hkey : s'.skip.rest = key.flatMap StringPiece.chars ++ '"' :: t) :
    s'.rest = quotedPieces key t := by
  obtain ⟨-, -, -, hquote⟩ := nextKey?_some hnext
  rw [rest_of_peek? hquote, hkey]
  rfl

end

end EventAdmission
