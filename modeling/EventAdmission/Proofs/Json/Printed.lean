import EventAdmission.Proofs.Json.Decoding
import EventAdmission.Proofs.Json.Values

/-!
# Printed values

The compact text of a value spells it: `Json.written` is how a value is written by the
printer, `spans_written` says that the text spells just that, and `json?_written` that
it stands for the value again. Floats are left out, whose numerals are read only nearly.
-/

namespace EventAdmission

open Cursor Written

variable {c : Char} {u : List Char} {name : String} {x : Json} {items : List Json}
  {members others : Members} {room : Nat}

-- ---------------------------------------------------------------------------
-- Strings
-- ---------------------------------------------------------------------------

def shortLetter? (c : Char) : Option Char :=
  match c with
  | '"' => some '"'
  | '\\' => some '\\'
  | '\x08' => some 'b'
  | '\x0c' => some 'f'
  | '\n' => some 'n'
  | '\r' => some 'r'
  | '\t' => some 't'
  | _ => none

theorem simpleEscape?_shortLetter {letter : Char} (h : shortLetter? c = some letter) :
    simpleEscape? letter = some c := by
  unfold shortLetter? at h
  split at h <;> cases h <;> rfl

theorem hexCode?_hexDigit (h : c.toNat < 0x20) :
    hexCode? '0' '0' (hexDigit (c.toNat / 16)) (hexDigit c.toNat) = some c.toNat := by
  have hall : ∀ n < 0x20, hexCode? '0' '0' (hexDigit (n / 16)) (hexDigit n) = some n := by decide
  exact hall _ h

theorem isPlain_of (hshort : shortLetter? c = none) (h : ¬ c.toNat < 0x20) : isPlain c = true := by
  have hquote : c ≠ '"' := by
    rintro rfl
    cases hshort
  have hback : c ≠ '\\' := by
    rintro rfl
    cases hshort
  simp only [isPlain, Bool.and_eq_true, bne_iff_ne, decide_eq_true_eq]
  exact ⟨⟨hquote, hback⟩, by omega⟩

def StringPiece.ofChar (c : Char) : StringPiece :=
  match hshort : shortLetter? c with
  | some letter => .short letter c (simpleEscape?_shortLetter hshort)
  | none =>
    if h : c.toNat < 0x20 then
      .code '0' '0' (hexDigit (c.toNat / 16)) (hexDigit c.toNat) c.toNat (hexCode?_hexDigit h)
    else .plain c (isPlain_of hshort h)

def piecesOf (s : String) : List StringPiece := s.toList.map StringPiece.ofChar

theorem StringPiece.chars_ofChar : (ofChar c).chars = Json.escape c := by
  unfold ofChar
  split
  · rename_i letter hshort
    unfold shortLetter? at hshort
    split at hshort <;> cases hshort <;> rfl
  · rename_i hshort
    have hescape : Json.escape c = if c.toNat < 0x20
        then ['\\', 'u', '0', '0', hexDigit (c.toNat / 16), hexDigit c.toNat] else [c] := by
      unfold Json.escape
      split
      case h_8 => rfl
      all_goals cases hshort
    by_cases h : c.toNat < 0x20 <;> simp [hescape, h, chars]

theorem unescape?_ofChar {more : List StringPiece} :
    unescape? none (.ofChar c :: more) = (c :: ·) <$> unescape? none more := by
  unfold StringPiece.ofChar
  split
  · rfl
  · split
    · rename_i h
      have hlow : isLowSurrogate c.toNat = false := by
        simp only [isLowSurrogate, Bool.and_eq_false_iff, decide_eq_false_iff_not]
        omega
      have hhigh : isHighSurrogate c.toNat = false := by
        simp only [isHighSurrogate, Bool.and_eq_false_iff, decide_eq_false_iff_not]
        omega
      simp [unescape?, hlow, hhigh]
    · rfl

@[simp] theorem textOf?_piecesOf : textOf? (piecesOf name) = some name := by
  have hlist : ∀ cs : List Char, unescape? none (cs.map StringPiece.ofChar) = some cs := by
    intro cs
    induction cs with
    | nil => rfl
    | cons c cs ih => rw [List.map_cons, unescape?_ofChar, ih]; rfl
  rw [textOf?, piecesOf, hlist]
  simp

theorem quoted_append : Json.quoted name ++ u = quotedPieces (piecesOf name) u := by
  have hchars : (piecesOf name).flatMap StringPiece.chars = name.toList.flatMap Json.escape := by
    rw [piecesOf, List.flatMap_map]
    exact congrArg (name.toList.flatMap ·) (funext fun _ => StringPiece.chars_ofChar)
  simp [Json.quoted, quotedPieces, hchars]

-- ---------------------------------------------------------------------------
-- Values
-- ---------------------------------------------------------------------------

namespace Json

mutual

def written : Json → Written
  | null => .null
  | bool b => .bool b
  | num n => .number n.chars
  | str s => .string (piecesOf s)
  | arr items => .list (writtenItems items)
  | obj members => .object (writtenMembers members)

def writtenItems : List Json → List Written
  | [] => []
  | x :: xs => written x :: writtenItems xs

def writtenMembers : List (String × Json) → List (List StringPiece × Written)
  | [] => []
  | (key, x) :: xs => (piecesOf key, written x) :: writtenMembers xs

end

def Floatless (x : Json) : Prop := ∀ f, num (.float f) ∉ x.values

theorem floatless_arr : (arr items).Floatless ↔ ∀ x ∈ items, x.Floatless := by
  simp only [Floatless, values_eq (arr items), List.mem_cons, mem_inside_arr]
  constructor
  · exact fun h x hx f hf => h f (.inr ⟨x, hx, hf⟩)
  · rintro h f (hf | ⟨x, hx, hf⟩)
    · cases hf
    · exact h x hx f hf

theorem floatless_obj : (obj members).Floatless ↔ ∀ e ∈ members, e.2.Floatless := by
  simp only [Floatless, values_eq (obj members), List.mem_cons, mem_inside_obj]
  constructor
  · exact fun h e he f hf => h f (.inr ⟨e, he, hf⟩)
  · rintro h f (hf | ⟨e, he, hf⟩)
    · cases hf
    · exact h e he f hf

theorem spansItems_comma {y : Written} {ys : List Written} {t : List Char}
    (h : SpansItems true (y :: ys) t u) : SpansItems false (y :: ys) (',' :: t) u := by
  obtain ⟨opened, start, rest, rfl, h⟩ := h
  exact ⟨t, start, rest, blanks_refl, h⟩

theorem spansMembers_comma {e : List StringPiece × Written} {es : List (List StringPiece × Written)}
    {t : List Char} (h : SpansMembers true (e :: es) t u) :
    SpansMembers false (e :: es) (',' :: t) u := by
  obtain ⟨opened, afterKey, afterColon, start, rest, rfl, h⟩ := h
  exact ⟨t, afterKey, afterColon, start, rest, blanks_refl, h⟩

theorem spansItems_written (h : ∀ x ∈ items, ∀ u, (written x).Spans (x.chars ++ u) u) :
    SpansItems true (writtenItems items) (itemChars items ++ ']' :: u) u := by
  induction items with
  | nil => exact blanks_refl
  | cons x items ih =>
    obtain ⟨hx, h⟩ := List.forall_mem_cons.mp h
    cases items with
    | nil => exact ⟨_, _, ']' :: u, rfl, blanks_refl, hx _, blanks_refl⟩
    | cons y items =>
      refine ⟨_, _, ',' :: (itemChars (y :: items) ++ ']' :: u), rfl, blanks_refl, ?_,
        spansItems_comma (ih h)⟩
      simpa [itemChars] using hx (',' :: (itemChars (y :: items) ++ ']' :: u))

theorem spansMembers_written (h : ∀ e ∈ members, ∀ u, (written e.2).Spans (e.2.chars ++ u) u) :
    SpansMembers true (writtenMembers members) (memberChars members ++ '\x7d' :: u) u := by
  induction members with
  | nil => exact blanks_refl
  | cons e members ih =>
    obtain ⟨key, x⟩ := e
    obtain ⟨hx, h⟩ := List.forall_mem_cons.mp h
    cases members with
    | nil =>
      have hkey : memberChars [(key, x)] ++ '\x7d' :: u =
          quotedPieces (piecesOf key) (':' :: (x.chars ++ '\x7d' :: u)) := by
        rw [← quoted_append]
        simp [memberChars]
      exact ⟨_, _, _, _, '\x7d' :: u, rfl, hkey ▸ blanks_refl, blanks_refl, blanks_refl, hx _,
        blanks_refl⟩
    | cons next members =>
      have hkey : memberChars ((key, x) :: next :: members) ++ '\x7d' :: u =
          quotedPieces (piecesOf key)
            (':' :: (x.chars ++ ',' :: (memberChars (next :: members) ++ '\x7d' :: u))) := by
        rw [← quoted_append]
        simp [memberChars]
      exact ⟨_, _, _, _, ',' :: (memberChars (next :: members) ++ '\x7d' :: u), rfl,
        hkey ▸ blanks_refl, blanks_refl, blanks_refl, hx _, spansMembers_comma (ih h)⟩

theorem spans_written (hx : x.Floatless) (u : List Char) : (written x).Spans (x.chars ++ u) u := by
  induction x using induct generalizing u with
  | scalar x harr hobj =>
    cases x with
    | null => rfl
    | bool b => cases b <;> rfl
    | num n =>
      refine ⟨(numberOf?_chars fun f hf => hx f ?_).1, rfl⟩
      rw [hf]
      exact mem_values_self
    | str s => exact quoted_append
    | arr items => cases harr
    | obj members => cases hobj
  | array items ih =>
    have hitems := floatless_arr.mp hx
    refine ⟨itemChars items ++ ']' :: u, by simp [chars], ?_⟩
    exact spansItems_written fun x hmem => ih x hmem (hitems x hmem)
  | object members ih =>
    have hmembers := floatless_obj.mp hx
    refine ⟨memberChars members ++ '\x7d' :: u, by simp [chars], ?_⟩
    exact spansMembers_written fun e hmem => ih e hmem (hmembers e hmem)

theorem spelledBy_text (hx : x.Floatless) : (written x).SpelledBy x.text := by
  refine ⟨x.chars, [], ?_, ?_, blanks_refl⟩
  · rw [text, String.toList_ofList]
    exact blanks_refl
  · simpa using spans_written hx []

-- ---------------------------------------------------------------------------
-- What is read back
-- ---------------------------------------------------------------------------

mutual

def nesting : Json → Nat
  | arr items => 1 + nestingItems items
  | obj members => 1 + nestingMembers members
  | _ => 0

def nestingItems : List Json → Nat
  | [] => 0
  | x :: xs => max (nesting x) (nestingItems xs)

def nestingMembers : List (String × Json) → Nat
  | [] => 0
  | (_, x) :: xs => max (nesting x) (nestingMembers xs)

end

theorem nestingItems_le {n : Nat} : nestingItems items ≤ n ↔ ∀ x ∈ items, x.nesting ≤ n := by
  induction items with
  | nil => simp [nestingItems]
  | cons x items ih => rw [nestingItems, Nat.max_le, ih, List.forall_mem_cons]

theorem nestingMembers_le {n : Nat} :
    nestingMembers members ≤ n ↔ ∀ e ∈ members, e.2.nesting ≤ n := by
  induction members with
  | nil => simp [nestingMembers]
  | cons e members ih =>
    rw [nestingMembers, Nat.max_le, ih, List.forall_mem_cons]

theorem jsonItems?_written (h : ∀ x ∈ items, (written x).json? room = some x) :
    jsonItems? room (writtenItems items) = some items := by
  induction items with
  | nil => rfl
  | cons x items ih =>
    obtain ⟨hx, h⟩ := List.forall_mem_cons.mp h
    simp [writtenItems, jsonItems?, hx, ih h]

theorem jsonMembers?_written (others : Members) (hsorted : Keyed.Sorted (others ++ members))
    (h : ∀ e ∈ members, (written e.2).json? room = some e.2) :
    jsonMembers? room others (writtenMembers members) = some (others ++ members) := by
  induction members generalizing others with
  | nil => simp [writtenMembers, jsonMembers?]
  | cons e members ih =>
    obtain ⟨key, x⟩ := e
    obtain ⟨hx, h⟩ := List.forall_mem_cons.mp h
    have hlast : Keyed.insert others key x = others ++ [(key, x)] := by
      have hless : ∀ e ∈ others, e.1 < key := fun e he =>
        (List.pairwise_append.mp hsorted).2.2 e he (key, x) List.mem_cons_self
      simpa [Keyed.insert] using Keyed.insert_append [] hless
    have hrest := ih (others ++ [(key, x)]) (by simpa using hsorted) h
    simp [writtenMembers, jsonMembers?, hx, hlast, hrest]

/-- What is printed stands for the value, if there is room for its brackets. -/
theorem json?_written (hcanonical : x.Canonical) (hx : x.Floatless) (hroom : x.nesting ≤ room) :
    (written x).json? room = some x := by
  induction x using induct generalizing room with
  | scalar x harr hobj =>
    cases x with
    | null => rfl
    | bool b => rfl
    | num n =>
      have hn : numberOf? n.chars = some n := by
        refine (numberOf?_chars fun f hf => hx f ?_).2
        rw [hf]
        exact mem_values_self
      simp [written, json?, hn]
    | str s => simp [written, json?]
    | arr items => cases harr
    | obj members => cases hobj
  | array items ih =>
    rw [nesting] at hroom
    cases room with
    | zero => omega
    | succ room =>
      have hitems := floatless_arr.mp hx
      have hnesting := nestingItems_le.mp (by omega : nestingItems items ≤ room)
      have hread : jsonItems? room (writtenItems items) = some items :=
        jsonItems?_written fun x hmem =>
          ih x hmem (canonicalItems_iff.mp hcanonical x hmem) (hitems x hmem) (hnesting x hmem)
      simp [written, json?, hread]
  | object members ih =>
    rw [nesting] at hroom
    cases room with
    | zero => omega
    | succ room =>
      have hmembers := floatless_obj.mp hx
      have hnesting := nestingMembers_le.mp (by omega : nestingMembers members ≤ room)
      have hread : jsonMembers? room [] (writtenMembers members) = some members :=
        jsonMembers?_written [] hcanonical.1 fun e hmem =>
          ih e hmem (canonicalMembers_iff.mp hcanonical.2 e hmem) (hmembers e hmem)
            (hnesting e hmem)
      simp [written, json?, hread]

-- ---------------------------------------------------------------------------
-- Strings and lists of strings
-- ---------------------------------------------------------------------------

@[simp] theorem floatless_null : null.Floatless := by simp [Floatless, values]

@[simp] theorem floatless_str : (str name).Floatless := by simp [Floatless, values]

@[simp] theorem floatless_strings {names : List String} : (strings names).Floatless := by
  simp [strings, floatless_arr]

@[simp] theorem string?_written : (written (str name)).string? = some name := by
  simp [written, string?]

@[simp] theorem texts?_written {names : List String} :
    (written (strings names)).texts? = some names := by
  rw [strings, written, texts?]
  induction names with
  | nil => rfl
  | cons name names ih => simp [writtenItems, ih]

@[simp] theorem choice?_written {α : Type} {known : List (String × α)} :
    (written (str name)).choice? known = Keyed.find? known name := by
  simp [written, choice?]

end Json

end EventAdmission
