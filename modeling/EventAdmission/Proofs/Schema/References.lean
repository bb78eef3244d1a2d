import EventAdmission.Proofs.Json.Pointer
import EventAdmission.Proofs.Json.Values
import EventAdmission.Proofs.Outcome
import EventAdmission.Proofs.Url.Fragment
import EventAdmission.Schema.Evaluate

/-!
# References inside one document

Where a schema has no identifiers, nothing is looked up by name and the base
never moves: a reference leads to a part of the schema (`follow_nameless`). One
that points into a member of the root needs nothing else of the schema, so it
leads to the same place in every schema with that member (`follow_congr`).
-/

namespace EventAdmission

variable {draft : Draft} {schema x y root root' target : Json} {base url : Url} {scope inner : Scope}
  {items : List Json} {members : Members} {reference key : String}

theorem Draft.mem_all : draft ∈ Draft.all := by
  cases draft <;> decide

def Schema.NamelessIn (draft : Draft) (x : Json) : Prop := ∀ y ∈ x.values, Schema.id? draft y = none

/-- Nothing in a document has an identifier in any draft. -/
def Schema.Nameless (x : Json) : Prop := ∀ y ∈ x.values, ∀ draft, Schema.id? draft y = none

open Schema

theorem Schema.NamelessIn.of_mem (h : NamelessIn draft x) (hy : y ∈ x.values) : NamelessIn draft y :=
  fun z hz => h z (Json.mem_values_trans hy hz)

theorem Schema.Nameless.within (h : Nameless x) : NamelessIn draft x := fun y hy => h y hy draft

theorem Schema.Nameless.self (h : Nameless x) : Schema.id? draft x = none :=
  h x Json.mem_values_self draft

theorem Schema.Nameless.of_mem (h : Nameless x) (hy : y ∈ x.values) : Nameless y :=
  fun z hz draft => h z (Json.mem_values_trans hy hz) draft

theorem nameless_of_drafts (h : ∀ y ∈ x.values, ∀ draft ∈ Draft.all, id? draft y = none) :
    Nameless x := fun y hy draft => h y hy draft Draft.mem_all

theorem Schema.nameless_str {text : String} : Nameless (.str text) := by
  intro y hy draft
  obtain rfl := List.mem_singleton.mp hy
  rfl

theorem Schema.nameless_bool {b : Bool} : Nameless (.bool b) := by
  intro y hy draft
  obtain rfl := List.mem_singleton.mp hy
  rfl

theorem Schema.nameless_arr : Nameless (.arr items) ↔ ∀ x ∈ items, Nameless x := by
  constructor
  · intro h x hx
    exact h.of_mem (Json.mem_values.mpr (.inr (Json.inside_item hx Json.mem_values_self)))
  · intro h y hy draft
    rcases Json.mem_values.mp hy with rfl | hy
    · rfl
    · obtain ⟨x, hx, hy⟩ := Json.mem_inside_arr.mp hy
      exact h x hx y hy draft

theorem Schema.nameless_obj : Nameless (.obj members) ↔
    (∀ draft, id? draft (.obj members) = none) ∧ ∀ e ∈ members, Nameless e.2 := by
  constructor
  · intro h
    refine ⟨fun _ => h.self, fun e he => ?_⟩
    exact h.of_mem (Json.mem_values.mpr (.inr (Json.inside_member he Json.mem_values_self)))
  · rintro ⟨hid, h⟩ y hy draft
    rcases Json.mem_values.mp hy with rfl | hy
    · exact hid draft
    · obtain ⟨e, he, hy⟩ := Json.mem_inside_obj.mp hy
      exact h e he y hy draft

namespace Corpus

-- ---------------------------------------------------------------------------
-- Names
-- ---------------------------------------------------------------------------

theorem namesInItems_nil (h : ∀ x ∈ items, namesIn draft base x = .ok []) :
    namesInItems draft base items = .ok [] := by
  induction items with
  | nil => rfl
  | cons x items ih =>
    obtain ⟨hx, hitems⟩ := List.forall_mem_cons.mp h
    rw [namesInItems, hx, ih hitems]
    rfl

theorem namesInMembers_nil (h : ∀ e ∈ members, namesIn draft base e.2 = .ok []) :
    namesInMembers draft base members = .ok [] := by
  induction members with
  | nil => rfl
  | cons e members ih =>
    obtain ⟨hx, hmembers⟩ := List.forall_mem_cons.mp h
    obtain ⟨key, x⟩ := e
    rw [namesInMembers, hx, ih hmembers]
    split <;> rfl

theorem namesInMembers_append_congr {others : Members}
    (h : namesInMembers draft base members = namesInMembers draft base others) (front : Members) :
    namesInMembers draft base (front ++ members) = namesInMembers draft base (front ++ others) := by
  induction front with
  | nil => exact h
  | cons e front ih =>
    obtain ⟨key, y⟩ := e
    rw [List.cons_append, List.cons_append, namesInMembers, namesInMembers, ih]

theorem namesInMembers_insert (hs : Keyed.Sorted members)
    (hold : ∀ old, Keyed.find? members key = some old →
      namesIn draft base x = namesIn draft base old)
    (hnew : Keyed.find? members key = none → namesIn draft base x = .ok []) :
    namesInMembers draft base (Keyed.insert members key x) = namesInMembers draft base members := by
  obtain ⟨front, back, hinsert, -, ⟨old, hfind, rfl⟩ | ⟨hfind, rfl⟩⟩ := Keyed.insert_split hs key x
  · rw [hinsert]
    refine namesInMembers_append_congr ?_ front
    rw [namesInMembers, namesInMembers, hold old hfind]
  · rw [hinsert]
    refine namesInMembers_append_congr ?_ front
    rw [namesInMembers, hnew hfind]
    split <;> cases namesInMembers draft base back <;> rfl

theorem namesIn_within (h : NamelessIn draft x) : namesIn draft base x = .ok [] := by
  induction x using Json.induct with
  | scalar x harr hobj =>
    cases x with
    | arr items => cases harr
    | obj members => cases hobj
    | _ => rfl
  | array items ih =>
    rw [namesIn]
    exact namesInItems_nil fun x hx => ih x hx
      (h.of_mem (Json.mem_values.mpr (.inr (Json.inside_item hx Json.mem_values_self))))
  | object members ih =>
    rw [namesIn, h _ Json.mem_values_self]
    exact namesInMembers_nil fun e he => ih e he
      (h.of_mem (Json.mem_values.mpr (.inr (Json.inside_member he Json.mem_values_self))))

theorem namesIn_nameless (h : Nameless x) : namesIn draft base x = .ok [] := namesIn_within h.within

theorem rootBase_within (h : NamelessIn draft x) : rootBase draft x = .ok anonymousBase := by
  rw [rootBase, h x Json.mem_values_self]

theorem rootBase_nameless (h : Nameless x) : rootBase draft x = .ok anonymousBase :=
  rootBase_within h.within

def anonymous (root : Json) : Corpus := ⟨root, []⟩

theorem ofSchema_within (h : NamelessIn draft root) :
    ofSchema draft root = .ok (⟨anonymousBase, draft⟩, anonymous root) := by
  rw [ofSchema, rootBase_within h]
  simp only [bind, Except.bind, namesIn_within h]
  rfl

-- ---------------------------------------------------------------------------
-- Places
-- ---------------------------------------------------------------------------

theorem descend_iff {tokens : List (List Char)} :
    (∃ ids, descend draft x tokens = some (ids, target)) ↔ x.follow tokens = some target := by
  induction tokens generalizing x with
  | nil => simp [descend, Json.follow]
  | cons token tokens ih =>
    simp only [descend, Json.follow, bind, Option.bind_eq_some_iff, ← ih]
    constructor
    · rintro ⟨ids, y, hy, ⟨ids', target'⟩, hrest, h⟩
      obtain ⟨-, rfl⟩ := Prod.mk.inj (Option.some.inj h)
      exact ⟨y, hy, ids', hrest⟩
    · rintro ⟨y, hy, ids, hrest⟩
      exact ⟨_, y, hy, _, hrest, rfl⟩

theorem descend_within {tokens : List (List Char)} {ids : List String} (h : NamelessIn draft x)
    (hd : descend draft x tokens = some (ids, target)) : ids = [] := by
  induction tokens generalizing x ids target with
  | nil => exact (Prod.mk.inj (Option.some.inj hd)).1.symm
  | cons token tokens ih =>
    obtain ⟨y, hy, hd⟩ := Option.bind_eq_some_iff.mp hd
    obtain ⟨⟨ids', target'⟩, hrest, hd⟩ := Option.bind_eq_some_iff.mp hd
    obtain rfl := ih (h.of_mem (Json.mem_values.mpr (.inr (Json.inside_token? hy)))) hrest
    obtain ⟨rfl, -⟩ := Prod.mk.inj (Option.some.inj hd)
    rw [h x Json.mem_values_self]
    rfl

theorem document?_anonymous : (anonymous root).document? anonymousBase = some root := by
  simp [document?, anonymous, find?]

theorem resolve_ok {fragment : List Char} (hurl : url.withoutFragment = anonymousBase)
    (hfragment : url.fragment = some fragment) :
    (anonymous root).resolve draft url = .ok (base, target) ↔
      ∃ text tokens ids, Text.utf8Decode (Text.percentDecode fragment) = .ok text ∧
        Json.tokens? text = some tokens ∧ descend draft root tokens = some (ids, target) ∧
        (ids.drop 1).foldlM (fun (base : Url) id => base.join id) anonymousBase = .ok base := by
  have hfind : (anonymous root).find? url.text = none := rfl
  simp only [resolve, hfind, hurl, document?_anonymous, hfragment, Option.getD_some]
  constructor
  · intro hr
    split at hr
    · cases hr
    · rename_i text htext
      split at hr
      · cases hr
      · rename_i ids target' hplace
        obtain ⟨tokens, htokens, hd⟩ := Option.bind_eq_some_iff.mp hplace
        split at hr
        · rename_i base' hbase
          obtain ⟨rfl, rfl⟩ := Prod.mk.inj (Except.ok.inj hr)
          exact ⟨text, tokens, ids, htext, htokens, hd, hbase⟩
        · cases hr
  · rintro ⟨text, tokens, ids, htext, htokens, hd, hbase⟩
    simp only [htext, htokens, Option.bind_some, hd, hbase]

theorem resolve_nameless {fragment : List Char} (h : Nameless root)
    (hurl : url.withoutFragment = anonymousBase) (hfragment : url.fragment = some fragment)
    (htokens : ∀ text, Text.utf8Decode (Text.percentDecode fragment) = .ok text →
      ∃ token tokens, Json.tokens? text = some (token :: tokens))
    (hr : (anonymous root).resolve draft url = .ok (base, target)) :
    base = anonymousBase ∧ target ∈ root.inside := by
  obtain ⟨text, tokens, ids, htext, htok, hd, hbase⟩ := (resolve_ok hurl hfragment).mp hr
  obtain ⟨token, rest, hcons⟩ := htokens text htext
  obtain rfl := Option.some.inj (htok.symm.trans hcons)
  obtain rfl := descend_within h.within hd
  obtain ⟨y, hy, hrest⟩ := Option.bind_eq_some_iff.mp (descend_iff.mp ⟨_, hd⟩)
  exact ⟨(Except.ok.inj hbase).symm, Json.mem_inside_trans (Json.inside_token? hy)
    (Json.follow_mem hrest)⟩

/-- A reference needs no more of a document than the member that it points into. -/
theorem resolve_congr {fragment : List Char} (hid : Schema.id? draft root = Schema.id? draft root')
    (hurl : url.withoutFragment = anonymousBase) (hfragment : url.fragment = some fragment)
    (htokens : ∀ text, Text.utf8Decode (Text.percentDecode fragment) = .ok text →
      ∃ token tokens, Json.tokens? text = some (token :: tokens) ∧
        root.token? token = root'.token? token) :
    (anonymous root).resolve draft url = (anonymous root').resolve draft url := by
  have hfind : ∀ x, (anonymous x).find? url.text = none := fun _ => rfl
  simp only [resolve, hfind, hurl, document?_anonymous, hfragment, Option.getD_some]
  cases htext : Text.utf8Decode (Text.percentDecode fragment) with
  | error fault => rfl
  | ok text =>
    obtain ⟨token, tokens, htok, hstep⟩ := htokens text htext
    have hd : descend draft root (token :: tokens) = descend draft root' (token :: tokens) := by
      simp only [descend, hstep, hid]
    simp only [htok, Option.bind_some, hd]

end Corpus

-- ---------------------------------------------------------------------------
-- Local references
-- ---------------------------------------------------------------------------

def localKeys : List String := ["definitions", "$defs"]

/-- A reference into one of these members of the document that it stands in. -/
def IsLocal (reference : String) : Prop :=
  ∃ key ∈ localKeys, ("#/" ++ key ++ "/").toList <+: reference.toList

instance : DecidablePred IsLocal := fun reference =>
  inferInstanceAs (Decidable (∃ key ∈ localKeys, _ <+: reference.toList))

theorem localKeys_plain : ∀ key ∈ localKeys,
    ('/' :: key.toList ++ ['/']).all Url.IsPlain = true ∧ '/' ∉ key.toList ∧
      Step.unescape key.toList = key.toList := by
  decide

theorem IsLocal.join (h : IsLocal reference) : ∃ key ∈ localKeys, ∃ fragment,
    anonymousBase.join reference = .ok { anonymousBase with fragment := some fragment } ∧
      ∀ text, Text.utf8Decode (Text.percentDecode fragment) = .ok text →
        ∃ tokens, Json.tokens? text = some (key.toList :: tokens) := by
  obtain ⟨key, hkey, rest, hrest⟩ := h
  obtain ⟨hplain, hslash, -⟩ := localKeys_plain key hkey
  obtain rfl : "#" ++ String.ofList ('/' :: key.toList ++ ['/'] ++ rest) = reference := by
    rw [← String.toList_inj, ← hrest]
    simp
  refine ⟨key, hkey, _, Url.join_hash _, fun text hdecode => ?_⟩
  rw [Url.decode_encoded] at hdecode
  obtain ⟨rest', rfl⟩ := Url.fragment_front (List.all_eq_true.mp hplain) ⟨rest, by simp⟩ hdecode
  refine ⟨Text.splitAt '/' rest', ?_⟩
  rw [← Json.tokens?_front hslash]
  simp

namespace Evaluation

open Corpus

theorem follow_ok {corpus : Corpus} (hjoin : scope.base.join reference = .ok url) :
    follow corpus scope reference = .ok (inner, target) ↔
      ∃ base, corpus.resolve scope.draft url = .ok (base, target) ∧
        inner = ⟨base, (Schema.draft? target).getD scope.draft⟩ ∧
        firstFault (target.depth + 1) inner target = none := by
  simp only [follow, hjoin]
  constructor
  · intro h
    split at h
    · cases h
    · rename_i base found hresolve
      split at h
      · cases h
      · rename_i hfault
        obtain ⟨rfl, rfl⟩ := Prod.mk.inj (Except.ok.inj h)
        exact ⟨base, hresolve, rfl, hfault⟩
  · rintro ⟨base, hresolve, rfl, hfault⟩
    rw [hresolve]
    simp only [hfault]

theorem follow_nameless (h : Nameless root) (hlocal : IsLocal reference)
    (hbase : scope.base = anonymousBase)
    (hf : follow (anonymous root) scope reference = .ok (inner, target)) :
    inner = ⟨anonymousBase, (Schema.draft? target).getD scope.draft⟩ ∧ target ∈ root.inside := by
  obtain ⟨key, -, fragment, hjoin, htokens⟩ := hlocal.join
  rw [← hbase] at hjoin
  obtain ⟨base, hresolve, rfl, -⟩ := (follow_ok hjoin).mp hf
  obtain ⟨rfl, htarget⟩ := resolve_nameless h (by rw [hbase]; rfl) rfl
    (fun text htext => ⟨key.toList, htokens text htext⟩) hresolve
  exact ⟨rfl, htarget⟩

theorem token?_key {token : List Char} (h : Step.unescape token = token) :
    (Json.obj members).token? token = Keyed.find? members (String.ofList token) := by
  rw [Json.token?, h]

theorem follow_congr {members' : Members} (hlocal : IsLocal reference)
    (hbase : scope.base = anonymousBase)
    (hid : ∀ draft, Schema.id? draft (.obj members) = Schema.id? draft (.obj members'))
    (hsame : ∀ key ∈ localKeys, Keyed.find? members key = Keyed.find? members' key) :
    follow (anonymous (.obj members)) scope reference =
      follow (anonymous (.obj members')) scope reference := by
  obtain ⟨key, hkey, fragment, hjoin, htokens⟩ := hlocal.join
  obtain ⟨-, -, hunescape⟩ := localKeys_plain key hkey
  simp only [follow, hbase, hjoin]
  rw [resolve_congr (hid scope.draft) rfl rfl fun text htext => ?_]
  obtain ⟨tokens, htok⟩ := htokens text htext
  refine ⟨key.toList, tokens, htok, ?_⟩
  rw [token?_key hunescape, token?_key hunescape, String.ofList_toList, hsame key hkey]

end Evaluation

end EventAdmission
