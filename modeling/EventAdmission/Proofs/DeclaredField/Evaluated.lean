import EventAdmission.Proofs.DeclaredField
import EventAdmission.Proofs.Schema.Keywords
import EventAdmission.Proofs.Schema.References
import EventAdmission.Strategy.Validator

/-!
# Declared fields and evaluation

References are resolved twice: on the way to a declared field the fragment is a
pointer as it is written, in evaluation it is the fragment of a URL, tidied and
decoded. Both lead to the same place in every document if and only if the two
texts name the same keys (`ReadAsWritten`). Fragments with nothing to tidy or to
decode are of that kind. What evaluation gets to (`Reached`) is what a value that
passes has to pass (`Reached.passes`). Where all references are read as they are
written, every field of that kind is declared: `evaluated_declared`.
-/

namespace EventAdmission.DeclaredField

open Corpus Evaluation

variable {corpus : Corpus} {scope inner innermost : Scope} {draft : Draft} {base found url : Url}
  {root x node target last field : Json} {fragment reference path name : String}
  {names : List String} {text : List Char} {tokens others keys : List (List Char)}
  {hops steps : Nat} {value : Json} {place : Path}

-- ---------------------------------------------------------------------------
-- Keys
-- ---------------------------------------------------------------------------

def pointerKeys (pointer : List Char) : Option (List (List Char)) :=
  (Json.tokens? pointer).map (·.map Step.unescape)

theorem follow_keys (h : tokens.map Step.unescape = others.map Step.unescape) :
    x.follow tokens = x.follow others := by
  induction tokens generalizing x others with
  | nil =>
    cases others with
    | nil => rfl
    | cons other others => cases h
  | cons token tokens ih =>
    cases others with
    | nil => cases h
    | cons other others =>
      obtain ⟨hkey, hrest⟩ := List.cons.inj h
      have hstep : x.token? token = x.token? other := by simp only [Json.token?, hkey]
      simp only [Json.follow, hstep, ih hrest]

theorem pointer?_keys (h : pointerKeys text = some keys)
    (hf : pointerKeys fragment.toList = some keys) :
    root.pointer? (String.ofList text) = root.pointer? fragment := by
  obtain ⟨tokens, htokens, rfl⟩ := Option.map_eq_some_iff.mp h
  obtain ⟨others, hothers, hsame⟩ := Option.map_eq_some_iff.mp hf
  simp only [Json.pointer?, String.toList_ofList, htokens, hothers, Option.bind_eq_bind,
    Option.bind_some]
  exact follow_keys hsame.symm

def nested : List (List Char) → Json
  | [] => .obj []
  | key :: keys => .obj [(String.ofList key, nested keys)]

theorem nested_follow :
    (nested keys).follow tokens = some (.obj []) ↔ tokens.map Step.unescape = keys := by
  induction tokens generalizing keys with
  | nil => cases keys <;> simp [nested, Json.follow]
  | cons token tokens ih =>
    cases keys with
    | nil => simp [nested, Json.follow, Json.token?]
    | cons key keys =>
      by_cases hkey : key = Step.unescape token
      · simp [nested, Json.follow, Json.token?, Keyed.find?_cons, hkey, ih]
      · have hne : String.ofList key ≠ String.ofList (Step.unescape token) := fun heq =>
          hkey (by simpa using congrArg String.toList heq)
        simp [nested, Json.follow, Json.token?, Keyed.find?_cons, hne, Ne.symm hkey]

theorem nested_nameless : Schema.NamelessIn draft (nested keys) := by
  have hid : ∀ keys, Schema.id? draft (nested keys) = none := by
    intro keys
    cases keys with
    | nil => rfl
    | cons key keys =>
      simp only [Schema.id?, nested, Json.member?, Keyed.find?_cons]
      split
      · cases keys <;> rfl
      · rfl
  induction keys with
  | nil =>
    intro y hy
    obtain rfl := List.mem_singleton.mp hy
    exact hid []
  | cons key keys ih =>
    intro y hy
    rcases Json.mem_values.mp hy with rfl | hy
    · exact hid (key :: keys)
    · obtain ⟨e, he, hy⟩ := Json.mem_inside_obj.mp hy
      obtain rfl := List.mem_singleton.mp he
      exact ih y hy

-- ---------------------------------------------------------------------------
-- One reference
-- ---------------------------------------------------------------------------

def refersTo (fragment : String) : Json := .obj [("$ref", .str ("#" ++ fragment))]

def ResolvesTo (draft : Draft) (root : Json) (reference : String) (target : Json) : Prop :=
  ∃ scope corpus url base, ofSchema draft root = .ok (scope, corpus) ∧
    scope.base.join reference = .ok url ∧ corpus.resolve scope.draft url = .ok (base, target)

/-- The text that a fragment stands for names the keys that the fragment itself names. -/
def ReadAsWritten (fragment : String) : Prop :=
  ∀ text keys, Url.fragmentText fragment = .ok text → pointerKeys text = some keys →
    pointerKeys fragment.toList = some keys

theorem readAsWritten_verbatim (h : Url.Verbatim fragment.toList) : ReadAsWritten fragment := by
  intro text keys htext hkeys
  obtain rfl := Except.ok.inj (h.fragmentText.symm.trans htext)
  exact hkeys

theorem ReadAsWritten.pointer? (h : ReadAsWritten fragment)
    (htext : Url.fragmentText fragment = .ok text)
    (hp : root.pointer? (String.ofList text) = some target) :
    root.pointer? fragment = some target := by
  obtain ⟨tokens, htokens, -⟩ := Option.bind_eq_some_iff.mp hp
  rw [String.toList_ofList] at htokens
  have hkeys : pointerKeys text = some (tokens.map Step.unescape) := by
    rw [pointerKeys, htokens]
    rfl
  rwa [pointer?_keys hkeys (h text _ htext hkeys)] at hp

theorem pointer?_of_resolve (hbase : base.withoutFragment = anonymousBase)
    (hjoin : base.join ("#" ++ fragment) = .ok url)
    (hr : (anonymous root).resolve draft url = .ok (found, target)) :
    ∃ text, Url.fragmentText fragment = .ok text ∧
      root.pointer? (String.ofList text) = some target := by
  rw [Url.join_hash, Except.ok.injEq] at hjoin
  have hurl : url.withoutFragment = anonymousBase := by
    rw [← hjoin, ← hbase]
    rfl
  have hfragment : url.fragment = some _ := congrArg Url.fragment hjoin.symm
  obtain ⟨text, tokens, ids, htext, htokens, hd, -⟩ := (resolve_ok hurl hfragment).mp hr
  rw [Url.decode_encoded] at htext
  refine ⟨text, htext, ?_⟩
  rw [Json.pointer?, String.toList_ofList, htokens]
  exact descend_iff.mp ⟨ids, hd⟩

theorem resolvesTo_iff (hn : Schema.NamelessIn draft root) :
    ResolvesTo draft root ("#" ++ fragment) target ↔
      ∃ text, Url.fragmentText fragment = .ok text ∧
        root.pointer? (String.ofList text) = some target := by
  constructor
  · rintro ⟨scope, corpus, url, base, hschema, hjoin, hr⟩
    obtain ⟨rfl, rfl⟩ := Prod.mk.inj (Except.ok.inj ((ofSchema_within hn).symm.trans hschema))
    exact pointer?_of_resolve rfl hjoin hr
  · rintro ⟨text, htext, hp⟩
    obtain ⟨tokens, htokens, hfollow⟩ := Option.bind_eq_some_iff.mp hp
    rw [String.toList_ofList] at htokens
    obtain ⟨ids, hd⟩ := descend_iff.mpr hfollow
    obtain rfl := descend_within hn hd
    refine ⟨_, _, _, anonymousBase, ofSchema_within hn, Url.join_hash fragment, ?_⟩
    rw [← Url.decode_encoded] at htext
    exact (resolve_ok rfl rfl).mpr ⟨text, tokens, [], htext, htokens, hd, rfl⟩

theorem readAsWritten_iff : ReadAsWritten fragment ↔
    ∀ draft root target, Schema.NamelessIn draft root →
      ResolvesTo draft root ("#" ++ fragment) target →
      target? root (refersTo fragment) = some target := by
  have href : (refersTo fragment).member? "$ref" = some (.str ("#" ++ fragment)) := rfl
  constructor
  · intro h draft root target hn hr
    obtain ⟨text, htext, hp⟩ := (resolvesTo_iff hn).mp hr
    rw [target?_of_ref href]
    exact h.pointer? htext hp
  · intro h text keys htext hkeys
    obtain ⟨tokens, htokens, hsame⟩ := Option.map_eq_some_iff.mp hkeys
    -- A document in which only these keys lead to the end tells the two readings apart.
    have hp : (nested keys).pointer? (String.ofList text) = some (.obj []) := by
      rw [Json.pointer?, String.toList_ofList, htokens]
      exact nested_follow.mpr hsame
    have htarget := h .draft7 (nested keys) (.obj []) nested_nameless
      ((resolvesTo_iff nested_nameless).mpr ⟨text, htext, hp⟩)
    rw [target?_of_ref href] at htarget
    obtain ⟨others, hothers, hfollow⟩ := Option.bind_eq_some_iff.mp htarget
    rw [pointerKeys, hothers, Option.map_some, nested_follow.mp hfollow]

-- ---------------------------------------------------------------------------
-- Fields
-- ---------------------------------------------------------------------------

/-- Evaluation goes from reference to reference in the document, up to a node without one. -/
inductive Followed (corpus : Corpus) : (hops : Nat) → Scope → Json → Scope → Json → Prop
  | stop {scope : Scope} {node : Json} : node.member? "$ref" = none →
    Followed corpus 0 scope node (scope.inside node) node
  | hop {scope inner innermost : Scope} {node target last : Json} {fragment : String} {hops : Nat} :
    node.member? "$ref" = some (.str ("#" ++ fragment)) →
    -- An identifier that moves the base makes this a reference to another document.
    (scope.inside node).base.withoutFragment = anonymousBase →
    follow corpus (scope.inside node) ("#" ++ fragment) = .ok (inner, target) →
    Followed corpus hops inner target innermost last →
    Followed corpus (hops + 1) scope node innermost last

/-- Evaluation of a value gets from a node to the schema of a field in it, with no more references
in a row than the limit. -/
inductive Reached (corpus : Corpus) : Scope → Json → List String → Json → Prop
  | here {scope : Scope} (field : Json) : Reached corpus scope field [] field
  | property {scope inner : Scope} {node last next field : Json} {hops : Nat} {name : String}
    {names : List String} : Followed corpus hops scope node inner last → hops ≤ hopLimit →
    last.at? [.key "properties", .key name] = some next →
    Reached corpus inner next names field → Reached corpus scope node (name :: names) field

theorem Followed.passes (h : Followed corpus hops scope node innermost last)
    (hc : Compiles scope node) (hp : Passes corpus steps scope node value place) :
    ∃ outer steps', innermost = outer.inside last ∧ last.member? "$ref" = none ∧
      Compiles outer last ∧ Passes corpus steps' outer last value place := by
  induction h generalizing steps with
  | stop hnone => exact ⟨_, steps, rfl, hnone, hc, hp⟩
  | @hop scope inner innermost node target last fragment hops href hbase hfollow _ ih =>
    obtain ⟨base, -, rfl, hfault⟩ := (follow_ok (Url.join_hash _)).mp hfollow
    obtain ⟨steps, rfl⟩ := hp.steps_pos
    cases node with
    | obj members =>
      rw [Passes, faultsWithin, schemaFaults_ref href, hfollow] at hp
      exact ih (compiles_of_firstFault (Nat.le_succ _) hfault) hp
    | _ => cases href

/-- If evaluation gets to a field, then what a value that passes has there passes the schema of the
field. -/
theorem Reached.passes (h : Reached corpus scope node names field) (hc : Compiles scope node)
    (hp : Passes corpus steps scope node x place) (hx : x.at? (names.map .key) = some value) :
    ∃ inner steps', Passes corpus steps' inner field value (place ++ names.map .key) := by
  induction h generalizing steps x place with
  | @here scope field =>
    obtain rfl := Option.some.inj hx
    exact ⟨scope, steps, by rwa [List.map_nil, List.append_nil]⟩
  | @property _ _ _ last next _ _ name names hfollowed _ hnext _ ih =>
    obtain ⟨outer, steps', rfl, href, hc, hp⟩ := hfollowed.passes hc hp
    obtain ⟨steps', rfl⟩ := hp.steps_pos
    simp only [List.map_cons, at?_key, at?_nil, Option.bind_eq_some_iff] at hx hnext
    obtain ⟨inside, hinside, hx⟩ := hx
    obtain ⟨properties, hproperties, _, hfield, hself⟩ := hnext
    obtain rfl := Option.some.inj hself
    cases last with
    | obj members =>
      cases properties with
      | obj entries =>
        cases x with
        | obj event =>
          have hbelow := hp.property hc href hproperties hfield hinside
          have hinner := ih (hc.property href hproperties hfield) hbelow hx
          rwa [List.append_assoc, List.singleton_append] at hinner
        | _ => cases hinside
      | _ => cases hfield
    | _ => cases hproperties

def AllAsWritten (root : Json) : Prop :=
  ∀ y ∈ root.values, ∀ reference ∈ (y.member? "$ref").bind Json.str?,
    ∀ fragment, reference = "#" ++ fragment → ReadAsWritten fragment

theorem Followed.chain (h : Followed (anonymous root) hops scope node innermost last)
    (hw : AllAsWritten root) (hnode : node ∈ root.values) : Chain root hops node last := by
  induction h with
  | stop hnone => exact .stop fun _ => not_leads hnone
  | hop href hbase hfollow _ ih =>
    obtain ⟨base, hresolve, -, -⟩ := (follow_ok (Url.join_hash _)).mp hfollow
    obtain ⟨text, htext, hp⟩ := pointer?_of_resolve hbase (Url.join_hash _) hresolve
    have hread := hw _ hnode _ (by rw [href]; rfl) _ rfl
    have hlead : Leads root _ _ := ⟨_, href, hread.pointer? htext hp⟩
    exact .hop hlead (ih (target?_mem (target?_eq_some.mpr hlead)))

theorem Reached.declared (h : Reached (anonymous root) scope node names field)
    (hw : AllAsWritten root) (hnode : node ∈ root.values) :
    Resolves root node names field ∧ resolves root node (names.map String.toList) = true := by
  induction h with
  | here field => exact ⟨.here field, rfl⟩
  | @property _ _ node last next _ _ name _ hfollowed hle hnext _ ih =>
    have hchain := hfollowed.chain hw hnode
    have hproperty : property? root node name = some next :=
      (property?_of_chain hchain hle).trans hnext
    obtain ⟨hresolves, hdeclared⟩ := ih (property?_mem hnode hproperty)
    refine ⟨.property hchain hnext hresolves, ?_⟩
    rw [List.map_cons, resolves, String.ofList_toList, hproperty]
    exact hdeclared

/-- A fragment is read alike in all schemas if and only if it is read as written. Where the
references of a schema are, no field that evaluation gets to is reported as missing. -/
theorem evaluated_declared (draft : Draft) :
    (∀ fragment, ReadAsWritten fragment ↔
      ∀ draft root target, Schema.NamelessIn draft root →
        ResolvesTo draft root ("#" ++ fragment) target →
        target? root (refersTo fragment) = some target) ∧
    (∀ fragment, Url.Verbatim fragment.toList → ReadAsWritten fragment) ∧
    ∀ t scope corpus path names field, Schema.NamelessIn draft t.schema → AllAsWritten t.schema →
      ofSchema draft t.schema = .ok (scope, corpus) → path ≠ "" → Segments path names →
      Reached corpus scope t.schema names field →
      Resolves t.schema t.schema names field ∧ isDeclared t.schema path = true ∧
        Strategy.missingField? t ≠ some path := by
  refine ⟨fun _ => readAsWritten_iff, fun _ => readAsWritten_verbatim, ?_⟩
  intro t scope corpus path names field hn hw hschema hpath hsegments hreached
  obtain ⟨rfl, rfl⟩ := Prod.mk.inj (Except.ok.inj ((ofSchema_within hn).symm.trans hschema))
  obtain ⟨hresolves, hdeclared⟩ := hreached.declared hw Json.mem_values_self
  rw [← isDeclared_segments hsegments hpath] at hdeclared
  refine ⟨hresolves, hdeclared, fun hmissing => ?_⟩
  have hnot := List.find?_some hmissing
  simp [hdeclared] at hnot

def item : Json := .obj [("properties", .obj [("id", .obj [])])]

def itemsUnder (key fragment : String) : Json :=
  .obj [("definitions", .obj [(key, item)]), ("properties", .obj [("item", refersTo fragment)])]

theorem itemsUnder_reached {key : String}
    (h : follow (anonymous (itemsUnder key fragment)) ⟨anonymousBase, .draft7⟩ ("#" ++ fragment) =
      .ok (⟨anonymousBase, .draft7⟩, item)) :
    Reached (anonymous (itemsUnder key fragment)) ⟨anonymousBase, .draft7⟩
      (itemsUnder key fragment) ["item", "id"] (.obj []) := by
  refine .property (.stop rfl) (by decide) rfl ?_
  exact .property (.hop rfl rfl h (.stop rfl)) (by decide) rfl (.here _)

def orderItems : EventType where
  name := "order"
  category := .undefined
  schema := itemsUnder "line/item" "/definitions/line~1item"
  significantFields := ["item.id"]

theorem orderItems_asWritten : AllAsWritten orderItems.schema := by
  have hall : ∀ y ∈ orderItems.schema.values, ∀ reference ∈ (y.member? "$ref").bind Json.str?,
      reference.toList = "#/definitions/line~1item".toList := by decide
  intro y hy reference href fragment heq
  have htext : fragment.toList = "/definitions/line~1item".toList := by
    have hsame := hall y hy reference href
    rw [heq] at hsame
    simpa using hsame
  refine readAsWritten_verbatim ?_
  rw [htext]
  exact ⟨Text.unescaped_of_not_mem (by decide), by simp [Url.isBreak], by simp [Url.isBlank]⟩

theorem orderItems_evaluated :
    Resolves orderItems.schema orderItems.schema ["item", "id"] (.obj []) ∧
      isDeclared orderItems.schema "item.id" = true ∧
      Strategy.missingField? orderItems ≠ some "item.id" := by
  obtain ⟨-, -, hfields⟩ := evaluated_declared .draft7
  have hn : Schema.NamelessIn .draft7 orderItems.schema := by
    unfold Schema.NamelessIn
    decide
  exact hfields orderItems _ _ "item.id" ["item", "id"] _ hn orderItems_asWritten
    (ofSchema_within hn) (by decide) (segments_iff.mpr rfl) (itemsUnder_reached rfl)

/-- With an escape of URLs in the fragment, evaluation gets to the field and the walk does not. -/
theorem escapedItems_undeclared :
    Reached (anonymous (itemsUnder "line item" "/definitions/line%20item"))
      ⟨anonymousBase, .draft7⟩ (itemsUnder "line item" "/definitions/line%20item") ["item", "id"]
      (.obj []) ∧
    isDeclared (itemsUnder "line item" "/definitions/line%20item") "item.id" = false ∧
    ¬ ReadAsWritten "/definitions/line%20item" := by
  refine ⟨itemsUnder_reached rfl, rfl, fun h => ?_⟩
  have hkeys := h _ _ rfl rfl
  exact absurd hkeys (by decide)

end EventAdmission.DeclaredField
