import EventAdmission.DeclaredField
import EventAdmission.Proofs.Json.Pointer
import EventAdmission.Proofs.Json.Values

/-!
# What it means to be declared

The walk along a path, segment by segment and reference by reference, is path
resolution: `isDeclared_exact`. The references of a node are a relation here
(`Leads`), and a chain of them ends at a node that leads nowhere. The limit of the
walk is no part of that; `Chain.followRefs` says that it does not matter to a chain
that keeps to it.
-/

namespace EventAdmission

namespace DeclaredField

variable {root node next last last' field : Json} {hops hops' limit : Nat} {name path : String}
  {names : List String}

-- ---------------------------------------------------------------------------
-- Segments
-- ---------------------------------------------------------------------------

structure Segments (path : String) (names : List String) : Prop where
  nonempty : names ≠ []
  plain : ∀ name ∈ names, '.' ∉ name.toList
  joined : ".".intercalate names = path

theorem segments_iff :
    Segments path names ↔ Text.splitAt '.' path.toList = names.map String.toList := by
  have hdot : ".".toList = ['.'] := rfl
  constructor
  · rintro ⟨hne, hplain, rfl⟩
    rw [String.toList_intercalate, hdot]
    refine Text.splitAt_intercalate (by simpa using hne) fun part hpart => ?_
    obtain ⟨name, hname, rfl⟩ := List.mem_map.mp hpart
    exact hplain name hname
  · intro h
    refine ⟨?_, fun name hname => ?_, ?_⟩
    · rintro rfl
      exact Text.splitAt_ne_nil _ h
    · exact Text.not_mem_splitAt (h ▸ List.mem_map_of_mem hname)
    · rw [← String.toList_inj, String.toList_intercalate, hdot, ← h, Text.intercalate_splitAt]

theorem exists_segments (path : String) :
    ∃ names, ∀ others, Segments path others ↔ others = names := by
  refine ⟨(Text.splitAt '.' path.toList).map String.ofList, fun others => ?_⟩
  rw [segments_iff]
  constructor
  · intro h
    simp [h, Function.comp_def]
  · rintro rfl
    simp [Function.comp_def]

-- ---------------------------------------------------------------------------
-- Chains of references
-- ---------------------------------------------------------------------------

/-- A node refers to a place in the document, by a number sign and a pointer that leads there. -/
def Leads (root node next : Json) : Prop :=
  ∃ pointer, node.member? "$ref" = some (.str ("#" ++ pointer)) ∧ root.pointer? pointer = some next

theorem not_leads (h : node.member? "$ref" = none) : ¬ Leads root node next := by
  rintro ⟨pointer, hpointer, -⟩
  rw [h] at hpointer
  cases hpointer

/-- References followed one after the other, up to a node that leads nowhere. -/
inductive Chain (root : Json) : (hops : Nat) → Json → Json → Prop
  | stop {node : Json} : (∀ next, ¬ Leads root node next) → Chain root 0 node node
  | hop {node next last : Json} {hops : Nat} : Leads root node next → Chain root hops next last →
    Chain root (hops + 1) node last

theorem target?_of_ref {pointer : String} (h : node.member? "$ref" = some (.str ("#" ++ pointer))) :
    target? root node = root.pointer? pointer := by
  simp [target?, h, Json.str?, Json.pointer?]

theorem target?_eq_some : target? root node = some next ↔ Leads root node next := by
  constructor
  · intro h
    obtain ⟨value, hvalue, h⟩ := Option.bind_eq_some_iff.mp h
    cases value with
    | str text =>
      simp only [Json.str?, Option.bind_eq_bind, Option.bind_some] at h
      split at h
      · rename_i pointer htext
        have hpointer : text = "#" ++ String.ofList pointer := by
          rw [← String.toList_inj, htext]
          simp
        subst hpointer
        exact ⟨_, hvalue, by simpa [Json.pointer?] using h⟩
      · cases h
    | _ => cases h
  · rintro ⟨pointer, href, h⟩
    rw [target?_of_ref href, h]

theorem target?_eq_none : target? root node = none ↔ ∀ next, ¬ Leads root node next := by
  simp only [Option.eq_none_iff_forall_ne_some, Ne, target?_eq_some]

theorem target?_mem (h : target? root node = some next) : next ∈ root.values := by
  obtain ⟨pointer, -, h⟩ := target?_eq_some.mp h
  obtain ⟨tokens, -, h⟩ := Option.bind_eq_some_iff.mp h
  exact Json.follow_mem h

theorem followRefs_mem (h : node ∈ root.values) : followRefs root limit node ∈ root.values := by
  induction limit generalizing node with
  | zero => exact h
  | succ limit ih =>
    rw [followRefs]
    split
    · rename_i next hnext
      exact ih (target?_mem hnext)
    · exact h

theorem Chain.followRefs (h : Chain root hops node last) (hle : hops ≤ limit) :
    followRefs root limit node = last := by
  induction h generalizing limit with
  | stop hnone =>
    cases limit with
    | zero => rfl
    | succ limit => rw [DeclaredField.followRefs, target?_eq_none.mpr hnone]
  | hop hlead _ ih =>
    cases limit with
    | zero => simp at hle
    | succ limit =>
      rw [DeclaredField.followRefs, target?_eq_some.mpr hlead]
      exact ih (by simpa using hle)

theorem Chain.unique (h : Chain root hops node last) (h' : Chain root hops' node last') :
    last = last' := by
  have hlimit := h.followRefs (Nat.le_max_left hops hops')
  exact hlimit.symm.trans (h'.followRefs (Nat.le_max_right hops hops'))

-- ---------------------------------------------------------------------------
-- Paths
-- ---------------------------------------------------------------------------

/-- From a node the names lead to a field: each is a property at the end of the references of the
node before. -/
inductive Resolves (root : Json) : Json → List String → Json → Prop
  | here (field : Json) : Resolves root field [] field
  | property {node last next field : Json} {hops : Nat} {name : String} {names : List String} :
    Chain root hops node last → last.at? [.key "properties", .key name] = some next →
    Resolves root next names field → Resolves root node (name :: names) field

def ShortChains (root : Json) : Json → List String → Prop
  | _, [] => True
  | node, name :: names => ∃ hops last, hops ≤ hopLimit ∧ Chain root hops node last ∧
      ∀ next, last.at? [.key "properties", .key name] = some next → ShortChains root next names

theorem property?_of_chain (h : Chain root hops node last) (hle : hops ≤ hopLimit) :
    property? root node name = last.at? [.key "properties", .key name] := by
  rw [property?, h.followRefs hle, at?_key]
  simp [at?_key, at?_nil]

theorem property?_mem (h : node ∈ root.values) (hnext : property? root node name = some next) :
    next ∈ root.values := by
  obtain ⟨properties, hproperties, hnext⟩ := Option.bind_eq_some_iff.mp hnext
  have hbelow := Json.mem_inside_trans (Json.inside_member? hproperties)
    (Json.mem_values.mpr (.inr (Json.inside_member? hnext)))
  exact Json.mem_values_trans (followRefs_mem h) (Json.mem_values.mpr (.inr hbelow))

theorem resolves_iff (h : ShortChains root node names) :
    resolves root node (names.map String.toList) = true ↔
      ∃ field, Resolves root node names field := by
  induction names generalizing node with
  | nil => exact ⟨fun _ => ⟨node, .here node⟩, fun _ => rfl⟩
  | cons name names ih =>
    obtain ⟨hops, last, hle, hchain, hnext⟩ := h
    rw [List.map_cons, resolves, String.ofList_toList, property?_of_chain hchain hle]
    constructor
    · intro hr
      split at hr
      · rename_i next hproperty
        obtain ⟨field, hfield⟩ := (ih (hnext next hproperty)).mp hr
        exact ⟨field, .property hchain hproperty hfield⟩
      · cases hr
    · rintro ⟨field, hfield⟩
      cases hfield with
      | property hchain' hproperty hrest =>
        rw [← hchain.unique hchain'] at hproperty
        rw [hproperty]
        exact (ih (hnext _ hproperty)).mpr ⟨field, hrest⟩

-- ---------------------------------------------------------------------------
-- Declared fields
-- ---------------------------------------------------------------------------

theorem resolves_front {front back : List (List Char)}
    (h : resolves root node (front ++ back) = true) : resolves root node front = true := by
  induction front generalizing node with
  | nil => rfl
  | cons name front ih =>
    simp only [List.cons_append, resolves] at h ⊢
    split
    · rename_i next hproperty
      rw [hproperty] at h
      exact ih h
    · rename_i hproperty
      rw [hproperty] at h
      cases h

theorem isDeclared_eq (h : path ≠ "") :
    isDeclared root path = resolves root root (Text.splitAt '.' path.toList) := by
  rw [isDeclared]
  split
  · rename_i hnil
    exact absurd (String.toList_eq_nil_iff.mp hnil) h
  · rfl

theorem isDeclared_segments (h : Segments path names) (hpath : path ≠ "") :
    isDeclared root path = resolves root root (names.map String.toList) := by
  rw [isDeclared_eq hpath, segments_iff.mp h]

theorem isDeclared_front {front back : String} (hfront : front ≠ "")
    (h : isDeclared root (front ++ "." ++ back) = true) : isDeclared root front = true := by
  have hcut : (front ++ "." ++ back).toList = front.toList ++ '.' :: back.toList := by simp
  have hpath : front ++ "." ++ back ≠ "" := by simp [hfront]
  rw [isDeclared_eq hpath, hcut, Text.splitAt_append] at h
  rw [isDeclared_eq hfront]
  exact resolves_front h

/-- A field is declared if and only if its path resolves. The fields above it are declared too. -/
theorem isDeclared_exact (root : Json) (path : String) (hpath : path ≠ "") :
    ∃ names, (∀ others, Segments path others ↔ others = names) ∧
      (ShortChains root root names →
        (isDeclared root path = true ↔ ∃ field, Resolves root root names field)) ∧
      (∀ front back, front ≠ "" → path = front ++ "." ++ back →
        isDeclared root path = true → isDeclared root front = true) ∧
      isDeclared root "" = false := by
  obtain ⟨names, hnames⟩ := exists_segments path
  have hsegments : Segments path names := (hnames names).mpr rfl
  refine ⟨names, hnames, fun hshort => ?_, fun front back hfront heq h => ?_, rfl⟩
  · rw [isDeclared_segments hsegments hpath]
    exact resolves_iff hshort
  · subst heq
    exact isDeclared_front hfront h

def customer : Json := .obj [("$ref", .str "#/definitions/user")]

def user : Json := .obj [("$ref", .str "#/definitions/person")]

def person : Json :=
  .obj [("properties", .obj [("", .obj [("properties", .obj [("id", .obj [])])])])]

def orderFields : Json :=
  .obj [("definitions", .obj [("person", person), ("user", user)]),
    ("properties", .obj [("customer", customer)])]

theorem orderFields_chain : Chain orderFields 2 customer person :=
  .hop (target?_eq_some.mp rfl) (.hop (target?_eq_some.mp rfl) (.stop (target?_eq_none.mp rfl)))

theorem orderFields_short : ShortChains orderFields orderFields ["customer", "", "id"] := by
  refine ⟨0, _, by decide, .stop (target?_eq_none.mp rfl), fun next h => ?_⟩
  obtain rfl := Option.some.inj h
  refine ⟨2, _, by decide, orderFields_chain, fun next h => ?_⟩
  obtain rfl := Option.some.inj h
  refine ⟨0, _, by decide, .stop (target?_eq_none.mp rfl), fun next h => ?_⟩
  exact trivial

theorem orderFields_exact : Segments "customer..id" ["customer", "", "id"] ∧
    (∃ field, Resolves orderFields orderFields ["customer", "", "id"] field) ∧
      isDeclared orderFields "customer." = true := by
  have hdeclared : isDeclared orderFields "customer..id" = true := rfl
  obtain ⟨names, hnames, hiff, hfront, -⟩ :=
    isDeclared_exact orderFields "customer..id" (by decide)
  have hsegments : Segments "customer..id" ["customer", "", "id"] := segments_iff.mpr rfl
  obtain rfl := (hnames _).mp hsegments
  exact ⟨hsegments, (hiff orderFields_short).mp hdeclared,
    hfront "customer." "id" (by decide) (by decide) hdeclared⟩

end DeclaredField

end EventAdmission
