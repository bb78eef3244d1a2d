import EventAdmission.Proofs.Schema.Published

/-!
# What a published schema asks of a schema

A schema passes the published one of its draft if the value of each keyword
does by itself (`passes_ofDraft`). So a schema that is put together from members
that are allowed, and from schemas that are admitted, is admitted: where it
stands does not matter, and more steps do no harm.
-/

namespace EventAdmission

open Schema Evaluation MetaSchema

variable {draft : Draft} {fragment : Option (List Char)}

-- ---------------------------------------------------------------------------
-- Keywords
-- ---------------------------------------------------------------------------

def publishedKeywords (draft : Draft) : Members :=
  (((ofDraft draft).member? "properties").bind Json.obj?).getD []

def exclusiveKeywords : List (String × String) :=
  [("exclusiveMaximum", "maximum"), ("exclusiveMinimum", "minimum")]

/-- In draft 4 a limit can only be exclusive if there is one. -/
def Limited (draft : Draft) (members : Members) : Prop :=
  draft = .draft4 → ∀ e ∈ exclusiveKeywords,
    Keyed.contains members e.1 = true → Keyed.contains members e.2 = true

variable {corpus : Corpus} {scope : Scope} {members siblings entries : Members} {path above : Path}
  {steps steps' : Nat} {x s v : Json} {key : String}

theorem memberFaults_silent {sub : Evaluator} {goal : Goal} {e : String × Json}
    (h : Rule.ofMember scope.draft siblings e.1 e.2 = .ok none) :
    memberFaults sub goal scope siblings x path e = some [] := by
  rw [memberFaults, h]

theorem memberFaults_limits {sub : Evaluator} {goal : Goal} :
    memberFaults sub goal scope siblings (.obj members) path ("dependencies", .obj
        [("exclusiveMaximum", .arr [.str "maximum"]),
          ("exclusiveMinimum", .arr [.str "minimum"])]) = some [] ↔
      Limited .draft4 members := by
  have hrule : Rule.ofMember scope.draft siblings "dependencies" (.obj
        [("exclusiveMaximum", .arr [.str "maximum"]), ("exclusiveMinimum", .arr [.str "minimum"])]) =
      .ok (some (.dependencies [("exclusiveMaximum", .arr [.str "maximum"]),
        ("exclusiveMinimum", .arr [.str "minimum"])])) := rfl
  have hnames : ∀ name, [Json.str name].filterMap Json.str? = [name] := fun _ => rfl
  rw [memberFaults, hrule]
  simp only [ruleFaults, inOrder_eq_nil, List.mem_filter, and_imp, List.forall_mem_cons, hnames,
    Option.some.injEq, missingKeys_eq_nil, List.not_mem_nil, false_implies, implies_true, and_true,
    Limited, exclusiveKeywords, true_implies, Keyed.contains_iff]

theorem passes_ofDraft : Passes corpus (steps + 1) scope (ofDraft draft) (.obj members) path ↔
    (∀ e ∈ publishedKeywords draft, ∀ v, Keyed.find? members e.1 = some v →
      Passes corpus steps (scope.inside (ofDraft draft)) e.2 v (path ++ [.key e.1])) ∧
      Limited draft members := by
  cases draft with
  | draft4 =>
    rw [ofDraft, draft4, passes_obj rfl]
    simp only [List.forall_mem_cons]
    constructor
    · rintro ⟨-, -, -, hlimits, -, -, hproperties, -⟩
      exact ⟨(memberFaults_properties rfl).mp hproperties, memberFaults_limits.mp hlimits⟩
    · rintro ⟨h, hlimits⟩
      exact ⟨memberFaults_silent rfl, memberFaults_silent rfl, memberFaults_silent rfl,
        memberFaults_limits.mpr hlimits, memberFaults_silent rfl, memberFaults_silent rfl,
        (memberFaults_properties rfl).mpr h, rfl, nofun⟩
  | draft6 =>
    rw [ofDraft, draft6, passes_obj rfl]
    simp only [List.forall_mem_cons]
    constructor
    · rintro ⟨-, -, -, -, hproperties, -⟩
      exact ⟨(memberFaults_properties rfl).mp hproperties, nofun⟩
    · rintro ⟨h, -⟩
      exact ⟨memberFaults_silent rfl, memberFaults_silent rfl, memberFaults_silent rfl,
        memberFaults_silent rfl, (memberFaults_properties rfl).mpr h, memberFaults_silent rfl, rfl,
        nofun⟩
  | draft7 =>
    rw [ofDraft, draft7, passes_obj rfl]
    simp only [List.forall_mem_cons]
    constructor
    · rintro ⟨-, -, -, -, hproperties, -⟩
      exact ⟨(memberFaults_properties rfl).mp hproperties, nofun⟩
    · rintro ⟨h, -⟩
      exact ⟨memberFaults_silent rfl, memberFaults_silent rfl, memberFaults_silent rfl,
        memberFaults_silent rfl, (memberFaults_properties rfl).mpr h, memberFaults_silent rfl, rfl,
        nofun⟩

theorem passes_published (hf : fragment ∈ fragments) :
    Passes (published draft) (steps + 1) (publishedScope draft fragment) (ofDraft draft)
        (.obj members) path ↔
      (∀ e ∈ publishedKeywords draft, ∀ v, Keyed.find? members e.1 = some v →
        Passes (published draft) steps (publishedScope draft (some [])) e.2 v
          (path ++ [.key e.1])) ∧ Limited draft members := by
  rw [passes_ofDraft, inside_ofDraft hf]

theorem publishedFault_told {found : Option (List Fault)}
    (h : faultsWithin (published draft) (enoughSteps (published draft) x) .faults
      (publishedScope draft (some [])) (ofDraft draft) x [] = found) :
    (publishedFault draft x = .ok () ↔ found = some []) ∧
      (publishedFault draft x = .error .unfinished ↔ found = none) := by
  have hfaults : Evaluation.faults (published draft) (publishedScope draft (some [])) x = found := h
  rw [publishedFault, ofSchema_ofDraft]
  -- Under another name, lest the kernel computes how many steps are enough.
  obtain ⟨evaluation, heq⟩ : ∃ evaluation, Evaluation.faults = evaluation := ⟨_, rfl⟩
  rw [heq] at hfaults ⊢
  dsimp only
  rw [hfaults]
  rcases found with _ | (_ | ⟨first, others⟩) <;> simp

theorem publishedFault_ok : publishedFault draft x = .ok () ↔
    Passes (published draft) (enoughSteps (published draft) x) (publishedScope draft (some []))
      (ofDraft draft) x [] :=
  (publishedFault_told rfl).1

-- ---------------------------------------------------------------------------
-- Admitted schemas
-- ---------------------------------------------------------------------------

/-- More steps and another place do not matter. -/
theorem passes_elsewhere (hf : fragment ∈ fragments) (hs : s ∈ (ofDraft draft).values)
    (hle : steps ≤ steps')
    (above : Path) (h : Passes (published draft) steps (publishedScope draft fragment) s x path) :
    Passes (published draft) steps' (publishedScope draft fragment) s x (above ++ path) :=
  ((closed_published draft).answers hle ⟨⟨fragment, hf, rfl⟩, hs⟩).here _ h

def Allowed (draft : Draft) (steps : Nat) (key : String) (v : Json) : Prop :=
  ∀ e ∈ publishedKeywords draft, e.1 = key → ∀ path,
    Passes (published draft) steps (publishedScope draft (some [])) e.2 v (path ++ [.key key])

def Admitted (draft : Draft) (steps : Nat) (x : Json) : Prop :=
  ∀ fragment ∈ fragments, ∀ path,
    Passes (published draft) steps (publishedScope draft fragment) (ofDraft draft) x path

theorem publishedKeywords_inside {e : String × Json} (he : e ∈ publishedKeywords draft) :
    e.2 ∈ (ofDraft draft).values :=
  Json.mem_values.mpr (.inr (Json.inside_entries he))

theorem Allowed.mono (hle : steps ≤ steps') (h : Allowed draft steps key v) :
    Allowed draft steps' key v := fun e he hkey path =>
  passes_elsewhere (by decide) (publishedKeywords_inside he) hle [] (h e he hkey path)

theorem Admitted.mono (hle : steps ≤ steps') (h : Admitted draft steps x) :
    Admitted draft steps' x := fun fragment hf path =>
  passes_elsewhere hf Json.mem_values_self hle [] (h fragment hf path)

theorem admitted_obj : Admitted draft (steps + 1) (.obj members) ↔
    (∀ key v, Keyed.find? members key = some v → Allowed draft steps key v) ∧
      Limited draft members := by
  constructor
  · intro h
    have hpasses := fun path => (passes_published (by decide)).mp (h none (by decide) path)
    refine ⟨fun key v hv e he hkey path => ?_, (hpasses []).2⟩
    subst hkey
    exact (hpasses path).1 e he v hv
  · rintro ⟨hallowed, hlimited⟩ fragment hf path
    exact (passes_published hf).mpr
      ⟨fun e he v hv => hallowed e.1 v hv e he rfl path, hlimited⟩

theorem admitted_of_members
    (hlimits : ∀ e ∈ members, ∀ exclusive ∈ exclusiveKeywords, e.1 ≠ exclusive.1)
    (h : ∀ e ∈ members, Allowed draft steps e.1 e.2) :
    Admitted draft (steps + 1) (.obj members) := by
  refine admitted_obj.mpr ⟨fun key v hv => h _ (Keyed.mem_of_find? hv), fun _ e he hc => ?_⟩
  obtain ⟨v, hv⟩ := Keyed.contains_iff.mp hc
  exact absurd rfl (hlimits _ (Keyed.mem_of_find? hv) e he)

theorem admitted_nil : Admitted draft 1 (.obj []) :=
  admitted_of_members (List.forall_mem_nil _) (List.forall_mem_nil _)

/-- A schema that asks for nothing compiles. -/
theorem compile_nil : Schema.compile draft (.obj []) =
    .ok ⟨⟨anonymousBase, draft⟩, Corpus.anonymous (.obj [])⟩ := by
  have henough := enoughSteps_pos (published draft) (.obj [])
  have hpublished : publishedFault draft (.obj []) = .ok () :=
    publishedFault_ok.mpr (admitted_nil.mono (by omega) _ (by decide) [])
  have hcompiles : Compiles ⟨anonymousBase, draft⟩ (.obj []) := compiles_of_firstFault (by decide)
    (rfl : firstFault 1 _ _ = none)
  exact (compile_nameless (nameless_of_drafts (by decide))).mpr ⟨hpublished, hcompiles, rfl⟩

theorem admitted_of_passes (h : Passes (published draft) steps (publishedScope draft (some []))
    (ofDraft draft) (.obj members) []) : Admitted draft steps (.obj members) := by
  cases steps with
  | zero => cases h
  | succ steps =>
    obtain ⟨hkeywords, hlimited⟩ := (passes_published (by decide)).mp h
    refine admitted_obj.mpr ⟨fun key v hv e he hkey path => ?_, hlimited⟩
    subst hkey
    exact passes_elsewhere (by decide) (publishedKeywords_inside he) (Nat.le_refl _) path
      (hkeywords e he v hv)

theorem root_published : "#" ∈ publishedReferences draft := List.mem_cons_self ..

theorem passes_itself (h : Admitted draft steps x) (hf : fragment ∈ fragments) :
    Passes (published draft) (steps + 1) (publishedScope draft fragment)
      (.obj [("$ref", .str "#")]) x path := by
  have hid : (publishedScope draft fragment).inside (.obj [("$ref", .str "#")]) =
      publishedScope draft fragment := Scope.inside_of_no_id (by cases draft <;> rfl)
  obtain ⟨target, -, hfollow, htarget⟩ := follow_published hf root_published
  rw [Passes, faultsWithin, schemaFaults_ref rfl, hid, hfollow, htarget rfl]
  exact h none (by decide) path

def schemasByName : Json :=
  .obj [("additionalProperties", .obj [("$ref", .str "#")]), ("default", .obj []),
    ("type", .str "object")]

theorem properties_published : ∀ draft ∈ Draft.all, ∀ e ∈ publishedKeywords draft,
    e.1 = "properties" → e.2 = schemasByName := by
  decide

theorem allowed_properties (h : ∀ e ∈ entries, Admitted draft steps e.2) :
    Allowed draft (steps + 2) "properties" (.obj entries) := by
  intro e he hkey path
  have htype : ("type", Json.str "object") = ("type", .str Kind.object.name) := rfl
  rw [properties_published draft Draft.mem_all e he hkey, schemasByName, passes_obj rfl,
    Scope.inside_of_no_id (by cases draft <;> rfl), htype]
  simp only [List.forall_mem_cons, List.not_mem_nil, false_implies, implies_true, and_true]
  refine ⟨?_, memberFaults_silent rfl, (memberFaults_type .object).mpr rfl⟩
  rw [memberFaults_additionalProperties rfl, closedFaults_checked]
  intro e he s hs
  obtain rfl := List.mem_singleton.mp hs
  exact passes_itself (h e he) (by decide)

theorem enum_published : ∀ draft ∈ Draft.all, ∀ e ∈ publishedKeywords draft, e.1 = "enum" →
    e.2 = .obj [("type", .str "array")] ∨
      e.2 = .obj [("items", .bool true), ("type", .str "array")] := by
  decide

theorem allowed_enum {items : List Json} : Allowed draft (steps + 1) "enum" (.arr items) := by
  intro e he hkey path
  have htype : ("type", Json.str "array") = ("type", .str Kind.array.name) := rfl
  rcases enum_published draft Draft.mem_all e he hkey with heq | heq
  · rw [heq, passes_obj rfl, htype]
    simp only [List.forall_mem_singleton]
    exact (memberFaults_type .array).mpr rfl
  · rw [heq, passes_obj rfl, htype]
    simp only [List.forall_mem_cons, List.not_mem_nil, false_implies, implies_true, and_true]
    exact ⟨memberFaults_silent rfl, (memberFaults_type .array).mpr rfl⟩

end EventAdmission
