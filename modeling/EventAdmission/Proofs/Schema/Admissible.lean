import EventAdmission.Proofs.DataChange.Published
import EventAdmission.Proofs.Schema.PublishedShapes
import EventAdmission.Proofs.Schema.Verdict

/-!
# Schemas that a published schema admits

As the check against a published schema ends, it does not matter in how many
steps a schema is admitted and a value is allowed for a keyword. `admissible_obj`
takes a schema apart into its members, and for the keywords that the broker
writes there is an exact condition on the value each.
-/

namespace EventAdmission

open Evaluation MetaSchema Enrichment Schema

variable {draft : Draft} {fragment : Option (List Char)} {x v s first second : Json} {key : String}
  {members entries : Members} {names : List String} {steps : Nat} {path : Path} {corpus : Corpus}
  {scope : Scope}

def Admissible (draft : Draft) (x : Json) : Prop := ∃ steps, Admitted draft steps x

def Permitted (draft : Draft) (key : String) (v : Json) : Prop := ∃ steps, Allowed draft steps key v

theorem Admissible.within (h : Admissible draft x) (hsteps : levelSteps * x.depth ≤ steps) :
    Admitted draft steps x := by
  obtain ⟨steps, h⟩ := h
  exact h.enough hsteps

theorem Permitted.within (h : Permitted draft key v) (hsteps : levelSteps * v.depth ≤ steps) :
    Allowed draft steps key v := by
  obtain ⟨steps, h⟩ := h
  exact h.enough hsteps

theorem admissible_obj : Admissible draft (.obj members) ↔
    (∀ key v, Keyed.find? members key = some v → Permitted draft key v) ∧ Limited draft members := by
  constructor
  · rintro ⟨steps, h⟩
    obtain ⟨hallowed, hlimited⟩ := admitted_obj.mp (h.mono (Nat.le_succ steps))
    exact ⟨fun key v hv => ⟨steps, hallowed key v hv⟩, hlimited⟩
  · rintro ⟨hpermitted, hlimited⟩
    refine ⟨levelSteps * (Json.obj members).depth + 1, admitted_obj.mpr ⟨fun key v hv => ?_, hlimited⟩⟩
    have hlt := Json.depth_lt (Json.inside_find? hv)
    exact (hpermitted key v hv).within (Nat.mul_le_mul_left _ (Nat.le_of_lt hlt))

theorem publishedFault_iff : publishedFault draft (.obj members) = .ok () ↔
    Admissible draft (.obj members) := by
  rw [publishedFault_ok]
  constructor
  · exact fun h => ⟨_, admitted_of_passes h⟩
  · exact fun h => h.within (levelSteps_le_enoughSteps _ _) _ (by decide) []

-- ---------------------------------------------------------------------------
-- Any place
-- ---------------------------------------------------------------------------

theorem passes_ofDraft_fragment {fragment' : Option (List Char)} (hf : fragment ∈ fragments)
    (hf' : fragment' ∈ fragments) :
    Passes (published draft) steps (publishedScope draft fragment) (ofDraft draft) x path ↔
      Passes (published draft) steps (publishedScope draft fragment') (ofDraft draft) x path := by
  cases steps with
  | zero => exact Iff.rfl
  | succ steps =>
    have hsame : (publishedScope draft fragment).inside (ofDraft draft) =
        (publishedScope draft fragment').inside (ofDraft draft) :=
      (inside_ofDraft hf).trans (inside_ofDraft hf').symm
    obtain ⟨members, hobj, href⟩ : ∃ members, ofDraft draft = .obj members ∧
        Keyed.find? members "$ref" = none := by
      cases draft <;> exact ⟨_, rfl, rfl⟩
    rw [hobj] at hsame ⊢
    rw [passes_obj href, passes_obj href, hsame]

theorem admissible_of_passes (hf : fragment ∈ fragments)
    (h : Passes (published draft) steps (publishedScope draft fragment) (ofDraft draft) x path) :
    Admissible draft x := by
  have hnil : Passes (published draft) (levelSteps * x.depth) (publishedScope draft fragment)
      (ofDraft draft) x path := h.enough hf Json.mem_values_self (Nat.le_refl _)
  obtain ⟨fs, hfs⟩ : ∃ fs, faultsWithin (published draft) (levelSteps * x.depth) .faults
      (publishedScope draft fragment) (ofDraft draft) x [] = some fs := Option.isSome_iff_exists.mp
    (answered_published hf Json.mem_values_self (Nat.le_refl _) .faults [])
  have hanswers : Answers path (faultsWithin (published draft) (levelSteps * x.depth))
      (faultsWithin (published draft) (levelSteps * x.depth)) (publishedScope draft fragment)
      (ofDraft draft) :=
    (closed_published draft).answers (Nat.le_refl _) ⟨⟨fragment, hf, rfl⟩, Json.mem_values_self⟩
  have hpath := hanswers.here fs hfs
  rw [Passes] at hnil
  rw [List.append_nil, hnil] at hpath
  obtain rfl : fs = [] := List.map_eq_nil_iff.mp (Option.some.inj hpath).symm
  refine ⟨levelSteps * x.depth, fun fragment' hf' path' => ?_⟩
  rw [passes_ofDraft_fragment hf' hf]
  exact List.append_nil path' ▸
    passes_elsewhere hf Json.mem_values_self (Nat.le_refl _) path' hfs

def selfReference : Json := .obj [("$ref", .str "#")]

theorem passes_selfReference (hf : fragment ∈ fragments) :
    Passes (published draft) (steps + 1) (publishedScope draft fragment) selfReference x path ↔
      Passes (published draft) steps (publishedScope draft none) (ofDraft draft) x path := by
  have hid : (publishedScope draft fragment).inside selfReference =
      publishedScope draft fragment := Scope.inside_of_no_id (by cases draft <;> rfl)
  obtain ⟨target, -, hfollow, htarget⟩ := follow_published hf root_published
  rw [Passes, faultsWithin, selfReference, schemaFaults_ref rfl, ← selfReference, hid, hfollow,
    htarget rfl, Passes]

-- ---------------------------------------------------------------------------
-- Keywords
-- ---------------------------------------------------------------------------

theorem Permitted.kind {k : Kind} (h : Permitted draft key v)
    (hmem : (key, .obj [("type", .str k.name)]) ∈ publishedKeywords draft) :
    k.holds draft v = true := by
  obtain ⟨steps, h⟩ := h
  exact ((h.mono (Nat.le_succ steps)) _ hmem rfl []).type rfl rfl

theorem permitted_properties : Permitted draft "properties" v ↔
    ∃ entries, v = .obj entries ∧ ∀ e ∈ entries, Admissible draft e.2 := by
  constructor
  · rintro ⟨steps, h⟩
    obtain ⟨entries, rfl, hall⟩ := allowed_properties_iff.mp (h.mono (Nat.le_add_right steps 2))
    exact ⟨entries, rfl, fun e he =>
      admissible_of_passes (by decide) ((passes_selfReference (by decide)).mp (hall e he []))⟩
  · rintro ⟨entries, rfl, hall⟩
    refine ⟨levelSteps * (Json.obj entries).depth + 2, allowed_properties fun e he => ?_⟩
    exact (hall e he).within (Nat.mul_le_mul_left _ (Nat.le_of_lt (depth_member he)))

theorem permitted_required : Permitted draft "required" v ↔
    ∃ names, v = .strings names ∧ names.Nodup ∧ (draft = .draft4 → names ≠ []) := by
  constructor
  · rintro ⟨steps, h⟩
    exact allowed_required_iff.mp (h.mono (Nat.le_add_right steps 3))
  · exact fun h => ⟨3, allowed_required_iff.mpr h⟩

theorem permitted_fixed (h : (key, v) ∈ fixedMembers) : Permitted draft key v := ⟨9, allowed_fixed h⟩

theorem permitted_enum {items : List Json} : Permitted draft "enum" (.arr items) := ⟨1, allowed_enum⟩

-- ---------------------------------------------------------------------------
-- Keywords with a schema
-- ---------------------------------------------------------------------------

def choice (first second default : Json) : Json :=
  .obj [("anyOf", .arr [first, second]), ("default", default)]

theorem passes_choice {default : Json}
    (h : (isValid (faultsWithin corpus steps) scope first x).isSome) :
    Passes corpus (steps + 1) scope (choice first second default) x path ↔
      Passes corpus steps scope first x [] ∨ Passes corpus steps scope second x [] := by
  rw [choice, passes_obj rfl, Scope.inside_of_no_id (by cases scope.draft <;> rfl)]
  simp only [List.forall_mem_cons, List.not_mem_nil, false_implies, implies_true, and_true,
    memberFaults_anyOf path h, isValid_iff]
  exact and_iff_left (memberFaults_silent rfl)

def additionalForm : Draft → Json
  | .draft4 => choice (.obj [("type", .str "boolean")]) selfReference (.obj [])
  | _ => selfReference

theorem additional_known : ∀ draft ∈ Draft.all,
    ("additionalProperties", additionalForm draft) ∈ publishedKeywords draft := by
  decide

theorem additional_published : ∀ draft ∈ Draft.all, ∀ e ∈ publishedKeywords draft,
    e.1 = "additionalProperties" → e.2 = additionalForm draft := by
  decide

def schemaListReference : String := "#/definitions/schemaArray"

def itemsForm : Draft → Json
  | .draft7 =>
    choice selfReference (.obj [("$ref", .str schemaListReference)]) (.bool true)
  | _ => choice selfReference (.obj [("$ref", .str schemaListReference)]) (.obj [])

theorem items_known : ∀ draft ∈ Draft.all, ("items", itemsForm draft) ∈ publishedKeywords draft := by
  decide

theorem items_published : ∀ draft ∈ Draft.all, ∀ e ∈ publishedKeywords draft,
    e.1 = "items" → e.2 = itemsForm draft := by
  decide

theorem passes_selfReference_iff (hf : fragment ∈ fragments)
    (hsteps : levelSteps * x.depth ≤ steps) :
    Passes (published draft) (steps + 1) (publishedScope draft fragment) selfReference x path ↔
      Admissible draft x := by
  rw [passes_selfReference hf]
  constructor
  · exact admissible_of_passes (by decide)
  · exact fun h => h.within hsteps none (by decide) path

theorem selfReference_inside : ∀ draft ∈ Draft.all, selfReference ∈ (ofDraft draft).values := by
  decide

/-- For an object, the form of a keyword asks whether it is a schema. -/
def AsksSchema (draft : Draft) (form : Json) : Prop := ∀ members steps path,
  levelSteps * (Json.obj members).depth ≤ steps →
    (Passes (published draft) (steps + 3) (publishedScope draft (some [])) form (.obj members) path ↔
      Admissible draft (.obj members))

theorem asksSchema_choice {default : Json}
    (h : first = selfReference ∧ s = second ∨ second = selfReference ∧ s = first)
    (hmem : s ∈ (ofDraft draft).values)
    (hnone : ∀ members steps, ¬Passes (published draft) steps (publishedScope draft (some [])) s
      (.obj members) []) : AsksSchema draft (choice first second default) := by
  intro members steps path hsteps
  have hself : Passes (published draft) (steps + 2) (publishedScope draft (some [])) selfReference
      (.obj members) [] ↔ Admissible draft (.obj members) :=
    passes_selfReference_iff (by decide) (Nat.le_add_right_of_le hsteps)
  have hsome : ∀ part ∈ (ofDraft draft).values, (isValid (faultsWithin (published draft) (steps + 2))
      (publishedScope draft (some [])) part (.obj members)).isSome := fun part hpart =>
    isSome_isValid (answered_published (by decide) hpart (Nat.le_add_right_of_le hsteps))
  rcases h with ⟨rfl, rfl⟩ | ⟨rfl, rfl⟩
  · rw [passes_choice (hsome _ (selfReference_inside draft Draft.mem_all)), hself]
    exact or_iff_left (hnone members _)
  · rw [passes_choice (hsome _ hmem), hself]
    exact or_iff_right (hnone members _)

theorem asksSchema_selfReference : AsksSchema draft selfReference := fun _ _ _ hsteps =>
  passes_selfReference_iff (by decide) (Nat.le_add_right_of_le hsteps)

theorem asksSchema_additionalForm : AsksSchema draft (additionalForm draft) := by
  cases draft with
  | draft4 =>
    refine asksSchema_choice (.inr ⟨rfl, rfl⟩) (by decide) fun members steps h => ?_
    obtain ⟨steps, rfl⟩ := h.steps_pos
    cases h.type (k := .boolean) rfl rfl
  | draft6 | draft7 => exact asksSchema_selfReference

def schemaList : Json :=
  .obj [("items", selfReference), ("minItems", .num (.natural 1)), ("type", .str "array")]

theorem schemaListReference_inside : ∀ draft ∈ Draft.all,
    .obj [("$ref", .str schemaListReference)] ∈ (ofDraft draft).values := by
  decide

theorem not_passes_schemaList : ¬Passes (published draft) steps (publishedScope draft (some []))
    (.obj [("$ref", .str schemaListReference)]) (.obj members) path := by
  intro h
  have hknown : schemaListReference ∈ publishedReferences draft := by cases draft <;> decide
  have hfollow : follow (published draft) (publishedScope draft (some [])) schemaListReference =
      .ok (publishedScope draft none, schemaList) :=
    follow_part (by decide) hknown (by cases draft <;> rfl)
  obtain ⟨steps, rfl⟩ := h.steps_pos
  rw [Passes, faultsWithin, schemaFaults_ref rfl, Scope.inside_of_no_id (by cases draft <;> rfl),
    hfollow] at h
  have hlist : Passes (published draft) steps (publishedScope draft none) schemaList (.obj members)
      path := h
  obtain ⟨steps, rfl⟩ := hlist.steps_pos
  cases hlist.type (k := .array) rfl rfl

theorem asksSchema_itemsForm : AsksSchema draft (itemsForm draft) := by
  have hchoice : ∀ default, AsksSchema draft
      (choice selfReference (.obj [("$ref", .str schemaListReference)]) default) := fun default =>
    asksSchema_choice (.inl ⟨rfl, rfl⟩) (schemaListReference_inside draft Draft.mem_all)
      fun _ _ => not_passes_schemaList
  cases draft <;> exact hchoice _

theorem AsksSchema.permitted (h : AsksSchema draft s) (hmem : (key, s) ∈ publishedKeywords draft)
    (hone : ∀ e ∈ publishedKeywords draft, e.1 = key → e.2 = s) :
    Permitted draft key (.obj members) ↔ Admissible draft (.obj members) := by
  have hasks := fun path => h members (levelSteps * (Json.obj members).depth) path (Nat.le_refl _)
  constructor
  · intro hp
    have hallowed := hp.within (Nat.le_add_right (levelSteps * (Json.obj members).depth) 3)
    exact (hasks _).mp ((allowed_iff hmem hone).mp hallowed [])
  · intro hx
    exact ⟨_, (allowed_iff hmem hone).mpr fun path => (hasks _).mpr hx⟩

theorem permitted_additional : Permitted draft "additionalProperties" (.obj members) ↔
    Admissible draft (.obj members) :=
  asksSchema_additionalForm.permitted (additional_known draft Draft.mem_all)
    (additional_published draft Draft.mem_all)

theorem permitted_items : Permitted draft "items" (.obj members) ↔
    Admissible draft (.obj members) :=
  asksSchema_itemsForm.permitted (items_known draft Draft.mem_all)
    (items_published draft Draft.mem_all)

end EventAdmission
