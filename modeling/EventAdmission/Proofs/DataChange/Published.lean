import EventAdmission.Proofs.DataChange.Compiled
import EventAdmission.Proofs.Schema.PublishedKeywords

/-!
# The envelope under the published schemas

`admitted_envelope`: what the broker adds to a schema is allowed in every draft,
so the envelope is admitted if the owner's schema is. The members that are the
same for every event type are checked by evaluation.
-/

namespace EventAdmission.Enrichment

open Evaluation MetaSchema

variable {draft : Draft} {owner head members : Members} {steps : Nat} {n key : String} {v : Json}
  {names : List String}

-- ---------------------------------------------------------------------------
-- Pieces of the envelope
-- ---------------------------------------------------------------------------

/-- The members of the envelope that neither the owner nor the event type has a part in. -/
def fixedMembers : List (String × Json) :=
  [("additionalProperties", stringSchema), ("additionalProperties", .bool false),
    ("items", uuidSchema), ("pattern", .str uuidPattern),
    ("required", .strings requiredMetadata), ("required", .strings dataChangeKeys),
    ("type", .str "array"), ("type", .str "object"), ("type", .str "string")]

def passesSoon (draft : Draft) (schema x : Json) : Bool :=
  (faultsWithin (published draft) 9 .faults (publishedScope draft (some [])) schema x []).any
    List.isEmpty

theorem fixedMembers_pass : ∀ draft ∈ Draft.all, ∀ e ∈ publishedKeywords draft,
    ∀ fixed ∈ fixedMembers, e.1 = fixed.1 → passesSoon draft e.2 fixed.2 = true := by
  decide +kernel

theorem allowed_fixed (h : (key, v) ∈ fixedMembers) : Allowed draft 9 key v := by
  intro e he hkey path
  have hsoon := fixedMembers_pass draft Draft.mem_all e he (key, v) h hkey
  obtain ⟨faults, hfaults, hnil⟩ := (Option.any_eq_true _ _).mp hsoon
  obtain rfl := List.isEmpty_iff.mp hnil
  exact List.append_nil (path ++ [Step.key key]) ▸
    passes_elsewhere (by decide) (publishedKeywords_inside he) (Nat.le_refl _) _ hfaults

theorem admitted_of_fixed
    (hlimits : ∀ e ∈ members, ∀ exclusive ∈ exclusiveKeywords, e.1 ≠ exclusive.1)
    (h : ∀ e ∈ members, e ∈ fixedMembers) : Admitted draft 10 (.obj members) :=
  admitted_of_members hlimits fun e he => allowed_fixed (h e he)

theorem admitted_stringSchema : Admitted draft 10 stringSchema :=
  admitted_of_fixed (by decide) (by decide)

theorem admitted_uuidSchema : Admitted draft 10 uuidSchema :=
  admitted_of_fixed (by decide) (by decide)

theorem admitted_parentsSchema : Admitted draft 10 parentsSchema :=
  admitted_of_fixed (by decide) (by decide)

theorem admitted_spanSchema : Admitted draft 10 spanSchema :=
  admitted_of_fixed (by decide) (by decide)

theorem admitted_enumSchema : Admitted draft 10 (enumSchema names) := by
  rw [enumSchema_eq]
  refine admitted_of_members (by simp [exclusiveKeywords]) ?_
  simp only [List.forall_mem_cons, List.not_mem_nil, false_implies, implies_true, and_true]
  exact ⟨allowed_enum, allowed_fixed (by decide)⟩

theorem admitted_metadataSchema : Admitted draft 13 (metadataSchema n) := by
  have hall : ∀ e ∈ metadataProperties n, Admitted draft 10 e.2 := by
    simp [metadataProperties_eq, admitted_uuidSchema, admitted_enumSchema, admitted_stringSchema,
      admitted_parentsSchema, admitted_spanSchema]
  rw [metadataSchema_eq]
  refine admitted_of_members (by simp [exclusiveKeywords]) ?_
  simp only [List.forall_mem_cons, List.not_mem_nil, false_implies, implies_true, and_true]
  exact ⟨allowed_properties hall, (allowed_fixed (by decide)).mono (by decide),
    (allowed_fixed (by decide)).mono (by decide)⟩

-- ---------------------------------------------------------------------------
-- The envelope
-- ---------------------------------------------------------------------------

theorem find?_of_lowered (h : Keyed.find? (lowered owner) key = some v) :
    Keyed.find? owner key = some v := by
  by_cases hkey : key ∈ hoistedKeywords
  · have hnone : Keyed.find? (lowered owner) key = none :=
      Keyed.find?_filter_of_not (fun k => !hoistedKeywords.contains k) (by simpa using hkey)
    cases hnone.symm.trans h
  · exact find?_lowered hkey ▸ h

theorem limited_lowered (h : Limited draft owner) : Limited draft (lowered owner) := by
  intro hdraft e he hc
  have hkeys : ∀ e ∈ exclusiveKeywords, e.2 ∉ hoistedKeywords := by decide
  obtain ⟨v, hv⟩ := Keyed.contains_iff.mp hc
  obtain ⟨limit, hlimit⟩ := Keyed.contains_iff.mp
    (h hdraft e he (Keyed.contains_iff.mpr ⟨v, find?_of_lowered hv⟩))
  exact Keyed.contains_iff.mpr ⟨limit, (find?_lowered (hkeys e he)).trans hlimit⟩

theorem admitted_lowered (h : Admitted draft (steps + 1) (.obj owner)) :
    Admitted draft (steps + 1) (.obj (lowered owner)) := by
  obtain ⟨hallowed, hlimited⟩ := admitted_obj.mp h
  exact admitted_obj.mpr ⟨fun key v hv => hallowed key v (find?_of_lowered hv),
    limited_lowered hlimited⟩

theorem limited_envelope (h : Head owner head) : Limited draft (envelope n owner head) := by
  intro _ e he hc
  have hkeys : ∀ e ∈ exclusiveKeywords, e.1 ∉ headKeys := by decide
  have hothers : ∀ e ∈ exclusiveKeywords, Keyed.find? (envelopeEnd n owner) e.1 = none := by
    simp [exclusiveKeywords, envelopeEnd, Keyed.find?]
  obtain ⟨v, hv⟩ := Keyed.contains_iff.mp hc
  rw [envelope_find? h (hkeys e he), hothers e he] at hv
  cases hv

/-- The envelope takes three steps more than the owner's schema, which is two levels below. -/
theorem admitted_envelope (h : Head owner head) (hs : 13 ≤ steps)
    (ho : Admitted draft (steps + 1) (.obj owner)) :
    Admitted draft (steps + 4) (.obj (envelope n owner head)) := by
  have hfields : ∀ e ∈ fields n owner, Admitted draft (steps + 1) e.2 := by
    have hstring : Admitted draft (steps + 1) stringSchema := admitted_stringSchema.mono (by omega)
    have hnames : Admitted draft (steps + 1) (enumSchema dataOperations) :=
      admitted_enumSchema.mono (by omega)
    have hmetadata : Admitted draft (steps + 1) (metadataSchema n) :=
      admitted_metadataSchema.mono (by omega)
    simp [fields, admitted_lowered ho, hstring, hnames, hmetadata]
  have hfixed : ∀ {key v}, (key, v) ∈ fixedMembers → Allowed draft (steps + 3) key v :=
    fun hmem => (allowed_fixed hmem).mono (by omega)
  refine admitted_obj.mpr ⟨fun key v hv => ?_, limited_envelope h⟩
  rcases List.mem_append.mp (Keyed.mem_of_find? hv) with he | he
  · rcases h.mem he with he | heq
    · have howner : Keyed.find? owner key = some v := envelope_hoisted h (mem_hoisted he) ▸ hv
      exact ((admitted_obj.mp ho).1 key v howner).mono (by omega)
    · obtain ⟨rfl, rfl⟩ := Prod.mk.inj heq
      exact hfixed (by decide)
  · simp only [envelopeEnd, List.mem_cons, List.not_mem_nil, or_false, Prod.mk.injEq] at he
    rcases he with ⟨rfl, rfl⟩ | ⟨rfl, rfl⟩ | ⟨rfl, rfl⟩
    · exact allowed_properties hfields
    · exact hfixed (by decide)
    · exact hfixed (by decide)

-- ---------------------------------------------------------------------------
-- Compilation
-- ---------------------------------------------------------------------------

theorem size_envelope (h : Head owner head) :
    (Json.obj owner).size < (Json.obj (envelope n owner head)).size := by
  obtain ⟨front, back, hsplit, rfl⟩ := h.split
  have howner := Json.sizeMembers_filter (fun e => hoistedKeywords.contains e.1) owner
  have hhoisted : Json.sizeMembers (hoisted owner) =
      Json.sizeMembers front + Json.sizeMembers back := by
    rw [hsplit, Json.sizeMembers_append]
  have hlowered : Json.sizeMembers (lowered owner) < Json.sizeMembers (envelopeEnd n owner) := by
    simp only [envelopeEnd, fields, Json.sizeMembers, Json.size]
    omega
  rw [Json.size, Json.size, envelope, Json.sizeMembers_append, Json.sizeMembers_append,
    Json.sizeMembers]
  simp only [hoisted, lowered] at howner hhoisted hlowered
  omega

theorem enoughSteps_published (h : Head owner head) :
    enoughSteps (published draft) (.obj owner) + 4 ≤
      enoughSteps (published draft) (.obj (envelope n owner head)) :=
  enoughSteps_add_four (Nat.le_refl _) (size_envelope h)

theorem compile_envelope {c : CompiledSchema} (hn : Schema.Nameless (.obj owner))
    (h : Head owner head) (hc : Schema.compile draft (.obj owner) = .ok c) :
    Schema.compile draft (.obj (envelope n owner head)) =
      .ok ⟨⟨anonymousBase, draft⟩, Corpus.anonymous (.obj (envelope n owner head))⟩ := by
  obtain ⟨hpublished, hcompiles, rfl⟩ := (compile_nameless hn).mp hc
  have hadmitted := admitted_of_passes (publishedFault_ok.mp hpublished)
  have henough := enoughSteps_pos (published draft) (.obj owner)
  have hmore : enoughSteps (published draft) (.obj owner) + 4 ≤
      enoughSteps (published draft) (.obj (envelope n owner head)) := enoughSteps_published h
  obtain ⟨k, hk⟩ : ∃ k, enoughSteps (published draft) (.obj owner) = k + 1 :=
    ⟨enoughSteps (published draft) (.obj owner) - 1, by omega⟩
  rw [hk] at hadmitted henough hmore
  have hpasses : Admitted draft (k + 4) (.obj (envelope n owner head)) :=
    admitted_envelope h (by omega) hadmitted
  have hpublished' : Schema.publishedFault draft (.obj (envelope n owner head)) = .ok () :=
    publishedFault_ok.mpr (hpasses.mono (by omega) _ (by decide) [])
  exact (compile_nameless (nameless_envelope hn h)).mpr
    ⟨hpublished', compiles_envelope hn h hcompiles, rfl⟩

theorem compile_dataChange {c : CompiledSchema} {schema effective : Json}
    (hn : Schema.Nameless schema) (hc : Schema.compile draft schema = .ok c)
    (he : enrich .dataChange schema n = .ok effective) :
    Schema.compile draft effective =
      .ok ⟨⟨anonymousBase, draft⟩, Corpus.anonymous effective⟩ := by
  obtain ⟨owner, head, rfl, hhead, rfl⟩ := enrich_dataChange_ok he
  exact compile_envelope hn hhead hc

end EventAdmission.Enrichment
