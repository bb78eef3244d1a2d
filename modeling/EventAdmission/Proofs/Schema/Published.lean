import EventAdmission.Proofs.Schema.Compiled
import EventAdmission.Proofs.Schema.Moved
import EventAdmission.Proofs.Schema.References

/-!
# The published schemas

A schema has to pass the published schema of its draft before it compiles.
`passes_published` takes that apart: each keyword that the published schema
knows has a value that passes the schema of the keyword. The references of the
published schemas all lead to parts of them, so it does not matter at what place
a schema stands that is checked.
-/

namespace EventAdmission

open Evaluation Corpus MetaSchema

variable {draft : Draft} {fragment : Option (List Char)}

-- ---------------------------------------------------------------------------
-- Addresses
-- ---------------------------------------------------------------------------

def publishedUrl (draft : Draft) (fragment : Option (List Char)) : Url :=
  let version := match draft with
    | .draft4 => "draft-04"
    | .draft6 => "draft-06"
    | .draft7 => "draft-07"
  ⟨"http".toList, some "json-schema.org".toList,
    .segments [version.toList, "schema".toList], none, fragment⟩

def publishedScope (draft : Draft) (fragment : Option (List Char)) : Scope :=
  ⟨publishedUrl draft fragment, draft⟩

def published (draft : Draft) : Corpus :=
  ⟨ofDraft draft, [((publishedUrl draft none).text, ofDraft draft)]⟩

def fragments : List (Option (List Char)) := [none, some []]

def publishedId (draft : Draft) : String := ((Schema.id? draft (ofDraft draft)).getD "")

def publishedReferences (draft : Draft) : List String :=
  let numbers := match draft with
    | .draft4 => ["#/definitions/positiveInteger", "#/definitions/positiveIntegerDefault0"]
    | _ => ["#/definitions/nonNegativeInteger", "#/definitions/nonNegativeIntegerDefault0"]
  ["#", "#/definitions/schemaArray", "#/definitions/simpleTypes", "#/definitions/stringArray"]
    ++ numbers

/-- Each published schema is known by its own address, and from any base that comes up its
identifier and its references lead back to that address. -/
theorem addresses_ofDraft : ∀ draft ∈ Draft.all,
    ((rootBase draft (ofDraft draft)).toOption = some (publishedUrl draft (some [])) ∧
      (namesIn draft (publishedUrl draft (some [])) (ofDraft draft)).toOption =
        some (published draft).named) ∧
    ∀ fragment ∈ fragments,
      ((publishedUrl draft fragment).join (publishedId draft)).toOption =
        some (publishedUrl draft (some [])) ∧
      ∀ reference ∈ publishedReferences draft,
        ((publishedUrl draft fragment).join reference).toOption =
          some (publishedUrl draft (some (reference.toList.drop 1))) := by
  decide +kernel

theorem parts_ofDraft : ∀ draft ∈ Draft.all,
    (∀ y ∈ (ofDraft draft).inside, Schema.id? draft y = none) ∧
    ∀ y ∈ (ofDraft draft).values, ∀ reference ∈ (y.member? "$ref").bind Json.str?,
      reference ∈ publishedReferences draft := by
  decide +kernel

theorem ofSchema_ofDraft :
    ofSchema draft (ofDraft draft) = .ok (publishedScope draft (some []), published draft) := by
  obtain ⟨⟨hbase, hnames⟩, -⟩ := addresses_ofDraft draft Draft.mem_all
  rw [ofSchema, toOption_eq_some.mp hbase]
  simp only [bind, Except.bind, toOption_eq_some.mp hnames]
  rfl

-- ---------------------------------------------------------------------------
-- References
-- ---------------------------------------------------------------------------

def publishedTarget (draft : Draft) (reference : String) : Option Json :=
  match follow (published draft) (publishedScope draft none) reference with
  | .ok (inner, target) =>
    if inner.base = publishedUrl draft none ∧ inner.draft = draft then some target else none
  | .error _ => none

def publishedParts (draft : Draft) : Members :=
  ("#", ofDraft draft) ::
    ((((ofDraft draft).member? "definitions").bind Json.obj?).getD []).map fun e =>
      ("#/definitions/" ++ e.1, e.2)

theorem publishedParts_known : ∀ draft ∈ Draft.all, ∀ reference ∈ publishedReferences draft,
    Keyed.contains (publishedParts draft) reference = true := by
  decide

/-- Following a reference looks whether what it leads to compiles. That is slow, so it is evaluated
only here. -/
theorem publishedTarget_eq : ∀ draft ∈ Draft.all, ∀ reference ∈ publishedReferences draft,
    publishedTarget draft reference = Keyed.find? (publishedParts draft) reference := by
  decide +kernel

theorem publishedParts_inside {reference : String} {part : Json}
    (h : Keyed.find? (publishedParts draft) reference = some part) :
    part ∈ (ofDraft draft).values := by
  rcases List.mem_cons.mp (Keyed.mem_of_find? h) with heq | hmem
  · obtain ⟨-, rfl⟩ := Prod.mk.inj heq
    exact Json.mem_values_self
  · obtain ⟨e, he, heq⟩ := List.mem_map.mp hmem
    obtain ⟨-, rfl⟩ := Prod.mk.inj heq
    exact Json.mem_values.mpr (.inr (Json.inside_entries he))

theorem follow_of_target {reference : String} {target : Json}
    (h : publishedTarget draft reference = some target) :
    follow (published draft) (publishedScope draft none) reference =
      .ok (publishedScope draft none, target) := by
  unfold publishedTarget at h
  split at h
  · rename_i inner found hf
    split at h
    · rename_i hinner
      obtain ⟨base, d⟩ := inner
      obtain ⟨hbase, hdraft⟩ := hinner
      dsimp only at hbase hdraft
      rw [hf, Option.some.inj h, hbase, hdraft, publishedScope]
    · cases h
  · cases h

theorem follow_fragment {reference : String} (hf : fragment ∈ fragments)
    (hr : reference ∈ publishedReferences draft) :
    follow (published draft) (publishedScope draft fragment) reference =
      follow (published draft) (publishedScope draft none) reference := by
  have hjoin : ∀ fragment ∈ fragments, (publishedUrl draft fragment).join reference =
      .ok (publishedUrl draft (some (reference.toList.drop 1))) := fun fragment hf =>
    toOption_eq_some.mp (((addresses_ofDraft draft Draft.mem_all).2 fragment hf).2 reference hr)
  simp only [follow, publishedScope, hjoin fragment hf, hjoin none (List.mem_cons_self ..)]

theorem follow_part {reference : String} {part : Json} (hf : fragment ∈ fragments)
    (hr : reference ∈ publishedReferences draft)
    (h : Keyed.find? (publishedParts draft) reference = some part) :
    follow (published draft) (publishedScope draft fragment) reference =
      .ok (publishedScope draft none, part) :=
  (follow_fragment hf hr).trans
    (follow_of_target ((publishedTarget_eq draft Draft.mem_all reference hr).trans h))

theorem follow_published {reference : String} (hf : fragment ∈ fragments)
    (hr : reference ∈ publishedReferences draft) :
    ∃ target ∈ (ofDraft draft).values,
      follow (published draft) (publishedScope draft fragment) reference =
        .ok (publishedScope draft none, target) ∧ (reference = "#" → target = ofDraft draft) := by
  obtain ⟨part, hpart⟩ := Keyed.contains_iff.mp
    (publishedParts_known draft Draft.mem_all reference hr)
  refine ⟨part, publishedParts_inside hpart, follow_part hf hr hpart, ?_⟩
  rintro rfl
  exact (Option.some.inj hpart).symm

theorem inside_ofDraft (hf : fragment ∈ fragments) :
    (publishedScope draft fragment).inside (ofDraft draft) = publishedScope draft (some []) := by
  have hid : Schema.id? draft (ofDraft draft) = some (publishedId draft) := by
    cases draft <;> rfl
  have hjoin := toOption_eq_some.mp ((addresses_ofDraft draft Draft.mem_all).2 fragment hf).1
  rw [publishedScope, Scope.inside, Scope.enter, hid]
  simp only [bind, Except.bind, hjoin]
  rfl

/-- The base stays what it is, but for an empty fragment. -/
theorem inside_published {s : Json} (hf : fragment ∈ fragments) (hs : s ∈ (ofDraft draft).values) :
    ∃ fragment' ∈ fragments,
      (publishedScope draft fragment).inside s = publishedScope draft fragment' := by
  rcases Json.mem_values.mp hs with rfl | hs
  · exact ⟨some [], by decide, inside_ofDraft hf⟩
  · exact ⟨fragment, hf, Scope.inside_of_no_id ((parts_ofDraft draft Draft.mem_all).1 s hs)⟩

theorem reference_published {members : Members} {reference : String}
    (hm : .obj members ∈ (ofDraft draft).values)
    (href : Keyed.find? members "$ref" = some (.str reference)) :
    reference ∈ publishedReferences draft :=
  (parts_ofDraft draft Draft.mem_all).2 _ hm reference (by simp [Json.member?, href, Json.str?])

theorem closed_published (draft : Draft) : Closed (published draft) (published draft)
    fun scope s => (∃ fragment ∈ fragments, scope = publishedScope draft fragment) ∧
      s ∈ (ofDraft draft).values := by
  constructor
  · rintro scope members s ⟨⟨fragment, hf, rfl⟩, hm⟩ - hs
    exact ⟨inside_published hf hm,
      Json.mem_values_trans hm (Json.mem_values.mpr (.inr hs.inside))⟩
  · rintro scope members reference ⟨⟨fragment, hf, rfl⟩, hm⟩ href
    have hr := reference_published hm href
    obtain ⟨fragment', hf', heq⟩ := inside_published hf hm
    obtain ⟨target, htarget, hfollow, -⟩ := follow_published hf' hr
    rw [heq]
    exact ⟨_, target, hfollow, hfollow, ⟨none, by decide, rfl⟩, htarget⟩

end EventAdmission
