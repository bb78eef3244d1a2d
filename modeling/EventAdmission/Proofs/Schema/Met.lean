import EventAdmission.Proofs.Schema.Moved
import EventAdmission.Proofs.Schema.References

/-!
# The schemas that an evaluation meets

`Met`: a schema that the evaluation of a document can get to from its root, with
the draft in force there. If a schema has no identifiers and refers to its own
definitions only, whatever is met is a part of it, and it is met alike in any
other document with the same definitions (`closed_met`).
-/

namespace EventAdmission

open Schema Evaluation Corpus

variable {root s : Json} {draft d : Draft} {members members' : Members}

/-- The schemas that can be met from the root, each with the draft in force. -/
inductive Met (root : Json) (draft : Draft) : Draft → Json → Prop
  | root : Met root draft draft root
  | part {d : Draft} {members : Members} {s : Json} : Met root draft d (.obj members) →
    Keyed.find? members "$ref" = none → Rule.Subschema d members s → Met root draft d s
  | behind {d : Draft} {members : Members} {reference : String} {inner : Scope} {target : Json} :
    Met root draft d (.obj members) → Keyed.find? members "$ref" = some (.str reference) →
    follow (anonymous root) ⟨anonymousBase, d⟩ reference = .ok (inner, target) →
    Met root draft inner.draft target

/-- Every reference that can be met points into the definitions of the root, and there is a schema
that makes sense. -/
def RefersLocally (root : Json) (draft : Draft) : Prop :=
  ∀ d members reference, Met root draft d (.obj members) →
    Keyed.find? members "$ref" = some (.str reference) →
    IsLocal reference ∧
      ∃ place, follow (anonymous root) ⟨anonymousBase, d⟩ reference = .ok place

theorem Met.mem_values (hm : Met root draft d s) (hn : Nameless root)
    (hr : RefersLocally root draft) : s ∈ root.values := by
  induction hm with
  | root => exact Json.mem_values_self
  | part _ _ hs ih => exact Json.mem_values_trans ih (Json.mem_values.mpr (.inr hs.inside))
  | behind hmet href hf _ =>
    obtain ⟨hlocal, -⟩ := hr _ _ _ hmet href
    exact Json.mem_values.mpr (.inr (follow_nameless hn hlocal rfl hf).2)

theorem Met.inside {scope : Scope} (hm : Met root draft scope.draft s) (hn : Nameless root)
    (hr : RefersLocally root draft) : scope.inside s = scope :=
  Scope.inside_of_no_id (hn.of_mem (hm.mem_values hn hr)).self

/-- It is enough that every reference in the document is local and leads to a schema. -/
theorem refersLocally_of_values (hn : Nameless root)
    (h : ∀ y ∈ root.values, ∀ reference ∈ (y.member? "$ref").bind Json.str?,
      IsLocal reference ∧ ∀ d ∈ Draft.all,
        (follow (anonymous root) ⟨anonymousBase, d⟩ reference).isOk = true) :
    RefersLocally root draft := by
  have hmem : ∀ d s, Met root draft d s → s ∈ root.values := by
    intro d s hm
    induction hm with
    | root => exact Json.mem_values_self
    | part _ _ hs ih => exact Json.mem_values_trans ih (Json.mem_values.mpr (.inr hs.inside))
    | @behind d members reference inner target _ href hf ih =>
      obtain ⟨hlocal, -⟩ := h _ ih reference (by simp [Json.member?, href, Json.str?])
      exact Json.mem_values.mpr (.inr (follow_nameless hn hlocal rfl hf).2)
  intro d members reference hm href
  obtain ⟨hlocal, hok⟩ := h _ (hmem _ _ hm) reference (by simp [Json.member?, href, Json.str?])
  exact ⟨hlocal, isOk_iff.mp (hok d Draft.mem_all)⟩

theorem closed_met (hn : Nameless (.obj members)) (hr : RefersLocally (.obj members) draft)
    (hid : ∀ draft, id? draft (.obj members) = id? draft (.obj members'))
    (hsame : ∀ key ∈ localKeys, Keyed.find? members key = Keyed.find? members' key) :
    Closed (anonymous (.obj members)) (anonymous (.obj members')) fun scope s =>
      scope.base = anonymousBase ∧ Met (.obj members) draft scope.draft s := by
  constructor
  · rintro scope siblings s ⟨hbase, hm⟩ href hs
    rw [hm.inside hn hr]
    exact ⟨hbase, hm.part href hs⟩
  · rintro ⟨base, d⟩ siblings reference ⟨hbase, hm⟩ href
    obtain rfl : base = anonymousBase := hbase
    obtain ⟨hlocal, ⟨inner, target⟩, hf⟩ := hr _ _ _ hm href
    have hf' : follow (anonymous (.obj members)) ⟨anonymousBase, d⟩ reference =
        follow (anonymous (.obj members')) ⟨anonymousBase, d⟩ reference :=
      follow_congr hlocal rfl hid hsame
    rw [hm.inside hn hr]
    refine ⟨inner, target, hf, hf'.symm.trans hf, ?_, hm.behind href hf⟩
    rw [(follow_nameless hn hlocal rfl hf).1]

end EventAdmission
