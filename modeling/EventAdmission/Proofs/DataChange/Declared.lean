import EventAdmission.Proofs.DataChange.Lossless
import EventAdmission.Proofs.DeclaredField
import EventAdmission.Proofs.Schema.References

/-!
# Declared fields of a data change

The walk along a path looks at a document in two ways: it takes steps from node to
node, and it starts over at the root for a reference. If all references of a schema
point into its definitions, then two roots with these definitions are the same to
the walk (`resolves_congr`). The envelope of a data change is such a root, with the
owner's schema one step below: `isDeclared_envelope`.
-/

namespace EventAdmission

open DeclaredField

variable {root root' node : Json} {members members' owner head : Members} {reference n : String}
  {hops : Nat} {name : String} {names : List (List Char)}

namespace DeclaredField

-- ---------------------------------------------------------------------------
-- Two roots
-- ---------------------------------------------------------------------------

/-- The references of a document that start with a number sign point into its definitions. -/
def AllLocal (x : Json) : Prop :=
  ∀ y ∈ x.values, ∀ reference ∈ (y.member? "$ref").bind Json.str?,
    ['#'] <+: reference.toList → IsLocal reference

instance : DecidablePred AllLocal := fun x =>
  inferInstanceAs (Decidable (∀ y ∈ x.values, ∀ reference ∈ (y.member? "$ref").bind Json.str?, _))

theorem target?_congr
    (hsame : ∀ key ∈ localKeys, Keyed.find? members key = Keyed.find? members' key)
    (hlocal : ∀ reference ∈ (node.member? "$ref").bind Json.str?,
      ['#'] <+: reference.toList → IsLocal reference) :
    target? (.obj members) node = target? (.obj members') node := by
  refine Option.bind_congr fun value hvalue => Option.bind_congr fun reference hreference => ?_
  split
  · rename_i pointer htext
    have hnode : reference ∈ (node.member? "$ref").bind Json.str? := by
      rw [hvalue]
      exact hreference
    obtain ⟨key, hkey, rest, hrest⟩ := hlocal reference hnode ⟨pointer, htext.symm⟩
    obtain ⟨-, hslash, hunescape⟩ := localKeys_plain key hkey
    have hpointer : pointer = '/' :: key.toList ++ '/' :: rest := by
      rw [htext] at hrest
      simpa using hrest.symm
    rw [hpointer, Json.tokens?_front hslash]
    simp only [Option.bind_eq_bind, Option.bind_some, Json.follow,
      Evaluation.token?_key hunescape,
      String.ofList_toList, hsame key hkey]
  · rfl

theorem followRefs_congr (h : ∀ y ∈ root.values, target? root' y = target? root y)
    (hnode : node ∈ root.values) : followRefs root' hops node = followRefs root hops node := by
  induction hops generalizing node with
  | zero => rfl
  | succ hops ih =>
    rw [followRefs, followRefs, h node hnode]
    split
    · rename_i next hnext
      exact ih (target?_mem hnext)
    · rfl

theorem resolves_congr (h : ∀ y ∈ root.values, target? root' y = target? root y)
    (hnode : node ∈ root.values) : resolves root' node names = resolves root node names := by
  induction names generalizing node with
  | nil => rfl
  | cons name names ih =>
    have hproperty : ∀ name, property? root' node name = property? root node name := by
      intro name
      rw [property?, followRefs_congr h hnode, property?]
    rw [resolves, resolves, hproperty]
    split
    · rename_i next hnext
      exact ih (property?_mem hnode hnext)
    · rfl

end DeclaredField

namespace Enrichment

open Evaluation

-- ---------------------------------------------------------------------------
-- The envelope as a root
-- ---------------------------------------------------------------------------

theorem target?_envelope (h : Head owner head) (hlocal : AllLocal (.obj owner)) :
    ∀ y ∈ (Json.obj owner).values,
      target? (.obj (envelope n owner head)) y = target? (.obj owner) y := by
  intro y hy
  have hkeys : ∀ key ∈ localKeys, key ∈ hoistedKeywords := by decide
  exact target?_congr (fun key hkey => envelope_hoisted h (hkeys key hkey)) (hlocal y hy)

theorem target?_lowered : target? root (.obj (lowered owner)) = target? root (.obj owner) := by
  have href : (Json.obj (lowered owner)).member? "$ref" = (Json.obj owner).member? "$ref" :=
    lowered_find?
  rw [target?, href, target?]

theorem property?_lowered (h : Head owner head) (hlocal : AllLocal (.obj owner)) :
    property? (.obj (envelope n owner head)) (.obj (lowered owner)) name =
      property? (.obj owner) (.obj owner) name := by
  have hproperties : (Json.obj (lowered owner)).member? "properties" =
      (Json.obj owner).member? "properties" := lowered_find?
  have hlimit : hopLimit = 31 + 1 := rfl
  have htarget := target?_envelope (n := n) h hlocal
  rw [property?, property?, hlimit, followRefs, followRefs, target?_lowered,
    htarget _ Json.mem_values_self]
  split
  · rename_i next hnext
    rw [followRefs_congr htarget (target?_mem hnext)]
  · rw [hproperties]

theorem resolves_lowered (h : Head owner head) (hlocal : AllLocal (.obj owner)) :
    resolves (.obj (envelope n owner head)) (.obj (lowered owner)) names =
      resolves (.obj owner) (.obj owner) names := by
  cases names with
  | nil => rfl
  | cons name names =>
    rw [resolves, resolves, property?_lowered h hlocal]
    split
    · rename_i next hnext
      exact resolves_congr (target?_envelope h hlocal) (property?_mem Json.mem_values_self hnext)
    · rfl

theorem property?_data (h : Head owner head) :
    property? (.obj (envelope n owner head)) (.obj (envelope n owner head)) "data" =
      some (.obj (lowered owner)) := by
  have href : (Json.obj (envelope n owner head)).member? "$ref" = none :=
    envelope_find? h (by decide)
  rw [property?_of_chain (.stop fun _ => not_leads href) (Nat.zero_le _)]
  exact envelope_data h

/-- A field of the owner's schema is declared in the schema of the data changes below the data, and
nothing else is declared there. -/
theorem isDeclared_envelope {schema effective : Json} {path : String} (hlocal : AllLocal schema)
    (h : enrich .dataChange schema n = .ok effective) (hpath : path ≠ "") :
    isDeclared effective ("data." ++ path) = isDeclared schema path := by
  obtain ⟨owner, head, rfl, hhead, rfl⟩ := enrich_dataChange_ok h
  have hcut : ("data." ++ path).toList = "data".toList ++ '.' :: path.toList := by simp
  have hdata : Text.splitAt '.' "data".toList = ["data".toList] := rfl
  have hlong : "data." ++ path ≠ "" := by simp
  rw [isDeclared_eq hlong, isDeclared_eq hpath, hcut, Text.splitAt_append, hdata,
    List.singleton_append, resolves, String.ofList_toList, property?_data hhead]
  exact resolves_lowered hhead hlocal

/-- The entries refer to what is not there, and the rows to each other without an end. -/
def ledgerOwner : Json :=
  .obj [("definitions", .obj [
      ("entry", .obj [("$ref", .str "#/definitions/missing"),
        ("properties", .obj [("id", .obj [])])]),
      ("row", .obj [("$ref", .str "#/definitions/row"), ("properties", .obj [("id", .obj [])])])]),
    ("properties", .obj [("first", .obj [("$ref", .str "#/definitions/entry")]),
      ("rows", .obj [("$ref", .str "#/definitions/row")])])]

theorem ledgerOwner_declares : ∃ effective,
    enrich .dataChange ledgerOwner "ledger" = .ok effective ∧
      (isDeclared ledgerOwner "first.id" = true ∧
        isDeclared effective ("data." ++ "first.id") = true) ∧
      (isDeclared ledgerOwner "rows.id" = true ∧
        isDeclared effective ("data." ++ "rows.id") = true) ∧
      isDeclared ledgerOwner "rows.total" = false ∧
        isDeclared effective ("data." ++ "rows.total") = false := by
  have hlocal : AllLocal ledgerOwner := by decide
  have hok : (enrich .dataChange ledgerOwner "ledger").isOk = true := rfl
  obtain ⟨effective, h⟩ := isOk_iff.mp hok
  have hfirst : isDeclared ledgerOwner "first.id" = true := by decide +kernel
  have hrows : isDeclared ledgerOwner "rows.id" = true := by decide +kernel
  have htotal : isDeclared ledgerOwner "rows.total" = false := by decide +kernel
  refine ⟨effective, h, ⟨hfirst, ?_⟩, ⟨hrows, ?_⟩, htotal, ?_⟩
  · rw [isDeclared_envelope hlocal h (by decide), hfirst]
  · rw [isDeclared_envelope hlocal h (by decide), hrows]
  · rw [isDeclared_envelope hlocal h (by decide), htotal]

end Enrichment

end EventAdmission
