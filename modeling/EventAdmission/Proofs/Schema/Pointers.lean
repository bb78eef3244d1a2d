import EventAdmission.Proofs.Json.Pointer
import EventAdmission.Proofs.Json.Values
import EventAdmission.Proofs.Outcome
import EventAdmission.Proofs.Schema.Discovery

/-!
# Every violation points into the document

A fault has the path of the value that it is met at, which the evaluation has
gone down step by step (`faults_placed`), unless it is a fault of the schema,
which belongs to the root. So the pointer of a violation leads to a value of the
document that was checked (`violations_point_into`).
-/

namespace EventAdmission

variable {c : CompiledSchema} {corpus : Corpus} {scope : Scope} {x y : Json} {f : Fault}
  {fs : List Fault} {vs : List Violation} {path : Path} {s : Step}

/-- The fault tells of the value; where no key is allowed, of the value of its first key. -/
def Fault.TellsOf (f : Fault) (y : Json) : Prop :=
  f.instanceValue = y ∨ ∃ key rest, y = .obj ((key, f.instanceValue) :: rest)

/-- The path of the fault goes on from a path to the place in the value that the fault tells of. -/
def Fault.PlacedIn (f : Fault) (x : Json) (path : Path) : Prop :=
  ∃ rest y, f.path = path ++ rest ∧ x.at? rest = some y ∧ f.TellsOf y

theorem Fault.placedIn_here (h : f.TellsOf x) : f.PlacedIn x f.path :=
  ⟨[], x, (List.append_nil _).symm, rfl, h⟩

theorem Fault.PlacedIn.up (h : f.PlacedIn y (path ++ [s])) (hs : x.step? s = some y) :
    f.PlacedIn x path := by
  obtain ⟨rest, z, hpath, hz, htells⟩ := h
  refine ⟨s :: rest, z, ?_, ?_, htells⟩
  · rw [hpath, List.append_assoc, List.singleton_append]
  · rw [Json.at?, hs]
    exact hz

theorem faultLaw_placed :
    FaultLaw fun x path f => x.Canonical → f.IsBroken ∨ f.PlacedIn x path where
  here _ _ := .inr (Fault.placedIn_here (.inl rfl))
  first _ := .inr (Fault.placedIn_here (.inr ⟨_, _, rfl⟩))
  broken h _ := .inl h
  item hi h hx :=
    (h (Json.canonicalItems_iff.mp hx _ (List.mem_of_getElem? hi))).imp_right fun h => h.up hi
  member he h hx :=
    (h (Json.canonicalMembers_iff.mp hx.2 _ he)).imp_right fun h =>
      h.up (Keyed.find?_of_mem hx.1 he)

theorem faults_placed (hx : x.Canonical) (h : Evaluation.faults corpus scope x = some fs)
    (hf : f ∈ fs) : f.IsBroken ∨ ∃ y, x.at? f.path = some y ∧ f.TellsOf y := by
  refine (faultLaw_placed.faults h f hf hx).imp_right ?_
  rintro ⟨rest, y, hpath, hy⟩
  rw [hpath]
  exact ⟨y, hy⟩

/-- The pointer of every violation is that of a path to a value of the document; it is well formed,
and resolving it gives the value. -/
theorem CompiledSchema.violations_point_into (hx : x.Canonical) (h : c.violations x = some vs) :
    ∀ v ∈ vs, ∃ path y, v.pointer = path.pointer ∧ x.at? path = some y ∧
      Format.isJsonPointer v.pointer.toList = true ∧ x.pointer? v.pointer = some y := by
  intro v hv
  obtain ⟨faults, hfaults, rfl⟩ := Option.map_eq_some_iff.mp h
  obtain ⟨f, hf, hv⟩ := List.mem_flatMap.mp hv
  obtain ⟨_, -, rfl⟩ := List.mem_map.mp hv
  obtain ⟨y, hy⟩ : ∃ y, x.at? f.path = some y := by
    obtain ⟨hroot, -⟩ | ⟨y, hy, -⟩ := faults_placed hx hfaults hf
    · exact ⟨x, by rw [hroot, Json.at?]⟩
    · exact ⟨y, hy⟩
  exact ⟨f.path, y, rfl, hy, Format.isJsonPointer_pointer _, Json.pointer?_pointer hy⟩

def labelled : Json :=
  .obj [("additionalProperties", .obj [("items", .obj [("type", .str "string")]),
    ("type", .strings ["array", "string"])])]

def oddLabels : Json :=
  .obj [("", .null), ("a/b", .arr [.str "", .null]), ("c~0d~1", .obj [])]

theorem labelled_pointers : (Schema.compile .draft7 labelled).toOption.bind (fun c =>
      (c.violations oddLabels).map (List.map Violation.pointer)) =
    some ["/", "/a~1b/1", "/c~00d~01"] := by
  decide +kernel

theorem oddLabels_canonical : oddLabels.Canonical := by
  simp only [oddLabels, Json.Canonical, Json.CanonicalMembers, Json.CanonicalItems, Keyed.Sorted]
  decide

theorem oddLabels_point_into : ∃ c vs, Schema.compile .draft7 labelled = .ok c ∧
    c.violations oddLabels = some vs ∧ oddLabels.Canonical ∧
    vs.map Violation.pointer = ["/", "/a~1b/1", "/c~00d~01"] ∧
    ∀ v ∈ vs, ∃ path y, v.pointer = path.pointer ∧ oddLabels.at? path = some y ∧
      Format.isJsonPointer v.pointer.toList = true ∧ oddLabels.pointer? v.pointer = some y := by
  obtain ⟨c, hc, hviolations⟩ := Option.bind_eq_some_iff.mp labelled_pointers
  obtain ⟨vs, hvs, hpointers⟩ := Option.map_eq_some_iff.mp hviolations
  exact ⟨c, vs, toOption_eq_some.mp hc, hvs, oddLabels_canonical, hpointers,
    CompiledSchema.violations_point_into oddLabels_canonical hvs⟩

end EventAdmission
