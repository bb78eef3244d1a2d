import EventAdmission.Proofs.Schema.Compiled

/-!
# What a passed schema says about the value

One law for each keyword that the broker's envelope uses, for a schema that may
hold any other keywords too: if a value passes the schema, it has what the
keyword asks for. Only a reference beside the keyword takes it out of force; all
laws assume that there is none. Where the keyword could be written in a way that
asks for nothing, the schema must compile as well.
-/

namespace EventAdmission

theorem Rule.namesOf_arr {items : List Json} {names : List String} :
    namesOf (.arr items) = .ok names ↔ items = names.map .str := by
  show items.mapM stringOf = .ok names ↔ _
  induction items generalizing names with
  | nil => cases names <;> simp [pure, Except.pure]
  | cons item items ih =>
    rw [List.mapM_cons]
    constructor
    · intro h
      obtain ⟨first, hfirst, h⟩ := bind_ok.mp h
      obtain ⟨others, hothers, h⟩ := bind_ok.mp h
      obtain rfl := Except.ok.inj h
      cases item <;> cases hfirst
      rw [List.map_cons, ih.mp hothers]
    · intro h
      cases names with
      | nil => cases h
      | cons name names =>
        obtain ⟨rfl, hitems⟩ := List.cons.inj h
        rw [ih.mpr hitems]
        rfl

namespace Evaluation

variable {corpus : Corpus} {scope : Scope} {members event : Members} {x value schema : Json}
  {path : Path} {steps : Nat} {key : String}

theorem Passes.member (h : Passes corpus (steps + 1) scope (.obj members) x path)
    (href : Keyed.find? members "$ref" = none) (hk : Keyed.find? members key = some value) :
    memberFaults (faultsWithin corpus steps) .faults (scope.inside (.obj members)) members x path
      (key, value) = some [] :=
  (passes_obj href).mp h _ (Keyed.mem_of_find? hk)

theorem Passes.steps_pos (h : Passes corpus steps scope schema x path) :
    ∃ n, steps = n + 1 := by
  cases steps with
  | zero => cases h
  | succ n => exact ⟨n, rfl⟩

theorem Passes.type {k : Kind} (h : Passes corpus (steps + 1) scope (.obj members) x path)
    (href : Keyed.find? members "$ref" = none)
    (hk : Keyed.find? members "type" = some (.str k.name)) : k.holds scope.draft x = true := by
  have hmember := h.member href hk
  rwa [memberFaults_type, Scope.draft_inside] at hmember

theorem Passes.pattern {source text : String} {p : Pattern}
    (h : Passes corpus (steps + 1) scope (.obj members) (.str text) path)
    (href : Keyed.find? members "$ref" = none)
    (hk : Keyed.find? members "pattern" = some (.str source))
    (hp : Pattern.ofKeyword? source = some p) : p.search text = .found :=
  (memberFaults_pattern text hp).mp (h.member href hk)

theorem Compiles.required (hc : Compiles scope (.obj members))
    (href : Keyed.find? members "$ref" = none)
    (hk : Keyed.find? members "required" = some value) :
    ∃ names, Rule.namesOf value = .ok names := by
  obtain ⟨r, hr, -⟩ := hc.member href (Keyed.mem_of_find? hk)
  have hrule : Rule.ofMember scope.draft members "required" value =
      some <$> (.required <$> Rule.namesOf value) := rfl
  obtain ⟨_, hmap, -⟩ := map_ok.mp (hrule.symm.trans hr)
  obtain ⟨names, hnames, -⟩ := map_ok.mp hmap
  exact ⟨names, hnames⟩

theorem Compiles.additional (hc : Compiles scope (.obj members))
    (href : Keyed.find? members "$ref" = none)
    (hk : Keyed.find? members "additionalProperties" = some value) :
    ∃ r, Rule.additionalOf members value = .ok r := by
  obtain ⟨r, hr, -⟩ := hc.member href (Keyed.mem_of_find? hk)
  exact ⟨r, hr⟩

theorem Passes.required (h : Passes corpus (steps + 1) scope (.obj members) (.obj event) path)
    (hc : Compiles scope (.obj members)) (href : Keyed.find? members "$ref" = none)
    (hk : Keyed.find? members "required" = some value) :
    ∃ names, Rule.namesOf value = .ok names ∧
      ∀ name ∈ names, ∃ v, Keyed.find? event name = some v := by
  obtain ⟨names, hnames⟩ := hc.required href hk
  exact ⟨names, hnames, (memberFaults_required hnames).mp (h.member href hk)⟩

-- ---------------------------------------------------------------------------
-- Properties
-- ---------------------------------------------------------------------------

theorem Passes.property {properties : Members}
    (h : Passes corpus (steps + 1) scope (.obj members) (.obj event) path)
    (hc : Compiles scope (.obj members)) (href : Keyed.find? members "$ref" = none)
    (hp : Keyed.find? members "properties" = some (.obj properties))
    (hs : Keyed.find? properties key = some schema) (hv : Keyed.find? event key = some value) :
    Passes corpus steps (scope.inside (.obj members)) schema value (path ++ [.key key]) := by
  cases hclose : Rule.closesProperties members with
  | false =>
    have hmember := (memberFaults_properties hclose).mp (h.member href hp)
    exact hmember _ (Keyed.mem_of_find? hs) _ hv
  | true =>
    obtain ⟨additional, ha, hadditional⟩ := additional_of_closes hclose
    obtain ⟨r, hr, -⟩ := hc.member href (Keyed.mem_of_find? ha)
    obtain ⟨named, patterns, rfl, hnamed, -⟩ := additionalOf_ok hadditional hr
    cases named with
    | none => simp [hp] at hnamed
    | some named =>
      obtain rfl : properties = named := by simpa [hp] using hnamed
      have hmember := h.member href ha
      rw [memberFaults_additionalProperties hr] at hmember
      obtain ⟨hpass, -⟩ := (closedFaults_eq_nil rfl).mp hmember
      exact hpass _ (Keyed.mem_of_find? hv) _
        (mem_schemasFor.mpr (.inl (by simp [namedSchemas, hs])))

/-- A key that a schema names among its properties, or that one of its patterns is found in. -/
def Names (members : Members) (key : String) : Prop :=
  (∃ properties s, Keyed.find? members "properties" = some (.obj properties) ∧
    Keyed.find? properties key = some s) ∨
  ∃ (patterns : Members) (source : String) (s : Json) (p : Pattern),
    Keyed.find? members "patternProperties" = some (.obj patterns) ∧ (source, s) ∈ patterns ∧
      Pattern.compile? source = some p ∧ p.search key = .found

theorem namedSchemas_eq_nil {properties patterns : Option Members}
    (hproperties : Keyed.find? members "properties" = properties.map .obj)
    (hpatterns : Keyed.find? members "patternProperties" = patterns.map .obj)
    (h : ¬ Names members key) :
    namedSchemas properties (patterns.map Rule.keyPatterns) key = [] := by
  rw [namedSchemas, List.append_eq_nil_iff]
  constructor
  · cases properties with
    | none => rfl
    | some properties =>
      cases hf : Keyed.find? properties key with
      | none => simp [hf]
      | some s => exact absurd (.inl ⟨properties, s, hproperties, hf⟩) h
  · cases patterns with
    | none => rfl
    | some patterns =>
      simp only [Option.map_some, Option.getD_some, matchingSchemas, Rule.keyPatterns,
        List.filterMap_eq_nil_iff, List.mem_map]
      rintro _ ⟨⟨source, s⟩, he, rfl⟩
      cases hp : Pattern.compile? source with
      | none => rfl
      | some p =>
        have hnot : p.search key ≠ .found := fun hf =>
          h (.inr ⟨patterns, source, s, p, hpatterns, he, hp, hf⟩)
        simp [hnot]

theorem Passes.additional {additional : Members}
    (h : Passes corpus (steps + 1) scope (.obj members) (.obj event) path)
    (hc : Compiles scope (.obj members)) (href : Keyed.find? members "$ref" = none)
    (ha : Keyed.find? members "additionalProperties" = some (.obj additional))
    (hkey : ¬ Names members key) (hv : (key, value) ∈ event) :
    Passes corpus steps (scope.inside (.obj members)) (.obj additional) value
      (path ++ [.key key]) := by
  obtain ⟨r, hr, -⟩ := hc.member href (Keyed.mem_of_find? ha)
  have hobj : Json.obj additional ≠ .bool true := nofun
  obtain ⟨properties, patterns, rfl, hproperties, hpatterns⟩ := additionalOf_ok hobj hr
  have hmember := h.member href ha
  rw [memberFaults_additionalProperties hr] at hmember
  refine closedFaults_checked.mp hmember _ hv _ ?_
  simp [schemasFor, namedSchemas_eq_nil hproperties hpatterns hkey]

end Evaluation

end EventAdmission
