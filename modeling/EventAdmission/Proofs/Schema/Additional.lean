import EventAdmission.Proofs.Outcome
import EventAdmission.Proofs.Keyed
import EventAdmission.Schema.Rule

/-!
# The rule for additional properties

The one rule that reads other keywords to find out what it is about: the named
properties and the patterns beside it. `additionalOf_ok` says what it is made of
when the keyword is in force.
-/

namespace EventAdmission.Evaluation

variable {members : Members}

theorem additional_of_closes (h : Rule.closesProperties members = true) :
    ∃ value, Keyed.find? members "additionalProperties" = some value ∧ value ≠ .bool true := by
  unfold Rule.closesProperties at h
  split at h
  · exact ⟨.bool false, ‹_›, by simp⟩
  · exact ⟨.obj _, ‹_›, by simp⟩
  · cases h

def remainderOf : Json → Remainder
  | .bool _ => .forbidden
  | value => .checked value

def patternsBeside (siblings : Members) (value : Json) : Except Fault (Option (List KeyPattern)) :=
  match Keyed.find? siblings "patternProperties" with
  | none => .ok none
  | some (.obj entries) => .ok (some (Rule.keyPatterns entries))
  | some _ => .error (Rule.malformed value)

def propertiesBeside (siblings : Members) : Except Fault (Option Members) :=
  match Keyed.find? siblings "properties" with
  | none => .ok none
  | some p => some <$> Rule.membersOf p

theorem propertiesBeside_ok {properties : Option Members}
    (h : propertiesBeside members = .ok properties) :
    Keyed.find? members "properties" = properties.map .obj := by
  unfold propertiesBeside at h
  cases hp : Keyed.find? members "properties" with
  | none =>
    rw [hp] at h
    obtain rfl := Except.ok.inj h
    rfl
  | some p =>
    rw [hp] at h
    cases p <;> cases h
    rfl

theorem patternsBeside_ok {value : Json} {patterns : Option (List KeyPattern)}
    (h : patternsBeside members value = .ok patterns) :
    ∃ entries : Option Members, patterns = entries.map Rule.keyPatterns ∧
      Keyed.find? members "patternProperties" = entries.map .obj := by
  unfold patternsBeside at h
  cases hp : Keyed.find? members "patternProperties" with
  | none =>
    rw [hp] at h
    obtain rfl := Except.ok.inj h
    exact ⟨none, rfl, rfl⟩
  | some p =>
    rw [hp] at h
    cases p <;> cases h
    exact ⟨some _, rfl, rfl⟩

theorem additionalOf_eq {value : Json} (hvalue : value ≠ .bool true) :
    Rule.additionalOf members value = (do
      let patterns ← patternsBeside members value
      let properties ← propertiesBeside members
      .ok (some (.closed properties patterns (remainderOf value)))) := by
  unfold Rule.additionalOf patternsBeside propertiesBeside
  cases value with
  | bool b =>
    cases b with
    | true => exact absurd rfl hvalue
    | false =>
      cases Keyed.find? members "properties" <;>
        cases Keyed.find? members "patternProperties" with
        | none => rfl
        | some p => cases p <;> rfl
  | _ =>
    cases Keyed.find? members "properties" <;> cases Keyed.find? members "patternProperties" with
    | none => rfl
    | some p => cases p <;> rfl

theorem additionalOf_true :
    Rule.additionalOf members (.bool true) = (do
      let patterns ← patternsBeside members (.bool true)
      .ok (patterns.map .readable)) := by
  unfold Rule.additionalOf patternsBeside
  cases Keyed.find? members "properties" <;> cases Keyed.find? members "patternProperties" with
  | none => rfl
  | some p => cases p <;> rfl

theorem additionalOf_ok {value : Json} {r : Option Rule} (hvalue : value ≠ .bool true)
    (h : Rule.additionalOf members value = .ok r) :
    ∃ properties patterns : Option Members,
      r = some (.closed properties (patterns.map Rule.keyPatterns) (remainderOf value)) ∧
      Keyed.find? members "properties" = properties.map .obj ∧
      Keyed.find? members "patternProperties" = patterns.map .obj := by
  rw [additionalOf_eq hvalue] at h
  obtain ⟨_, hpatterns, h⟩ := bind_ok.mp h
  obtain ⟨properties, hproperties, h⟩ := bind_ok.mp h
  obtain ⟨patterns, rfl, hp⟩ := patternsBeside_ok hpatterns
  exact ⟨properties, patterns, (Except.ok.inj h).symm, propertiesBeside_ok hproperties, hp⟩

end EventAdmission.Evaluation
