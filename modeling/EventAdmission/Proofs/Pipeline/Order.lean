import EventAdmission.Proofs.Pipeline
import Mathlib.Data.List.Forall2

/-!
# The order of a pipeline

A validator runs the checks of its pipeline until one of them rejects the event.
Neither that nor the early end when a strategy cannot be materialized makes the
order count: a validator is built if every strategy can be materialized, and it
accepts what every strategy accepts on its own. Order decides who speaks first.
-/

namespace EventAdmission

variable {r : Registry} {t : EventType} {v : Validation} {w : EventValidator} {event : Json}
  {name : String} {names : List String} {check : EventCheck} {checks : List EventCheck}

theorem new_ok {s : Settings} (h : (Validation.new r s).result = .ok v) : v = ⟨r, s⟩ := by
  unfold Validation.new at h
  split at h
  · cases h
  · exact (Except.ok.inj h).symm

def Registry.Contributes (r : Registry) (t : EventType) (name : String) (check : EventCheck) :
    Prop :=
  ∃ s, r.get name = .ok s ∧ (s.materialize t).result = .ok check

theorem Registry.Contributes.unique {other : EventCheck} (h : r.Contributes t name check)
    (h' : r.Contributes t name other) : check = other := by
  obtain ⟨s, hs, hcheck⟩ := h
  obtain ⟨s', hs', hother⟩ := h'
  cases hs.symm.trans hs'
  exact Except.ok.inj (hcheck.symm.trans hother)

-- ---------------------------------------------------------------------------
-- Building a validator
-- ---------------------------------------------------------------------------

theorem materializeAll_cons :
    (v.materializeAll t (name :: names)).result = .ok checks ↔
      ∃ check rest, v.registry.Contributes t name check ∧
        (v.materializeAll t names).result = .ok rest ∧ checks = check :: rest := by
  cases hs : v.registry.get name with
  | error e => simp [Validation.materializeAll, Registry.Contributes, hs]
  | ok s => simp [materializeAll_cons_ok hs, Registry.Contributes, hs]

theorem materializeAll_ok : (v.materializeAll t names).result = .ok checks ↔
    List.Forall₂ (v.registry.Contributes t) names checks := by
  induction names generalizing checks with
  | nil => simp [result_materializeAll_nil, eq_comm]
  | cons name names ih =>
    simp only [materializeAll_cons, ih, List.forall₂_cons_left_iff]

theorem forType_ok : (v.forType t).result = .ok w ↔
    w.eventType = t.name ∧
      List.Forall₂ (v.registry.Contributes t) (v.settings.pipeline t.category) w.checks := by
  simp only [Validation.forType, Logged.result_andThen_ok, materializeAll_ok, Except.ok.injEq]
  constructor
  · rintro ⟨checks, hchecks, rfl⟩
    exact ⟨rfl, hchecks⟩
  · rintro ⟨hname, hchecks⟩
    exact ⟨w.checks, hchecks, by rw [← hname]⟩

theorem exists_forall₂ {α β : Type} {R : α → β → Prop} {xs : List α} :
    (∃ ys, List.Forall₂ R xs ys) ↔ ∀ x ∈ xs, ∃ y, R x y := by
  induction xs with
  | nil => simp
  | cons x xs ih =>
    rw [List.forall_mem_cons, ← ih]
    constructor
    · rintro ⟨_, _ | ⟨hx, hxs⟩⟩
      exact ⟨⟨_, hx⟩, _, hxs⟩
    · rintro ⟨⟨y, hx⟩, ys, hxs⟩
      exact ⟨y :: ys, .cons hx hxs⟩

theorem forType_isOk : (v.forType t).result.isOk = true ↔
    ∀ name ∈ v.settings.pipeline t.category, ∃ check, v.registry.Contributes t name check := by
  rw [isOk_iff, ← exists_forall₂]
  constructor
  · rintro ⟨w, hw⟩
    exact ⟨w.checks, (forType_ok.mp hw).2⟩
  · rintro ⟨checks, hchecks⟩
    exact ⟨⟨t.name, checks⟩, forType_ok.mpr ⟨rfl, hchecks⟩⟩

-- ---------------------------------------------------------------------------
-- Running it
-- ---------------------------------------------------------------------------

/-- What the strategy registered under a name says of an event on its own: nothing, or why it
rejects the event. -/
def Registry.Reports (r : Registry) (t : EventType) (event : Json) (name : String)
    (outcome : Option Rejection) : Prop :=
  ∃ check, r.Contributes t name check ∧ check.run event = outcome

theorem Registry.Contributes.reports (h : r.Contributes t name check) {outcome : Option Rejection} :
    r.Reports t event name outcome ↔ check.run event = outcome := by
  constructor
  · rintro ⟨other, hother, hrun⟩
    rwa [h.unique hother]
  · intro hrun
    exact ⟨check, h, hrun⟩

theorem accepts_iff (h : List.Forall₂ (r.Contributes t) names checks) :
    checks.findSome? (fun check => check.run event) = none ↔
      ∀ name ∈ names, r.Reports t event name none := by
  rw [List.findSome?_eq_none_iff]
  induction h with
  | nil => simp
  | cons hcheck _ ih => simp only [List.forall_mem_cons, hcheck.reports, ih]

theorem rejects_iff (h : List.Forall₂ (r.Contributes t) names checks) {rejection : Rejection} :
    checks.findSome? (fun check => check.run event) = some rejection ↔
      ∃ before name after, names = before ++ name :: after ∧
        (∀ earlier ∈ before, r.Reports t event earlier none) ∧
        r.Reports t event name (some rejection) := by
  induction h with
  | nil => simp
  | @cons name check names checks hcheck _ ih =>
    rw [List.findSome?_cons]
    cases hrun : check.run event with
    | some first =>
      constructor
      · rintro ⟨⟩
        exact ⟨[], name, names, rfl, by simp, hcheck.reports.mpr hrun⟩
      · rintro ⟨_ | ⟨earlier, before⟩, _, _, hnames, hbefore, hname⟩
        · cases hnames
          exact hrun.symm.trans (hcheck.reports.mp hname)
        · cases hnames
          have hnone := hcheck.reports.mp (hbefore name List.mem_cons_self)
          simp [hrun] at hnone
    | none =>
      rw [ih]
      constructor
      · rintro ⟨before, later, after, rfl, hbefore, hlater⟩
        exact ⟨name :: before, later, after, rfl,
          List.forall_mem_cons.mpr ⟨hcheck.reports.mpr hrun, hbefore⟩, hlater⟩
      · rintro ⟨_ | ⟨earlier, before⟩, _, _, hnames, hbefore, hname⟩
        · cases hnames
          have hsome := hcheck.reports.mp hname
          simp [hrun] at hsome
        · cases hnames
          exact ⟨before, _, _, rfl, (List.forall_mem_cons.mp hbefore).2, hname⟩

-- ---------------------------------------------------------------------------
-- Two pipelines
-- ---------------------------------------------------------------------------

/-- An event is accepted under a validation: the validator of its type is built and finds
nothing. -/
def Validation.Accepts (v : Validation) (t : EventType) (event : Json) : Prop :=
  ∃ w, (v.forType t).result = .ok w ∧ w.validate event = none

theorem accepts_iff_reports : v.Accepts t event ↔
    ∀ name ∈ v.settings.pipeline t.category, v.registry.Reports t event name none := by
  constructor
  · rintro ⟨w, hw, hnone⟩
    exact (accepts_iff (forType_ok.mp hw).2).mp hnone
  · intro hreports
    obtain ⟨w, hw⟩ := isOk_iff.mp (forType_isOk.mpr fun name hname =>
      (hreports name hname).imp fun _ h => h.1)
    exact ⟨w, hw, (accepts_iff (forType_ok.mp hw).2).mpr hreports⟩

theorem accepts_of_forType (hw : (v.forType t).result = .ok w) :
    v.Accepts t event ↔ w.validate event = none := by
  simp [Validation.Accepts, hw]

/-- Of two settings that name the same strategies for a category, in whatever order and however
often, either both build a validator for an event type or neither does, and both validators accept
the same events. Each rejects an event with the words of the first strategy in its own order that
rejects it on its own. More strategies accept fewer events. -/
theorem pipeline_order (r : Registry) (s s' : Settings) (v v' : Validation) (t : EventType)
    (hv : (Validation.new r s).result = .ok v) (hv' : (Validation.new r s').result = .ok v') :
    ((∀ name, name ∈ s.pipeline t.category ↔ name ∈ s'.pipeline t.category) →
      ((v.forType t).result.isOk = (v'.forType t).result.isOk ∧
        ∀ w w', (v.forType t).result = .ok w → (v'.forType t).result = .ok w' →
          ∀ event, w.validate event = none ↔ w'.validate event = none)) ∧
    (s.pipeline t.category ⊆ s'.pipeline t.category →
      ∀ event, v'.Accepts t event → v.Accepts t event) ∧
    ∀ w, (v.forType t).result = .ok w → ∀ event rejection,
      w.validate event = some rejection ↔
        ∃ before name after, s.pipeline t.category = before ++ name :: after ∧
          (∀ earlier ∈ before, r.Reports t event earlier none) ∧
          r.Reports t event name (some rejection) := by
  cases new_ok hv
  cases new_ok hv'
  refine ⟨fun hsame => ⟨?_, ?_⟩, ?_, ?_⟩
  · rw [Bool.eq_iff_iff, forType_isOk, forType_isOk]
    exact forall_congr' fun name => imp_congr_left (hsame name)
  · intro w w' hw hw' event
    rw [← accepts_of_forType hw, ← accepts_of_forType hw', accepts_iff_reports, accepts_iff_reports]
    exact forall_congr' fun name => imp_congr_left (hsame name)
  · intro hsubset event haccepts
    rw [accepts_iff_reports] at haccepts ⊢
    exact fun name hname => haccepts name (hsubset hname)
  · intro w hw event rejection
    exact rejects_iff (forType_ok.mp hw).2

def envelopeChecks : Registry :=
  ⟨[("field-presence", .fieldPresence), ("metadata-cross-field", .metadataCrossField)]⟩

def metadataFirst : Settings := ⟨.draft7, ⟨[], ["metadata-cross-field", "field-presence"], []⟩⟩

def presenceFirst : Settings :=
  ⟨.draft7, ⟨[], ["field-presence", "metadata-cross-field", "field-presence"], []⟩⟩

def signIn : EventType := ⟨"login", .business, .obj [], ["user"]⟩

/-- A login that both strategies reject on their own: who comes first gives the reason. -/
theorem signIn_order : ∃ w w',
    (Validation.forType ⟨envelopeChecks, metadataFirst⟩ signIn).result = .ok w ∧
    (Validation.forType ⟨envelopeChecks, presenceFirst⟩ signIn).result = .ok w' ∧
    (∀ event, w.validate event = none ↔ w'.validate event = none) ∧
    w.validate (.obj [("metadata", .obj [("event_type", .null)])]) =
      some ⟨"#/metadata/event_type: null is not a valid enum value"⟩ ∧
    w'.validate (.obj [("metadata", .obj [("event_type", .null)])]) =
      some ⟨"#: significant field [user] is not declared in the schema"⟩ := by
  obtain ⟨hsame, -, hfirst⟩ := pipeline_order envelopeChecks metadataFirst presenceFirst
    ⟨envelopeChecks, metadataFirst⟩ ⟨envelopeChecks, presenceFirst⟩ signIn rfl rfl
  have hnames : ∀ name, name ∈ metadataFirst.pipeline .business ↔
      name ∈ presenceFirst.pipeline .business := by
    simp [metadataFirst, presenceFirst, Settings.pipeline, Pipelines.get, or_comm]
  refine ⟨_, _, rfl, rfl, (hsame hnames).2 _ _ rfl rfl, ?_, ?_⟩
  · refine (hfirst _ rfl _ _).mpr ⟨[], "metadata-cross-field", ["field-presence"], rfl, by simp, ?_⟩
    exact ⟨.metadata "login", ⟨.metadataCrossField, rfl, rfl⟩, rfl⟩
  · rfl

end EventAdmission
