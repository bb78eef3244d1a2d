import EventAdmission.Proofs.DataChange.Gate
import EventAdmission.Proofs.DataChange.Meaning

/-!
# Two checks of the event type

The event type in the metadata of a data change is checked by the schema, which lists
it, and by the check of the metadata, which compares it. `eventType_checks_agree`: what
passes the schema is never rejected for its event type, and an accepted event with
another event type is rejected by both in the same words.
-/

namespace EventAdmission

open Evaluation Enrichment

variable {corpus : Corpus} {scope : Scope} {goal : Goal} {steps steps' : Nat} {n name : String}
  {owner head event metadata : Members} {draft : Draft} {t : EventType} {v : EventValidator}
  {path : Path} {x : Json}

-- ---------------------------------------------------------------------------
-- One fault
-- ---------------------------------------------------------------------------

theorem faults_enumSchema {names : List String} (h : name ∉ names) :
    faultsWithin corpus (steps + 1) goal scope (enumSchema names) (.str name) path =
      some [⟨path, .str name, .notListed (names.map .str)⟩] := by
  have htype : ("type", Json.str "string") = ("type", .str Kind.string.name) := rfl
  have hsame : (names.map Json.str).any (Json.str name).sameMeaning = false := by
    simp only [List.any_map, List.any_eq_false, Function.comp_apply, sameMeaning_str]
    rintro other hother ⟨⟩
    exact h hother
  have henum : ∀ siblings : Members, memberFaults (faultsWithin corpus steps) goal scope siblings
      (.str name) path ("enum", .strings names) =
        faultUnless ((names.map Json.str).any (Json.str name).sameMeaning) path (.str name)
          (.notListed (names.map .str)) := fun _ => rfl
  rw [faultsWithin, enumSchema_eq, schemaFaults_obj rfl, inOrder_only (List.nil_append _).symm
    (List.forall_mem_nil _), Scope.inside_of_no_id (by cases scope.draft <;> rfl), henum, hsame]
  · rfl
  · rw [htype]
    simp [memberFaults_type, holds_string]

theorem faults_relabelledMetadata (h : WellFormed n metadata) (hname : name ≠ n) :
    faultsWithin corpus (steps + 3) .faults scope (metadataSchema n)
        (.obj (Keyed.insert metadata "event_type" (.str name))) path =
      some [⟨path ++ [.key "event_type"], .str name, .notListed [.str n]⟩] := by
  have htype : ("type", Json.str "object") = ("type", .str Kind.object.name) := rfl
  obtain ⟨_, ⟨⟩, hrequired, hproperties⟩ := passes_metadataSchema.mp
    (passes_metadataSchema_iff.mpr ⟨metadata, rfl, h⟩ :
      Passes corpus (steps + 3) scope (metadataSchema n) (.obj metadata) path)
  have hothers : ∀ e ∈ metadataProperties n, e.1 ≠ "event_type" →
      propertyFaults (faultsWithin corpus (steps + 2)) .faults scope
        (Keyed.insert metadata "event_type" (.str name)) path e = some [] := by
    intro e he hne
    rw [propertyFaults_eq_nil, Keyed.find?_insert_of_ne hne]
    exact hproperties e he
  have hnames : ∀ name' ∈ requiredMetadata, ∃ value,
      Keyed.find? (Keyed.insert metadata "event_type" (.str name)) name' = some value := by
    intro name' hname'
    rw [Keyed.find?_insert_of_ne (by rintro rfl; exact absurd hname' (by decide))]
    exact hrequired name' hname'
  obtain ⟨front, back, hlist, hne⟩ : ∃ front back,
      metadataProperties n = front ++ ("event_type", enumSchema [n]) :: back ∧
        ∀ e ∈ front ++ back, e.1 ≠ "event_type" := by
    refine ⟨[("eid", uuidSchema)], _, metadataProperties_eq, ?_⟩
    simp
  rw [faultsWithin, metadataSchema_eq, schemaFaults_obj rfl, inOrder_only (List.nil_append _).symm
    (List.forall_mem_nil _), memberFaults_properties_eq rfl, Scope.inside_of_no_id (by cases scope.draft <;> rfl)]
  · rw [inOrder_only hlist, propertyFaults, Keyed.find?_insert_self]
    · exact faults_enumSchema (by simpa using hname)
    · intro e he
      apply hothers e _ (hne e (List.mem_append_left _ he))
      rw [hlist]
      exact List.mem_append_left _ he
    · intro e he
      apply hothers e _ (hne e (List.mem_append_right _ he))
      rw [hlist]
      exact List.mem_append_right _ (List.mem_cons_of_mem _ he)
  · simp only [List.forall_mem_cons, htype, memberFaults_type, holds_object]
    exact ⟨(memberFaults_required namesOf_strings).mpr hnames, ⟨_, rfl⟩, List.forall_mem_nil _⟩

def relabelled (event metadata : Members) (name : String) : Json :=
  .obj (Keyed.insert event "metadata" (.obj (Keyed.insert metadata "event_type" (.str name))))

theorem faults_relabelled (h : Head owner head) (hs : Keyed.Sorted event)
    (hpass : Passes corpus (steps + 4) scope (.obj (envelope n owner head)) (.obj event) [])
    (hmetadata : Keyed.find? event "metadata" = some (.obj metadata)) (hname : name ≠ n) :
    faultsWithin corpus (steps + 4) .faults scope (.obj (envelope n owner head))
        (relabelled event metadata name) [] =
      some [⟨[.key "metadata", .key "event_type"], .str name, .notListed [.str n]⟩] := by
  obtain ⟨_, ⟨⟩, hrequired, hfields⟩ := (passes_envelope h).mp hpass
  have hschema : Keyed.find? (fields n owner) "metadata" = some (metadataSchema n) := rfl
  obtain ⟨_, ⟨⟩, hwell⟩ := passes_metadataSchema_iff.mp (passes_field hfields hschema hmetadata)
  obtain ⟨front, back, hinsert, -, hevent⟩ := Keyed.insert_split hs "metadata"
    (Json.obj (Keyed.insert metadata "event_type" (.str name)))
  have hold : ∀ e ∈ front ++ back, e ∈ event := by
    intro e he
    rcases hevent with ⟨old, -, rfl⟩ | ⟨-, rfl⟩
    · rcases List.mem_append.mp he with he | he
      · exact List.mem_append_left _ he
      · exact List.mem_append_right _ (List.mem_cons_of_mem _ he)
    · exact he
  have hothers : ∀ e ∈ front ++ back,
      inOrder .faults (fun s => faultsWithin corpus (steps + 3) .faults scope s e.2 ([] ++ [.key e.1]))
        (namedSchemas (some (fields n owner)) none e.1) = some [] := by
    intro e he
    obtain ⟨s, hs', hpass⟩ := hfields e (hold e he)
    rw [namedSchemas_named, hs']
    exact inOrder_eq_nil.mpr (List.forall_mem_singleton.mpr hpass)
  have hnamed : ∀ e ∈ Keyed.insert event "metadata"
      (.obj (Keyed.insert metadata "event_type" (.str name))),
      namedSchemas (some (fields n owner)) none e.1 ≠ [] := by
    intro e he
    rcases Keyed.mem_of_mem_insert he with rfl | he
    · simp [namedSchemas_named, hschema]
    · obtain ⟨s, hs', -⟩ := hfields e he
      simp [namedSchemas_named, hs']
  have hkeys : ∀ key ∈ dataChangeKeys, ∃ value, Keyed.find? (Keyed.insert event "metadata"
      (.obj (Keyed.insert metadata "event_type" (.str name)))) key = some value := by
    intro key hkey
    by_cases hne : key = "metadata"
    · subst hne
      exact ⟨_, Keyed.find?_insert_self⟩
    · rw [Keyed.find?_insert_of_ne hne]
      exact hrequired key hkey
  rw [faultsWithin, relabelled, schemaFaults_obj (envelope_find? h (by decide)),
    envelope_inside h, memberFaults_envelope h hkeys, closedFaults_named hnamed,
    inOrder_only hinsert (fun e he => hothers e (List.mem_append_left _ he))
      fun e he => hothers e (List.mem_append_right _ he), namedSchemas_named, hschema]
  exact (inOrder_only (List.nil_append _).symm (List.forall_mem_nil _) (List.forall_mem_nil _)).trans
    (faults_relabelledMetadata hwell hname)

-- ---------------------------------------------------------------------------
-- Both checks
-- ---------------------------------------------------------------------------

def wrongType (name : String) : Rejection :=
  ⟨"#/metadata/event_type: " ++ name ++ " is not a valid enum value"⟩

theorem size_relabelled (hmetadata : Keyed.find? event "metadata" = some (.obj metadata))
    (htype : ∀ x, Keyed.find? metadata "event_type" = some x → x = .str n) :
    (Json.obj event).size ≤ (relabelled event metadata name).size := by
  rw [relabelled, Json.size, Json.size]
  apply Nat.add_le_add_left
  apply Json.sizeMembers_le_insert
  intro old hold
  obtain rfl := Option.some.inj (hmetadata.symm.trans hold)
  rw [Json.size, Json.size]
  apply Nat.add_le_add_left
  apply Json.sizeMembers_le_insert
  intro old hold
  rw [htype old hold]
  exact Nat.le_refl _

theorem metadataRejection_relabelled (hname : name ≠ n) :
    EventCheck.metadataRejection n (relabelled event metadata name) = some (wrongType name) := by
  have hmember : (relabelled event metadata name).member? "metadata" =
      some (.obj (Keyed.insert metadata "event_type" (.str name))) := Keyed.find?_insert_self
  have htype : EventCheck.eventTypeRejection n
      (Keyed.insert metadata "event_type" (.str name)) = some (wrongType name) := by
    rw [EventCheck.eventTypeRejection, Keyed.find?_insert_self]
    exact if_neg fun h => hname (Option.some.inj h)
  rw [EventCheck.metadataRejection, hmember, Option.bind_eq_bind, Option.bind_some, Json.obj?,
    Option.bind_eq_bind, Option.bind_some, htype]
  rfl

/-- An event is rejected because it does not tell the time. -/
def IsWrongTime (x : Json) (r : Rejection) : Prop :=
  ∃ text, x.at? [.key "metadata", .key "occurred_at"] = some (.str text) ∧
    Timestamp.read text = none ∧
      r = ⟨"#/metadata/occurred_at: [" ++ text ++ "] is not a valid date-time"⟩

theorem isWrongTime {r : Rejection}
    (hmetadata : Keyed.find? event "metadata" = some (.obj metadata))
    (hwell : WellFormed n metadata)
    (h : EventCheck.metadataRejection n (.obj event) = some r) : IsWrongTime (.obj event) r := by
  obtain ⟨text, htext⟩ := hwell.occurredAt
  have htype := eventTypeRejection_eq_none.mpr hwell.eventType
  have hmember : (Json.obj event).member? "metadata" = some (.obj metadata) := hmetadata
  have htime : EventCheck.occurredAtRejection metadata = some r := by
    rw [EventCheck.metadataRejection, hmember, Option.bind_eq_bind, Option.bind_some, Json.obj?,
      Option.bind_eq_bind, Option.bind_some, htype] at h
    exact h
  simp only [EventCheck.occurredAtRejection, htext, Option.bind_some, Json.str?,
    Option.ite_none_left_eq_some, Bool.not_eq_true, Option.isSome_eq_false_iff,
    Option.isNone_iff_eq_none, Option.some.injEq] at htime
  refine ⟨text, ?_, htime.1, htime.2.symm⟩
  rw [at?_key, hmember, Option.bind_some, at?_key]
  simp [Json.member?, htext, at?_nil]

/-- Two checks reject an event in the same words, so that the order does not matter in which they
stand in a pipeline, whatever stands before, between and behind them. -/
structure SameRejection (n : String) (one other : EventCheck) (x : Json) (r : Rejection) : Prop where
  byOne : one.run x = some r
  byOther : other.run x = some r
  inOrder : ∀ front middle back : List EventCheck,
    EventValidator.validate ⟨n, front ++ one :: (middle ++ other :: back)⟩ x =
      (EventValidator.validate ⟨n, front⟩ x).or (some r)
  reversed : ∀ front middle back : List EventCheck,
    EventValidator.validate ⟨n, front ++ other :: (middle ++ one :: back)⟩ x =
      (EventValidator.validate ⟨n, front⟩ x).or (some r)

theorem sameRejection {one other : EventCheck} {r : Rejection} (h : one.run x = some r)
    (h' : other.run x = some r) : SameRejection n one other x r := by
  refine ⟨h, h', ?_, ?_⟩
  · intro front middle back
    simp [EventValidator.validate, List.findSome?_append, h]
  · intro front middle back
    simp [EventValidator.validate, List.findSome?_append, h']

-- ---------------------------------------------------------------------------
-- The schema and the check of the metadata
-- ---------------------------------------------------------------------------

variable {c : CompiledSchema}

theorem standardValidator_dataChange (hcat : t.category = .dataChange)
    (hv : standardValidator draft t = .ok v) :
    ∃ owner head c outcome, t.schema = .obj owner ∧ Head owner head ∧
      c.corpus.root = .obj (envelope t.name owner head) ∧
        v = ⟨t.name, [.conforms c, .metadata t.name, .verdict outcome]⟩ := by
  obtain ⟨effective, c, he, hc, rfl⟩ := (standardValidator_ok (by rw [hcat]; rfl)).mp hv
  rw [hcat] at he
  obtain ⟨owner, head, howner, hhead, rfl⟩ := enrich_dataChange_ok he
  obtain ⟨base, named, -, -, -, -, rfl⟩ := Schema.compile_ok.mp hc
  exact ⟨owner, head, _, _, howner, hhead, rfl, rfl⟩

theorem conforms_wellFormed (h : Head owner head)
    (hroot : c.corpus.root = .obj (envelope n owner head)) (hx : Conforms c x) :
    ∃ event metadata, x = .obj event ∧ Keyed.find? event "metadata" = some (.obj metadata) ∧
      WellFormed n metadata := by
  obtain ⟨k, hk⟩ := enoughSteps_pieces c.corpus x
  rw [Conforms, hroot, hk] at hx
  obtain ⟨event, rfl, hrequired, hfields⟩ := (passes_envelope h).mp hx
  obtain ⟨value, hvalue⟩ := hrequired "metadata" (by decide)
  have hschema : Keyed.find? (fields n owner) "metadata" = some (metadataSchema n) := rfl
  obtain ⟨metadata, rfl, hwell⟩ := passes_metadataSchema_iff.mp (passes_field hfields hschema hvalue)
  exact ⟨event, metadata, rfl, hvalue, hwell⟩

theorem violations_relabelled (h : Head owner head) (hs : Keyed.Sorted event)
    (hroot : c.corpus.root = .obj (envelope n owner head)) (hx : Conforms c (.obj event))
    (hmetadata : Keyed.find? event "metadata" = some (.obj metadata))
    (hwell : WellFormed n metadata) (hname : name ≠ n) :
    c.violations (relabelled event metadata name) =
      some [⟨"/metadata/event_type", name ++ " is not a valid enum value"⟩] := by
  have hsize : (Json.obj event).size ≤ (relabelled event metadata name).size :=
    size_relabelled hmetadata hwell.eventType
  have hmore := faultsWithin_mono (enoughSteps_mono (Nat.le_refl c.corpus.root.size) hsize) hx
  obtain ⟨k, hk⟩ := enoughSteps_pieces c.corpus (relabelled event metadata name)
  rw [hroot, hk] at hmore
  rw [CompiledSchema.violations, Evaluation.faults, hroot, hk,
    faults_relabelled h hs hmore hmetadata hname]
  rfl

theorem run_conforms_relabelled
    (h : c.violations x = some [⟨"/metadata/event_type", name ++ " is not a valid enum value"⟩]) :
    (EventCheck.conforms c).run x = some (wrongType name) := by
  have hplace : "#" ++ "/metadata/event_type" ++ ": " = "#/metadata/event_type: " := by decide
  have htext : Violation.text ⟨"/metadata/event_type", name ++ " is not a valid enum value"⟩ =
      "#/metadata/event_type: " ++ name ++ " is not a valid enum value" := by
    rw [Violation.text, hplace, String.append_assoc]
  rw [EventCheck.run, h, EventCheck.schemaRejection, Rejection.ofViolations, htext]
  rfl

/-- The schema and the check of the metadata agree about the event type of a data change. -/
theorem eventType_checks_agree (hcat : t.category = .dataChange)
    (hv : standardValidator draft t = .ok v) :
    ∃ c outcome, v = ⟨t.name, [.conforms c, .metadata t.name, .verdict outcome]⟩ ∧
      (∀ x : Json, x.Canonical → (EventCheck.conforms c).run x = none →
        ∀ r, (EventCheck.metadata t.name).run x = some r → IsWrongTime x r) ∧
      ∀ x : Json, x.Canonical → (EventCheck.conforms c).run x = none →
        (EventCheck.metadata t.name).run x = none →
          ∃ event metadata, x = .obj event ∧
            Keyed.find? event "metadata" = some (.obj metadata) ∧
              ∀ name ≠ t.name, SameRejection t.name (.conforms c) (.metadata t.name)
                (relabelled event metadata name) (wrongType name) := by
  obtain ⟨owner, head, c, outcome, -, hhead, hroot, rfl⟩ := standardValidator_dataChange hcat hv
  refine ⟨c, outcome, rfl, ?_, ?_⟩
  · intro x hx hpass r hr
    obtain ⟨event, metadata, rfl, hmetadata, hwell⟩ :=
      conforms_wellFormed hhead hroot (run_conforms_eq_none.mp hpass)
    exact isWrongTime hmetadata hwell hr
  · intro x hx hpass hfits
    have hconforms := run_conforms_eq_none.mp hpass
    obtain ⟨event, metadata, rfl, hmetadata, hwell⟩ := conforms_wellFormed hhead hroot hconforms
    refine ⟨event, metadata, rfl, hmetadata, ?_⟩
    intro name hname
    have hviolations := violations_relabelled hhead hx.1 hroot hconforms hmetadata hwell hname
    apply sameRejection (run_conforms_relabelled hviolations)
    rw [EventCheck.run, metadataRejection_relabelled hname]

theorem orderCreated_relabelled : ∃ v, standardValidator .draft7 teaOrder = .ok v ∧
    v.validate (.obj (orderCreated 2)) = none ∧
      v.validate (relabelled (orderCreated 2) orderMetadata "invoice") =
        some (wrongType "invoice") := by
  obtain ⟨effective, dataSchema, henrich, hdata, hpass, -⟩ := teaOrder_data
  have hc := teaOrder_compiled henrich
  have hv := (standardValidator_ok (t := teaOrder) rfl).mpr ⟨_, _, henrich, hc, rfl⟩
  obtain ⟨_, _, ⟨⟩, -, hagree⟩ := eventType_checks_agree rfl hv
  obtain ⟨_, head, ⟨⟩, hhead, rfl⟩ := enrich_dataChange_ok henrich
  obtain rfl := Option.some.inj ((envelope_data hhead).symm.trans hdata)
  have hevent : IsDataChange "order" (orderCreated 2) := orderCreated_isDataChange
  obtain ⟨metadata, hmetadata, hwell, htimed⟩ := hevent.metadata
  obtain rfl : orderMetadata = metadata := Json.obj.inj (Option.some.inj hmetadata)
  have hconforms := conforms_dataChange hhead rfl orderCreated_canonical.1 hevent rfl hpass
  have hfits : EventCheck.metadataRejection "order" (.obj (orderCreated 2)) = none :=
    (metadataRejection_dataChange hmetadata hwell).mpr htimed
  refine ⟨_, hv, validate_eq_none.mpr ⟨hconforms, hfits, ?_⟩, ?_⟩
  · rw [teaOrder_declared]
    rfl
  · obtain ⟨_, _, ⟨⟩, hmetadata', hsame⟩ :=
      hagree _ orderCreated_canonical (run_conforms_eq_none.mpr hconforms) hfits
    obtain rfl := Json.obj.inj (Option.some.inj (hmetadata.symm.trans hmetadata'))
    exact (hsame "invoice" (by decide)).inOrder [] [] _

end EventAdmission
