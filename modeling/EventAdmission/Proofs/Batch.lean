import EventAdmission.Batch
import Mathlib.Data.List.Forall2

/-!
# Batches are all or nothing

`process_allOrNothing` says of every list of texts what becomes of each of them.
The events are run through one after the other; what has been reached after some
of them is an invariant of the run, and the items before a failure are put right
when the run is over.
-/

namespace EventAdmission

namespace Batch

variable {c : LogContext} {v : EventValidator} {raw detail : String} {done events : List String}
  {p : BatchProgress}

def Admits (v : EventValidator) (raw : String) : Prop :=
  ∃ event, Json.read raw = .ok event ∧ v.validate event = none

/-- A text is turned away for a reason: it cannot be read, or its event is rejected. -/
inductive Refuses (v : EventValidator) (raw : String) : String → Prop
  | unread {e : ReadError} (h : Json.read raw = .error e) :
      Refuses v raw ("failed to parse event: " ++ e.message)
  | rejected {event : Json} {rejection : Rejection} (h : Json.read raw = .ok event)
      (hr : v.validate event = some rejection) : Refuses v raw rejection.message

def CarriesEid (raw eid : String) : Prop :=
  ∃ event, Json.read raw = .ok event ∧
    event.at? [.key "metadata", .key "eid"] = some (.str eid)

theorem Admits.not_refuses (h : Admits v raw) : ¬Refuses v raw detail := by
  obtain ⟨event, hread, hnone⟩ := h
  rintro (hunread | ⟨hread', hsome⟩)
  · simp [hread] at hunread
  · cases hread.symm.trans hread'
    simp [hnone] at hsome

theorem peekEid_eq_some {eid : String} : peekEid raw = some eid ↔ CarriesEid raw eid := by
  unfold peekEid CarriesEid
  cases Json.read raw with
  | error e => simp
  | ok event =>
    simp only [eidOf, Option.bind_eq_some_iff, Except.ok.injEq, exists_eq_left']
    constructor
    · rintro ⟨x, hx, hstr⟩
      cases x <;> simp_all [Json.str?]
    · intro hx
      exact ⟨_, hx, rfl⟩

-- ---------------------------------------------------------------------------
-- One event
-- ---------------------------------------------------------------------------

theorem examine_cases (v : EventValidator) (raw : String) :
    (examine v raw = (peekEid raw, none) ∧ Admits v raw) ∨
      ∃ detail, examine v raw = (peekEid raw, some detail) ∧ Refuses v raw detail := by
  unfold examine peekEid
  cases hread : Json.read raw with
  | error e => exact .inr ⟨_, rfl, .unread hread⟩
  | ok event =>
    cases houtcome : v.validate event with
    | none => exact .inl ⟨by simp [houtcome], event, hread, houtcome⟩
    | some rejection => exact .inr ⟨_, by simp [houtcome], .rejected hread houtcome⟩

def validated (raw : String) : BatchItem := ⟨peekEid raw, .validated, .validating, ""⟩

def failed (raw detail : String) : BatchItem := ⟨peekEid raw, .failed, .validating, detail⟩

def aborted (raw : String) : BatchItem := ⟨peekEid raw, .aborted, .none, ""⟩

-- ---------------------------------------------------------------------------
-- The run
-- ---------------------------------------------------------------------------

/-- What a run has come to after some events: all of them are admitted, or one is the first that is
not. -/
inductive Reached (c : LogContext) (v : EventValidator) : List String → BatchProgress → Prop
  | sound {done : List String} (hdone : ∀ raw ∈ done, Admits v raw) :
      Reached c v done ⟨done.map validated, none, []⟩
  | broken {before after : List String} {raw detail : String}
      (hbefore : ∀ earlier ∈ before, Admits v earlier) (hraw : Refuses v raw detail) :
      Reached c v (before ++ raw :: after)
        ⟨before.map validated ++ failed raw detail :: after.map aborted, some before.length,
          [.eventRejected c before.length (peekEid raw) detail]⟩

theorem Reached.step (h : Reached c v done p) : Reached c v (done ++ [raw]) (advance c v p raw) := by
  cases h with
  | sound hdone =>
    obtain ⟨hexamined, hraw⟩ | ⟨detail, hexamined, hraw⟩ := examine_cases v raw
    · have hall : ∀ text ∈ done ++ [raw], Admits v text := by
        rw [List.forall_mem_append, List.forall_mem_singleton]
        exact ⟨hdone, hraw⟩
      have hnext : Reached c v (done ++ [raw]) _ := .sound hall
      simpa [advance, hexamined, validated] using hnext
    · have hnext : Reached c v (done ++ [raw]) _ := .broken hdone hraw
      simpa [advance, hexamined, failed] using hnext
  | @broken before after first detail hbefore hfirst =>
    have hnext : Reached c v (before ++ first :: (after ++ [raw])) _ := .broken hbefore hfirst
    simpa [advance, aborted] using hnext

theorem Reached.run (h : Reached c v done p) :
    Reached c v (done ++ events) (events.foldl (advance c v) p) := by
  induction events generalizing done p with
  | nil => simpa using h
  | cons raw events ih =>
    rw [List.foldl_cons, List.append_cons]
    exact ih h.step

theorem withdraw_broken {before after : List String} :
    withdraw before.length
        (before.map validated ++ failed raw detail :: after.map aborted) =
      before.map aborted ++ failed raw detail :: after.map aborted := by
  simp [withdraw, List.take_left', List.drop_left', validated, aborted]

/-- The result is that of a batch all of which is admitted, or of one with a first event that is
not. -/
inductive Ended (v : EventValidator) : List String → BatchResult → Prop
  | sound {flow : String} {events : List String} (hall : ∀ raw ∈ events, Admits v raw) :
      Ended v events ⟨flow, events.length, true, events.map validated⟩
  | broken {flow raw detail : String} {before after : List String}
      (hbefore : ∀ earlier ∈ before, Admits v earlier) (hraw : Refuses v raw detail) :
      Ended v (before ++ raw :: after) ⟨flow, (before ++ raw :: after).length, false,
        before.map aborted ++ failed raw detail :: after.map aborted⟩

theorem reached_end (c : LogContext) (v : EventValidator) (events : List String) :
    Reached c v events (events.foldl (advance c v) ⟨[], none, []⟩) := by
  have hstart : Reached c v [] ⟨[], none, []⟩ := .sound (by simp)
  exact hstart.run

theorem process_ended (context : PublishContext) (v : EventValidator) (events : List String) :
    Ended v events (process context v events).result := by
  have hrun := reached_end context.logContext v events
  generalize hp : events.foldl (advance context.logContext v) ⟨[], none, []⟩ = p at hrun
  cases hrun with
  | sound hall =>
    have hend : Ended v events ⟨context.flowId, _, _, _⟩ := .sound hall
    simpa [process, hp] using hend
  | @broken before after raw detail hbefore hraw =>
    have hend : Ended v (before ++ raw :: after) ⟨context.flowId, _, _, _⟩ := .broken hbefore hraw
    simpa [process, hp, withdraw_broken] using hend

-- ---------------------------------------------------------------------------
-- What becomes of each event
-- ---------------------------------------------------------------------------

def EndsAs (item : BatchItem) (status : PublishingStatus) (step : PublishingStep)
    (detail : String) : Prop :=
  item.status = status ∧ item.step = step ∧ item.detail = detail

/-- The first event that is turned away, by its place in the batch. -/
def FirstRefused (v : EventValidator) (events : List String) (i : Nat) (detail : String) : Prop :=
  (∃ raw, events[i]? = some raw ∧ Refuses v raw detail) ∧
    ∀ j < i, ∀ raw, events[j]? = some raw → Admits v raw

structure AllOrNothing (v : EventValidator) (events : List String) (result : BatchResult) :
    Prop where
  received : result.received = events.length
  /-- One item for each text in order, with the identifier that the text itself carries. -/
  eids : List.Forall₂ (fun raw item => ∀ eid, item.eid = some eid ↔ CarriesEid raw eid)
    events result.items
  accepted : result.accepted = true ↔ ∀ raw ∈ events, Admits v raw
  all : result.accepted = true → ∀ item ∈ result.items, EndsAs item .validated .validating ""
  nothing : result.accepted = false → ∃ i detail, FirstRefused v events i detail ∧
    ∀ j item, result.items[j]? = some item →
      if j = i then EndsAs item .failed .validating detail else EndsAs item .aborted .none ""

theorem eids_map {item : String → BatchItem} (h : ∀ raw, (item raw).eid = peekEid raw) :
    List.Forall₂ (fun raw item => ∀ eid, item.eid = some eid ↔ CarriesEid raw eid)
      events (events.map item) := by
  rw [List.forall₂_map_right_iff, List.forall₂_same]
  intro raw _ eid
  rw [h, peekEid_eq_some]

theorem broken_getElem? {before after : List String} {j : Nat} {item : BatchItem}
    (h : (before.map aborted ++ failed raw detail :: after.map aborted)[j]? = some item) :
    (j = before.length ∧ item = failed raw detail) ∨
      (j ≠ before.length ∧ ∃ text, item = aborted text) := by
  obtain hj | hj := Nat.lt_or_ge j before.length
  · rw [List.getElem?_append_left (by simpa using hj), List.getElem?_map,
      Option.map_eq_some_iff] at h
    obtain ⟨text, -, rfl⟩ := h
    exact .inr ⟨by omega, text, rfl⟩
  · obtain ⟨k, rfl⟩ := Nat.exists_eq_add_of_le hj
    cases k with
    | zero => exact .inl ⟨rfl, by simpa [eq_comm] using h⟩
    | succ k =>
      simp only [List.getElem?_append_right, List.length_map, hj, Nat.add_sub_cancel_left,
        List.getElem?_cons_succ, List.getElem?_map, Option.map_eq_some_iff] at h
      obtain ⟨text, -, rfl⟩ := h
      exact .inr ⟨by omega, text, rfl⟩

theorem Ended.allOrNothing {result : BatchResult} (h : Ended v events result) :
    AllOrNothing v events result := by
  cases h with
  | sound hall =>
    refine ⟨rfl, eids_map fun _ => rfl, by simpa using hall, ?_, by simp⟩
    intro _ item hitem
    obtain ⟨raw, -, rfl⟩ := List.mem_map.mp hitem
    exact ⟨rfl, rfl, rfl⟩
  | @broken _ raw detail before after hbefore hraw =>
    refine ⟨rfl, ?_, ?_, by simp, fun _ => ⟨before.length, detail, ⟨⟨raw, by simp, hraw⟩, ?_⟩, ?_⟩⟩
    · refine List.rel_append (eids_map fun _ => rfl) (.cons ?_ (eids_map fun _ => rfl))
      exact fun eid => peekEid_eq_some
    · simp only [Bool.false_eq_true, false_iff]
      intro hall
      exact (hall raw (by simp)).not_refuses hraw
    · intro j hj text htext
      rw [List.getElem?_append_left hj] at htext
      exact hbefore text (List.mem_of_getElem? htext)
    · intro j item hitem
      obtain ⟨rfl, rfl⟩ | ⟨hj, text, rfl⟩ := broken_getElem? hitem
      · rw [if_pos rfl]
        exact ⟨rfl, rfl, rfl⟩
      · rw [if_neg hj]
        exact ⟨rfl, rfl, rfl⟩

/-- Whatever the validator, a batch is taken or turned away as a whole, and the first event that
cannot be read or is rejected is the only one to have failed. -/
theorem process_allOrNothing (context : PublishContext) (v : EventValidator)
    (events : List String) : AllOrNothing v events (process context v events).result :=
  (process_ended context v events).allOrNothing

end Batch

end EventAdmission
