import EventAdmission.Proofs.Batch

/-!
# What the log says of a batch

A warning is logged while the events are run through, and a summary when the
items before the failure have been put right. `process_traced`: both say what
the result says, the warning of the only item that failed and the summary of the
whole batch, and nothing else is logged.
-/

namespace EventAdmission

namespace Batch

variable {c : LogContext} {v : EventValidator} {i : Nat} {batch : Logged BatchResult}

def OnlyFailed (items : List BatchItem) (i : Nat) (item : BatchItem) : Prop :=
  items[i]? = some item ∧ item.status = .failed ∧
    ∀ j other, items[j]? = some other → other.status = .failed → j = i

def warningLine (c : LogContext) (i : Nat) (eid : Option String) (detail : String) : String :=
  "WARN " ++ c.text ++ " EVENT_REJECTED index=" ++ toString i
    ++ " eid=" ++ Text.quote (eid.getD "unknown") ++ " detail=" ++ Text.quote detail ++ " "

def summaryLine (c : LogContext) (received : Nat) (accepted failedIndex : String) : String :=
  "INFO " ++ c.text ++ " BATCH_VALIDATED received=" ++ toString received
    ++ " accepted=" ++ accepted ++ " failed_index=" ++ failedIndex ++ " "

/-- The log of a batch agrees with its result. -/
structure Traced (c : LogContext) (batch : Logged BatchResult) : Prop where
  accepted : batch.result.accepted = true →
    (∀ item ∈ batch.result.items, item.status ≠ .failed) ∧
    batch.records = [.batchValidated c batch.result.items.length true none] ∧
    batch.records.map LogRecord.line = [summaryLine c batch.result.items.length "true" "None"]
  refused : batch.result.accepted = false → ∃ i item, OnlyFailed batch.result.items i item ∧
    batch.records = [.eventRejected c i item.eid item.detail,
      .batchValidated c batch.result.items.length false (some i)] ∧
    batch.records.map LogRecord.line = [warningLine c i item.eid item.detail,
      summaryLine c batch.result.items.length "false" ("Some(" ++ toString i ++ ")")]

-- ---------------------------------------------------------------------------
-- Lines
-- ---------------------------------------------------------------------------

theorem withContext_eq {name : String} {pairs : List (String × String)} :
    LogRecord.withContext c name pairs = c.text ++ (" " ++ (name ++ (" " ++
      String.join (pairs.map fun p => p.1 ++ ("=" ++ (p.2 ++ " ")))))) := by
  simp only [LogRecord.withContext, String.append_assoc]

theorem line_eventRejected {eid : Option String} {detail : String} :
    (LogRecord.eventRejected c i eid detail).line = warningLine c i eid detail := by
  have hline : (LogRecord.eventRejected c i eid detail).line =
      "WARN" ++ " " ++ LogRecord.withContext c "EVENT_REJECTED" [("index", toString i),
        ("eid", Text.quote (eid.getD "unknown")), ("detail", Text.quote detail)] := rfl
  have hlevel : "WARN " = "WARN" ++ " " := rfl
  have hindex : " EVENT_REJECTED index=" =
      " " ++ ("EVENT_REJECTED" ++ (" " ++ ("index" ++ "="))) := rfl
  have heid : " eid=" = " " ++ ("eid" ++ "=") := rfl
  have hdetail : " detail=" = " " ++ ("detail" ++ "=") := rfl
  refine hline.trans ?_
  -- The equation of a definition with a long text in it takes seconds to make.
  delta warningLine
  simp only [withContext_eq, hlevel, hindex, heid, hdetail, String.join, List.map_cons, List.map_nil,
    List.foldl_cons, List.foldl_nil, String.append_assoc, String.empty_append]

theorem line_batchValidated {received : Nat} {accepted : Bool} {failedIndex : Option Nat} :
    (LogRecord.batchValidated c received accepted failedIndex).line =
      summaryLine c received (LogRecord.flag accepted)
        (LogRecord.optional (failedIndex.map toString)) := by
  have hline : (LogRecord.batchValidated c received accepted failedIndex).line =
      "INFO" ++ " " ++ LogRecord.withContext c "BATCH_VALIDATED" [("received", toString received),
        ("accepted", LogRecord.flag accepted),
        ("failed_index", LogRecord.optional (failedIndex.map toString))] := rfl
  have hlevel : "INFO " = "INFO" ++ " " := rfl
  have hreceived : " BATCH_VALIDATED received=" =
      " " ++ ("BATCH_VALIDATED" ++ (" " ++ ("received" ++ "="))) := rfl
  have haccepted : " accepted=" = " " ++ ("accepted" ++ "=") := rfl
  have hfailed : " failed_index=" = " " ++ ("failed_index" ++ "=") := rfl
  refine hline.trans ?_
  delta summaryLine
  simp only [withContext_eq, hlevel, hreceived, haccepted, hfailed, String.join, List.map_cons, List.map_nil,
    List.foldl_cons, List.foldl_nil, String.append_assoc, String.empty_append]

-- ---------------------------------------------------------------------------
-- The log of a run
-- ---------------------------------------------------------------------------

inductive Settled (c : LogContext) : Logged BatchResult → Prop
  | sound {flow : String} {events : List String} :
      Settled c ⟨[.batchValidated c events.length true none],
        ⟨flow, events.length, true, events.map validated⟩⟩
  | broken {flow raw detail : String} {before after : List String} :
      Settled c ⟨[.eventRejected c before.length (peekEid raw) detail,
          .batchValidated c (before ++ raw :: after).length false (some before.length)],
        ⟨flow, (before ++ raw :: after).length, false,
          before.map aborted ++ failed raw detail :: after.map aborted⟩⟩

theorem process_settled (context : PublishContext) (v : EventValidator) (events : List String) :
    Settled context.logContext (process context v events) := by
  have hrun := reached_end context.logContext v events
  generalize hp : events.foldl (advance context.logContext v) ⟨[], none, []⟩ = p at hrun
  cases hrun with
  | sound =>
    have hend : Settled context.logContext ⟨_, ⟨context.flowId, events.length, _, _⟩⟩ := .sound
    simpa [process, hp] using hend
  | @broken before after raw detail =>
    have hend : Settled context.logContext ⟨_, ⟨context.flowId, _, _,
      before.map aborted ++ failed raw detail :: after.map aborted⟩⟩ := .broken
    simpa [process, hp, withdraw_broken] using hend

theorem onlyFailed_broken {raw detail : String} {before after : List String} :
    OnlyFailed (before.map aborted ++ failed raw detail :: after.map aborted) before.length
      (failed raw detail) := by
  refine ⟨by simp, rfl, fun j other hother hfailed => ?_⟩
  obtain ⟨hj, -⟩ | ⟨-, text, rfl⟩ := broken_getElem? hother
  · exact hj
  · cases hfailed

theorem Settled.traced (h : Settled c batch) : Traced c batch := by
  cases h with
  | @sound flow events =>
    refine ⟨fun _ => ⟨?_, ?_, ?_⟩, by simp⟩
    · intro item hitem hfailed
      obtain ⟨raw, -, rfl⟩ := List.mem_map.mp hitem
      cases hfailed
    · rw [List.length_map]
    · rw [List.map_singleton, line_batchValidated, List.length_map]
      rfl
  | @broken flow raw detail before after =>
    have hlength : (before.map aborted ++ failed raw detail :: after.map aborted).length =
        (before ++ raw :: after).length := by simp
    refine ⟨by simp, fun _ => ⟨_, _, onlyFailed_broken, ?_, ?_⟩⟩
    · rw [hlength]
      rfl
    · rw [List.map_cons, List.map_singleton, line_eventRejected, line_batchValidated, hlength]
      rfl

/-- Whatever the validator and the texts, the log of a batch tells of the one item that failed, if
there is one, and then sums up the result. -/
theorem process_traced (context : PublishContext) (v : EventValidator) (events : List String) :
    Traced context.logContext (process context v events) :=
  (process_settled context v events).traced

end Batch

end EventAdmission
