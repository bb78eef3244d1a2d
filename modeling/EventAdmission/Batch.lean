import EventAdmission.Json.Reader
import EventAdmission.PublishContext
import EventAdmission.Validation

/-!
# Batches

The events of a request are accepted or turned away together. The first event
that cannot be read or is rejected fails; then all others are aborted, those
before it too.
-/

namespace EventAdmission

inductive PublishingStatus where
  | validated
  | failed
  | aborted
deriving DecidableEq

def PublishingStatus.name : PublishingStatus → String
  | validated => "validated"
  | failed => "failed"
  | aborted => "aborted"

inductive PublishingStep where
  | none
  | validating
deriving DecidableEq

def PublishingStep.name : PublishingStep → String
  | none => "none"
  | validating => "validating"

structure BatchItem where
  eid : Option String
  status : PublishingStatus
  step : PublishingStep
  detail : String
deriving DecidableEq

structure BatchResult where
  flowId : String
  received : Nat
  accepted : Bool
  items : List BatchItem
deriving DecidableEq

structure BatchProgress where
  items : List BatchItem
  failedIndex : Option Nat
  records : List LogRecord

namespace Batch

def eidOf (event : Json) : Option String :=
  (event.at? [.key "metadata", .key "eid"]).bind Json.str?

def peekEid (raw : String) : Option String :=
  match Json.read raw with
  | .ok event => eidOf event
  | .error _ => none

def examine (v : EventValidator) (raw : String) : Option String × Option String :=
  match Json.read raw with
  | .ok event => (eidOf event, (v.validate event).map Rejection.message)
  | .error e => (none, some ("failed to parse event: " ++ e.message))

/-- One more event: it is validated until one has failed, and after that aborted. -/
def advance (c : LogContext) (v : EventValidator) (p : BatchProgress) (raw : String) :
    BatchProgress :=
  match p.failedIndex with
  | some _ => { p with items := p.items ++ [⟨peekEid raw, .aborted, .none, ""⟩] }
  | none =>
    match examine v raw with
    | (eid, none) => { p with items := p.items ++ [⟨eid, .validated, .validating, ""⟩] }
    | (eid, some detail) =>
      { items := p.items ++ [⟨eid, .failed, .validating, detail⟩]
        failedIndex := some p.items.length
        records := p.records ++ [.eventRejected c p.items.length eid detail] }

def withdraw (failedIndex : Nat) (items : List BatchItem) : List BatchItem :=
  (items.take failedIndex).map (fun item => { item with status := .aborted, step := .none })
    ++ items.drop failedIndex

def process (c : PublishContext) (v : EventValidator) (events : List String) :
    Logged BatchResult :=
  let p := events.foldl (advance c.logContext v) ⟨[], none, []⟩
  let items := match p.failedIndex with
    | some index => withdraw index p.items
    | none => p.items
  let accepted := p.failedIndex.isNone
  ⟨p.records ++ [.batchValidated c.logContext events.length accepted p.failedIndex],
    ⟨c.flowId, events.length, accepted, items⟩⟩

end Batch

end EventAdmission
