import EventAdmission.Log
import EventAdmission.Text.Blank

/-!
# Publish requests

A request names an event type and may bring a flow id, by which its log lines
can be found. A blank one is as good as none; then one is generated.
-/

namespace EventAdmission

structure PublishContext where
  flowId : String
  eventType : String
deriving DecidableEq

namespace PublishContext

/-- The context of a request; `fresh` is what a generated flow id ends in. -/
def new (eventType : String) (flowId : Option String) (fresh : String) : PublishContext :=
  let generated := "flow-" ++ fresh
  match flowId with
  | some id => ⟨if Text.isBlank id then generated else id, eventType⟩
  | none => ⟨generated, eventType⟩

def logContext (c : PublishContext) : LogContext := ⟨some c.flowId, some c.eventType⟩

end PublishContext

end EventAdmission
