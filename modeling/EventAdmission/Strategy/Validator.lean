import EventAdmission.DeclaredField
import EventAdmission.Enrichment
import EventAdmission.EventType.Basic
import EventAdmission.Schema.Compile
import EventAdmission.Strategy.Kind
import EventAdmission.Timestamp

/-!
# Strategies and what they check

A strategy is materialized for an event type: the work that depends on the event
type alone is done once, and what is left checks single events. Schema
conformance compiles the effective schema, the metadata check compares the
envelope with the event type, and field presence knows its answer at once.

A schema may send the check of an event round in a circle, as `{"$ref": "#"}` does.
The broker gives no answer there, it runs out of stack. `EventCheck.run` is total all
the same and answers `EventCheck.unfinished`, which no event is ever told.
-/

namespace EventAdmission

inductive Strategy where
  | schemaConformance (draft : Draft)
  | metadataCrossField
  | fieldPresence
deriving DecidableEq

namespace Strategy

def kind : Strategy → StrategyKind
  | schemaConformance _ => .schemaConformance
  | metadataCrossField => .metadataCrossField
  | fieldPresence => .fieldPresence

/-- The strategy of a kind; only schema conformance depends on a draft. -/
def ofKind (draft : Draft) : StrategyKind → Strategy
  | .schemaConformance => schemaConformance draft
  | .metadataCrossField => metadataCrossField
  | .fieldPresence => fieldPresence

end Strategy

inductive EventCheck where
  | conforms (schema : CompiledSchema)
  | metadata (eventType : String)
  | verdict (outcome : Option Rejection)

/-- Why an event type has no validator because of its schema. -/
inductive SchemaError where
  | enrichment (e : EnrichmentError)
  | compilation (eventType : String) (e : CompileError)

def SchemaError.message : SchemaError → String
  | enrichment e => e.message
  | compilation t e => "schema of event type [" ++ t ++ "] failed to compile: " ++ e.message

namespace EventCheck

-- ---------------------------------------------------------------------------
-- Checks of single events
-- ---------------------------------------------------------------------------

/-- Stands where the check of an event does not come to an end. This is no answer of the broker,
which has none there: the text keeps `run` total, and is not what an event is rejected with. -/
def unfinished : Rejection := ⟨"#: schema evaluation does not terminate"⟩

/-- A declared event type must be the one the event is published under. -/
def eventTypeRejection (eventType : String) (metadata : Members) : Option Rejection :=
  match Keyed.find? metadata "event_type" with
  | none => none
  | some declared =>
    if declared.str? = some eventType then none
    else some ⟨"#/metadata/event_type: " ++ declared.display ++ " is not a valid enum value"⟩

/-- The time of occurrence must be a timestamp, if it is a string. -/
def occurredAtRejection (metadata : Members) : Option Rejection :=
  match (Keyed.find? metadata "occurred_at").bind Json.str? with
  | none => none
  | some text =>
    if (Timestamp.read text).isSome then none
    else some ⟨"#/metadata/occurred_at: [" ++ text ++ "] is not a valid date-time"⟩

/-- Presence and shape of the metadata are left to the schema. -/
def metadataRejection (eventType : String) (event : Json) : Option Rejection := do
  let metadata ← (← event.member? "metadata").obj?
  eventTypeRejection eventType metadata <|> occurredAtRejection metadata

/-- What the violations of an event come to; `none` is a check that does not end, for which
`unfinished` only holds the place. -/
def schemaRejection : Option (List Violation) → Option Rejection
  | some violations => Rejection.ofViolations violations
  | none => some unfinished

def run (check : EventCheck) (event : Json) : Option Rejection :=
  match check with
  | conforms schema => schemaRejection (schema.violations event)
  | metadata eventType => metadataRejection eventType event
  | verdict outcome => outcome

end EventCheck

namespace Strategy

-- ---------------------------------------------------------------------------
-- Materialization
-- ---------------------------------------------------------------------------

def compileLogged (draft : Draft) (t : EventType) (effective : Json) :
    Logged (Except SchemaError EventCheck) :=
  let warnings := (Schema.backtrackingPatterns effective).map LogRecord.slowPattern
  match Schema.compile draft effective with
  | .ok compiled => ⟨warnings ++ [.schemaCompiled t.name t.category], .ok (.conforms compiled)⟩
  | .error e => ⟨warnings, .error (.compilation t.name e)⟩

def materializeConformance (draft : Draft) (t : EventType) :
    Logged (Except SchemaError EventCheck) :=
  let enriched := Enrichment.enrichLogged t.category t.schema t.name
  Logged.andThen (enriched.map (Except.mapError .enrichment)) (compileLogged draft t)

def undeclared (field : String) : Rejection :=
  ⟨"#: significant field [" ++ field ++ "] is not declared in the schema"⟩

def missingField? (t : EventType) : Option String :=
  t.significantFields.find? fun field => !DeclaredField.isDeclared t.schema field

def materialize (s : Strategy) (t : EventType) : Logged (Except SchemaError EventCheck) :=
  match s with
  | schemaConformance draft => materializeConformance draft t
  | metadataCrossField => .silent (.ok (.metadata t.name))
  | fieldPresence =>
    match missingField? t with
    | some field => ⟨[.fieldUndeclared t.name field], .ok (.verdict (some (undeclared field)))⟩
    | none => .silent (.ok (.verdict none))

end Strategy

end EventAdmission
