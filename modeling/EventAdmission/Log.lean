import EventAdmission.Category
import EventAdmission.Json.Printer
import EventAdmission.Text.Quoted

/-!
# Log records

Everything that is worth a line in the log, as data. A record has a level and
a text. Records that belong to a request or to an event type start with their
context; in those every pair is followed by a blank, the last one too.
-/

namespace EventAdmission

/-- What a line is about: a request, an event type, both or neither. -/
structure LogContext where
  flowId : Option String := none
  eventType : Option String := none
deriving DecidableEq

namespace LogContext

def text (c : LogContext) : String :=
  match c.flowId, c.eventType with
  | some flow, some type => "[flow=" ++ flow ++ "] [event_type=" ++ type ++ "]"
  | some flow, none => "[flow=" ++ flow ++ "]"
  | none, some type => "[event_type=" ++ type ++ "]"
  | none, none => "[-]"

end LogContext

inductive LogLevel where
  | debug
  | info
  | warn
  | error
deriving DecidableEq

namespace LogLevel

def name : LogLevel → String
  | debug => "DEBUG"
  | info => "INFO"
  | warn => "WARN"
  | error => "ERROR"

end LogLevel

inductive LogRecord where
  | schemaEnriched (eventType : String) (category : Category) (required : Json)
  | slowPattern (pattern : String)
  | schemaCompiled (eventType : String) (category : Category)
  | fieldUndeclared (eventType field : String)
  | strategyDuplicate (name : String)
  | strategyRegistered (name kind : String)
  | registryBuilt (names : List String)
  | settingsLoaded (path : String)
  | settingsInvalid (category : Category) (strategy : String)
  | strategyMaterialized (eventType strategy : String)
  | validatorBuilt (eventType : String) (category : Category) (strategies : List String)
  | cacheReplaced (eventType : String)
  | cacheStored (eventType : String) (size : Nat)
  | cacheInvalidated (eventType : String)
  | cacheCleared
  | eventRejected (context : LogContext) (index : Nat) (eid : Option String) (detail : String)
  | batchValidated (context : LogContext) (received : Nat) (accepted : Bool)
      (failedIndex : Option Nat)
  | event (level : LogLevel) (context : LogContext) (name : String)
      (pairs : List (String × String))
deriving DecidableEq

namespace LogRecord

def level : LogRecord → LogLevel
  | schemaEnriched .. => .debug
  | slowPattern .. => .warn
  | schemaCompiled .. => .debug
  | fieldUndeclared .. => .warn
  | strategyDuplicate .. => .error
  | strategyRegistered .. => .debug
  | registryBuilt .. => .info
  | settingsLoaded .. => .info
  | settingsInvalid .. => .error
  | strategyMaterialized .. => .debug
  | validatorBuilt .. => .info
  | cacheReplaced .. => .info
  | cacheStored .. => .debug
  | cacheInvalidated .. => .info
  | cacheCleared => .info
  | eventRejected .. => .warn
  | batchValidated .. => .info
  | event level .. => level

def optional (text : Option String) : String :=
  match text with
  | some t => "Some(" ++ t ++ ")"
  | none => "None"

def flag (b : Bool) : String := if b then "true" else "false"

def withContext (context : LogContext) (name : String) (pairs : List (String × String)) : String :=
  context.text ++ " " ++ name ++ " " ++ String.join (pairs.map fun p => p.1 ++ "=" ++ p.2 ++ " ")

def text : LogRecord → String
  | schemaEnriched eventType category required =>
    "SCHEMA_ENRICHED event_type=" ++ eventType ++ " category=" ++ category.name
      ++ " required=" ++ required.text
  | slowPattern pattern =>
    "PATTERN_BACKTRACKING_FALLBACK pattern=" ++ Text.quote pattern ++ " engine=fancy-regex"
  | schemaCompiled eventType category =>
    "SCHEMA_COMPILED event_type=" ++ eventType ++ " category=" ++ category.name
  | fieldUndeclared eventType field =>
    "SIGNIFICANT_FIELD_UNDECLARED event_type=" ++ eventType ++ " field=" ++ field
  | strategyDuplicate name => "STRATEGY_DUPLICATE name=" ++ name
  | strategyRegistered name kind => "STRATEGY_REGISTERED name=" ++ name ++ " kind=" ++ kind
  | registryBuilt names => "STRATEGY_REGISTRY_BUILT strategies=" ++ Text.quoteAll names
  | settingsLoaded path => "VALIDATION_CONFIG_LOADED path=" ++ path
  | settingsInvalid category strategy =>
    withContext {} "VALIDATION_CONFIG_INVALID"
      [("category", Text.quote category.name), ("strategy", Text.quote strategy)]
  | strategyMaterialized eventType strategy =>
    withContext ⟨none, some eventType⟩ "STRATEGY_MATERIALIZE" [("strategy", Text.quote strategy)]
  | validatorBuilt eventType category strategies =>
    withContext ⟨none, some eventType⟩ "VALIDATOR_BUILT"
      [("category", Text.quote category.name), ("strategies", Text.quoteAll strategies)]
  | cacheReplaced eventType => "VALIDATOR_CACHE_REPLACED event_type=" ++ eventType
  | cacheStored eventType size =>
    "VALIDATOR_CACHE_STORED event_type=" ++ eventType ++ " size=" ++ toString size
  | cacheInvalidated eventType => "VALIDATOR_CACHE_INVALIDATED event_type=" ++ eventType
  | cacheCleared => "VALIDATOR_CACHE_CLEARED"
  | eventRejected context index eid detail =>
    withContext context "EVENT_REJECTED"
      [("index", toString index), ("eid", Text.quote (eid.getD "unknown")),
        ("detail", Text.quote detail)]
  | batchValidated context received accepted failedIndex =>
    withContext context "BATCH_VALIDATED"
      [("received", toString received), ("accepted", flag accepted),
        ("failed_index", optional (failedIndex.map toString))]
  | event _ context name pairs => withContext context name pairs

def line (r : LogRecord) : String := r.level.name ++ " " ++ r.text

end LogRecord

/-- A result with the records that were logged on the way to it, in order. -/
structure Logged (α : Type) where
  records : List LogRecord
  result : α

namespace Logged

variable {α β ε : Type}

def silent (x : α) : Logged α := ⟨[], x⟩

def map (f : α → β) (x : Logged α) : Logged β := ⟨x.records, f x.result⟩

/-- The second step runs only if the first one succeeds. -/
def andThen (x : Logged (Except ε α)) (f : α → Logged (Except ε β)) : Logged (Except ε β) :=
  match x.result with
  | .ok a => ⟨x.records ++ (f a).records, (f a).result⟩
  | .error e => ⟨x.records, .error e⟩

end Logged

end EventAdmission
