import EventAdmission.Settings.Source
import EventAdmission.Strategy.Registry

/-!
# Validation of events

A registry and settings that fit together build a validator for each event type:
the checks of its category's pipeline in order. An event is rejected by the
first check that finds something.
-/

namespace EventAdmission

inductive SetupError where
  | registry (e : RegistryError)
  | settings (e : SettingsError)
  | schema (e : SchemaError)

def SetupError.message : SetupError → String
  | registry e => e.message
  | settings e => e.message
  | schema e => e.message

/-- A registry that holds every strategy the settings name. -/
structure Validation where
  registry : Registry
  settings : Settings

structure EventValidator where
  eventType : String
  checks : List EventCheck

namespace EventValidator

def validate (v : EventValidator) (event : Json) : Option Rejection :=
  v.checks.findSome? fun check => check.run event

def summary (v : EventValidator) : String :=
  "EventTypeValidator \x7b event_type: " ++ Text.quote v.eventType ++ ", validators: "
    ++ toString v.checks.length ++ " \x7d"

end EventValidator

namespace Validation

def namedStrategies (s : Settings) : List (Category × String) :=
  Category.all.flatMap fun c => (s.pipeline c).map fun name => (c, name)

def unknownStrategy? (r : Registry) (s : Settings) : Option (Category × String) :=
  (namedStrategies s).find? fun e => !r.contains e.2

def new (r : Registry) (s : Settings) : Logged (Except SetupError Validation) :=
  match unknownStrategy? r s with
  | some (c, name) => ⟨[.settingsInvalid c name], .error (.settings (.unknownStrategy c name))⟩
  | none => .silent (.ok ⟨r, s⟩)

def standard (s : Settings) : Logged (Except SetupError Validation) :=
  ((Registry.standard s.draft).map (Except.mapError .registry)).andThen fun r => new r s

/-- The checks that strategies contribute, up to the first that cannot be materialized. -/
def materializeAll (v : Validation) (t : EventType) :
    List String → Logged (Except SetupError (List EventCheck))
  | [] => .silent (.ok [])
  | name :: names =>
    match v.registry.get name with
    | .error e => .silent (.error (.registry e))
    | .ok s =>
      let first := s.materialize t
      let logged : Logged (Except SetupError EventCheck) :=
        ⟨.strategyMaterialized t.name name :: first.records, first.result.mapError .schema⟩
      logged.andThen fun check =>
        (materializeAll v t names).map fun rest => rest.map (check :: ·)

def forType (v : Validation) (t : EventType) : Logged (Except SetupError EventValidator) :=
  let names := v.settings.pipeline t.category
  (materializeAll v t names).andThen fun checks =>
    ⟨[.validatorBuilt t.name t.category names], .ok ⟨t.name, checks⟩⟩

end Validation

end EventAdmission
