import EventAdmission.Log
import EventAdmission.Settings

/-!
# Where settings come from

Settings are standard, or given as text, or named by a path. A file that cannot
be read and a text that is no settings text are faults, and so is a pipeline
with a strategy that nobody has registered.
-/

namespace EventAdmission

inductive SettingsError where
  | unreadable (path reason : String)
  | malformed (e : ReadError)
  | unknownStrategy (category : Category) (name : String)
deriving DecidableEq

def SettingsError.message : SettingsError → String
  | unreadable path reason => "failed to read validation config " ++ path ++ ": " ++ reason
  | malformed e => "failed to parse validation config: " ++ e.message
  | unknownStrategy c name =>
    "category [" ++ c.name ++ "] references unknown strategy [" ++ name ++ "]"

inductive SettingsSource where
  | none
  | missing (path : String)
  | file (path content : String)

namespace Settings

def ofText (text : String) : Except SettingsError Settings := (read text).mapError .malformed

def load : SettingsSource → Logged (Except SettingsError Settings)
  | .none => .silent (.ok standard)
  | .missing path => .silent (.error (.unreadable path "No such file or directory (os error 2)"))
  | .file path content => ⟨[.settingsLoaded path], ofText content⟩

end Settings

end EventAdmission
