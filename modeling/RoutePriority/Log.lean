import RoutePriority.Priority.Error
import RoutePriority.Text.Quoted

/-!
# The log

Compiling specifications and activating profiles leaves an account: a list of events.  An event has
a level and a line of text.
-/

namespace RoutePriority

/-- How important an event is. -/
inductive LogLevel where
  | debug
  | info
  | warn
  deriving DecidableEq

/-- The name of a level. -/
def LogLevel.name : LogLevel → String
  | debug => "DEBUG"
  | info => "INFO"
  | warn => "WARN"

/-- Something that happened. -/
inductive LogEvent where
  /-- The table of an attribute was compiled. -/
  | tableCompiled (name : String) (kind : DomainKind) (rules : Nat)
  /-- A specification was compiled to the end. -/
  | modelCompiled (attributes rules : Nat)
  /-- A profile was read from a file. -/
  | profileLoaded (path profile : String)
  /-- A profile was activated under a name that was free. -/
  | profileActivated (profile : String)
  /-- A profile took the place of an active one. -/
  | profileReplaced (profile : String)
  /-- A profile did not compile. -/
  | profileRejected (profile : String) (error : CompileError)
  deriving DecidableEq

namespace LogEvent

/-- The level of an event. -/
def level : LogEvent → LogLevel
  | tableCompiled .. | profileLoaded .. => .debug
  | modelCompiled .. | profileActivated _ | profileReplaced _ => .info
  | profileRejected .. => .warn

/-- The text of an event after its level. -/
def message : LogEvent → String
  | tableCompiled name kind rules =>
    "compiled priority table attribute=" ++ Text.quote name ++ " kind=" ++ kind.name ++
      " rules=" ++ toString rules
  | modelCompiled attributes rules =>
    "compiled priority model attributes=" ++ toString attributes ++ " rules=" ++ toString rules
  | profileLoaded path profile => "loaded profile path=" ++ path ++ " profile=" ++ profile
  | profileActivated profile => "activated profile profile=" ++ profile
  | profileReplaced profile => "replaced active profile profile=" ++ profile
  | profileRejected profile error =>
    "profile rejected profile=" ++ profile ++ " error=" ++ error.message

/-- The line of an event. -/
def line (event : LogEvent) : String := event.level.name ++ " " ++ event.message

end LogEvent

end RoutePriority
