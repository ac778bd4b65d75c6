/-!
# Arguments of the command line

The command line is a command with its operands and options, with two options that may stand before
or after it.  `Request.parse` walks through the arguments from left to right and gives the request,
or a refusal; the request for help or for the version is answered as soon as it is met, whatever
comes after it.

An option takes its value from the same argument after an equals sign or from the next argument, and
the value of the next argument is examined only when something follows that needs it to be in order.
-/

namespace RoutePriority.CommandLine

/-- Which priorities are asked for. -/
inductive DirectionChoice where
  | forward
  | backward
  | both
  deriving DecidableEq

/-- The choice that a word names. -/
def DirectionChoice.ofName? (name : String) : Option DirectionChoice :=
  if name = "forward" then some forward
  else if name = "backward" then some backward
  else if name = "both" then some both
  else none

/-- What is asked for. -/
inductive Command where
  /-- Check a profile. -/
  | check (profile : String)
  /-- Rate an edge with the given values by a profile. -/
  | eval (profile : String) (assignments : List String) (choice : DirectionChoice)
  /-- List the road attributes. -/
  | attributes
  deriving DecidableEq

/-- A command with the options that all commands share. -/
structure Request where
  command : Command
  /-- The directory of the profiles, if it is not the default one. -/
  directory : Option String
  /-- Whether all events are reported. -/
  verbose : Bool
  deriving DecidableEq

/-- What a command line gives if it is no request. -/
inductive Refusal where
  /-- The arguments are not in order. -/
  | usage
  /-- Help is asked for. -/
  | help
  /-- The version is asked for. -/
  | version
  deriving DecidableEq

/-- An option with a value. -/
inductive ValueOption where
  | directory
  | assignment
  | choice
  deriving DecidableEq

/-- The commands, by name. -/
inductive CommandName where
  | check
  | eval
  | attributes
  deriving DecidableEq

namespace CommandName

/-- The command of the given name. -/
def ofName? (name : String) : Option CommandName :=
  if name = "check" then some check
  else if name = "eval" then some eval
  else if name = "attributes" then some attributes
  else none

/-- Whether the command takes the name of a profile. -/
def takesProfile : CommandName → Bool
  | check | eval => true
  | attributes => false

end CommandName

/-- The option with a value of the given name, before a command or after the given one. -/
def ValueOption.ofName? (command : Option CommandName) (name : String) : Option ValueOption :=
  if name = "profiles-dir" then some directory
  else if command ≠ some .eval then none
  else if name = "set" then some assignment
  else if name = "direction" then some choice
  else none

/-- What has been read on one side of the command. -/
structure Settings where
  directory : Option String
  verbose : Bool
  assignments : List String
  choice : Option DirectionChoice
  profile : Option String
  /-- An option whose value must come next. -/
  awaiting : Option ValueOption
  /-- An option whose value has not been examined. -/
  pending : Option (ValueOption × String)

namespace Settings

/-- Nothing. -/
def none : Settings := ⟨.none, false, [], .none, .none, .none, .none⟩

/-- The settings with the value of an option.  Only assignments may be repeated, a directory has a
name, and a choice must be one. -/
def assign (settings : Settings) (name : ValueOption) (value : String) :
    Except Refusal Settings :=
  match name with
  | .directory =>
    if settings.directory.isSome || value.isEmpty then .error .usage
    else .ok { settings with directory := some value }
  | .assignment => .ok { settings with assignments := settings.assignments ++ [value] }
  | .choice =>
    match settings.choice, DirectionChoice.ofName? value with
    | .none, some choice => .ok { settings with choice := some choice }
    | _, _ => .error .usage

/-- The settings with the pending value examined; no value may be missing. -/
def settle (settings : Settings) : Except Refusal Settings :=
  match settings.awaiting, settings.pending with
  | some _, _ => .error .usage
  | .none, .none => .ok settings
  | .none, some (name, value) => { settings with pending := .none }.assign name value

/-- The settings with all events reported, which may be asked for once. -/
def beVerbose (settings : Settings) : Except Refusal Settings := do
  let settings ← settings.settle
  if settings.verbose then throw .usage
  return { settings with verbose := true }

/-- The settings after the letters of an argument with one dash. -/
def letters (command : Option CommandName) (settings : Settings) :
    List Char → Except Refusal Settings
  | [] => .ok settings
  | 'v' :: rest => do letters command (← settings.beVerbose) rest
  | 'h' :: _ => do
    let _ ← settings.settle
    throw .help
  | 'V' :: _ => do
    let _ ← settings.settle
    throw (if command.isNone then .version else .usage)
  | _ :: _ => .error .usage

/-- The settings after an option without a value; nothing may follow an equals sign. -/
def flag (command : Option CommandName) (settings : Settings) (name : String)
    (attached : Option String) : Except Refusal Settings := do
  if attached.isSome then throw .usage
  if name = "verbose" then settings.beVerbose
  else if name = "help" then
    let _ ← settings.settle
    throw .help
  else if name = "version" && command.isNone then
    let _ ← settings.settle
    throw .version
  else throw .usage

/-- The settings after an option with its full name; `attached` is what follows an equals sign. -/
def long (command : Option CommandName) (settings : Settings) (name : String)
    (attached : Option String) : Except Refusal Settings :=
  match ValueOption.ofName? command name, attached with
  | .none, _ => settings.flag command name attached
  | some option, some value => do (← settings.settle).assign option value
  | some option, .none => do return { ← settings.settle with awaiting := some option }

/-- The settings with an operand, which only the name of a profile can be. -/
def operand (command : Option CommandName) (settings : Settings) (value : String) :
    Except Refusal Settings := do
  let settings ← settings.settle
  if command.any CommandName.takesProfile && settings.profile.isNone then
    return { settings with profile := some value }
  else throw .usage

end Settings

/-- Whether an argument can only be a value: it does not start with a dash, or is nothing else. -/
def isPlain (argument : String) : Bool := !argument.startsWith "-" || argument == "-"

/-- The name and the attached value of an argument that starts with two dashes. -/
def longName? (argument : String) : Option (String × Option String) :=
  match argument.toList with
  | '-' :: '-' :: name =>
    let value := match name.dropWhile (· ≠ '=') with
      | [] => none
      | _ :: value => some (String.ofList value)
    some (String.ofList (name.takeWhile (· ≠ '=')), value)
  | _ => none

namespace Settings

/-- The settings after an option. -/
def option (command : Option CommandName) (settings : Settings) (argument : String) :
    Except Refusal Settings :=
  match longName? argument with
  | some (name, attached) => settings.long command name attached
  | .none => settings.letters command (argument.toList.drop 1)

/-- The settings with the value of the option that awaits one. -/
def supply (settings : Settings) (name : ValueOption) (argument : String) :
    Except Refusal Settings :=
  if isPlain argument then
    .ok { settings with awaiting := .none, pending := some (name, argument) }
  else .error .usage

end Settings

/-- Reads the arguments before the command or after the given one.  Before it, the reading stops at
the first plain argument, which must name a command or ask for help; the rest is given back. -/
def readArguments (command : Option CommandName) (settings : Settings) :
    List String → Except Refusal (Settings × List String)
  | [] => .ok (settings, [])
  | argument :: rest =>
    match settings.awaiting with
    | some name => do readArguments command (← settings.supply name argument) rest
    | none =>
      if argument = "--" then do
        return (← rest.foldlM (Settings.operand command) settings, [])
      else if !isPlain argument then do
        readArguments command (← settings.option command argument) rest
      else if command.isNone then .ok (settings, argument :: rest)
      else do readArguments command (← settings.operand command argument) rest

/-- The answer to a request for help on the given commands. -/
def helpOn : List String → Refusal
  | [] => .help
  | [name] => if (CommandName.ofName? name).isSome || name = "help" then .help else .usage
  | _ => .usage

namespace Request

/-- The command of a name with its settings. -/
def commandOf (name : CommandName) (settings : Settings) : Except Refusal Command :=
  match name, settings.profile with
  | .check, some profile => .ok (.check profile)
  | .eval, some profile =>
    .ok (.eval profile settings.assignments (settings.choice.getD .both))
  | .attributes, _ => .ok .attributes
  | _, none => .error .usage

/-- The request that the arguments make.  What is set after the command counts more than what is set
before it. -/
def parse (arguments : List String) : Except Refusal Request := do
  let (before, rest) ← readArguments none .none arguments
  match rest with
  | [] =>
    let _ ← before.settle
    throw .usage
  | word :: rest =>
    if word = "help" then throw (helpOn rest)
    match CommandName.ofName? word with
    | none => throw .usage
    | some name =>
      let (after, _) ← readArguments (some name) .none rest
      let after ← after.settle
      let command ← commandOf name after
      let before ← before.settle
      return ⟨command, after.directory <|> before.directory, after.verbose || before.verbose⟩

end Request

end RoutePriority.CommandLine
