import RoutePriority.Attribute.Road
import RoutePriority.CommandLine.Arguments
import RoutePriority.Priority.Compile
import RoutePriority.Profile.Files

/-!
# Running a request

A request is answered with an exit code, a text for each of the two outputs, and the account of what
was done.  All commands work with the road attributes.
-/

namespace RoutePriority.CommandLine

/-- The version of the program. -/
def version : String := "0.1.0"

/-- The answer to a command line. -/
structure Answer where
  code : Nat
  output : String
  error : String
  log : List LogEvent

namespace Answer

/-- A successful answer. -/
def success (output : String) (log : List LogEvent) : Answer := ⟨0, output, "", log⟩

/-- The answer that reports a failure. -/
def failure (message : String) (log : List LogEvent) : Answer := ⟨1, "", "Error: " ++ message, log⟩

/-- The answer to what is no request. -/
def ofRefusal : Refusal → Answer
  | .usage => ⟨2, "", "", []⟩
  | .help => success "" []
  | .version => success ("edge-priority " ++ RoutePriority.CommandLine.version ++ "\n") []

end Answer

/-- A text filled up with spaces to the given width. -/
def padded (width : Nat) (text : String) : String :=
  text ++ String.ofList (List.replicate (width - text.length) ' ')

/-- Lines as a text. -/
def lines (lines : List String) : String := String.join (lines.map (· ++ "\n"))

/-! ## Assignments -/

/-- The parts of a text before and after the first occurrence of a character. -/
def splitAtFirst? (separator : Char) (text : List Char) : Option (List Char × List Char) :=
  match text.dropWhile (· ≠ separator) with
  | [] => none
  | _ :: after => some (text.takeWhile (· ≠ separator), after)

/-- Why an assignment is refused. -/
inductive AssignmentError where
  | noValue (assignment : String)
  | unknownAttribute (name : String)
  | refused (error : AttributeError)
  deriving DecidableEq

/-- The text of an error. -/
def AssignmentError.message : AssignmentError → String
  | noValue assignment => "expected NAME=VALUE, got '" ++ assignment ++ "'"
  | unknownAttribute name => "unknown attribute '" ++ name ++ "'"
  | refused error => error.message

/-- A text between blanks. -/
def textBetweenBlanks (text : List Char) : String := String.ofList (Text.trimmed text)

/-- The record with the value of an attribute set as `NAME=VALUE` or `NAME=FORWARD/BACKWARD` says.
-/
def assign (registry : Registry) (record : EdgeRecord) (assignment : String) :
    Except AssignmentError EdgeRecord :=
  match splitAtFirst? '=' assignment.toList with
  | none => .error (.noValue assignment)
  | some (name, value) =>
    let name := textBetweenBlanks name
    match registry.resolve? name with
    | none => .error (.unknownAttribute name)
    | some handle =>
      let written := match splitAtFirst? '/' value with
        | some (forward, backward) =>
          record.setTextDirectional handle (textBetweenBlanks forward) (textBetweenBlanks backward)
        | none => record.setText handle (textBetweenBlanks value)
      written.mapError .refused

/-- The record of an edge with the given assignments, in order. -/
def edgeOf (registry : Registry) (assignments : List String) : Except AssignmentError EdgeRecord :=
  assignments.foldlM (assign registry) (EdgeRecord.new registry)

/-! ## Reports -/

/-- The report on a valid profile: its size, and the rules of each attribute. -/
def checkReport (profile : Profile) (model : Model) : String :=
  let head := "Profile '" ++ profile.name ++ "' is valid: " ++ toString model.size ++
    " attribute(s), " ++ toString model.ruleCount ++ " rule(s)"
  let rule (rule : Rule) :=
    "    " ++ padded 16 rule.pattern.text ++ " " ++ Layout.plain.text rule.factor
  let table (table : CompiledTable) :=
    ("  " ++ table.handle.name ++ " (" ++ table.handle.kind.name ++ ")") :: table.rules.map rule
  lines (head :: model.tables.flatMap table)

/-- The report on the priorities of an edge. -/
def evalReport (profile : Profile) (model : Model) (edge : EdgeStore) (choice : DirectionChoice) :
    String :=
  let (forward, backward) := model.evaluateBoth edge
  let forward := Layout.plain.text forward
  let backward := Layout.plain.text backward
  match choice with
  | .forward => lines [forward]
  | .backward => lines [backward]
  | .both =>
    lines ["profile:  " ++ profile.name, "forward:  " ++ forward, "backward: " ++ backward]

/-- The list of the attributes of a registry. -/
def attributesReport (registry : Registry) : String :=
  let row (name kind directional values : String) :=
    padded 18 name ++ "  " ++ padded 12 kind ++ "  " ++ padded 11 directional ++ "  " ++ values
  let handleRow (handle : Handle) :=
    let values := match handle.kind with
      | .continuous => "<number>"
      | _ => String.intercalate ", " handle.values
    row handle.name handle.kind.name (if handle.directional then "yes" else "no") values
  lines (row "NAME" "KIND" "DIRECTIONAL" "VALUES" :: String.ofList (List.replicate 72 '-') ::
    registry.handles.map handleRow)

/-! ## Commands -/

/-- A profile with its compiled model. -/
structure Loaded where
  profile : Profile
  model : Model

/-- What loading and compiling a profile gives, with the account of it. -/
structure Loading where
  result : Except ProfileError Loaded
  log : List LogEvent

variable {m : Type → Type} [Monad m]

/-- Loads and compiles the profile of a name or path. -/
def loadModel (files : Files m) (registry : Registry) (name directory : String) : m Loading := do
  match ← Profile.locate files name directory with
  | .error error => return ⟨.error error, []⟩
  | .ok path =>
    match ← Profile.load files path with
    | .error error => return ⟨.error error, []⟩
    | .ok profile =>
      let compilation := Compilation.run profile.rules registry
      let log := .profileLoaded path profile.name :: compilation.log
      match compilation.result with
      | .error error => return ⟨.error (.compile error), log⟩
      | .ok model => return ⟨.ok ⟨profile, model⟩, log⟩

/-- Answers a command, with the profiles of a directory. -/
def Command.run (files : Files m) (registry : Registry) (directory : String) : Command → m Answer
  | .check name => do
    let { result, log } ← loadModel files registry name directory
    match result with
    | .error error => return .failure error.message log
    | .ok loaded => return .success (checkReport loaded.profile loaded.model) log
  | .eval name assignments choice => do
    let { result, log } ← loadModel files registry name directory
    match result with
    | .error error => return .failure error.message log
    | .ok loaded =>
      match edgeOf registry assignments with
      | .error error => return .failure error.message log
      | .ok record =>
        return .success (evalReport loaded.profile loaded.model record.store choice) log
  | .attributes => return .success (attributesReport registry) []

/-- Answers the arguments of a command line; profiles are looked up in the given directory unless
the arguments name another. -/
def run (files : Files m) (defaultDirectory : String) (arguments : List String) : m Answer := do
  match Request.parse arguments with
  | .error refusal => return .ofRefusal refusal
  | .ok request =>
    request.command.run files Road.registry (request.directory.getD defaultDirectory)

end RoutePriority.CommandLine
