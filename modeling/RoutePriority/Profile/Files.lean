import RoutePriority.Document.Json
import RoutePriority.Document.Yaml
import RoutePriority.Log
import RoutePriority.Profile.Path

/-!
# Profile files

A profile is asked for by the path of its file or by a name that is looked up in a directory, with
the extensions of the supported formats in order.  The extension of a file decides how it is read.

Files are seen through `Files`, in whatever monad gives access to them.
-/

namespace RoutePriority

/-- Access to files by their paths. -/
structure Files (m : Type → Type) where
  /-- Whether there is a file, and no directory, at a path. -/
  isFile : String → m Bool
  /-- The text of a file, if it can be read and is one. -/
  text? : String → m (Option String)

/-- A format of profile documents. -/
inductive ProfileFormat where
  | json
  | yaml
  deriving DecidableEq

namespace ProfileFormat

/-- The extensions of profile files, in the order in which they are tried. -/
def extensions : List String := ["yml", "yaml", "json"]

/-- The format that an extension stands for, in any case. -/
def ofExtension? (extension : String) : Option ProfileFormat :=
  let extension := String.ofList (extension.toList.map Char.toLower)
  if extension = "json" then some json
  else if extension = "yml" || extension = "yaml" then some yaml
  else none

/-- The format of the file at a path. -/
def ofPath? (path : String) : Option ProfileFormat := (Path.extension? path).bind ofExtension?

end ProfileFormat

/-- Why a profile cannot be had. -/
inductive ProfileError where
  | unreadable
  | malformed (format : ProfileFormat)
  | unsupportedFormat (path : String)
  | notFound (name : String)
  | compile (error : CompileError)
  deriving DecidableEq

/-- The text of an error. -/
def ProfileError.message : ProfileError → String
  | unreadable => "IO error"
  | malformed .json => "JSON error"
  | malformed .yaml => "YAML error"
  | unsupportedFormat path =>
    "Unsupported profile format '" ++ path ++ "', expected .json, .yml or .yaml"
  | notFound name => "Profile not found: " ++ name
  | compile error => error.message

namespace Profile

/-- The profile that a text holds in a format. -/
def ofText (format : ProfileFormat) (text : String) : Except ProfileError Profile :=
  let profile? := match format with
    | .json => ofJsonText? text
    | .yaml => ofYamlText? text
  match profile? with
  | some profile => .ok profile
  | none => .error (.malformed format)

variable {m : Type → Type} [Monad m]

/-- The first of the paths at which there is a file. -/
def firstFile? (files : Files m) : List String → m (Option String)
  | [] => return none
  | path :: paths => do if ← files.isFile path then return some path else firstFile? files paths

/-- The paths at which a profile is looked for: its name as it is, then its files in the directory.
-/
def candidates (name directory : String) : List String :=
  name :: ProfileFormat.extensions.map fun extension =>
    Path.join directory (name ++ "." ++ extension)

/-- The path of the file that a name or a path stands for. -/
def locate (files : Files m) (name directory : String) : m (Except ProfileError String) := do
  match ← firstFile? files (candidates name directory) with
  | some path => return .ok path
  | none => return .error (.notFound name)

/-- The profile in the file at a path. -/
def load (files : Files m) (path : String) : m (Except ProfileError Profile) := do
  match ProfileFormat.ofPath? path with
  | none => return .error (.unsupportedFormat path)
  | some format =>
    match ← files.text? path with
    | none => return .error .unreadable
    | some text => return ofText format text

end Profile

/-- The directory in which a user keeps profiles: below the directory for settings if there is an
absolute one, else below the home directory. -/
def defaultProfilesDirectory (settings home : Option String) : String :=
  let base := match settings.filter (·.startsWith "/") with
    | some settings => settings
    | none => Path.join (home.getD "") ".config"
  Path.join (Path.join base "edge-priority") "profiles"

end RoutePriority
