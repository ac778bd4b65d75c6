/-!
# Paths of profile files

Paths are texts with slashes between their parts.  Only two operations are needed: looking a name up
in a directory, and reading the extension that tells the format of a file.
-/

namespace RoutePriority.Path

/-- The path of a name as seen from a directory; a name that starts with a slash stands for itself.
-/
def join (directory name : String) : String :=
  if name.startsWith "/" then name
  else if directory.isEmpty || directory.endsWith "/" then directory ++ name
  else directory ++ "/" ++ name

/-- The parts of a path between its slashes. -/
def parts (path : List Char) : List (List Char) := path.splitOn '/'

/-- The last part of a path that names something: empty parts and parts that are a single dot do
not, and after two dots there is no name. -/
def fileName? (path : List Char) : Option (List Char) :=
  ((parts path).reverse.find? fun part => part ≠ [] && part ≠ ['.']).filter (· ≠ ['.', '.'])

/-- What follows the last dot of a name, unless the name has no other dot than its first character.
-/
def extensionOfName? (name : List Char) : Option (List Char) :=
  let backwards := name.reverse
  match backwards.dropWhile (· ≠ '.') with
  | [] | ['.'] => none
  | _ => some (backwards.takeWhile (· ≠ '.')).reverse

/-- The extension of a path. -/
def extension? (path : String) : Option String :=
  ((fileName? path.toList).bind extensionOfName?).map String.ofList

end RoutePriority.Path
