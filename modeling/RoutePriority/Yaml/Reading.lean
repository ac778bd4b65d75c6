import RoutePriority.Json.Value
import RoutePriority.Yaml.Meaning
import RoutePriority.Yaml.Node

/-!
# Reading YAML nodes

Nodes are read for what is expected at their place.  Aliases are followed where a node is looked at,
and an unknown member of a structure is not looked at, so what is in it does not matter.  Two bounds
keep a document from growing without end: containers nest at most 128 deep, and the number of
aliases that are followed is at most a hundred times the weight of the document.
-/

namespace RoutePriority.Yaml

/-- The most containers that may be nested in a document that is read. -/
def maxDepth : Nat := 128

/-- The most aliases that are followed for each beginning and end of a node. -/
def maxJumps : Nat := 100

/-- Reading a document, while the number of aliases that may still be followed goes down. -/
abbrev Reading := ReaderT Document (StateT Nat Option)

namespace Node

/-- The node itself, or the one that an alias stands for. -/
def follow (node : Node) : Reading Node := do
  match node with
  | reference mark =>
    match ← get, (← read).marked? mark with
    | left + 1, some target =>
      set left
      return target
    | _, _ => failure
  | node => return node

/-- The source text of a scalar, whatever its style and tag. -/
def text (node : Node) : Reading String := do
  match ← node.follow with
  | scalar _ _ _ text => return text
  | _ => failure

/-- The truth value of a plain scalar, or of a literal one with the tag of booleans. -/
def flag (node : Node) : Reading Bool := do
  match ← node.follow with
  | scalar _ tag style text =>
    let spelled := style = .plain || (style = .literal && tag == some (coreTag "bool"))
    match if spelled then bool? text else none with
    | some b => return b
    | none => failure
  | _ => failure

/-- Whether a node is left out: nothing or null is written for it. -/
def isAbsent (node : Node) : Reading Bool := do
  match ← node.follow with
  | scalar _ none .plain text => return text.isEmpty || isNull text
  | scalar _ (some tag) .plain text =>
    if tag = coreTag "null" then
      if isNull text then return true else failure
    else return false
  | _ => return false

/-- The entries of a mapping, for which there must be room; nothing is an empty mapping. -/
def entries (room : Nat) (node : Node) : Reading (List (Node × Node)) := do
  match ← node.follow with
  | mapping _ _ entries => if room = 0 then failure else return entries
  | scalar _ _ .plain "" => return []
  | _ => failure

/-- The items of a sequence, for which there must be room; nothing is an empty sequence. -/
def items (room : Nat) (node : Node) : Reading (List Node) := do
  match ← node.follow with
  | sequence _ _ items => if room = 0 then failure else return items
  | scalar _ _ .plain "" => return []
  | _ => failure

/-- The members of a structure with the given names, each at most once; others are left out. -/
def fields (room : Nat) (names : List String) (node : Node) : Reading (List (String × Node)) := do
  (← node.entries room).foldlM (fun found (key, value) => do
    let name ← key.text
    if !names.contains name then return found
    else if (found.lookup name).isSome then failure
    else return (name, value) :: found) []

/-- The only value of a type whose values are names: the scalar's text, or a local tag on nothing.
-/
def choice (node : Node) : Reading String := do
  match ← node.follow with
  | scalar _ tag style text =>
    match tag.bind localName? with
    | none => return text
    | some name =>
      if style = .plain && (text.isEmpty || isNull text) then return name else failure
  | _ => failure

/-- Whether a tag is local. -/
def isLocal (tag : Option Tag) : Bool := (tag.bind localName?).isSome

/-- The meaning of a scalar node. -/
def scalarMeaning (tag : Option Tag) (style : Style) (text : String) : Reading Meaning :=
  match meaning? tag style text with
  | some meaning => return meaning
  | none => failure

/-- The value that a meaning has in a document without types.  Numbers that are not finite have no
value but null. -/
def ofMeaning : Meaning → Reading Json
  | .null => return .null
  | .bool b => return .bool b
  | .integer n => if fits : FitsWord n then return .number (.integer n fits) else failure
  | .real x => if finite : x.isFinite = true then return .number (.real x finite) else return .null
  | .text s => return .string s

/-- The text of a node that must mean a text. -/
def meantText (node : Node) : Reading String := do
  match ← node.follow with
  | scalar _ tag style text =>
    match ← scalarMeaning tag style text with
    | .text s => return s
    | _ => failure
  | _ => failure

/-- The value of a node without types, whose containers nest at most `room` deep.  The names in
mappings must mean texts, and nothing may have a local tag. -/
def json (room : Nat) (node : Node) : Reading Json := do
  match ← node.follow with
  | scalar _ tag style text => ofMeaning (← scalarMeaning tag style text)
  | sequence _ tag items =>
    match room with
    | 0 => failure
    | room + 1 =>
      if isLocal tag then failure
      return .array (← items.mapM (json room))
  | mapping _ tag entries =>
    match room with
    | 0 => failure
    | room + 1 =>
      if isLocal tag then failure
      return .object (← entries.mapM fun (key, value) =>
        return (← key.meantText, ← json room value))
  | reference _ => failure

end Node

/-- What a reader makes of a text. -/
def Document.read? {α : Type} (reader : Node → Reading α) (text : String) : Option α := do
  let document ← Document.ofText? text
  let (value, _) ← ((reader document.root).run document).run (maxJumps * document.weight)
  return value

end RoutePriority.Yaml
