import RoutePriority.Attribute.Definition
import RoutePriority.Json.Tree
import RoutePriority.Priority.Error
import RoutePriority.Profile.Basic

/-!
# Profiles, specifications and definitions as JSON

Every document type has a writer into `Json` values and a reader from `Json.Tree`s.  A table or a
specification is an object, and `null` reads as an empty one; a repeated name keeps its first place
and takes its last value.  A structure is an object with its fields, each at most once, among other
members that are passed over; or an array of its fields in order.  Fields that have a default may be
absent.

`room` is the number of containers that may be nested in what is read.
-/

namespace RoutePriority

open Json (Tree)

namespace Json.Tree

/-- The fields of a structure that are present.  Members with other names need only be well formed.
-/
def fields? (room : Nat) (names : List String) : Tree → Option (List (String × Tree))
  | array items =>
    if room = 0 ∨ names.length < items.length then none else some (names.zip items)
  | object members =>
    if room = 0 then none
    else members.foldlM (fun found (name, tree) => do
      let name ← name
      if !names.contains name then some found
      else if (found.lookup name).isSome then none
      else some ((name, tree) :: found)) []
  | _ => none

/-- The value of a whole text. -/
def read? {α : Type} (reader : Nat → Tree → Option α) (text : String) : Option α :=
  (ofText? text).bind (reader maxDepth)

end Json.Tree

namespace Factor

/-- The factor that a document holds: a number, a text, or any other value. -/
def ofTree? (room : Nat) : Tree → Option Factor
  | .number n => n.map fun n => .number n.toBinary64
  | .string s => s.map .text
  | tree => (tree.toJson? room).map fun json => .other (.ofJson json)

/-- The factor that a JSON text holds. -/
def ofJsonText? (text : String) : Option Factor := Tree.read? ofTree? text

/-- The JSON text of a factor. -/
def jsonText (factor : Factor) : String := factor.toJson.text

end Factor

namespace OrderedMap

/-- The map that an object holds, with values of a given reader; `null` is the empty map. -/
def ofTree? {α : Type} (reader : Nat → Tree → Option α) (room : Nat) : Tree → Option (OrderedMap α)
  | .null => some .empty
  | tree => do
    let members ← tree.members? room
    let entries ← members.mapM fun (name, tree) => (reader (room - 1) tree).map (name, ·)
    return .ofList entries

end OrderedMap

namespace RuleTable

/-- The table that a document holds. -/
def ofTree? (room : Nat) (tree : Tree) : Option RuleTable :=
  OrderedMap.ofTree? Factor.ofTree? room tree

/-- The table that a JSON text holds. -/
def ofJsonText? (text : String) : Option RuleTable := Tree.read? ofTree? text

end RuleTable

namespace Specification

/-- The specification that a document holds. -/
def ofTree? (room : Nat) (tree : Tree) : Option Specification :=
  OrderedMap.ofTree? RuleTable.ofTree? room tree

/-- The specification that a JSON text holds. -/
def ofJsonText? (text : String) : Option Specification := Tree.read? ofTree? text

/-- The JSON text of a specification. -/
def jsonText (specification : Specification) : String := (toJson specification).text

end Specification

namespace Profile

/-- The profile that a document holds: a name, and a section of rules that may be absent. -/
def ofTree? (room : Nat) (tree : Tree) : Option Profile := do
  let fields ← tree.fields? room ["name", sectionName]
  let name ← (← fields.lookup "name").text?
  let rules ← match fields.lookup sectionName with
    | none => some .empty
    | some tree => Specification.ofTree? (room - 1) tree
  return ⟨name, rules⟩

/-- The profile that a JSON text holds. -/
def ofJsonText? (text : String) : Option Profile := Tree.read? ofTree? text

/-- The value that documents hold for a profile. -/
def toJson (profile : Profile) : Json :=
  .object [("name", .string profile.name), (sectionName, profile.rules.toJson)]

/-- The JSON text of a profile. -/
def jsonText (profile : Profile) : String := profile.toJson.text

end Profile

namespace DomainKind

/-- The kind that a document holds: its name, or an object that maps the name to `null`. -/
def ofTree? (room : Nat) : Tree → Option DomainKind
  | .string s => s.bind ofName?
  | .object [(some name, .null)] => if room = 0 then none else ofName? name
  | _ => none

/-- The kind that a JSON text holds. -/
def ofJsonText? (text : String) : Option DomainKind := Tree.read? ofTree? text

/-- The value that documents hold for a kind. -/
def toJson (kind : DomainKind) : Json := .string kind.name

end DomainKind

namespace Definition

/-- The names of the fields of a definition. -/
def fieldNames : List String := ["name", "kind", "directional", "values"]

/-- The definition that a document holds.  An attribute is not directional and has no values unless
it says so. -/
def ofTree? (room : Nat) (tree : Tree) : Option Definition := do
  let fields ← tree.fields? room fieldNames
  let name ← (← fields.lookup "name").text?
  let kind ← DomainKind.ofTree? (room - 1) (← fields.lookup "kind")
  let directional ← match fields.lookup "directional" with
    | none => some false
    | some tree => tree.flag?
  let values ← match fields.lookup "values" with
    | none => some []
    | some tree => do (← tree.items? (room - 1)).mapM Tree.text?
  return ⟨name, kind, directional, values⟩

/-- The definition that a JSON text holds. -/
def ofJsonText? (text : String) : Option Definition := Tree.read? ofTree? text

/-- The definitions that a document lists. -/
def listOfTree? (room : Nat) (tree : Tree) : Option (List Definition) := do
  (← tree.items? room).mapM (ofTree? (room - 1))

/-- The definitions that a JSON text lists. -/
def listOfJsonText? (text : String) : Option (List Definition) := Tree.read? listOfTree? text

/-- The value that documents hold for a definition; an empty list of values is left out. -/
def toJson (definition : Definition) : Json :=
  .object <|
    [("name", .string definition.name), ("kind", definition.kind.toJson),
      ("directional", .bool definition.directional)] ++
    if definition.values.isEmpty then []
    else [("values", .array (definition.values.map .string))]

/-- The JSON text of a definition. -/
def jsonText (definition : Definition) : String := definition.toJson.text

/-- The JSON text of a list of definitions. -/
def listJsonText (definitions : List Definition) : String :=
  (Json.array (definitions.map toJson)).text

end Definition

end RoutePriority
