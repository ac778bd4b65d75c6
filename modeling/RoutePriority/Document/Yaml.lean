import RoutePriority.Attribute.Definition
import RoutePriority.Priority.Error
import RoutePriority.Profile.Basic
import RoutePriority.Yaml.Reading

/-!
# Profiles, specifications and definitions as YAML

The readers follow the shape of the documents: tables and specifications are mappings, and
structures are mappings with their fields among other entries.  A section for which nothing or null
is written is empty.  Names and keys are read as they are spelled, whatever they would mean as
values.
-/

namespace RoutePriority

open Yaml (Node Reading)

namespace Factor

/-- The factor that a node holds: a number, a text, or any other value. -/
def ofNode (room : Nat) (node : Node) : Reading Factor := do
  let node ← node.follow
  match node with
  | .scalar _ tag style source =>
    match ← Node.scalarMeaning tag style source with
    | .integer n => return .number (.ofInt n)
    | .real x => return .number x
    | .text s => return .text s
    | meaning => return .other (.ofJson (← Node.ofMeaning meaning))
  | node => return .other (.ofJson (← node.json room))

end Factor

namespace OrderedMap

/-- The map that a node holds, with values of a given reader. -/
def ofNode {α : Type} (reader : Nat → Node → Reading α) (room : Nat) (node : Node) :
    Reading (OrderedMap α) := do
  let node ← node.follow
  if ← node.isAbsent then return .empty
  let entries ← (← node.entries room).mapM fun (key, value) =>
    return (← key.text, ← reader (room - 1) value)
  return .ofList entries

end OrderedMap

namespace RuleTable

/-- The table that a node holds. -/
def ofNode (room : Nat) (node : Node) : Reading RuleTable :=
  OrderedMap.ofNode Factor.ofNode room node

end RuleTable

namespace Specification

/-- The specification that a node holds. -/
def ofNode (room : Nat) (node : Node) : Reading Specification :=
  OrderedMap.ofNode RuleTable.ofNode room node

/-- The specification that a YAML text holds. -/
def ofYamlText? (text : String) : Option Specification :=
  Yaml.Document.read? (ofNode Yaml.maxDepth) text

end Specification

namespace Profile

/-- The profile that a node holds: a name, and a section of rules that may be absent. -/
def ofNode (room : Nat) (node : Node) : Reading Profile := do
  let fields ← node.fields room ["name", sectionName]
  match fields.lookup "name" with
  | none => failure
  | some name =>
    let name ← name.text
    match fields.lookup sectionName with
    | none => return ⟨name, .empty⟩
    | some node => return ⟨name, ← Specification.ofNode (room - 1) node⟩

/-- The profile that a YAML text holds. -/
def ofYamlText? (text : String) : Option Profile := Yaml.Document.read? (ofNode Yaml.maxDepth) text

end Profile

namespace DomainKind

/-- The kind that a node names. -/
def ofNode (node : Node) : Reading DomainKind := do
  match ofName? (← node.choice) with
  | some kind => return kind
  | none => failure

end DomainKind

namespace Definition

/-- The definition that a node holds.  An attribute is not directional and has no values unless it
says so. -/
def ofNode (room : Nat) (node : Node) : Reading Definition := do
  let fields ← node.fields room ["name", "kind", "directional", "values"]
  match fields.lookup "name", fields.lookup "kind" with
  | some name, some kind =>
    let name ← name.text
    let kind ← DomainKind.ofNode kind
    let directional ← match fields.lookup "directional" with
      | none => pure false
      | some node => node.flag
    let values ← match fields.lookup "values" with
      | none => pure []
      | some node => do (← node.items (room - 1)).mapM Node.text
    return ⟨name, kind, directional, values⟩
  | _, _ => failure

/-- The definitions that a node lists. -/
def listOfNode (room : Nat) (node : Node) : Reading (List Definition) := do
  (← node.items room).mapM (ofNode (room - 1))

/-- The definitions that a YAML text lists. -/
def listOfYamlText? (text : String) : Option (List Definition) :=
  Yaml.Document.read? (listOfNode Yaml.maxDepth) text

end Definition

/-- The factor that a YAML text holds. -/
def Factor.ofYamlText? (text : String) : Option Factor :=
  Yaml.Document.read? (ofNode Yaml.maxDepth) text

/-- The table that a YAML text holds. -/
def RuleTable.ofYamlText? (text : String) : Option RuleTable :=
  Yaml.Document.read? (ofNode Yaml.maxDepth) text

end RoutePriority
