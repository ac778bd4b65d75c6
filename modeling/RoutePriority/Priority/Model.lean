import RoutePriority.Attribute.Edge
import RoutePriority.Rule.Pattern

/-!
# Compiled models

A compiled model holds, for each attribute that a profile mentions, its rules with their patterns
resolved to tests of stored values.  The first rule whose test a value passes gives the factor of
its table, a value that passes none gets the neutral factor one, and the priority of an edge is the
product of the factors of all tables in the order of their declaration.
-/

namespace RoutePriority

/-- A test of a stored value. -/
inductive Matcher where
  | any
  | category (ordinal : UInt16)
  | flag (value : Bool)
  | compare (comparison : Comparison) (threshold : Binary64)
  deriving DecidableEq

/-- Whether a value passes a test.  A value of another kind does not. -/
def Matcher.accepts : Matcher → AttributeValue → Bool
  | any, _ => true
  | category expected, .category actual => expected == actual
  | flag expected, .flag actual => expected == actual
  | compare comparison threshold, .number actual => comparison.holds actual threshold
  | _, _ => false

/-- A compiled rule. -/
structure Rule where
  pattern : Pattern
  matcher : Matcher
  factor : Binary64
  deriving DecidableEq

/-- The compiled rules of an attribute. -/
structure CompiledTable where
  handle : Handle
  rules : List Rule
  deriving DecidableEq

namespace CompiledTable

/-- The value of an edge that the table looks at: only a directional attribute has a backward value.
-/
def valueOf (table : CompiledTable) (edge : EdgeStore) (direction : Direction) : AttributeValue :=
  edge table.handle (if table.handle.directional then direction else .forward)

/-- The factor of the first rule that accepts the value, and one if none does. -/
def factorFor (table : CompiledTable) (value : AttributeValue) : Binary64 :=
  match table.rules.find? (·.matcher.accepts value) with
  | some rule => rule.factor
  | none => .one

/-- The factor of an edge in a direction. -/
def factorOf (table : CompiledTable) (edge : EdgeStore) (direction : Direction) : Binary64 :=
  table.factorFor (table.valueOf edge direction)

end CompiledTable

/-- A compiled specification. -/
structure Model where
  tables : List CompiledTable
  deriving DecidableEq, Inhabited

namespace Model

/-- The number of tables. -/
def size (model : Model) : Nat := model.tables.length

/-- Whether there are no tables. -/
def isEmpty (model : Model) : Bool := model.tables.isEmpty

/-- The number of rules in all tables. -/
def ruleCount (model : Model) : Nat := (model.tables.flatMap (·.rules)).length

/-- The table of the attribute of the given name. -/
def table? (model : Model) (name : String) : Option CompiledTable :=
  model.tables.find? (·.handle.name = name)

/-- The priority of an edge in a direction. -/
def evaluate (model : Model) (edge : EdgeStore) (direction : Direction) : Binary64 :=
  model.tables.foldl (fun priority table => priority * table.factorOf edge direction) .one

/-- The priorities of an edge in forward and in backward direction. -/
def evaluateBoth (model : Model) (edge : EdgeStore) : Binary64 × Binary64 :=
  (model.evaluate edge .forward, model.evaluate edge .backward)

end Model

end RoutePriority
