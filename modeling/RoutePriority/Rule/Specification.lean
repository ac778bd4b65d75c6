import RoutePriority.OrderedMap
import RoutePriority.Rule.Factor

/-!
# Specifications

A `RuleTable` lists the rules of one attribute, pattern by pattern, and a `Specification` lists the
tables of the attributes that matter.  In both the order is the order of declaration.
-/

namespace RoutePriority

/-- The rules of an attribute: factors by pattern text. -/
abbrev RuleTable := OrderedMap Factor

/-- The rule tables of a profile, by the name of the attribute. -/
abbrev Specification := OrderedMap RuleTable

namespace RuleTable

/-- Whether two tables hold equal rules, in any order. -/
def same (left right : RuleTable) : Bool := left.equal Factor.same right

/-- The value that documents hold for a table. -/
def toJson (table : RuleTable) : Json :=
  .object (table.entries.map fun (pattern, factor) => (pattern, factor.toJson))

end RuleTable

namespace Specification

/-- Whether two specifications hold equal tables, in any order. -/
def same (left right : Specification) : Bool := left.equal RuleTable.same right

/-- The value that documents hold for a specification. -/
def toJson (specification : Specification) : Json :=
  .object (specification.entries.map fun (name, table) => (name, RuleTable.toJson table))

end Specification

end RoutePriority
