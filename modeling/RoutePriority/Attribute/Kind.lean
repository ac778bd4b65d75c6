import RoutePriority.Binary64.Basic

/-!
# Kinds of attributes and their values

An attribute of a road edge is categorical (one of a list of named values), continuous (a number) or
boolean.  A stored value is of one of these kinds; a categorical one is kept as the ordinal of its
name, a 16 bit word.
-/

namespace RoutePriority

/-- The kind of values that an attribute has. -/
inductive DomainKind where
  | categorical
  | continuous
  | boolean
  deriving DecidableEq, Inhabited

namespace DomainKind

/-- All kinds. -/
def all : List DomainKind := [categorical, continuous, boolean]

/-- The name of a kind. -/
def name : DomainKind → String
  | categorical => "categorical"
  | continuous => "continuous"
  | boolean => "boolean"

/-- The kind of the given name. -/
def ofName? (name : String) : Option DomainKind := all.find? (·.name = name)

/-- Every kind is found by its name. -/
theorem ofName?_name (kind : DomainKind) : ofName? kind.name = some kind := by
  cases kind <;> simp [ofName?, all, name]

/-- Whether a rule may name a value of the attribute. -/
def acceptsLiterals : DomainKind → Bool
  | categorical | boolean => true
  | continuous => false

/-- Whether a rule may compare the attribute with a threshold. -/
def acceptsRelations : DomainKind → Bool
  | continuous => true
  | categorical | boolean => false

end DomainKind

/-- A stored value of an attribute. -/
inductive AttributeValue where
  | category (ordinal : UInt16)
  | number (value : Binary64)
  | flag (value : Bool)
  deriving DecidableEq, Inhabited

namespace AttributeValue

/-- The kind of a value. -/
def kind : AttributeValue → DomainKind
  | category _ => .categorical
  | number _ => .continuous
  | flag _ => .boolean

/-- The value that an attribute of the given kind has before it is written. -/
def default : DomainKind → AttributeValue
  | .categorical => category 0
  | .continuous => number .zero
  | .boolean => flag false

/-- Whether two values are equal as values: numbers are compared as numbers. -/
def same : AttributeValue → AttributeValue → Bool
  | category m, category n => m == n
  | number x, number y => x.same y
  | flag a, flag b => a == b
  | _, _ => false

end AttributeValue

end RoutePriority
