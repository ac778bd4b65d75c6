import RoutePriority.Attribute.Kind
import RoutePriority.Binary64.Layout

/-!
# Errors of compilation

A specification is refused for one of four causes: it names an attribute that the registry does not
have, a pattern does not suit its attribute, or a factor is no number or lies outside the unit
interval.  A pattern can fail to suit in four ways, its `PatternFault`.
-/

namespace RoutePriority

/-- The name of the section of a profile that holds its rules. -/
def sectionName : String := "priority"

/-- Why a pattern does not suit an attribute. -/
inductive PatternFault where
  /-- The threshold is not a finite number. -/
  | thresholdNotFinite
  /-- Values of this kind cannot be compared with a threshold. -/
  | comparesKind (kind : DomainKind)
  /-- Values of this kind have no names. -/
  | namesKind (kind : DomainKind)
  /-- The values of the attribute have other names. -/
  | notAmong (values : List String)
  deriving DecidableEq

/-- The text of a fault of a pattern for the attribute of the given name. -/
def PatternFault.reason (name : String) : PatternFault → String
  | thresholdNotFinite => "the threshold is not a finite number"
  | comparesKind kind =>
    "comparisons need a continuous attribute, " ++ name ++ " is " ++ kind.name
  | namesKind kind =>
    "literal values need a categorical or boolean attribute, " ++ name ++ " is " ++ kind.name
  | notAmong values => "expected one of " ++ String.intercalate ", " values

/-- Why a specification cannot be compiled. -/
inductive CompileError where
  | unknownAttribute (name : String)
  | unsupportedPattern (name pattern : String) (fault : PatternFault)
  | outOfRangeFactor (name : String) (value : Binary64)
  | invalidFactor (name pattern : String) (value : String)
  deriving DecidableEq

namespace CompileError

/-- The text of an error. -/
def message : CompileError → String
  | unknownAttribute name => sectionName ++ ": unknown attribute '" ++ name ++ "'"
  | unsupportedPattern name pattern fault =>
    sectionName ++ "." ++ name ++ ": unsupported pattern '" ++ pattern ++ "', " ++
      fault.reason name
  | outOfRangeFactor name value =>
    let bound := if Binary64.one.lt value then "bigger than 1.0" else "smaller than 0.0"
    sectionName ++ "." ++ name ++ " cannot be " ++ bound ++ ", was " ++ Layout.full.text value
  | invalidFactor name pattern value =>
    sectionName ++ "." ++ name ++ ": factor for '" ++ pattern ++ "' must be a number, was " ++
      value

end CompileError

end RoutePriority
