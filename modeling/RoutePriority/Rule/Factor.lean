import RoutePriority.Binary64.Decimal
import RoutePriority.Json.Value
import RoutePriority.Text.Blank

/-!
# Factors as profiles write them

A profile gives a factor as a number or as a text; whatever else stands in its place is kept as it
is, so that compiling the profile can complain about it.
-/

namespace RoutePriority

/-- A factor as written. -/
inductive Factor where
  | number (value : Binary64)
  | text (value : String)
  | other (value : NormalJson)

namespace Factor

/-- The number of a factor: a number itself, or the numeral that a text holds between blanks. -/
def toBinary64? : Factor → Option Binary64
  | number x => some x
  | text s => Binary64.ofText? (Text.trim s)
  | other _ => none

/-- The text of a factor; numbers keep a fraction digit. -/
def display : Factor → String
  | number x => Layout.full.text x
  | text s => s
  | other json => json.text

/-- Whether two factors are of one sort and equal as values. -/
def same : Factor → Factor → Bool
  | number x, number y => x.same y
  | text s, text t => s == t
  | other a, other b => a.value.same b.value
  | _, _ => false

/-- The value that documents hold for a factor.  They have no numbers that are not finite and hold
`null` instead. -/
def toJson : Factor → Json
  | number x => if finite : x.isFinite = true then .number (.real x finite) else .null
  | text s => .string s
  | other json => json.value

end Factor

end RoutePriority
