import RoutePriority.Binary64.Decimal
import RoutePriority.Binary64.Layout
import RoutePriority.Text.Blank

/-!
# Rule patterns

A rule of a profile starts with a pattern: `*` for every value, a comparison such as `<30` or
`>= 7`, or the name of a value.  A text that starts with a comparison sign is a comparison or
nothing: its threshold must be a finite number.
-/

namespace RoutePriority

/-- A comparison of a value with a threshold. -/
inductive Comparison where
  | less
  | lessOrEqual
  | greater
  | greaterOrEqual
  deriving DecidableEq, Inhabited

namespace Comparison

/-- All comparisons. -/
def all : List Comparison := [less, lessOrEqual, greater, greaterOrEqual]

/-- The sign of a comparison. -/
def symbol : Comparison → String
  | less => "<"
  | lessOrEqual => "<="
  | greater => ">"
  | greaterOrEqual => ">="

/-- Whether the comparison holds of a value and a threshold. -/
def holds : Comparison → Binary64 → Binary64 → Bool
  | less, value, threshold => value.lt threshold
  | lessOrEqual, value, threshold => value.le threshold
  | greater, value, threshold => threshold.lt value
  | greaterOrEqual, value, threshold => threshold.le value

/-- The comparison whose sign starts a text, the longest such sign, and the text after it. -/
def split? : List Char → Option (Comparison × List Char)
  | '<' :: '=' :: rest => some (lessOrEqual, rest)
  | '>' :: '=' :: rest => some (greaterOrEqual, rest)
  | '<' :: rest => some (less, rest)
  | '>' :: rest => some (greater, rest)
  | _ => none

end Comparison

/-- The text that stands for every value. -/
def wildcardText : String := "*"

/-- What a rule applies to. -/
inductive Pattern where
  | wildcard
  | literal (value : String)
  | relational (comparison : Comparison) (threshold : Binary64)
  deriving DecidableEq

/-- A text that starts like a comparison and has no finite threshold. -/
structure PatternError where
  pattern : String
  deriving DecidableEq

/-- The text of an error. -/
def PatternError.message (error : PatternError) : String :=
  "'" ++ error.pattern ++ "' does not compare against a finite number"

namespace Pattern

/-- The finite number that the characters after a comparison sign denote. -/
def threshold? (text : List Char) : Option Binary64 :=
  (Binary64.ofChars? (Text.trimmed text)).filter (·.isFinite)

/-- The pattern that a text denotes. -/
def parse (text : String) : Except PatternError Pattern :=
  if text = wildcardText then .ok wildcard
  else match Comparison.split? text.toList with
    | none => .ok (literal text)
    | some (comparison, rest) =>
      match threshold? rest with
      | some threshold => .ok (relational comparison threshold)
      | none => .error ⟨text⟩

/-- The text of a pattern. -/
def text : Pattern → String
  | wildcard => wildcardText
  | literal value => value
  | relational comparison threshold => comparison.symbol ++ Layout.plain.text threshold

end Pattern

end RoutePriority
