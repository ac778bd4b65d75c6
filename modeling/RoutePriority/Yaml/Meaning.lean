import RoutePriority.Binary64.Decimal
import RoutePriority.Yaml.Token

/-!
# What YAML scalars mean

A plain scalar is null, a boolean, an integer or a number if it is spelled like one, and a text
otherwise; a scalar in another style is a text.  A tag of the core schema demands its type, whatever
the style, and any other tag that is not local makes the scalar a text.

Integers are decimal without leading zeros, or hexadecimal, octal or binary after `0x`, `0o` or
`0b`. One that fits 128 bits but not 64 has no meaning at all; a larger one is read as a number.
-/

namespace RoutePriority.Yaml

/-- The meaning of a scalar. -/
inductive Meaning where
  | null
  | bool (value : Bool)
  | integer (value : Int)
  | real (value : Binary64)
  | text (value : String)

/-- The tag of a type of the core schema. -/
def coreTag (name : String) : Tag := octets ("tag:yaml.org,2002:" ++ name).toList

/-- The name that a local tag gives: what follows its exclamation mark, or the mark itself if
nothing does. -/
def localName? (tag : Tag) : Option String :=
  match tag with
  | mark :: name =>
    if mark = '!'.toNat.toUInt8 then
      String.fromUTF8? ⟨(if name.isEmpty then [mark] else name).toArray⟩
    else none
  | [] => none

/-- Whether a text is a spelling of null. -/
def isNull (text : String) : Bool := ["null", "Null", "NULL", "~"].contains text

/-- The boolean that a text spells. -/
def bool? (text : String) : Option Bool :=
  if ["true", "True", "TRUE"].contains text then some true
  else if ["false", "False", "FALSE"].contains text then some false
  else none

/-- Whether the digits of a text start with a zero that is not all of them. -/
def hasLeadingZero (text : List Char) : Bool :=
  let digits := (splitSign text).2
  1 < digits.length && digits.head? == some '0' && digits.all Char.isDigit

/-- The number that digits denote in a base. -/
def natIn? (base : Nat) (digits : List Char) : Option Nat :=
  if digits.isEmpty then none
  else digits.foldlM (fun n c => (Text.digitIn? base c).map (n * base + ·)) 0

/-- The number that unsigned digits denote, in the base that stands before them. -/
def unsigned? (digits : List Char) : Option Nat :=
  match digits with
  | '0' :: 'x' :: digits => natIn? 16 digits
  | '0' :: 'o' :: digits => natIn? 8 digits
  | '0' :: 'b' :: digits => natIn? 2 digits
  | digits => if hasLeadingZero digits then none else natIn? 10 digits

/-- The integer that a text spells.  Inside, `none` stands for an integer of 128 bits that does not
fit 64. -/
def integer? (text : String) : Option (Option Int) := do
  let (negative, digits) := splitSign text.toList
  let n ← unsigned? digits
  if negative then
    if n ≤ Nat.pow 2 63 then return some (-(n : Int))
    else if n ≤ Nat.pow 2 127 then return none else none
  else
    if n < Nat.pow 2 64 then return some (n : Int)
    else if n < Nat.pow 2 128 then return none else none

/-- The number that a text spells: a finite numeral, an infinity or what is not a number. -/
def real? (text : String) : Option Binary64 :=
  let unplussed := match text.toList with
    | '+' :: rest => rest
    | characters => characters
  let doubleSign := text.startsWith "++" || text.startsWith "+-"
  if doubleSign then none
  else if [".inf", ".Inf", ".INF"].contains (String.ofList unplussed) then
    some (.signed false .infinity)
  else if ["-.inf", "-.Inf", "-.INF"].contains text then some (.signed true .infinity)
  else if [".nan", ".NaN", ".NAN"].contains text then some .nan
  else (Binary64.ofChars? unplussed).filter (·.isFinite)

/-- The meaning of a plain scalar without a tag. -/
def plainMeaning? (text : String) : Option Meaning :=
  if text.isEmpty || isNull text then some .null
  else match bool? text, integer? text with
    | some b, _ => some (.bool b)
    | none, some n => n.map .integer
    | none, none =>
      match if hasLeadingZero text.toList then none else real? text with
      | some x => some (.real x)
      | none => some (.text text)

/-- The meaning of a scalar.  One with a local tag has none here. -/
def meaning? (tag : Option Tag) (style : Style) (text : String) : Option Meaning :=
  match tag with
  | none => if style = .plain then plainMeaning? text else some (.text text)
  | some tag =>
    if (localName? tag).isSome then none
    else if tag = coreTag "bool" then (bool? text).map .bool
    else if tag = coreTag "int" then (integer? text).bind fun n => n.map .integer
    else if tag = coreTag "float" then (real? text).map .real
    else if tag = coreTag "null" then if isNull text then some .null else none
    else if tag.head? = some '!'.toNat.toUInt8 && style = .plain then plainMeaning? text
    else some (.text text)

end RoutePriority.Yaml
