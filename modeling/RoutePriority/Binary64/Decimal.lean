import RoutePriority.Binary64.Basic

/-!
# Reading decimal numbers

A decimal numeral denotes an exact rational number, and reading it means rounding that number to
the nearest binary64 number.  `Magnitude.ofDigits` is the one place where this happens.  Powers of
ten that are out of all proportion are replaced by ones that round the same way, so that a short
text cannot ask for a huge power.

`Binary64.ofText?` reads the numeral grammar of plain texts: an optional sign, digits with at most
one point and at least one digit, an optional power of ten; or one of the words `inf`, `infinity`
and `nan` in any case.
-/

namespace RoutePriority

/-- The value of a decimal digit. -/
def digitValue (c : Char) : Nat := c.toNat - '0'.toNat

/-- The number that a row of decimal digits denotes. -/
def natOfDigits (digits : List Char) : Nat :=
  digits.foldl (fun n c => 10 * n + digitValue c) 0

/-- The magnitude nearest to `digits * 10 ^ exponent`.  Any nonzero multiple of `10 ^ 400` rounds to
infinity, and what is below `10 ^ (-400)` rounds to zero; so the power is kept between `400` and
the one that is `400` places beyond the first digit. -/
def Magnitude.ofDigits (digits : List Char) (exponent : Int) : Magnitude :=
  let power := max (-(digits.length + 400 : Int)) (min exponent 400)
  if 0 ≤ power then nearest (natOfDigits digits * Nat.pow 10 power.toNat * Nat.pow 2 1074) 1
  else nearest (natOfDigits digits * Nat.pow 2 1074) (Nat.pow 10 (-power).toNat)

/-- Splits an optional sign from a text; the first part says whether it was a minus. -/
def splitSign : List Char → Bool × List Char
  | '-' :: rest => (true, rest)
  | '+' :: rest => (false, rest)
  | rest => (false, rest)

/-- The power of ten after the letter `e`: an optional sign and at least one digit, up to the end of
the text. -/
def readPower? (text : List Char) : Option Int :=
  let (negative, digits) := splitSign text
  if digits = [] ∨ ¬ digits.all Char.isDigit then none
  else some (if negative then -(natOfDigits digits : Int) else natOfDigits digits)

/-- The magnitude that an unsigned numeral denotes. -/
def Magnitude.ofNumeral? (text : List Char) : Option Magnitude :=
  let whole := text.takeWhile Char.isDigit
  let afterWhole := text.dropWhile Char.isDigit
  let (fraction, afterFraction) := match afterWhole with
    | '.' :: rest => (rest.takeWhile Char.isDigit, rest.dropWhile Char.isDigit)
    | rest => ([], rest)
  let power? := match afterFraction with
    | [] => some 0
    | 'e' :: rest => readPower? rest
    | 'E' :: rest => readPower? rest
    | _ => none
  if whole = [] ∧ fraction = [] then none
  else power?.map fun power => ofDigits (whole ++ fraction) (power - fraction.length)

namespace Binary64

/-- The number that the characters of a plain text denote. -/
def ofChars? (text : List Char) : Option Binary64 :=
  let (negative, rest) := splitSign text
  let word := rest.map Char.toLower
  if word = ['n', 'a', 'n'] then some nan
  else if word = ['i', 'n', 'f'] ∨ word = ['i', 'n', 'f', 'i', 'n', 'i', 't', 'y'] then
    some (signed negative .infinity)
  else (Magnitude.ofNumeral? rest).map (signed negative)

/-- The number that a plain text denotes, if it is a numeral and nothing else. -/
def ofText? (text : String) : Option Binary64 := ofChars? text.toList

end Binary64

end RoutePriority
