import RoutePriority.Binary64.Shortest

/-!
# Writing numbers

A number is written as its shortest decimal, and a `Layout` says how the digits are arranged: which
of two equally near decimals is taken, whether a whole number keeps a fraction digit, and where
positional writing gives way to a power of ten.  Two layouts serve texts that people read: `plain`
for patterns and attribute values and `full` for factors.
-/

namespace RoutePriority

/-- The arrangement of the digits of a number. -/
structure Layout where
  /-- Which of two equally near shortest decimals is written. -/
  tie : Tie
  /-- Whether a whole number is written with the fraction digit `0`. -/
  keepsFraction : Bool
  /-- The places of the first digit, counted from one left of the point, for which the number is
  written without a power of ten. -/
  isPositional : Int → Bool
  /-- Whether a positive power of ten has a plus sign. -/
  signsPower : Bool

namespace Layout

/-- Numbers are written out in full, and whole numbers without a fraction. -/
def plain : Layout := ⟨.upward, false, fun _ => true, false⟩

/-- Whole numbers keep a fraction digit; a power of ten is used below `10⁻⁴` and from `10¹⁶` on. -/
def full : Layout := ⟨.upward, true, fun place => -4 < place && place ≤ 16, false⟩

/-- The fraction that completes a whole number. -/
def wholeTail (layout : Layout) : List Char := if layout.keepsFraction then ['.', '0'] else []

/-- Digits written with a point in front of the digit after `place` places, filled up with zeros. -/
def positional (layout : Layout) (digits : List Char) (place : Int) : List Char :=
  if place ≤ 0 then '0' :: '.' :: (List.replicate (-place).toNat '0' ++ digits)
  else if digits.length ≤ place then
    digits ++ List.replicate (place.toNat - digits.length) '0' ++ layout.wholeTail
  else digits.take place.toNat ++ '.' :: digits.drop place.toNat

/-- Digits written with the point after the first one and a power of ten. -/
def scientific (layout : Layout) (digits : List Char) (place : Int) : List Char :=
  let power := place - 1
  let fraction := if digits.length ≤ 1 then [] else '.' :: digits.drop 1
  let sign := if power < 0 then ['-'] else if layout.signsPower then ['+'] else []
  digits.take 1 ++ fraction ++ 'e' :: (sign ++ Nat.toDigits 10 power.natAbs)

/-- The digits of a decimal, arranged. -/
def decimal (layout : Layout) (d : Decimal) : List Char :=
  let digits := Nat.toDigits 10 d.digits
  let place := digits.length + d.exponent
  if layout.isPositional place then layout.positional digits place
  else layout.scientific digits place

/-- A finite magnitude, arranged. -/
def magnitude (layout : Layout) (rank : Nat) : List Char :=
  if rank = 0 then '0' :: layout.wholeTail else layout.decimal (shortest layout.tie rank)

/-- The characters of a number. -/
def chars (layout : Layout) : Binary64 → List Char
  | .nan => ['N', 'a', 'N']
  | .signed negative m =>
    let digits := if m = .infinity then ['i', 'n', 'f'] else layout.magnitude m
    if negative then '-' :: digits else digits

/-- The text of a number. -/
def text (layout : Layout) (x : Binary64) : String := String.ofList (layout.chars x)

end Layout

end RoutePriority
