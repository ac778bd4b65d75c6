import RoutePriority.Binary64.Decimal
import RoutePriority.Json.Value

/-!
# The numbers that JSON numerals denote

A numeral of digits only is an integer if it fits 64 bits.  Any other numeral is taken as a
`Scaled`: a significand of at most 64 bits and a power of ten.  Digits for which the significand has
no room are left out, and those of them before the point raise the power.

The magnitude of a scaled significand is a product or a quotient of rounded magnitudes: the
significand is rounded, the power of ten is rounded, and so is what comes out.  It can therefore lie
beside the magnitude nearest to the numeral, and a number that was written with its shortest digits
is not always read back.
-/

namespace RoutePriority

/-- A significand and the power of ten by which it is to be multiplied. -/
structure Scaled where
  significand : Nat
  power : Int
  deriving DecidableEq

namespace Scaled

/-- A significand continued by digits as long as it fits 64 bits, and the digits that are left. -/
def fill (significand : Nat) : List Char → Nat × List Char
  | [] => (significand, [])
  | c :: digits =>
    let longer := 10 * significand + digitValue c
    if longer < 18446744073709551616 then fill longer digits else (significand, c :: digits)

/-- The scaled significand of the digits before and after the point and a power of ten. -/
def ofParts (whole fraction : List Char) (power : Int) : Scaled :=
  let (begun, wholeLeft) := fill 0 whole
  let (significand, fractionLeft) := fill begun fraction
  ⟨significand, power + wholeLeft.length + fractionLeft.length - fraction.length⟩

/-- The greatest power of ten that is a finite magnitude. -/
def maxPower : Nat := 308

/-- The magnitude nearest to a power of ten. -/
def tenTo (power : Nat) : Magnitude := .ofNat (Nat.pow 10 power)

/-- The magnitude of a scaled significand.  A power that lowers it by more than `maxPower` places is
divided out in two steps; of 64 bits nothing is left after two divisions by the greatest power. -/
def magnitude (scaled : Scaled) : Magnitude :=
  let rounded := Magnitude.ofNat scaled.significand
  if 0 ≤ scaled.power then
    let raised := scaled.power.toNat
    if raised ≤ maxPower then rounded.mul (tenTo raised)
    else if scaled.significand = 0 then .zero else .infinity
  else
    let lowered := (-scaled.power).toNat
    if lowered ≤ maxPower then rounded.div (tenTo lowered)
    else if lowered ≤ 2 * maxPower then
      (rounded.div (tenTo maxPower)).div (tenTo (lowered - maxPower))
    else .zero

end Scaled

namespace JsonNumber

/-- The number of a signed scaled significand; `none` if it lies beyond all finite numbers. -/
def ofScaled? (negative : Bool) (scaled : Scaled) : Option JsonNumber :=
  let x : Binary64 := .signed negative scaled.magnitude
  if finite : x.isFinite = true then some (.real x finite) else none

/-- The number that is written with digits only: an integer if it fits, save minus zero. -/
def ofDigits? (negative : Bool) (digits : List Char) : Option JsonNumber :=
  let n : Int := natOfDigits digits
  let value := if negative then -n else n
  let scaled := Scaled.ofParts digits [] 0
  if fits : FitsWord value then
    if negative ∧ n = 0 then ofScaled? negative scaled else some (.integer value fits)
  else ofScaled? negative scaled

/-- The number that the parts of a numeral denote. -/
def ofParts? (negative : Bool) (whole : List Char) (fraction : Option (List Char))
    (power : Option Int) : Option JsonNumber :=
  match fraction, power with
  | none, none => ofDigits? negative whole
  | _, _ => ofScaled? negative (.ofParts whole (fraction.getD []) (power.getD 0))

end JsonNumber

end RoutePriority
