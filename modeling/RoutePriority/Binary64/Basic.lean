/-!
# Binary64 numbers

Factors, thresholds and continuous attribute values are binary64 numbers.  A number here is a sign
and a **magnitude**, and a magnitude is its rank among all magnitudes counted upward from zero:
rank `0` is zero, every further rank is the next larger magnitude, and the last rank is infinity.
The rank orders magnitudes, so comparison is comparison of integers.

Every magnitude below infinity is a whole number of units of `2⁻¹⁰⁷⁴` (`units`).  The same formula
at the last rank gives `2¹⁰²⁴`, the number that the rounding rule treats as the next one after the
largest, so overflow needs no rule of its own: `Magnitude.nearest` rounds an exact quotient to the
rank whose number is nearest, a tie going to the even rank.
-/

namespace RoutePriority

/-- The rank of infinity: 2046 blocks of `2 ^ 52` finite magnitudes, and the subnormal ones, lie
below it. -/
def topRank : Nat := 2047 * Nat.pow 2 52

/-- A magnitude, as its rank among all magnitudes from zero to infinity. -/
abbrev Magnitude := Fin (topRank + 1)

/-- The units of `2⁻¹⁰⁷⁴` that the magnitude of the given rank measures. -/
def units (rank : Nat) : Nat :=
  let shift := rank / Nat.pow 2 52 - 1
  (rank - shift * Nat.pow 2 52) * Nat.pow 2 shift

/-- The largest rank whose magnitude measures at most `n` units. -/
def rankBelow (n : Nat) : Nat :=
  let shift := n.log2 - 52
  shift * Nat.pow 2 52 + n / Nat.pow 2 shift

/-- The rank nearest to `numerator / denominator` units, of two equally near ones the even one. -/
def rankNearest (numerator denominator : Nat) : Nat :=
  let below := rankBelow (numerator / denominator)
  let middle := (units below + units (below + 1)) * denominator
  if 2 * numerator < middle then below
  else if middle < 2 * numerator then below + 1
  else below + below % 2

namespace Magnitude

/-- The least magnitude. -/
def zero : Magnitude := ⟨0, Nat.succ_pos _⟩

/-- The greatest magnitude. -/
def infinity : Magnitude := Fin.last topRank

/-- The magnitude one. -/
def one : Magnitude := ⟨1023 * Nat.pow 2 52, by decide⟩

/-- The magnitude nearest to `numerator / denominator` units of `2⁻¹⁰⁷⁴`; all that lies beyond the
largest finite magnitude by half a step or more is infinity. -/
def nearest (numerator denominator : Nat) : Magnitude :=
  ⟨min (rankNearest numerator denominator) topRank, by omega⟩

/-- The magnitude nearest to a natural number. -/
def ofNat (n : Nat) : Magnitude := nearest (n * Nat.pow 2 1074) 1

/-- The product of two finite magnitudes, rounded to the nearest magnitude. -/
def mul (a b : Magnitude) : Magnitude := nearest (units a * units b) (Nat.pow 2 1074)

/-- The quotient of two finite magnitudes, of which the second is not zero, rounded to the nearest
magnitude. -/
def div (a b : Magnitude) : Magnitude := nearest (units a * Nat.pow 2 1074) (units b)

end Magnitude

/-- A binary64 number: a signed magnitude, or not a number at all. -/
inductive Binary64 where
  | nan
  | signed (negative : Bool) (magnitude : Magnitude)
  deriving DecidableEq, Inhabited

namespace Binary64

/-- The number zero. -/
def zero : Binary64 := signed false .zero

/-- The number one, which is neutral for products. -/
def one : Binary64 := signed false .one

/-- The number nearest to an integer. -/
def ofInt (n : Int) : Binary64 := signed (n < 0) (.ofNat n.natAbs)

/-- Whether the number is not a number. -/
def isNan : Binary64 → Bool
  | nan => true
  | signed _ _ => false

/-- Whether the number is a finite number. -/
def isFinite : Binary64 → Bool
  | nan => false
  | signed _ m => m < topRank

/-- The place of a number on the line of all numbers: its rank with its sign.  The two zeros share
one place, and what is not a number has none. -/
def place? : Binary64 → Option Int
  | nan => none
  | signed negative m => some (if negative then -(m : Int) else m)

/-- `a < b`; false if either is not a number. -/
def lt (a b : Binary64) : Bool :=
  match a.place?, b.place? with
  | some i, some j => i < j
  | _, _ => false

/-- `a ≤ b`; false if either is not a number. -/
def le (a b : Binary64) : Bool :=
  match a.place?, b.place? with
  | some i, some j => i ≤ j
  | _, _ => false

/-- Whether two numbers have the same value: the two zeros do, and what is not a number differs
even from itself. -/
def same (a b : Binary64) : Bool :=
  match a.place?, b.place? with
  | some i, some j => i = j
  | _, _ => false

/-- The product rounded to nearest; zero times infinity is not a number. -/
def mul : Binary64 → Binary64 → Binary64
  | signed s a, signed t b =>
    if a = .infinity ∨ b = .infinity then
      if a = .zero ∨ b = .zero then nan else signed (s != t) .infinity
    else signed (s != t) (a.mul b)
  | _, _ => nan

instance : Mul Binary64 := ⟨mul⟩

end Binary64

end RoutePriority
