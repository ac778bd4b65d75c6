import RoutePriority.Binary64.Basic

/-!
# The shortest decimal of a number

A finite nonzero magnitude is written with the fewest digits that read back as the same magnitude.
All reals nearer to it than to its two neighbours read back as it, and the two midpoints do so
exactly when its rank is even, because a tie goes to the even rank.  `Magnitude.shortest` looks at
coarser grids of decimals before finer ones; on each grid only the two decimals around the
magnitude can be the nearest, so it tests these two and takes the nearer of those that read back.
-/

namespace RoutePriority

/-- The decimal number `digits * 10 ^ exponent`. -/
structure Decimal where
  digits : Nat
  exponent : Int
  deriving DecidableEq

/-- Which of two equally near decimals is written. -/
inductive Tie where
  /-- The larger one. -/
  | upward
  /-- The one with the even last digit. -/
  | even
  deriving DecidableEq

namespace Tie

/-- Whether the upper of the equally near `below` and `below + 1` is written. -/
def takesUpper : Tie → Nat → Bool
  | upward, _ => true
  | even, below => below % 2 == 1

end Tie

namespace Decimal

/-- The length of `10 ^ exponent` in half units of a magnitude, `2⁻¹⁰⁷⁵`, as a fraction. -/
def gridStep (exponent : Int) : Nat × Nat :=
  if 0 ≤ exponent then (Nat.pow 10 exponent.toNat * Nat.pow 2 1075, 1)
  else (Nat.pow 2 1075, Nat.pow 10 (-exponent).toNat)

/-- Whether the decimal reads back as the magnitude of the given rank: it lies between the midpoints
to the two neighbours, or on one of them if the rank is even. -/
def readsBack (rank : Nat) (d : Decimal) : Bool :=
  let (step, scale) := gridStep d.exponent
  let low := (units (rank - 1) + units rank) * scale
  let high := (units rank + units (rank + 1)) * scale
  let here := d.digits * step
  if rank % 2 = 0 then low ≤ here && here ≤ high else low < here && here < high

/-- Of the two decimals around a magnitude on the grid of `10 ^ exponent`, the nearest that reads
back as it. -/
def onGrid? (tie : Tie) (rank : Nat) (exponent : Int) : Option Decimal :=
  let (step, scale) := gridStep exponent
  let middle := 2 * units rank * scale
  let below := middle / step
  let lower : Decimal := ⟨below, exponent⟩
  let upper : Decimal := ⟨below + 1, exponent⟩
  let toLower := middle - below * step
  let toUpper := (below + 1) * step - middle
  match lower.readsBack rank, upper.readsBack rank with
  | false, false => none
  | true, false => some lower
  | false, true => some upper
  | true, true =>
    some <| if toLower < toUpper then lower
      else if toUpper < toLower then upper
      else if tie.takesUpper below then upper else lower

end Decimal

/-- A power of ten beyond the magnitude of a rank, and at most a thousand times as large: a
magnitude below `2 ^ n` is below `10 ^ (0.30103 * n)`, up to rounding. -/
def placeAbove (rank : Nat) : Int := (((units rank).log2 : Int) - 1073) * 30103 / 100000 + 2

/-- The shortest decimal that reads back as the finite magnitude of a nonzero rank.  Seventeen
digits are enough for every magnitude; the exact decimal stands last. -/
def shortest (tie : Tie) (rank : Nat) : Decimal :=
  let found? := (List.range 20).findSome? fun (count : Nat) =>
    Decimal.onGrid? tie rank (placeAbove rank - count)
  found?.getD ⟨units rank * Nat.pow 5 1074, -1074⟩

end RoutePriority
