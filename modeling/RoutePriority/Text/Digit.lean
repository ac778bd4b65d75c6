/-!
# Digits in bases up to sixteen

Escapes in documents and in tags give codes by hexadecimal digits, and documents have numbers in
several bases.  The letters from `a` to `f`, in either case, stand for the values from ten on.
-/

namespace RoutePriority.Text

/-- The value of a hexadecimal digit. -/
def hexValue? (c : Char) : Option Nat :=
  if c.isDigit then some (c.toNat - '0'.toNat)
  else if 'a' ≤ c ∧ c ≤ 'f' then some (c.toNat - 'a'.toNat + 10)
  else if 'A' ≤ c ∧ c ≤ 'F' then some (c.toNat - 'A'.toNat + 10)
  else none

/-- The value of a digit in a base up to sixteen. -/
def digitIn? (base : Nat) (c : Char) : Option Nat := (hexValue? c).filter (· < base)

end RoutePriority.Text
