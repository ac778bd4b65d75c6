import RoutePriority.Binary64.Decimal
import RoutePriority.Binary64.Shortest
import RoutePriority.Proofs.Rounding

/-!
# The magnitude that a decimal denotes

A decimal measures an exact number of units of `2⁻¹⁰⁷⁴`, as a fraction, and denotes the magnitude
nearest to that number.  Only the quotient matters here (`nearest_eq_nearest`), so zeros at the end
of the digits do not, and decimals out of all proportion denote zero or infinity.

The search for the shortest decimal stops at one that lies between the midpoints to the two
neighbours of a magnitude.  That is the same as rounding to this magnitude, so what the search
finds denotes what it was found for: `magnitude_shortest`.
-/

namespace RoutePriority

/-! ## Powers of ten out of proportion -/

theorem pow_ten_add (m n : Nat) : Nat.pow 10 (m + n) = Nat.pow 10 m * Nat.pow 10 n :=
  Nat.pow_add 10 m n

theorem pow_ten_le {m n : Nat} (h : m ≤ n) : Nat.pow 10 m ≤ Nat.pow 10 n :=
  Nat.pow_le_pow_right (by decide) h

/-- Multiples of `10 ^ 400` are beyond all finite magnitudes. -/
theorem units_topRank_le {power : Nat} (h : 400 ≤ power) :
    units topRank ≤ Nat.pow 10 power * units Magnitude.one := by
  obtain ⟨least, hleast⟩ : ∃ least, least = 400 := ⟨400, rfl⟩
  have htop : units topRank ≤ Nat.pow 10 least * units Magnitude.one := by
    subst hleast
    decide +kernel
  rw [← hleast] at h
  exact htop.trans (Nat.mul_le_mul_right _ (pow_ten_le h))

theorem two_mul_units_one : 2 * units Magnitude.one = Nat.pow 2 1075 := by
  decide +kernel

/-- What has `400` digits more than another number is larger by more than all finite magnitudes
are apart. -/
theorem two_mul_units_one_le {count power : Nat} (h : count + 400 ≤ power) :
    Nat.pow 10 count * (2 * units Magnitude.one) ≤ Nat.pow 10 power := by
  obtain ⟨least, hleast⟩ : ∃ least, least = 400 := ⟨400, rfl⟩
  have hone : 2 * units Magnitude.one ≤ Nat.pow 10 least := by
    subst hleast
    decide +kernel
  rw [← hleast] at h
  have hpower := pow_ten_le h
  rw [pow_ten_add] at hpower
  exact (Nat.mul_le_mul_left _ hone).trans hpower

/-! ## Rounding an exact fraction -/

namespace Magnitude

/-- Equal quotients round to the same magnitude. -/
theorem nearest_eq_nearest {n d n' d' : Nat} (hd : 0 < d) (hd' : 0 < d')
    (h : n * d' = n' * d) : nearest n d = nearest n' d' := by
  have hrounds : RoundsTo n d (rankNearest n d) := roundsTo_rankNearest hd
  have hrounds' : RoundsTo n' d' (rankNearest n' d') := roundsTo_rankNearest hd'
  have hle := hrounds.le_of_mul_le_mul hd hd' hrounds' (Nat.le_of_eq h)
  have hge := hrounds'.le_of_mul_le_mul hd' hd hrounds (Nat.le_of_eq h.symm)
  have hrank : rankNearest n d = rankNearest n' d' := Nat.le_antisymm hle hge
  simp only [nearest, hrank]

/-- What rounds to the rank of a magnitude is nearest to it. -/
theorem nearest_of_roundsTo {n d : Nat} (hd : 0 < d) {m : Magnitude} (h : RoundsTo n d m) :
    nearest n d = m := by
  have hrank := (roundsTo_rankNearest hd).unique hd h
  apply Fin.ext
  simp only [nearest, hrank]
  exact Nat.min_eq_left (Nat.le_of_lt_succ m.isLt)

end Magnitude

namespace Decimal

/-- The numerator of the number in units of `2⁻¹⁰⁷⁴`. -/
def numerator (d : Decimal) : Nat := d.digits * Nat.pow 10 d.exponent.toNat * units Magnitude.one

/-- The denominator that goes with it. -/
def denominator (d : Decimal) : Nat := Nat.pow 10 (-d.exponent).toNat

theorem denominator_pos (d : Decimal) : 0 < d.denominator := Nat.pow_pos (by decide)

/-- The magnitude nearest to the number. -/
def magnitude (d : Decimal) : Magnitude := .nearest d.numerator d.denominator

/-- Further zeros at the end of the digits change nothing. -/
theorem magnitude_shift (digits count : Nat) (exponent : Int) :
    magnitude ⟨digits * Nat.pow 10 count, exponent - count⟩ = magnitude ⟨digits, exponent⟩ := by
  apply Magnitude.nearest_eq_nearest (denominator_pos _) (denominator_pos _)
  simp only [numerator, denominator]
  generalize units Magnitude.one = one
  have hpower : count + (exponent - count).toNat + (-exponent).toNat =
      exponent.toNat + (-(exponent - count)).toNat := by
    omega
  change digits * 10 ^ count * 10 ^ (exponent - count).toNat * one * 10 ^ (-exponent).toNat =
    digits * 10 ^ exponent.toNat * one * 10 ^ (-(exponent - count)).toNat
  calc digits * 10 ^ count * 10 ^ (exponent - count).toNat * one * 10 ^ (-exponent).toNat
      = digits * 10 ^ (count + (exponent - count).toNat + (-exponent).toNat) * one := by
        rw [Nat.pow_add, Nat.pow_add]
        ring
    _ = digits * 10 ^ (exponent.toNat + (-(exponent - count)).toNat) * one := by rw [hpower]
    _ = digits * 10 ^ exponent.toNat * one * 10 ^ (-(exponent - count)).toNat := by
        rw [Nat.pow_add]
        ring

/-- Zero stays zero whatever its power of ten. -/
theorem magnitude_of_digits_eq_zero {d : Decimal} (h : d.digits = 0) : d.magnitude = .zero := by
  have hzero : d.numerator = units Magnitude.zero * d.denominator := by
    rw [numerator, h, Magnitude.units_zero, Nat.zero_mul, Nat.zero_mul, Nat.zero_mul]
  rw [magnitude, hzero, Magnitude.nearest_units_mul d.denominator_pos]

/-- Whole multiples of `10 ^ 400` are beyond all finite magnitudes. -/
theorem magnitude_of_large {d : Decimal} (hdigits : 0 < d.digits) (h : 400 ≤ d.exponent) :
    d.magnitude = .infinity := by
  have hdenominator : d.denominator = 1 := by
    rw [denominator, Int.toNat_of_nonpos (by omega)]
  have hlarge : units topRank * d.denominator ≤ d.numerator := by
    rw [hdenominator, Nat.mul_one]
    calc units topRank ≤ Nat.pow 10 d.exponent.toNat * units Magnitude.one :=
        units_topRank_le (by omega)
      _ ≤ d.digits * Nat.pow 10 d.exponent.toNat * units Magnitude.one :=
        Nat.mul_le_mul_right _ (Nat.le_mul_of_pos_left _ hdigits)
  have htop := rankNearest_mono d.denominator_pos hlarge
  rw [rankNearest_units_mul d.denominator_pos] at htop
  apply Fin.ext
  exact Nat.min_eq_right htop

/-- What is below `10 ^ (-400)` is below half of the least unit. -/
theorem magnitude_of_small {d : Decimal} {count : Nat} (hdigits : d.digits < Nat.pow 10 count)
    (h : d.exponent ≤ -(count + 400 : Int)) : d.magnitude = .zero := by
  have hhalf : 2 * d.numerator ≤ d.denominator := by
    rw [numerator, Int.toNat_of_nonpos (by omega)]
    calc 2 * (d.digits * 1 * units Magnitude.one)
        = d.digits * (2 * units Magnitude.one) := by rw [Nat.mul_one, Nat.mul_left_comm]
      _ ≤ Nat.pow 10 count * (2 * units Magnitude.one) := Nat.mul_le_mul_right _ hdigits.le
      _ ≤ d.denominator := two_mul_units_one_le (by omega)
  have hunits : units 0 = 0 ∧ units (0 + 1) = 1 := by decide
  have hrounds : RoundsTo d.numerator d.denominator Magnitude.zero := by
    change RoundsTo d.numerator d.denominator 0
    rw [RoundsTo]
    simp only [hunits.1, hunits.2]
    omega
  exact Magnitude.nearest_of_roundsTo d.denominator_pos hrounds

/-! ## The shortest decimal -/

/-- The step of the grid that a decimal lies on, in half units, has the same denominator as the
decimal. -/
theorem gridStep_eq (d : Decimal) : gridStep d.exponent =
    (2 * (Nat.pow 10 d.exponent.toNat * units Magnitude.one), d.denominator) := by
  unfold gridStep denominator
  rw [← two_mul_units_one]
  generalize units Magnitude.one = one
  rw [Nat.mul_left_comm]
  by_cases h : 0 ≤ d.exponent
  · rw [if_pos h, Int.toNat_of_nonpos (by omega : -d.exponent ≤ 0)]
  · have hpower : d.exponent.toNat = 0 := Int.toNat_of_nonpos (by omega)
    rw [if_neg h, hpower]
    exact congrArg (fun step => (2 * step, Nat.pow 10 (-d.exponent).toNat)) (Nat.one_mul _).symm

/-- A decimal reads back as a magnitude if that is the nearest one. -/
theorem magnitude_of_readsBack {d : Decimal} {m : Magnitude} (h : d.readsBack m = true) :
    d.magnitude = m := by
  apply Magnitude.nearest_of_roundsTo d.denominator_pos
  have hhere : d.digits * (2 * (Nat.pow 10 d.exponent.toNat * units Magnitude.one)) =
      2 * d.numerator := by
    rw [numerator, Nat.mul_left_comm, Nat.mul_assoc]
  unfold readsBack at h
  rw [gridStep_eq d] at h
  simp only [hhere] at h
  unfold RoundsTo
  split at h
  next heven =>
    simp only [Bool.and_eq_true, decide_eq_true_eq] at h
    exact ⟨h.1, h.2, by omega⟩
  next hodd =>
    simp only [Bool.and_eq_true, decide_eq_true_eq] at h
    exact ⟨h.1.le, h.2.le, fun _ => h⟩

/-- A decimal that is picked reads back as the magnitude. -/
theorem readsBack_of_onGrid? {tie : Tie} {rank : Nat} {exponent : Int} {d : Decimal}
    (h : onGrid? tie rank exponent = some d) : d.readsBack rank = true := by
  unfold onGrid? at h
  simp only at h
  split at h
  next => cases h
  next hlower _ =>
    cases h
    exact hlower
  next _ hupper =>
    cases h
    exact hupper
  next hlower hupper =>
    have hd := Option.some.inj h
    split_ifs at hd <;> subst hd <;> assumption

/-- A decimal whose digits are a multiple of `5 ^ count` measures a whole number of units, if
`count` places after the point are as fine as the units are. -/
theorem numerator_eq_mul {d : Decimal} {rank count : Nat}
    (hfine : Nat.pow 5 count * units Magnitude.one = Nat.pow 10 count)
    (hdigits : d.digits = units rank * Nat.pow 5 count) (hexponent : d.exponent = -count) :
    d.numerator = units rank * d.denominator := by
  have hpower : (-d.exponent).toNat = count := by omega
  rw [numerator, denominator, hdigits, hpower, Int.toNat_of_nonpos (by omega), ← hfine]
  calc units rank * Nat.pow 5 count * 1 * units Magnitude.one
      = units rank * (Nat.pow 5 count * units Magnitude.one) := by rw [Nat.mul_one, Nat.mul_assoc]

/-- The exact decimal of a magnitude reads back. -/
theorem magnitude_of_exact {d : Decimal} {m : Magnitude} {count : Nat} (hcount : count = 1074)
    (hdigits : d.digits = units m * Nat.pow 5 count) (hexponent : d.exponent = -count) :
    d.magnitude = m := by
  have hfine : Nat.pow 5 count * units Magnitude.one = Nat.pow 10 count := by
    subst hcount
    decide +kernel
  rw [magnitude, numerator_eq_mul hfine hdigits hexponent,
    Magnitude.nearest_units_mul d.denominator_pos]

/-- **The shortest decimal reads back.**  The magnitude nearest to it is the one that it was found
for.  The count of the exact decimal is a variable, which keeps the powers of `1074` from being
computed. -/
theorem magnitude_shortest (tie : Tie) (m : Magnitude) : (shortest tie m).magnitude = m := by
  unfold shortest
  simp only
  cases hfound : (List.range 20).findSome? fun (count : Nat) =>
      onGrid? tie m (placeAbove m - count) with
  | some d =>
      obtain ⟨count, -, hd⟩ := List.exists_of_findSome?_eq_some hfound
      exact magnitude_of_readsBack (readsBack_of_onGrid? hd)
  | none =>
      obtain ⟨count, hcount⟩ : ∃ count, count = 1074 := ⟨1074, rfl⟩
      rw [Option.getD_none, ← hcount]
      exact magnitude_of_exact hcount rfl (by rw [hcount]; rfl)

end Decimal
end RoutePriority
