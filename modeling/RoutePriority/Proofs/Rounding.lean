import RoutePriority.Binary64.Basic
import Mathlib.Tactic.Ring
import Mathlib.Order.Monotone.Basic
import Mathlib.Order.Fin.Basic

/-!
# Rounding to the nearest magnitude

`units` turns ranks into lengths and `rankNearest` turns lengths back into ranks.  The first is
strictly increasing, and the second is settled by the midpoints between neighbouring ranks:
`RoundsTo` says so without mentioning how the rank is found.  Everything that later proofs need
of products follows from it:

* `rankNearest_closest` — no other rank lies nearer to the exact quotient;
* `Magnitude.nearest_mono` — a larger length never rounds to a smaller magnitude;
* `Magnitude.nearest_units_mul` — what is a magnitude already rounds to itself;
* `Magnitude.mul_le_left` — a factor of at most one never makes a product grow.
-/

namespace RoutePriority

/-- The number of ranks in a block of equally spaced magnitudes. -/
abbrev blockSize : Nat := Nat.pow 2 52

/-- Rank `shift * blockSize + f` measures `f` steps of `2 ^ shift` units.  The first rank of the
next block is included: the blocks fit together. -/
theorem units_block {shift f : Nat} (hf : f ≤ 2 * blockSize) (hlow : shift = 0 ∨ blockSize ≤ f) :
    units (shift * blockSize + f) = f * 2 ^ shift := by
  have hpos : 0 < blockSize := by decide
  have hdiv : (shift * blockSize + f) / blockSize = shift + f / blockSize := by
    rw [Nat.add_comm, Nat.add_mul_div_right _ _ hpos, Nat.add_comm]
  rcases Nat.lt_or_ge f (2 * blockSize) with hlt | hge
  · have hshift : shift + f / blockSize - 1 = shift := by
      rcases hlow with rfl | hlow
      · have : f / blockSize < 2 := Nat.div_lt_of_lt_mul (by omega)
        omega
      · have : f / blockSize = 1 := Nat.div_eq_of_lt_le (by omega) (by omega)
        omega
    unfold units
    simp only [hdiv, hshift, Nat.add_sub_cancel_left]
    rfl
  · obtain rfl : f = 2 * blockSize := by omega
    have hshift : shift + 2 * blockSize / blockSize - 1 = shift + 1 := by
      rw [Nat.mul_div_cancel _ hpos]
      omega
    have hrest : shift * blockSize + 2 * blockSize - (shift + 1) * blockSize = blockSize := by
      rw [Nat.add_mul]
      omega
    unfold units
    simp only [hdiv, hshift, hrest]
    change blockSize * 2 ^ (shift + 1) = _
    ring

/-- Every rank stands in a block. -/
theorem exists_block (rank : Nat) :
    ∃ shift f, rank = shift * blockSize + f ∧ f < 2 * blockSize ∧
      (shift = 0 ∨ blockSize ≤ f) := by
  have hpos : 0 < blockSize := by decide
  have hsplit := Nat.div_add_mod rank blockSize
  have hmod := Nat.mod_lt rank hpos
  rcases Nat.eq_zero_or_pos (rank / blockSize) with hzero | hblock
  · refine ⟨0, rank, by omega, ?_, Or.inl rfl⟩
    rw [hzero] at hsplit
    omega
  · obtain ⟨shift, hshift⟩ : ∃ shift, rank / blockSize = shift + 1 :=
      ⟨_, (Nat.sub_add_cancel hblock).symm⟩
    refine ⟨shift, blockSize + rank % blockSize, ?_, by omega, Or.inr (by omega)⟩
    rw [hshift, Nat.mul_comm, Nat.succ_mul] at hsplit
    omega

/-- The next rank measures at least one unit more. -/
theorem units_lt_succ (rank : Nat) : units rank < units (rank + 1) := by
  obtain ⟨shift, f, rfl, hf, hlow⟩ := exists_block rank
  have hnext : units (shift * blockSize + (f + 1)) = (f + 1) * 2 ^ shift :=
    units_block (by omega) (hlow.imp_right (by omega))
  rw [units_block (by omega) hlow, Nat.add_assoc, hnext]
  exact Nat.mul_lt_mul_of_pos_right (Nat.lt_succ_self f) (Nat.two_pow_pos shift)

/-- Higher ranks measure more. -/
theorem units_strictMono : StrictMono units := strictMono_nat_of_lt_succ units_lt_succ

theorem units_le_units {rank other : Nat} : units rank ≤ units other ↔ rank ≤ other :=
  units_strictMono.le_iff_le

/-- What `rankBelow` computes is a block and the last place in it that is not beyond `n`. -/
theorem exists_block_rankBelow (n : Nat) :
    ∃ shift f, rankBelow n = shift * blockSize + f ∧ f < 2 * blockSize ∧
      (shift = 0 ∨ blockSize ≤ f) ∧ f * 2 ^ shift ≤ n ∧ n < (f + 1) * 2 ^ shift := by
  have hstep : 0 < 2 ^ (n.log2 - 52) := Nat.two_pow_pos _
  have htop : n < 2 * blockSize * 2 ^ (n.log2 - 52) := by
    calc n < 2 ^ (n.log2 + 1) := Nat.lt_log2_self
      _ ≤ 2 ^ (53 + (n.log2 - 52)) := Nat.pow_le_pow_right (by decide) (by omega)
      _ = 2 * blockSize * 2 ^ (n.log2 - 52) := Nat.pow_add 2 53 _
  refine ⟨n.log2 - 52, n / 2 ^ (n.log2 - 52), rfl, (Nat.div_lt_iff_lt_mul hstep).mpr htop, ?_,
    Nat.div_mul_le_self _ _, ?_⟩
  · rcases Nat.eq_zero_or_pos (n.log2 - 52) with hzero | hshift
    · exact Or.inl hzero
    · refine Or.inr ((Nat.le_div_iff_mul_le hstep).mpr ?_)
      have hn : n ≠ 0 := by
        intro hn
        simp [hn] at hshift
      calc blockSize * 2 ^ (n.log2 - 52)
          = 2 ^ (52 + (n.log2 - 52)) := (Nat.pow_add 2 52 _).symm
        _ = 2 ^ n.log2 := by rw [Nat.add_sub_of_le (by omega)]
        _ ≤ n := Nat.log2_self_le hn
  · have := Nat.lt_div_mul_add (a := n) hstep
    rwa [Nat.succ_mul]

/-- The rank found below a number measures no more than it. -/
theorem units_rankBelow_le (n : Nat) : units (rankBelow n) ≤ n := by
  obtain ⟨shift, f, hrank, hf, hlow, hle, _⟩ := exists_block_rankBelow n
  rw [hrank, units_block (by omega) hlow]
  exact hle

/-- The rank after the one found below a number measures more than it. -/
theorem lt_units_rankBelow_succ (n : Nat) : n < units (rankBelow n + 1) := by
  obtain ⟨shift, f, hrank, hf, hlow, _, hlt⟩ := exists_block_rankBelow n
  rw [hrank, Nat.add_assoc, units_block (by omega) (hlow.imp_right (by omega))]
  exact hlt

/-- `numerator / denominator` units lie between the midpoints to the two neighbours of `rank`, and
on one of them only if the rank is even. -/
def RoundsTo (numerator denominator rank : Nat) : Prop :=
  let low := (units (rank - 1) + units rank) * denominator
  let high := (units rank + units (rank + 1)) * denominator
  low ≤ 2 * numerator ∧ 2 * numerator ≤ high ∧
    (rank % 2 = 1 → low < 2 * numerator ∧ 2 * numerator < high)

/-- The computed rank is the one that the midpoints single out. -/
theorem roundsTo_rankNearest {numerator denominator : Nat} (hd : 0 < denominator) :
    RoundsTo numerator denominator (rankNearest numerator denominator) := by
  have hlow : units (rankBelow (numerator / denominator)) * denominator ≤ numerator :=
    (Nat.le_div_iff_mul_le hd).mp (units_rankBelow_le _)
  have hhigh : numerator < units (rankBelow (numerator / denominator) + 1) * denominator :=
    (Nat.div_lt_iff_lt_mul hd).mp (lt_units_rankBelow_succ _)
  unfold rankNearest
  generalize rankBelow (numerator / denominator) = below at hlow hhigh
  have hprev : units (below - 1) * denominator ≤ units below * denominator :=
    Nat.mul_le_mul_right _ (units_le_units.mpr (by omega))
  have hprev' : below % 2 = 1 → units (below - 1) * denominator < units below * denominator :=
    fun hodd => Nat.mul_lt_mul_of_pos_right (units_strictMono (by omega)) hd
  have hnext : units (below + 1) * denominator < units (below + 1 + 1) * denominator :=
    Nat.mul_lt_mul_of_pos_right (units_lt_succ _) hd
  simp only [RoundsTo, Nat.add_mul]
  split
  · exact ⟨by omega, by omega, fun hodd => ⟨by have := hprev' hodd; omega, by omega⟩⟩
  · split
    · rw [Nat.add_sub_cancel]
      exact ⟨by omega, by omega, fun _ => ⟨by omega, by omega⟩⟩
    · rcases Nat.mod_two_eq_zero_or_one below with heven | hodd
      · rw [heven, Nat.add_zero]
        exact ⟨by omega, by omega, by omega⟩
      · rw [hodd, Nat.add_sub_cancel]
        exact ⟨by omega, by omega, by omega⟩

/-- A smaller quotient rounds to no larger rank.  If it did, both quotients would lie on the one
midpoint between two neighbouring ranks, and then the odd one of the two is not what they round
to. -/
theorem RoundsTo.le_of_mul_le_mul {n d rank n' d' rank' : Nat} (hd : 0 < d) (hd' : 0 < d')
    (h : RoundsTo n d rank) (h' : RoundsTo n' d' rank') (hle : n * d' ≤ n' * d) :
    rank ≤ rank' := by
  by_contra hlt
  obtain ⟨hlow, -, hodd⟩ := h
  obtain ⟨-, hhigh, hodd'⟩ := h'
  have hmiddle : units rank' + units (rank' + 1) ≤ units (rank - 1) + units rank :=
    Nat.add_le_add (units_le_units.mpr (by omega)) (units_le_units.mpr (by omega))
  have hlow' : (units (rank - 1) + units rank) * d * d' ≤ 2 * (n * d') := by
    calc (units (rank - 1) + units rank) * d * d' ≤ 2 * n * d' := Nat.mul_le_mul_right d' hlow
      _ = 2 * (n * d') := Nat.mul_assoc _ _ _
  have hhigh' : 2 * (n' * d) ≤ (units rank' + units (rank' + 1)) * d' * d := by
    calc 2 * (n' * d) = 2 * n' * d := (Nat.mul_assoc _ _ _).symm
      _ ≤ (units rank' + units (rank' + 1)) * d' * d := Nat.mul_le_mul_right d hhigh
  have hscaled : (units rank' + units (rank' + 1)) * d' * d ≤
      (units (rank - 1) + units rank) * d * d' := by
    rw [Nat.mul_right_comm]
    exact Nat.mul_le_mul_right d' (Nat.mul_le_mul_right d hmiddle)
  have hneighbours : rank = rank' + 1 := by
    by_contra hne
    have hfar : units rank' + units (rank' + 1) < units (rank - 1) + units rank :=
      Nat.add_lt_add (units_strictMono (by omega)) (units_strictMono (by omega))
    have := Nat.mul_lt_mul_of_pos_right (Nat.mul_lt_mul_of_pos_right hfar hd) hd'
    rw [Nat.mul_right_comm] at this
    omega
  rcases Nat.mod_two_eq_zero_or_one rank with heven | hone
  · have := Nat.mul_lt_mul_of_pos_right (hodd' (by omega)).2 hd
    rw [Nat.mul_assoc] at this
    omega
  · have := Nat.mul_lt_mul_of_pos_right (hodd hone).1 hd'
    rw [Nat.mul_assoc 2] at this
    omega

/-- A quotient rounds to one rank only. -/
theorem RoundsTo.unique {numerator denominator rank other : Nat} (hd : 0 < denominator)
    (h : RoundsTo numerator denominator rank) (h' : RoundsTo numerator denominator other) :
    rank = other :=
  Nat.le_antisymm (h.le_of_mul_le_mul hd hd h' (Nat.le_refl _))
    (h'.le_of_mul_le_mul hd hd h (Nat.le_refl _))

/-- Rounding keeps the order. -/
theorem rankNearest_mono {n n' denominator : Nat} (hd : 0 < denominator) (h : n ≤ n') :
    rankNearest n denominator ≤ rankNearest n' denominator :=
  (roundsTo_rankNearest hd).le_of_mul_le_mul hd hd (roundsTo_rankNearest hd)
    (Nat.mul_le_mul_right _ h)

/-- The length of a rank rounds to that rank. -/
theorem rankNearest_units_mul {denominator : Nat} (hd : 0 < denominator) (rank : Nat) :
    rankNearest (units rank * denominator) denominator = rank := by
  have hprev : units (rank - 1) * denominator ≤ units rank * denominator :=
    Nat.mul_le_mul_right _ (units_le_units.mpr (Nat.sub_le _ _))
  have hnext : units rank * denominator < units (rank + 1) * denominator :=
    Nat.mul_lt_mul_of_pos_right (units_lt_succ rank) hd
  refine (roundsTo_rankNearest hd).unique hd ?_
  simp only [RoundsTo, Nat.add_mul]
  refine ⟨by omega, by omega, fun hodd => ⟨?_, by omega⟩⟩
  have : units (rank - 1) * denominator < units rank * denominator :=
    Nat.mul_lt_mul_of_pos_right (units_strictMono (by omega)) hd
  omega

/-- **Nearest rank.**  No rank lies nearer to the exact quotient than the computed one. -/
theorem rankNearest_closest {numerator denominator : Nat} (hd : 0 < denominator) (other : Nat) :
    ((units (rankNearest numerator denominator) * denominator : Int) - numerator).natAbs ≤
      ((units other * denominator : Int) - numerator).natAbs := by
  have hrounds : RoundsTo numerator denominator _ := roundsTo_rankNearest hd
  obtain ⟨hlow, hhigh, -⟩ := hrounds
  generalize rankNearest numerator denominator = rank at hlow hhigh
  simp only [Nat.add_mul] at hlow hhigh
  rcases Nat.lt_trichotomy other rank with hbelow | rfl | habove
  · have hprev : units other * denominator ≤ units (rank - 1) * denominator :=
      Nat.mul_le_mul_right _ (units_le_units.mpr (by omega))
    have hself : units (rank - 1) * denominator ≤ units rank * denominator :=
      Nat.mul_le_mul_right _ (units_le_units.mpr (Nat.sub_le _ _))
    omega
  · exact Nat.le_refl _
  · have hnext : units (rank + 1) * denominator ≤ units other * denominator :=
      Nat.mul_le_mul_right _ (units_le_units.mpr habove)
    have hself : units rank * denominator ≤ units (rank + 1) * denominator :=
      Nat.mul_le_mul_right _ (units_le_units.mpr (Nat.le_succ _))
    omega

namespace Magnitude

/-- Rounding to magnitudes keeps the order. -/
theorem nearest_mono {n n' denominator : Nat} (hd : 0 < denominator) (h : n ≤ n') :
    nearest n denominator ≤ nearest n' denominator := by
  have := rankNearest_mono hd h
  simp only [nearest, Fin.mk_le_mk]
  omega

/-- What a magnitude measures is rounded to that magnitude. -/
theorem nearest_units_mul {denominator : Nat} (hd : 0 < denominator) (m : Magnitude) :
    nearest (units m * denominator) denominator = m := by
  apply Fin.ext
  simp only [nearest, rankNearest_units_mul hd]
  omega

/-- The magnitude one measures `2 ^ 1074` units. -/
theorem units_one : units one = Nat.pow 2 1074 := by
  decide +kernel

theorem units_one_pos : 0 < units one := Nat.lt_of_le_of_lt (Nat.zero_le _) (units_lt_succ _)

theorem units_zero : units zero = 0 := by decide

/-- A product is measured in units of the magnitude one. -/
theorem mul_eq_nearest (a b : Magnitude) : a.mul b = nearest (units a * units b) (units one) := by
  rw [units_one]
  rfl

/-- The product does not depend on the order of its factors. -/
theorem mul_comm (a b : Magnitude) : a.mul b = b.mul a := by
  rw [mul_eq_nearest, mul_eq_nearest, Nat.mul_comm]

/-- Smaller factors have no larger product. -/
theorem mul_mono {a a' b b' : Magnitude} (ha : a ≤ a') (hb : b ≤ b') : a.mul b ≤ a'.mul b' := by
  rw [mul_eq_nearest, mul_eq_nearest]
  exact nearest_mono units_one_pos (Nat.mul_le_mul (units_le_units.mpr ha) (units_le_units.mpr hb))

/-- A product with one is exact. -/
theorem mul_one (a : Magnitude) : a.mul one = a := by
  rw [mul_eq_nearest]
  exact nearest_units_mul units_one_pos a

theorem mul_zero (a : Magnitude) : a.mul zero = zero := by
  have h := nearest_units_mul units_one_pos zero
  rw [units_zero, Nat.zero_mul] at h
  rw [mul_eq_nearest, units_zero, Nat.mul_zero]
  exact h

/-- A factor of at most one never makes a product grow. -/
theorem mul_le_left {a b : Magnitude} (hb : b ≤ one) : a.mul b ≤ a :=
  (mul_mono (le_refl a) hb).trans_eq (mul_one a)

/-- A factor of at most one makes a product no larger. -/
theorem mul_le_right {a b : Magnitude} (ha : a ≤ one) : a.mul b ≤ b :=
  (mul_mono ha (le_refl b)).trans_eq ((mul_comm one b).trans (mul_one b))

end Magnitude

end RoutePriority
