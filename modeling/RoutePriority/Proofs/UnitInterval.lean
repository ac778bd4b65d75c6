import RoutePriority.Proofs.Rounding
import Mathlib.Data.List.Forall2

/-!
# Products in the unit interval

A valid factor lies between zero and one, and so does every product of valid factors: rounding never
carries a product over one of its factors.  In particular a product is one only if both factors are,
and it is zero if one of them is.  The negative zero counts as zero and is a valid factor.
-/

namespace RoutePriority.Binary64

/-- The place of the positive number of a magnitude is its rank. -/
theorem place?_positive (m : Magnitude) : (signed false m).place? = some ((m : Nat) : Int) := rfl

theorem place?_negative (m : Magnitude) : (signed true m).place? = some (-((m : Nat) : Int)) := rfl

theorem place?_zero : zero.place? = some 0 := rfl

theorem place?_one : one.place? = some ((Magnitude.one : Nat) : Int) := rfl

theorem eq_zero_iff {m : Magnitude} : m = .zero ↔ (m : Nat) = 0 := Fin.ext_iff

/-- A number from zero to one. -/
def InUnitInterval (x : Binary64) : Prop := zero.le x = true ∧ x.le one = true

instance (x : Binary64) : Decidable x.InUnitInterval := inferInstanceAs (Decidable (_ ∧ _))

/-- What is not a number is in no interval. -/
theorem not_inUnitInterval_nan : ¬ InUnitInterval nan := by
  simp [InUnitInterval, le, place?]

/-- A number of the unit interval has a magnitude of at most one, and a minus sign only before a
zero. -/
theorem inUnitInterval_signed {negative : Bool} {m : Magnitude} :
    InUnitInterval (signed negative m) ↔ m ≤ .one ∧ (negative = true → m = .zero) := by
  have hle : m ≤ Magnitude.one ↔ (m : Nat) ≤ (Magnitude.one : Nat) := Iff.rfl
  rw [InUnitInterval, le, le, place?_zero, place?_one, hle, eq_zero_iff]
  generalize (Magnitude.one : Nat) = rankOne
  cases negative with
  | false =>
      rw [place?_positive]
      simp
  | true =>
      rw [place?_negative]
      simp only [decide_eq_true_eq, forall_const]
      omega

theorem InUnitInterval.isNan_eq_false {x : Binary64} (h : InUnitInterval x) : x.isNan = false := by
  cases x with
  | nan => exact absurd h not_inUnitInterval_nan
  | signed negative m => rfl

/-- The interval holds the magnitudes up to one, and of the negative numbers only minus zero. -/
theorem InUnitInterval.exists_signed {x : Binary64} (h : InUnitInterval x) :
    ∃ negative m, x = signed negative m ∧ m ≤ .one ∧ (negative = true → m = .zero) := by
  cases x with
  | nan => exact absurd h not_inUnitInterval_nan
  | signed negative m => exact ⟨negative, m, rfl, inUnitInterval_signed.mp h⟩

theorem inUnitInterval_one : InUnitInterval one :=
  inUnitInterval_signed.mpr ⟨le_refl _, by simp⟩

/-- Numbers of the unit interval are multiplied by multiplying their magnitudes. -/
theorem signed_mul_signed {s t : Bool} {a b : Magnitude} (ha : a ≤ .one) (hb : b ≤ .one) :
    signed s a * signed t b = signed (s != t) (a.mul b) := by
  have hone : Magnitude.one < Magnitude.infinity := by decide
  have ha' : a ≠ .infinity := (ha.trans_lt hone).ne
  have hb' : b ≠ .infinity := (hb.trans_lt hone).ne
  change mul (signed s a) (signed t b) = _
  rw [mul, if_neg (not_or.mpr ⟨ha', hb'⟩)]

/-- The unit interval is closed under rounded products. -/
theorem InUnitInterval.mul {x y : Binary64} (hx : InUnitInterval x) (hy : InUnitInterval y) :
    InUnitInterval (x * y) := by
  obtain ⟨s, a, rfl, ha, hsa⟩ := hx.exists_signed
  obtain ⟨t, b, rfl, hb, htb⟩ := hy.exists_signed
  rw [signed_mul_signed ha hb, inUnitInterval_signed]
  refine ⟨(Magnitude.mul_le_left hb).trans ha, ?_⟩
  intro hsign
  cases s with
  | true => rw [hsa rfl, Magnitude.mul_comm, Magnitude.mul_zero]
  | false =>
      have ht : t = true := by simpa using hsign
      rw [htb ht, Magnitude.mul_zero]

/-- A product of two numbers of the unit interval is one only if both are. -/
theorem InUnitInterval.mul_eq_one_iff {x y : Binary64} (hx : InUnitInterval x)
    (hy : InUnitInterval y) : x * y = one ↔ x = one ∧ y = one := by
  obtain ⟨s, a, rfl, ha, hsa⟩ := hx.exists_signed
  obtain ⟨t, b, rfl, hb, htb⟩ := hy.exists_signed
  have hne : Magnitude.one ≠ Magnitude.zero := by decide
  rw [signed_mul_signed ha hb, one, signed.injEq, signed.injEq, signed.injEq]
  constructor
  · intro h
    obtain ⟨-, hproduct⟩ := h
    have ha' : a = .one := ha.antisymm (hproduct ▸ Magnitude.mul_le_left hb)
    have hb' : b = .one := hb.antisymm (hproduct ▸ Magnitude.mul_le_right ha)
    refine ⟨⟨?_, ha'⟩, ?_, hb'⟩
    · exact Bool.eq_false_iff.mpr fun hs => hne (ha'.symm.trans (hsa hs))
    · exact Bool.eq_false_iff.mpr fun ht => hne (hb'.symm.trans (htb ht))
  · intro h
    obtain ⟨⟨rfl, rfl⟩, rfl, rfl⟩ := h
    exact ⟨rfl, Magnitude.mul_one _⟩

/-- What equals zero is one of the two zeros. -/
theorem same_zero_iff {x : Binary64} :
    x.same zero = true ↔ ∃ negative, x = signed negative .zero := by
  cases x with
  | nan => simp [same, place?]
  | signed negative m =>
      rw [same, place?_zero]
      cases negative with
      | false =>
          rw [place?_positive]
          simp [eq_zero_iff]
      | true =>
          rw [place?_negative]
          simp [eq_zero_iff]

/-- A product of two numbers of the unit interval is zero if one of them is. -/
theorem InUnitInterval.mul_same_zero {x y : Binary64} (hx : InUnitInterval x)
    (hy : InUnitInterval y) (h : x.same zero = true ∨ y.same zero = true) :
    (x * y).same zero = true := by
  obtain ⟨s, a, rfl, ha, -⟩ := hx.exists_signed
  obtain ⟨t, b, rfl, hb, -⟩ := hy.exists_signed
  rw [signed_mul_signed ha hb]
  simp only [same_zero_iff, signed.injEq] at h ⊢
  refine ⟨s != t, rfl, ?_⟩
  rcases h with ⟨-, -, rfl⟩ | ⟨-, -, rfl⟩
  · rw [Magnitude.mul_comm, Magnitude.mul_zero]
  · rw [Magnitude.mul_zero]

/-- Numbers of the unit interval compare as their magnitudes do, for a minus sign stands only before
a zero. -/
theorem InUnitInterval.signed_le_signed_iff {s t : Bool} {a b : Magnitude}
    (ha : InUnitInterval (signed s a)) (hb : InUnitInterval (signed t b)) :
    (signed s a).le (signed t b) = true ↔ a ≤ b := by
  obtain ⟨-, hsa⟩ := inUnitInterval_signed.mp ha
  obtain ⟨-, htb⟩ := inUnitInterval_signed.mp hb
  have hle : a ≤ b ↔ (a : Nat) ≤ (b : Nat) := Iff.rfl
  rw [eq_zero_iff] at hsa htb
  rw [le, hle]
  cases s <;> cases t <;>
    simp only [place?_positive, place?_negative, decide_eq_true_eq, forall_const] at hsa htb ⊢ <;>
    omega

theorem InUnitInterval.le_refl {x : Binary64} (h : InUnitInterval x) : x.le x = true := by
  obtain ⟨s, a, rfl, -, -⟩ := h.exists_signed
  exact (h.signed_le_signed_iff h).mpr (Nat.le_refl _)

/-- Rounded products of the unit interval grow with both factors. -/
theorem InUnitInterval.mul_le_mul {x x' y y' : Binary64} (hx : InUnitInterval x)
    (hx' : InUnitInterval x') (hy : InUnitInterval y) (hy' : InUnitInterval y')
    (hxx : x.le x' = true) (hyy : y.le y' = true) : (x * y).le (x' * y') = true := by
  have hproduct := hx.mul hy
  have hproduct' := hx'.mul hy'
  obtain ⟨s, a, rfl, ha, -⟩ := hx.exists_signed
  obtain ⟨s', a', rfl, ha', -⟩ := hx'.exists_signed
  obtain ⟨t, b, rfl, hb, -⟩ := hy.exists_signed
  obtain ⟨t', b', rfl, hb', -⟩ := hy'.exists_signed
  rw [hx.signed_le_signed_iff hx'] at hxx
  rw [hy.signed_le_signed_iff hy'] at hyy
  rw [signed_mul_signed ha hb, signed_mul_signed ha' hb'] at *
  exact (hproduct.signed_le_signed_iff hproduct').mpr (Magnitude.mul_mono hxx hyy)

/-- One is neutral, for every number. -/
theorem mul_one (x : Binary64) : x * one = x := by
  cases x with
  | nan => rfl
  | signed s m =>
      have hone : Magnitude.one ≠ Magnitude.infinity := by decide
      have hzero : Magnitude.one ≠ Magnitude.zero := by decide
      change mul (signed s m) (signed false .one) = _
      rw [mul]
      by_cases hm : m = .infinity
      · have hm' : Magnitude.infinity ≠ Magnitude.zero := by decide
        subst hm
        simp [hm', hzero]
      · simp [hm, hone, Magnitude.mul_one]

/-- A further factor of the unit interval keeps a number below a bound. -/
theorem InUnitInterval.mul_le_of_le {x y bound : Binary64} (hx : InUnitInterval x)
    (hy : InUnitInterval y) (hbound : InUnitInterval bound) (hle : x.le bound = true) :
    (x * y).le bound = true := by
  have h := hx.mul_le_mul hbound hy inUnitInterval_one hle hy.2
  rwa [mul_one] at h

section Products

variable {start : Binary64} {factors : List Binary64}

/-- The running product of factors stays in the unit interval. -/
theorem InUnitInterval.foldl_mul (hstart : InUnitInterval start)
    (hfactors : ∀ x ∈ factors, InUnitInterval x) :
    InUnitInterval (factors.foldl (· * ·) start) := by
  induction factors generalizing start with
  | nil => exact hstart
  | cons x rest ih =>
      obtain ⟨hx, hrest⟩ := List.forall_mem_cons.mp hfactors
      exact ih (hstart.mul hx) hrest

/-- The running product is one only if nothing but ones was multiplied. -/
theorem InUnitInterval.foldl_mul_eq_one_iff (hstart : InUnitInterval start)
    (hfactors : ∀ x ∈ factors, InUnitInterval x) :
    factors.foldl (· * ·) start = one ↔ start = one ∧ ∀ x ∈ factors, x = one := by
  induction factors generalizing start with
  | nil => simp
  | cons x rest ih =>
      obtain ⟨hx, hrest⟩ := List.forall_mem_cons.mp hfactors
      rw [List.foldl_cons, ih (hstart.mul hx) hrest, hstart.mul_eq_one_iff hx,
        List.forall_mem_cons, and_assoc]

/-- A zero among the factors makes the running product zero for good. -/
theorem InUnitInterval.foldl_mul_same_zero (hstart : InUnitInterval start)
    (hfactors : ∀ x ∈ factors, InUnitInterval x)
    (hzero : start.same zero = true ∨ ∃ x ∈ factors, x.same zero = true) :
    (factors.foldl (· * ·) start).same zero = true := by
  induction factors generalizing start with
  | nil => simpa using hzero
  | cons x rest ih =>
      obtain ⟨hx, hrest⟩ := List.forall_mem_cons.mp hfactors
      refine ih (hstart.mul hx) hrest ?_
      rcases hzero with hzero | ⟨y, hy, hzero⟩
      · exact Or.inl (hstart.mul_same_zero hx (Or.inl hzero))
      · rcases List.mem_cons.mp hy with rfl | hy
        · exact Or.inl (hstart.mul_same_zero hx (Or.inr hzero))
        · exact Or.inr ⟨y, hy, hzero⟩

/-- A running product does not grow when factors become smaller and further ones join in: one by
one, the further factors leave the smaller product below the other. -/
theorem InUnitInterval.foldl_mul_le {start' : Binary64} {factors' : List Binary64}
    (hstart : InUnitInterval start) (hstart' : InUnitInterval start')
    (hle : start'.le start = true) (hfactors : ∀ x ∈ factors, InUnitInterval x)
    (hfactors' : ∀ x ∈ factors', InUnitInterval x)
    (h : List.SublistForall₂ (fun x y => y.le x = true) factors factors') :
    (factors'.foldl (· * ·) start').le (factors.foldl (· * ·) start) = true := by
  induction h generalizing start start' with
  | @nil factors' =>
      induction factors' generalizing start' with
      | nil => exact hle
      | cons y rest ih =>
          obtain ⟨hy, hrest⟩ := List.forall_mem_cons.mp hfactors'
          exact ih (hstart'.mul hy) (hstart'.mul_le_of_le hy hstart hle) hrest
  | @cons x y _ _ hxy _ ih =>
      obtain ⟨hx, hrest⟩ := List.forall_mem_cons.mp hfactors
      obtain ⟨hy, hrest'⟩ := List.forall_mem_cons.mp hfactors'
      exact ih (hstart.mul hx) (hstart'.mul hy) (hstart'.mul_le_mul hstart hy hx hle hxy) hrest
        hrest'
  | @cons_right y _ _ _ ih =>
      obtain ⟨hy, hrest'⟩ := List.forall_mem_cons.mp hfactors'
      exact ih hstart (hstart'.mul hy) (hstart'.mul_le_of_le hy hstart hle) hfactors hrest'

/-- Running products grow with their factors. -/
theorem foldl_mul_mono {factors' : List Binary64} (hfactors : ∀ x ∈ factors, InUnitInterval x)
    (hfactors' : ∀ x ∈ factors', InUnitInterval x)
    (h : List.Forall₂ (fun x y : Binary64 => x.le y = true) factors factors') :
    (factors.foldl (· * ·) one).le (factors'.foldl (· * ·) one) = true := by
  have hbelow : List.SublistForall₂ (fun x y : Binary64 => y.le x = true) factors' factors :=
    List.sublistForall₂_iff.mpr ⟨factors, h.flip, .refl _⟩
  have hone := inUnitInterval_one
  exact hone.foldl_mul_le hone hone.le_refl hfactors' hfactors hbelow

end Products

end RoutePriority.Binary64
