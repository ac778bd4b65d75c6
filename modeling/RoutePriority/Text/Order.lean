/-!
# The order of texts

Names are sorted by the octets of their UTF-8 form, compared one by one from the left; a text comes
before its extensions.  This is a strict linear order.
-/

namespace RoutePriority.Text

/-- The octets of a text. -/
def octets (text : String) : List UInt8 := text.toByteArray.data.toList

/-- No two texts have the same octets. -/
theorem octets_injective {a b : String} (h : octets a = octets b) : a = b :=
  String.toByteArray_inj.1 (ByteArray.ext (Array.toList_inj.1 h))

/-- Whether a row of octets comes before another. -/
def octetsBefore : List UInt8 → List UInt8 → Bool
  | _, [] => false
  | [], _ :: _ => true
  | a :: as, b :: bs => a.toNat < b.toNat || (a == b && octetsBefore as bs)

/-- Whether a text comes before another. -/
def before (a b : String) : Bool := octetsBefore (octets a) (octets b)

/-- The order of octets is transitive. -/
theorem octetsBefore_trans : ∀ {a b c : List UInt8},
    octetsBefore a b = true → octetsBefore b c = true → octetsBefore a c = true
  | _, [], _, h, _ => by simp [octetsBefore] at h
  | _, _ :: _, [], _, h => by simp [octetsBefore] at h
  | [], _ :: _, _ :: _, _, _ => by simp [octetsBefore]
  | a :: as, b :: bs, c :: cs, hab, hbc => by
    simp only [octetsBefore, Bool.or_eq_true, decide_eq_true_eq, Bool.and_eq_true, beq_iff_eq]
      at hab hbc ⊢
    rcases hab with hab | ⟨rfl, hab⟩ <;> rcases hbc with hbc | ⟨rfl, hbc⟩
    · exact .inl (Nat.lt_trans hab hbc)
    · exact .inl hab
    · exact .inl hbc
    · exact .inr ⟨rfl, octetsBefore_trans hab hbc⟩

/-- Of two rows neither before the other, both are the same. -/
theorem octetsBefore_total : ∀ {a b : List UInt8},
    octetsBefore a b = false → octetsBefore b a = false → a = b
  | [], [], _, _ => rfl
  | [], _ :: _, h, _ => by simp [octetsBefore] at h
  | _ :: _, [], _, h => by simp [octetsBefore] at h
  | a :: as, b :: bs, hab, hba => by
    simp only [octetsBefore, Bool.or_eq_false_iff, decide_eq_false_iff_not, Bool.and_eq_false_imp,
      beq_iff_eq] at hab hba
    obtain rfl : a = b := UInt8.toNat_inj.1 (by omega)
    rw [octetsBefore_total (hab.2 rfl) (hba.2 rfl)]

/-- No row is before itself. -/
theorem octetsBefore_irrefl (a : List UInt8) : octetsBefore a a = false := by
  induction a with
  | nil => rfl
  | cons a as ih => simp [octetsBefore, ih]

theorem before_trans {a b c : String} (hab : before a b = true) (hbc : before b c = true) :
    before a c = true := octetsBefore_trans hab hbc

theorem before_irrefl (a : String) : before a a = false := octetsBefore_irrefl _

/-- Of two different texts one comes before the other. -/
theorem before_of_not_before {a b : String} (h : ¬ before a b = true) (hne : a ≠ b) :
    before b a = true := by
  by_cases hba : before b a = true
  · exact hba
  · simp only [Bool.not_eq_true] at h hba
    exact absurd (octets_injective (octetsBefore_total h hba)) hne

end RoutePriority.Text
