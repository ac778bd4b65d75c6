import RoutePriority.Json.Numeral
import Mathlib.Data.List.Induction
import Mathlib.Tactic.Ring
import Mathlib.Tactic.SplitIfs

/-!
# What JSON numerals denote

The number of a numeral, said without a reader.  Digits alone denote their integer if it fits 64
bits; minus zero has no integer.  Every other numeral denotes a rounded number: its digits fill a
significand of 64 bits, from the first on and as far as there is room (`FillsWord`), and what is
left out or stands after the point is made up for by the power of ten (`Scaled.OfNumeral`).  The
magnitude of the two is a product or a quotient of rounded magnitudes (`Scaled.Measures`), and a
magnitude beyond all finite numbers leaves the numeral without a number.

`JsonNumber.ofParts?_eq_some_iff` says that the reader finds exactly these numbers.
-/

namespace RoutePriority

/-! ## Significands -/

/-- Digits are split where a significand of 64 bits is full: what is kept of them fits after the
digits `start`, and with the next digit it would not. -/
structure FillsWord (start digits kept left : List Char) : Prop where
  eq_append : digits = kept ++ left
  fits : Nat.ofDigitChars 10 (start ++ kept) 0 < 2 ^ 64
  full : ∀ c ∈ left.head?, 2 ^ 64 ≤ Nat.ofDigitChars 10 (start ++ kept ++ [c]) 0

/-- One more digit counts after ten times those before it. -/
theorem ofDigitChars_concat (digits : List Char) (c : Char) :
    Nat.ofDigitChars 10 (digits ++ [c]) 0 = 10 * Nat.ofDigitChars 10 digits 0 + digitValue c := by
  rw [Nat.ofDigitChars_append]
  rfl

/-- More digits denote no smaller number. -/
theorem ofDigitChars_le_append (digits more : List Char) :
    Nat.ofDigitChars 10 digits 0 ≤ Nat.ofDigitChars 10 (digits ++ more) 0 := by
  induction more using List.reverseRecOn with
  | nil => simp
  | append_singleton more c ih =>
      rw [← List.append_assoc, ofDigitChars_concat]
      omega

namespace FillsWord

variable {start digits kept left : List Char}

/-- The reader fills a significand just so. -/
theorem fill_eq (h : FillsWord start digits kept left) :
    Scaled.fill (Nat.ofDigitChars 10 start 0) digits =
      (Nat.ofDigitChars 10 (start ++ kept) 0, left) := by
  induction digits generalizing start kept with
  | nil =>
      obtain ⟨rfl, rfl⟩ := List.append_eq_nil_iff.mp h.eq_append.symm
      rw [List.append_nil]
      rfl
  | cons c rest ih =>
      rw [Scaled.fill, ← ofDigitChars_concat]
      cases kept with
      | nil =>
          have hleft : left = c :: rest := h.eq_append.symm
          have hfull := h.full c (by rw [hleft]; rfl)
          rw [List.append_nil] at hfull ⊢
          rw [if_neg (by omega), hleft]
      | cons first kept =>
          obtain ⟨rfl, hrest⟩ := List.cons.inj h.eq_append
          have hsplit : start ++ c :: kept = start ++ [c] ++ kept := List.append_cons ..
          have hfits := h.fits
          have hfull := h.full
          rw [hsplit] at hfits hfull ⊢
          have hshorter := ofDigitChars_le_append (start ++ [c]) kept
          rw [if_pos (by omega)]
          exact ih ⟨hrest, hfits, hfull⟩

/-- Every row of digits can be split so. -/
theorem exists_split (digits : List Char) {start : List Char}
    (hstart : Nat.ofDigitChars 10 start 0 < 2 ^ 64) :
    ∃ kept left, FillsWord start digits kept left := by
  induction digits generalizing start with
  | nil => exact ⟨[], [], rfl, by rwa [List.append_nil], by simp⟩
  | cons c rest ih =>
      by_cases hroom : Nat.ofDigitChars 10 (start ++ [c]) 0 < 2 ^ 64
      · obtain ⟨kept, left, heq, hfits, hfull⟩ := ih hroom
        refine ⟨c :: kept, left, by rw [heq, List.cons_append], ?_, ?_⟩
        · rwa [List.append_cons]
        · rwa [List.append_cons start]
      · refine ⟨[], c :: rest, rfl, by rwa [List.append_nil], ?_⟩
        intro first hfirst
        obtain rfl := Option.some.inj hfirst
        rw [List.append_nil]
        exact Nat.not_lt.mp hroom

end FillsWord

namespace Scaled

/-- The significand and the power of ten of a numeral with digits before and after its point and a
power of its own.  A digit that is left out before the point raises the power, and one that is kept
after the point lowers it. -/
inductive OfNumeral (whole fraction : List Char) (power : Int) : Scaled → Prop
  | split {wholeKept wholeLeft kept left : List Char}
      (hwhole : FillsWord [] whole wholeKept wholeLeft)
      (hfraction : FillsWord wholeKept fraction kept left) :
      OfNumeral whole fraction power
        ⟨Nat.ofDigitChars 10 (wholeKept ++ kept) 0, power + wholeLeft.length - kept.length⟩

/-- The reader scales a numeral just so. -/
theorem ofNumeral_iff {whole fraction : List Char} {power : Int} {scaled : Scaled} :
    OfNumeral whole fraction power scaled ↔ scaled = ofParts whole fraction power := by
  have hsplit : ∀ {scaled : Scaled}, OfNumeral whole fraction power scaled →
      scaled = ofParts whole fraction power := by
    rintro _ @⟨wholeKept, wholeLeft, kept, left, hwhole, hfraction⟩
    have hbegun : fill 0 whole = (Nat.ofDigitChars 10 wholeKept 0, wholeLeft) := hwhole.fill_eq
    have hlength := congrArg List.length hfraction.eq_append
    rw [List.length_append] at hlength
    rw [ofParts, hbegun]
    simp only [hfraction.fill_eq, mk.injEq, true_and]
    omega
  refine ⟨hsplit, ?_⟩
  intro h
  obtain rfl := h
  obtain ⟨wholeKept, wholeLeft, hwhole⟩ := @FillsWord.exists_split whole [] (by decide)
  obtain ⟨kept, left, hfraction⟩ := FillsWord.exists_split fraction hwhole.fits
  rw [← hsplit (.split hwhole hfraction)]
  exact .split hwhole hfraction

/-! ## Magnitudes -/

/-- The magnitude of a significand and a power of ten.  Each of the two is rounded, and so is their
product or quotient; a power too great for a finite number gives infinity, and one too small gives
zero after two divisions at most. -/
inductive Measures : Scaled → Magnitude → Prop
  | raised {significand power : Nat} (h : power ≤ 308) :
      Measures ⟨significand, power⟩ ((Magnitude.ofNat significand).mul (.ofNat (Nat.pow 10 power)))
  | zero {power : Nat} (h : 308 < power) : Measures ⟨0, power⟩ .zero
  | beyond {significand power : Nat} (hpositive : 0 < significand) (h : 308 < power) :
      Measures ⟨significand, power⟩ .infinity
  | lowered {significand power : Nat} (hpositive : 0 < power) (h : power ≤ 308) :
      Measures ⟨significand, -power⟩ ((Magnitude.ofNat significand).div (.ofNat (Nat.pow 10 power)))
  | loweredTwice {significand power : Nat} (hmore : 308 < power) (h : power ≤ 616) :
      Measures ⟨significand, -power⟩
        (((Magnitude.ofNat significand).div (.ofNat (Nat.pow 10 maxPower))).div
          (.ofNat (Nat.pow 10 (power - maxPower))))
  | vanished {significand power : Nat} (h : 616 < power) : Measures ⟨significand, -power⟩ .zero

/-- The reader's magnitude for a power of ten that is not negative. -/
theorem magnitude_raised (significand power : Nat) :
    magnitude ⟨significand, power⟩ =
      if power ≤ 308 then (Magnitude.ofNat significand).mul (tenTo power)
      else if significand = 0 then .zero else .infinity := by
  unfold magnitude
  rw [if_pos (Int.natCast_nonneg power)]
  rfl

/-- The reader's magnitude for a negative power of ten. -/
theorem magnitude_lowered (significand : Nat) {power : Nat} (hpositive : 0 < power) :
    magnitude ⟨significand, -power⟩ =
      if power ≤ 308 then (Magnitude.ofNat significand).div (tenTo power)
      else if power ≤ 616 then
        ((Magnitude.ofNat significand).div (tenTo maxPower)).div (tenTo (power - maxPower))
      else .zero := by
  unfold magnitude
  rw [if_neg (by simp; omega)]
  simp only [Int.neg_neg, Int.toNat_natCast]
  rfl

/-- The reader takes the magnitude of a significand and a power of ten, and there is no other. -/
theorem measures_iff {scaled : Scaled} {m : Magnitude} :
    scaled.Measures m ↔ m = scaled.magnitude := by
  constructor
  · intro h
    cases h with
    | raised h => rw [magnitude_raised, if_pos h, tenTo]
    | zero h => rw [magnitude_raised, if_neg (by omega), if_pos rfl]
    | beyond hpositive h => rw [magnitude_raised, if_neg (by omega), if_neg (by omega)]
    | lowered hpositive h => rw [magnitude_lowered _ hpositive, if_pos h, tenTo]
    | loweredTwice hmore h =>
        rw [magnitude_lowered _ (by omega), if_neg (by omega), if_pos h, tenTo, tenTo]
    | vanished h => rw [magnitude_lowered _ (by omega), if_neg (by omega), if_neg (by omega)]
  · intro hcase
    obtain rfl := hcase
    obtain ⟨significand, power⟩ := scaled
    rcases Int.lt_or_le power 0 with hnegative | hraised
    · obtain ⟨lowered, rfl⟩ : ∃ lowered : Nat, power = -lowered := ⟨(-power).toNat, by omega⟩
      rw [magnitude_lowered significand (by omega)]
      split_ifs with honce htwice
      · exact .lowered (by omega) honce
      · exact .loweredTwice (by omega) htwice
      · exact .vanished (by omega)
    · obtain ⟨raised, rfl⟩ := Int.eq_ofNat_of_zero_le hraised
      rw [magnitude_raised]
      split_ifs with hfinite hzero
      · exact .raised hfinite
      · subst hzero
        exact .zero (by omega)
      · exact .beyond (by omega) (by omega)

end Scaled

/-! ## Numbers -/

/-- The integer of a row of digits with its sign. -/
def signedDigits (negative : Bool) (digits : List Char) : Int :=
  if negative then -(Nat.ofDigitChars 10 digits 0 : Int) else Nat.ofDigitChars 10 digits 0

/-- The digits of a natural number denote it. -/
theorem signedDigits_toDigits (negative : Bool) (n : Nat) :
    signedDigits negative (Nat.toDigits 10 n) = if negative then -(n : Int) else n := by
  rw [signedDigits, Nat.ofDigitChars_ten_toDigits]

namespace JsonNumber

/-- Digits alone denote an integer if it fits 64 bits and is no minus zero. -/
def DenotesInteger (negative : Bool) (digits : List Char) : Prop :=
  FitsWord (signedDigits negative digits) ∧
    ¬ (negative = true ∧ signedDigits negative digits = 0)

/-- The number that a numeral denotes: its sign, the digits before its point, those after it if
there is a point, and its power of ten if it has one. -/
inductive Denotes (negative : Bool) (whole : List Char) :
    Option (List Char) → Option Int → JsonNumber → Prop
  | integer (fits : FitsWord (signedDigits negative whole))
      (hzero : ¬ (negative = true ∧ signedDigits negative whole = 0)) :
      Denotes negative whole none none (.integer (signedDigits negative whole) fits)
  | real {fraction : Option (List Char)} {power : Option Int} {scaled : Scaled} {m : Magnitude}
      (hreal : fraction = none → power = none → ¬ DenotesInteger negative whole)
      (hscaled : scaled.OfNumeral whole (fraction.getD []) (power.getD 0))
      (hmagnitude : scaled.Measures m) (finite : (Binary64.signed negative m).isFinite = true) :
      Denotes negative whole fraction power (.real (.signed negative m) finite)

variable {negative : Bool} {whole : List Char} {fraction : Option (List Char)} {power : Option Int}
  {n : JsonNumber}

/-- A scaled significand gives a real number if its magnitude is finite. -/
theorem ofScaled?_eq_some_iff {scaled : Scaled} :
    ofScaled? negative scaled = some n ↔
      ∃ m, scaled.Measures m ∧ ∃ finite : (Binary64.signed negative m).isFinite = true,
        n = .real (.signed negative m) finite := by
  simp only [Scaled.measures_iff, exists_eq_left, ofScaled?]
  split
  next finite =>
    constructor
    · intro h
      cases h
      exact ⟨finite, rfl⟩
    · intro h
      obtain ⟨-, rfl⟩ := h
      rfl
  next hinfinite => exact iff_of_false (by simp) fun ⟨finite, _⟩ => hinfinite finite

/-- The numbers of numerals that are not integers. -/
theorem ofScaled?_ofParts_iff
    (hreal : fraction = none → power = none → ¬ DenotesInteger negative whole) :
    ofScaled? negative (.ofParts whole (fraction.getD []) (power.getD 0)) = some n ↔
      Denotes negative whole fraction power n := by
  rw [ofScaled?_eq_some_iff]
  constructor
  · intro hcase
    obtain ⟨m, hmagnitude, finite, rfl⟩ := hcase
    exact .real hreal (Scaled.ofNumeral_iff.mpr rfl) hmagnitude finite
  · intro h
    cases h with
    | integer fits hzero => exact absurd ⟨fits, hzero⟩ (hreal rfl rfl)
    | real _ hscaled hmagnitude finite =>
        rw [← Scaled.ofNumeral_iff.mp hscaled]
        exact ⟨_, hmagnitude, finite, rfl⟩

/-- Digits that denote an integer are read as this integer. -/
theorem ofDigits?_of_integer {value : Int} (hvalue : signedDigits negative whole = value)
    (fits : FitsWord value) (hzero : ¬ (negative = true ∧ value = 0)) :
    ofDigits? negative whole = some (.integer value fits) := by
  subst hvalue
  have hminus : ¬ (negative = true ∧ (natOfDigits whole : Int) = 0) := by
    intro h
    obtain ⟨rfl, hdigits⟩ := h
    exact hzero ⟨rfl, Int.neg_eq_zero.mpr hdigits⟩
  exact (dif_pos fits).trans (if_neg hminus)

/-- Other digits are read as a scaled significand. -/
theorem ofDigits?_of_not_integer (h : ¬ DenotesInteger negative whole) :
    ofDigits? negative whole = ofScaled? negative (.ofParts whole [] 0) := by
  by_cases fits : FitsWord (signedDigits negative whole)
  · obtain ⟨rfl, hzero⟩ : negative = true ∧ signedDigits negative whole = 0 :=
      not_not.mp fun hzero => h ⟨fits, hzero⟩
    exact (dif_pos fits).trans (if_pos ⟨rfl, Int.neg_eq_zero.mp hzero⟩)
  · exact dif_neg fits

/-- **The reader of numerals.**  It finds the number that a numeral denotes, and none if the
numeral denotes none. -/
theorem ofParts?_eq_some_iff :
    ofParts? negative whole fraction power = some n ↔ Denotes negative whole fraction power n := by
  rcases fraction with _ | fraction <;> rcases power with _ | power
  · rw [ofParts?]
    by_cases hinteger : DenotesInteger negative whole
    · rw [ofDigits?_of_integer rfl hinteger.1 hinteger.2]
      constructor
      · intro hcase
        cases hcase
        exact .integer hinteger.1 hinteger.2
      · intro h
        cases h with
        | integer fits hzero => rfl
        | real hreal _ _ _ => exact absurd hinteger (hreal rfl rfl)
    · rw [ofDigits?_of_not_integer hinteger]
      exact @ofScaled?_ofParts_iff negative whole none none n fun _ _ => hinteger
  · exact ofScaled?_ofParts_iff (by simp)
  · exact ofScaled?_ofParts_iff (by simp)
  · exact ofScaled?_ofParts_iff (by simp)

end JsonNumber

end RoutePriority
