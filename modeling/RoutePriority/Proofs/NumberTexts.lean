import RoutePriority.Proofs.DecimalValues
import RoutePriority.Proofs.JsonSpelling

/-!
# The texts of numbers

The grammar of numbers in plain texts, said without a reader: a `NumberText` is a decimal with a
sign or none, or one of the words for infinity and for what is not a number.  It shares signs, rows
of digits and powers of ten with the grammar of JSON.

A numeral denotes the magnitude of an exact decimal, also where its power of ten is out of all
proportion and the reader takes a smaller one (`Magnitude.ofDigits_eq_magnitude`).  The reader
accepts exactly the texts of the grammar and gives what they denote:
`Binary64.ofChars?_eq_some_iff`.
-/

namespace RoutePriority

open Json (DigitsText SignText PowerText)

/-! ## Rows of digits -/

/-- The digits of a number denote it. -/
theorem natOfDigits_toDigits (n : Nat) : natOfDigits (Nat.toDigits 10 n) = n :=
  Nat.ofDigitChars_ten_toDigits

theorem digitsText_toDigits (n : Nat) : DigitsText (Nat.toDigits 10 n) where
  ne_nil := Nat.toDigits_ne_nil
  isDigit := fun _ => Nat.isDigit_of_mem_toDigits (by omega) (by omega)

/-- The digits in front count by the power of ten of how many follow. -/
theorem natOfDigits_append (front back : List Char) :
    natOfDigits (front ++ back) =
      Nat.pow 10 back.length * natOfDigits front + natOfDigits back := by
  have hsplit := Nat.ofDigitChars_append (b := 10) (l := front) (m := back) 0
  exact hsplit.trans Nat.ofDigitChars_eq_ofDigitChars_zero

/-- Zeros in front do not count. -/
theorem natOfDigits_zeros_append (count : Nat) (digits : List Char) :
    natOfDigits (List.replicate count '0' ++ digits) = natOfDigits digits := by
  have hzeros : natOfDigits (List.replicate count '0') = 0 :=
    Nat.ofDigitChars_replicate_zero
  rw [natOfDigits_append, hzeros, Nat.mul_zero, Nat.zero_add]

/-- A zero behind the digits multiplies by ten. -/
theorem natOfDigits_append_zeros (digits : List Char) (count : Nat) :
    natOfDigits (digits ++ List.replicate count '0') = natOfDigits digits * Nat.pow 10 count := by
  have hzeros : natOfDigits (List.replicate count '0') = 0 :=
    Nat.ofDigitChars_replicate_zero
  rw [natOfDigits_append, hzeros, List.length_replicate, Nat.add_zero, Nat.mul_comm]

/-- No digit denotes more than nine. -/
theorem digitValue_le_nine {c : Char} (h : c.isDigit = true) : digitValue c ≤ 9 := by
  have hrange := Char.isDigit_iff_toNat.mp h
  have hzero : '0'.toNat = 48 := rfl
  have hnine : '9'.toNat = 57 := rfl
  rw [digitValue]
  omega

/-- A row of digits denotes less than the power of ten of its length. -/
theorem natOfDigits_lt {digits : List Char} (h : ∀ c ∈ digits, c.isDigit = true) :
    natOfDigits digits < Nat.pow 10 digits.length := by
  induction digits with
  | nil => decide
  | cons c rest ih =>
      obtain ⟨hdigit, hrest⟩ := List.forall_mem_cons.mp h
      have hc := digitValue_le_nine hdigit
      have htail := ih hrest
      have hfirst : natOfDigits [c] = digitValue c := by simp [natOfDigits]
      have hpower : Nat.pow 10 (c :: rest).length = 10 * Nat.pow 10 rest.length := Nat.pow_succ'
      have hhead := Nat.mul_le_mul_left (Nat.pow 10 rest.length) hc
      rw [← List.singleton_append, natOfDigits_append, hfirst, List.singleton_append, hpower]
      omega

/-- The reader's bounds on the power of ten change nothing: digits and a power of ten denote the
magnitude of their decimal.  Beyond either bound the bounded decimal and the other are both too
large or both too small to tell apart. -/
theorem Magnitude.ofDigits_eq_magnitude {digits : List Char} (h : ∀ c ∈ digits, c.isDigit = true)
    (exponent : Int) :
    ofDigits digits exponent = Decimal.magnitude ⟨natOfDigits digits, exponent⟩ := by
  have hkept : ofDigits digits exponent = Decimal.magnitude
      ⟨natOfDigits digits, max (-(digits.length + 400 : Int)) (min exponent 400)⟩ := by
    unfold ofDigits Decimal.magnitude Decimal.numerator Decimal.denominator
    rw [← Magnitude.units_one]
    generalize units Magnitude.one = one
    generalize max (-(digits.length + 400 : Int)) (min exponent 400) = power
    by_cases hpower : 0 ≤ power
    · rw [if_pos hpower, Int.toNat_of_nonpos (by omega : -power ≤ 0)]
    · have hnone : Nat.pow 10 power.toNat = 1 := by
        rw [Int.toNat_of_nonpos (by omega)]
      rw [if_neg hpower, hnone, Nat.mul_one]
  rw [hkept]
  rcases Int.lt_or_le 400 exponent with hlarge | hlarge
  · by_cases hzero : natOfDigits digits = 0
    · rw [Decimal.magnitude_of_digits_eq_zero hzero, Decimal.magnitude_of_digits_eq_zero hzero]
    · have hpos := Nat.pos_of_ne_zero hzero
      rw [Decimal.magnitude_of_large hpos (by simp only; omega),
        Decimal.magnitude_of_large hpos (by simp only; omega)]
  · rcases Int.lt_or_le exponent (-(digits.length + 400)) with hsmall | hsmall
    · have hdigits := natOfDigits_lt h
      rw [Decimal.magnitude_of_small hdigits (by simp only; omega),
        Decimal.magnitude_of_small hdigits (by simp only; omega)]
    · rw [Int.min_eq_left hlarge, Int.max_eq_right hsmall]

/-! ## The grammar -/

/-- An unsigned numeral, and the decimal that it denotes: digits with at most one point and at least
one digit, and perhaps a power of ten. -/
inductive DecimalText : List Char → Decimal → Prop
  | whole {whole power : List Char} {exponent : Option Int} (hdigits : DigitsText whole)
      (hpower : PowerText power exponent) :
      DecimalText (whole ++ power) ⟨natOfDigits whole, exponent.getD 0⟩
  | pointed {whole fraction power : List Char} {exponent : Option Int}
      (hdigits : DigitsText (whole ++ fraction)) (hpower : PowerText power exponent) :
      DecimalText (whole ++ '.' :: (fraction ++ power))
        ⟨natOfDigits (whole ++ fraction), exponent.getD 0 - fraction.length⟩

/-- The text of a number: a decimal or one of the words for infinity and for what is not a number,
in any case, after a sign or none. -/
inductive NumberText : List Char → Binary64 → Prop
  | decimal {sign text : List Char} {negative : Bool} {d : Decimal} (hsign : SignText sign negative)
      (h : DecimalText text d) : NumberText (sign ++ text) (.signed negative d.magnitude)
  | infinity {sign word : List Char} {negative : Bool} (hsign : SignText sign negative)
      (hword : word.map Char.toLower = ['i', 'n', 'f'] ∨
        word.map Char.toLower = ['i', 'n', 'f', 'i', 'n', 'i', 't', 'y']) :
      NumberText (sign ++ word) (.signed negative .infinity)
  | nan {sign word : List Char} {negative : Bool} (hsign : SignText sign negative)
      (hword : word.map Char.toLower = ['n', 'a', 'n']) : NumberText (sign ++ word) .nan

/-! ## Unsigned numerals -/

/-- A power of ten does not start with a digit. -/
theorem Json.PowerText.head_not_digit {power : List Char} {exponent : Option Int}
    (h : PowerText power exponent) : ∀ c ∈ power.head?, c.isDigit = false := by
  cases h with
  | none => simp
  | power hmark _ _ => rcases hmark with rfl | rfl <;> simp

/-- The power of ten of what follows the digits of a numeral. -/
def powerAfter? : List Char → Option Int
  | [] => some 0
  | 'e' :: rest => readPower? rest
  | 'E' :: rest => readPower? rest
  | _ => none

/-- A power is read with or without a sign, and from digits only. -/
theorem readPower?_eq_some_iff {text : List Char} {power : Int} :
    readPower? text = some power ↔ ∃ sign digits negative, text = sign ++ digits ∧
      SignText sign negative ∧ DigitsText digits ∧
      (if negative then -(natOfDigits digits : Int) else natOfDigits digits) = power := by
  unfold readPower?
  constructor
  · intro h
    cases hsplit : splitSign text with
    | mk negative digits =>
        rw [hsplit] at h
        simp only at h
        split at h
        · cases h
        next hdigits =>
          obtain ⟨sign, rfl, hsign⟩ := Json.signText_of_splitSign hsplit
          obtain ⟨hne, hall⟩ := not_or.mp hdigits
          have hrow : DigitsText digits := ⟨hne, List.all_eq_true.mp (not_not.mp hall)⟩
          exact ⟨sign, digits, negative, rfl, hsign, hrow, Option.some.inj h⟩
  · intro h
    obtain ⟨sign, digits, negative, rfl, hsign, hdigits, hpower⟩ := h
    have hhead : ∀ c ∈ digits.head?, c ≠ '-' ∧ c ≠ '+' := by
      simpa using hdigits.head_ne_sign []
    have hrow : ¬ (digits = [] ∨ ¬ digits.all Char.isDigit = true) := by
      rw [not_or, not_not]
      exact ⟨hdigits.ne_nil, List.all_eq_true.mpr hdigits.isDigit⟩
    rw [hsign.splitSign_append hhead]
    simp only [if_neg hrow, hpower]

/-- Behind the digits stands a power of ten or nothing. -/
theorem powerAfter?_eq_some_iff {text : List Char} {power : Int} :
    powerAfter? text = some power ↔
      ∃ exponent, PowerText text exponent ∧ exponent.getD 0 = power := by
  constructor
  · intro h
    fun_cases powerAfter? text with
    | case1 =>
        cases h
        exact ⟨none, .none, rfl⟩
    | case2 rest =>
        obtain ⟨sign, digits, negative, rfl, hsign, hdigits, hpower⟩ :=
          readPower?_eq_some_iff.mp h
        exact ⟨_, .power (Or.inl rfl) hsign hdigits, hpower⟩
    | case3 rest =>
        obtain ⟨sign, digits, negative, rfl, hsign, hdigits, hpower⟩ :=
          readPower?_eq_some_iff.mp h
        exact ⟨_, .power (Or.inr rfl) hsign hdigits, hpower⟩
    | case4 _ hnil he hE =>
        rw [powerAfter?] at h
        cases h
        all_goals assumption
  · intro h
    obtain ⟨exponent, hpower, rfl⟩ := h
    cases hpower with
    | none => rfl
    | @power mark sign digits negative hmark hsign hdigits =>
        have hread := readPower?_eq_some_iff.mpr ⟨sign, digits, negative, rfl, hsign, hdigits, rfl⟩
        rcases hmark with rfl | rfl
        · exact hread
        · exact hread

namespace Magnitude

variable {text rest : List Char}

/-! The reader looks for the point where the leading digits end. -/

/-- With a point the digits may be missing on one side of it, but not on both. -/
theorem ofNumeral?_of_point (h : text.dropWhile Char.isDigit = '.' :: rest) :
    ofNumeral? text =
      let whole := text.takeWhile Char.isDigit
      let fraction := rest.takeWhile Char.isDigit
      if whole = [] ∧ fraction = [] then none
      else (powerAfter? (rest.dropWhile Char.isDigit)).map fun power =>
        ofDigits (whole ++ fraction) (power - fraction.length) := by
  unfold ofNumeral?
  rw [h]
  rfl

/-- Without a point there must be a digit. -/
theorem ofNumeral?_of_no_point (h : ∀ rest, text.dropWhile Char.isDigit ≠ '.' :: rest) :
    ofNumeral? text =
      let whole := text.takeWhile Char.isDigit
      if whole = [] then none
      else (powerAfter? (text.dropWhile Char.isDigit)).map (ofDigits whole) := by
  unfold ofNumeral?
  simp only [and_true, List.append_nil, List.length_nil, Int.natCast_zero, Int.sub_zero]
  rfl

/-- What is read as an unsigned numeral is one: the parts that the reader takes apart make up the
text. -/
theorem exists_decimalText_of_ofNumeral? {m : Magnitude} (h : ofNumeral? text = some m) :
    ∃ d, DecimalText text d ∧ d.magnitude = m := by
  have hwhole : ∀ c ∈ text.takeWhile Char.isDigit, c.isDigit = true :=
    fun c hc => List.mem_takeWhile_imp hc
  by_cases hpoint : ∃ rest, text.dropWhile Char.isDigit = '.' :: rest
  · obtain ⟨rest, hrest⟩ := hpoint
    rw [ofNumeral?_of_point hrest] at h
    simp only at h
    split at h
    · cases h
    next hsome =>
      obtain ⟨power, hpower, rfl⟩ := Option.map_eq_some_iff.mp h
      obtain ⟨exponent, hexponent, rfl⟩ := powerAfter?_eq_some_iff.mp hpower
      have hdigits : DigitsText (text.takeWhile Char.isDigit ++ rest.takeWhile Char.isDigit) := by
        refine ⟨by simpa using hsome, fun c hc => ?_⟩
        rcases List.mem_append.mp hc with hc | hc
        · exact hwhole c hc
        · exact List.mem_takeWhile_imp hc
      have hdecimal := DecimalText.pointed hdigits hexponent
      rw [List.takeWhile_append_dropWhile, ← hrest, List.takeWhile_append_dropWhile] at hdecimal
      exact ⟨_, hdecimal, (ofDigits_eq_magnitude hdigits.isDigit _).symm⟩
  · rw [ofNumeral?_of_no_point (by simpa using hpoint)] at h
    simp only at h
    split at h
    · cases h
    next hsome =>
      obtain ⟨power, hpower, rfl⟩ := Option.map_eq_some_iff.mp h
      obtain ⟨exponent, hexponent, rfl⟩ := powerAfter?_eq_some_iff.mp hpower
      have hdecimal := DecimalText.whole ⟨hsome, hwhole⟩ hexponent
      rw [List.takeWhile_append_dropWhile] at hdecimal
      exact ⟨_, hdecimal, (ofDigits_eq_magnitude hwhole _).symm⟩

/-- An unsigned numeral is read as the magnitude nearest to its decimal. -/
theorem ofNumeral?_of_decimalText {d : Decimal} (h : DecimalText text d) :
    ofNumeral? text = some d.magnitude := by
  cases h with
  | @whole whole power exponent hdigits hpower =>
      obtain ⟨htake, hdrop⟩ := Json.leadingDigits_append hdigits.isDigit hpower.head_not_digit
      have hnone : ∀ rest, (whole ++ power).dropWhile Char.isDigit ≠ '.' :: rest := by
        rw [hdrop]
        intro rest hcase
        obtain rfl := hcase
        cases hpower with
        | power hmark => simp at hmark
      rw [ofNumeral?_of_no_point hnone, htake, hdrop]
      simp only [if_neg hdigits.ne_nil, powerAfter?_eq_some_iff.mpr ⟨exponent, hpower, rfl⟩,
        Option.map_some, ofDigits_eq_magnitude hdigits.isDigit]
  | @pointed whole fraction power exponent hdigits hpower =>
      have hwhole : ∀ c ∈ whole, c.isDigit = true :=
        fun c hc => hdigits.isDigit c (List.mem_append_left _ hc)
      have hfraction : ∀ c ∈ fraction, c.isDigit = true :=
        fun c hc => hdigits.isDigit c (List.mem_append_right _ hc)
      have hpoint : ∀ c ∈ ('.' :: (fraction ++ power)).head?, c.isDigit = false := by simp
      obtain ⟨htake, hdrop⟩ := Json.leadingDigits_append hwhole hpoint
      obtain ⟨htake', hdrop'⟩ := Json.leadingDigits_append hfraction hpower.head_not_digit
      have hsome : ¬ (whole = [] ∧ fraction = []) := by simpa using hdigits.ne_nil
      rw [ofNumeral?_of_point hdrop, htake, htake', hdrop']
      simp only [if_neg hsome, powerAfter?_eq_some_iff.mpr ⟨exponent, hpower, rfl⟩,
        Option.map_some, ofDigits_eq_magnitude hdigits.isDigit]

/-- The reader of numerals finds the magnitude of the decimal that is written. -/
theorem ofNumeral?_eq_some_iff {m : Magnitude} :
    ofNumeral? text = some m ↔ ∃ d, DecimalText text d ∧ d.magnitude = m := by
  constructor
  · exact exists_decimalText_of_ofNumeral?
  · intro h
    obtain ⟨d, hdecimal, rfl⟩ := h
    exact ofNumeral?_of_decimalText hdecimal

end Magnitude

/-! ## Signs and words -/

/-- A decimal starts with a digit or a point. -/
theorem DecimalText.head {text : List Char} {d : Decimal} (h : DecimalText text d) :
    ∃ c rest, text = c :: rest ∧ (c.isDigit = true ∨ c = '.') := by
  cases h with
  | @whole whole power exponent hdigits hpower =>
      obtain ⟨c, rest, rfl⟩ := List.exists_cons_of_ne_nil hdigits.ne_nil
      exact ⟨c, rest ++ power, rfl, Or.inl (hdigits.isDigit c List.mem_cons_self)⟩
  | @pointed whole fraction power exponent hdigits hpower =>
      cases whole with
      | nil => exact ⟨'.', _, rfl, Or.inr rfl⟩
      | cons c rest => exact ⟨c, _, rfl, Or.inl (hdigits.isDigit c (by simp))⟩

/-- A letter and its small letter are `32` apart. -/
theorem toLower_cases {c d : Char} (h : c.toLower = d) :
    c.toNat = d.toNat ∨ c.toNat + 32 = d.toNat := by
  unfold Char.toLower at h
  split at h
  next hupper =>
    right
    rw [← h]
    have hle : c.toNat ≤ 90 := hupper.2
    change c.toNat + 32 = (c.val + 32).toNat
    rw [UInt32.toNat_add]
    change c.toNat + 32 = (c.toNat + 32) % 2 ^ 32
    omega
  next => exact Or.inl (congrArg Char.toNat h)

/-- A word of letters starts with no sign. -/
theorem head_of_map_toLower {word : List Char} {letter : Char} {letters : List Char}
    (h : word.map Char.toLower = letter :: letters) (hletter : 97 ≤ letter.toNat) :
    ∀ c ∈ word.head?, c ≠ '-' ∧ c ≠ '+' := by
  intro c hc
  obtain ⟨rest, rfl⟩ := List.head?_eq_some_iff.mp hc
  have hlower : c.toLower = letter := (List.cons.inj h).1
  have hcases := toLower_cases hlower
  have hminus : '-'.toNat = 45 := rfl
  have hplus : '+'.toNat = 43 := rfl
  constructor <;> rintro rfl <;> omega

/-- A decimal is no word. -/
theorem DecimalText.map_toLower_ne {text : List Char} {d : Decimal} (h : DecimalText text d)
    {letter : Char} (hletter : 97 ≤ letter.toNat) (letters : List Char) :
    text.map Char.toLower ≠ letter :: letters := by
  obtain ⟨c, rest, rfl, hc⟩ := h.head
  intro hword
  have hcases := toLower_cases (List.cons.inj hword).1
  have hnine : '9'.toNat = 57 := rfl
  have hpoint : '.'.toNat = 46 := rfl
  rcases hc with hdigit | rfl
  · have hrange := Char.isDigit_iff_toNat.mp hdigit
    omega
  · omega

namespace Binary64

variable {text : List Char} {x : Binary64}

/-- What is read as a number is one of the texts of that number. -/
theorem numberText_of_ofChars? (h : ofChars? text = some x) : NumberText text x := by
  unfold ofChars? at h
  cases hsplit : splitSign text with
  | mk negative rest =>
      obtain ⟨sign, rfl, hsign⟩ := Json.signText_of_splitSign hsplit
      rw [hsplit] at h
      simp only at h
      split_ifs at h with hnan hinfinity
      · cases h
        exact .nan hsign hnan
      · cases h
        exact .infinity hsign hinfinity
      · obtain ⟨m, hm, rfl⟩ := Option.map_eq_some_iff.mp h
        obtain ⟨d, hdecimal, rfl⟩ := Magnitude.exists_decimalText_of_ofNumeral? hm
        exact .decimal hsign hdecimal

/-- Every text of a number is read as it.  Neither a decimal nor a word starts with a sign, so the
sign is split off as it was put there. -/
theorem ofChars?_of_numberText (h : NumberText text x) : ofChars? text = some x := by
  have hi : 97 ≤ 'i'.toNat := by decide
  have hn : 97 ≤ 'n'.toNat := by decide
  unfold ofChars?
  cases h with
  | @decimal sign text negative d hsign hdecimal =>
      obtain ⟨c, rest, hcons, hc⟩ := hdecimal.head
      have hhead : ∀ c ∈ text.head?, c ≠ '-' ∧ c ≠ '+' := by
        rw [hcons]
        intro _ hcase
        cases hcase
        constructor <;> rintro rfl <;> simp at hc
      rw [hsign.splitSign_append hhead]
      simp only [hdecimal.map_toLower_ne hn, hdecimal.map_toLower_ne hi, if_false, or_self,
        Magnitude.ofNumeral?_of_decimalText hdecimal, Option.map_some]
  | infinity hsign hword =>
      have hhead := hword.elim (head_of_map_toLower · hi) (head_of_map_toLower · hi)
      rw [hsign.splitSign_append hhead]
      rcases hword with hword | hword
      · simp [hword]
      · simp [hword]
  | nan hsign hword =>
      rw [hsign.splitSign_append (head_of_map_toLower hword hn)]
      simp [hword]

/-- **The reader decides the grammar.**  It accepts exactly the texts of numbers and gives the
number that they denote. -/
theorem ofChars?_eq_some_iff : ofChars? text = some x ↔ NumberText text x :=
  ⟨numberText_of_ofChars?, ofChars?_of_numberText⟩

end Binary64

end RoutePriority
