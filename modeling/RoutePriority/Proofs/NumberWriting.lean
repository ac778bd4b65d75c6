import RoutePriority.Binary64.Layout
import RoutePriority.Proofs.NumberTexts
import RoutePriority.Text.Blank

/-!
# Numbers that are written

Every layout writes a number as a text of that number (`Layout.numberText_chars`), so the number
comes back bit for bit when the text is read.  A layout only arranges the digits of the shortest
decimal: zeros that fill up to the point and a power of ten in place of them denote the same
decimal (`ofNumeral?_positional`, `ofNumeral?_scientific`).

No text of a number has a blank in it, so there is nothing to trim from a written number.
-/

namespace RoutePriority

open Json (DigitsText SignText PowerText)

/-! ## Texts without blanks -/

/-- The visible characters of ASCII. -/
def IsVisible (c : Char) : Prop := 0x21 ≤ c.toNat ∧ c.toNat ≤ 0x7E

namespace Text

/-- A visible character is no blank. -/
theorem isBlank_of_isVisible {c : Char} (h : IsVisible c) : isBlank c = false := by
  obtain ⟨hlow, hhigh⟩ := h
  unfold isBlank
  simp only [Bool.or_eq_false_iff, Bool.and_eq_false_iff, decide_eq_false_iff_not,
    beq_eq_false_iff_ne]
  omega

/-- Nothing is trimmed from a text of visible characters. -/
theorem trimmed_of_isVisible {text : List Char} (h : ∀ c ∈ text, IsVisible c) :
    trimmed text = text := by
  have hkeep : ∀ row : List Char, (∀ c ∈ row, IsVisible c) → row.dropWhile isBlank = row := by
    intro row hrow
    cases row with
    | nil => rfl
    | cons c rest =>
        have hc := isBlank_of_isVisible (hrow c List.mem_cons_self)
        rw [List.dropWhile_cons_of_neg (by simp [hc])]
  unfold trimmed
  rw [hkeep text h, hkeep text.reverse (by simpa using h), List.reverse_reverse]

end Text

theorem isVisible_of_isDigit {c : Char} (h : c.isDigit = true) : IsVisible c := by
  have hrange := Char.isDigit_iff_toNat.mp h
  have hzero : '0'.toNat = 48 := rfl
  have hnine : '9'.toNat = 57 := rfl
  unfold IsVisible
  omega

theorem Json.SignText.isVisible {sign : List Char} {negative : Bool} (h : SignText sign negative) :
    ∀ c ∈ sign, IsVisible c := by
  cases h with
  | none => simp
  | plus | minus =>
      intro c hc
      obtain rfl := List.mem_singleton.mp hc
      exact ⟨by decide, by decide⟩

/-- Powers of ten are written without blanks. -/
theorem Json.PowerText.isVisible {power : List Char} {exponent : Option Int}
    (h : PowerText power exponent) : ∀ c ∈ power, IsVisible c := by
  cases h with
  | none => simp
  | @power mark sign digits negative hmark hsign hdigits =>
      intro c hc
      rcases List.mem_cons.mp hc with rfl | hc
      · rcases hmark with rfl | rfl <;> exact ⟨by decide, by decide⟩
      · rcases List.mem_append.mp hc with hc | hc
        · exact hsign.isVisible c hc
        · exact isVisible_of_isDigit (hdigits.isDigit c hc)

/-- Decimals are written without blanks. -/
theorem DecimalText.isVisible {text : List Char} {d : Decimal} (h : DecimalText text d) :
    ∀ c ∈ text, IsVisible c := by
  intro c hc
  cases h with
  | whole hdigits hpower =>
      rcases List.mem_append.mp hc with hc | hc
      · exact isVisible_of_isDigit (hdigits.isDigit c hc)
      · exact hpower.isVisible c hc
  | pointed hdigits hpower =>
      simp only [List.mem_append, List.mem_cons] at hc
      rcases hc with hc | rfl | hc | hc
      · exact isVisible_of_isDigit (hdigits.isDigit c (List.mem_append_left _ hc))
      · exact ⟨by decide, by decide⟩
      · exact isVisible_of_isDigit (hdigits.isDigit c (List.mem_append_right _ hc))
      · exact hpower.isVisible c hc

/-- A word in any case has only letters. -/
theorem isVisible_of_map_toLower {word letters : List Char} (h : word.map Char.toLower = letters)
    (hletters : ∀ c ∈ letters, 97 ≤ c.toNat ∧ c.toNat ≤ 122) : ∀ c ∈ word, IsVisible c := by
  intro c hc
  have hlower : c.toLower ∈ letters := h ▸ List.mem_map_of_mem hc
  have hrange := hletters _ hlower
  have hcases := toLower_cases (c := c) rfl
  unfold IsVisible
  omega

/-- The text of a number has no blanks in it. -/
theorem NumberText.isVisible {text : List Char} {x : Binary64} (h : NumberText text x) :
    ∀ c ∈ text, IsVisible c := by
  intro c hc
  cases h with
  | decimal hsign hdecimal =>
      rcases List.mem_append.mp hc with hc | hc
      · exact hsign.isVisible c hc
      · exact hdecimal.isVisible c hc
  | infinity hsign hword =>
      rcases List.mem_append.mp hc with hc | hc
      · exact hsign.isVisible c hc
      · rcases hword with hword | hword
        · exact isVisible_of_map_toLower hword (by simp) c hc
        · exact isVisible_of_map_toLower hword (by simp) c hc
  | nan hsign hword =>
      rcases List.mem_append.mp hc with hc | hc
      · exact hsign.isVisible c hc
      · exact isVisible_of_map_toLower hword (by simp) c hc

/-- No text of a number has blanks to trim. -/
theorem NumberText.trimmed_eq {text : List Char} {x : Binary64} (h : NumberText text x) :
    Text.trimmed text = text :=
  Text.trimmed_of_isVisible h.isVisible

/-! ## What a layout writes -/

namespace Json.DigitsText

variable {digits : List Char}

theorem append_zeros (h : DigitsText digits) (count : Nat) :
    DigitsText (digits ++ List.replicate count '0') := by
  refine ⟨List.append_ne_nil_of_left_ne_nil h.ne_nil _, fun c hc => ?_⟩
  rcases List.mem_append.mp hc with hc | hc
  · exact h.isDigit c hc
  · obtain rfl := (List.mem_replicate.mp hc).2
    rfl

theorem zeros_append (h : DigitsText digits) (count : Nat) :
    DigitsText (List.replicate count '0' ++ digits) := by
  refine ⟨List.append_ne_nil_of_right_ne_nil _ h.ne_nil, fun c hc => ?_⟩
  rcases List.mem_append.mp hc with hc | hc
  · obtain rfl := (List.mem_replicate.mp hc).2
    rfl
  · exact h.isDigit c hc

end Json.DigitsText

namespace Layout

open Magnitude (ofNumeral? ofNumeral?_eq_some_iff ofNumeral?_of_decimalText)

variable {digits : List Char}

/-- A whole number denotes the same with its fraction digit and without. -/
theorem ofNumeral?_wholeTail (layout : Layout) (h : DigitsText digits) :
    ofNumeral? (digits ++ layout.wholeTail) = some (Decimal.magnitude ⟨natOfDigits digits, 0⟩) := by
  rw [ofNumeral?_eq_some_iff, wholeTail]
  cases layout.keepsFraction with
  | false => exact ⟨_, .whole h .none, rfl⟩
  | true =>
      have hdigits : DigitsText (digits ++ ['0']) := h.append_zeros 1
      have hvalue : natOfDigits (digits ++ ['0']) = natOfDigits digits * Nat.pow 10 1 :=
        natOfDigits_append_zeros digits 1
      refine ⟨_, .pointed hdigits .none, ?_⟩
      rw [hvalue]
      exact Decimal.magnitude_shift (natOfDigits digits) 1 0

/-- Positional writing keeps the magnitude of a decimal, whether all digits are behind the point,
all of them are in front of it, or it stands between two of them. -/
theorem ofNumeral?_positional (layout : Layout) (h : DigitsText digits) (place : Int) :
    ofNumeral? (layout.positional digits place) =
      some (Decimal.magnitude ⟨natOfDigits digits, place - digits.length⟩) := by
  unfold positional
  split_ifs with hsmall hwhole
  · have hdigits : DigitsText (['0'] ++ (List.replicate (-place).toNat '0' ++ digits)) :=
      h.zeros_append ((-place).toNat + 1)
    have hvalue : natOfDigits (['0'] ++ (List.replicate (-place).toNat '0' ++ digits)) =
        natOfDigits digits :=
      natOfDigits_zeros_append ((-place).toNat + 1) digits
    have hplace : Option.getD none 0 -
        ((List.replicate (-place).toNat '0' ++ digits).length : Int) = place - digits.length := by
      rw [List.length_append, List.length_replicate, Option.getD_none]
      omega
    have hdecimal := DecimalText.pointed hdigits .none
    rw [List.append_nil, hvalue, hplace] at hdecimal
    exact ofNumeral?_of_decimalText hdecimal
  · have hshift := Decimal.magnitude_shift (natOfDigits digits) (place.toNat - digits.length)
      (place - digits.length)
    have hplace : place - digits.length - ((place.toNat - digits.length : Nat) : Int) = 0 := by
      omega
    rw [hplace] at hshift
    rw [layout.ofNumeral?_wholeTail (h.append_zeros _), natOfDigits_append_zeros, hshift]
  · have hsplit : digits.take place.toNat ++ digits.drop place.toNat = digits :=
      List.take_append_drop _ _
    have hplace : Option.getD none 0 - ((digits.drop place.toNat).length : Int) =
        place - digits.length := by
      rw [List.length_drop, Option.getD_none]
      omega
    have hdecimal := DecimalText.pointed (hsplit.symm ▸ h) .none
    rw [List.append_nil, hsplit, hplace] at hdecimal
    exact ofNumeral?_of_decimalText hdecimal

/-- The power of ten that ends a scientific text. -/
theorem exists_powerText (signsPower : Bool) (power : Int) :
    ∃ exponent, PowerText
      ('e' :: ((if power < 0 then ['-'] else if signsPower then ['+'] else []) ++
        Nat.toDigits 10 power.natAbs)) exponent ∧ exponent.getD 0 = power := by
  have hrow := digitsText_toDigits power.natAbs
  split_ifs with hnegative
  · refine ⟨_, .power (Or.inl rfl) .minus hrow, ?_⟩
    rw [signedDigits_toDigits, if_pos rfl, Option.getD_some]
    omega
  · refine ⟨_, .power (Or.inl rfl) .plus hrow, ?_⟩
    rw [signedDigits_toDigits, if_neg (by decide), Option.getD_some]
    omega
  · refine ⟨_, .power (Or.inl rfl) .none hrow, ?_⟩
    rw [signedDigits_toDigits, if_neg (by decide), Option.getD_some]
    omega

/-- So does writing with a power of ten. -/
theorem ofNumeral?_scientific (layout : Layout) (h : DigitsText digits) (place : Int) :
    ofNumeral? (layout.scientific digits place) =
      some (Decimal.magnitude ⟨natOfDigits digits, place - digits.length⟩) := by
  obtain ⟨c, rest, rfl⟩ := List.exists_cons_of_ne_nil h.ne_nil
  obtain ⟨exponent, hpower, hexponent⟩ := exists_powerText layout.signsPower (place - 1)
  unfold scientific
  simp only [List.take_succ_cons, List.take_zero, List.drop_succ_cons, List.drop_zero]
  generalize 'e' :: _ = power at hpower ⊢
  have hplace : place - ((c :: rest).length : Int) = exponent.getD 0 - rest.length := by
    rw [hexponent, List.length_cons]
    omega
  rw [hplace]
  split_ifs with hsingle
  · rw [List.length_cons] at hsingle
    obtain rfl : rest = [] := List.length_eq_zero_iff.mp (by omega)
    have hdecimal := DecimalText.whole h hpower
    rw [List.append_nil, List.length_nil, Int.natCast_zero, Int.sub_zero]
    exact ofNumeral?_of_decimalText hdecimal
  · have hdigits : DigitsText ([c] ++ rest) := h
    have hdecimal := DecimalText.pointed hdigits hpower
    rw [List.append_assoc]
    exact ofNumeral?_of_decimalText hdecimal

/-- A decimal is read back from its layout, wherever the point stands. -/
theorem ofNumeral?_decimal (layout : Layout) (d : Decimal) :
    ofNumeral? (layout.decimal d) = some d.magnitude := by
  have hrow := digitsText_toDigits d.digits
  have hplace : ((Nat.toDigits 10 d.digits).length : Int) + d.exponent -
      (Nat.toDigits 10 d.digits).length = d.exponent := by
    omega
  unfold decimal
  simp only
  split_ifs
  · rw [layout.ofNumeral?_positional hrow, natOfDigits_toDigits, hplace]
  · rw [layout.ofNumeral?_scientific hrow, natOfDigits_toDigits, hplace]

/-- A magnitude is read back from its layout. -/
theorem ofNumeral?_magnitude (layout : Layout) (m : Magnitude) :
    ofNumeral? (layout.magnitude m) = some m := by
  unfold magnitude
  split_ifs with hzero
  · have hrow : DigitsText ['0'] := digitsText_toDigits 0
    have hread := layout.ofNumeral?_wholeTail hrow
    rw [List.singleton_append, Decimal.magnitude_of_digits_eq_zero (by rfl)] at hread
    rw [hread]
    exact congrArg some (Fin.ext hzero.symm)
  · rw [layout.ofNumeral?_decimal, Decimal.magnitude_shortest]

/-- A number is written with its sign in front. -/
theorem chars_signed (layout : Layout) (negative : Bool) (m : Magnitude) :
    ∃ sign, SignText sign negative ∧ layout.chars (.signed negative m) =
      sign ++ if m = .infinity then ['i', 'n', 'f'] else layout.magnitude m := by
  cases negative with
  | false => exact ⟨[], .none, rfl⟩
  | true => exact ⟨['-'], .minus, rfl⟩

/-- What a layout writes is a text of the number that it was given. -/
theorem numberText_chars (layout : Layout) (x : Binary64) : NumberText (layout.chars x) x := by
  cases x with
  | nan => exact NumberText.nan SignText.none rfl
  | signed negative m =>
      obtain ⟨sign, hsign, hchars⟩ := layout.chars_signed negative m
      rw [hchars]
      split_ifs with hinfinity
      · subst hinfinity
        exact .infinity hsign (Or.inl rfl)
      · obtain ⟨d, hdecimal, hm⟩ := ofNumeral?_eq_some_iff.mp (layout.ofNumeral?_magnitude m)
        have hnumber := NumberText.decimal hsign hdecimal
        rw [hm] at hnumber
        exact hnumber

/-- **Numbers read back.**  Every layout writes every number so that reading the text gives the
number again, bit for bit. -/
theorem ofText?_text (layout : Layout) (x : Binary64) :
    Binary64.ofText? (layout.text x) = some x := by
  rw [Binary64.ofText?, text, String.toList_ofList]
  exact Binary64.ofChars?_eq_some_iff.mpr (layout.numberText_chars x)

/-- There are no blanks to trim from a written number. -/
theorem trim_text (layout : Layout) (x : Binary64) : Text.trim (layout.text x) = layout.text x := by
  rw [Text.trim, text, String.toList_ofList, (layout.numberText_chars x).trimmed_eq]

end Layout

end RoutePriority
