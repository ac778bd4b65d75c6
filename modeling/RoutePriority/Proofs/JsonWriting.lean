import RoutePriority.Proofs.JsonValues
import RoutePriority.Proofs.NumberTexts
import Mathlib.Tactic.IntervalCases

/-!
# JSON texts that are written

What the writer makes of a value is a text of this value.  Strings and integers come back from
their own texts by the rules of spelling; for other numbers this depends on the digits, so a number
that comes back is called `Restored`, and `writtenIn_text` asks it of the reals in the value.
-/

namespace RoutePriority

open Json (Derives Spelled PieceText PiecesText NumeralText WholeText DigitsText)

/-! ## Integers -/

/-- The digits of a positive number do not start with a zero. -/
theorem head?_toDigits_ne {n : Nat} (hpos : 0 < n) : (Nat.toDigits 10 n).head? ≠ some '0' := by
  induction n using Nat.strong_induction_on with
  | _ n ih =>
      by_cases hsmall : n < 10
      · rw [Nat.toDigits_of_lt_base hsmall]
        interval_cases n <;> decide
      · have hshorter := ih (n / 10) (by omega) (by omega)
        rw [Nat.toDigits_of_base_le (by omega) (by omega),
          List.head?_append_of_ne_nil _ Nat.toDigits_ne_nil]
        exact hshorter

/-- The digits of a number are a whole number of the grammar. -/
theorem wholeText_toDigits (n : Nat) : WholeText (Nat.toDigits 10 n) := by
  by_cases hzero : n = 0
  · subst hzero
    exact .zero
  · exact .digits (digitsText_toDigits n) (head?_toDigits_ne (Nat.pos_of_ne_zero hzero))

namespace JsonNumber

/-- The reader gives the number back that the text was written for. -/
def Restored (n : JsonNumber) : Prop :=
  Json.Tree.ofText? (Json.number n).text = some (.number (some n))

/-- A number is restored if its text denotes it. -/
theorem restored_iff {n : JsonNumber} :
    n.Restored ↔ Derives (.element (.number (some n))) n.chars := by
  rw [Restored, Json.ofText?_eq_some_iff, Json.text, String.toList_ofList, Json.chars]

/-- The digits of a natural number are the numeral of an integer that fits a word, unless they stand
after a minus and denote zero. -/
theorem numeralText_toDigits {negative : Bool} {n : Nat} {value : Int}
    (hvalue : (if negative then -(n : Int) else n) = value) (fits : FitsWord value)
    (hzero : negative = true → value ≠ 0) :
    NumeralText negative (Nat.toDigits 10 n) (some (integer value fits)) := by
  rw [← signedDigits_toDigits] at hvalue
  subst hvalue
  have hnumeral : NumeralText negative (Nat.toDigits 10 n ++ ([] ++ []))
      (some (integer (signedDigits negative (Nat.toDigits 10 n)) fits)) := by
    refine .numeral (wholeText_toDigits n) .none .none fun m => ?_
    rw [← ofParts?_eq_some_iff, ofParts?,
      ofDigits?_of_integer rfl fits fun h => hzero h.1 h.2]
  simpa using hnumeral

/-- Every integer that fits a word is read back. -/
theorem restored_integer (n : Int) (fits : FitsWord n) : (integer n fits).Restored := by
  have hspelled : Spelled (integer n fits).chars (.number (some (integer n fits))) := by
    rw [chars]
    by_cases hneg : n < 0
    · rw [if_pos hneg]
      exact .negative (numeralText_toDigits (by rw [if_pos rfl]; omega) fits (by omega))
    · rw [if_neg hneg]
      have hsigned : (if false = true then -(n.natAbs : Int) else n.natAbs) = n := by
        rw [if_neg Bool.false_ne_true]
        omega
      exact .positive (numeralText_toDigits hsigned fits (by simp))
  exact restored_iff.mpr (.element_without_blanks (.number hspelled))

/-- One half is read back from its three characters. -/
theorem restored_half :
    (real (.signed false ⟨1022 * Nat.pow 2 52, by decide⟩) rfl).Restored := by
  let half : JsonNumber := real (.signed false ⟨1022 * Nat.pow 2 52, by decide⟩) rfl
  have hchars : half.chars = ['0', '.', '5'] := by
    decide +kernel
  have hvalue : ofParts? false ['0'] (some ['5']) none = some half := by
    decide +kernel
  have hdigits : DigitsText ['5'] := by
    refine ⟨by simp, ?_⟩
    intro c hc
    obtain rfl := List.mem_singleton.mp hc
    rfl
  have hnumeral : ∀ n, some half = some n ↔ Denotes false ['0'] (some ['5']) none n := by
    intro n
    rw [← ofParts?_eq_some_iff, hvalue]
  refine restored_iff.mpr ?_
  rw [hchars]
  exact .element_without_blanks
    (.number (.positive (.numeral .zero (.digits hdigits) .none hnumeral)))

end JsonNumber

/-! ## Strings -/

namespace Json

/-- The escape of a control character has its code in four digits. -/
theorem codeText_controlDigits : ∀ n < 0x20,
    CodeText ['0', '0', if n < 16 then '0' else '1', Nat.digitChar (n % 16)] n := by
  have hcode : ∀ n < 0x20,
      hexCode? '0' '0' (if n < 16 then '0' else '1') (Nat.digitChar (n % 16)) = some n := by
    decide
  exact fun n hn => hexCode?_eq_some_iff.mp (hcode n hn)

/-- What stands for a character in a string is read as this character. -/
theorem pieceText_escaped (c : Char) : PieceText (escaped c) (.char c) := by
  unfold escaped
  split_ifs with hquote hescape _ _ _ _ _ hcontrol
  iterate 7
    · subst_vars
      exact .escape (by simp [escapes])
  · have hpiece := PieceText.code (codeText_controlDigits c.toNat hcontrol) (by omega)
    rwa [Char.ofNat_toNat] at hpiece
  · exact .plain hquote hescape (Nat.not_lt.mp hcontrol)

/-- Every character is written as a piece that stands for it. -/
theorem piecesText_flatMap_escaped (text : List Char) :
    PiecesText (text.flatMap escaped) (text.map .char) := by
  induction text with
  | nil => exact .nil
  | cons c rest ih => exact .cons (pieceText_escaped c) ih

/-- Characters as pieces are joined to themselves. -/
theorem joins_map_char (text : List Char) : Joins (text.map .char) text := by
  induction text with
  | nil => exact .nil
  | cons c rest ih => exact .char ih

/-- A string with its quotes spells the string. -/
theorem spelled_quoted (text : String) : Spelled (quoted text) (.string (some text)) := by
  refine .string (piecesText_flatMap_escaped text.toList) fun s => ?_
  have hjoined := joined?_eq_some_iff.mpr (joins_map_char text.toList)
  rw [← joined?_eq_some_iff, hjoined, Option.some.injEq, Option.some.injEq, String.toList_inj]

/-! ## Values -/

mutual

/-- The numbers in a value. -/
def numbers : Json → List JsonNumber
  | number n => [n]
  | array items => itemsNumbers items
  | object members => membersNumbers members
  | null | bool _ | string _ => []

/-- The numbers in items. -/
def itemsNumbers : List Json → List JsonNumber
  | [] => []
  | item :: items => numbers item ++ itemsNumbers items

/-- The numbers in the values of members. -/
def membersNumbers : List (String × Json) → List JsonNumber
  | [] => []
  | (_, value) :: members => numbers value ++ membersNumbers members

end

/-- Items without numbers have none together. -/
theorem itemsNumbers_eq_nil {items : List Json} (h : ∀ item ∈ items, item.numbers = []) :
    itemsNumbers items = [] := by
  induction items with
  | nil => rfl
  | cons item items ih =>
      obtain ⟨hitem, hitems⟩ := List.forall_mem_cons.mp h
      rw [itemsNumbers, hitem, ih hitems]
      rfl

/-- A member is written as its quoted name, a colon and its value. -/
theorem derives_member (name : String) {tree : Tree} {text : List Char}
    (h : Derives (.element tree) text) :
    Derives (.member (some name) tree) (quoted name ++ ':' :: text) :=
  .member .nil (spelled_quoted name) .nil h

mutual

/-- What the writer makes of a value is an element with the tree of the value. -/
theorem derives_chars : ∀ {json : Json}, (∀ n ∈ json.numbers, n.Restored) →
    Derives (.element json.tree) json.chars
  | null, _ => .element_without_blanks (.null .null)
  | bool true, _ => .element_without_blanks (.bool .boolTrue)
  | bool false, _ => .element_without_blanks (.bool .boolFalse)
  | number n, h => JsonNumber.restored_iff.mp (h n (by simp [numbers]))
  | string s, _ => .element_without_blanks (.string (spelled_quoted s))
  | array [], _ => .element_without_blanks (.emptyArray .nil)
  | array (item :: items), h => by
      rw [numbers, itemsNumbers, List.forall_mem_append] at h
      obtain ⟨inner, hsame, hitems⟩ := exists_elements h.2 (derives_chars h.1)
      rw [chars, hsame]
      exact .element_without_blanks (.array hitems)
  | object [], _ => .element_without_blanks (.emptyObject .nil)
  | object ((name, value) :: members), h => by
      rw [numbers, membersNumbers, List.forall_mem_append] at h
      have hmember := derives_member name (derives_chars h.1)
      obtain ⟨inner, hsame, hmembers⟩ := exists_members h.2 hmember
      rw [List.append_assoc, List.cons_append] at hsame
      rw [chars, hsame]
      exact .element_without_blanks (.object hmembers)

/-- An element and the items after it are a list of elements, and then the array ends. -/
theorem exists_elements : ∀ {items : List Json} {first : Tree} {text : List Char},
    (∀ n ∈ itemsNumbers items, n.Restored) → Derives (.element first) text →
      ∃ inner, text ++ itemChars items = inner ++ [']'] ∧
        Derives (.elements (first :: itemTrees items)) inner
  | [], _, text, _, hfirst => ⟨text, rfl, .lastElement hfirst⟩
  | item :: items, _, text, h, hfirst => by
      rw [itemsNumbers, List.forall_mem_append] at h
      obtain ⟨inner, hsame, hitems⟩ := exists_elements h.2 (derives_chars h.1)
      refine ⟨text ++ ',' :: inner, ?_, .elements hfirst hitems⟩
      rw [itemChars, hsame]
      simp

/-- A member and the members after it are a list of members, and then the object ends. -/
theorem exists_members : ∀ {members : List (String × Json)} {name : Option String} {first : Tree}
    {text : List Char}, (∀ n ∈ membersNumbers members, n.Restored) →
      Derives (.member name first) text →
      ∃ inner, text ++ memberChars members = inner ++ ['}'] ∧
        Derives (.members ((name, first) :: memberTrees members)) inner
  | [], _, _, text, _, hfirst => ⟨text, rfl, .lastMember hfirst⟩
  | (name, value) :: members, _, _, text, h, hfirst => by
      rw [membersNumbers, List.forall_mem_append] at h
      have hmember := derives_member name (derives_chars h.1)
      obtain ⟨inner, hsame, hmembers⟩ := exists_members h.2 hmember
      rw [List.append_assoc, List.cons_append] at hsame
      refine ⟨text ++ ',' :: inner, ?_, .members hfirst hmembers⟩
      rw [memberChars, hsame]
      simp

end

/-- The reader restores the numbers of a value that are not integers. -/
def RestoresReals (json : Json) : Prop :=
  ∀ (x : Binary64) (finite : x.isFinite = true), .real x finite ∈ json.numbers →
    (JsonNumber.real x finite).Restored

/-- A value without numbers has none that could be lost. -/
theorem restoresReals_of_numbers_eq_nil {json : Json} (h : json.numbers = []) :
    json.RestoresReals := by
  intro x finite hmember
  rw [h] at hmember
  cases hmember

/-- The text of a value is written for it. -/
theorem writtenIn_text {json : Json} (hreals : json.RestoresReals) :
    json.WrittenIn json.text := by
  have hnumbers : ∀ n ∈ json.numbers, n.Restored := by
    intro n hn
    cases n with
    | integer n fits => exact JsonNumber.restored_integer n fits
    | real x finite => exact hreals x finite hn
  rw [WrittenIn, text, String.toList_ofList]
  exact derives_chars hnumbers

end Json

end RoutePriority
