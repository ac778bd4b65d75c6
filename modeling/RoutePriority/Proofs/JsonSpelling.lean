import RoutePriority.Json.Token
import RoutePriority.Proofs.NumeralValues
import Mathlib.Data.List.Basic
import Mathlib.Data.List.TakeWhile
import Mathlib.Tactic.IntervalCases

/-!
# How JSON tokens are spelled

The lexical grammar of JSON, said on texts and without a reader: which rows of characters are
numerals and strings, and which token each row spells (`Spelled`).  A numeral spells the number that
it denotes, and a string the characters of its pieces, of which a high and a low surrogate make one
(`Joins`); a numeral beyond all numbers and a string with half of a pair spell a token that holds
nothing.

The lexer finds exactly these tokens.  It takes as many characters of a numeral as it can, so a
number is found only in front of a text that cannot continue it (`EndsNumber`); every other token
shows where it ends.
-/

namespace RoutePriority.Json

/-- A row of blanks. -/
def Blank (text : List Char) : Prop := ∀ c ∈ text, c ∈ [' ', '\t', '\n', '\r']

/-! ## The lexical grammar -/

/-- The letters after a backslash, and the characters that they stand for. -/
def escapes : List (Char × Char) :=
  [('"', '"'), ('\\', '\\'), ('/', '/'), ('b', '\x08'), ('f', '\x0c'), ('n', '\n'), ('r', '\r'),
    ('t', '\t')]

/-- A hexadecimal digit, with a letter in either case, and its value. -/
def HexDigit (c : Char) (value : Nat) : Prop :=
  value < 16 ∧ (c = Nat.digitChar value ∨ c = (Nat.digitChar value).toUpper)

/-- Four hexadecimal digits, and the code that they denote. -/
inductive CodeText : List Char → Nat → Prop
  | digits {a b c d : Char} {i j k l : Nat} (ha : HexDigit a i) (hb : HexDigit b j)
      (hc : HexDigit c k) (hd : HexDigit d l) :
      CodeText [a, b, c, d] (((i * 16 + j) * 16 + k) * 16 + l)

/-- One piece of a string: a character as it is, a letter after a backslash, or a code.  Some codes
are no characters but halves of surrogate pairs. -/
inductive PieceText : List Char → Piece → Prop
  | plain {c : Char} (hquote : c ≠ '"') (hescape : c ≠ '\\') (hcontrol : 0x20 ≤ c.toNat) :
      PieceText [c] (.char c)
  | escape {letter c : Char} (h : (letter, c) ∈ escapes) : PieceText ['\\', letter] (.char c)
  | code {a b c d : Char} {code : Nat} (h : CodeText [a, b, c, d] code)
      (hchar : ¬ (0xD800 ≤ code ∧ code < 0xE000)) :
      PieceText ['\\', 'u', a, b, c, d] (.char (Char.ofNat code))
  | half {a b c d : Char} {code : Nat} (h : CodeText [a, b, c, d] code)
      (hhalf : 0xD800 ≤ code ∧ code < 0xE000) :
      PieceText ['\\', 'u', a, b, c, d] (.surrogate code)

/-- The pieces of a string, without the quotes around them. -/
inductive PiecesText : List Char → List Piece → Prop
  | nil : PiecesText [] []
  | cons {text rest : List Char} {piece : Piece} {pieces : List Piece}
      (hpiece : PieceText text piece) (hrest : PiecesText rest pieces) :
      PiecesText (text ++ rest) (piece :: pieces)

/-- The characters of pieces: a high surrogate and the low one after it are one character, and no
half stands alone. -/
inductive Joins : List Piece → List Char → Prop
  | nil : Joins [] []
  | char {c : Char} {pieces : List Piece} {text : List Char} (h : Joins pieces text) :
      Joins (.char c :: pieces) (c :: text)
  | pair {high low : Nat} {pieces : List Piece} {text : List Char} (hhigh : high < 0xDC00)
      (hlow : 0xDC00 ≤ low) (h : Joins pieces text) :
      Joins (.surrogate high :: .surrogate low :: pieces)
        (Char.ofNat (0x10000 + (high - 0xD800) * 0x400 + (low - 0xDC00)) :: text)

/-- A row of digits, at least one. -/
structure DigitsText (text : List Char) : Prop where
  ne_nil : text ≠ []
  isDigit : ∀ c ∈ text, c.isDigit = true

/-- The digits before the point do not start with a zero, unless it is the only one. -/
inductive WholeText : List Char → Prop
  | zero : WholeText ['0']
  | digits {text : List Char} (h : DigitsText text) (hhead : text.head? ≠ some '0') :
      WholeText text

/-- A point and digits, or nothing. -/
inductive FractionText : List Char → Option (List Char) → Prop
  | none : FractionText [] none
  | digits {text : List Char} (h : DigitsText text) : FractionText ('.' :: text) (some text)

/-- A sign, or nothing; it says whether what follows is negative. -/
inductive SignText : List Char → Bool → Prop
  | none : SignText [] false
  | plus : SignText ['+'] false
  | minus : SignText ['-'] true

/-- A power of ten, or nothing. -/
inductive PowerText : List Char → Option Int → Prop
  | none : PowerText [] none
  | power {mark : Char} {sign text : List Char} {negative : Bool} (hmark : mark = 'e' ∨ mark = 'E')
      (hsign : SignText sign negative) (h : DigitsText text) :
      PowerText (mark :: (sign ++ text)) (some (signedDigits negative text))

/-- An unsigned numeral, and the number that it denotes with its sign, if it denotes one. -/
inductive NumeralText (negative : Bool) : List Char → Option JsonNumber → Prop
  | numeral {whole fraction power : List Char} {digits : Option (List Char)} {exponent : Option Int}
      {value : Option JsonNumber} (hwhole : WholeText whole)
      (hfraction : FractionText fraction digits) (hpower : PowerText power exponent)
      (hvalue : ∀ n, value = some n ↔ JsonNumber.Denotes negative whole digits exponent n) :
      NumeralText negative (whole ++ (fraction ++ power)) value

/-- The token that a row of characters spells. -/
inductive Spelled : List Char → Token → Prop
  | openArray : Spelled ['['] .openArray
  | closeArray : Spelled [']'] .closeArray
  | openObject : Spelled ['{'] .openObject
  | closeObject : Spelled ['}'] .closeObject
  | colon : Spelled [':'] .colon
  | comma : Spelled [','] .comma
  | null : Spelled ['n', 'u', 'l', 'l'] .null
  | boolTrue : Spelled ['t', 'r', 'u', 'e'] (.bool true)
  | boolFalse : Spelled ['f', 'a', 'l', 's', 'e'] (.bool false)
  | positive {text : List Char} {value : Option JsonNumber} (h : NumeralText false text value) :
      Spelled text (.number value)
  | negative {text : List Char} {value : Option JsonNumber} (h : NumeralText true text value) :
      Spelled ('-' :: text) (.number value)
  | string {text : List Char} {pieces : List Piece} {value : Option String}
      (h : PiecesText text pieces) (hvalue : ∀ s, value = some s ↔ Joins pieces s.toList) :
      Spelled ('"' :: (text ++ ['"'])) (.string value)

/-- A text that cannot continue a numeral. -/
def EndsNumber (text : List Char) : Prop :=
  ∀ c ∈ text.head?, c.isDigit = false ∧ c ≠ '.' ∧ c ≠ 'e' ∧ c ≠ 'E'

/-! ## Blanks and digits -/

/-- The lexer skips the blanks of the grammar. -/
theorem isSpace_iff {c : Char} : isSpace c = true ↔ c ∈ [' ', '\t', '\n', '\r'] := by
  simp [isSpace, or_assoc]

/-- The lexer knows the letters of the grammar. -/
theorem escapeChar?_eq_some_iff {letter c : Char} :
    escapeChar? letter = some c ↔ (letter, c) ∈ escapes := by
  unfold escapeChar?
  split <;> simp_all [escapes, eq_comm]

/-- A character of a range of characters is one of those counted from its first. -/
theorem exists_ofNat_of_le {first last c : Char} (h : first ≤ c ∧ c ≤ last) :
    ∃ n, first.toNat ≤ n ∧ n ≤ last.toNat ∧ c = Char.ofNat n :=
  ⟨c.toNat, UInt32.le_iff_toNat_le.mp h.1, UInt32.le_iff_toNat_le.mp h.2, c.ofNat_toNat.symm⟩

/-- The lexer knows the hexadecimal digits of the grammar. -/
theorem hexValue?_eq_some_iff {c : Char} {value : Nat} :
    Text.hexValue? c = some value ↔ HexDigit c value := by
  constructor
  · unfold Text.hexValue? HexDigit
    split_ifs with hdigit hlower hupper
    · have hrange : '0' ≤ c ∧ c ≤ '9' := by simpa [Char.isDigit, Char.le_def] using hdigit
      obtain ⟨n, hfirst, hlast, rfl⟩ := exists_ofNat_of_le hrange
      change 48 ≤ n at hfirst
      change n ≤ 57 at hlast
      intro h
      cases h
      interval_cases n <;> decide
    · obtain ⟨n, hfirst, hlast, rfl⟩ := exists_ofNat_of_le hlower
      change 97 ≤ n at hfirst
      change n ≤ 102 at hlast
      intro h
      cases h
      interval_cases n <;> decide
    · obtain ⟨n, hfirst, hlast, rfl⟩ := exists_ofNat_of_le hupper
      change 65 ≤ n at hfirst
      change n ≤ 70 at hlast
      intro h
      cases h
      interval_cases n <;> decide
    · simp
  · rintro ⟨hvalue, rfl | rfl⟩ <;> interval_cases value <;> decide

/-- The lexer reads a code by its four digits. -/
theorem hexCode?_eq_some_iff {a b c d : Char} {code : Nat} :
    hexCode? a b c d = some code ↔ CodeText [a, b, c, d] code := by
  simp only [hexCode?, Option.bind_eq_bind, Option.bind_eq_some_iff, Option.pure_def,
    hexValue?_eq_some_iff]
  constructor
  · intro hcase
    obtain ⟨i, ha, j, hb, k, hc, l, hd, hcode⟩ := hcase
    have hplaces : code = ((i * 16 + j) * 16 + k) * 16 + l := by
      cases hcode
      omega
    rw [hplaces]
    exact .digits ha hb hc hd
  · intro h
    cases h with
    | @digits _ _ _ _ i j k l ha hb hc hd =>
        refine ⟨i, ha, j, hb, k, hc, l, hd, ?_⟩
        congr 1
        omega

/-! ## Strings -/

/-- The lexer joins the pieces of a string to their characters. -/
theorem joined?_eq_some_iff {pieces : List Piece} {text : List Char} :
    joined? pieces = some text ↔ Joins pieces text := by
  constructor
  · intro h
    fun_induction joined? pieces generalizing text with
    | case1 =>
        cases h
        exact .nil
    | case2 c rest ih =>
        obtain ⟨found, hfound, rfl⟩ := Option.map_eq_some_iff.mp h
        exact .char (ih hfound)
    | case3 high low rest hpair ih =>
        obtain ⟨found, hfound, rfl⟩ := Option.map_eq_some_iff.mp h
        exact .pair hpair.1 hpair.2 (ih hfound)
    | case4 => cases h
    | case5 => cases h
  · intro h
    induction h with
    | nil => rfl
    | char _ ih => rw [joined?, ih, Option.map_some]
    | pair hhigh hlow _ ih => rw [joined?, if_pos ⟨hhigh, hlow⟩, ih, Option.map_some]

/-- The text of a string is that of its joined pieces. -/
theorem joinedText_eq_some_iff {pieces : List Piece} {s : String} :
    (joined? pieces).map String.ofList = some s ↔ Joins pieces s.toList := by
  rw [← joined?_eq_some_iff, Option.map_eq_some_iff]
  constructor
  · intro h
    obtain ⟨text, htext, rfl⟩ := h
    rwa [String.toList_ofList]
  · intro htext
    exact ⟨s.toList, htext, s.ofList_toList⟩

/-- A code of 16 bits is the piece that the lexer makes of it. -/
theorem CodeText.pieceText {a b c d : Char} {code : Nat} (h : CodeText [a, b, c, d] code) :
    PieceText ['\\', 'u', a, b, c, d] (.ofCode code) := by
  unfold Piece.ofCode
  split
  next hhalf => exact .half h hhalf
  next hchar => exact .code h hchar

/-- No letter stands for a character if it announces a code. -/
theorem u_ne_letter {letter c : Char} (h : (letter, c) ∈ escapes) : letter ≠ 'u' := by
  intro hcase
  obtain rfl := hcase
  simp [escapes] at h

/-- A piece is read off in front of any text. -/
theorem PieceText.pieces?_append {text : List Char} {piece : Piece} (h : PieceText text piece)
    (rest : List Char) :
    pieces? (text ++ rest) = (pieces? rest).map fun found => (piece :: found.1, found.2) := by
  cases h with
  | @plain c hquote hescape hcontrol =>
      have hplain : ¬ (c = '\\' ∨ c.toNat < 0x20) := not_or.mpr ⟨hescape, Nat.not_lt.mpr hcontrol⟩
      rw [List.singleton_append, pieces?, if_neg hplain]
      · cases pieces? rest <;> rfl
      · exact hquote
      · exact fun _ _ _ _ _ hc _ => hescape hc
      · exact fun _ _ hc _ => hescape hc
  | escape h =>
      rw [List.cons_append, List.singleton_append, pieces?, escapeChar?_eq_some_iff.mpr h]
      · cases pieces? rest <;> rfl
      · exact fun _ _ _ _ _ hc _ => u_ne_letter h hc
  | code h hchar =>
      rw [List.cons_append, List.cons_append, List.cons_append, List.cons_append, List.cons_append,
        List.singleton_append, pieces?, hexCode?_eq_some_iff.mpr h]
      simp only [Option.bind_eq_bind, Option.bind_some, Piece.ofCode, if_neg hchar]
      cases pieces? rest <;> rfl
  | half h hhalf =>
      rw [List.cons_append, List.cons_append, List.cons_append, List.cons_append, List.cons_append,
        List.singleton_append, pieces?, hexCode?_eq_some_iff.mpr h]
      simp only [Option.bind_eq_bind, Option.bind_some, Piece.ofCode, if_pos hhalf]
      cases pieces? rest <;> rfl

/-- The pieces of a string are read up to its closing quote. -/
theorem PiecesText.pieces?_append {text : List Char} {pieces : List Piece}
    (h : PiecesText text pieces) (after : List Char) :
    pieces? (text ++ '"' :: after) = some (pieces, after) := by
  induction h with
  | nil => rfl
  | cons hpiece _ ih =>
      rw [List.append_assoc, hpiece.pieces?_append, ih]
      rfl

/-- What is read as a string is spelled as one. -/
theorem piecesText_of_pieces? {text after : List Char} {pieces : List Piece}
    (h : pieces? text = some (pieces, after)) :
    ∃ body, text = body ++ '"' :: after ∧ PiecesText body pieces := by
  fun_induction pieces? text generalizing pieces with
  | case1 => cases h
  | case2 rest =>
      cases h
      exact ⟨[], rfl, .nil⟩
  | case3 a b c d rest ih =>
      simp only [Option.bind_eq_bind, Option.bind_eq_some_iff, Prod.exists] at h
      obtain ⟨code, hcode, found, left, hfound, hpieces⟩ := h
      cases hpieces
      obtain ⟨body, rfl, hbody⟩ := ih hfound
      exact ⟨_, rfl, .cons (hexCode?_eq_some_iff.mp hcode).pieceText hbody⟩
  | case4 letter rest _ ih =>
      simp only [Option.bind_eq_bind, Option.bind_eq_some_iff, Prod.exists] at h
      obtain ⟨c, hc, found, left, hfound, hpieces⟩ := h
      cases hpieces
      obtain ⟨body, rfl, hbody⟩ := ih hfound
      exact ⟨_, rfl, .cons (.escape (escapeChar?_eq_some_iff.mp hc)) hbody⟩
  | case5 => cases h
  | case6 c rest hquote _ _ hplain ih =>
      simp only [Option.bind_eq_bind, Option.bind_eq_some_iff, Prod.exists] at h
      obtain ⟨found, left, hfound, hpieces⟩ := h
      cases hpieces
      obtain ⟨body, rfl, hbody⟩ := ih hfound
      obtain ⟨hescape, hcontrol⟩ := not_or.mp hplain
      exact ⟨_, rfl, .cons (.plain hquote hescape (Nat.not_lt.mp hcontrol)) hbody⟩

/-! ## Numerals -/

/-- The leading digits of a text end where something else follows. -/
theorem leadingDigits_append {digits after : List Char} (h : ∀ c ∈ digits, c.isDigit = true)
    (hafter : ∀ c ∈ after.head?, c.isDigit = false) :
    (digits ++ after).takeWhile Char.isDigit = digits ∧
      (digits ++ after).dropWhile Char.isDigit = after := by
  rw [List.takeWhile_append_of_pos h, List.dropWhile_append_of_pos h]
  cases after with
  | nil => simp
  | cons c rest => simp [hafter c rfl]

/-- The reader takes all digits and stops where there is none. -/
theorem digits?_append {digits after : List Char} (h : DigitsText digits)
    (hafter : ∀ c ∈ after.head?, c.isDigit = false) :
    digits? (digits ++ after) = some (digits, after) := by
  obtain ⟨htake, hdrop⟩ := leadingDigits_append h.isDigit hafter
  unfold digits?
  rw [htake, hdrop]
  cases digits with
  | nil => exact absurd rfl h.ne_nil
  | cons c rest => rfl

/-- What the reader takes for digits are digits. -/
theorem digitsText_of_digits? {text digits after : List Char}
    (h : digits? text = some (digits, after)) : text = digits ++ after ∧ DigitsText digits := by
  unfold digits? at h
  split at h
  · cases h
  next hne =>
    cases h
    refine ⟨List.takeWhile_append_dropWhile.symm, by simpa using hne, ?_⟩
    intro c hc
    exact List.mem_takeWhile_imp hc

/-- The reader takes the digits of a whole number, a zero in front only if it is alone. -/
theorem WholeText.wholeDigits?_append {whole after : List Char} (h : WholeText whole)
    (hafter : ∀ c ∈ after.head?, c.isDigit = false) :
    wholeDigits? (whole ++ after) = some (whole, after) := by
  cases h with
  | zero => rfl
  | digits h hhead =>
      rw [wholeDigits?, digits?_append h hafter]
      intro rest hrest
      cases whole with
      | nil => exact h.ne_nil rfl
      | cons c tail =>
          obtain ⟨rfl, -⟩ := List.cons.inj hrest
          exact hhead rfl

/-- What the reader takes for a whole number is one. -/
theorem wholeText_of_wholeDigits? {text whole after : List Char}
    (h : wholeDigits? text = some (whole, after)) : text = whole ++ after ∧ WholeText whole := by
  unfold wholeDigits? at h
  split at h
  · cases h
    exact ⟨rfl, .zero⟩
  next hzero =>
    obtain ⟨rfl, hdigits⟩ := digitsText_of_digits? h
    refine ⟨rfl, .digits hdigits ?_⟩
    intro hhead
    obtain ⟨tail, rfl⟩ := List.head?_eq_some_iff.mp hhead
    exact hzero (tail ++ after) rfl

/-- The reader takes the point and the digits after it, or neither. -/
theorem FractionText.fractionDigits?_append {fraction after : List Char}
    {digits : Option (List Char)} (h : FractionText fraction digits)
    (hafter : ∀ c ∈ after.head?, c.isDigit = false ∧ c ≠ '.') :
    fractionDigits? (fraction ++ after) = some (digits, after) := by
  cases h with
  | none =>
      rw [List.nil_append, fractionDigits?]
      intro rest hcase
      obtain rfl := hcase
      exact (hafter '.' rfl).2 rfl
  | digits h =>
      rw [List.cons_append, fractionDigits?, digits?_append h fun c hc => (hafter c hc).1]
      rfl

/-- What the reader takes for a fraction is one, or nothing. -/
theorem fractionText_of_fractionDigits? {text after : List Char} {digits : Option (List Char)}
    (h : fractionDigits? text = some (digits, after)) :
    ∃ fraction, text = fraction ++ after ∧ FractionText fraction digits := by
  unfold fractionDigits? at h
  split at h
  next rest =>
    obtain ⟨found, hfound, hsame⟩ := Option.map_eq_some_iff.mp h
    cases hsame
    obtain ⟨rfl, hdigits⟩ := digitsText_of_digits? hfound
    exact ⟨_, rfl, .digits hdigits⟩
  · cases h
    exact ⟨[], rfl, .none⟩

/-- The reader splits off a sign where one is. -/
theorem SignText.splitSign_append {sign text : List Char} {negative : Bool}
    (h : SignText sign negative) (htext : ∀ c ∈ text.head?, c ≠ '-' ∧ c ≠ '+') :
    splitSign (sign ++ text) = (negative, text) := by
  cases h with
  | none =>
      rw [List.nil_append, splitSign]
      · intro rest hcase
        obtain rfl := hcase
        exact (htext '-' rfl).1 rfl
      · intro rest hcase
        obtain rfl := hcase
        exact (htext '+' rfl).2 rfl
  | plus => rfl
  | minus => rfl

/-- A row of digits starts with no sign. -/
theorem DigitsText.head_ne_sign {digits : List Char} (h : DigitsText digits) (after : List Char) :
    ∀ c ∈ (digits ++ after).head?, c ≠ '-' ∧ c ≠ '+' := by
  intro c hc
  rw [List.head?_append_of_ne_nil _ h.ne_nil] at hc
  have hdigit := h.isDigit c (List.mem_of_mem_head? hc)
  constructor <;> rintro rfl <;> cases hdigit

/-- What the reader splits off is a sign, or nothing. -/
theorem signText_of_splitSign {text rest : List Char} {negative : Bool}
    (h : splitSign text = (negative, rest)) :
    ∃ sign, text = sign ++ rest ∧ SignText sign negative := by
  unfold splitSign at h
  split at h
  · cases h
    exact ⟨_, rfl, .minus⟩
  · cases h
    exact ⟨_, rfl, .plus⟩
  · cases h
    exact ⟨[], rfl, .none⟩

/-- The reader takes a power of ten to its end. -/
theorem PowerText.powerOfTen?_append {power after : List Char} {exponent : Option Int}
    (h : PowerText power exponent) (hafter : EndsNumber after) :
    powerOfTen? (power ++ after) = some (exponent, after) := by
  cases h with
  | none =>
      cases after with
      | nil => rfl
      | cons c rest =>
          obtain ⟨-, -, he, hE⟩ := hafter c rfl
          rw [List.nil_append, powerOfTen?, if_neg (not_or.mpr ⟨he, hE⟩)]
  | @power mark sign text negative hmark hsign h =>
      rw [List.cons_append, List.append_assoc, powerOfTen?, if_pos hmark,
        hsign.splitSign_append (h.head_ne_sign after)]
      simp only [digits?_append h fun c hc => (hafter c hc).1, Option.map_some]
      rfl

/-- What the reader takes for a power of ten is one, or nothing. -/
theorem powerText_of_powerOfTen? {text after : List Char} {exponent : Option Int}
    (h : powerOfTen? text = some (exponent, after)) :
    ∃ power, text = power ++ after ∧ PowerText power exponent := by
  cases text with
  | nil =>
      cases h
      exact ⟨[], rfl, .none⟩
  | cons c rest =>
      rw [powerOfTen?] at h
      by_cases hmark : c = 'e' ∨ c = 'E'
      · cases hsplit : splitSign rest with
        | mk negative unsigned =>
            rw [if_pos hmark, hsplit] at h
            obtain ⟨⟨digits, left⟩, hfound, hsame⟩ := Option.map_eq_some_iff.mp h
            cases hsame
            obtain ⟨sign, rfl, hsign⟩ := signText_of_splitSign hsplit
            obtain ⟨rfl, hdigits⟩ := digitsText_of_digits? hfound
            exact ⟨c :: (sign ++ digits), by simp, .power hmark hsign hdigits⟩
      · rw [if_neg hmark] at h
        cases h
        exact ⟨[], rfl, .none⟩

theorem head?_append_cases {left right : List Char} {P : Char → Prop}
    (hleft : ∀ c ∈ left.head?, P c) (hright : ∀ c ∈ right.head?, P c) :
    ∀ c ∈ (left ++ right).head?, P c := by
  cases left with
  | nil => exact hright
  | cons c rest => exact hleft

/-- The reader takes a numeral to its end and gives the number it denotes. -/
theorem NumeralText.numberLexeme?_append {negative : Bool} {text after : List Char}
    {value : Option JsonNumber} (h : NumeralText negative text value) (hafter : EndsNumber after) :
    numberLexeme? negative (text ++ after) = some (.number value, after) := by
  obtain @⟨whole, fraction, power, digits, exponent, _, hwhole, hfraction, hpower, hvalue⟩ := h
  have hsame : JsonNumber.ofParts? negative whole digits exponent = value := by
    refine Option.ext fun n => ?_
    rw [JsonNumber.ofParts?_eq_some_iff, hvalue]
  have hpowerHead : ∀ c ∈ (power ++ after).head?, c.isDigit = false ∧ c ≠ '.' := by
    refine head?_append_cases ?_ fun c hc => ⟨(hafter c hc).1, (hafter c hc).2.1⟩
    cases hpower with
    | none => simp
    | power hmark _ _ => rcases hmark with rfl | rfl <;> simp
  have hfractionHead : ∀ c ∈ (fraction ++ (power ++ after)).head?, c.isDigit = false := by
    refine head?_append_cases ?_ fun c hc => (hpowerHead c hc).1
    cases hfraction with
    | none => simp
    | digits _ => simp
  rw [numberLexeme?, List.append_assoc, List.append_assoc, hwhole.wholeDigits?_append hfractionHead]
  simp only [Option.bind_eq_bind, Option.bind_some, hfraction.fractionDigits?_append hpowerHead,
    hpower.powerOfTen?_append hafter, Option.pure_def, hsame]

/-- What the reader takes for a number is a numeral that denotes it. -/
theorem numeralText_of_numberLexeme? {negative : Bool} {text after : List Char} {token : Token}
    (h : numberLexeme? negative text = some (token, after)) :
    ∃ numeral value, text = numeral ++ after ∧ token = .number value ∧
      NumeralText negative numeral value := by
  simp only [numberLexeme?, Option.bind_eq_bind, Option.bind_eq_some_iff, Prod.exists] at h
  obtain ⟨whole, afterWhole, hwhole, digits, afterFraction, hfraction, exponent, afterPower, hpower,
    hsame⟩ := h
  cases hsame
  obtain ⟨rfl, hwholeText⟩ := wholeText_of_wholeDigits? hwhole
  obtain ⟨fraction, rfl, hfractionText⟩ := fractionText_of_fractionDigits? hfraction
  obtain ⟨power, rfl, hpowerText⟩ := powerText_of_powerOfTen? hpower
  exact ⟨whole ++ (fraction ++ power), _, by simp, rfl,
    .numeral hwholeText hfractionText hpowerText fun _ => JsonNumber.ofParts?_eq_some_iff⟩

/-! ## Tokens -/

/-- A numeral starts with a digit. -/
theorem NumeralText.exists_cons {negative : Bool} {text : List Char} {value : Option JsonNumber}
    (h : NumeralText negative text value) :
    ∃ c rest, text = c :: rest ∧ c.isDigit = true := by
  obtain @⟨whole, fraction, power, digits, exponent, _, hwhole, -, -, -⟩ := h
  cases hwhole with
  | zero => exact ⟨'0', fraction ++ power, rfl, rfl⟩
  | digits h _ =>
      obtain ⟨c, rest, rfl⟩ := List.exists_cons_of_ne_nil h.ne_nil
      exact ⟨c, rest ++ (fraction ++ power), rfl, h.isDigit c List.mem_cons_self⟩

/-- A digit starts a number and nothing else. -/
theorem lexeme?_of_isDigit {c : Char} (h : c.isDigit = true) (text : List Char) :
    lexeme? c text = numberLexeme? false (c :: text) := by
  rw [lexeme?, if_pos h]
  all_goals
    intros
    subst_vars
    cases h

theorem isSpace_of_isDigit {c : Char} (h : c.isDigit = true) : isSpace c = false := by
  rw [Bool.eq_false_iff]
  intro hspace
  simp only [isSpace, Bool.or_eq_true, beq_iff_eq] at hspace
  rcases hspace with ((rfl | rfl) | rfl) | rfl <;> cases h

/-- The lexer finds the token that a text starts with; a number must end there. -/
theorem Spelled.lexeme?_append {spelled : List Char} {token : Token} (h : Spelled spelled token)
    {after : List Char} (hafter : ∀ value, token = .number value → EndsNumber after) :
    ∃ c text, spelled = c :: text ∧ isSpace c = false ∧
      lexeme? c (text ++ after) = some (token, after) := by
  cases h with
  | openArray | closeArray | openObject | closeObject | colon | comma | null | boolTrue
  | boolFalse =>
      exact ⟨_, _, rfl, rfl, rfl⟩
  | positive h =>
      obtain ⟨c, text, rfl, hdigit⟩ := h.exists_cons
      refine ⟨c, text, rfl, isSpace_of_isDigit hdigit, ?_⟩
      rw [lexeme?_of_isDigit hdigit]
      exact h.numberLexeme?_append (hafter _ rfl)
  | negative h =>
      exact ⟨_, _, rfl, rfl, h.numberLexeme?_append (hafter _ rfl)⟩
  | @string text pieces value h hvalue =>
      have hsame : (joined? pieces).map String.ofList = value := by
        refine Option.ext fun s => ?_
        rw [joinedText_eq_some_iff, hvalue]
      refine ⟨_, _, rfl, rfl, ?_⟩
      rw [lexeme?, stringLexeme?, List.append_assoc, List.singleton_append, h.pieces?_append,
        ← hsame]
      rfl

/-- Every token that the lexer finds is spelled there. -/
theorem exists_spelled_of_lexeme? {c : Char} {text after : List Char} {token : Token}
    (h : lexeme? c text = some (token, after)) :
    ∃ spelled, c :: text = spelled ++ after ∧ Spelled spelled token := by
  unfold lexeme? at h
  split at h
  case h_10 =>
    obtain ⟨found, hfound, hsame⟩ := Option.map_eq_some_iff.mp h
    cases hsame
    obtain ⟨body, rfl, hbody⟩ := piecesText_of_pieces? hfound
    exact ⟨_, by simp, .string hbody fun _ => joinedText_eq_some_iff⟩
  case h_11 =>
    obtain ⟨numeral, value, rfl, rfl, hnumeral⟩ := numeralText_of_numberLexeme? h
    exact ⟨_, rfl, .negative hnumeral⟩
  case h_12 =>
    split at h
    · obtain ⟨numeral, value, hsplit, rfl, hnumeral⟩ := numeralText_of_numberLexeme? h
      exact ⟨numeral, hsplit, .positive hnumeral⟩
    · cases h
  all_goals
    cases h
    exact ⟨_, rfl, by constructor⟩

end RoutePriority.Json
