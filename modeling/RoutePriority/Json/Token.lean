import RoutePriority.Json.Numeral
import RoutePriority.Text.Digit

/-!
# The tokens of JSON texts

A JSON text is a row of tokens with blanks between them.  Each lexeme function takes the text after
the first character of a token and gives the token and the text that follows; it never leaves more
text than there was (`Lexeme.Shrinks`), which is why `Token.ofChars?` ends.

A token can be well formed and still hold nothing that a program could use: a number beyond all
binary64 numbers, or a string with half of a surrogate pair.  Its payload is then `none`, and
whether this matters is left to the reader of the document, because the values of unknown members
need only be well formed.
-/

namespace RoutePriority.Json

/-- A token. -/
inductive Token where
  | openArray
  | closeArray
  | openObject
  | closeObject
  | colon
  | comma
  | null
  | bool (value : Bool)
  | number (value : Option JsonNumber)
  | string (value : Option String)

/-- A token and the text after it. -/
abbrev Lexeme := Token × List Char

/-- Whether a lexeme, if there is one, leaves no more text than there was. -/
def Lexeme.Shrinks {α : Type} (text : List Char) (lexeme? : Option (α × List Char)) : Prop :=
  ∀ lexeme ∈ lexeme?, lexeme.2.length ≤ text.length

/-- Whether a character stands between tokens. -/
def isSpace (c : Char) : Bool := c == ' ' || c == '\t' || c == '\n' || c == '\r'

/-! ## Strings -/

/-- A piece of a string: a character, or a half of a surrogate pair. -/
inductive Piece where
  | char (c : Char)
  | surrogate (half : Nat)

/-- The code that four hexadecimal digits denote. -/
def hexCode? (a b c d : Char) : Option Nat := do
  let high := (← Text.hexValue? a) * 16 + (← Text.hexValue? b)
  let low := (← Text.hexValue? c) * 16 + (← Text.hexValue? d)
  return high * 256 + low

/-- The piece of a code of 16 bits. -/
def Piece.ofCode (code : Nat) : Piece :=
  if 0xD800 ≤ code ∧ code < 0xE000 then surrogate code else char (Char.ofNat code)

/-- The character that the letter after a backslash stands for. -/
def escapeChar? : Char → Option Char
  | '"' => some '"'
  | '\\' => some '\\'
  | '/' => some '/'
  | 'b' => some '\x08'
  | 'f' => some '\x0c'
  | 'n' => some '\n'
  | 'r' => some '\r'
  | 't' => some '\t'
  | _ => none

/-- The pieces of a string up to its closing quote, and the text after it. -/
def pieces? : List Char → Option (List Piece × List Char)
  | [] => none
  | '"' :: rest => some ([], rest)
  | '\\' :: 'u' :: a :: b :: c :: d :: rest => do
    let code ← hexCode? a b c d
    let (pieces, after) ← pieces? rest
    return (.ofCode code :: pieces, after)
  | '\\' :: c :: rest => do
    let c ← escapeChar? c
    let (pieces, after) ← pieces? rest
    return (.char c :: pieces, after)
  | c :: rest =>
    if c = '\\' ∨ c.toNat < 0x20 then none
    else do
      let (pieces, after) ← pieces? rest
      return (.char c :: pieces, after)

/-- The characters of the pieces: a high surrogate and the low one after it are one character, and
no half may stand alone. -/
def joined? : List Piece → Option (List Char)
  | [] => some []
  | .char c :: rest => (joined? rest).map (c :: ·)
  | .surrogate high :: .surrogate low :: rest =>
    if high < 0xDC00 ∧ 0xDC00 ≤ low then
      (joined? rest).map (Char.ofNat (0x10000 + (high - 0xD800) * 0x400 + (low - 0xDC00)) :: ·)
    else none
  | .surrogate _ :: _ => none

/-- The string after an opening quote. -/
def stringLexeme? (text : List Char) : Option Lexeme :=
  (pieces? text).map fun (pieces, after) => (.string ((joined? pieces).map String.ofList), after)

theorem pieces?_shrinks (text : List Char) : Lexeme.Shrinks text (pieces? text) := by
  fun_induction pieces? text with
  | case1 => simp [Lexeme.Shrinks]
  | case2 rest => simp [Lexeme.Shrinks]
  | case3 a b c d rest ih =>
    intro lexeme h
    simp only [Option.bind_eq_bind, Option.mem_def, Option.bind_eq_some_iff, Prod.exists] at h
    obtain ⟨_, _, pieces, after, hp, he⟩ := h
    have := ih _ hp
    cases he
    simp only [List.length_cons] at this ⊢
    omega
  | case4 c rest hc ih =>
    intro lexeme h
    simp only [Option.bind_eq_bind, Option.mem_def, Option.bind_eq_some_iff, Prod.exists] at h
    obtain ⟨_, _, pieces, after, hp, he⟩ := h
    have := ih _ hp
    cases he
    simp only [List.length_cons] at this ⊢
    omega
  | case5 => simp [Lexeme.Shrinks]
  | case6 c rest _ _ _ hc ih =>
    intro lexeme h
    simp only [Option.bind_eq_bind, Option.mem_def, Option.bind_eq_some_iff, Prod.exists] at h
    obtain ⟨pieces, after, hp, he⟩ := h
    have := ih _ hp
    cases he
    simp only [List.length_cons] at this ⊢
    omega

/-- Reading a string leaves no more text than there was. -/
theorem stringLexeme?_shrinks (text : List Char) : Lexeme.Shrinks text (stringLexeme? text) := by
  intro lexeme h
  simp only [stringLexeme?, Option.mem_def, Option.map_eq_some_iff, Prod.exists] at h
  obtain ⟨pieces, after, hp, rfl⟩ := h
  exact pieces?_shrinks text _ hp

/-! ## Numbers -/

/-- The digits at the start of a text, at least one, and the text after them. -/
def digits? (text : List Char) : Option (List Char × List Char) :=
  match text.takeWhile Char.isDigit with
  | [] => none
  | digits => some (digits, text.dropWhile Char.isDigit)

/-- The digits before the point: a zero alone, or digits that start with another one. -/
def wholeDigits? : List Char → Option (List Char × List Char)
  | '0' :: rest => some (['0'], rest)
  | text => digits? text

/-- The digits after the point, if there is one. -/
def fractionDigits? : List Char → Option (Option (List Char) × List Char)
  | '.' :: rest => (digits? rest).map fun (digits, after) => (some digits, after)
  | text => some (none, text)

/-- The power of ten, if there is one. -/
def powerOfTen? : List Char → Option (Option Int × List Char)
  | c :: rest =>
    if c = 'e' ∨ c = 'E' then
      let (negative, digits) := splitSign rest
      (digits? digits).map fun (digits, after) =>
        let power : Int := natOfDigits digits
        (some (if negative then -power else power), after)
    else some (none, c :: rest)
  | [] => some (none, [])

/-- The unsigned part of a number. -/
def numberLexeme? (negative : Bool) (text : List Char) : Option Lexeme := do
  let (whole, text) ← wholeDigits? text
  let (fraction, text) ← fractionDigits? text
  let (power, text) ← powerOfTen? text
  return (.number (JsonNumber.ofParts? negative whole fraction power), text)

/-- At least one digit is taken. -/
theorem digits?_shortens {text : List Char} {found : List Char × List Char}
    (h : digits? text = some found) : found.2.length < text.length := by
  unfold digits? at h
  split at h
  · simp at h
  next hne =>
    cases h
    have : (text.takeWhile Char.isDigit).length ≠ 0 := by simpa using hne
    have := congrArg List.length (List.takeWhile_append_dropWhile (p := Char.isDigit) (l := text))
    simp only [List.length_append] at this ⊢
    omega

theorem wholeDigits?_shortens {text : List Char} {found : List Char × List Char}
    (h : wholeDigits? text = some found) : found.2.length < text.length := by
  unfold wholeDigits? at h
  split at h
  · cases h; simp
  · exact digits?_shortens h

/-- A fraction takes characters or leaves the text as it is. -/
theorem fractionDigits?_shrinks (text : List Char) :
    Lexeme.Shrinks text (fractionDigits? text) := by
  unfold fractionDigits?
  split
  next rest =>
    intro lexeme h
    simp only [Option.mem_def, Option.map_eq_some_iff, Prod.exists] at h
    obtain ⟨digits, after, hd, rfl⟩ := h
    have := digits?_shortens hd
    simp only [List.length_cons] at this ⊢
    omega
  · simp [Lexeme.Shrinks]

theorem length_splitSign_le (text : List Char) : (splitSign text).2.length ≤ text.length := by
  unfold splitSign
  split <;> simp

/-- A power of ten takes characters or leaves the text as it is. -/
theorem powerOfTen?_shrinks (text : List Char) : Lexeme.Shrinks text (powerOfTen? text) := by
  unfold powerOfTen?
  split
  next c rest =>
    split
    · intro lexeme h
      simp only [Option.mem_def, Option.map_eq_some_iff, Prod.exists] at h
      obtain ⟨digits, after, hd, rfl⟩ := h
      have := digits?_shortens hd
      have := length_splitSign_le rest
      simp only [List.length_cons] at *
      omega
    · simp [Lexeme.Shrinks]
  · simp [Lexeme.Shrinks]

/-- A number takes at least one character. -/
theorem numberLexeme?_shortens {negative : Bool} {text : List Char} {lexeme : Lexeme}
    (h : numberLexeme? negative text = some lexeme) : lexeme.2.length < text.length := by
  simp only [numberLexeme?, Option.bind_eq_bind, Option.bind_eq_some_iff, Prod.exists] at h
  obtain ⟨whole, t₁, h₁, fraction, t₂, h₂, power, t₃, h₃, he⟩ := h
  have := wholeDigits?_shortens h₁
  have := fractionDigits?_shrinks _ _ h₂
  have := powerOfTen?_shrinks _ _ h₃
  cases he
  simp only at *
  omega

/-! ## All tokens -/

/-- The token that starts with the character `c`, with the text after `c`. -/
def lexeme? (c : Char) (text : List Char) : Option Lexeme :=
  match c, text with
  | '[', _ => some (.openArray, text)
  | ']', _ => some (.closeArray, text)
  | '{', _ => some (.openObject, text)
  | '}', _ => some (.closeObject, text)
  | ':', _ => some (.colon, text)
  | ',', _ => some (.comma, text)
  | 'n', 'u' :: 'l' :: 'l' :: rest => some (.null, rest)
  | 't', 'r' :: 'u' :: 'e' :: rest => some (.bool true, rest)
  | 'f', 'a' :: 'l' :: 's' :: 'e' :: rest => some (.bool false, rest)
  | '"', _ => stringLexeme? text
  | '-', _ => numberLexeme? true text
  | _, _ => if c.isDigit then numberLexeme? false (c :: text) else none

/-- No token leaves more text than there was. -/
theorem lexeme?_shrinks (c : Char) (text : List Char) : Lexeme.Shrinks text (lexeme? c text) := by
  unfold lexeme?
  split
  case h_10 => exact stringLexeme?_shrinks text
  case h_11 => exact fun lexeme h => Nat.le_of_lt (numberLexeme?_shortens h)
  case h_12 =>
    split
    · exact fun lexeme h => Nat.le_of_lt_succ (numberLexeme?_shortens h)
    · simp [Lexeme.Shrinks]
  all_goals (simp only [Lexeme.Shrinks, Option.mem_def, Option.some.injEq, forall_eq']; grind)

/-- The tokens of a text. -/
def Token.ofChars? : List Char → Option (List Token)
  | [] => some []
  | c :: text =>
    if isSpace c then ofChars? text
    else match _h : lexeme? c text with
      | none => none
      | some (token, after) => (ofChars? after).map (token :: ·)
termination_by text => text.length
decreasing_by
  · simp
  · exact Nat.lt_succ_of_le (lexeme?_shrinks c text _ _h)

end RoutePriority.Json
