/-!
# YAML texts as characters with their places

Indentation and line breaks carry meaning in YAML, so a text is read as a list of `Glyph`s:
characters that know their line and column, and the octets before them in their line.  All spellings
of a line break become one, except the line and paragraph separators, which are breaks that keep
their character.  A `Source` ends with a glyph of its own, `endChar`, which no text can contain, so
that every place in a text has a glyph.
-/

namespace RoutePriority.Yaml

/-- The character that marks the end of a source. -/
def endChar : Char := '\x00'

/-- The byte order mark. -/
def byteOrderMark : Char := '\ufeff'

/-- Whether a character may stand in a YAML text. -/
def isAllowed (c : Char) : Bool :=
  let n := c.toNat
  n == 0x09 || n == 0x0A || n == 0x0D || (0x20 ≤ n && n ≤ 0x7E) || n == 0x85 ||
    (0xA0 ≤ n && n ≤ 0xD7FF) || (0xE000 ≤ n && n ≤ 0xFFFD) || 0x10000 ≤ n

/-- A character and its place in the text. -/
structure Glyph where
  char : Char
  line : Nat
  column : Nat
  /-- The number of UTF-8 octets before it in its line. -/
  octet : Nat

namespace Glyph

/-- Whether the glyph is a space or a tab. -/
def isBlank (g : Glyph) : Bool := g.char == ' ' || g.char == '\t'

/-- Whether the glyph breaks a line. -/
def isBreak (g : Glyph) : Bool := g.char == '\n' || g.char == '\u2028' || g.char == '\u2029'

/-- Whether the glyph is the end of the text. -/
def isEnd (g : Glyph) : Bool := g.char == endChar

/-- Whether the glyph ends a line: a break or the end of the text. -/
def endsLine (g : Glyph) : Bool := g.isBreak || g.isEnd

/-- Whether the glyph ends a word: a blank, a break or the end of the text. -/
def endsWord (g : Glyph) : Bool := g.isBlank || g.endsLine

/-- Whether the glyph is the given character. -/
def is (g : Glyph) (c : Char) : Bool := g.char == c

/-- Whether the glyph is one of the given characters. -/
def isAmong (g : Glyph) (characters : String) : Bool := characters.contains g.char

/-- Whether the glyph may stand in a name: an ASCII letter or digit, a dash or a low line. -/
def isNameChar (g : Glyph) : Bool := g.char.isAlphanum || g.char == '-' || g.char == '_'

end Glyph

/-- The glyphs of a text, the last of them its end. -/
abbrev Source := List Glyph

/-- The characters of a text with one spelling of the line break. -/
def unifiedBreaks : List Char → List Char
  | '\r' :: '\n' :: rest => '\n' :: unifiedBreaks rest
  | c :: rest => (if c = '\r' ∨ c = '\u0085' then '\n' else c) :: unifiedBreaks rest
  | [] => []

/-- Characters with their places, the first of them at the given one. -/
def placed (line column octet : Nat) : List Char → Source
  | [] => [⟨endChar, line, column, octet⟩]
  | c :: rest =>
    let glyph : Glyph := ⟨c, line, column, octet⟩
    glyph :: if glyph.isBreak then placed (line + 1) 0 0 rest
      else placed line (column + 1) (octet + c.utf8Size) rest

/-- The source of a text, if all its characters may stand in one. -/
def Source.ofText? (text : String) : Option Source :=
  if text.toList.all isAllowed then some (placed 0 0 0 (unifiedBreaks text.toList)) else none

/-- Whether the source stands at a document marker, the given character three times at the start of
a line. -/
def Source.atMarker (c : Char) : Source → Bool
  | a :: b :: d :: e :: _ => a.column == 0 && a.is c && b.is c && d.is c && e.endsWord
  | _ => false

/-- Whether the source stands at the marker of the start or the end of a document. -/
def Source.atDocumentMarker (source : Source) : Bool := source.atMarker '-' || source.atMarker '.'

end RoutePriority.Yaml
