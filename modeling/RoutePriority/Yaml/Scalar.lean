import RoutePriority.Text.Digit
import RoutePriority.Yaml.Source

/-!
# Scalars of YAML texts

Each style of scalar has a reader that walks through the source glyph by glyph and gives the text of
the scalar and the source after it.  Where a scalar runs over several lines, the blanks around a
line break are dropped, and one break becomes a space while further ones stay; what lies between two
words is a `Gap` until the next word shows that it belongs to the scalar.
-/

namespace RoutePriority.Yaml

/-- The style in which a scalar is written. -/
inductive Style where
  | plain
  | singleQuoted
  | doubleQuoted
  | literal
  | folded
  deriving DecidableEq

/-- What lies between two words of a flow scalar. -/
inductive Gap where
  /-- Blanks on one line, the last first. -/
  | blanks (characters : List Char)
  /-- A first line break, if it counts, and the further ones, the last first. -/
  | breaks (first : Option Char) (further : List Char)

namespace Gap

/-- No gap. -/
def none : Gap := blanks []

/-- Whether the gap runs over a line break. -/
def isBroken : Gap → Bool
  | blanks _ => false
  | breaks .. => true

/-- Whether there is anything in the gap. -/
def isEmpty : Gap → Bool
  | blanks characters => characters.isEmpty
  | breaks .. => false

/-- The gap with one more blank; blanks after a break do not count. -/
def addBlank (c : Char) : Gap → Gap
  | blanks characters => blanks (c :: characters)
  | broken => broken

/-- The gap with one more line break; blanks before a break do not count. -/
def addBreak (c : Char) : Gap → Gap
  | blanks _ => breaks (some c) []
  | breaks first further => breaks first (c :: further)

/-- The characters that the gap contributes to the scalar: a single ordinary break is a space, and
of several the first is dropped. -/
def folded : Gap → List Char
  | blanks characters => characters.reverse
  | breaks .none further => further.reverse
  | breaks (some first) further =>
    if first ≠ '\n' then first :: further.reverse
    else if further = [] then [' ']
    else further.reverse

end Gap

/-! ## Plain scalars -/

/-- Whether a plain scalar ends before a colon with the given glyph after it. -/
def endsKey (flow : Bool) (after : Glyph) : Bool :=
  after.endsWord || (flow && after.isAmong ",?[]\x7b\x7d")

/-- Whether a glyph ends a plain scalar in a flow collection. -/
def endsFlowPlain (g : Glyph) : Bool := g.isAmong ",[]\x7b\x7d"

/-- Reads a plain scalar: the characters so far, the last first, and the gap after them.  `indent`
is the least column at which a further line may start outside flow collections.  The gap before the
end belongs to no scalar; the answer says whether it runs over a line break. -/
def readPlain? (flow : Bool) (indent : Nat) (characters : List Char) (gap : Gap) :
    Source → Option (List Char × Bool × Source)
  | [] => none
  | g :: rest =>
    if g.isBlank then
      if gap.isBroken && g.column < indent && g.is '\t' then none
      else readPlain? flow indent characters (gap.addBlank g.char) rest
    else if g.isBreak then readPlain? flow indent characters (gap.addBreak g.char) rest
    else
      let ended := some (characters.reverse, gap.isBroken, g :: rest)
      let startsWord := !gap.isEmpty
      if g.isEnd then ended
      else if startsWord && ((!flow && g.column < indent) ||
          Source.atDocumentMarker (g :: rest) || g.is '#') then ended
      else if g.is ':' && rest.head?.all (endsKey flow) then
        -- in a flow collection a colon before an indicator is an error
        if rest.head?.all Glyph.endsWord then ended else none
      else if flow && endsFlowPlain g then ended
      else readPlain? flow indent (g.char :: (gap.folded.reverse ++ characters)) .none rest

/-! ## Quoted scalars -/

/-- Reads a single-quoted scalar after its opening quote; a doubled quote stands for one. -/
def readSingleQuoted? (characters : List Char) (gap : Gap) : Source → Option (List Char × Source)
  | [] => none
  | g :: rest =>
    if g.isBlank then readSingleQuoted? characters (gap.addBlank g.char) rest
    else if g.isBreak then readSingleQuoted? characters (gap.addBreak g.char) rest
    else if g.isEnd || Source.atDocumentMarker (g :: rest) then none
    else
      let characters := gap.folded.reverse ++ characters
      if g.is '\'' then
        match rest with
        | next :: rest =>
          if next.is '\'' then readSingleQuoted? ('\'' :: characters) .none rest
          else some (characters.reverse, next :: rest)
        | [] => none
      else readSingleQuoted? (g.char :: characters) .none rest

/-- The character that an escape with one letter stands for. -/
def escapedChar? (c : Char) : Option Char :=
  match c with
  | '0' => some '\x00'
  | 'a' => some '\x07'
  | 'b' => some '\x08'
  | 't' | '\t' => some '\t'
  | 'n' => some '\n'
  | 'v' => some '\x0b'
  | 'f' => some '\x0c'
  | 'r' => some '\r'
  | 'e' => some '\x1b'
  | ' ' | '"' | '/' | '\\' => some c
  | 'N' => some '\u0085'
  | '_' => some '\u00a0'
  | 'L' => some '\u2028'
  | 'P' => some '\u2029'
  | _ => none

/-- The number of hexadecimal digits after the letter of an escape. -/
def escapeLength? : Char → Option Nat
  | 'x' => some 2
  | 'u' => some 4
  | 'U' => some 8
  | _ => none

/-- What has been read of an escape in a double-quoted scalar. -/
inductive Escape where
  /-- No escape is open. -/
  | closed
  /-- The backslash. -/
  | begun
  /-- A code, of which some digits are missing. -/
  | code (value missing : Nat)

/-- The character of a code, if there is one. -/
def charOfCode? (code : Nat) : Option Char :=
  if code.isValidChar then some (Char.ofNat code) else none

/-- Reads a double-quoted scalar after its opening quote. -/
def readDoubleQuoted? (characters : List Char) (gap : Gap) (escape : Escape) :
    Source → Option (List Char × Source)
  | [] => none
  | g :: rest =>
    match escape with
    | .code value missing =>
      match Text.hexValue? g.char with
      | none => none
      | some digit =>
        let value := value * 16 + digit
        if missing ≤ 1 then
          match charOfCode? value with
          | some c => readDoubleQuoted? (c :: characters) gap .closed rest
          | none => none
        else readDoubleQuoted? characters gap (.code value (missing - 1)) rest
    | .begun =>
      if g.isBreak then readDoubleQuoted? characters (.breaks none []) .closed rest
      else match escapedChar? g.char, escapeLength? g.char with
        | some c, _ => readDoubleQuoted? (c :: characters) gap .closed rest
        | none, some length => readDoubleQuoted? characters gap (.code 0 length) rest
        | none, none => none
    | .closed =>
      if g.isBlank then readDoubleQuoted? characters (gap.addBlank g.char) .closed rest
      else if g.isBreak then readDoubleQuoted? characters (gap.addBreak g.char) .closed rest
      else if g.isEnd || Source.atDocumentMarker (g :: rest) then none
      else
        let characters := gap.folded.reverse ++ characters
        if g.is '"' then some (characters.reverse, rest)
        else if g.is '\\' then readDoubleQuoted? characters .none .begun rest
        else readDoubleQuoted? (g.char :: characters) .none .closed rest

/-! ## Block scalars -/

/-- What becomes of the line breaks at the end of a block scalar. -/
inductive Chomping where
  | strip
  | clip
  | keep

/-- The chomping indicator that a glyph is. -/
def Chomping.ofGlyph? (g : Glyph) : Option Chomping :=
  if g.is '+' then some keep else if g.is '-' then some strip else none

/-- The indentation indicator that a glyph is; `none` for another glyph, and zero is no indicator.
-/
def indentation? (g : Glyph) : Option Nat :=
  if g.char.isDigit then some (g.char.toNat - '0'.toNat) else none

/-- The indicators of a block scalar, in either order: the chomping and the indentation, and the
source after them. -/
def blockIndicators? (source : Source) : Option (Chomping × Option Nat × Source) :=
  let chomping? (source : Source) := match source with
    | g :: rest => match Chomping.ofGlyph? g with
      | some chomping => (some chomping, rest)
      | none => (none, g :: rest)
    | [] => (none, [])
  let indent? (source : Source) := match source with
    | g :: rest => match indentation? g with
      | some indent => (some indent, rest)
      | none => (none, g :: rest)
    | [] => (none, [])
  let (first, source) := chomping? source
  let (indent, source) := indent? source
  let (second, source) := if first.isNone && indent.isSome then chomping? source else (none, source)
  if indent = some 0 then none
  else some (((first <|> second).getD .clip), indent, source)

/-- The column of the first line of a block scalar that is more than spaces, or of a longer line of
spaces before it; a tab may not stand where the indentation is looked for. -/
def detectIndent? (greatest : Nat) : Source → Option Nat
  | [] => some greatest
  | g :: rest =>
    let greatest := max greatest g.column
    if g.is ' ' then detectIndent? greatest rest
    else if g.is '\t' then none
    else if g.isBreak then detectIndent? greatest rest
    else some greatest

/-- What has been read of a block scalar. -/
structure BlockText where
  /-- The characters so far, the last first. -/
  characters : List Char
  /-- The break after the last line, not yet counted. -/
  lastBreak : List Char
  /-- The breaks of empty lines after it, the last first. -/
  emptyLines : List Char
  /-- Whether the last line starts with a blank. -/
  indented : Bool

namespace BlockText

/-- Nothing. -/
def empty : BlockText := ⟨[], [], [], false⟩

/-- The text at the start of a new line, whose first glyph is a blank or not.  In a folded scalar
the break between two lines that start with no blank becomes a space, or is dropped before empty
lines. -/
def startLine (isFolded blank : Bool) (text : BlockText) : BlockText :=
  let joined :=
    if isFolded && text.lastBreak == ['\n'] && !text.indented && !blank then
      if text.emptyLines.isEmpty then [' '] else []
    else text.lastBreak
  ⟨text.emptyLines ++ (joined ++ text.characters), [], [], blank⟩

/-- The text when the scalar is over. -/
def finish (chomping : Chomping) (text : BlockText) : List Char :=
  let characters := match chomping with
    | .strip => text.characters
    | .clip => text.lastBreak ++ text.characters
    | .keep => text.emptyLines ++ (text.lastBreak ++ text.characters)
  characters.reverse

end BlockText

/-- Reads the lines of a block scalar whose lines start at column `indent`.  `inLine` says whether a
line is being read; else the indentation of the next one is. -/
def readBlock? (isFolded : Bool) (indent : Nat) (inLine : Bool) (text : BlockText) :
    Source → Option (BlockText × Source)
  | [] => none
  | g :: rest =>
    if inLine then
      if g.isBreak then readBlock? isFolded indent false { text with lastBreak := [g.char] } rest
      else if g.isEnd then some (text, g :: rest)
      else
        readBlock? isFolded indent true { text with characters := g.char :: text.characters } rest
    else if g.column < indent && g.is ' ' then readBlock? isFolded indent false text rest
    else if g.column < indent && g.is '\t' then none
    else if g.isBreak then
      readBlock? isFolded indent false { text with emptyLines := g.char :: text.emptyLines } rest
    else if g.column = indent && !g.isEnd then
      let text := text.startLine isFolded g.isBlank
      readBlock? isFolded indent true { text with characters := g.char :: text.characters } rest
    else some (text, g :: rest)

/-- The source after the rest of a line that holds only blanks and a comment. -/
def skipLineEnd? (source : Source) : Option Source :=
  let source := source.dropWhile Glyph.isBlank
  let source := if source.head?.any (·.is '#') then source.dropWhile (!Glyph.endsLine ·) else source
  match source with
  | g :: rest => if g.isBreak then some rest else if g.isEnd then some (g :: rest) else none
  | [] => none

/-- Reads a block scalar after its indicator; `outside` is the indentation of the collection around
it, if there is one. -/
def readBlockScalar? (isFolded : Bool) (outside : Int) (source : Source) :
    Option (List Char × Source) := do
  let (chomping, given, source) ← blockIndicators? source
  let source ← skipLineEnd? source
  let indent ← match given with
    | some more => some (if 0 ≤ outside then outside.toNat + more else more)
    | none => (detectIndent? 0 source).map fun found => max found (max (outside + 1).toNat 1)
  let (text, source) ← readBlock? isFolded indent false .empty source
  return (text.finish chomping, source)

end RoutePriority.Yaml
