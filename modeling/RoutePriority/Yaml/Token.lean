import RoutePriority.Yaml.Scalar

/-!
# The tokens of YAML texts

Tokens are found from left to right, but two of them only become known late: that a scalar was a
mapping key, and that a block mapping began with it, shows at the colon after it.  A `Scanner`
therefore remembers, for each open flow collection and for the block around them, where a key may
have begun (`KeyStart`), and `Scanner.insertAt` puts the two tokens in front of it.  Such a key must
lie on one line and be at most 1024 octets long.

Blocks begin and end by indentation: `roll` opens one at a deeper column, and `unroll` closes those
that a column has left.
-/

namespace RoutePriority.Yaml

/-- The octets of a tag, none of which is zero. -/
abbrev Tag := List UInt8

/-- The octets of ASCII characters. -/
def octets (characters : List Char) : List UInt8 := characters.map fun c => c.toNat.toUInt8

/-- A token. -/
inductive Token where
  | version (major minor : Nat)
  | tagHandle (handle : String) (expansion : Tag)
  | documentStart
  | documentEnd
  | blockSequenceStart
  | blockMappingStart
  | blockEnd
  | flowSequenceStart
  | flowSequenceEnd
  | flowMappingStart
  | flowMappingEnd
  | blockEntry
  | flowEntry
  | key
  | value
  | reference (name : String)
  | anchor (name : String)
  | tag (handle : String) (suffix : Tag)
  | scalar (style : Style) (text : String)
  deriving DecidableEq

/-! ## Names, tags and directives -/

/-- The characters of glyphs. -/
def characters (glyphs : List Glyph) : List Char := glyphs.map Glyph.char

/-- The name of an anchor, and the source after it, which must not go on like a name. -/
def readAnchor? (source : Source) : Option (String × Source) :=
  let name := source.takeWhile Glyph.isNameChar
  let after := source.dropWhile Glyph.isNameChar
  let ended := after.head?.all fun g => g.endsWord || g.isAmong "?:,]\x7d%@\x60"
  if name.isEmpty || !ended then none else some (String.ofList (characters name), after)

/-- The number of further octets after the first octet of a character, if it is such an octet. -/
def furtherOctets? (octet : Nat) : Option Nat :=
  if octet < 0x80 then some 0
  else if 0xC0 ≤ octet ∧ octet < 0xE0 then some 1
  else if 0xE0 ≤ octet ∧ octet < 0xF0 then some 2
  else if 0xF0 ≤ octet ∧ octet < 0xF8 then some 3
  else none

/-- Whether a glyph may stand in a tag; flow indicators only where tags are written out. -/
def isTagChar (writtenOut : Bool) (g : Glyph) : Bool :=
  g.isNameChar || g.isAmong ";/?:@&=+$.!~*'()" || (writtenOut && g.isAmong ",[]")

/-- The octets written for a tag, the last first in `found`; a percent sign with two hexadecimal
digits is an octet, and such octets come in groups that could be a character, of which `missing` are
due. -/
def readTagOctets? (writtenOut : Bool) (missing : Nat) (found : List UInt8) :
    Source → Option (List UInt8 × Source)
  | p :: h :: l :: rest =>
    if p.is '%' then
      match Text.hexValue? h.char, Text.hexValue? l.char with
      | some high, some low =>
        let octet := high * 16 + low
        let missing? :=
          if missing = 0 then furtherOctets? octet
          else if 0x80 ≤ octet ∧ octet < 0xC0 then some (missing - 1) else none
        match missing? with
        | some missing => readTagOctets? writtenOut missing (octet.toUInt8 :: found) rest
        | none => none
      | _, _ => none
    else if missing ≠ 0 then none
    else if isTagChar writtenOut p then
      readTagOctets? writtenOut 0 (p.char.toNat.toUInt8 :: found) (h :: l :: rest)
    else some (found.reverse, p :: h :: l :: rest)
  | g :: rest =>
    if g.is '%' || missing ≠ 0 then none
    else if isTagChar writtenOut g then
      readTagOctets? writtenOut 0 (g.char.toNat.toUInt8 :: found) rest
    else some (found.reverse, g :: rest)
  | [] => none

/-- The tag of the given octets: it ends before the first zero octet. -/
def tagOf (found : List UInt8) : Tag := found.takeWhile (· ≠ 0)

/-- A tag with at least one octet written. -/
def readTagText? (writtenOut : Bool) (source : Source) : Option (Tag × Source) := do
  let (found, source) ← readTagOctets? writtenOut 0 [] source
  if found.isEmpty then none else some (tagOf found, source)

/-- A tag handle: an exclamation mark, a name, and a second mark if there is one. -/
def readHandle? : Source → Option (List Char × Source)
  | g :: rest =>
    if g.is '!' then
      let name := characters (rest.takeWhile Glyph.isNameChar)
      match rest.dropWhile Glyph.isNameChar with
      | g :: rest =>
        if g.is '!' then some ('!' :: (name ++ ['!']), rest) else some ('!' :: name, g :: rest)
      | [] => none
    else none
  | [] => none

/-- The handle and the suffix of a tag.  A tag written out has an empty handle, and so has the tag
that is a single exclamation mark. -/
def readTagParts? (source : Source) : Option (String × Tag × Source) :=
  match source with
  | a :: b :: rest =>
    if a.is '!' && b.is '<' then do
      let (suffix, source) ← readTagText? true rest
      match source with
      | g :: rest => if g.is '>' then some ("", suffix, rest) else none
      | [] => none
    else do
      let (handle, source) ← readHandle? source
      if 1 < handle.length && handle.getLast? == some '!' then
        let (suffix, source) ← readTagText? false source
        return (String.ofList handle, suffix, source)
      else
        let (more, source) ← readTagOctets? false 0 [] source
        let suffix := tagOf (octets (handle.drop 1) ++ more)
        return if suffix.isEmpty then ("", octets ['!'], source) else ("!", suffix, source)
  | _ => none

/-- A tag, which must end where a word ends, or before a comma in a flow collection. -/
def readTag? (flow : Bool) (source : Source) : Option (Token × Source) := do
  let (handle, suffix, source) ← readTagParts? source
  let ended := source.head?.all fun g => g.endsWord || (flow && g.is ',')
  if ended then some (.tag handle suffix, source) else none

/-- A number of a version: one to nine digits. -/
def readVersionNumber? (source : Source) : Option (Nat × Source) :=
  let digits := characters (source.takeWhile (·.char.isDigit))
  let value := digits.foldl (fun n c => 10 * n + (c.toNat - '0'.toNat)) 0
  if digits.isEmpty || 9 < digits.length then none
  else some (value, source.dropWhile (·.char.isDigit))

/-- A directive after its percent sign: the version of the language, or a tag handle with what it
stands for. -/
def readDirective? (source : Source) : Option (Token × Source) := do
  let name := characters (source.takeWhile Glyph.isNameChar)
  let source := source.dropWhile Glyph.isNameChar
  guard (source.head?.all Glyph.endsWord)
  let source := source.dropWhile Glyph.isBlank
  if name = "YAML".toList then
    let (major, source) ← readVersionNumber? source
    guard (source.head?.any (·.is '.'))
    let (minor, source) ← readVersionNumber? (source.drop 1)
    return (.version major minor, ← skipLineEnd? source)
  else if name = "TAG".toList then
    let (handle, source) ← readHandle? source
    guard (handle = ['!'] ∨ (1 < handle.length ∧ handle.getLast? = some '!'))
    guard (source.head?.any Glyph.isBlank)
    let (expansion, source) ← readTagText? true (source.dropWhile Glyph.isBlank)
    guard (source.head?.all Glyph.endsWord)
    return (.tagHandle (String.ofList handle) expansion, ← skipLineEnd? source)
  else none

/-! ## The scanner -/

/-- A place where a mapping key may have begun. -/
structure KeyStart where
  /-- Whether there must be a key, because the block around it goes on at this column. -/
  required : Bool
  /-- The number of tokens before it. -/
  position : Nat
  /-- The glyph with which it would begin. -/
  glyph : Glyph

/-- What the scanner knows between two tokens. -/
structure Scanner where
  /-- The tokens so far, the last first. -/
  tokens : List Token
  /-- The number of tokens so far. -/
  count : Nat
  /-- The columns of the open blocks, the innermost first; outside all of them the column is -1. -/
  indents : List Int
  /-- The possible key at the current level, then those of the levels around it. -/
  key : Option KeyStart
  outerKeys : List (Option KeyStart)
  /-- Whether a key may begin here. -/
  keyAllowed : Bool

namespace Scanner

/-- The scanner at the start of a text. -/
def start : Scanner := ⟨[], 0, [], none, [], true⟩

/-- Whether a flow collection is open. -/
def inFlow (scanner : Scanner) : Bool := !scanner.outerKeys.isEmpty

/-- The column of the innermost open block. -/
def indent (scanner : Scanner) : Int := scanner.indents.headD (-1)

/-- The scanner with one more token. -/
def push (token : Token) (scanner : Scanner) : Scanner :=
  { scanner with tokens := token :: scanner.tokens, count := scanner.count + 1 }

/-- The scanner with a token put after the first `position` ones. -/
def insertAt (position : Nat) (token : Token) (scanner : Scanner) : Scanner :=
  { scanner with
    tokens := scanner.tokens.insertIdx (scanner.count - position) token
    count := scanner.count + 1 }

/-- Opens a block at a column, if it lies deeper than the innermost open block; its first token goes
to the given position. -/
def roll (column position : Nat) (token : Token) (scanner : Scanner) : Scanner :=
  if !scanner.inFlow && scanner.indent < column then
    insertAt position token { scanner with indents := (column : Int) :: scanner.indents }
  else scanner

/-- Closes blocks that lie deeper than a column. -/
def closeBlocks (column : Int) : List Int → Nat × List Int
  | [] => (0, [])
  | indent :: outer =>
    if column < indent then
      let (closed, left) := closeBlocks column outer
      (closed + 1, left)
    else (0, indent :: outer)

/-- Closes the open blocks that lie deeper than a column. -/
def unroll (column : Int) (scanner : Scanner) : Scanner :=
  if scanner.inFlow then scanner
  else
    let (closed, left) := closeBlocks column scanner.indents
    { scanner with
      tokens := List.replicate closed .blockEnd ++ scanner.tokens
      count := scanner.count + closed
      indents := left }

/-- The most octets between the start of a key and the colon after it. -/
def maxKeyOctets : Nat := 1024

/-- A possible key as it is seen from a glyph: it is none if the key would run over a line end or be
too long, which a required key must not. -/
def refreshKey? (g : Glyph) : Option KeyStart → Option (Option KeyStart)
  | none => some none
  | some key =>
    if key.glyph.line < g.line || key.glyph.octet + maxKeyOctets < g.octet then
      if key.required then none else some none
    else some (some key)

/-- The scanner with its possible keys as they are seen from a glyph. -/
def refreshKeys? (g : Glyph) (scanner : Scanner) : Option Scanner := do
  let key ← refreshKey? g scanner.key
  let outerKeys ← scanner.outerKeys.mapM (refreshKey? g)
  return { scanner with key, outerKeys }

/-- The scanner without a possible key at the current level, which must not be a required one. -/
def dropKey? (scanner : Scanner) : Option Scanner :=
  if scanner.key.any KeyStart.required then none else some { scanner with key := none }

/-- The scanner with a possible key at a glyph, if keys are allowed here. -/
def noteKey? (g : Glyph) (scanner : Scanner) : Option Scanner := do
  if scanner.keyAllowed then
    let required := !scanner.inFlow && scanner.indent == g.column
    let scanner ← scanner.dropKey?
    return { scanner with key := some ⟨required, scanner.count, g⟩ }
  else return scanner

/-- The scanner with keys allowed or not. -/
def allowKey (allowed : Bool) (scanner : Scanner) : Scanner :=
  { scanner with keyAllowed := allowed }

/-- The source at the next token, and whether a key may begin there: blanks, comments, line breaks
and byte order marks at the start of a line are passed, and a line break outside flow collections
allows a key.  Tabs are blanks only where no key may begin. -/
def toNextToken (flow allowed inComment : Bool) : Source → Bool × Source
  | [] => (allowed, [])
  | g :: rest =>
    if g.isBreak then toNextToken flow (allowed || !flow) false rest
    else if g.isEnd then (allowed, g :: rest)
    else if inComment then toNextToken flow allowed true rest
    else if g.is byteOrderMark && g.column == 0 then toNextToken flow allowed false rest
    else if g.is ' ' || ((flow || !allowed) && g.is '\t') then toNextToken flow allowed false rest
    else if g.is '#' then toNextToken flow allowed true rest
    else (allowed, g :: rest)

/-- The scanner between documents: no block is open and no key may begin. -/
def leaveBlocks? (scanner : Scanner) : Option Scanner := do
  let scanner ← (scanner.unroll (-1)).dropKey?
  return scanner.allowKey false

/-- The colon after a key. -/
def valueToken? (g : Glyph) (scanner : Scanner) : Option Scanner :=
  match scanner.key with
  | some key =>
    let scanner := (scanner.insertAt key.position .key).roll key.glyph.column key.position
      .blockMappingStart
    some (({ scanner with key := none }.allowKey false).push .value)
  | none =>
    if scanner.inFlow then some ((scanner.allowKey false).push .value)
    else if scanner.keyAllowed then
      some (((scanner.roll g.column scanner.count .blockMappingStart).allowKey true).push .value)
    else none

/-- An indicator that opens a block where keys are allowed: a sequence entry or an explicit key. -/
def blockToken? (g : Glyph) (opening token : Token) (allowed : Bool) (scanner : Scanner) :
    Option Scanner := do
  guard (scanner.inFlow || scanner.keyAllowed)
  let scanner ← (scanner.roll g.column scanner.count opening).dropKey?
  return (scanner.allowKey allowed).push token

/-- The start of a flow collection. -/
def openFlow? (g : Glyph) (token : Token) (scanner : Scanner) : Option Scanner := do
  let scanner ← scanner.noteKey? g
  let inner := { scanner with key := none, outerKeys := scanner.key :: scanner.outerKeys }
  return (inner.allowKey true).push token

/-- The end of a flow collection. -/
def closeFlow? (token : Token) (scanner : Scanner) : Option Scanner := do
  let scanner ← scanner.dropKey?
  let outer := match scanner.outerKeys with
    | key :: outerKeys => { scanner with key, outerKeys }
    | [] => scanner
  return (outer.allowKey false).push token

/-- A token that may begin a key: the scanner notes the place before it is read. -/
def content? (g : Glyph) (found : Option (Token × Source)) (scanner : Scanner) :
    Option (Scanner × Source) := do
  let scanner ← scanner.noteKey? g
  let (token, source) ← found
  return ((scanner.allowKey false).push token, source)

/-- A quoted scalar. -/
def quotedToken (style : Style) (found : Option (List Char × Source)) : Option (Token × Source) :=
  found.map fun (text, source) => (.scalar style (String.ofList text), source)

/-- Whether a glyph, seen together with the next one, begins a plain scalar. -/
def beginsPlain (flow : Bool) (g next : Glyph) : Bool :=
  !(g.endsWord || g.isAmong "-?:,[]\x7b\x7d#&*!|>'\"%@\x60") || (g.is '-' && !next.isBlank) ||
    (!flow && (g.is '?' || g.is ':') && !next.endsWord)

/-- Reads the next token at a source that stands at one. -/
def scanToken? (scanner : Scanner) (source : Source) : Option (Scanner × Source) :=
  match source with
  | [] => none
  | g :: rest =>
    let flow := scanner.inFlow
    let next := rest.headD g
    if g.column == 0 && g.is '%' then do
      let scanner ← scanner.leaveBlocks?
      let (token, source) ← readDirective? rest
      return (scanner.push token, source)
    else if Source.atMarker '-' source then
      scanner.leaveBlocks?.map fun scanner => (scanner.push .documentStart, rest.drop 2)
    else if Source.atMarker '.' source then
      scanner.leaveBlocks?.map fun scanner => (scanner.push .documentEnd, rest.drop 2)
    else if g.is '[' then (scanner.openFlow? g .flowSequenceStart).map (·, rest)
    else if g.is '{' then (scanner.openFlow? g .flowMappingStart).map (·, rest)
    else if g.is ']' then (scanner.closeFlow? .flowSequenceEnd).map (·, rest)
    else if g.is '}' then (scanner.closeFlow? .flowMappingEnd).map (·, rest)
    else if g.is ',' then
      scanner.dropKey?.map fun scanner => ((scanner.allowKey true).push .flowEntry, rest)
    else if g.is '-' && next.endsWord then
      (scanner.blockToken? g .blockSequenceStart .blockEntry true).map (·, rest)
    else if g.is '?' && (flow || next.endsWord) then
      (scanner.blockToken? g .blockMappingStart .key !flow).map (·, rest)
    else if g.is ':' && (flow || next.endsWord) then (scanner.valueToken? g).map (·, rest)
    else if g.is '*' then
      scanner.content? g ((readAnchor? rest).map fun (name, source) => (.reference name, source))
    else if g.is '&' then
      scanner.content? g ((readAnchor? rest).map fun (name, source) => (.anchor name, source))
    else if g.is '!' then scanner.content? g (readTag? flow source)
    else if (g.is '|' || g.is '>') && !flow then do
      let style : Style := if g.is '|' then .literal else .folded
      let scanner ← scanner.dropKey?
      let (text, source) ← readBlockScalar? (g.is '>') scanner.indent rest
      return ((scanner.allowKey true).push (.scalar style (String.ofList text)), source)
    else if g.is '\'' then
      scanner.content? g (quotedToken .singleQuoted (readSingleQuoted? [] .none rest))
    else if g.is '"' then
      scanner.content? g (quotedToken .doubleQuoted (readDoubleQuoted? [] .none .closed rest))
    else if beginsPlain flow g next then do
      let scanner ← scanner.noteKey? g
      let (text, broken, source) ← readPlain? flow (scanner.indent + 1).toNat [] .none source
      return ((scanner.allowKey broken).push (.scalar .plain (String.ofList text)), source)
    else none

/-- Reads all tokens.  Each step takes at least one glyph, so `fuel` need not exceed their number.
-/
def scanAll? (fuel : Nat) (scanner : Scanner) (source : Source) : Option Scanner :=
  match fuel with
  | 0 => none
  | fuel + 1 => do
    let (allowed, source) := toNextToken scanner.inFlow scanner.keyAllowed false source
    let g ← source.head?
    let scanner ← (scanner.allowKey allowed).refreshKeys? g
    let scanner := scanner.unroll g.column
    if g.isEnd then scanner.leaveBlocks?
    else
      let (scanner, source) ← scanner.scanToken? source
      scanAll? fuel scanner source

end Scanner

/-- The tokens of a source. -/
def Token.ofSource? (source : Source) : Option (List Token) :=
  (Scanner.scanAll? source.length .start source).map (·.tokens.reverse)

end RoutePriority.Yaml
