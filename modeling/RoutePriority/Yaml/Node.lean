import RoutePriority.Yaml.Token

/-!
# The nodes of YAML documents

A document is a tree of nodes, some of which are aliases for anchored nodes elsewhere in it.
Anchors and aliases are joined by marks: the mark of an anchor is the number of different anchor
names before it, and an alias has the mark that its name had last.  When a name is used again two
anchors can get one mark, and the later of them holds it.

Nodes are read from tokens by recursive descent.  Every recursive call either takes a token or
stands right after one that was taken, so a multiple of the number of tokens bounds their depth.
-/

namespace RoutePriority.Yaml

/-- A node. -/
inductive Node where
  | reference (mark : Nat)
  | scalar (mark : Option Nat) (tag : Option Tag) (style : Style) (text : String)
  | sequence (mark : Option Nat) (tag : Option Tag) (items : List Node)
  | mapping (mark : Option Nat) (tag : Option Tag) (entries : List (Node × Node))
  deriving Inhabited

namespace Node

/-- The node that stands where nothing is written. -/
def empty : Node := scalar none none .plain ""

/-- The mark of an anchored node. -/
def mark? : Node → Option Nat
  | reference _ => none
  | scalar mark .. | sequence mark .. | mapping mark .. => mark

mutual

/-- The node and all nodes in it, in the order of the text. -/
def all : Node → List Node
  | reference mark => [reference mark]
  | scalar mark tag style text => [scalar mark tag style text]
  | sequence mark tag items => sequence mark tag items :: allItems items
  | mapping mark tag entries => mapping mark tag entries :: allEntries entries

/-- All nodes in a list. -/
def allItems : List Node → List Node
  | [] => []
  | item :: items => all item ++ allItems items

/-- All nodes in a list of entries. -/
def allEntries : List (Node × Node) → List Node
  | [] => []
  | (key, value) :: entries => all key ++ (all value ++ allEntries entries)

end

/-- The number of beginnings and ends that a node contributes to its document. -/
def weight : Node → Nat
  | reference _ | scalar .. => 1
  | sequence .. | mapping .. => 2

end Node

/-! ## Reading nodes -/

/-- What is known at a place between two tokens. -/
structure Composer where
  /-- The tokens to come. -/
  tokens : List Token
  /-- What the tag handles stand for. -/
  handles : List (String × Tag)
  /-- The marks of the anchor names so far. -/
  anchors : List (String × Nat)

/-- A part of a document is read by moving forward through the tokens. -/
abbrev Composing := StateT Composer Option

namespace Composing

/-- The next token. -/
def peek? : Composing (Option Token) := return (← get).tokens.head?

/-- Passes a token. -/
def skip : Composing Unit := modify fun state => { state with tokens := state.tokens.drop 1 }

/-- Sets the mark of an anchor name and gives it. -/
def markAnchor (name : String) : Composing Nat := do
  let state ← get
  let mark := state.anchors.length
  let others := state.anchors.filter (·.1 ≠ name)
  -- a name that is used again keeps its entry, so the number of names stays
  set { state with anchors := (name, mark) :: others }
  return mark

/-- The mark of an alias. -/
def aliasMark (name : String) : Composing Nat := do
  match (← get).anchors.lookup name with
  | some mark => return mark
  | none => failure

/-- The tag that a handle and a suffix denote. -/
def resolveTag (handle : String) (suffix : Tag) : Composing Tag := do
  if handle.isEmpty then return suffix
  match (← get).handles.lookup handle with
  | some expansion => return expansion ++ suffix
  | none => failure

/-- A tag token, if one comes next. -/
def tag? : Composing (Option Tag) := do
  match ← peek? with
  | some (.tag handle suffix) =>
    skip
    return some (← resolveTag handle suffix)
  | _ => return none

/-- An anchor token, if one comes next. -/
def anchor? : Composing (Option String) := do
  match ← peek? with
  | some (.anchor name) =>
    skip
    return some name
  | _ => return none

/-- The anchor and the tag in front of a node, in either order. -/
def properties : Composing (Option String × Option Tag) := do
  match ← anchor? with
  | some name => return (some name, ← tag?)
  | none =>
    let tag ← tag?
    if tag.isSome then return (← anchor?, tag) else return (none, none)

/-- Whether a token is among those that show that a node was left out. -/
def isOneOf (ends : List Token) (token : Option Token) : Bool := token.any (ends.contains ·)

/-- A node that has an anchor or a tag and no content. -/
def emptyNode (name : Option String) (tag : Option Tag) : Composing Node := do
  if name.isNone && tag.isNone then failure
  return .scalar (← name.mapM markAnchor) tag .plain ""

/-- Whether a flow collection ends here; if not, a comma is passed unless an item was yet to come.
-/
def endsFlow (ending : Token) (first : Bool) : Composing Bool := do
  if isOneOf [ending] (← peek?) then
    skip
    return true
  else if first then return false
  else match ← peek? with
    | some .flowEntry =>
      skip
      return false
    | _ => failure

mutual

/-- A node.  Block collections are read only where `block` allows them, and a sequence without
indentation of its own only as the value of a block mapping. -/
def node (fuel : Nat) (block indentless : Bool) : Composing Node :=
  match fuel with
  | 0 => failure
  | fuel + 1 => do
    match ← peek? with
    | some (.reference name) =>
      skip
      return .reference (← aliasMark name)
    | _ =>
      let (name, tag) ← properties
      let anchored := name.mapM markAnchor
      match ← peek? with
      | some (.scalar style text) =>
        skip
        return .scalar (← anchored) tag style text
      | some .flowSequenceStart =>
        skip
        return .sequence (← anchored) tag (← flowItems fuel true)
      | some .flowMappingStart =>
        skip
        return .mapping (← anchored) tag (← flowEntries fuel true)
      | some .blockSequenceStart =>
        if block then
          skip
          return .sequence (← anchored) tag (← blockItems fuel)
        else emptyNode name tag
      | some .blockMappingStart =>
        if block then
          skip
          return .mapping (← anchored) tag (← blockEntries fuel)
        else emptyNode name tag
      | some .blockEntry =>
        if indentless then return .sequence (← anchored) tag (← indentlessItems fuel)
        else emptyNode name tag
      | _ => emptyNode name tag

/-- A node, or the empty one before one of the given tokens. -/
def nodeBefore (fuel : Nat) (ends : List Token) (block indentless : Bool) : Composing Node :=
  match fuel with
  | 0 => failure
  | fuel + 1 => do
    if isOneOf ends (← peek?) then return .empty else node fuel block indentless

/-- The items of a block sequence and its end. -/
def blockItems (fuel : Nat) : Composing (List Node) :=
  match fuel with
  | 0 => failure
  | fuel + 1 => do
    match ← peek? with
    | some .blockEntry =>
      skip
      let item ← nodeBefore fuel [.blockEntry, .blockEnd] true false
      return item :: (← blockItems fuel)
    | some .blockEnd =>
      skip
      return []
    | _ => failure

/-- The items of a block sequence that is indented no more than the mapping around it. -/
def indentlessItems (fuel : Nat) : Composing (List Node) :=
  match fuel with
  | 0 => failure
  | fuel + 1 => do
    match ← peek? with
    | some .blockEntry =>
      skip
      let item ← nodeBefore fuel [.blockEntry, .key, .value, .blockEnd] true false
      return item :: (← indentlessItems fuel)
    | _ => return []

/-- The entries of a block mapping and its end. -/
def blockEntries (fuel : Nat) : Composing (List (Node × Node)) :=
  match fuel with
  | 0 => failure
  | fuel + 1 => do
    match ← peek? with
    | some .key =>
      skip
      let key ← nodeBefore fuel [.key, .value, .blockEnd] true true
      let value ← blockValue fuel
      return (key, value) :: (← blockEntries fuel)
    | some .blockEnd =>
      skip
      return []
    | _ => failure

/-- The value of an entry of a block mapping. -/
def blockValue (fuel : Nat) : Composing Node :=
  match fuel with
  | 0 => failure
  | fuel + 1 => do
    match ← peek? with
    | some .value =>
      skip
      nodeBefore fuel [.key, .value, .blockEnd] true true
    | _ => return .empty

/-- The items of a flow sequence and its end. -/
def flowItems (fuel : Nat) (first : Bool) : Composing (List Node) :=
  match fuel with
  | 0 => failure
  | fuel + 1 => do
    if ← endsFlow .flowSequenceEnd first then return []
    match ← peek? with
    | some .flowSequenceEnd =>
      skip
      return []
    | some .key =>
      skip
      let item ← flowPair fuel
      return item :: (← flowItems fuel false)
    | _ =>
      let item ← node fuel false false
      return item :: (← flowItems fuel false)

/-- A mapping of one entry in a flow sequence, after the sign of its key.  Where the key is left out
the token that shows it is passed. -/
def flowPair (fuel : Nat) : Composing Node :=
  match fuel with
  | 0 => failure
  | fuel + 1 => do
    let key ←
      if isOneOf [.value, .flowEntry, .flowSequenceEnd] (← peek?) then
        skip
        pure .empty
      else node fuel false false
    let value ← flowValue fuel .flowSequenceEnd
    return .mapping none none [(key, value)]

/-- The value of an entry in a flow collection. -/
def flowValue (fuel : Nat) (ending : Token) : Composing Node :=
  match fuel with
  | 0 => failure
  | fuel + 1 => do
    match ← peek? with
    | some .value =>
      skip
      nodeBefore fuel [.flowEntry, ending] false false
    | _ => return .empty

/-- The entries of a flow mapping and its end. -/
def flowEntries (fuel : Nat) (first : Bool) : Composing (List (Node × Node)) :=
  match fuel with
  | 0 => failure
  | fuel + 1 => do
    if ← endsFlow .flowMappingEnd first then return []
    match ← peek? with
    | some .flowMappingEnd =>
      skip
      return []
    | some .key =>
      skip
      let key ← nodeBefore fuel [.value, .flowEntry, .flowMappingEnd] false false
      let value ← flowValue fuel .flowMappingEnd
      return (key, value) :: (← flowEntries fuel false)
    | _ =>
      let key ← node fuel false false
      return (key, .empty) :: (← flowEntries fuel false)

end

/-- The handles that every document knows. -/
def defaultHandles : List (String × Tag) :=
  [("!", octets ['!']), ("!!", octets "tag:yaml.org,2002:".toList)]

/-- The directives of a document: at most one version, which must be 1.1 or 1.2, and handles, none
of them twice.  Gives the handles. -/
def directives (versioned : Bool) (handles : List (String × Tag)) :
    List Token → Option (List (String × Tag) × List Token)
  | .version major minor :: tokens =>
    if versioned || major != 1 || (minor != 1 && minor != 2) then none
    else directives true handles tokens
  | .tagHandle handle expansion :: tokens =>
    if (handles.lookup handle).isSome then none
    else directives versioned ((handle, expansion) :: handles) tokens
  | tokens => some (handles, tokens)

/-- Reads a node with the given handles and gives it and the tokens after it. -/
def compose (handles : List (String × Tag)) (tokens : List Token) : Option (Node × List Token) := do
  let start : Composer := ⟨tokens, handles ++ defaultHandles, []⟩
  let (root, composer) ← StateT.run (node (6 * tokens.length + 8) true false) start
  return (root, composer.tokens)

end Composing

/-- A document: its nodes by their marks, and the number of their beginnings and ends. -/
structure Document where
  /-- The outermost node. -/
  root : Node
  /-- The anchored nodes, the later before the earlier ones. -/
  anchored : List (Nat × Node)
  /-- The number of beginnings and ends of nodes. -/
  weight : Nat

namespace Document

/-- The document with the given outermost node. -/
def ofRoot (root : Node) : Document :=
  let nodes := root.all
  { root
    anchored := (nodes.filterMap fun node => node.mark?.map (·, node)).reverse
    weight := nodes.foldl (fun weight node => weight + node.weight) 0 }

/-- The node that holds a mark. -/
def marked? (document : Document) (mark : Nat) : Option Node := document.anchored.lookup mark

/-- The document of an explicit start: its handles are declared before it, and it may be left out.
-/
def ofExplicit? (tokens : List Token) : Option (Node × List Token) := do
  let (handles, tokens) ← Composing.directives false [] tokens
  match tokens with
  | .documentStart :: rest =>
    match rest with
    | [] | .documentStart :: _ | .documentEnd :: _ | .version .. :: _ | .tagHandle .. :: _ =>
      return (.empty, rest)
    | rest => Composing.compose handles rest
  | _ => none

/-- The only document of a row of tokens: without tokens it is the empty node, and a row with a
second document has none. -/
def ofTokens? (tokens : List Token) : Option Document := do
  match tokens with
  | [] => return ofRoot .empty
  | .version .. :: _ | .tagHandle .. :: _ | .documentStart :: _ =>
    let (root, rest) ← ofExplicit? tokens
    guard (rest.all (· == .documentEnd))
    return ofRoot root
  | tokens =>
    let (root, rest) ← Composing.compose [] tokens
    guard (rest.all (· == .documentEnd))
    return ofRoot root

/-- The document of a text. -/
def ofText? (text : String) : Option Document := do
  ofTokens? (← Token.ofSource? (← Source.ofText? text))

end Document

end RoutePriority.Yaml
