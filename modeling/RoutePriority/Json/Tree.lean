import RoutePriority.Json.Token

/-!
# Trees of JSON texts

A `Tree` is a well-formed JSON text with its blanks and spellings forgotten.  It is read from tokens
by a machine whose state (`Place`) says what may come next and which containers are open; each token
moves the machine one step, so reading is a fold and nesting is limited by nothing.

A tree may hold numbers and strings that have no value, at any depth.  `Tree.toJson?` takes the
value of a tree where one is needed; it has a value only if every part has one and containers do not
nest more deeply than there is room for.
-/

namespace RoutePriority.Json

/-- The most containers that may be nested in a value that is read. -/
def maxDepth : Nat := 127

/-- A well-formed JSON text. -/
inductive Tree where
  | null
  | bool (value : Bool)
  | number (value : Option JsonNumber)
  | string (value : Option String)
  | array (items : List Tree)
  | object (members : List (Option String × Tree))
  deriving Inhabited

/-- An open container around the value that is being read, with what it holds so far, the last
first. -/
inductive Frame where
  | item (items : List Tree)
  | member (members : List (Option String × Tree)) (name : Option String)

/-- What may come next in a text, inside which open containers. -/
inductive Place where
  /-- A value. -/
  | value (outside : List Frame)
  /-- The first item of an array, or its end. -/
  | firstItem (outside : List Frame)
  /-- A comma or the end of an array. -/
  | afterItem (items : List Tree) (outside : List Frame)
  /-- The first name of an object, or its end. -/
  | firstName (outside : List Frame)
  /-- A name. -/
  | nextName (members : List (Option String × Tree)) (outside : List Frame)
  /-- The colon after a name. -/
  | colon (members : List (Option String × Tree)) (name : Option String) (outside : List Frame)
  /-- A comma or the end of an object. -/
  | afterMember (members : List (Option String × Tree)) (outside : List Frame)
  /-- Nothing: the text is complete. -/
  | done (tree : Tree)

namespace Place

/-- The place after a complete value. -/
def after (tree : Tree) : List Frame → Place
  | [] => done tree
  | .item items :: outside => afterItem (tree :: items) outside
  | .member members name :: outside => afterMember ((name, tree) :: members) outside

/-- The place after the first token of a value. -/
def startValue? (outside : List Frame) : Token → Option Place
  | .null => some (after .null outside)
  | .bool b => some (after (.bool b) outside)
  | .number n => some (after (.number n) outside)
  | .string s => some (after (.string s) outside)
  | .openArray => some (firstItem outside)
  | .openObject => some (firstName outside)
  | _ => none

/-- The place after a token. -/
def step? : Place → Token → Option Place
  | value outside, token => startValue? outside token
  | firstItem outside, .closeArray => some (after (.array []) outside)
  | firstItem outside, token => startValue? (.item [] :: outside) token
  | afterItem items outside, .comma => some (value (.item items :: outside))
  | afterItem items outside, .closeArray => some (after (.array items.reverse) outside)
  | firstName outside, .closeObject => some (after (.object []) outside)
  | firstName outside, .string s => some (colon [] s outside)
  | nextName members outside, .string s => some (colon members s outside)
  | colon members s outside, .colon => some (value (.member members s :: outside))
  | afterMember members outside, .comma => some (nextName members outside)
  | afterMember members outside, .closeObject => some (after (.object members.reverse) outside)
  | _, _ => none

end Place

namespace Tree

/-- The tree that a row of tokens spells. -/
def ofTokens? (tokens : List Token) : Option Tree :=
  match tokens.foldlM Place.step? (.value []) with
  | some (.done tree) => some tree
  | _ => none

/-- The tree of a text. -/
def ofText? (text : String) : Option Tree := (Token.ofChars? text.toList).bind ofTokens?

mutual

/-- The value of a tree whose containers nest at most `room` deep. -/
def toJson? (room : Nat) : Tree → Option Json
  | null => some .null
  | bool b => some (.bool b)
  | number n => n.map .number
  | string s => s.map .string
  | array items => if room = 0 then none else (itemsToJson? (room - 1) items).map .array
  | object members => if room = 0 then none else (membersToJson? (room - 1) members).map .object

/-- The values of items. -/
def itemsToJson? (room : Nat) : List Tree → Option (List Json)
  | [] => some []
  | item :: items => do
    return (← toJson? room item) :: (← itemsToJson? room items)

/-- The names and values of members. -/
def membersToJson? (room : Nat) : List (Option String × Tree) → Option (List (String × Json))
  | [] => some []
  | (name, value) :: members => do
    return (← name, ← toJson? room value) :: (← membersToJson? room members)

end

/-- The members of an object, all of whose names must have a value; there must be room for it. -/
def members? (room : Nat) : Tree → Option (List (String × Tree))
  | object members =>
    if room = 0 then none else members.mapM fun (name, value) => name.map (·, value)
  | _ => none

/-- The items of an array, for which there must be room. -/
def items? (room : Nat) : Tree → Option (List Tree)
  | array items => if room = 0 then none else some items
  | _ => none

/-- The text of a string. -/
def text? : Tree → Option String
  | string s => s
  | _ => none

/-- The truth value of a boolean. -/
def flag? : Tree → Option Bool
  | bool b => some b
  | _ => none

end Tree

end RoutePriority.Json
