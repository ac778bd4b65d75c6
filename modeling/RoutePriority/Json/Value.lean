import RoutePriority.Binary64.Layout
import RoutePriority.Text.Order

/-!
# JSON values and their text

`Json` is a value as a document holds it, with the members of an object in the order of the
document.  `Json.text` writes a value without blanks: integers as such, other numbers with the
shortest digits and a fraction, and strings with the two-character escapes and lower-case
hexadecimal escapes for the remaining control characters.

An object whose names rise strictly lists every name once and in one order.  A value with only such
objects is *normal*; `normalize` keeps, of several members of one name, the last.
-/

namespace RoutePriority

/-- Whether an integer fits 64 bits, signed or unsigned. -/
abbrev FitsWord (n : Int) : Prop := -9223372036854775808 ≤ n ∧ n < 18446744073709551616

/-- A number in a JSON value: an integer that fits 64 bits, signed or unsigned, or a finite number.
-/
inductive JsonNumber where
  | integer (value : Int) (fits : FitsWord value)
  | real (value : Binary64) (finite : value.isFinite = true)
  deriving DecidableEq

namespace JsonNumber

/-- The layout of numbers in documents: a fraction digit is kept, of two equally near decimals the
even one is written, and a signed power of ten is used below `10⁻⁵` and from `10¹⁶` on. -/
def layout : Layout := ⟨.even, true, fun place => -5 < place && place ≤ 16, true⟩

/-- The nearest binary64 number. -/
def toBinary64 : JsonNumber → Binary64
  | integer n _ => .ofInt n
  | real x _ => x

/-- The characters of a number. -/
def chars : JsonNumber → List Char
  | integer n _ => (if n < 0 then ['-'] else []) ++ Nat.toDigits 10 n.natAbs
  | real x _ => layout.chars x

/-- Whether two numbers are written alike, up to the sign of zero. -/
def same : JsonNumber → JsonNumber → Bool
  | integer m _, integer n _ => m = n
  | real x _, real y _ => x.same y
  | _, _ => false

end JsonNumber

/-- A JSON value. -/
inductive Json where
  | null
  | bool (value : Bool)
  | number (value : JsonNumber)
  | string (value : String)
  | array (items : List Json)
  | object (members : List (String × Json))

namespace Json

/-- The two hexadecimal digits of a control character. -/
def controlDigits (c : Char) : List Char :=
  let n := c.toNat
  [if n < 16 then '0' else '1', Nat.digitChar (n % 16)]

/-- A character inside a string. -/
def escaped (c : Char) : List Char :=
  if c = '"' then ['\\', '"']
  else if c = '\\' then ['\\', '\\']
  else if c = '\x08' then ['\\', 'b']
  else if c = '\t' then ['\\', 't']
  else if c = '\n' then ['\\', 'n']
  else if c = '\x0c' then ['\\', 'f']
  else if c = '\r' then ['\\', 'r']
  else if c.toNat < 0x20 then '\\' :: 'u' :: '0' :: '0' :: controlDigits c
  else [c]

/-- A string with its quotes. -/
def quoted (text : String) : List Char := '"' :: (text.toList.flatMap escaped ++ ['"'])

mutual

/-- The characters of a value. -/
def chars : Json → List Char
  | null => ['n', 'u', 'l', 'l']
  | bool true => ['t', 'r', 'u', 'e']
  | bool false => ['f', 'a', 'l', 's', 'e']
  | number n => n.chars
  | string s => quoted s
  | array [] => ['[', ']']
  | array (item :: items) => '[' :: (chars item ++ itemChars items)
  | object [] => ['{', '}']
  | object ((name, value) :: members) =>
    '{' :: (quoted name ++ ':' :: (chars value ++ memberChars members))

/-- The characters of the items after the first, and of the end of the array. -/
def itemChars : List Json → List Char
  | [] => [']']
  | item :: items => ',' :: (chars item ++ itemChars items)

/-- The characters of the members after the first, and of the end of the object. -/
def memberChars : List (String × Json) → List Char
  | [] => ['}']
  | (name, value) :: members =>
    ',' :: (quoted name ++ ':' :: (chars value ++ memberChars members))

end

/-- The text of a value. -/
def text (json : Json) : String := String.ofList json.chars

mutual

/-- Whether two values are equal as values: numbers are compared as numbers. -/
def same : Json → Json → Bool
  | null, null => true
  | bool a, bool b => a == b
  | number m, number n => m.same n
  | string s, string t => s == t
  | array xs, array ys => sameItems xs ys
  | object xs, object ys => sameMembers xs ys
  | _, _ => false

/-- Whether two lists of items are equal item by item. -/
def sameItems : List Json → List Json → Bool
  | [], [] => true
  | x :: xs, y :: ys => same x y && sameItems xs ys
  | _, _ => false

/-- Whether two lists of members are equal member by member. -/
def sameMembers : List (String × Json) → List (String × Json) → Bool
  | [], [] => true
  | (k, x) :: xs, (l, y) :: ys => k == l && same x y && sameMembers xs ys
  | _, _ => false

end

/-! ## Normal values -/

/-- Whether a name comes before the names of all members. -/
def precedes (name : String) (members : List (String × Json)) : Bool :=
  members.all fun member => Text.before name member.1

mutual

/-- Whether the names of every object in the value rise strictly. -/
def isNormal : Json → Bool
  | array items => areNormal items
  | object members => areNormalMembers members
  | _ => true

/-- Whether every item is normal. -/
def areNormal : List Json → Bool
  | [] => true
  | item :: items => isNormal item && areNormal items

/-- Whether the members have normal values and names that rise strictly. -/
def areNormalMembers : List (String × Json) → Bool
  | [] => true
  | (name, value) :: members =>
    isNormal value && precedes name members && areNormalMembers members

end

/-- Members with rising names, with one more of them set. -/
def putMember (name : String) (value : Json) : List (String × Json) → List (String × Json)
  | [] => [(name, value)]
  | (first, held) :: members =>
    if Text.before name first then (name, value) :: (first, held) :: members
    else if name = first then (name, value) :: members
    else (first, held) :: putMember name value members

mutual

/-- The value with the members of every object in rising order of their names, the last of each
name kept. -/
def normalize : Json → Json
  | null => null
  | bool b => bool b
  | number n => number n
  | string s => string s
  | array items => array (normalizeItems items)
  | object members => object (normalizeMembers [] members)

/-- The items, normalized. -/
def normalizeItems : List Json → List Json
  | [] => []
  | item :: items => normalize item :: normalizeItems items

/-- The members set one after the other on top of those `held`. -/
def normalizeMembers (held : List (String × Json)) : List (String × Json) → List (String × Json)
  | [] => held
  | (name, value) :: members => normalizeMembers (putMember name (normalize value) held) members

end

theorem precedes_cons (least name : String) (value : Json) (members : List (String × Json)) :
    precedes least ((name, value) :: members) =
      (Text.before least name && precedes least members) := rfl

/-- A name that precedes the members and a new one precedes them together. -/
theorem precedes_putMember {least name : String} {value : Json} {members : List (String × Json)}
    (hleast : Text.before least name = true) (h : precedes least members = true) :
    precedes least (putMember name value members) = true := by
  induction members with
  | nil => simp [putMember, precedes, hleast]
  | cons member members ih =>
    obtain ⟨first, held⟩ := member
    rw [precedes_cons, Bool.and_eq_true] at h
    unfold putMember
    split
    · simp [precedes_cons, hleast, h.1, h.2]
    · split
      · simp [precedes_cons, hleast, h.2]
      · simp [precedes_cons, h.1, ih h.2]

/-- A name before one that precedes the members precedes them too. -/
theorem precedes_trans {least name : String} {members : List (String × Json)}
    (hleast : Text.before least name = true) (h : precedes name members = true) :
    precedes least members = true := by
  simp only [precedes, List.all_eq_true] at h ⊢
  exact fun member hm => Text.before_trans hleast (h member hm)

/-- A normal value put in its place leaves the members normal. -/
theorem areNormalMembers_putMember {name : String} {value : Json}
    {members : List (String × Json)} (hvalue : value.isNormal = true)
    (h : areNormalMembers members = true) :
    areNormalMembers (putMember name value members) = true := by
  induction members with
  | nil => simp [putMember, areNormalMembers, precedes, hvalue]
  | cons member members ih =>
    obtain ⟨first, held⟩ := member
    simp only [areNormalMembers, Bool.and_eq_true] at h
    obtain ⟨⟨hheld, hfirst⟩, hrest⟩ := h
    unfold putMember
    split
    next hlt => simp [areNormalMembers, precedes_cons, hvalue, hheld, hfirst, hrest, hlt,
        precedes_trans hlt hfirst]
    next hlt =>
      split
      next heq => simp [areNormalMembers, hvalue, heq, hfirst, hrest]
      next hne =>
        simp [areNormalMembers, hheld, ih hrest,
          precedes_putMember (Text.before_of_not_before hlt hne) hfirst]

mutual

/-- What is built is normal, at every depth. -/
theorem isNormal_normalize : ∀ json : Json, json.normalize.isNormal = true
  | null | bool _ | number _ | string _ => by simp [normalize, isNormal]
  | array items => by
    simp only [normalize, isNormal]
    exact areNormal_normalizeItems items
  | object members => by
    simp only [normalize, isNormal]
    exact areNormalMembers_normalizeMembers members [] rfl

/-- Normal items are built one by one. -/
theorem areNormal_normalizeItems : ∀ items : List Json, areNormal (normalizeItems items) = true
  | [] => rfl
  | item :: items => by
    simp [normalizeItems, areNormal, isNormal_normalize item, areNormal_normalizeItems items]

/-- The members are normal after every insertion. -/
theorem areNormalMembers_normalizeMembers : ∀ (members held : List (String × Json)),
    areNormalMembers held = true → areNormalMembers (normalizeMembers held members) = true
  | [], held, h => h
  | (name, value) :: members, held, h => by
    simp only [normalizeMembers]
    exact areNormalMembers_normalizeMembers members _
      (areNormalMembers_putMember (isNormal_normalize value) h)

end

end Json

/-- A JSON value in which the names of every object rise strictly. -/
structure NormalJson where
  value : Json
  isNormal : value.isNormal = true

namespace NormalJson

/-- The normal form of a value. -/
def ofJson (json : Json) : NormalJson := ⟨json.normalize, json.isNormal_normalize⟩

/-- The text of a value. -/
def text (json : NormalJson) : String := json.value.text

end NormalJson

end RoutePriority
