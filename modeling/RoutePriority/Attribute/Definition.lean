import RoutePriority.Attribute.Kind
import RoutePriority.Binary64.Decimal
import RoutePriority.Binary64.Layout
import RoutePriority.Text.Blank

/-!
# Attribute definitions

A `Definition` says what an attribute is called, of which kind it is, whether its two directions of
travel may differ, and which values a categorical attribute has.  A registry gives each definition
a slot, and the two together are the `Handle` through which values are read, written and checked.

`Handle.parse?` and `Handle.format` are the text forms of values, and `Handle.admits` says which
values belong to the attribute.
-/

namespace RoutePriority

/-- The most values that a categorical attribute may have: as many as there are ordinals. -/
def maxValues : Nat := UInt16.size

/-- The definition of an attribute. -/
structure Definition where
  name : String
  kind : DomainKind
  directional : Bool
  values : List String
  deriving DecidableEq, Inhabited

namespace Definition

/-- A categorical attribute with the given values. -/
def categorical (name : String) (values : List String) : Definition :=
  ⟨name, .categorical, false, values⟩

/-- A continuous attribute. -/
def continuous (name : String) : Definition := ⟨name, .continuous, false, []⟩

/-- A boolean attribute. -/
def boolean (name : String) : Definition := ⟨name, .boolean, false, []⟩

/-- The same attribute with values of its own for each direction. -/
def withDirections (definition : Definition) : Definition := { definition with directional := true }

/-- A categorical attribute names between one and `maxValues` values, no two of them alike. -/
def WellFormed (definition : Definition) : Prop :=
  definition.kind = .categorical →
    definition.values ≠ [] ∧ definition.values.length ≤ maxValues ∧ definition.values.Nodup

instance (definition : Definition) : Decidable definition.WellFormed :=
  inferInstanceAs (Decidable (_ → _))

end Definition

/-- An attribute of a registry: its definition and its slot. -/
structure Handle where
  slot : Nat
  definition : Definition
  deriving DecidableEq, Inhabited

namespace Handle

/-- The name of the attribute. -/
def name (handle : Handle) : String := handle.definition.name

/-- The kind of the attribute. -/
def kind (handle : Handle) : DomainKind := handle.definition.kind

/-- Whether the attribute has a value of its own for each direction. -/
def directional (handle : Handle) : Bool := handle.definition.directional

/-- The text form of the slot. -/
def label (handle : Handle) : String := "#" ++ toString handle.slot

/-- The names of the values of the attribute; a continuous one has none. -/
def values (handle : Handle) : List String :=
  match handle.kind with
  | .categorical => handle.definition.values
  | .boolean => ["false", "true"]
  | .continuous => []

/-- The value that the attribute has before it is written. -/
def defaultValue (handle : Handle) : AttributeValue := .default handle.kind

/-- The value that a text names: the ordinal of a declared name, a boolean word, or a finite numeral
between blanks. -/
def parse? (handle : Handle) (text : String) : Option AttributeValue :=
  match handle.kind with
  | .categorical =>
    (handle.definition.values.idxOf? text).map fun ordinal => .category (UInt16.ofNat ordinal)
  | .boolean =>
    if text = "true" then some (.flag true)
    else if text = "false" then some (.flag false)
    else none
  | .continuous => ((Binary64.ofText? (Text.trim text)).filter (·.isFinite)).map .number

/-- The text form of a value.  An ordinal without a name is shown as such. -/
def format (handle : Handle) : AttributeValue → String
  | .category ordinal =>
    (handle.definition.values[ordinal.toNat]?).getD
      ("<invalid ordinal " ++ toString ordinal.toNat ++ ">")
  | .number x => Layout.plain.text x
  | .flag true => "true"
  | .flag false => "false"

/-- Whether the value belongs to the attribute: an ordinal with a name, a number that is one, or any
boolean. -/
def admits (handle : Handle) (value : AttributeValue) : Bool :=
  match handle.kind, value with
  | .categorical, .category ordinal => ordinal.toNat < handle.definition.values.length
  | .continuous, .number x => !x.isNan
  | .boolean, .flag _ => true
  | _, _ => false

end Handle

end RoutePriority
