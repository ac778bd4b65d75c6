import RoutePriority.Attribute.Registry
import RoutePriority.Direction

/-!
# Edge records

An `EdgeRecord` stores, for every slot of a registry, the value of the attribute in forward and in
backward direction.  It is written through handles, and every write is checked: the value must be of
the attribute's kind and belong to it, and only a directional attribute can be given two values.  A
refused write leaves no trace, because a write returns the record that it makes.

Rating an edge needs only an `EdgeStore`, a way to look values up; a record is one.
-/

namespace RoutePriority

/-- The values of an attribute in the two directions. -/
structure DirectedValue where
  forward : AttributeValue
  backward : AttributeValue
  deriving DecidableEq

namespace DirectedValue

/-- The same value in both directions. -/
def both (value : AttributeValue) : DirectedValue := ⟨value, value⟩

/-- The value in one direction. -/
def get (pair : DirectedValue) : Direction → AttributeValue
  | .forward => pair.forward
  | .backward => pair.backward

/-- The values with the two directions exchanged. -/
def swap (pair : DirectedValue) : DirectedValue := ⟨pair.backward, pair.forward⟩

/-- Whether the values are equal as values in both directions. -/
def same (left right : DirectedValue) : Bool :=
  left.forward.same right.forward && left.backward.same right.backward

end DirectedValue

/-- A way to look up the values of an edge. -/
abbrev EdgeStore := Handle → Direction → AttributeValue

namespace Handle

/-- What is wrong with storing a value under an attribute: its kind, or else the value itself. -/
def check (handle : Handle) (value : AttributeValue) : Except AttributeError Unit :=
  if value.kind ≠ handle.kind then .error (.wrongKind handle.name handle.kind value.kind)
  else if handle.admits value then .ok ()
  else .error (.unknownValue handle.name (handle.format value))

/-- The value that a text names, or the error of a text that names none. -/
def parse (handle : Handle) (text : String) : Except AttributeError AttributeValue :=
  match handle.parse? text with
  | some value => .ok value
  | none => .error (.unknownValue handle.name text)

end Handle

/-- The stored values of an edge, by slot. -/
structure EdgeRecord where
  slots : List DirectedValue
  deriving DecidableEq

namespace EdgeRecord

/-- A record for the attributes of a registry, all of them at their defaults. -/
def new (registry : Registry) : EdgeRecord :=
  ⟨registry.handles.map fun handle => .both handle.defaultValue⟩

/-- The value of an attribute; one without a slot in this record has its default. -/
def get (record : EdgeRecord) (handle : Handle) (direction : Direction) : AttributeValue :=
  match record.slots[handle.slot]? with
  | some pair => pair.get direction
  | none => handle.defaultValue

/-- The record with the slot of an attribute set, if the record has that slot. -/
def write (record : EdgeRecord) (handle : Handle) (pair : DirectedValue) :
    Except AttributeError EdgeRecord :=
  if handle.slot < record.slots.length then .ok ⟨record.slots.set handle.slot pair⟩
  else .error (.unregistered handle.name)

/-- The record with one value for both directions of an attribute. -/
def set (record : EdgeRecord) (handle : Handle) (value : AttributeValue) :
    Except AttributeError EdgeRecord := do
  handle.check value
  record.write handle (.both value)

/-- The record with a value for each direction of a directional attribute. -/
def setDirectional (record : EdgeRecord) (handle : Handle) (pair : DirectedValue) :
    Except AttributeError EdgeRecord := do
  unless handle.directional do throw (.notDirectional handle.name)
  handle.check pair.forward
  handle.check pair.backward
  record.write handle pair

/-- The record with the value that a text names. -/
def setText (record : EdgeRecord) (handle : Handle) (text : String) :
    Except AttributeError EdgeRecord := do
  record.set handle (← handle.parse text)

/-- The record with the values that two texts name. -/
def setTextDirectional (record : EdgeRecord) (handle : Handle) (forward backward : String) :
    Except AttributeError EdgeRecord := do
  let forward ← handle.parse forward
  let backward ← handle.parse backward
  record.setDirectional handle ⟨forward, backward⟩

/-- A record as a store. -/
def store (record : EdgeRecord) : EdgeStore := record.get

/-- Whether two records hold equal values in every slot. -/
def same (left right : EdgeRecord) : Bool :=
  left.slots.length == right.slots.length &&
    (left.slots.zip right.slots).all fun (a, b) => a.same b

end EdgeRecord

end RoutePriority
