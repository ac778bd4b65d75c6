import RoutePriority.Attribute.Definition
import RoutePriority.Text.Distinct

/-!
# Registries

A `Registry` lists attribute definitions; the slot of an attribute is its position in the list.
`register` adds one definition at the end or says why it cannot.  No two attributes share a name and
every categorical one is well formed: the type carries both facts, so every registry that can be
built obeys them.
-/

namespace RoutePriority

/-- Why an attribute cannot be registered or a value cannot be stored. -/
inductive AttributeError where
  | duplicateAttribute (name : String)
  | emptyValueSet (name : String)
  | tooManyValues (name : String) (count : Nat)
  | duplicateValue (name value : String)
  | wrongKind (name : String) (expected found : DomainKind)
  | unknownValue (name value : String)
  | notDirectional (name : String)
  | unregistered (name : String)
  deriving DecidableEq

namespace AttributeError

/-- The text of an error. -/
def message : AttributeError → String
  | duplicateAttribute name => "attribute '" ++ name ++ "' is already registered"
  | emptyValueSet name => "categorical attribute '" ++ name ++ "' declares no values"
  | tooManyValues name count =>
    "categorical attribute '" ++ name ++ "' declares " ++ toString count ++
      " values, at most " ++ toString maxValues ++ " are supported"
  | duplicateValue name value =>
    "categorical attribute '" ++ name ++ "' declares value '" ++ value ++ "' twice"
  | wrongKind name expected found =>
    "attribute '" ++ name ++ "' is " ++ expected.name ++ ", got a " ++ found.name ++ " value"
  | unknownValue name value =>
    "'" ++ value ++ "' is not a valid value of attribute '" ++ name ++ "'"
  | notDirectional name =>
    "attribute '" ++ name ++ "' is not directional, it has no separate backward value"
  | unregistered name =>
    "attribute '" ++ name ++ "' is not registered with this edge storage"

end AttributeError

namespace Definition

/-- What is wrong with the value set of a definition, the first fault if there are several. -/
def fault? (definition : Definition) : Option AttributeError :=
  if definition.kind ≠ .categorical then none
  else if definition.values = [] then some (.emptyValueSet definition.name)
  else if maxValues < definition.values.length then
    some (.tooManyValues definition.name definition.values.length)
  else (Text.firstRepeat? definition.values).map (.duplicateValue definition.name)

/-- A definition without a fault is well formed. -/
theorem fault?_eq_none_iff (definition : Definition) :
    definition.fault? = none ↔ definition.WellFormed := by
  unfold fault? WellFormed
  by_cases hkind : definition.kind = .categorical
  · by_cases hempty : definition.values = []
    · simp [hkind, hempty]
    · by_cases hmany : maxValues < definition.values.length
      · have : ¬ definition.values.length ≤ maxValues := by omega
        simp [hkind, hempty, hmany, this]
      · have : definition.values.length ≤ maxValues := by omega
        simp [hkind, hempty, hmany, this, Text.firstRepeat?_eq_none_iff]
  · simp [hkind]

end Definition

/-- A list of attribute definitions with distinct names, every categorical one well formed. -/
structure Registry where
  definitions : List Definition
  nodup_names : (definitions.map Definition.name).Nodup
  wellFormed : ∀ definition ∈ definitions, definition.WellFormed

namespace Registry

/-- The registry without attributes. -/
def empty : Registry := ⟨[], by simp, by simp⟩

instance : Inhabited Registry := ⟨empty⟩

/-- The attributes in the order of their slots. -/
def handles (registry : Registry) : List Handle :=
  registry.definitions.mapIdx fun slot definition => ⟨slot, definition⟩

/-- The number of attributes. -/
def size (registry : Registry) : Nat := registry.definitions.length

/-- Whether there are no attributes. -/
def isEmpty (registry : Registry) : Bool := registry.definitions.isEmpty

/-- The attribute of the given slot. -/
def get? (registry : Registry) (slot : Nat) : Option Handle := registry.handles[slot]?

/-- The attribute of the given name. -/
def resolve? (registry : Registry) (name : String) : Option Handle :=
  registry.handles.find? (·.name = name)

/-- The registry with one more attribute, whose slot is the old size; or the reason why the
definition is refused. -/
def register (registry : Registry) (definition : Definition) :
    Except AttributeError Registry :=
  if named : definition.name ∈ registry.definitions.map Definition.name then
    .error (.duplicateAttribute definition.name)
  else
    match sound : definition.fault? with
    | some error => .error error
    | none => .ok {
        definitions := registry.definitions ++ [definition]
        nodup_names := by
          have := registry.nodup_names
          simp only [List.map_append, List.map_cons, List.map_nil]
          exact List.nodup_append.2 ⟨this, by simp, by grind⟩
        wellFormed := by
          have := registry.wellFormed
          have := definition.fault?_eq_none_iff.1 sound
          simp only [List.mem_append, List.mem_singleton]
          grind }

/-- The registry of the definitions, registered one after the other; the first refusal ends it. -/
def ofDefinitions (definitions : List Definition) : Except AttributeError Registry :=
  definitions.foldlM register empty

end Registry

end RoutePriority
