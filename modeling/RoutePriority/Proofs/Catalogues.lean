import RoutePriority.Attribute.Road
import RoutePriority.Proofs.Registrations
import Std.Data.HashMap

/-!
# Catalogues

While definitions come in, the attributes are kept twice: as a list of handles by slot, and as a map
from names to slots.  A `Catalogue` is this pair, and the programs of `Registering` change it in
place, one half after the other; a program that fails leaves behind whatever it has changed.

`Catalogue.Keeps` says that both halves describe one registry.  It is the invariant of every run of
calls, also of the unchecked ones that fill the catalogue of the road attributes, and
`Reached.registers_exactly` collects what follows for every catalogue that such a run can make.
Slots have 32 bits there, so up to 2^32 attributes get one of their own.
-/

namespace RoutePriority

/-- The attributes as they are kept while definitions come in: the handles in the order of their
slots, and the slot of each name.  Slots are numbered in 32 bits. -/
structure Catalogue where
  handles : List Handle
  slots : Std.HashMap String UInt32

namespace Catalogue

/-- The catalogue without attributes. -/
def empty : Catalogue := ⟨[], ∅⟩

/-- The attribute of the given slot. -/
def get? (catalogue : Catalogue) (slot : Nat) : Option Handle := catalogue.handles[slot]?

/-- The attribute of the given name, found by its slot. -/
def resolve? (catalogue : Catalogue) (name : String) : Option Handle :=
  catalogue.slots[name]?.bind fun slot => catalogue.get? slot.toNat

/-- The slot of the next attribute. -/
def nextSlot (catalogue : Catalogue) : UInt32 := .ofNat catalogue.handles.length

/-- The catalogue with one more attribute. -/
def add (catalogue : Catalogue) (definition : Definition) : Catalogue where
  handles := catalogue.handles ++ [⟨catalogue.nextSlot.toNat, definition⟩]
  slots := catalogue.slots.insert definition.name catalogue.nextSlot

end Catalogue

/-- A program that changes a catalogue in place.  It leaves one behind also where it fails. -/
abbrev Registering := ExceptT AttributeError (StateM Catalogue)

namespace Registering

/-- The answer of a program on a catalogue, and the catalogue that it leaves behind. -/
def runOn {α : Type} (program : Registering α) (catalogue : Catalogue) :
    Except AttributeError α × Catalogue :=
  program.run.run catalogue

/-- Adds an attribute without looking at it: notes its name and appends its handle. -/
def insert (definition : Definition) : Registering UInt32 := do
  let slot := (← get).nextSlot
  modify fun catalogue =>
    { catalogue with slots := catalogue.slots.insert definition.name slot }
  modify fun catalogue =>
    { catalogue with handles := catalogue.handles ++ [⟨slot.toNat, definition⟩] }
  return slot

/-- Adds an attribute if its name is not noted yet and its values are sound, and answers its
slot. -/
def register (definition : Definition) : Registering UInt32 := do
  if definition.name ∈ (← get).slots then throw (.duplicateAttribute definition.name)
  if let some fault := definition.fault? then throw fault
  insert definition

/-- Registers one definition after the other; the first refusal ends it. -/
def registerAll : List Definition → Registering Unit
  | [] => return
  | definition :: rest => do
    let _ ← register definition
    registerAll rest

/-- Adds one attribute after the other without looking at them. -/
def insertAll : List Definition → Registering Unit
  | [] => return
  | definition :: rest => do
    let _ ← insert definition
    insertAll rest

end Registering

/-- The catalogue of the definitions, registered one after the other. -/
def Catalogue.ofDefinitions (definitions : List Definition) : Except AttributeError Catalogue :=
  match (Registering.registerAll definitions).runOn .empty with
  | (.ok _, catalogue) => .ok catalogue
  | (.error error, _) => .error error

/-- The catalogue of the road attributes, which are not checked. -/
def Catalogue.road : Catalogue := ((Registering.insertAll Road.definitions).runOn .empty).2

namespace Registering

/-- A program that fails ends the run, and the changes before it stay. -/
theorem runOn_bind {α β : Type} (program : Registering α) (next : α → Registering β)
    (catalogue : Catalogue) :
    runOn (program >>= next) catalogue =
      match program.runOn catalogue with
      | (.ok answer, changed) => (next answer).runOn changed
      | (.error error, changed) => (.error error, changed) := by
  change (match program.runOn catalogue with
    | (answer, changed) => StateT.run (ExceptT.bindCont next answer) changed) = _
  obtain ⟨answer | answer, changed⟩ := program.runOn catalogue <;> rfl

theorem runOn_insert (definition : Definition) (catalogue : Catalogue) :
    (insert definition).runOn catalogue = (.ok catalogue.nextSlot, catalogue.add definition) := rfl

/-- All checks of a registration come before its first change, so one that fails has changed
nothing. -/
theorem runOn_register (definition : Definition) (catalogue : Catalogue) :
    (register definition).runOn catalogue =
      if definition.name ∈ catalogue.slots then
        (.error (.duplicateAttribute definition.name), catalogue)
      else match definition.fault? with
        | some fault => (.error fault, catalogue)
        | none => (.ok catalogue.nextSlot, catalogue.add definition) := by
  change runOn (do
    if definition.name ∈ catalogue.slots then throw (.duplicateAttribute definition.name)
    if let some fault := definition.fault? then throw fault
    insert definition) catalogue = _
  by_cases hname : definition.name ∈ catalogue.slots
  · rw [if_pos hname, if_pos hname]
    rfl
  · rw [if_neg hname, if_neg hname]
    cases definition.fault? with
    | some fault => rfl
    | none => exact runOn_insert definition catalogue

end Registering

/-- The catalogue holds the definitions and nothing else: in their order, in the slots from 0 on,
and each is found by its name, which no other has. -/
structure Catalogue.Lists (catalogue : Catalogue) (registered : List Definition) : Prop where
  definitions_eq : catalogue.handles.map Handle.definition = registered
  slot_eq : ∀ slot handle, catalogue.get? slot = some handle → handle.slot = slot
  resolve?_eq_some_iff : ∀ name handle, catalogue.resolve? name = some handle ↔
    handle ∈ catalogue.handles ∧ handle.name = name
  get?_slot : ∀ name handle, catalogue.resolve? name = some handle →
    catalogue.get? handle.slot = some handle
  nodup_names : (registered.map Definition.name).Nodup
  values_sound : ∀ definition ∈ registered, definition.kind = .categorical →
    1 ≤ definition.values.length ∧ definition.values.length ≤ 65536 ∧ definition.values.Nodup

/-- What a call that registers a further definition does: it accepts what fits and says why it
refuses the rest, an accepted definition goes to the end, into the next slot, and a refusal leaves
no trace. -/
structure Catalogue.Registers (catalogue : Catalogue) (registered : List Definition)
    (definition : Definition) : Prop where
  reports : Reports ((Registering.register definition).runOn catalogue).1
    (definition.Fits registered) (definition.Refused registered)
  appends : ∀ slot next,
    (Registering.register definition).runOn catalogue = (.ok slot, next) →
      next.handles = catalogue.handles ++ [⟨slot.toNat, definition⟩] ∧
        (registered.length < 2 ^ 32 → slot.toNat = registered.length)
  keeps : ∀ error next,
    (Registering.register definition).runOn catalogue = (.error error, next) → next = catalogue

namespace Catalogue.Registers

variable {catalogue : Catalogue} {registered : List Definition} {definition : Definition}

/-- A definition that fits is registered. -/
theorem runOn_of_fits (h : catalogue.Registers registered definition)
    (hfits : definition.Fits registered) :
    ∃ slot next, (Registering.register definition).runOn catalogue = (.ok slot, next) := by
  obtain ⟨slot, hslot⟩ := h.reports.ok_iff.mpr hfits
  exact ⟨slot, _, Prod.ext hslot rfl⟩

/-- A refused definition gives its error, and the catalogue stays as it was. -/
theorem runOn_of_refused (h : catalogue.Registers registered definition) {error : AttributeError}
    (hrefused : definition.Refused registered error) :
    (Registering.register definition).runOn catalogue = (.error error, catalogue) := by
  have hanswer := (h.reports.error_iff error).mpr hrefused
  have hnext := h.keeps error _ (Prod.ext hanswer rfl)
  exact Prod.ext hanswer hnext

end Catalogue.Registers

/-- A catalogue keeps a registry: its handles are those of the registry, and the noted slots are the
ones that the registry finds, both as far as 32 bits can tell. -/
structure Catalogue.Keeps (catalogue : Catalogue) (registry : Registry) : Prop where
  handles : catalogue.handles =
    registry.handles.map fun handle => ⟨(UInt32.ofNat handle.slot).toNat, handle.definition⟩
  slots : ∀ name, catalogue.slots[name]? =
    (registry.resolve? name).map fun handle => UInt32.ofNat handle.slot

namespace Catalogue.Keeps

variable {catalogue : Catalogue} {registry grown : Registry} {definition : Definition}

/-- At first both list nothing. -/
theorem empty : Catalogue.empty.Keeps .empty where
  handles := rfl
  slots _ := Std.HashMap.getElem?_empty

theorem length_handles (h : catalogue.Keeps registry) :
    catalogue.handles.length = registry.handles.length := by
  rw [h.handles, List.length_map]

/-- Both list the same definitions in the same order. -/
theorem map_definition_handles (h : catalogue.Keeps registry) :
    catalogue.handles.map Handle.definition = registry.definitions := by
  rw [h.handles, List.map_map, ← registry.map_definition_handles]
  rfl

/-- The noted names are the registered ones. -/
theorem mem_slots_iff (h : catalogue.Keeps registry) {name : String} :
    name ∈ catalogue.slots ↔ name ∈ registry.definitions.map Definition.name := by
  rw [Std.HashMap.mem_iff_isSome_getElem?, h.slots, Option.isSome_map, ← not_iff_not,
    ← Registry.resolve?_eq_none_iff, Option.not_isSome_iff_eq_none]

/-- An accepted definition is added to both, so the two stay in step. -/
theorem add (h : catalogue.Keeps registry) (hregister : registry.register definition = .ok grown) :
    (catalogue.add definition).Keeps grown := by
  constructor
  · rw [Registry.handles_of_register hregister, List.map_append, ← h.handles, ← h.length_handles]
    rfl
  · intro name
    rw [Registry.resolve?_of_register hregister, Catalogue.add, Std.HashMap.getElem?_insert,
      h.slots, nextSlot, h.length_handles]
    by_cases hname : name = definition.name
    · simp [hname]
    · simp [hname, Ne.symm hname]

/-- Registering in a catalogue does what it does in the registry that it keeps: it adds an attribute
to both, or fails for the same reason and leaves the catalogue as it was. -/
theorem register_cases (h : catalogue.Keeps registry) (definition : Definition) :
    (∃ grown, registry.register definition = .ok grown ∧
      (Registering.register definition).runOn catalogue =
        (.ok catalogue.nextSlot, catalogue.add definition) ∧
      (catalogue.add definition).Keeps grown) ∨
    (∃ error, registry.register definition = .error error ∧
      (Registering.register definition).runOn catalogue = (.error error, catalogue)) := by
  rw [Registering.runOn_register]
  by_cases hname : definition.name ∈ registry.definitions.map Definition.name
  · rw [if_pos (h.mem_slots_iff.mpr hname)]
    exact Or.inr ⟨_, by rw [Registry.register, dif_pos hname], rfl⟩
  · rw [if_neg fun hnoted => hname (h.mem_slots_iff.mp hnoted)]
    cases hfault : definition.fault? with
    | some fault => exact Or.inr ⟨fault, Registry.register_of_fault hname hfault, rfl⟩
    | none =>
        have hfits := Definition.fits_iff.mpr ⟨hname, definition.fault?_eq_none_iff.mp hfault⟩
        obtain ⟨grown, hgrown⟩ := (registry.reports_register definition).ok_iff.mpr hfits
        exact Or.inl ⟨grown, hgrown, rfl, h.add hgrown⟩

/-- The two accept the same definitions and refuse the others with the same error. -/
theorem answer_eq_map (h : catalogue.Keeps registry) (definition : Definition) :
    ((Registering.register definition).runOn catalogue).1 =
      (registry.register definition).map fun _ => catalogue.nextSlot := by
  obtain ⟨_, hregister, hrun, -⟩ | ⟨_, hregister, hrun⟩ := h.register_cases definition
  · rw [hregister, hrun]
    rfl
  · rw [hregister, hrun]
    rfl

/-- A run of registrations in a catalogue goes as it does in the registry that it keeps. -/
theorem runOn_registerAll (h : catalogue.Keeps registry) (definitions : List Definition) :
    ∃ next,
      (Registering.registerAll definitions).runOn catalogue =
        ((definitions.foldlM Registry.register registry).map fun _ => (), next) ∧
      ∀ grown, definitions.foldlM Registry.register registry = .ok grown → next.Keeps grown := by
  induction definitions generalizing catalogue registry with
  | nil => exact ⟨catalogue, rfl, fun grown hgrown => by cases hgrown; exact h⟩
  | cons definition rest ih =>
      rw [Registering.registerAll, Registering.runOn_bind, List.foldlM_cons]
      obtain ⟨grown, hregister, hrun, hkeeps⟩ | ⟨error, hregister, hrun⟩ :=
        h.register_cases definition
      · rw [hregister, hrun]
        exact ih hkeeps
      · rw [hregister, hrun]
        exact ⟨catalogue, rfl, fun grown hgrown => by cases hgrown⟩

/-- Filling a catalogue without checks gives what the registry makes of the definitions, provided
that it accepts them. -/
theorem insertAll (h : catalogue.Keeps registry) {definitions : List Definition}
    (hgrown : definitions.foldlM Registry.register registry = .ok grown) :
    ((Registering.insertAll definitions).runOn catalogue).2.Keeps grown := by
  induction definitions generalizing catalogue registry with
  | nil =>
      cases hgrown
      exact h
  | cons definition rest ih =>
      obtain ⟨next, hregister, hrest⟩ := foldlM_cons_eq_ok_iff.mp hgrown
      rw [Registering.insertAll, Registering.runOn_bind, Registering.runOn_insert]
      exact ih (h.add hregister) hrest

/-- Up to 2^32 attributes a slot loses nothing in 32 bits. -/
theorem toNat_ofNat_slot (hcount : registry.size ≤ 2 ^ 32) {handle : Handle}
    (hhandle : handle ∈ registry.handles) : (UInt32.ofNat handle.slot).toNat = handle.slot := by
  have hslot := Registry.slot_lt_of_mem hhandle
  rw [Registry.length_handles] at hslot
  exact UInt32.toNat_ofNat_of_lt' (Nat.lt_of_lt_of_le hslot hcount)

/-- As long as the slots fit 32 bits, the handles are equal. -/
theorem handles_eq (h : catalogue.Keeps registry) (hcount : registry.size ≤ 2 ^ 32) :
    catalogue.handles = registry.handles := by
  rw [h.handles, List.map_congr_left fun handle hhandle => by
    rw [toNat_ofNat_slot hcount hhandle]]
  exact List.map_id _

/-- As long as the slots fit 32 bits, a name resolves to the same handle. -/
theorem resolve?_eq (h : catalogue.Keeps registry) (hcount : registry.size ≤ 2 ^ 32)
    (name : String) : catalogue.resolve? name = registry.resolve? name := by
  rw [resolve?, h.slots]
  cases hresolve : registry.resolve? name with
  | none => rfl
  | some handle =>
      have hhandle := Registry.mem_handles_of_resolve? hresolve
      rw [Option.map_some, Option.bind_some, toNat_ofNat_slot hcount hhandle, get?,
        h.handles_eq hcount, Registry.getElem?_handles hhandle]

/-- A catalogue in step with a registry lists its definitions. -/
theorem lists (h : catalogue.Keeps registry) (hcount : registry.size ≤ 2 ^ 32) :
    catalogue.Lists registry.definitions where
  definitions_eq := h.map_definition_handles
  slot_eq := by
    intro slot handle hget
    rw [get?, h.handles_eq hcount] at hget
    exact Registry.slot_eq_of_getElem?_handles hget
  resolve?_eq_some_iff := by
    intro name handle
    rw [h.resolve?_eq hcount, h.handles_eq hcount]
    exact Registry.resolve?_eq_some_iff
  get?_slot := by
    intro name handle hresolve
    rw [h.resolve?_eq hcount] at hresolve
    rw [get?, h.handles_eq hcount]
    exact Registry.getElem?_handles (Registry.mem_handles_of_resolve? hresolve)
  nodup_names := registry.nodup_names
  values_sound definition hmem := Definition.wellFormed_iff.mp (registry.wellFormed definition hmem)

/-- A catalogue in step with a registry accepts and refuses what the registry does. -/
theorem registers (h : catalogue.Keeps registry) (definition : Definition) :
    catalogue.Registers registry.definitions definition where
  reports := by
    rw [h.answer_eq_map]
    exact (registry.reports_register definition).map _
  appends := by
    intro slot next hcall
    obtain ⟨_, -, hrun, -⟩ | ⟨error, -, hrun⟩ := h.register_cases definition
    · cases hrun.symm.trans hcall
      refine ⟨rfl, fun hroom => ?_⟩
      rw [nextSlot, h.length_handles, Registry.length_handles]
      exact UInt32.toNat_ofNat_of_lt' hroom
    · cases hrun.symm.trans hcall
  keeps := by
    intro error next hcall
    obtain ⟨_, -, hrun, -⟩ | ⟨found, -, hrun⟩ := h.register_cases definition
    · cases hrun.symm.trans hcall
    · cases hrun.symm.trans hcall
      rfl

end Catalogue.Keeps

/-- A catalogue of definitions is made exactly if the registry of them is, and keeps it. -/
theorem Catalogue.ofDefinitions_eq_map (definitions : List Definition) :
    ∃ catalogue,
      ofDefinitions definitions =
        (Registry.ofDefinitions definitions).map (fun _ => catalogue) ∧
      ∀ registry, Registry.ofDefinitions definitions = .ok registry → catalogue.Keeps registry := by
  obtain ⟨catalogue, hrun, hkeeps⟩ := Keeps.empty.runOn_registerAll definitions
  refine ⟨catalogue, ?_, hkeeps⟩
  rw [ofDefinitions, hrun, Registry.ofDefinitions]
  cases definitions.foldlM Registry.register .empty <;> rfl

/-- What a run of calls can make: the catalogue, and the definitions that it has accepted. -/
inductive Reached : Catalogue → List Definition → Prop
  | empty : Reached .empty []
  | ofDefinitions {definitions : List Definition} {catalogue : Catalogue}
      (h : Catalogue.ofDefinitions definitions = .ok catalogue) : Reached catalogue definitions
  | road : Reached .road Road.definitions
  | accepted {catalogue next : Catalogue} {registered : List Definition} {definition : Definition}
      {slot : UInt32} (h : Reached catalogue registered)
      (hcall : (Registering.register definition).runOn catalogue = (.ok slot, next)) :
      Reached next (registered ++ [definition])
  | refused {catalogue next : Catalogue} {registered : List Definition} {definition : Definition}
      {error : AttributeError} (h : Reached catalogue registered)
      (hcall : (Registering.register definition).runOn catalogue = (.error error, next)) :
      Reached next registered

namespace Reached

variable {catalogue : Catalogue} {registered : List Definition}

/-- Every catalogue that is reached keeps the registry of the accepted definitions.  The road
attributes are inserted without a check, but their registry accepts them all. -/
theorem exists_keeps (h : Reached catalogue registered) :
    ∃ registry : Registry, registry.definitions = registered ∧ catalogue.Keeps registry := by
  induction h with
  | empty => exact ⟨.empty, rfl, .empty⟩
  | @ofDefinitions definitions catalogue hmade =>
      obtain ⟨made, hmap, hkeeps⟩ := Catalogue.ofDefinitions_eq_map definitions
      rw [hmade] at hmap
      cases hregistry : Registry.ofDefinitions definitions with
      | error error => simp [hregistry, Except.map] at hmap
      | ok registry =>
          rw [hregistry] at hmap
          cases hmap
          exact ⟨registry, Registry.definitions_of_foldlM_register hregistry, hkeeps _ hregistry⟩
  | road =>
      exact ⟨Road.registry, rfl, .insertAll .empty Road.registry.ofDefinitions_definitions⟩
  | @accepted catalogue next registered definition slot _ hcall ih =>
      obtain ⟨registry, rfl, hkeeps⟩ := ih
      obtain ⟨grown, hregister, hrun, hgrown⟩ | ⟨error, -, hrun⟩ :=
        hkeeps.register_cases definition
      · cases hrun.symm.trans hcall
        exact ⟨grown, (Registry.register_eq_ok_iff.mp hregister).2.2, hgrown⟩
      · cases hrun.symm.trans hcall
  | @refused catalogue next registered definition error _ hcall ih =>
      obtain ⟨registry, rfl, hkeeps⟩ := ih
      obtain ⟨grown, -, hrun, -⟩ | ⟨found, -, hrun⟩ := hkeeps.register_cases definition
      · cases hrun.symm.trans hcall
      · cases hrun.symm.trans hcall
        exact ⟨registry, rfl, hkeeps⟩

/-- **What fits is registered, and everything else is refused for its first fault.**  A catalogue of
at most 2^32 attributes lists the definitions that it has accepted, in the order of the calls.  A
further call answers as `Definition.Fits` and `Definition.Refused` say, and so does a run of calls
that starts without attributes.  The registry of the accepted definitions has the same handles,
finds the same names and gives the same answers. -/
theorem registers_exactly (h : Reached catalogue registered)
    (hcount : registered.length ≤ 2 ^ 32) :
    catalogue.Lists registered ∧
    (∀ definition, catalogue.Registers registered definition) ∧
    (∀ definitions, Reports (Catalogue.ofDefinitions definitions) (FitInOrder [] definitions)
      (FirstRefused [] definitions)) ∧
    ∃ registry : Registry, registry.definitions = registered ∧
      catalogue.handles = registry.handles ∧
      (∀ name, catalogue.resolve? name = registry.resolve? name) ∧
      ∀ definition, ((Registering.register definition).runOn catalogue).1 =
        (registry.register definition).map fun _ => .ofNat registry.size := by
  obtain ⟨registry, rfl, hkeeps⟩ := h.exists_keeps
  refine ⟨hkeeps.lists hcount, hkeeps.registers, fun definitions => ?_, registry, rfl,
    hkeeps.handles_eq hcount, hkeeps.resolve?_eq hcount, fun definition => ?_⟩
  · obtain ⟨made, hmade, -⟩ := Catalogue.ofDefinitions_eq_map definitions
    rw [hmade]
    exact (Registry.empty.reports_foldlM_register definitions).map _
  · rw [hkeeps.answer_eq_map, Catalogue.nextSlot, hkeeps.length_handles, Registry.length_handles]
    rfl

/-- Lanes can follow the road attributes and get slot 11.  After that they are refused, for their
name and not for the value that they name twice. -/
theorem registers_exactly_lanes :
    let lanes := Definition.categorical "lanes" ["one", "two"]
    let twice := Definition.categorical "lanes" ["one", "two", "one"]
    let road := Catalogue.road
    Reached road Road.definitions ∧ Road.definitions.length ≤ 2 ^ 32 ∧
      (Registering.register twice).runOn road = (.error (.duplicateValue "lanes" "one"), road) ∧
      ∃ slot next, (Registering.register lanes).runOn road = (.ok slot, next) ∧
        slot.toNat = 11 ∧ next.handles = road.handles ++ [⟨11, lanes⟩] ∧
        next.resolve? "lanes" = some ⟨11, lanes⟩ ∧
        (Registering.register twice).runOn next = (.error (.duplicateAttribute "lanes"), next) := by
  intro lanes twice road
  have hcount : Road.definitions.length ≤ 2 ^ 32 := by decide
  obtain ⟨-, hregisters, -⟩ := registers_exactly .road hcount
  have hvalues : twice.values = ["one", "two"] ++ "one" :: [] := rfl
  have hrefused : twice.Refused Road.definitions (.duplicateValue "lanes" "one") :=
    .duplicateValue (by decide) rfl (by decide) hvalues (by decide) (by decide)
  have hfits : lanes.Fits Road.definitions := ⟨by decide, by decide⟩
  obtain ⟨slot, next, hcall⟩ := (hregisters lanes).runOn_of_fits hfits
  obtain ⟨happends, hslot⟩ := (hregisters lanes).appends slot next hcall
  have hslot : slot.toNat = 11 := hslot (by decide)
  rw [hslot] at happends
  obtain ⟨hlists, hagain, -⟩ := registers_exactly (.accepted .road hcall) (by decide)
  have hlanes : next.resolve? "lanes" = some ⟨11, lanes⟩ :=
    (hlists.resolve?_eq_some_iff _ _).mpr ⟨by simp [happends], rfl⟩
  exact ⟨.road, hcount, (hregisters twice).runOn_of_refused hrefused, slot, next, hcall, hslot,
    happends, hlanes, (hagain twice).runOn_of_refused (.duplicateAttribute (by decide))⟩

end Reached

end RoutePriority
