import RoutePriority.Attribute.Road
import RoutePriority.Proofs.RegisteredHandles

/-!
# Writing edge records

The four calls that write a record check their arguments in different orders and share the slots of
the record.  Here they are steps: a `Write` is one call, `perform` gives its answer and the record
that it leaves behind, and `performAll` is a run of calls, failing ones among them.

A caller holds one record that the calls change in place.  The programs of `InPlace` do that, one
direction after the other, and a program that fails leaves whatever it has written so far;
`Write.runOn_program` says that they agree with the calls that return a new record.

Two facts carry everything else: `perform_cases` says all that a call can do, and `Admitted` is the
invariant of every run.
-/

namespace RoutePriority

namespace EdgeRecord

/-- The record with the slot of an attribute replaced in one direction. -/
def assign (record : EdgeRecord) (slot : Nat) (direction : Direction) (value : AttributeValue) :
    EdgeRecord :=
  ⟨record.slots.modify slot fun pair =>
    match direction with
    | .forward => { pair with forward := value }
    | .backward => { pair with backward := value }⟩

/-- The record with a slot replaced. -/
def put (record : EdgeRecord) (slot : Nat) (pair : DirectedValue) : EdgeRecord :=
  ⟨record.slots.set slot pair⟩

end EdgeRecord

/-- A program that changes a record in place.  It leaves a record behind also where it fails. -/
abbrev InPlace := ExceptT AttributeError (StateM EdgeRecord)

namespace InPlace

/-- The answer of a program on a record, and the record that it leaves behind. -/
def runOn (program : InPlace Unit) (record : EdgeRecord) :
    Except AttributeError Unit × EdgeRecord :=
  program.run.run record

theorem runOn_get (next : EdgeRecord → InPlace Unit) (record : EdgeRecord) :
    runOn (do next (← get)) record = runOn (next record) record := rfl

theorem runOn_modify (change : EdgeRecord → EdgeRecord) (next : InPlace Unit)
    (record : EdgeRecord) :
    runOn (do modify change; next) record = runOn next (change record) := rfl

theorem runOn_modify_last (change : EdgeRecord → EdgeRecord) (record : EdgeRecord) :
    runOn (modify change) record = (.ok (), change record) := rfl

/-- Finds the slot of an attribute and writes both directions of it. -/
def store (handle : Handle) (pair : DirectedValue) : InPlace Unit := do
  unless handle.slot < (← get).slots.length do throw (.unregistered handle.name)
  modify (·.assign handle.slot .forward pair.forward)
  modify (·.assign handle.slot .backward pair.backward)

/-- Checks a value and writes it in both directions. -/
def set (handle : Handle) (value : AttributeValue) : InPlace Unit := do
  ofExcept (handle.check value)
  store handle (.both value)

/-- Checks two values of a directional attribute and writes them. -/
def setDirectional (handle : Handle) (pair : DirectedValue) : InPlace Unit := do
  unless handle.directional do throw (.notDirectional handle.name)
  ofExcept (handle.check pair.forward)
  ofExcept (handle.check pair.backward)
  store handle pair

end InPlace

/-- A call that writes an attribute of a record. -/
inductive Write where
  | set (handle : Handle) (value : AttributeValue)
  | setDirectional (handle : Handle) (pair : DirectedValue)
  | setText (handle : Handle) (text : String)
  | setTextDirectional (handle : Handle) (forward backward : String)

namespace Write

/-- The attribute that is written. -/
def handle : Write → Handle
  | set handle _ | setDirectional handle _ | setText handle _ | setTextDirectional handle _ _ =>
    handle

/-- The record that a call makes of another. -/
def apply (record : EdgeRecord) : Write → Except AttributeError EdgeRecord
  | set handle value => record.set handle value
  | setDirectional handle pair => record.setDirectional handle pair
  | setText handle text => record.setText handle text
  | setTextDirectional handle forward backward => record.setTextDirectional handle forward backward

/-- The program of a call. -/
def program : Write → InPlace Unit
  | set handle value => InPlace.set handle value
  | setDirectional handle pair => InPlace.setDirectional handle pair
  | setText handle text => do InPlace.set handle (← ofExcept (handle.parse text))
  | setTextDirectional handle forward backward => do
    let forward ← ofExcept (handle.parse forward)
    let backward ← ofExcept (handle.parse backward)
    InPlace.setDirectional handle ⟨forward, backward⟩

end Write

/-- What a call in place comes to if it returns a new record or an error: the answer, and the new
record or else the old one. -/
def settle (record : EdgeRecord) :
    Except AttributeError EdgeRecord → Except AttributeError Unit × EdgeRecord
  | .ok next => (.ok (), next)
  | .error error => (.error error, record)

/-- Writing one direction after the other writes the pair. -/
theorem EdgeRecord.assign_assign (record : EdgeRecord) (slot : Nat) (pair : DirectedValue) :
    (record.assign slot .forward pair.forward).assign slot .backward pair.backward =
      record.put slot pair := by
  simp only [assign, put, mk.injEq]
  apply List.ext_getElem?
  intro position
  rw [List.getElem?_modify, List.getElem?_modify, List.getElem?_set']
  by_cases h : slot = position
  · cases record.slots[position]? <;> simp [h]
  · simp [h]

namespace InPlace

/-- Storing a pair in place is writing it. -/
theorem runOn_store (handle : Handle) (pair : DirectedValue) (record : EdgeRecord) :
    runOn (store handle pair) record = settle record (record.write handle pair) := by
  unfold store EdgeRecord.write
  rw [runOn_get]
  by_cases h : handle.slot < record.slots.length
  · simp only [h, if_true, runOn_modify, runOn_modify_last, EdgeRecord.assign_assign]
    rfl
  · simp only [h, if_false]
    rfl

/-- The call with one value, carried out in place, ends as the checked write does. -/
theorem runOn_set (handle : Handle) (value : AttributeValue) (record : EdgeRecord) :
    runOn (set handle value) record = settle record (record.set handle value) := by
  unfold set EdgeRecord.set
  cases handle.check value with
  | error error => rfl
  | ok _ => exact runOn_store handle (.both value) record

/-- The call with two values, carried out in place, ends as the checked write does. -/
theorem runOn_setDirectional (handle : Handle) (pair : DirectedValue) (record : EdgeRecord) :
    runOn (setDirectional handle pair) record =
      settle record (record.setDirectional handle pair) := by
  unfold setDirectional EdgeRecord.setDirectional
  cases handle.directional with
  | false => rfl
  | true =>
      cases handle.check pair.forward with
      | error error => rfl
      | ok _ =>
          cases handle.check pair.backward with
          | error error => rfl
          | ok _ => exact runOn_store handle pair record

end InPlace

/-- **In place or anew.**  A call in place answers as the call that returns a new record does, and
leaves that record behind, or the old one if the call fails. -/
theorem Write.runOn_program (write : Write) (record : EdgeRecord) :
    write.program.runOn record = settle record (write.apply record) := by
  cases write with
  | set handle value => exact InPlace.runOn_set handle value record
  | setDirectional handle pair => exact InPlace.runOn_setDirectional handle pair record
  | setText handle text =>
      simp only [program, apply, EdgeRecord.setText]
      cases handle.parse text with
      | error error => rfl
      | ok value => exact InPlace.runOn_set handle value record
  | setTextDirectional handle forward backward =>
      simp only [program, apply, EdgeRecord.setTextDirectional]
      cases handle.parse forward with
      | error error => rfl
      | ok first =>
          cases handle.parse backward with
          | error error => rfl
          | ok second => exact InPlace.runOn_setDirectional handle ⟨first, second⟩ record

namespace EdgeRecord

/-- The answer to a call on a record, and the record that the call leaves behind. -/
def perform (record : EdgeRecord) (write : Write) : Except AttributeError Unit × EdgeRecord :=
  write.program.runOn record

/-- The record after a run of calls, whatever they answer. -/
def performAll (record : EdgeRecord) (writes : List Write) : EdgeRecord :=
  writes.foldl (fun record write => (record.perform write).2) record

/-- A record never changes its number of slots. -/
theorem length_put (record : EdgeRecord) (slot : Nat) (pair : DirectedValue) :
    (record.put slot pair).slots.length = record.slots.length :=
  List.length_set

/-- A slot reads back what was put into it, in either direction. -/
theorem get_put_self {record : EdgeRecord} {handle : Handle} (pair : DirectedValue)
    (h : handle.slot < record.slots.length) (direction : Direction) :
    (record.put handle.slot pair).get handle direction = pair.get direction := by
  rw [get, put, List.getElem?_set_self h]

/-- The other slots read as before. -/
theorem get_put_of_ne {record : EdgeRecord} {handle : Handle} {slot : Nat} (pair : DirectedValue)
    (h : handle.slot ≠ slot) (direction : Direction) :
    (record.put slot pair).get handle direction = record.get handle direction := by
  rw [get, get, put, List.getElem?_set_ne (Ne.symm h)]

/-- A write succeeds for a slot of the record only, and what it gives is the record with that slot
replaced. -/
theorem write_eq_ok_iff {record next : EdgeRecord} {handle : Handle} {pair : DirectedValue} :
    record.write handle pair = .ok next ↔
      handle.slot < record.slots.length ∧ next = record.put handle.slot pair := by
  unfold write put
  by_cases h : handle.slot < record.slots.length <;> simp [h, eq_comm]

/-- A new record holds the default of each attribute of its registry. -/
theorem get_new {registry : Registry} {handle : Handle} (h : handle ∈ registry.handles)
    (direction : Direction) : (new registry).get handle direction = handle.defaultValue := by
  rw [get, new, List.getElem?_map, Registry.getElem?_handles h]
  cases direction <;> rfl

theorem length_new (registry : Registry) :
    (new registry).slots.length = registry.handles.length :=
  List.length_map _

end EdgeRecord

/-- The pair of values that a call stores if its arguments allow it: admitted values, texts that
name values, and a directional attribute if two of them are given. -/
inductive Write.Grants : Write → DirectedValue → Prop
  | set {handle : Handle} {value : AttributeValue} (h : handle.admits value = true) :
      Grants (.set handle value) (.both value)
  | setDirectional {handle : Handle} {pair : DirectedValue}
      (hdirectional : handle.directional = true)
      (hforward : handle.admits pair.forward = true)
      (hbackward : handle.admits pair.backward = true) :
      Grants (.setDirectional handle pair) pair
  | setText {handle : Handle} {text : String} {value : AttributeValue}
      (h : handle.parse? text = some value) :
      Grants (.setText handle text) (.both value)
  | setTextDirectional {handle : Handle} {forward backward : String}
      {first second : AttributeValue} (hdirectional : handle.directional = true)
      (hforward : handle.parse? forward = some first)
      (hbackward : handle.parse? backward = some second) :
      Grants (.setTextDirectional handle forward backward) ⟨first, second⟩

namespace EdgeRecord

variable {record next : EdgeRecord} {handle : Handle}

/-- When a call with one value succeeds, and what it leaves behind. -/
theorem set_eq_ok_iff {value : AttributeValue} :
    record.set handle value = .ok next ↔
      handle.admits value = true ∧ handle.slot < record.slots.length ∧
        next = record.put handle.slot (.both value) := by
  rw [← Handle.check_eq_ok_iff, ← write_eq_ok_iff, set]
  cases handle.check value <;> simp [bind, Except.bind]

/-- When a call with two values succeeds, and what it leaves behind. -/
theorem setDirectional_eq_ok_iff {pair : DirectedValue} :
    record.setDirectional handle pair = .ok next ↔
      handle.directional = true ∧ handle.admits pair.forward = true ∧
        handle.admits pair.backward = true ∧ handle.slot < record.slots.length ∧
        next = record.put handle.slot pair := by
  rw [← Handle.check_eq_ok_iff, ← Handle.check_eq_ok_iff, ← write_eq_ok_iff, setDirectional]
  cases handle.directional with
  | false => simp [bind, Except.bind, throw, throwThe, MonadExceptOf.throw]
  | true =>
      cases handle.check pair.forward <;> cases handle.check pair.backward <;>
        simp [bind, Except.bind]

/-- A call with a text is the call with the value the text reads as. -/
theorem setText_eq_ok_iff {text : String} :
    record.setText handle text = .ok next ↔
      ∃ value, handle.parse? text = some value ∧ record.set handle value = .ok next := by
  simp only [← Handle.parse_eq_ok_iff, setText]
  cases handle.parse text <;> simp [bind, Except.bind]

/-- A call with two texts is the call with the two values they read as. -/
theorem setTextDirectional_eq_ok_iff {forward backward : String} :
    record.setTextDirectional handle forward backward = .ok next ↔
      ∃ first second, handle.parse? forward = some first ∧ handle.parse? backward = some second ∧
        record.setDirectional handle ⟨first, second⟩ = .ok next := by
  simp only [← Handle.parse_eq_ok_iff, setTextDirectional]
  cases handle.parse forward <;> cases handle.parse backward <;> simp [bind, Except.bind]

end EdgeRecord

namespace Write

variable {record next : EdgeRecord} {write : Write} {pair : DirectedValue}

/-- A call makes a record exactly if its arguments are granted and the record has the slot. -/
theorem apply_eq_ok_iff (hsound : write.handle.definition.WellFormed) :
    write.apply record = .ok next ↔
      ∃ pair, write.Grants pair ∧ write.handle.slot < record.slots.length ∧
        next = record.put write.handle.slot pair := by
  cases write with
  | set handle value =>
      rw [apply, EdgeRecord.set_eq_ok_iff]
      constructor
      · intro h
        obtain ⟨h, hslot, hnext⟩ := h
        exact ⟨_, .set h, hslot, hnext⟩
      · intro h
        obtain ⟨pair, hgrants, hslot, hnext⟩ := h
        cases hgrants with
        | set h => exact ⟨h, hslot, hnext⟩
  | setDirectional handle pair =>
      rw [apply, EdgeRecord.setDirectional_eq_ok_iff]
      constructor
      · intro h
        obtain ⟨hdirectional, hforward, hbackward, hslot, hnext⟩ := h
        exact ⟨_, .setDirectional hdirectional hforward hbackward, hslot, hnext⟩
      · intro h
        obtain ⟨pair, hgrants, hslot, hnext⟩ := h
        cases hgrants with
        | setDirectional hdirectional hforward hbackward =>
            exact ⟨hdirectional, hforward, hbackward, hslot, hnext⟩
  | setText handle text =>
      simp only [apply, EdgeRecord.setText_eq_ok_iff, EdgeRecord.set_eq_ok_iff]
      constructor
      · intro h
        obtain ⟨value, h, -, hslot, hnext⟩ := h
        exact ⟨_, .setText h, hslot, hnext⟩
      · intro h
        obtain ⟨pair, hgrants, hslot, hnext⟩ := h
        cases hgrants with
        | setText h => exact ⟨_, h, Handle.admits_of_parse? hsound h, hslot, hnext⟩
  | setTextDirectional handle forward backward =>
      simp only [apply, EdgeRecord.setTextDirectional_eq_ok_iff,
        EdgeRecord.setDirectional_eq_ok_iff]
      constructor
      · intro h
        obtain ⟨first, second, hforward, hbackward, hdirectional, -, -, hslot, hnext⟩ := h
        exact ⟨_, .setTextDirectional hdirectional hforward hbackward, hslot, hnext⟩
      · intro h
        obtain ⟨pair, hgrants, hslot, hnext⟩ := h
        cases hgrants with
        | setTextDirectional hdirectional hforward hbackward =>
            exact ⟨_, _, hforward, hbackward, hdirectional,
              Handle.admits_of_parse? hsound hforward, Handle.admits_of_parse? hsound hbackward,
              hslot, hnext⟩

/-- A call is granted one pair of values. -/
theorem Grants.unique {other : DirectedValue} (h : write.Grants pair) (h' : write.Grants other) :
    pair = other := by
  cases h with
  | set _ =>
      cases h'
      rfl
  | setDirectional _ _ _ =>
      cases h'
      rfl
  | setText h =>
      cases h' with
      | setText h' => rw [Option.some.inj (h.symm.trans h')]
  | setTextDirectional _ hforward hbackward =>
      cases h' with
      | setTextDirectional _ hforward' hbackward' =>
          rw [Option.some.inj (hforward.symm.trans hforward'),
            Option.some.inj (hbackward.symm.trans hbackward')]

/-- The values of a granted pair are admitted. -/
theorem Grants.admits (hsound : write.handle.definition.WellFormed) (h : write.Grants pair)
    (direction : Direction) : write.handle.admits (pair.get direction) = true := by
  cases h with
  | set h => cases direction <;> exact h
  | setDirectional _ hforward hbackward =>
      cases direction with
      | forward => exact hforward
      | backward => exact hbackward
  | setText h => cases direction <;> exact Handle.admits_of_parse? hsound h
  | setTextDirectional _ hforward hbackward =>
      cases direction with
      | forward => exact Handle.admits_of_parse? hsound hforward
      | backward => exact Handle.admits_of_parse? hsound hbackward

/-- Only a directional attribute is granted two different values. -/
theorem Grants.forward_eq_backward (h : write.Grants pair)
    (hplain : write.handle.directional = false) : pair.forward = pair.backward := by
  cases h with
  | set _ => rfl
  | setDirectional hdirectional => simp [handle, hdirectional] at hplain
  | setText _ => rfl
  | setTextDirectional hdirectional => simp [handle, hdirectional] at hplain

end Write

namespace EdgeRecord

variable {registry : Registry} {record : EdgeRecord} {write : Write} {pair : DirectedValue}

/-- **All that a call can do.**  It stores the granted pair in the slot of its attribute, or it
fails and leaves the record as it was. -/
theorem perform_cases (record : EdgeRecord) (hsound : write.handle.definition.WellFormed) :
    (∃ pair, write.Grants pair ∧ write.handle.slot < record.slots.length ∧
        record.perform write = (.ok (), record.put write.handle.slot pair)) ∨
      ∃ error, record.perform write = (.error error, record) := by
  rw [perform, Write.runOn_program]
  cases happly : write.apply record with
  | error error => exact Or.inr ⟨error, rfl⟩
  | ok next =>
      obtain ⟨pair, hgrants, hslot, rfl⟩ := (Write.apply_eq_ok_iff hsound).mp happly
      exact Or.inl ⟨pair, hgrants, hslot, rfl⟩

/-- A granted call on a record that has the slot succeeds. -/
theorem perform_of_grants (hsound : write.handle.definition.WellFormed)
    (hslot : write.handle.slot < record.slots.length) (h : write.Grants pair) :
    record.perform write = (.ok (), record.put write.handle.slot pair) := by
  rw [perform, Write.runOn_program, (Write.apply_eq_ok_iff hsound).mpr ⟨pair, h, hslot, rfl⟩]
  rfl

/-- No call changes the number of slots. -/
theorem length_perform (hsound : write.handle.definition.WellFormed) :
    (record.perform write).2.slots.length = record.slots.length := by
  rcases perform_cases record hsound with ⟨pair, -, -, h⟩ | ⟨error, h⟩
  · rw [h, length_put]
  · rw [h]

/-- Every attribute of the registry reads as an admitted value in both directions, and one without
directions as the same value. -/
structure Admitted (registry : Registry) (record : EdgeRecord) : Prop where
  admits : ∀ handle ∈ registry.handles, ∀ direction,
    handle.admits (record.get handle direction) = true
  undirected : ∀ handle ∈ registry.handles, handle.directional = false →
    record.get handle .forward = record.get handle .backward

/-- A new record is admitted: every default passes its own check. -/
theorem admitted_new (registry : Registry) : Admitted registry (new registry) where
  admits := by
    intro handle h direction
    rw [get_new h]
    exact Handle.admits_defaultValue (Registry.wellFormed_of_mem h)
  undirected := by
    intro handle h _
    rw [get_new h, get_new h]

/-- A call through a handle of the registry keeps its attributes admitted. -/
theorem Admitted.perform (h : Admitted registry record) (hwrite : write.handle ∈ registry.handles) :
    Admitted registry (record.perform write).2 := by
  have hsound := Registry.wellFormed_of_mem hwrite
  rcases perform_cases record hsound with ⟨pair, hgrants, hslot, hperform⟩ | ⟨_, hperform⟩
  · rw [hperform]
    constructor
    · intro handle hmem direction
      by_cases hsame : handle.slot = write.handle.slot
      · obtain rfl := Registry.eq_of_slot_eq hmem hwrite hsame
        rw [get_put_self pair hslot]
        exact hgrants.admits hsound direction
      · rw [get_put_of_ne pair hsame]
        exact h.admits handle hmem direction
    · intro handle hmem hplain
      by_cases hsame : handle.slot = write.handle.slot
      · obtain rfl := Registry.eq_of_slot_eq hmem hwrite hsame
        rw [get_put_self pair hslot, get_put_self pair hslot]
        exact hgrants.forward_eq_backward hplain
      · rw [get_put_of_ne pair hsame, get_put_of_ne pair hsame]
        exact h.undirected handle hmem hplain
  · rw [hperform]
    exact h

/-- A run of calls through handles of the registry keeps its attributes admitted. -/
theorem Admitted.performAll (h : Admitted registry record) {writes : List Write}
    (hwrites : ∀ write ∈ writes, write.handle ∈ registry.handles) :
    Admitted registry (record.performAll writes) := by
  induction writes generalizing record with
  | nil => exact h
  | cons write rest ih =>
      obtain ⟨hwrite, hrest⟩ := List.forall_mem_cons.mp hwrites
      exact ih (h.perform hwrite) hrest

/-- A run of calls keeps the number of slots. -/
theorem length_performAll {writes : List Write}
    (hwrites : ∀ write ∈ writes, write.handle ∈ registry.handles) :
    (record.performAll writes).slots.length = record.slots.length := by
  induction writes generalizing record with
  | nil => rfl
  | cons write rest ih =>
      obtain ⟨hwrite, hrest⟩ := List.forall_mem_cons.mp hwrites
      exact (ih hrest).trans (length_perform (Registry.wellFormed_of_mem hwrite))

/-- **Every run of calls is admitted, atomic and framed.**  After any run of calls through handles
of a registry on a new record of it, all attributes read as admitted values, those without
directions as the same value in both.  One more call does what the call that returns a new record
does; if it fails, the record stays as it was; it succeeds exactly if its arguments are granted, and
then its attribute reads as the granted pair and every other attribute as before. -/
theorem performAll_admitted_and_framed (registry : Registry) (writes : List Write)
    (hwrites : ∀ write ∈ writes, write.handle ∈ registry.handles) :
    let record := (new registry).performAll writes
    (∀ handle ∈ registry.handles, ∀ direction,
      handle.admits (record.get handle direction) = true) ∧
    (∀ handle ∈ registry.handles, handle.directional = false →
      record.get handle .forward = record.get handle .backward) ∧
    ∀ write : Write, write.handle ∈ registry.handles →
      record.perform write = settle record (write.apply record) ∧
      (∀ error next, record.perform write = (.error error, next) → next = record) ∧
      ((record.perform write).1 = .ok () ↔ ∃ pair, write.Grants pair) ∧
      ∀ pair, write.Grants pair →
        (∀ direction,
          (record.perform write).2.get write.handle direction = pair.get direction) ∧
        ∀ other ∈ registry.handles, other ≠ write.handle → ∀ direction,
          (record.perform write).2.get other direction = record.get other direction := by
  intro record
  have hrecord : Admitted registry record := (admitted_new registry).performAll hwrites
  refine ⟨hrecord.admits, hrecord.undirected, ?_⟩
  intro write hwrite
  have hsound := Registry.wellFormed_of_mem hwrite
  have hslot : write.handle.slot < record.slots.length := by
    rw [length_performAll hwrites, length_new]
    exact Registry.slot_lt_of_mem hwrite
  refine ⟨write.runOn_program record, ?_, ?_, ?_⟩
  · intro error next herror
    rcases perform_cases record hsound with ⟨pair, -, -, hperform⟩ | ⟨_, hperform⟩
    · simp [hperform] at herror
    · rw [hperform] at herror
      exact (congrArg Prod.snd herror).symm
  · constructor
    · intro hok
      rcases perform_cases record hsound with ⟨pair, hgrants, -, -⟩ | ⟨_, hperform⟩
      · exact ⟨pair, hgrants⟩
      · simp [hperform] at hok
    · intro h
      obtain ⟨pair, hgrants⟩ := h
      rw [perform_of_grants hsound hslot hgrants]
  · intro pair hgrants
    rw [perform_of_grants hsound hslot hgrants]
    refine ⟨get_put_self pair hslot, ?_⟩
    intro other hother hne
    exact get_put_of_ne pair fun hsame => hne (Registry.eq_of_slot_eq hother hwrite hsame)

/-- On the road attributes: two speed limits are granted, an unknown surface is not, and writing the
limits once more leaves the surface alone. -/
theorem performAll_admitted_and_framed_speed_limits :
    let speed : Handle := ⟨5, (Definition.continuous "max_speed").withDirections⟩
    let surface : Handle := ⟨3, .categorical "surface" Road.surfaceValues⟩
    let limits : Write := .setTextDirectional speed "110" " 50 "
    let refused : Write := .setText surface "MUD"
    let record := (new Road.registry).performAll [limits, refused]
    (∀ write ∈ [limits, refused], write.handle ∈ Road.registry.handles) ∧
      surface.admits (record.get surface .backward) = true ∧
      ¬ (record.perform refused).1 = .ok () ∧
      (record.perform limits).2.get speed .backward = .number (.ofInt 50) ∧
      (record.perform limits).2.get surface .forward = record.get surface .forward := by
  intro speed surface limits refused record
  have hspeed : speed ∈ Road.registry.handles := by decide
  have hsurface : surface ∈ Road.registry.handles := by decide
  have hwrites : ∀ write ∈ [limits, refused], write.handle ∈ Road.registry.handles := by
    simp [limits, refused, Write.handle, hspeed, hsurface]
  have hlimits : limits.Grants ⟨.number (.ofInt 110), .number (.ofInt 50)⟩ :=
    .setTextDirectional rfl (by decide +kernel) (by decide +kernel)
  have hunknown : surface.parse? "MUD" = none := by decide
  have hrefused : ¬ ∃ pair, (Write.setText surface "MUD").Grants pair := by
    intro h
    obtain ⟨pair, hgrants⟩ := h
    cases hgrants with
    | setText h => simp [hunknown] at h
  obtain ⟨hadmits, -, hcall⟩ :=
    performAll_admitted_and_framed Road.registry [limits, refused] hwrites
  obtain ⟨-, -, hsucceeds, -⟩ := hcall refused hsurface
  obtain ⟨-, -, -, hstored⟩ := hcall limits hspeed
  refine ⟨hwrites, hadmits surface hsurface .backward, fun hok => hrefused (hsucceeds.mp hok),
    (hstored _ hlimits).1 .backward, (hstored _ hlimits).2 surface hsurface (by decide) .forward⟩

end EdgeRecord

end RoutePriority
