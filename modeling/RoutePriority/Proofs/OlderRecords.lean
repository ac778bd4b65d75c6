import RoutePriority.Proofs.GrownRegistries
import RoutePriority.Proofs.ReversedEdges

/-!
# Records that are older than their registry

A record is made with a slot for each attribute that is registered at the time.  What a call stores,
or what is wrong with its arguments, does not depend on the record (`Write.apply_eq_bind`), so a
record with further slots at its end answers the calls on the old attributes alike and keeps the
further slots as they are: `perform_extend` is one call and `performAll_extend` is a run.

Without a slot an attribute reads as its default, and in the further slots the attributes have
their defaults.  So a record that is older than its registry is a fresh one in which the late
attributes are never written.
-/

namespace RoutePriority

/-! ## What a call stores -/

namespace Write

/-- The pair that a call stores, or what is wrong with its arguments.  The record has no say in
it. -/
def checked : Write → Except AttributeError DirectedValue
  | set handle value => do
    handle.check value
    return .both value
  | setDirectional handle pair => do
    unless handle.directional do throw (.notDirectional handle.name)
    handle.check pair.forward
    handle.check pair.backward
    return pair
  | setText handle text => do
    let value ← handle.parse text
    handle.check value
    return .both value
  | setTextDirectional handle forward backward => do
    let forward ← handle.parse forward
    let backward ← handle.parse backward
    unless handle.directional do throw (.notDirectional handle.name)
    handle.check forward
    handle.check backward
    return ⟨forward, backward⟩

/-- A call with one value checks it and writes it. -/
theorem set_eq_bind (record : EdgeRecord) (handle : Handle) (value : AttributeValue) :
    record.set handle value = (set handle value).checked >>= record.write handle := by
  rw [EdgeRecord.set, checked]
  cases handle.check value <;> rfl

/-- A call with two values checks both and writes them. -/
theorem setDirectional_eq_bind (record : EdgeRecord) (handle : Handle) (pair : DirectedValue) :
    record.setDirectional handle pair =
      (setDirectional handle pair).checked >>= record.write handle := by
  rw [EdgeRecord.setDirectional, checked]
  cases handle.directional with
  | false => rfl
  | true =>
      cases handle.check pair.forward with
      | error error => rfl
      | ok _ => cases handle.check pair.backward <;> rfl

/-- Every call is a check that does not look at the record, and then a write. -/
theorem apply_eq_bind (record : EdgeRecord) (write : Write) :
    write.apply record = write.checked >>= record.write write.handle := by
  cases write with
  | set handle value => exact set_eq_bind record handle value
  | setDirectional handle pair => exact setDirectional_eq_bind record handle pair
  | setText handle text =>
      simp only [apply, EdgeRecord.setText, checked]
      cases handle.parse text with
      | error error => rfl
      | ok value => exact set_eq_bind record handle value
  | setTextDirectional handle forward backward =>
      simp only [apply, EdgeRecord.setTextDirectional, checked]
      cases handle.parse forward with
      | error error => rfl
      | ok first =>
          cases handle.parse backward with
          | error error => rfl
          | ok second => exact setDirectional_eq_bind record handle ⟨first, second⟩

end Write

namespace EdgeRecord

variable {record : EdgeRecord} {write : Write}

/-- In place, the record changes if both succeed. -/
theorem perform_eq_settle (record : EdgeRecord) (write : Write) :
    record.perform write = settle record (write.checked >>= record.write write.handle) := by
  rw [perform, Write.runOn_program, Write.apply_eq_bind]

/-! A call has three outcomes: a fault of the arguments comes before a missing slot. -/

/-- A call that its check refuses changes nothing. -/
theorem perform_of_error {error : AttributeError} (h : write.checked = .error error) :
    record.perform write = (.error error, record) := by
  rw [perform_eq_settle, h]
  rfl

/-- A checked call is carried out if the record has its slot. -/
theorem perform_of_slot_lt {pair : DirectedValue} (h : write.checked = .ok pair)
    (hslot : write.handle.slot < record.slots.length) :
    record.perform write = (.ok (), record.put write.handle.slot pair) := by
  have hwrite : record.write write.handle pair = .ok (record.put write.handle.slot pair) :=
    write_eq_ok_iff.mpr ⟨hslot, rfl⟩
  rw [perform_eq_settle, h]
  exact congrArg (settle record) hwrite

/-- A checked call is refused if the record is older than its slot. -/
theorem perform_of_length_le {pair : DirectedValue} (h : write.checked = .ok pair)
    (hslot : record.slots.length ≤ write.handle.slot) :
    record.perform write = (.error (.unregistered write.handle.name), record) := by
  have hwrite : record.write write.handle pair = .error (.unregistered write.handle.name) :=
    if_neg (Nat.not_lt.mpr hslot)
  rw [perform_eq_settle, h]
  exact congrArg (settle record) hwrite

/-! ## Further slots -/

/-- The record with slots for further attributes at its end, all of them at their defaults. -/
def extend (record : EdgeRecord) (late : List Definition) : EdgeRecord :=
  ⟨record.slots ++ late.map fun definition => .both (.default definition.kind)⟩

/-- A new record of the grown registry is the older one with defaults behind it. -/
theorem new_eq_extend {base registry : Registry} {late : List Definition}
    (h : registry.definitions = base.definitions ++ late) :
    new registry = (new base).extend late := by
  have hslots : ∀ registry : Registry, (new registry).slots =
      registry.definitions.map fun definition => .both (.default definition.kind) := by
    intro registry
    rw [← registry.map_definition_handles, List.map_map]
    rfl
  have hsplit := hslots registry
  rw [h, List.map_append, ← hslots base] at hsplit
  exact congrArg EdgeRecord.mk hsplit

/-- Defaults behind a record do not get in the way of its slots. -/
theorem put_extend (late : List Definition) {slot : Nat} (h : slot < record.slots.length)
    (pair : DirectedValue) :
    (record.extend late).put slot pair = (record.put slot pair).extend late := by
  rw [put, put, extend, extend, List.set_append_left _ _ h]

/-- One step: a call on an attribute of the record answers as it does with further slots, and leaves
the same record with these slots. -/
theorem perform_extend (late : List Definition) (hslot : write.handle.slot < record.slots.length) :
    (record.extend late).perform write =
      ((record.perform write).1, (record.perform write).2.extend late) := by
  have hslot' : write.handle.slot < (record.extend late).slots.length := by
    rw [extend, List.length_append]
    omega
  cases hchecked : write.checked with
  | error error => rw [perform_of_error hchecked, perform_of_error hchecked]
  | ok pair =>
      rw [perform_of_slot_lt hchecked hslot', perform_of_slot_lt hchecked hslot,
        put_extend late hslot]

/-- A call on an attribute beyond the slots of the record leaves it as it was. -/
theorem perform_beyond (hslot : record.slots.length ≤ write.handle.slot) :
    (record.perform write).2 = record := by
  cases hchecked : write.checked with
  | error error => rw [perform_of_error hchecked]
  | ok pair => rw [perform_of_length_le hchecked hslot]

/-- A record without the slot of a call refuses it where another record has the slot: with the same
error, or for want of the slot. -/
theorem perform_beyond_of_answer {other : EdgeRecord}
    (hbeyond : record.slots.length ≤ write.handle.slot)
    (hslot : write.handle.slot < other.slots.length) :
    let answer := (other.perform write).1
    (answer = .ok () →
      record.perform write = (.error (.unregistered write.handle.name), record)) ∧
    ∀ error, answer = .error error → record.perform write = (.error error, record) := by
  intro answer
  cases hchecked : write.checked with
  | error error => simp [answer, perform_of_error hchecked]
  | ok pair =>
      simp [answer, perform_of_slot_lt hchecked hslot, perform_of_length_le hchecked hbeyond]

/-- A run of calls on the record is the run of those on its own attributes with further slots: a
call beyond the slots is left out on one side and changes nothing on the other. -/
theorem performAll_extend {registry : Registry} (record : EdgeRecord) (late : List Definition)
    {writes : List Write} (hwrites : ∀ write ∈ writes, write.handle ∈ registry.handles) :
    (record.extend late).performAll
        (writes.filter fun write => write.handle.slot < record.slots.length) =
      (record.performAll writes).extend late := by
  induction writes generalizing record with
  | nil => rfl
  | cons write rest ih =>
      obtain ⟨hwrite, hwrites⟩ := List.forall_mem_cons.mp hwrites
      have hlength : (record.perform write).2.slots.length = record.slots.length :=
        length_perform (Registry.wellFormed_of_mem hwrite)
      have hrest := ih (record.perform write).2 hwrites
      rw [hlength] at hrest
      have hrun : record.performAll (write :: rest) =
          (record.perform write).2.performAll rest := rfl
      by_cases hslot : write.handle.slot < record.slots.length
      · rw [List.filter_cons_of_pos (by simpa using hslot), performAll, List.foldl_cons,
          perform_extend late hslot, hrun]
        exact hrest
      · rw [perform_beyond (Nat.not_lt.mp hslot)] at hrest hrun
        rw [List.filter_cons_of_neg (by simpa using hslot), hrun]
        exact hrest

/-- An attribute of the grown registry reads alike with a slot at its default and without one. -/
theorem get_extend {base registry : Registry} {late : List Definition}
    (hgrown : registry.definitions = base.definitions ++ late)
    (hlength : record.slots.length = base.definitions.length) {handle : Handle}
    (h : handle ∈ registry.handles) (direction : Direction) :
    (record.extend late).get handle direction = record.get handle direction := by
  rcases Nat.lt_or_ge handle.slot record.slots.length with hslot | hslot
  · rw [get, get, extend, List.getElem?_append_left hslot]
  · have hlate : late[handle.slot - record.slots.length]? = some handle.definition := by
      rw [← Registry.mem_handles_iff.mp h, hgrown, hlength]
      exact (List.getElem?_append_right (hlength ▸ hslot)).symm
    have hvalue : (record.extend late).slots[handle.slot]? = some (.both handle.defaultValue) := by
      rw [extend, List.getElem?_append_right hslot, List.getElem?_map, hlate]
      rfl
    rw [get, get, hvalue, List.getElem?_eq_none hslot]
    cases direction <;> rfl

/-! ## Runs on an older and on a fresh record -/

/-- The fresh record of the grown registry ends up as the older one with the late slots. -/
theorem performAll_new_eq_extend {base registry : Registry} {late : List Definition}
    (hgrown : registry.definitions = base.definitions ++ late) {writes : List Write}
    (hwrites : ∀ write ∈ writes, write.handle ∈ registry.handles) :
    (new registry).performAll (writes.filter (·.handle ∈ base.handles)) =
      ((new base).performAll writes).extend late := by
  have hkept : writes.filter (·.handle ∈ base.handles) =
      writes.filter fun write => write.handle.slot < (new base).slots.length := by
    refine List.filter_congr fun write hwrite => decide_eq_decide.mpr ?_
    rw [length_new, Registry.length_handles]
    exact Registry.mem_handles_iff_slot_lt ⟨late, hgrown.symm⟩ (hwrites write hwrite)
  rw [hkept, new_eq_extend hgrown]
  exact performAll_extend (new base) late hwrites

/-- **An older record is like a fresh one.**  A run of calls with handles of a grown registry leaves
a record of the old registry like the record that the calls on the old attributes make of a fresh
one.  A further call on an old attribute has the same answer on both.  One on a late attribute
leaves the older record as it is and fails there: with the error that a record of the grown registry
gives, or for want of a slot where that one accepts the call.  All handles read alike on both, and
every model compiled against the grown registry gives both the same priorities. -/
theorem performAll_like_fresh (base : Registry) (later : List Definition) {writes : List Write}
    (hwrites : ∀ write ∈ writes, write.handle ∈ (base.grow later).handles) :
    let registry := base.grow later
    let older := (new base).performAll writes
    let fresh := (new registry).performAll (writes.filter (·.handle ∈ base.handles))
    (∀ write : Write, write.handle ∈ base.handles →
      (older.perform write).1 = (fresh.perform write).1) ∧
    (∀ write : Write, write.handle ∈ registry.handles → write.handle ∉ base.handles →
      ∀ others : List Write, (∀ other ∈ others, other.handle ∈ registry.handles) →
        let answer := (((new registry).performAll others).perform write).1
        (answer = .ok () →
          older.perform write = (.error (.unregistered write.handle.name), older)) ∧
        ∀ error, answer = .error error → older.perform write = (.error error, older)) ∧
    (∀ handle ∈ registry.handles, ∀ direction,
      older.get handle direction = fresh.get handle direction) ∧
    ∀ specification model, Model.compile specification registry = .ok model →
      ∀ direction, model.evaluate older.store direction = model.evaluate fresh.store direction := by
  intro registry older fresh
  obtain ⟨late, hlate⟩ : base.definitions <+: registry.definitions :=
    base.definitions_prefix_grow later
  have hfresh : fresh = older.extend late := performAll_new_eq_extend hlate.symm hwrites
  have hlength : older.slots.length = base.definitions.length := by
    rw [length_performAll hwrites, length_new, Registry.length_handles]
  have hget : ∀ handle ∈ registry.handles, ∀ direction,
      older.get handle direction = fresh.get handle direction := by
    intro handle hhandle direction
    rw [hfresh]
    exact (get_extend hlate.symm hlength hhandle direction).symm
  refine ⟨fun write hwrite => ?_, fun write hwrite hlater others hothers => ?_, hget,
    fun specification model hcompile direction => ?_⟩
  · have hslot : write.handle.slot < older.slots.length := by
      rw [hlength, ← Registry.length_handles]
      exact Registry.slot_lt_of_mem hwrite
    rw [hfresh, perform_extend late hslot]
  · have hbeyond : older.slots.length ≤ write.handle.slot := by
      rw [Registry.mem_handles_iff_slot_lt ⟨late, hlate⟩ hwrite] at hlater
      omega
    have hslot : write.handle.slot < ((new registry).performAll others).slots.length := by
      rw [length_performAll hothers, length_new]
      exact Registry.slot_lt_of_mem hwrite
    exact perform_beyond_of_answer hbeyond hslot
  · apply Model.evaluate_congr
    intro table htable
    have hhandle := Model.mem_handles_of_mem hcompile htable
    have hvalue : table.valueOf older.store direction = table.valueOf fresh.store direction :=
      hget table.handle hhandle _
    rw [CompiledTable.factorOf, CompiledTable.factorOf, hvalue]

/-- The surface is registered after the record was made.  The record refuses gravel for want of a
slot and mud because no surface is called so; the speed is written on both records, and a model
that asks for both attributes gives them the same priority. -/
theorem performAll_like_fresh_late_surface :
    let speed : Definition := (Definition.continuous "max_speed").withDirections
    let surface : Definition := .categorical "surface" ["PAVED", "GRAVEL"]
    let base : Registry := ⟨[speed], by decide, by decide⟩
    let registry := base.grow [surface]
    let half : Binary64 := .signed false ⟨1022 * Nat.pow 2 52, by decide⟩
    let specification : Specification :=
      ⟨[("max_speed", ⟨[("<=50", .text "0.5")], by decide⟩),
        ("surface", ⟨[("GRAVEL", .number .zero)], by decide⟩)], by decide⟩
    let writes : List Write :=
      [.setTextDirectional ⟨0, speed⟩ "110" " 50 ", .setText ⟨1, surface⟩ "GRAVEL"]
    let older := (new base).performAll writes
    let fresh := (new registry).performAll (writes.filter (·.handle ∈ base.handles))
    (∀ write ∈ writes, write.handle ∈ registry.handles) ∧
    older.slots.length = 1 ∧ fresh.slots.length = 2 ∧
    older.perform (.setText ⟨1, surface⟩ "GRAVEL") = (.error (.unregistered "surface"), older) ∧
    older.perform (.setText ⟨1, surface⟩ "MUD") = (.error (.unknownValue "surface" "MUD"), older) ∧
    ∃ model, Model.compile specification registry = .ok model ∧
      model.evaluate fresh.store .backward = half := by
  intro speed surface base registry half specification writes older fresh
  let grown : Registry := ⟨[speed, surface], by decide, by decide⟩
  have hregister : base.register surface = .ok grown :=
    Registry.register_eq_ok_iff.mpr ⟨by decide, by decide, rfl⟩
  have hgrown : registry = grown := by
    change base.afterRegister surface = grown
    rw [Registry.afterRegister, hregister]
  have hspeed : (⟨0, speed⟩ : Handle) ∈ registry.handles := by
    rw [hgrown]
    decide
  have hsurface : (⟨1, surface⟩ : Handle) ∈ registry.handles := by
    rw [hgrown]
    decide
  have hlater : (⟨1, surface⟩ : Handle) ∉ base.handles := by decide
  have hwrites : ∀ write ∈ writes, write.handle ∈ registry.handles := by
    simp [writes, Write.handle, hspeed, hsurface]
  obtain ⟨-, hlate, -, hevaluate⟩ := performAll_like_fresh base [surface] hwrites
  have hgravel : ((new registry).perform (.setText ⟨1, surface⟩ "GRAVEL")).1 = .ok () := by
    rw [hgrown]
    rfl
  have hmud : ((new registry).perform (.setText ⟨1, surface⟩ "MUD")).1 =
      .error (.unknownValue "surface" "MUD") := by
    rw [hgrown]
    rfl
  have hcompile : Model.compile specification grown = .ok
      ⟨[⟨⟨0, speed⟩, [⟨.relational .lessOrEqual (.ofInt 50), .compare .lessOrEqual (.ofInt 50),
            half⟩]⟩,
        ⟨⟨1, surface⟩, [⟨.literal "GRAVEL", .category 1, .zero⟩]⟩]⟩ := by
    decide +kernel
  rw [← hgrown] at hcompile
  refine ⟨hwrites, ?_, ?_, ?_, ?_, _, hcompile, ?_⟩
  · rw [length_performAll hwrites, length_new]
    rfl
  · rw [length_performAll fun write h => hwrites write (List.mem_of_mem_filter h), length_new,
      hgrown]
    rfl
  · exact (hlate (.setText ⟨1, surface⟩ "GRAVEL") hsurface hlater [] (by simp)).1 hgravel
  · exact (hlate (.setText ⟨1, surface⟩ "MUD") hsurface hlater [] (by simp)).2 _ hmud
  · rw [← hevaluate specification _ hcompile]
    decide +kernel

end EdgeRecord

end RoutePriority
