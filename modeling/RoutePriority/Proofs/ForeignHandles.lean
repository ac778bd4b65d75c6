import RoutePriority.Proofs.RecordWrites

/-!
# Handles of other registries

A record knows the slots of the registry that it was made for and nothing else of it.  A handle of
another registry is therefore taken for whatever has its slot: `refuses_iff_size_le_slot` says that
the record refuses it exactly if its slot lies beyond the record, although no attribute of its name
is registered there in either case.  With a smaller slot it reads the value of an attribute of the
record, and a call through it overwrites that value; `not_refuses_of_shared_slot` is the smallest
such case.
-/

namespace RoutePriority

namespace EdgeRecord

variable {record : EdgeRecord} {handle : Handle}

/-- An admitted value is written to the slot of the handle, whichever registry this is from. -/
theorem set_of_admits {value : AttributeValue} (h : handle.admits value = true) :
    record.set handle value = record.write handle (.both value) := by
  rw [set, Handle.check_eq_ok_iff.mpr h]
  rfl

/-- Two admitted values are written to the slot of the handle, whichever registry this is from. -/
theorem setDirectional_of_admits {pair : DirectedValue} (hdirectional : handle.directional = true)
    (hforward : handle.admits pair.forward = true)
    (hbackward : handle.admits pair.backward = true) :
    record.setDirectional handle pair = record.write handle pair := by
  rw [setDirectional, hdirectional, Handle.check_eq_ok_iff.mpr hforward,
    Handle.check_eq_ok_iff.mpr hbackward]
  rfl

end EdgeRecord

/-- A call whose arguments are granted comes down to writing the granted pair. -/
theorem Write.apply_of_grants {record : EdgeRecord} {write : Write} {pair : DirectedValue}
    (hsound : write.handle.definition.WellFormed) (h : write.Grants pair) :
    write.apply record = record.write write.handle pair := by
  cases h with
  | set h => exact EdgeRecord.set_of_admits h
  | setDirectional hdirectional hforward hbackward =>
      exact EdgeRecord.setDirectional_of_admits hdirectional hforward hbackward
  | setText h =>
      rw [apply, EdgeRecord.setText, Handle.parse_eq_ok_iff.mpr h]
      exact EdgeRecord.set_of_admits (Handle.admits_of_parse? hsound h)
  | setTextDirectional hdirectional hforward hbackward =>
      rw [apply, EdgeRecord.setTextDirectional, Handle.parse_eq_ok_iff.mpr hforward,
        Handle.parse_eq_ok_iff.mpr hbackward]
      exact EdgeRecord.setDirectional_of_admits hdirectional
        (Handle.admits_of_parse? hsound hforward) (Handle.admits_of_parse? hsound hbackward)

namespace EdgeRecord

/-- The record refuses an attribute: calls with granted arguments fail because it is not
registered, they leave the record as it was, and the attribute reads as its default. -/
def Refuses (record : EdgeRecord) (handle : Handle) : Prop :=
  (∀ write pair, write.handle = handle → write.Grants pair →
    record.perform write = (.error (.unregistered handle.name), record)) ∧
  ∀ direction, record.get handle direction = handle.defaultValue

variable {record : EdgeRecord} {handle : Handle}

/-- Beyond its slots a record refuses everything. -/
theorem refuses_of_length_le_slot (hsound : handle.definition.WellFormed)
    (h : record.slots.length ≤ handle.slot) : record.Refuses handle := by
  constructor
  · intro write pair hwrite hgrants
    subst hwrite
    rw [perform, Write.runOn_program, Write.apply_of_grants hsound hgrants, EdgeRecord.write,
      if_neg (Nat.not_lt.mpr h)]
    rfl
  · intro direction
    rw [get, List.getElem?_eq_none h]

/-- What has a slot in the record can be written, so it is not refused. -/
theorem not_refuses_of_slot_lt (hsound : handle.definition.WellFormed)
    (h : handle.slot < record.slots.length) : ¬ record.Refuses handle := by
  intro hrefuses
  have hgrants : (Write.set handle handle.defaultValue).Grants (.both handle.defaultValue) :=
    .set (Handle.admits_defaultValue hsound)
  have hrefused := hrefuses.1 (.set handle handle.defaultValue) _ rfl hgrants
  cases hrefused.symm.trans (perform_of_grants hsound h hgrants)

/-- Two handles with one slot read the same value if the record has the slot. -/
theorem get_eq_get_of_slot_eq {other : Handle} (hslot : other.slot = handle.slot)
    (h : handle.slot < record.slots.length) (direction : Direction) :
    record.get other direction = record.get handle direction := by
  rw [get, get, hslot, List.getElem?_eq_getElem h]

/-- **A record refuses the handles beyond its slots and no others.**  A record was made for one
registry and written through its handles; a handle comes from another registry, and its attribute
is not registered in the first.  The record refuses the handle exactly if it has no slot for it.  If
an attribute of the record has the slot, it is another one, and the handle reads its values; every
granted call through the handle succeeds and overwrites them, and it leaves the rest alone. -/
theorem refuses_iff_size_le_slot {own other : Registry} {writes : List Write}
    (hwrites : ∀ write ∈ writes, write.handle ∈ own.handles) {handle : Handle}
    (h : handle ∈ other.handles) (hforeign : own.resolve? handle.name = none) :
    let record := (new own).performAll writes
    (record.Refuses handle ↔ own.size ≤ handle.slot) ∧
    ∀ owner ∈ own.handles, owner.slot = handle.slot →
      owner.name ≠ handle.name ∧
      (∀ direction, record.get handle direction = record.get owner direction) ∧
      ∀ write pair, write.handle = handle → write.Grants pair →
        (record.perform write).1 = .ok () ∧
        (∀ direction,
          (record.perform write).2.get owner direction = pair.get direction) ∧
        ∀ bystander ∈ own.handles, bystander ≠ owner → ∀ direction,
          (record.perform write).2.get bystander direction = record.get bystander direction := by
  intro record
  have hsound := Registry.wellFormed_of_mem h
  have hlength : record.slots.length = own.size := by
    rw [length_performAll hwrites, length_new, Registry.length_handles]
    rfl
  refine ⟨⟨fun hrefuses => ?_, fun hslot => ?_⟩, ?_⟩
  · by_contra hslot
    exact not_refuses_of_slot_lt hsound (by omega) hrefuses
  · exact refuses_of_length_le_slot hsound (by omega)
  · intro owner howner hslot
    have hlt : owner.slot < record.slots.length := by
      rw [hlength, Registry.size, ← Registry.length_handles]
      exact Registry.slot_lt_of_mem howner
    refine ⟨fun hname => ?_, get_eq_get_of_slot_eq hslot.symm hlt, ?_⟩
    · have hresolve := Registry.resolve?_eq_some_iff.mpr ⟨howner, hname⟩
      rw [hforeign] at hresolve
      cases hresolve
    · intro write pair hwrite hgrants
      subst hwrite
      rw [perform_of_grants hsound (hslot ▸ hlt) hgrants, ← hslot]
      refine ⟨rfl, get_put_self pair hlt, ?_⟩
      intro bystander hbystander hne
      exact get_put_of_ne pair fun hsame => hne (Registry.eq_of_slot_eq hbystander howner hsame)

/-- A record of lengths, and two handles of a registry of widths and heights.  The width has the
slot of the length and writes it; the height has none and is refused. -/
theorem refuses_iff_size_le_slot_measures :
    let length : Handle := ⟨0, .continuous "max_length"⟩
    let width : Handle := ⟨0, .continuous "max_width"⟩
    let height : Handle := ⟨1, .continuous "max_height"⟩
    let own : Registry := ⟨[length.definition], by decide, by decide⟩
    let other : Registry := ⟨[width.definition, height.definition], by decide, by decide⟩
    let writes : List Write := [.setText length "12"]
    let record := (new own).performAll writes
    (∀ write ∈ writes, write.handle ∈ own.handles) ∧
      width ∈ other.handles ∧ own.resolve? width.name = none ∧
      height ∈ other.handles ∧ own.resolve? height.name = none ∧
      record.Refuses height ∧ ¬ record.Refuses width ∧
      record.get width .forward = record.get length .forward ∧
      (record.perform (.setText width "2")).2.get length .forward = .number (.ofInt 2) := by
  intro length width height own other writes record
  have hlength : length ∈ own.handles := by decide
  have hwidth : width ∈ other.handles := by decide
  have hheight : height ∈ other.handles := by decide
  have hwrites : ∀ write ∈ writes, write.handle ∈ own.handles := by
    simp [writes, Write.handle, hlength]
  have hnoWidth : own.resolve? width.name = none := by decide
  have hnoHeight : own.resolve? height.name = none := by decide
  obtain ⟨hrefuses, -⟩ := refuses_iff_size_le_slot hwrites hheight hnoHeight
  obtain ⟨hrefuses', hshared⟩ := refuses_iff_size_le_slot hwrites hwidth hnoWidth
  obtain ⟨-, hget, hcall⟩ := hshared length hlength rfl
  have hgrants : (Write.setText width "2").Grants (.both (.number (.ofInt 2))) :=
    .setText (by decide +kernel)
  obtain ⟨-, hstored, -⟩ := hcall (.setText width "2") _ rfl hgrants
  exact ⟨hwrites, hwidth, hnoWidth, hheight, hnoHeight, hrefuses.mpr (by decide),
    fun h => absurd (hrefuses'.mp h) (by decide), hget .forward, hstored .forward⟩

/-- **A foreign handle is not always refused.**  The attribute is registered in the other registry
only, and yet a granted call through its handle succeeds and changes the value of the length. -/
theorem not_refuses_of_shared_slot :
    let length : Handle := ⟨0, .continuous "max_length"⟩
    let width : Handle := ⟨0, .continuous "max_width"⟩
    let own : Registry := ⟨[length.definition], by decide, by decide⟩
    let other : Registry := ⟨[width.definition], by decide, by decide⟩
    let record := new own
    let write : Write := .set width (.number .one)
    width ∈ other.handles ∧ own.resolve? width.name = none ∧
      write.Grants (.both (.number .one)) ∧ ¬ record.Refuses width ∧
      (record.perform write).1 = .ok () ∧
      record.get length .forward = .number .zero ∧
      (record.perform write).2.get length .forward = .number .one := by
  intro length width own other record write
  have hwidth : width ∈ other.handles := by decide
  have hgrants : write.Grants (.both (.number .one)) := .set (by decide)
  have hslot : width.slot < record.slots.length := by decide
  have hsound := Registry.wellFormed_of_mem hwidth
  have hperform : record.perform write = (.ok (), record.put 0 (.both (.number .one))) :=
    perform_of_grants hsound hslot hgrants
  refine ⟨hwidth, by decide, hgrants, not_refuses_of_slot_lt hsound hslot, ?_, by decide, ?_⟩
  · rw [hperform]
  · rw [hperform]
    decide

end EdgeRecord

end RoutePriority
