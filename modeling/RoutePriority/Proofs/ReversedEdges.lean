import RoutePriority.Proofs.BoundedPriority
import RoutePriority.Proofs.KindSafety

/-!
# Reversing an edge

An edge that is stored the other way round has its forward and backward values exchanged
(`EdgeRecord.reverse`).  Writing it takes the same calls with the arguments of the two directions
exchanged (`Write.reverse`).  Such a call is granted the exchanged pair exactly if the call was
granted the pair, so both runs of calls fail in the same places and keep mirroring each other
(`EdgeRecord.performAll_reverse`), although a refused pair may be refused for another reason.

A compiled table reads an attribute without directions forward in any case.  Its two values agree
after every run of calls, so reversing the record and reversing the direction of travel come to the
same (`evaluate_performAll_reverse`).
-/

namespace RoutePriority

theorem DirectedValue.swap_swap (pair : DirectedValue) : pair.swap.swap = pair := rfl

/-- A swapped pair has the value of the other direction. -/
theorem DirectedValue.get_swap (pair : DirectedValue) (direction : Direction) :
    pair.swap.get direction = pair.get direction.reverse := by
  cases direction <;> rfl

namespace Write

/-- The call with what it is given for the two directions exchanged. -/
def reverse : Write → Write
  | set handle value => set handle value
  | setDirectional handle pair => setDirectional handle pair.swap
  | setText handle text => setText handle text
  | setTextDirectional handle forward backward => setTextDirectional handle backward forward

variable {write : Write} {pair : DirectedValue}

theorem reverse_reverse (write : Write) : write.reverse.reverse = write := by
  cases write <;> rfl

theorem handle_reverse (write : Write) : write.reverse.handle = write.handle := by
  cases write <;> rfl

/-- An exchanged call is granted the exchanged pair. -/
theorem Grants.reverse (h : write.Grants pair) : write.reverse.Grants pair.swap := by
  cases h with
  | set h => exact .set h
  | setDirectional hdirectional hforward hbackward =>
      exact .setDirectional hdirectional hbackward hforward
  | setText h => exact .setText h
  | setTextDirectional hdirectional hforward hbackward =>
      exact .setTextDirectional hdirectional hbackward hforward

/-- An exchanged call is granted the swapped pair. -/
theorem grants_reverse_iff : write.reverse.Grants pair ↔ write.Grants pair.swap := by
  constructor
  · intro h
    have hback := h.reverse
    rwa [reverse_reverse] at hback
  · intro h
    have hback := h.reverse
    rwa [DirectedValue.swap_swap] at hback

end Write

namespace EdgeRecord

/-- The record of the edge that is stored the other way round. -/
def reverse (record : EdgeRecord) : EdgeRecord := ⟨record.slots.map DirectedValue.swap⟩

theorem length_reverse (record : EdgeRecord) :
    record.reverse.slots.length = record.slots.length :=
  List.length_map _

/-- The reversed record takes the swapped pair. -/
theorem reverse_put (record : EdgeRecord) (slot : Nat) (pair : DirectedValue) :
    (record.put slot pair).reverse = record.reverse.put slot pair.swap := by
  rw [put, put, reverse, reverse, List.map_set]

/-- A new record has equal values in both directions. -/
theorem reverse_new (registry : Registry) : (new registry).reverse = new registry := by
  rw [new, reverse, List.map_map]
  rfl

/-- The reversed record reads against the direction; what it has no slot for has one default. -/
theorem get_reverse (record : EdgeRecord) (handle : Handle) (direction : Direction) :
    record.reverse.get handle direction = record.get handle direction.reverse := by
  rw [get, get, reverse, List.getElem?_map]
  cases record.slots[handle.slot]? with
  | none => rfl
  | some pair => exact pair.get_swap direction

variable {registry : Registry} {write : Write} (record : EdgeRecord)

/-- One step: an exchanged call on the reversed record succeeds exactly if the call does on the
record, and leaves the reverse of what the call leaves. -/
theorem perform_reverse (hsound : write.handle.definition.WellFormed) :
    ((record.reverse.perform write.reverse).1 = .ok () ↔ (record.perform write).1 = .ok ()) ∧
      (record.reverse.perform write.reverse).2 = (record.perform write).2.reverse := by
  have hsound' : write.reverse.handle.definition.WellFormed := by
    rwa [Write.handle_reverse]
  rcases perform_cases record hsound with ⟨pair, hgrants, hslot, hperform⟩ | ⟨_, hperform⟩
  · have hslot' : write.reverse.handle.slot < record.reverse.slots.length := by
      rwa [Write.handle_reverse, length_reverse]
    rw [hperform, perform_of_grants hsound' hslot' hgrants.reverse, reverse_put,
      Write.handle_reverse]
    exact ⟨Iff.rfl, rfl⟩
  · rcases perform_cases record.reverse hsound' with ⟨pair, hgrants, hslot, _⟩ | ⟨_, hperform'⟩
    · rw [Write.handle_reverse, length_reverse] at hslot
      have hok := perform_of_grants hsound hslot (Write.grants_reverse_iff.mp hgrants)
      cases hok.symm.trans hperform
    · rw [hperform, hperform']
      exact ⟨by simp, rfl⟩

/-- A run of exchanged calls on the reversed record leaves the reverse of what the run leaves. -/
theorem performAll_reverse {writes : List Write}
    (hwrites : ∀ write ∈ writes, write.handle ∈ registry.handles) :
    record.reverse.performAll (writes.map Write.reverse) = (record.performAll writes).reverse := by
  induction writes generalizing record with
  | nil => rfl
  | cons write rest ih =>
      obtain ⟨hwrite, hrest⟩ := List.forall_mem_cons.mp hwrites
      have hstep := (perform_reverse record (Registry.wellFormed_of_mem hwrite)).2
      calc record.reverse.performAll ((write :: rest).map Write.reverse)
          = (record.reverse.perform write.reverse).2.performAll (rest.map Write.reverse) := rfl
        _ = (record.perform write).2.reverse.performAll (rest.map Write.reverse) := by rw [hstep]
        _ = ((record.perform write).2.performAll rest).reverse := ih _ hrest

end EdgeRecord

namespace CompiledTable

variable {registry : Registry} {record : EdgeRecord} {table : CompiledTable}

/-- A table sees the same value of the reversed record as of the record against the direction. -/
theorem valueOf_reverse (hrecord : record.Admitted registry)
    (htable : table.handle ∈ registry.handles) (direction : Direction) :
    table.valueOf record.reverse.store direction =
      table.valueOf record.store direction.reverse := by
  rw [valueOf, valueOf, EdgeRecord.store, EdgeRecord.store, EdgeRecord.get_reverse]
  cases hdirectional : table.handle.directional with
  | true => rfl
  | false => exact (hrecord.undirected table.handle htable hdirectional).symm

/-- A table of an attribute without directions sees one value of any edge. -/
theorem valueOf_of_undirected (h : table.handle.directional = false) (edge : EdgeStore)
    (direction : Direction) : table.valueOf edge direction = edge table.handle .forward := by
  rw [valueOf, h]
  rfl

end CompiledTable

/-- Two edges are rated alike if every table gives them the same factor. -/
theorem Model.evaluate_congr {model : Model} {edge other : EdgeStore}
    {direction direction' : Direction}
    (h : ∀ table ∈ model.tables,
      table.factorOf edge direction = table.factorOf other direction') :
    model.evaluate edge direction = model.evaluate other direction' := by
  rw [evaluate_eq_foldl, evaluate_eq_foldl, List.map_congr_left h]

/-- **Reversing an edge swaps its two priorities.**  A new record of a registry is written by a run
of calls, failing ones among them, and another one by the same run with the arguments of the two
directions exchanged.  A model of the registry rates the second in each direction as it rates the
first in the other.  If all its attributes are without directions, it rates any edge alike in both
directions, whatever the store returns. -/
theorem evaluate_performAll_reverse {specification : Specification} {registry : Registry}
    {model : Model} (hcompile : Model.compile specification registry = .ok model)
    {writes : List Write} (hwrites : ∀ write ∈ writes, write.handle ∈ registry.handles) :
    let record := (EdgeRecord.new registry).performAll writes
    let reversed := (EdgeRecord.new registry).performAll (writes.map Write.reverse)
    (∀ direction,
      model.evaluate reversed.store direction = model.evaluate record.store direction.reverse) ∧
    model.evaluateBoth reversed.store = (model.evaluateBoth record.store).swap ∧
    ((∀ table ∈ model.tables, table.handle.directional = false) →
      ∀ edge : EdgeStore, (model.evaluateBoth edge).1 = (model.evaluateBoth edge).2) := by
  intro record reversed
  have hreversed : reversed = record.reverse := by
    have hrun := EdgeRecord.performAll_reverse (EdgeRecord.new registry) hwrites
    rwa [EdgeRecord.reverse_new] at hrun
  have hrecord : record.Admitted registry :=
    (EdgeRecord.admitted_new registry).performAll hwrites
  have hevaluate : ∀ direction,
      model.evaluate reversed.store direction =
        model.evaluate record.store direction.reverse := by
    intro direction
    rw [hreversed]
    apply Model.evaluate_congr
    intro table htable
    have hhandle := Model.mem_handles_of_mem hcompile htable
    rw [CompiledTable.factorOf, CompiledTable.factorOf,
      CompiledTable.valueOf_reverse hrecord hhandle]
  refine ⟨hevaluate, Prod.ext (hevaluate .forward) (hevaluate .backward), ?_⟩
  intro hundirected edge
  apply Model.evaluate_congr
  intro table htable
  rw [CompiledTable.factorOf, CompiledTable.factorOf,
    CompiledTable.valueOf_of_undirected (hundirected table htable),
    CompiledTable.valueOf_of_undirected (hundirected table htable)]

/-- Limits of 110 and 50, exchanged for the other edge; what is refused in one run is refused in the
other.  The slow direction is the backward one of the first edge and the forward one of the second.
The surface is the same on the way back. -/
theorem evaluate_performAll_reverse_speed_limits :
    let speed : Handle := ⟨5, (Definition.continuous "max_speed").withDirections⟩
    let surface : Handle := ⟨3, .categorical "surface" Road.surfaceValues⟩
    let half : Binary64 := .signed false ⟨1022 * Nat.pow 2 52, by decide⟩
    let slow : Specification := ⟨[("max_speed", ⟨[("<=50", .number half)], by decide⟩)], by decide⟩
    let gravel : Specification :=
      ⟨[("surface", ⟨[("GRAVEL", .number half)], by decide⟩)], by decide⟩
    let writes : List Write := [.setTextDirectional speed "110" " 50 ",
      .setDirectional speed ⟨.number .one, .number .nan⟩,
      .setTextDirectional surface "PAVED" "GRAVEL"]
    let record := (EdgeRecord.new Road.registry).performAll writes
    let reversed := (EdgeRecord.new Road.registry).performAll (writes.map Write.reverse)
    ∃ model plain, Model.compile slow Road.registry = .ok model ∧
      Model.compile gravel Road.registry = .ok plain ∧
      (∀ write ∈ writes, write.handle ∈ Road.registry.handles) ∧
      (∀ table ∈ plain.tables, table.handle.directional = false) ∧
      model.evaluateBoth record.store = (.one, half) ∧
      model.evaluateBoth reversed.store = (half, .one) ∧
      ∀ edge : EdgeStore, (plain.evaluateBoth edge).1 = (plain.evaluateBoth edge).2 := by
  intro speed surface half slow gravel writes record reversed
  have hspeed : speed ∈ Road.registry.handles := by decide
  have hsurface : surface ∈ Road.registry.handles := by decide
  have hwrites : ∀ write ∈ writes, write.handle ∈ Road.registry.handles := by
    simp [writes, Write.handle, hspeed, hsurface]
  have hslow : Model.compile slow Road.registry = .ok ⟨[⟨speed,
      [⟨.relational .lessOrEqual (.ofInt 50), .compare .lessOrEqual (.ofInt 50), half⟩]⟩]⟩ := by
    decide +kernel
  have hgravel : Model.compile gravel Road.registry =
      .ok ⟨[⟨surface, [⟨.literal "GRAVEL", .category 9, half⟩]⟩]⟩ := by
    decide +kernel
  have hrated : Model.evaluateBoth ⟨[⟨speed, [⟨.relational .lessOrEqual (.ofInt 50),
      .compare .lessOrEqual (.ofInt 50), half⟩]⟩]⟩ record.store = (.one, half) := by
    decide +kernel
  have hplain : ∀ table ∈ ([⟨surface, [⟨.literal "GRAVEL", .category 9, half⟩]⟩] :
      List CompiledTable), table.handle.directional = false := by
    decide
  obtain ⟨-, hswapped, -⟩ := evaluate_performAll_reverse hslow hwrites
  obtain ⟨-, -, halike⟩ := evaluate_performAll_reverse hgravel hwrites
  exact ⟨_, _, hslow, hgravel, hwrites, hplain, hrated, by rw [hswapped, hrated]; rfl,
    halike hplain⟩

end RoutePriority
