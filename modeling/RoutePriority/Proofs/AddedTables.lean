import RoutePriority.Attribute.Road
import RoutePriority.Proofs.BoundedPriority

/-!
# Adding a table to a specification

A table for an attribute that a specification does not declare yet goes to its end.  Compiling goes
through the entries in their order, so the errors of the specification come first, then those of the
new table, and otherwise the compiled table follows those that were there
(`Model.compile_insert`).

Evaluating starts with one, which changes no number that it is multiplied with, not even the sign of
a zero.  So the new table alone has its factor as priority, and the priorities of the specification
and of the new table are multiplied to that of both, without a second rounding
(`compile_insert_multiplies`).
-/

namespace RoutePriority

namespace Binary64

theorem mul_comm (x y : Binary64) : x * y = y * x := by
  cases x with
  | nan => cases y <;> rfl
  | signed s a =>
      cases y with
      | nan => rfl
      | signed t b =>
          change mul (signed s a) (signed t b) = mul (signed t b) (signed s a)
          have hsign : (s != t) = (t != s) := Bool.xor_comm s t
          have htop : (a = .infinity ∨ b = .infinity) ↔ (b = .infinity ∨ a = .infinity) := or_comm
          have hzero : (a = .zero ∨ b = .zero) ↔ (b = .zero ∨ a = .zero) := or_comm
          simp only [mul, hsign, htop, hzero, Magnitude.mul_comm a b]

/-- One is neutral on the other side too. -/
theorem one_mul (x : Binary64) : one * x = x := by
  rw [mul_comm, mul_one]

end Binary64

namespace Model

/-- One more table multiplies the priority by its factor. -/
theorem evaluate_concat (tables : List CompiledTable) (added : CompiledTable) (edge : EdgeStore)
    (direction : Direction) :
    evaluate ⟨tables ++ [added]⟩ edge direction =
      evaluate ⟨tables⟩ edge direction * added.factorOf edge direction :=
  List.foldl_concat _ _ _ _

/-- A single table has its factor as priority. -/
theorem evaluate_singleton (table : CompiledTable) (edge : EdgeStore) (direction : Direction) :
    evaluate ⟨[table]⟩ edge direction = table.factorOf edge direction :=
  Binary64.one_mul _

/-- A table alone is compiled by compiling the table. -/
theorem compile_insert_empty (name : String) (table : RuleTable) (registry : Registry) :
    compile (OrderedMap.empty.insert name table) registry =
      (registry.compileTable name table).map fun compiled => ⟨[compiled]⟩ := by
  have hentries : (OrderedMap.empty.insert name table).entries = [(name, table)] := rfl
  rw [compile_eq_mapM, hentries, List.mapM_cons, List.mapM_nil]
  cases registry.compileTable name table <;> rfl

/-- A table of a new name is compiled after the rest of the specification. -/
theorem compile_insert {specification : Specification} {name : String}
    (hnew : specification.get? name = none) (table : RuleTable) (registry : Registry) :
    compile (specification.insert name table) registry =
      (do
        let model ← compile specification registry
        let compiled ← registry.compileTable name table
        return ⟨model.tables ++ [compiled]⟩) := by
  have hfresh := (Entries.find?_eq_none_iff name specification.entries).mp hnew
  have hentries : (specification.insert name table).entries =
      specification.entries ++ [(name, table)] := Entries.put_of_notMem hfresh
  rw [compile_eq_mapM, compile_eq_mapM, hentries, List.mapM_append, List.mapM_cons, List.mapM_nil]
  cases specification.entries.mapM fun entry => registry.compileTable entry.1 entry.2 with
  | error error => rfl
  | ok tables => cases registry.compileTable name table <;> rfl

end Model

/-- **Adding a table multiplies.**  A table is added under a name that a specification does not
declare.  An error of the specification stays the error, else an error of the table alone is the
error, and else the compiled table follows those of the specification.  Every edge is then rated
with the product of the two priorities, whatever its store returns. -/
theorem compile_insert_multiplies {specification : Specification} {name : String}
    (hnew : specification.get? name = none) (table : RuleTable) (registry : Registry) :
    let alone : Specification := OrderedMap.empty.insert name table
    let extended := specification.insert name table
    (∀ error, Model.compile specification registry = .error error →
      Model.compile extended registry = .error error) ∧
    ∀ model, Model.compile specification registry = .ok model →
      (∀ error, Model.compile alone registry = .error error →
        Model.compile extended registry = .error error) ∧
      ∀ added, Model.compile alone registry = .ok added →
        ∃ compiled, added.tables = [compiled] ∧
          Model.compile extended registry = .ok ⟨model.tables ++ [compiled]⟩ ∧
          ∀ edge direction,
            Model.evaluate ⟨model.tables ++ [compiled]⟩ edge direction =
              model.evaluate edge direction * added.evaluate edge direction := by
  intro alone extended
  refine ⟨?_, ?_⟩
  · intro error herror
    rw [Model.compile_insert hnew, herror]
    rfl
  · intro model hmodel
    rw [Model.compile_insert hnew, Model.compile_insert_empty, hmodel]
    cases registry.compileTable name table with
    | error found =>
        refine ⟨fun error herror => ?_, fun added hadded => ?_⟩
        · cases herror
          rfl
        · cases hadded
    | ok compiled =>
        refine ⟨fun error herror => ?_, fun added hadded => ?_⟩
        · cases herror
        · cases hadded
          refine ⟨compiled, rfl, rfl, fun edge direction => ?_⟩
          rw [Model.evaluate_concat, Model.evaluate_singleton]

/-- A table for the surface joins one for the speed limit.  Gravel has the factor zero with a minus
sign, and the product keeps the sign.  A factor of two is refused in the new table, and an unknown
attribute in the old specification is reported instead of it. -/
theorem compile_insert_multiplies_surface :
    let speed : Handle := ⟨5, (Definition.continuous "max_speed").withDirections⟩
    let surface : Handle := ⟨3, .categorical "surface" Road.surfaceValues⟩
    let half : Binary64 := .signed false ⟨1022 * Nat.pow 2 52, by decide⟩
    let two : Binary64 := .ofInt 2
    let negativeZero : Binary64 := .signed true .zero
    let limits : Specification :=
      ⟨[("max_speed", ⟨[("<=50", .number half)], by decide⟩)], by decide⟩
    let lanes : Specification := ⟨[("lanes", ⟨[], by decide⟩)], by decide⟩
    let gravel : RuleTable := ⟨[("GRAVEL", .text " -0 ")], by decide⟩
    let doubled : RuleTable := ⟨[("GRAVEL", .number two)], by decide⟩
    let model : Model := ⟨[⟨speed, [⟨.relational .lessOrEqual (.ofInt 50),
      .compare .lessOrEqual (.ofInt 50), half⟩]⟩]⟩
    let added : Model := ⟨[⟨surface, [⟨.literal "GRAVEL", .category 9, negativeZero⟩]⟩]⟩
    let edge : EdgeStore := fun handle _ =>
      if handle = surface then .category 9 else .number (.ofInt 30)
    limits.get? "surface" = none ∧ lanes.get? "surface" = none ∧
      Model.compile limits Road.registry = .ok model ∧
      Model.compile (OrderedMap.empty.insert "surface" gravel) Road.registry = .ok added ∧
      Model.compile (limits.insert "surface" gravel) Road.registry =
        .ok ⟨model.tables ++ added.tables⟩ ∧
      Model.evaluate ⟨model.tables ++ added.tables⟩ edge .forward =
        model.evaluate edge .forward * added.evaluate edge .forward ∧
      Model.evaluate ⟨model.tables ++ added.tables⟩ edge .forward = negativeZero ∧
      Model.compile (limits.insert "surface" doubled) Road.registry =
        .error (.outOfRangeFactor "surface" two) ∧
      Model.compile (lanes.insert "surface" doubled) Road.registry =
        .error (.unknownAttribute "lanes") := by
  intro speed surface half two negativeZero limits lanes gravel doubled model added edge
  have hlimits : limits.get? "surface" = none := by decide
  have hlanes : lanes.get? "surface" = none := by decide
  have hmodel : Model.compile limits Road.registry = .ok model := by decide +kernel
  have hadded : Model.compile (OrderedMap.empty.insert "surface" gravel) Road.registry =
      .ok added := by
    decide +kernel
  have hdoubled : Model.compile (OrderedMap.empty.insert "surface" doubled) Road.registry =
      .error (.outOfRangeFactor "surface" two) := by
    decide +kernel
  have hunknown : Model.compile lanes Road.registry = .error (.unknownAttribute "lanes") := by
    decide +kernel
  obtain ⟨compiled, htables, hextended, hproduct⟩ :=
    ((compile_insert_multiplies hlimits gravel Road.registry).2 model hmodel).2 added hadded
  rw [← htables] at hextended hproduct
  exact ⟨hlimits, hlanes, hmodel, hadded, hextended, hproduct edge .forward, by decide +kernel,
    ((compile_insert_multiplies hlimits doubled Road.registry).2 model hmodel).1 _ hdoubled,
    (compile_insert_multiplies hlanes doubled Road.registry).1 _ hunknown⟩

end RoutePriority
