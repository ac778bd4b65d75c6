import RoutePriority.Attribute.Road
import RoutePriority.Proofs.Compilations

/-!
# Priorities lie in the unit interval

Whatever an edge store returns, the factors that a compiled model multiplies come from its checked
rules, or are one.  So the priority is a product in the unit interval, and what the products of that
interval are known for carries over: one only if all factors are one, zero as soon as one is.
-/

namespace RoutePriority

/-- Only the number one equals one. -/
theorem Binary64.same_one_iff {x : Binary64} : x.same .one = true ↔ x = .one := by
  have hpositive : 0 < (Magnitude.one : Nat) := by decide
  cases x with
  | nan => simp [same, place?, one]
  | signed negative m =>
      rw [same, place?_one, one, signed.injEq, Fin.ext_iff]
      generalize (Magnitude.one : Nat) = rankOne at hpositive
      cases negative with
      | false =>
          rw [place?_positive]
          simp
      | true =>
          rw [place?_negative]
          simp only [decide_eq_true_eq, Bool.true_eq_false, false_and, iff_false]
          omega

/-- The priority is the running product of the factors of all tables. -/
theorem Model.evaluate_eq_foldl (model : Model) (edge : EdgeStore) (direction : Direction) :
    model.evaluate edge direction =
      (model.tables.map (·.factorOf edge direction)).foldl (· * ·) .one := by
  rw [List.foldl_map]
  rfl

/-- A table contributes one of its factors or the neutral one. -/
theorem CompiledTable.inUnitInterval_factorFor {table : CompiledTable}
    (h : ∀ rule ∈ table.rules, rule.factor.InUnitInterval) (value : AttributeValue) :
    (table.factorFor value).InUnitInterval := by
  unfold factorFor
  cases hfound : table.rules.find? (·.matcher.accepts value) with
  | none => exact Binary64.inUnitInterval_one
  | some rule => exact h rule (List.mem_of_find?_eq_some hfound)

/-- **Bounded priority.**  A compiled model rates every edge, also one whose store returns values of
the wrong kind, unknown ordinals or no numbers, with a number from zero to one.  It is one exactly
if every table contributes one, and zero if the first matching factor of some table is zero. -/
theorem evaluate_bounded {specification : Specification} {registry : Registry} {model : Model}
    (hcompile : Model.compile specification registry = .ok model) (edge : EdgeStore)
    (direction : Direction) :
    let priority := model.evaluate edge direction
    (priority.isNan = false ∧ Binary64.zero.le priority = true ∧ priority.le .one = true) ∧
    (priority.same .one = true ↔
      ∀ table ∈ model.tables, (table.factorOf edge direction).same .one = true) ∧
    ((∃ table ∈ model.tables, ∃ rule,
        table.rules.find? (·.matcher.accepts (table.valueOf edge direction)) = some rule ∧
          rule.factor.same .zero = true) →
      priority.same .zero = true) := by
  intro priority
  have hfactors : ∀ x ∈ model.tables.map (·.factorOf edge direction), x.InUnitInterval := by
    intro x hx
    obtain ⟨table, htable, rfl⟩ := List.mem_map.mp hx
    exact table.inUnitInterval_factorFor
      (fun rule hrule => Model.inUnitInterval_factor hcompile htable hrule) _
  have hone := Binary64.inUnitInterval_one
  have hpriority : priority.InUnitInterval := by
    rw [show priority = _ from model.evaluate_eq_foldl edge direction]
    exact hone.foldl_mul hfactors
  refine ⟨⟨hpriority.isNan_eq_false, hpriority⟩, ?_, ?_⟩
  · simp only [Binary64.same_one_iff]
    rw [show priority = _ from model.evaluate_eq_foldl edge direction,
      hone.foldl_mul_eq_one_iff hfactors, List.forall_mem_map]
    exact and_iff_right rfl
  · intro hexists
    obtain ⟨table, htable, rule, hfound, hzero⟩ := hexists
    rw [show priority = _ from model.evaluate_eq_foldl edge direction]
    refine hone.foldl_mul_same_zero hfactors (Or.inr ⟨_, List.mem_map_of_mem htable, ?_⟩)
    rw [CompiledTable.factorOf, CompiledTable.factorFor, hfound]
    exact hzero

/-- A zero with a minus sign is a factor, and it makes the priority of an edge zero that has no
number for its speed limit. -/
theorem evaluate_bounded_negative_zero :
    let speed : Handle := ⟨5, (Definition.continuous "max_speed").withDirections⟩
    let surface : Handle := ⟨3, .categorical "surface" Road.surfaceValues⟩
    let negativeZero : Binary64 := .signed true .zero
    let specification : Specification :=
      ⟨[("max_speed", ⟨[("<=50", .text "0.5"), ("*", .number .one)], by decide⟩),
        ("surface", ⟨[("GRAVEL", .text " -0 ")], by decide⟩)], by decide⟩
    let model : Model :=
      ⟨[⟨speed, [⟨.relational .lessOrEqual (.ofInt 50), .compare .lessOrEqual (.ofInt 50),
            .signed false ⟨1022 * Nat.pow 2 52, by decide⟩⟩, ⟨.wildcard, .any, .one⟩]⟩,
        ⟨surface, [⟨.literal "GRAVEL", .category 9, negativeZero⟩]⟩]⟩
    let edge : EdgeStore := fun handle _ =>
      if handle = surface then .category 9 else .number .nan
    Model.compile specification Road.registry = .ok model ∧
      (model.evaluate edge .forward).same .zero = true := by
  intro speed surface negativeZero specification model edge
  have hcompile : Model.compile specification Road.registry = .ok model := by
    decide +kernel
  refine ⟨hcompile, (evaluate_bounded hcompile edge .forward).2.2 ?_⟩
  exact ⟨⟨surface, [⟨.literal "GRAVEL", .category 9, negativeZero⟩]⟩, by simp [model],
    ⟨.literal "GRAVEL", .category 9, negativeZero⟩, by decide, by decide⟩

end RoutePriority
