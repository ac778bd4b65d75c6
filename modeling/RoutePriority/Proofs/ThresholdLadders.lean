import RoutePriority.Proofs.RecordWrites
import RoutePriority.Proofs.StricterProfiles

/-!
# Threshold ladders

A table whose rules hold below their thresholds, with the lower factors declared first, never gives
a larger value a lower factor, in whatever order the thresholds come: what passes such a rule still
passes it when it becomes smaller, so a smaller value is decided by the same rule or by an earlier
one.  With rules that hold above their thresholds it is the other way round.

`factorFor_le_of_accepts` says this for any two values of which the one passes whatever the other
passes.  The other tables of a model look at other attributes, and rounded products grow with their
factors, so priorities move as the factor does (`worthAtMost_of_accepts`).
-/

namespace RoutePriority

namespace Binary64

variable {x y z : Binary64}

/-- Numbers compare by their places. -/
theorem le_iff : x.le y = true ↔ ∃ i j, x.place? = some i ∧ y.place? = some j ∧ i ≤ j := by
  rw [le]
  cases x.place? <;> cases y.place? <;> simp

/-- Numbers compare strictly by their places. -/
theorem lt_iff : x.lt y = true ↔ ∃ i j, x.place? = some i ∧ y.place? = some j ∧ i < j := by
  rw [lt]
  cases x.place? <;> cases y.place? <;> simp

theorem le_trans (hxy : x.le y = true) (hyz : y.le z = true) : x.le z = true := by
  obtain ⟨i, j, hx, hy, hij⟩ := le_iff.mp hxy
  obtain ⟨_, k, hy', hz, hjk⟩ := le_iff.mp hyz
  cases hy.symm.trans hy'
  exact le_iff.mpr ⟨i, k, hx, hz, hij.trans hjk⟩

theorem lt_of_le_of_lt (hxy : x.le y = true) (hyz : y.lt z = true) : x.lt z = true := by
  obtain ⟨i, j, hx, hy, hij⟩ := le_iff.mp hxy
  obtain ⟨_, k, hy', hz, hjk⟩ := lt_iff.mp hyz
  cases hy.symm.trans hy'
  exact lt_iff.mpr ⟨i, k, hx, hz, hij.trans_lt hjk⟩

theorem lt_of_lt_of_le (hxy : x.lt y = true) (hyz : y.le z = true) : x.lt z = true := by
  obtain ⟨i, j, hx, hy, hij⟩ := lt_iff.mp hxy
  obtain ⟨_, k, hy', hz, hjk⟩ := le_iff.mp hyz
  cases hy.symm.trans hy'
  exact lt_iff.mpr ⟨i, k, hx, hz, hij.trans_le hjk⟩

end Binary64

/-! ## Sides of a threshold -/

/-- A side of a threshold. -/
inductive Side where
  | below
  | above
  deriving DecidableEq

/-- Whether the first value is the second one or lies further out on the side. -/
def Side.further : Side → Binary64 → Binary64 → Bool
  | below, x, y => x.le y
  | above, x, y => y.le x

/-- The side of its threshold on which a comparison holds. -/
def Comparison.side : Comparison → Side
  | less | lessOrEqual => .below
  | greater | greaterOrEqual => .above

/-- The pattern is the wildcard, or a comparison that holds on the side. -/
inductive Pattern.HoldsOn (side : Side) : Pattern → Prop
  | wildcard : HoldsOn side .wildcard
  | relational {comparison : Comparison} {threshold : Binary64} (h : comparison.side = side) :
      HoldsOn side (.relational comparison threshold)

/-- A comparison that holds of a value holds further out. -/
theorem Comparison.holds_of_further {comparison : Comparison} {x y threshold : Binary64}
    (hfurther : comparison.side.further x y = true) (h : comparison.holds y threshold = true) :
    comparison.holds x threshold = true := by
  cases comparison with
  | less => exact Binary64.lt_of_le_of_lt hfurther h
  | lessOrEqual => exact Binary64.le_trans hfurther h
  | greater => exact Binary64.lt_of_lt_of_le h hfurther
  | greaterOrEqual => exact Binary64.le_trans h hfurther

/-- What passes the test of such a pattern passes it further out. -/
theorem Handle.accepts_of_further {handle : Handle} {pattern : Pattern} {matcher : Matcher}
    {side : Side} {x y : Binary64} (hmatcher : handle.matcher pattern = .ok matcher)
    (hholds : pattern.HoldsOn side) (hfurther : side.further x y = true)
    (h : matcher.accepts (.number y) = true) : matcher.accepts (.number x) = true := by
  cases hholds with
  | wildcard =>
      cases hmatcher
      rfl
  | relational hside =>
      subst hside
      rw [matcher_relational] at hmatcher
      split at hmatcher
      · cases hmatcher
        exact Comparison.holds_of_further hfurther h
      · cases hmatcher

/-- The test of a compiled rule is the test of its pattern. -/
theorem Model.matcher_pattern {specification : Specification} {registry : Registry} {model : Model}
    (hcompile : Model.compile specification registry = .ok model) {table : CompiledTable}
    (htable : table ∈ model.tables) {rule : Rule} (hrule : rule ∈ table.rules) :
    table.handle.matcher rule.pattern = .ok rule.matcher := by
  obtain ⟨_, _, _, _, _, hcompiled⟩ := Model.exists_compileRule hcompile htable hrule
  have hread := (Handle.compileRule_eq_ok_iff.mp hcompiled).1
  exact (Handle.readPattern_eq_ok_iff.mp hread).2

/-! ## Tables with rising factors -/

namespace CompiledTable

/-- The first rule decides, or the rules after it. -/
theorem factorFor_cons (handle : Handle) (rule : Rule) (rest : List Rule) (value : AttributeValue) :
    factorFor ⟨handle, rule :: rest⟩ value =
      if rule.matcher.accepts value = true then rule.factor
      else factorFor ⟨handle, rest⟩ value := by
  rw [factorFor, List.find?_cons]
  cases rule.matcher.accepts value <;> rfl

/-- What is below the factors of all rules is below the factors of all values. -/
theorem le_factorFor {table : CompiledTable} {x : Binary64} (hx : x.InUnitInterval)
    (h : ∀ rule ∈ table.rules, x.le rule.factor = true) (value : AttributeValue) :
    x.le (table.factorFor value) = true := by
  unfold factorFor
  cases hfound : table.rules.find? (·.matcher.accepts value) with
  | none => exact hx.2
  | some rule => exact h rule (List.mem_of_find?_eq_some hfound)

/-- A value that passes whatever another one passes is decided no later, and so its factor is no
larger if the factors rise. -/
theorem factorFor_le_of_accepts {table : CompiledTable} {value other : AttributeValue}
    (hunit : ∀ rule ∈ table.rules, rule.factor.InUnitInterval)
    (hrising : table.rules.Pairwise fun earlier later => earlier.factor.le later.factor = true)
    (haccepts : ∀ rule ∈ table.rules,
      rule.matcher.accepts other = true → rule.matcher.accepts value = true) :
    (table.factorFor value).le (table.factorFor other) = true := by
  obtain ⟨handle, rules⟩ := table
  induction rules with
  | nil => exact Binary64.inUnitInterval_one.le_refl
  | cons rule rest ih =>
      obtain ⟨hrule, hrest⟩ := List.forall_mem_cons.mp hunit
      obtain ⟨hlater, hrising⟩ := List.pairwise_cons.mp hrising
      obtain ⟨hfirst, haccepts⟩ := List.forall_mem_cons.mp haccepts
      rw [factorFor_cons]
      by_cases hvalue : rule.matcher.accepts value = true
      · have hleast : ∀ later ∈ rule :: rest, rule.factor.le later.factor = true :=
          List.forall_mem_cons.mpr ⟨hrule.le_refl, hlater⟩
        rw [if_pos hvalue]
        exact le_factorFor hrule hleast other
      · rw [if_neg hvalue, factorFor_cons, if_neg (mt hfirst hvalue)]
        exact ih hrest hrising haccepts

end CompiledTable

/-! ## Priorities -/

/-- Two edges have the same values except for one attribute. -/
def Registry.AgreeExcept (registry : Registry) (handle : Handle) (edge edge' : EdgeStore) : Prop :=
  ∀ other ∈ registry.handles, other ≠ handle →
    ∀ direction, edge other direction = edge' other direction

/-- Writing an attribute of a record changes no other attribute. -/
theorem Registry.agreeExcept_put {registry : Registry} {handle : Handle}
    (h : handle ∈ registry.handles) (record : EdgeRecord) (pair pair' : DirectedValue) :
    registry.AgreeExcept handle (record.put handle.slot pair).get
      (record.put handle.slot pair').get := by
  intro other hother hne direction
  have hslot : other.slot ≠ handle.slot := fun hsame => hne (eq_of_slot_eq hother h hsame)
  rw [EdgeRecord.get_put_of_ne pair hslot, EdgeRecord.get_put_of_ne pair' hslot]

/-- The table gives a value no larger factor than another one, and an edge that has it is rated no
higher than an edge that has the other value and agrees with it on all other attributes. -/
structure Model.WorthAtMost (model : Model) (registry : Registry) (table : CompiledTable)
    (value other : AttributeValue) : Prop where
  factor : (table.factorFor value).le (table.factorFor other) = true
  priority : ∀ edge edge' direction, registry.AgreeExcept table.handle edge edge' →
    table.valueOf edge direction = value → table.valueOf edge' direction = other →
      (model.evaluate edge direction).le (model.evaluate edge' direction) = true

namespace Model

variable {specification : Specification} {registry : Registry} {model : Model}
  {table other : CompiledTable}

/-- A model has one table for an attribute. -/
theorem eq_of_handle_eq (hcompile : compile specification registry = .ok model)
    (htable : table ∈ model.tables) (hother : other ∈ model.tables)
    (h : other.handle = table.handle) : other = table := by
  have htables := compile_eq_ok_iff.mp hcompile
  obtain ⟨entry, hentry, hcompiled⟩ := exists_of_mem_right htables htable
  obtain ⟨entry', hentry', hcompiled'⟩ := exists_of_mem_right htables hother
  have hname := (Registry.resolve?_eq_some_iff.mp
    (Registry.compileTable_eq_ok_iff.mp hcompiled).1).2
  have hname' := (Registry.resolve?_eq_some_iff.mp
    (Registry.compileTable_eq_ok_iff.mp hcompiled').1).2
  have hsame : entry' = entry := by
    refine List.inj_on_of_nodup_map specification.nodup_names hentry' hentry ?_
    rw [← hname, ← hname', h]
  rw [hsame, hcompiled] at hcompiled'
  exact (Except.ok.inj hcompiled').symm

/-- A value that passes whatever another one passes is worth no more, if the factors rise. -/
theorem worthAtMost_of_accepts (hcompile : compile specification registry = .ok model)
    (htable : table ∈ model.tables)
    (hrising : table.rules.Pairwise fun earlier later => earlier.factor.le later.factor = true)
    {value value' : AttributeValue} (haccepts : ∀ rule ∈ table.rules,
      rule.matcher.accepts value' = true → rule.matcher.accepts value = true) :
    model.WorthAtMost registry table value value' := by
  have hfactor := CompiledTable.factorFor_le_of_accepts
    (fun rule hrule => inUnitInterval_factor hcompile htable hrule) hrising haccepts
  refine ⟨hfactor, fun edge edge' direction hagree hvalue hvalue' => ?_⟩
  have hunit := inUnitInterval_factorOf hcompile edge direction
  have hfactors : List.Forall₂ (fun x y : Binary64 => x.le y = true)
      (model.tables.map (·.factorOf edge direction))
      (model.tables.map (·.factorOf edge' direction)) := by
    rw [List.forall₂_map_left_iff, List.forall₂_map_right_iff, List.forall₂_same]
    intro other hother
    by_cases hhandle : other.handle = table.handle
    · rw [eq_of_handle_eq hcompile htable hother hhandle, CompiledTable.factorOf,
        CompiledTable.factorOf, hvalue, hvalue']
      exact hfactor
    · have hsame : other.factorOf edge' direction = other.factorOf edge direction := by
        rw [CompiledTable.factorOf, CompiledTable.factorOf, CompiledTable.valueOf,
          CompiledTable.valueOf,
          hagree _ (mem_handles_of_mem hcompile hother) hhandle]
      rw [hsame]
      exact (hunit _ (List.mem_map_of_mem hother)).le_refl
  rw [evaluate_eq_foldl, evaluate_eq_foldl]
  exact Binary64.foldl_mul_mono hunit (inUnitInterval_factorOf hcompile edge' direction) hfactors

end Model

/-- **Threshold ladders are monotone.**  A table of a compiled model has only rules that hold below
their thresholds or for all values, and their factors never decrease in the order of declaration.
Then a larger number has no smaller factor, infinities included, and raising this value of an edge
never lowers a priority.  With rules that hold above their thresholds or for all values it never
raises one. -/
theorem threshold_ladders_monotone {specification : Specification} {registry : Registry}
    {model : Model} (hcompile : Model.compile specification registry = .ok model)
    {table : CompiledTable} (htable : table ∈ model.tables)
    (hrising : table.rules.Pairwise fun earlier later => earlier.factor.le later.factor = true)
    {x y : Binary64} (hxy : x.le y = true) :
    ((∀ rule ∈ table.rules, rule.pattern.HoldsOn .below) →
      model.WorthAtMost registry table (.number x) (.number y)) ∧
    ((∀ rule ∈ table.rules, rule.pattern.HoldsOn .above) →
      model.WorthAtMost registry table (.number y) (.number x)) := by
  have hside : ∀ side : Side, ∀ a b, side.further a b = true →
      (∀ rule ∈ table.rules, rule.pattern.HoldsOn side) →
      model.WorthAtMost registry table (.number a) (.number b) := by
    intro side a b hfurther hholds
    refine Model.worthAtMost_of_accepts hcompile htable hrising fun rule hrule => ?_
    exact Handle.accepts_of_further (Model.matcher_pattern hcompile htable hrule)
      (hholds rule hrule) hfurther
  exact ⟨hside .below x y hxy, hside .above y x hxy⟩

/-- Speeds up to 50 have a quarter, those below 30 and all others a half, and weights from 10 have a
quarter and all others a half.  Raising the speed in a record from 40 to 80 raises the priority from
an eighth to a quarter, and raising the weight from 3 to 20 lowers it from an eighth to a sixteenth.
-/
theorem threshold_ladders_monotone_road :
    let speed : Handle := ⟨5, (Definition.continuous "max_speed").withDirections⟩
    let weight : Handle := ⟨6, .continuous "max_weight"⟩
    let half : Binary64 := .signed false ⟨1022 * Nat.pow 2 52, by decide⟩
    let quarter : Binary64 := .signed false ⟨1021 * Nat.pow 2 52, by decide⟩
    let eighth : Binary64 := .signed false ⟨1020 * Nat.pow 2 52, by decide⟩
    let sixteenth : Binary64 := .signed false ⟨1019 * Nat.pow 2 52, by decide⟩
    let specification : Specification :=
      ⟨[("max_speed",
          ⟨[("<=50", .number quarter), ("<30", .number half), ("*", .number half)], by decide⟩),
        ("max_weight", ⟨[(">=10", .number quarter), ("*", .number half)], by decide⟩)], by decide⟩
    let speeds : CompiledTable :=
      ⟨speed, [⟨.relational .lessOrEqual (.ofInt 50), .compare .lessOrEqual (.ofInt 50), quarter⟩,
        ⟨.relational .less (.ofInt 30), .compare .less (.ofInt 30), half⟩,
        ⟨.wildcard, .any, half⟩]⟩
    let weights : CompiledTable :=
      ⟨weight, [⟨.relational .greaterOrEqual (.ofInt 10), .compare .greaterOrEqual (.ofInt 10),
          quarter⟩, ⟨.wildcard, .any, half⟩]⟩
    let model : Model := ⟨[speeds, weights]⟩
    let road := EdgeRecord.new Road.registry
    let withSpeed (n : Int) : EdgeStore := (road.put speed.slot (.both (.number (.ofInt n)))).get
    let withWeight (n : Int) : EdgeStore := (road.put weight.slot (.both (.number (.ofInt n)))).get
    Model.compile specification Road.registry = .ok model ∧
      speeds ∈ model.tables ∧ weights ∈ model.tables ∧
      (speeds.rules.Pairwise fun earlier later => earlier.factor.le later.factor = true) ∧
      (weights.rules.Pairwise fun earlier later => earlier.factor.le later.factor = true) ∧
      (∀ rule ∈ speeds.rules, rule.pattern.HoldsOn .below) ∧
      (∀ rule ∈ weights.rules, rule.pattern.HoldsOn .above) ∧
      (Binary64.ofInt 40).le (.ofInt 80) = true ∧ (Binary64.ofInt 3).le (.ofInt 20) = true ∧
      (model.evaluate (withSpeed 40) .backward).le (model.evaluate (withSpeed 80) .backward) =
        true ∧
      (model.evaluate (withWeight 20) .forward).le (model.evaluate (withWeight 3) .forward) =
        true ∧
      model.evaluate (withSpeed 40) .backward = eighth ∧
      model.evaluate (withSpeed 80) .backward = quarter ∧
      model.evaluate (withWeight 20) .forward = sixteenth ∧
      model.evaluate (withWeight 3) .forward = eighth := by
  intro speed weight half quarter eighth sixteenth specification speeds weights model road withSpeed
    withWeight
  have hcompile : Model.compile specification Road.registry = .ok model := by decide +kernel
  have hspeeds : speeds ∈ model.tables := List.mem_cons_self
  have hweights : weights ∈ model.tables := List.mem_cons_of_mem _ List.mem_cons_self
  have hrising : speeds.rules.Pairwise fun earlier later =>
      earlier.factor.le later.factor = true := by
    decide +kernel
  have hrising' : weights.rules.Pairwise fun earlier later =>
      earlier.factor.le later.factor = true := by
    decide +kernel
  have hbelow : ∀ rule ∈ speeds.rules, rule.pattern.HoldsOn .below := by
    simp only [speeds, List.forall_mem_cons]
    exact ⟨.relational rfl, .relational rfl, .wildcard, by simp⟩
  have habove : ∀ rule ∈ weights.rules, rule.pattern.HoldsOn .above := by
    simp only [weights, List.forall_mem_cons]
    exact ⟨.relational rfl, .wildcard, by simp⟩
  have hfaster : (Binary64.ofInt 40).le (.ofInt 80) = true := by decide +kernel
  have hheavier : (Binary64.ofInt 3).le (.ofInt 20) = true := by decide +kernel
  have hrated : model.evaluate (withSpeed 40) .backward = eighth ∧
      model.evaluate (withSpeed 80) .backward = quarter ∧
      model.evaluate (withWeight 20) .forward = sixteenth ∧
      model.evaluate (withWeight 3) .forward = eighth := by
    decide +kernel
  have hspeed := (threshold_ladders_monotone hcompile hspeeds hrising hfaster).1 hbelow
  have hweight := (threshold_ladders_monotone hcompile hweights hrising' hheavier).2 habove
  exact ⟨hcompile, hspeeds, hweights, hrising, hrising', hbelow, habove, hfaster, hheavier,
    hspeed.priority _ _ .backward (Registry.agreeExcept_put (by decide) road _ _) rfl rfl,
    hweight.priority _ _ .forward (Registry.agreeExcept_put (by decide) road _ _) rfl rfl, hrated⟩

end RoutePriority
