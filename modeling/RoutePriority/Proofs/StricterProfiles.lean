import RoutePriority.Proofs.BoundedPriority
import RoutePriority.Proofs.ValidSpecifications

/-!
# Stricter profiles

A specification is stricter than another one if it keeps all tables of it in their order, with the
same patterns and no factor larger, and perhaps declares further tables between them
(`Specification.StricterThan`).  If both compile, every table that both have gives a factor that is
no larger, because the same rule matches first, and the further tables give factors of at most one.
Rounded products respect both, so no edge is rated higher (`evaluate_le_of_stricterThan`).
-/

namespace RoutePriority

/-- A declared rule keeps the pattern of another one, and its factor denotes no larger number. -/
structure RuleLowered (rule lowered : String × Factor) : Prop where
  pattern : lowered.1 = rule.1
  factor : ∃ x y, rule.2.Denotes x ∧ lowered.2.Denotes y ∧ y.le x = true

/-- A declared table is for the attribute of another one, and lowers its rules. -/
structure TableLowered (entry lowered : String × RuleTable) : Prop where
  name : lowered.1 = entry.1
  rules : List.Forall₂ RuleLowered entry.2.entries lowered.2.entries

/-- The specification lowers tables of another one, and declares further ones wherever it likes. -/
def Specification.StricterThan (strict loose : Specification) : Prop :=
  List.SublistForall₂ TableLowered loose.entries strict.entries

section Traversals

variable {α β γ δ : Type} {R : α → β → Prop} {P : α → γ → Prop} {P' : β → δ → Prop}
  {Q : γ → δ → Prop} {as : List α} {bs : List β} {cs : List γ} {ds : List δ}

/-- Two traversals of related entries have related results. -/
theorem forall₂_of_traversals (hstep : ∀ a b c d, R a b → P a c → P' b d → Q c d)
    (h : List.Forall₂ R as bs) (hleft : List.Forall₂ P as cs) (hright : List.Forall₂ P' bs ds) :
    List.Forall₂ Q cs ds := by
  induction h generalizing cs ds with
  | nil =>
      cases hleft
      cases hright
      exact .nil
  | cons hab _ ih =>
      cases hleft with
      | cons hac hleft =>
          cases hright with
          | cons hbd hright => exact .cons (hstep _ _ _ _ hab hac hbd) (ih hleft hright)

/-- The same where the second traversal goes through further entries. -/
theorem sublistForall₂_of_traversals (hstep : ∀ a b c d, R a b → P a c → P' b d → Q c d)
    (h : List.SublistForall₂ R as bs) (hleft : List.Forall₂ P as cs)
    (hright : List.Forall₂ P' bs ds) : List.SublistForall₂ Q cs ds := by
  induction h generalizing cs ds with
  | nil =>
      cases hleft
      exact .nil
  | cons hab _ ih =>
      cases hleft with
      | cons hac hleft =>
          cases hright with
          | cons hbd hright => exact .cons (hstep _ _ _ _ hab hac hbd) (ih hleft hright)
  | cons_right _ ih =>
      cases hright with
      | cons _ hright => exact .cons_right (ih hleft hright)

end Traversals

/-- Lowering a factor keeps the test of a compiled rule. -/
theorem RuleLowered.compileRule {handle : Handle} {rule lowered : String × Factor}
    {compiled compiled' : Rule} (h : RuleLowered rule lowered)
    (hrule : handle.compileRule rule.1 rule.2 = .ok compiled)
    (hlowered : handle.compileRule lowered.1 lowered.2 = .ok compiled') :
    compiled'.matcher = compiled.matcher ∧ compiled'.factor.le compiled.factor = true := by
  obtain ⟨htext, x, y, hx, hy, hle⟩ := h
  obtain ⟨hread, hfactor⟩ := Handle.compileRule_eq_ok_iff.mp hrule
  obtain ⟨hread', hfactor'⟩ := Handle.compileRule_eq_ok_iff.mp hlowered
  constructor
  · rw [htext, hread] at hread'
    exact (congrArg Prod.snd (Except.ok.inj hread')).symm
  · have hnumber := (Handle.checkFactor_eq_ok_iff.mp hfactor).1
    have hnumber' := (Handle.checkFactor_eq_ok_iff.mp hfactor').1
    rw [Factor.denotes_iff.mp hx] at hnumber
    rw [Factor.denotes_iff.mp hy] at hnumber'
    rw [← Option.some.inj hnumber, ← Option.some.inj hnumber']
    exact hle

/-- The same tests with smaller factors give every value a smaller factor. -/
theorem CompiledTable.factorFor_le_factorFor {handle handle' : Handle} {rules rules' : List Rule}
    (h : List.Forall₂ (fun rule rule' =>
      rule'.matcher = rule.matcher ∧ rule'.factor.le rule.factor = true) rules rules')
    (value : AttributeValue) :
    (factorFor ⟨handle', rules'⟩ value).le (factorFor ⟨handle, rules⟩ value) = true := by
  unfold factorFor
  induction h with
  | nil => exact Binary64.inUnitInterval_one.le_refl
  | @cons rule rule' _ _ hrule _ ih =>
      obtain ⟨hmatcher, hle⟩ := hrule
      simp only [List.find?_cons, hmatcher]
      cases rule.matcher.accepts value with
      | true => exact hle
      | false => exact ih

/-- Tables of one attribute look at the same value of an edge. -/
theorem CompiledTable.valueOf_of_handle_eq {table other : CompiledTable}
    (h : table.handle = other.handle) (edge : EdgeStore) (direction : Direction) :
    table.valueOf edge direction = other.valueOf edge direction := by
  rw [valueOf, valueOf, h]

/-- A lowered table gives every edge a smaller factor. -/
theorem TableLowered.factorOf_le {registry : Registry} {entry lowered : String × RuleTable}
    {table table' : CompiledTable} (h : TableLowered entry lowered)
    (htable : registry.compileTable entry.1 entry.2 = .ok table)
    (hlowered : registry.compileTable lowered.1 lowered.2 = .ok table') (edge : EdgeStore)
    (direction : Direction) :
    (table'.factorOf edge direction).le (table.factorOf edge direction) = true := by
  obtain ⟨hname, hrules⟩ := h
  obtain ⟨hresolve, hcompiled⟩ := Registry.compileTable_eq_ok_iff.mp htable
  obtain ⟨hresolve', hcompiled'⟩ := Registry.compileTable_eq_ok_iff.mp hlowered
  have hsame : table'.handle = table.handle := by
    rw [hname, hresolve] at hresolve'
    exact (Option.some.inj hresolve').symm
  rw [hsame] at hcompiled'
  rw [CompiledTable.factorOf, CompiledTable.factorOf, CompiledTable.valueOf_of_handle_eq hsame]
  exact CompiledTable.factorFor_le_factorFor
    (forall₂_of_traversals (fun _ _ _ _ hrule => hrule.compileRule) hrules hcompiled hcompiled') _

/-- A compiled model multiplies numbers of the unit interval. -/
theorem Model.inUnitInterval_factorOf {specification : Specification} {registry : Registry}
    {model : Model} (hcompile : Model.compile specification registry = .ok model)
    (edge : EdgeStore) (direction : Direction) :
    ∀ x ∈ model.tables.map (·.factorOf edge direction), x.InUnitInterval := by
  intro x hx
  obtain ⟨table, htable, rfl⟩ := List.mem_map.mp hx
  exact table.inUnitInterval_factorFor
    (fun rule hrule => Model.inUnitInterval_factor hcompile htable hrule) _

/-- **Stricter profiles never raise a priority.**  Of two specifications that compile for a
registry, the stricter one rates no edge higher in either direction, whatever its store returns. -/
theorem evaluate_le_of_stricterThan {strict loose : Specification} {registry : Registry}
    {model lowered : Model} (hstricter : strict.StricterThan loose)
    (hloose : Model.compile loose registry = .ok model)
    (hstrict : Model.compile strict registry = .ok lowered) (edge : EdgeStore)
    (direction : Direction) :
    (lowered.evaluate edge direction).le (model.evaluate edge direction) = true := by
  have hfactors : List.SublistForall₂ (fun x y => y.le x = true)
      (model.tables.map (·.factorOf edge direction))
      (lowered.tables.map (·.factorOf edge direction)) := by
    rw [List.sublistForall₂_map_left_iff, List.sublistForall₂_map_right_iff]
    exact sublistForall₂_of_traversals
      (fun _ _ _ _ htable hcompiled hcompiled' =>
        htable.factorOf_le hcompiled hcompiled' edge direction)
      hstricter (Model.compile_eq_ok_iff.mp hloose) (Model.compile_eq_ok_iff.mp hstrict)
  have hone := Binary64.inUnitInterval_one
  rw [Model.evaluate_eq_foldl, Model.evaluate_eq_foldl]
  exact hone.foldl_mul_le hone hone.le_refl (Model.inUnitInterval_factorOf hloose edge direction)
    (Model.inUnitInterval_factorOf hstrict edge direction) hfactors

/-- A profile for the way back becomes stricter: slow roads count a quarter instead of a half, the
fallback stays, and gravel is declared in front.  The slow road is rated lower. -/
theorem evaluate_le_of_stricterThan_slow_road :
    let surface : Handle := ⟨3, .categorical "surface" Road.surfaceValues⟩
    let half : Binary64 := .signed false ⟨1022 * Nat.pow 2 52, by decide⟩
    let quarter : Binary64 := .signed false ⟨1021 * Nat.pow 2 52, by decide⟩
    let loose : Specification :=
      ⟨[("max_speed", ⟨[("<=50", .text " 0.5"), ("*", .number .one)], by decide⟩)], by decide⟩
    let strict : Specification :=
      ⟨[("surface", ⟨[("GRAVEL", .number half)], by decide⟩),
        ("max_speed", ⟨[("<=50", .number quarter), ("*", .text "1")], by decide⟩)], by decide⟩
    let edge : EdgeStore := fun handle direction =>
      if handle = surface then .category 1
      else if direction = .backward then .number (.ofInt 30) else .number (.ofInt 110)
    ∃ model lowered, strict.StricterThan loose ∧
      Model.compile loose Road.registry = .ok model ∧
      Model.compile strict Road.registry = .ok lowered ∧
      (lowered.evaluate edge .backward).le (model.evaluate edge .backward) = true ∧
      model.evaluate edge .backward = half ∧ lowered.evaluate edge .backward = quarter := by
  intro surface half quarter loose strict edge
  let speed : Handle := ⟨5, (Definition.continuous "max_speed").withDirections⟩
  have hloose : Model.compile loose Road.registry = .ok
      ⟨[⟨speed, [⟨.relational .lessOrEqual (.ofInt 50), .compare .lessOrEqual (.ofInt 50), half⟩,
          ⟨.wildcard, .any, .one⟩]⟩]⟩ := by
    decide +kernel
  have hstrict : Model.compile strict Road.registry = .ok
      ⟨[⟨surface, [⟨.literal "GRAVEL", .category 9, half⟩]⟩,
        ⟨speed, [⟨.relational .lessOrEqual (.ofInt 50), .compare .lessOrEqual (.ofInt 50), quarter⟩,
          ⟨.wildcard, .any, .one⟩]⟩]⟩ := by
    decide +kernel
  have hslow : RuleLowered ("<=50", .text " 0.5") ("<=50", .number quarter) :=
    ⟨rfl, half, quarter, .text (by decide +kernel), .number, by decide⟩
  have hrest : RuleLowered ("*", .number .one) ("*", .text "1") :=
    ⟨rfl, .one, .one, .number, .text (by decide +kernel), by decide⟩
  have hstricter : strict.StricterThan loose :=
    .cons_right (.cons ⟨rfl, .cons hslow (.cons hrest .nil)⟩ .nil)
  exact ⟨_, _, hstricter, hloose, hstrict,
    evaluate_le_of_stricterThan hstricter hloose hstrict edge .backward, by decide +kernel,
    by decide +kernel⟩

end RoutePriority
