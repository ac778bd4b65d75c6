import RoutePriority.Attribute.Road
import RoutePriority.Proofs.Interpretation
import RoutePriority.Proofs.ValidSpecifications

/-!
# Rules for the names of values

Registering an attribute takes any texts as the names of its values, and reading a rule takes `*`
for every value and a text that starts with `<` or `>` for a comparison.  So a rule can speak of one
value by its name unless the name is one of these: `Handle.Selects` says what is wanted of such a
rule, and `ofRule_selects` that it is had for all other names, and what becomes of these.
`names_without_rules` is an attribute with a name of either sort.
-/

namespace RoutePriority

/-- The specification of a single rule. -/
def Specification.ofRule (name text : String) (factor : Factor) : Specification :=
  ⟨[(name, ⟨[(text, factor)], by simp⟩)], by simp⟩

/-- The rule for a name alone compiles, and gives the values of that name its factor and all other
values one. -/
def Handle.Selects (handle : Handle) (registry : Registry) (name : String) (factor : Factor)
    (x : Binary64) : Prop :=
  ∃ table, Model.compile (.ofRule handle.name name factor) registry = .ok ⟨[table]⟩ ∧
    ∀ value, handle.admits value = true →
      table.factorFor value = if handle.format value = name then x else .one

/-- A specification of a single rule is compiled by compiling the rule. -/
theorem Model.compile_ofRule {registry : Registry} {handle : Handle}
    (h : handle ∈ registry.handles) (text : String) (factor : Factor) :
    Model.compile (.ofRule handle.name text factor) registry =
      (handle.compileRule text factor).map fun rule => ⟨[⟨handle, [rule]⟩]⟩ := by
  have hresolve := Registry.resolve?_eq_some_iff.mpr ⟨h, rfl⟩
  rw [Model.compile_eq_mapM, Specification.ofRule]
  simp only [List.mapM_cons, List.mapM_nil, Registry.compileTable, hresolve, Handle.compileTable]
  cases handle.compileRule text factor <;> rfl

namespace Handle

variable {handle : Handle} {name : String} {factor : Factor} {x : Binary64}

/-- Only categorical and boolean attributes have names for their values. -/
theorem kind_ne_of_mem_values (h : name ∈ handle.values) : handle.kind ≠ .continuous := by
  intro hkind
  simp [values, hkind] at h

/-- The name of a value names one. -/
theorem exists_parse?_of_mem_values (h : name ∈ handle.values) :
    ∃ value, handle.parse? name = some value := by
  unfold values at h
  unfold parse?
  cases hkind : handle.kind with
  | categorical =>
      simp only [hkind] at h
      obtain ⟨ordinal, hordinal⟩ := Option.isSome_iff_exists.mp (List.isSome_idxOf?.mpr h)
      exact ⟨.category (UInt16.ofNat ordinal), by simp [hordinal]⟩
  | boolean =>
      simp only [hkind, List.mem_cons, List.not_mem_nil, or_false] at h
      rcases h with rfl | rfl
      · exact ⟨.flag false, by simp⟩
      · exact ⟨.flag true, by simp⟩
  | continuous => simp [hkind] at h

/-- A name that does not start like a comparison is the text of a rule. -/
theorem legal_of_mem_values (h : name ∈ handle.values) (hstart : ¬ StartsComparison name) :
    handle.Legal name := by
  refine .name hstart ?_ (exists_parse?_of_mem_values h)
  have hkind := kind_ne_of_mem_values h
  cases hcases : handle.kind <;> simp_all

/-- The rule for such a name passes the values of the name, and all values if it is `*`. -/
theorem exists_compile_ofRule {registry : Registry} (h : handle ∈ registry.handles)
    (hname : name ∈ handle.values) (hstart : ¬ StartsComparison name)
    (hfactor : factor.Denotes x) (hx : x.InUnitInterval) :
    ∃ table, Model.compile (.ofRule handle.name name factor) registry = .ok ⟨[table]⟩ ∧
      ∀ value, handle.admits value = true →
        table.factorFor value = if name = "*" ∨ handle.format value = name then x else .one := by
  have hkind := kind_ne_of_mem_values hname
  obtain ⟨⟨pattern, matcher⟩, hread⟩ :=
    exists_readPattern_of_legal (legal_of_mem_values hname hstart)
  have hrule : handle.compileRule name factor = .ok ⟨pattern, matcher, x⟩ :=
    compileRule_eq_ok_iff.mpr
      ⟨hread, checkFactor_eq_ok_iff.mpr ⟨Factor.denotes_iff.mp hfactor, hx⟩⟩
  refine ⟨⟨handle, [⟨pattern, matcher, x⟩]⟩, ?_, ?_⟩
  · rw [Model.compile_ofRule h, hrule]
    rfl
  · intro value hadmits
    have haccepts := accepts_eq_applies (Registry.wellFormed_of_mem h) hread hadmits
    have happlies : handle.applies name value =
        decide (name = "*" ∨ handle.format value = name) := by
      unfold applies
      cases hcases : handle.kind with
      | continuous => exact absurd hcases hkind
      | categorical | boolean => simp [eq_comm]
    rw [happlies] at haccepts
    by_cases hpasses : name = "*" ∨ handle.format value = name <;>
      simp [CompiledTable.factorFor, haccepts, hpasses]

end Handle

/-- **A name selects its value unless it is a pattern itself.**  Of a name that starts like a
comparison there is no rule; the rule of the name `*` gives its factor to every value; the rule of
any other name compiles and gives its factor to exactly the values of that name. -/
theorem ofRule_selects {registry : Registry} {handle : Handle} (h : handle ∈ registry.handles)
    {name : String} (hname : name ∈ handle.values) {factor : Factor} {x : Binary64}
    (hfactor : factor.Denotes x) (hx : x.InUnitInterval) :
    (¬ StartsComparison name → name ≠ "*" → handle.Selects registry name factor x) ∧
    (name = "*" → ∃ table,
      Model.compile (.ofRule handle.name name factor) registry = .ok ⟨[table]⟩ ∧
        ∀ value, handle.admits value = true → table.factorFor value = x) ∧
    (StartsComparison name →
      Model.compile (.ofRule handle.name name factor) registry =
        .error (.unsupportedPattern handle.name name (.comparesKind handle.kind))) := by
  refine ⟨?_, ?_, ?_⟩
  · intro hstart hstar
    obtain ⟨table, hcompile, hgives⟩ := Handle.exists_compile_ofRule h hname hstart hfactor hx
    refine ⟨table, hcompile, fun value hadmits => ?_⟩
    rw [hgives value hadmits]
    simp [hstar]
  · intro hstar
    have hstart : ¬ StartsComparison name := fun hstart =>
      ne_wildcard_of_startsComparison hstart hstar
    obtain ⟨table, hcompile, hgives⟩ := Handle.exists_compile_ofRule h hname hstart hfactor hx
    refine ⟨table, hcompile, fun value hadmits => ?_⟩
    rw [hgives value hadmits, if_pos (Or.inl hstar)]
  · intro hstart
    have hfault : handle.readPattern name = .error (.comparesKind handle.kind) :=
      Handle.readPattern_of_faulty (.comparesKind hstart (Handle.kind_ne_of_mem_values hname))
    rw [Model.compile_ofRule h, Handle.compileRule, hfault]
    rfl

/-- Widths with three names: the rule of the plain one selects it, the rule of the star does not
distinguish it, and the rule of the third one does not compile. -/
theorem ofRule_selects_width :
    let width : Handle := ⟨0, .categorical "width" ["<3", "*", "wide"]⟩
    let registry : Registry := ⟨[width.definition], by decide, by decide⟩
    let half : Binary64 := .signed false ⟨1022 * Nat.pow 2 52, by decide⟩
    width ∈ registry.handles ∧ "wide" ∈ width.values ∧ "*" ∈ width.values ∧ "<3" ∈ width.values ∧
      (Factor.text " 0.5 ").Denotes half ∧ half.InUnitInterval ∧
      width.Selects registry "wide" (.text " 0.5 ") half ∧
      (∃ table, Model.compile (.ofRule "width" "*" (.text " 0.5 ")) registry = .ok ⟨[table]⟩ ∧
        table.factorFor (.category 2) = half) ∧
      Model.compile (.ofRule "width" "<3" (.text " 0.5 ")) registry =
        .error (.unsupportedPattern "width" "<3" (.comparesKind .categorical)) := by
  intro width registry half
  have hwidth : width ∈ registry.handles := by decide
  have hfactor : (Factor.text " 0.5 ").Denotes half := .text (by decide +kernel)
  have hhalf : half.InUnitInterval := by decide
  have hwide : "wide" ∈ width.values := by decide
  have hstar : "*" ∈ width.values := by decide
  have hnarrow : "<3" ∈ width.values := by decide
  obtain ⟨table, hcompile, hgives⟩ := (ofRule_selects hwidth hstar hfactor hhalf).2.1 rfl
  refine ⟨hwidth, hwide, hstar, hnarrow, hfactor, hhalf, ?_, ⟨table, hcompile, ?_⟩, ?_⟩
  · exact (ofRule_selects hwidth hwide hfactor hhalf).1 (by simp [StartsComparison]) (by decide)
  · exact hgives _ (by decide)
  · exact (ofRule_selects hwidth hnarrow hfactor hhalf).2.2 (Or.inl (by decide))

/-- **Not every declared name has a rule.**  Of two of these names the rule does not select the
values of the name: one rule compiles and passes another value too, and the other one does not
compile. -/
theorem names_without_rules :
    let width : Handle := ⟨0, .categorical "width" ["<3", "*", "wide"]⟩
    let registry : Registry := ⟨[width.definition], by decide, by decide⟩
    let half : Binary64 := .signed false ⟨1022 * Nat.pow 2 52, by decide⟩
    width ∈ registry.handles ∧ half.InUnitInterval ∧
      "*" ∈ width.values ∧ ¬ width.Selects registry "*" (.number half) half ∧
      "<3" ∈ width.values ∧ ¬ width.Selects registry "<3" (.number half) half := by
  intro width registry half
  refine ⟨by decide, by decide, by decide, ?_, by decide, ?_⟩
  · intro h
    obtain ⟨table, hcompile, hgives⟩ := h
    have htable : Model.compile (.ofRule "width" "*" (.number half)) registry =
        .ok ⟨[⟨width, [⟨.wildcard, .any, half⟩]⟩]⟩ := by
      decide +kernel
    rw [show width.name = "width" from rfl, htable] at hcompile
    cases hcompile
    have hwide := hgives (.category 2) (by decide)
    revert hwide
    decide
  · intro h
    obtain ⟨table, hcompile, -⟩ := h
    have hrefused : Model.compile (.ofRule "width" "<3" (.number half)) registry =
        .error (.unsupportedPattern "width" "<3" (.comparesKind .categorical)) := by
      decide +kernel
    rw [show width.name = "width" from rfl, hrefused] at hcompile
    cases hcompile

end RoutePriority
