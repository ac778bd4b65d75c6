import RoutePriority.Proofs.EditedTables
import RoutePriority.Proofs.Interpretation

/-!
# The order of literal rules

For a categorical or boolean attribute every pattern but the wildcard is the name of a value.  A
name passes the value that it names and nothing else, and two names of one value are the same text
(`Handle.eq_format_of_passes`).  So at most one literal rule passes a value, and if the wildcard is
the last rule it decides exactly the values that no literal rule passes.  None of this depends on
the order in which the literal rules are declared: `decider?_eq_some_iff` says by membership alone
what the deciding rule is.
-/

namespace RoutePriority

/-- The rule for all values, if there is one, is the last rule. -/
def RuleTable.WildcardLast (table : RuleTable) : Prop :=
  wildcardText ∉ Entries.names table.entries.dropLast

instance (table : RuleTable) : Decidable table.WildcardLast :=
  inferInstanceAs (Decidable (wildcardText ∉ _))

/-- Nothing is declared after the rule for all values. -/
theorem RuleTable.WildcardLast.after_eq_nil {table : RuleTable} (h : table.WildcardLast)
    {before after : List (String × Factor)} {rule : String × Factor}
    (hsplit : table.entries = before ++ rule :: after) (hrule : rule.1 = wildcardText) :
    after = [] := by
  by_contra hafter
  rw [WildcardLast, hsplit, List.dropLast_append_of_ne_nil (List.cons_ne_nil _ _),
    List.dropLast_cons_of_ne_nil hafter] at h
  have hmem : rule ∈ before ++ rule :: after.dropLast :=
    List.mem_append_right _ List.mem_cons_self
  exact h (hrule ▸ List.mem_map_of_mem hmem)

namespace Handle

variable {handle : Handle} {text : String} {value : AttributeValue}

/-- A name passes nothing but the value that it names. -/
theorem parse?_eq_of_passes (hkind : handle.kind ≠ .continuous) (htext : text ≠ wildcardText)
    (h : handle.passes text value = true) : handle.parse? text = some value := by
  cases hread : handle.readPattern text with
  | error fault => simp [passes, hread] at h
  | ok read =>
      rw [passes_of_readPattern hread] at h
      obtain ⟨hparse, hmatcher⟩ := readPattern_eq_ok_iff.mp hread
      cases (reports_readPattern handle text).ok_iff.mp ⟨_, hread⟩ with
      | wildcard hwildcard => exact absurd hwildcard htext
      | comparison _ hcontinuous _ => exact absurd hcontinuous hkind
      | name hstart _ hvalue =>
          obtain ⟨named, hnamed⟩ := hvalue
          rw [Pattern.parse_name htext hstart, Except.ok.injEq] at hparse
          rw [← hparse] at hmatcher
          rw [accepts_named hkind hnamed hmatcher, decide_eq_true_eq] at h
          rw [hnamed, h]

/-- The only name that passes a value is the text of the value. -/
theorem eq_format_of_passes (hsound : handle.definition.WellFormed)
    (hkind : handle.kind ≠ .continuous) (htext : text ≠ wildcardText)
    (h : handle.passes text value = true) : text = handle.format value := by
  have hnamed := parse?_eq_of_passes hkind htext h
  exact (parse?_eq_some_iff_eq_format hsound hkind (admits_of_parse? hsound hnamed)).mp hnamed

/-- The deciding rule is the literal rule that passes the value, or else the wildcard: no rule
before it is a wildcard, and no other literal rule passes the value. -/
theorem decider?_eq_some_iff (hsound : handle.definition.WellFormed)
    (hkind : handle.kind ≠ .continuous) {table : RuleTable} (hlast : table.WildcardLast)
    {rule : String × Factor} :
    handle.decider? table.entries value = some rule ↔
      rule ∈ table.entries ∧ handle.passes rule.1 value = true ∧
        (rule.1 = wildcardText → ∀ other ∈ table.entries, other.1 ≠ wildcardText →
          ¬ handle.passes other.1 value = true) := by
  rw [decider?, List.find?_eq_some_iff_append]
  constructor
  · intro h
    obtain ⟨hpasses, before, after, hsplit, hbefore⟩ := h
    refine ⟨by simp [hsplit], hpasses, fun hwildcard other hother hname hpassed => ?_⟩
    rw [hsplit, hlast.after_eq_nil hsplit hwildcard, List.mem_append, List.mem_singleton] at hother
    rcases hother with hother | rfl
    · exact absurd hpassed (by simpa using hbefore other hother)
    · exact hname hwildcard
  · intro h
    obtain ⟨hmem, hpasses, hfallback⟩ := h
    obtain ⟨before, after, hsplit⟩ := List.append_of_mem hmem
    refine ⟨hpasses, before, after, hsplit, fun other hother => ?_⟩
    have hname : other.1 ≠ wildcardText := by
      intro hwildcard
      obtain ⟨first, between, rfl⟩ := List.append_of_mem hother
      rw [List.append_assoc, List.cons_append] at hsplit
      simpa using hlast.after_eq_nil hsplit hwildcard
    have hdistinct : other.1 ≠ rule.1 := by
      have hnodup := table.nodup_names
      rw [hsplit, Entries.names, List.map_append, List.nodup_append] at hnodup
      exact hnodup.2.2 _ (List.mem_map_of_mem hother) _ List.mem_cons_self
    rw [Bool.not_eq_true', ← Bool.not_eq_true]
    intro hpassed
    by_cases hwildcard : rule.1 = wildcardText
    · have hearlier : other ∈ table.entries := hsplit ▸ List.mem_append_left _ hother
      exact hfallback hwildcard other hearlier hname hpassed
    · exact hdistinct ((eq_format_of_passes hsound hkind hname hpassed).trans
        (eq_format_of_passes hsound hkind hwildcard hpasses).symm)

/-- The deciding rule does not depend on the order of literal rules. -/
theorem decider?_eq_of_mem_iff (hsound : handle.definition.WellFormed)
    (hkind : handle.kind ≠ .continuous) {left right : RuleTable}
    (hrules : ∀ rule, rule ∈ left.entries ↔ rule ∈ right.entries) (hleft : left.WildcardLast)
    (hright : right.WildcardLast) (value : AttributeValue) :
    handle.decider? left.entries value = handle.decider? right.entries value := by
  refine Option.ext fun rule => ?_
  rw [decider?_eq_some_iff hsound hkind hleft, decider?_eq_some_iff hsound hkind hright]
  simp only [hrules]

end Handle

/-- **Literal rules commute.**  Two tables of a categorical or boolean attribute hold the same rules
in two orders, and in both the rule for all values, if there is one, is the last.  One of them
compiles exactly if the other does, and then they give the same factor to every value, of whatever
kind and whether the attribute admits it or not. -/
theorem literal_rules_commute {registry : Registry} {handle : Handle}
    (h : handle ∈ registry.handles) (hkind : handle.kind = .categorical ∨ handle.kind = .boolean)
    {left right : RuleTable} (hrules : ∀ rule, rule ∈ left.entries ↔ rule ∈ right.entries)
    (hleft : left.WildcardLast) (hright : right.WildcardLast) :
    ((∃ model, Model.compile (.ofTable handle.name left) registry = .ok model) ↔
      ∃ model, Model.compile (.ofTable handle.name right) registry = .ok model) ∧
    ∀ model other, Model.compile (.ofTable handle.name left) registry = .ok model →
      Model.compile (.ofTable handle.name right) registry = .ok other →
      ∃ first second, model = ⟨[first]⟩ ∧ other = ⟨[second]⟩ ∧
        ∀ value, first.factorFor value = second.factorFor value := by
  have hdiscrete : handle.kind ≠ .continuous := by
    rcases hkind with hkind | hkind <;> simp [hkind]
  constructor
  · rw [Handle.exists_compile_ofTable_iff h, Handle.exists_compile_ofTable_iff h]
    simp only [hrules]
  · intro model other hmodel hother
    obtain ⟨first, hfirst, rfl⟩ := (Model.compile_ofTable_eq_ok_iff h).mp hmodel
    obtain ⟨second, hsecond, rfl⟩ := (Model.compile_ofTable_eq_ok_iff h).mp hother
    refine ⟨first, second, rfl, rfl, fun value => ?_⟩
    have hdecider := Handle.decider?_eq_of_mem_iff (Registry.wellFormed_of_mem h) hdiscrete hrules
      hleft hright value
    exact (Handle.gives_factorFor hfirst value).eq_of_decider?_eq
      (Handle.gives_factorFor hsecond value) hdecider

/-- Gravel and paved surfaces in either order, with a last rule for all others: gravel has a half in
both tables, a paved surface one, and any other value, a flag too, nothing. -/
theorem literal_rules_commute_surface :
    let surface : Handle := ⟨3, .categorical "surface" Road.surfaceValues⟩
    let half : Binary64 := .signed false ⟨1022 * Nat.pow 2 52, by decide⟩
    let left : RuleTable :=
      ⟨[("GRAVEL", .text "0.5"), ("PAVED", .number .one), ("*", .number .zero)], by decide⟩
    let right : RuleTable :=
      ⟨[("PAVED", .number .one), ("GRAVEL", .text "0.5"), ("*", .number .zero)], by decide⟩
    let first : CompiledTable :=
      ⟨surface, [⟨.literal "GRAVEL", .category 9, half⟩, ⟨.literal "PAVED", .category 1, .one⟩,
        ⟨.wildcard, .any, .zero⟩]⟩
    let second : CompiledTable :=
      ⟨surface, [⟨.literal "PAVED", .category 1, .one⟩, ⟨.literal "GRAVEL", .category 9, half⟩,
        ⟨.wildcard, .any, .zero⟩]⟩
    surface ∈ Road.registry.handles ∧ surface.kind = .categorical ∧
      (∀ rule, rule ∈ left.entries ↔ rule ∈ right.entries) ∧
      left.WildcardLast ∧ right.WildcardLast ∧
      Model.compile (.ofTable "surface" left) Road.registry = .ok ⟨[first]⟩ ∧
      Model.compile (.ofTable "surface" right) Road.registry = .ok ⟨[second]⟩ ∧
      (∀ value, first.factorFor value = second.factorFor value) ∧
      first.factorFor (.category 9) = half ∧ second.factorFor (.category 9) = half ∧
      first.factorFor (.category 1) = .one ∧ second.factorFor (.category 1) = .one ∧
      first.factorFor (.flag true) = .zero ∧ second.factorFor (.flag true) = .zero := by
  intro surface half left right first second
  have hsurface : surface ∈ Road.registry.handles := by decide
  have hrules : ∀ rule, rule ∈ left.entries ↔ rule ∈ right.entries :=
    fun rule => (List.Perm.swap _ _ _).mem_iff
  have hleft : left.WildcardLast := by decide
  have hright : right.WildcardLast := by decide
  have hfirst : Model.compile (.ofTable "surface" left) Road.registry = .ok ⟨[first]⟩ := by
    decide +kernel
  have hsecond : Model.compile (.ofTable "surface" right) Road.registry = .ok ⟨[second]⟩ := by
    decide +kernel
  obtain ⟨_, _, hmodel, hother, hsame⟩ :=
    (literal_rules_commute hsurface (Or.inl rfl) hrules hleft hright).2 _ _ hfirst hsecond
  cases hmodel
  cases hother
  exact ⟨hsurface, rfl, hrules, hleft, hright, hfirst, hsecond, hsame, by decide⟩

end RoutePriority
