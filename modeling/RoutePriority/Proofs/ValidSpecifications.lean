import RoutePriority.Proofs.LegalPatterns

/-!
# Valid specifications and their first violation

What makes a specification valid is said here on the texts that it holds, and so is what is wrong
with the others.  None of it mentions patterns that were parsed or rules that were compiled.

`compile_accepts_valid` compares this with the compiler.  A specification compiles exactly if all of
it is valid, and otherwise the error is that of its first violation: attributes in the order of
their declaration, an unknown name before anything in its table, then rules in their order, and in
a rule the pattern before the factor.
-/

namespace RoutePriority

namespace Factor

/-- The factor is a number, or a text that reads as one without the blanks around it. -/
inductive Denotes : Factor → Binary64 → Prop
  | number {x : Binary64} : Denotes (.number x) x
  | text {s : String} {x : Binary64} (h : Binary64.ofText? (Text.trim s) = some x) :
      Denotes (.text s) x

/-- The factor denotes a number from zero to one. -/
def Valid (factor : Factor) : Prop :=
  ∃ x, factor.Denotes x ∧ x.isNan = false ∧ x.InUnitInterval

end Factor

/-- A declared rule suits an attribute. -/
def Handle.ValidRule (handle : Handle) (rule : String × Factor) : Prop :=
  handle.Legal rule.1 ∧ rule.2.Valid

/-- What is wrong with a rule that does not suit an attribute: its pattern, or else its factor. -/
inductive Handle.RuleViolation (handle : Handle) : String × Factor → CompileError → Prop
  | pattern {text : String} {factor : Factor} {fault : PatternFault}
      (hfault : handle.Faulty text fault) :
      RuleViolation handle (text, factor) (.unsupportedPattern handle.name text fault)
  | notANumber {text : String} {factor : Factor} (hlegal : handle.Legal text)
      (hnumber : ∀ x, factor.Denotes x → x.isNan = true) :
      RuleViolation handle (text, factor) (.invalidFactor handle.name text factor.display)
  | outOfRange {text : String} {factor : Factor} {x : Binary64} (hlegal : handle.Legal text)
      (hnumber : factor.Denotes x) (hnan : x.isNan = false) (hbounds : ¬ x.InUnitInterval) :
      RuleViolation handle (text, factor) (.outOfRangeFactor handle.name x)

/-- The name of a table is registered, and its rules suit the attribute of that name. -/
def Registry.ValidEntry (registry : Registry) (entry : String × RuleTable) : Prop :=
  ∃ handle, registry.resolve? entry.1 = some handle ∧
    ∀ rule ∈ entry.2.entries, handle.ValidRule rule

/-- What is wrong with a table: its name, or else the first violation among its rules. -/
inductive Registry.EntryViolation (registry : Registry) : String × RuleTable → CompileError → Prop
  | unknown {name : String} {table : RuleTable} (hname : registry.resolve? name = none) :
      EntryViolation registry (name, table) (.unknownAttribute name)
  | inTable {name : String} {table : RuleTable} {handle : Handle} {error : CompileError}
      (hname : registry.resolve? name = some handle)
      (hrules : FirstViolation handle.ValidRule handle.RuleViolation table.entries error) :
      EntryViolation registry (name, table) error

/-- A factor denotes the number that is read from it. -/
theorem Factor.denotes_iff {factor : Factor} {x : Binary64} :
    factor.Denotes x ↔ factor.toBinary64? = some x := by
  constructor
  · intro h
    cases h with
    | number => rfl
    | text h => exact h
  · intro h
    cases factor with
    | number y =>
        cases h
        exact .number
    | text s => exact .text h
    | other json => cases h

namespace Handle

/-- A rule compiles exactly if it suits the attribute. -/
theorem reports_compileRule (handle : Handle) (rule : String × Factor) :
    Reports (handle.compileRule rule.1 rule.2) (handle.ValidRule rule)
      (handle.RuleViolation rule) := by
  obtain ⟨text, factor⟩ := rule
  have hpattern := reports_readPattern handle text
  refine Reports.of_cases (fun hvalid => ?_) (fun error hviolates => ?_) ?_
  · obtain ⟨hlegal, x, hx, -, hbounds⟩ := hvalid
    obtain ⟨⟨pattern, matcher⟩, hread⟩ := hpattern.ok_iff.mpr hlegal
    exact ⟨⟨pattern, matcher, x⟩, compileRule_eq_ok_iff.mpr
      ⟨hread, checkFactor_eq_ok_iff.mpr ⟨Factor.denotes_iff.mp hx, hbounds⟩⟩⟩
  · cases hviolates with
    | pattern hfault =>
        rw [compileRule, (hpattern.error_iff _).mpr hfault]
        rfl
    | notANumber hlegal hnumber =>
        obtain ⟨read, hread⟩ := hpattern.ok_iff.mpr hlegal
        rw [compileRule, hread,
          checkFactor_of_no_number fun x hx => hnumber x (Factor.denotes_iff.mpr hx)]
        rfl
    | outOfRange hlegal hnumber hnan hbounds =>
        obtain ⟨read, hread⟩ := hpattern.ok_iff.mpr hlegal
        rw [compileRule, hread, checkFactor_of_number (Factor.denotes_iff.mp hnumber) hnan,
          if_neg hbounds]
        rfl
  · rcases legal_or_faulty handle text with hlegal | ⟨fault, hfault⟩
    · by_cases hnumber : ∃ x, factor.Denotes x ∧ x.isNan = false
      · obtain ⟨x, hx, hnan⟩ := hnumber
        by_cases hbounds : x.InUnitInterval
        · exact Or.inl ⟨hlegal, x, hx, hnan, hbounds⟩
        · exact Or.inr ⟨_, .outOfRange hlegal hx hnan hbounds⟩
      · exact Or.inr ⟨_, .notANumber hlegal (by simpa using hnumber)⟩
    · exact Or.inr ⟨_, .pattern hfault⟩

/-- A table compiles if its rules are valid, and otherwise its first violation is reported. -/
theorem reports_compileTable (handle : Handle) (table : RuleTable) :
    Reports (handle.compileTable table) (∀ rule ∈ table.entries, handle.ValidRule rule)
      (FirstViolation handle.ValidRule handle.RuleViolation table.entries) :=
  (Reports.mapM handle.reports_compileRule).map _

end Handle

/-- A table compiles exactly if its name is registered and its rules suit that attribute. -/
theorem Registry.reports_compileTable (registry : Registry) (entry : String × RuleTable) :
    Reports (registry.compileTable entry.1 entry.2) (registry.ValidEntry entry)
      (registry.EntryViolation entry) := by
  obtain ⟨name, table⟩ := entry
  rw [Registry.compileTable]
  cases hname : registry.resolve? name with
  | none =>
      refine Reports.of_cases (fun hvalid => ?_) (fun error hviolates => ?_)
        (Or.inr ⟨_, .unknown hname⟩)
      · obtain ⟨handle, hhandle, -⟩ := hvalid
        cases hname.symm.trans hhandle
      · cases hviolates with
        | unknown => rfl
        | inTable hhandle => cases hname.symm.trans hhandle
  | some handle =>
      have htable := handle.reports_compileTable table
      constructor
      · rw [htable.ok_iff]
        constructor
        · exact fun hrules => ⟨handle, hname, hrules⟩
        · intro hvalid
          obtain ⟨owner, howner, hrules⟩ := hvalid
          cases hname.symm.trans howner
          exact hrules
      · intro error
        rw [htable.error_iff]
        constructor
        · exact .inTable hname
        · intro hviolates
          cases hviolates with
          | unknown hnone => cases hname.symm.trans hnone
          | inTable howner hrules =>
              cases hname.symm.trans howner
              exact hrules

/-- **Exactly the valid specifications compile.**  Of any other the first violation in the order of
declaration is reported. -/
theorem compile_accepts_valid (specification : Specification) (registry : Registry) :
    ((∃ model, Model.compile specification registry = .ok model) ↔
        ∀ entry ∈ specification.entries, registry.ValidEntry entry) ∧
      ∀ error, Model.compile specification registry = .error error ↔
        FirstViolation registry.ValidEntry registry.EntryViolation specification.entries error := by
  have hentries : Reports (Model.compile specification registry)
      (∀ entry ∈ specification.entries, registry.ValidEntry entry)
      (FirstViolation registry.ValidEntry registry.EntryViolation specification.entries) := by
    rw [Model.compile_eq_mapM]
    exact (Reports.mapM registry.reports_compileTable).map _
  exact ⟨hentries.ok_iff, hentries.error_iff⟩

end RoutePriority
