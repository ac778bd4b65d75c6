import RoutePriority.Proofs.AddedTables
import RoutePriority.Proofs.MapHistories
import RoutePriority.Proofs.RegisteredHandles
import RoutePriority.Proofs.ValidSpecifications

/-!
# Editing a table

Of the rules of a table that pass a value the first one decides.  So writing or removing a rule can
change the factor of a value only where this rule decides before or after the edit: a rule that is
added at the end decides what no other rule does, one that is written in its place decides what it
decided before, and what a removed rule decided falls to the next rule that passes.

`Handle.decider?` is the deciding rule among the rules as they are declared, and `gives_factorFor`
says that it gives the factor of the compiled table.  What an edit does to the deciding rule is said
by `decider?_put_of_notMem`, `decider?_put_of_mem`, `decider?_drop_of_ne` and
`decider?_drop_of_split`.
-/

namespace RoutePriority

/-- The specification of a single table. -/
abbrev Specification.ofTable (name : String) (table : RuleTable) : Specification :=
  OrderedMap.empty.insert name table

theorem Entries.mem_put {α : Type} {key : String} {value : α} {entry : String × α}
    {entries : List (String × α)} (h : entry ∈ put key value entries) :
    entry = (key, value) ∨ entry ∈ entries := by
  induction entries with
  | nil => exact Or.inl (List.mem_singleton.mp h)
  | cons first rest ih =>
      rw [put] at h
      by_cases hkey : first.1 = key
      · rw [if_pos hkey] at h
        exact (List.mem_cons.mp h).imp_right (List.mem_cons_of_mem _)
      · rw [if_neg hkey] at h
        rcases List.mem_cons.mp h with rfl | hrest
        · exact Or.inr List.mem_cons_self
        · exact (ih hrest).imp_right (List.mem_cons_of_mem _)

/-- A specification of a single table compiles exactly if the table does. -/
theorem Model.compile_ofTable_eq_ok_iff {registry : Registry} {handle : Handle}
    (h : handle ∈ registry.handles) {table : RuleTable} {model : Model} :
    Model.compile (.ofTable handle.name table) registry = .ok model ↔
      ∃ compiled, handle.compileTable table = .ok compiled ∧ model = ⟨[compiled]⟩ := by
  have hentries : (Specification.ofTable handle.name table).entries = [(handle.name, table)] := rfl
  have hnamed : registry.compileTable handle.name table = handle.compileTable table := by
    rw [Registry.compileTable, Registry.resolve?_eq_some_iff.mpr ⟨h, rfl⟩]
  obtain ⟨tables⟩ := model
  rw [compile_eq_ok_iff, hentries, List.forall₂_cons_left_iff]
  simp [hnamed]

namespace Handle

/-- Whether a value passes the test that a pattern text stands for. -/
def passes (handle : Handle) (text : String) (value : AttributeValue) : Bool :=
  match handle.readPattern text with
  | .ok (_, matcher) => matcher.accepts value
  | .error _ => false

/-- The rule that decides a value: the first one whose pattern it passes. -/
def decider? (handle : Handle) (rules : List (String × Factor)) (value : AttributeValue) :
    Option (String × Factor) :=
  rules.find? fun rule => handle.passes rule.1 value

/-- The first pattern that a value passes. -/
def firstPattern? (handle : Handle) (rules : List (String × Factor)) (value : AttributeValue) :
    Option String :=
  (handle.decider? rules value).map Prod.fst

/-- The rules give a value the factor of the rule that decides it, and one if none does. -/
inductive Gives (handle : Handle) (rules : List (String × Factor)) (value : AttributeValue) :
    Binary64 → Prop
  | decided {rule : String × Factor} {x : Binary64} (h : handle.decider? rules value = some rule)
      (hx : rule.2.Denotes x) : Gives handle rules value x
  | neutral (h : handle.decider? rules value = none) : Gives handle rules value .one

variable {handle : Handle} {rules before after : List (String × Factor)} {value : AttributeValue}
  {text : String} {factor : Factor} {x y : Binary64}

/-- A legal pattern passes the values its matcher accepts. -/
theorem passes_of_readPattern {pattern : Pattern} {matcher : Matcher}
    (h : handle.readPattern text = .ok (pattern, matcher)) :
    handle.passes text value = matcher.accepts value := by
  rw [passes, h]

theorem decider?_cons (rule : String × Factor) :
    handle.decider? (rule :: rules) value =
      if handle.passes rule.1 value = true then some rule else handle.decider? rules value := by
  rw [decider?, List.find?_cons]
  cases handle.passes rule.1 value <;> rfl

theorem firstPattern?_cons (rule : String × Factor) :
    handle.firstPattern? (rule :: rules) value =
      if handle.passes rule.1 value = true then some rule.1
      else handle.firstPattern? rules value := by
  rw [firstPattern?, decider?_cons, apply_ite (Option.map Prod.fst)]
  rfl

/-- Rules after others decide what those do not. -/
theorem decider?_append :
    handle.decider? (before ++ after) value =
      (handle.decider? before value).or (handle.decider? after value) :=
  List.find?_append

/-- No rule decides a value that none of them passes. -/
theorem decider?_eq_none_iff :
    handle.decider? rules value = none ↔ ∀ rule ∈ rules, ¬ handle.passes rule.1 value = true :=
  List.find?_eq_none

/-- The first pattern found passes the value. -/
theorem passes_of_firstPattern? (h : handle.firstPattern? rules value = some text) :
    handle.passes text value = true := by
  obtain ⟨rule, hrule, rfl⟩ := Option.map_eq_some_iff.mp h
  exact List.find?_some (p := fun rule : String × Factor => handle.passes rule.1 value) hrule

/-- A value without a decider is rated with one. -/
theorem Gives.eq_one (h : handle.Gives rules value x)
    (hnone : handle.decider? rules value = none) : x = .one := by
  cases h with
  | decided hrule _ => cases hrule.symm.trans hnone
  | neutral => rfl

/-- A value is rated with what the factor of its decider denotes. -/
theorem Gives.eq_of_denotes (h : handle.Gives rules value x) {rule : String × Factor}
    (hrule : handle.decider? rules value = some rule) (hy : rule.2.Denotes y) : x = y := by
  cases h with
  | decided hfound hx =>
      cases hfound.symm.trans hrule
      exact Option.some.inj ((Factor.denotes_iff.mp hx).symm.trans (Factor.denotes_iff.mp hy))
  | neutral hnone => cases hrule.symm.trans hnone

/-- Rules with the same deciding rule give the same factor. -/
theorem Gives.eq_of_decider?_eq (hx : handle.Gives before value x)
    (hy : handle.Gives after value y)
    (h : handle.decider? before value = handle.decider? after value) : x = y := by
  cases hy with
  | decided hrule hdenotes => exact hx.eq_of_denotes (h.trans hrule) hdenotes
  | neutral hnone => exact hx.eq_one (h.trans hnone)

/-- Two tables with the same decider for a value rate it alike. -/
theorem Gives.of_decider?_eq (h : handle.Gives before value x)
    (heq : handle.decider? after value = handle.decider? before value) :
    handle.Gives after value x := by
  cases h with
  | decided hrule hx => exact .decided (heq.trans hrule) hx
  | neutral hnone => exact .neutral (heq.trans hnone)

/-- A compiled table gives the factors of its declared rules. -/
theorem gives_factorFor {table : RuleTable} {compiled : CompiledTable}
    (h : handle.compileTable table = .ok compiled) (value : AttributeValue) :
    handle.Gives table.entries value (compiled.factorFor value) := by
  obtain ⟨-, hrules⟩ := compileTable_eq_ok_iff.mp h
  unfold CompiledTable.factorFor
  generalize table.entries = entries at hrules ⊢
  generalize compiled.rules = compiled at hrules ⊢
  induction hrules with
  | nil => exact .neutral rfl
  | @cons entry rule rest _ hrule _ ih =>
      obtain ⟨hread, hfactor⟩ := compileRule_eq_ok_iff.mp hrule
      have hpasses : handle.passes entry.1 value = rule.matcher.accepts value :=
        passes_of_readPattern hread
      rw [List.find?_cons, ← hpasses]
      cases hcases : handle.passes entry.1 value with
      | true =>
          have hfirst : handle.decider? (entry :: rest) value = some entry := by
            rw [decider?_cons, if_pos hcases]
          exact .decided hfirst (Factor.denotes_iff.mpr (checkFactor_eq_ok_iff.mp hfactor).1)
      | false =>
          refine ih.of_decider?_eq ?_
          rw [decider?_cons, if_neg (by simp [hcases])]

/-! ## What an edit does to the deciding rule -/

/-- A rule with a new pattern goes to the end, and decides what no other rule does. -/
theorem decider?_put_of_notMem (h : text ∉ Entries.names rules) :
    handle.decider? (Entries.put text factor rules) value =
      (handle.decider? rules value).or
        (if handle.passes text value = true then some (text, factor) else none) := by
  rw [Entries.put_of_notMem h, decider?_append, decider?_cons]
  rfl

/-- A rule that is written in its place decides what it decided before.  A later rule with the same
pattern decides nothing: the rule in front passes the same values. -/
theorem decider?_put_of_mem (h : text ∈ Entries.names rules) :
    handle.decider? (Entries.put text factor rules) value =
      if handle.firstPattern? rules value = some text then some (text, factor)
      else handle.decider? rules value := by
  induction rules with
  | nil => cases h
  | cons rule rest ih =>
      rw [Entries.put, firstPattern?_cons, decider?_cons]
      by_cases htext : rule.1 = text
      · rw [if_pos htext, decider?_cons, htext]
        by_cases hpasses : handle.passes text value = true
        · rw [if_pos hpasses, if_pos hpasses, if_pos rfl]
        · have hfirst : ¬ handle.firstPattern? rest value = some text :=
            fun hfirst => hpasses (passes_of_firstPattern? hfirst)
          rw [if_neg hpasses, if_neg hpasses, if_neg hpasses, if_neg hfirst]
      · rw [if_neg htext, decider?_cons]
        by_cases hpasses : handle.passes rule.1 value = true
        · have hfirst : ¬ some rule.1 = some text := fun heq => htext (Option.some.inj heq)
          rw [if_pos hpasses, if_pos hpasses, if_pos hpasses, if_neg hfirst]
        · have hrest : text ∈ Entries.names rest :=
            (List.mem_cons.mp h).resolve_left fun heq => htext heq.symm
          rw [if_neg hpasses, if_neg hpasses, if_neg hpasses]
          exact ih hrest

/-- Removing a rule changes nothing for the values that it does not decide. -/
theorem decider?_drop_of_ne (h : handle.firstPattern? rules value ≠ some text) :
    handle.decider? (Entries.drop text rules) value = handle.decider? rules value := by
  induction rules with
  | nil => rfl
  | cons rule rest ih =>
      rw [firstPattern?_cons] at h
      rw [Entries.drop_cons, decider?_cons]
      by_cases hpasses : handle.passes rule.1 value = true
      · rw [if_pos hpasses] at h
        have htext : rule.1 ≠ text := fun heq => h (congrArg some heq)
        rw [if_neg htext, decider?_cons, if_pos hpasses, if_pos hpasses]
      · rw [if_neg hpasses] at h
        rw [if_neg hpasses, ← ih h]
        split
        · rfl
        · rw [decider?_cons, if_neg hpasses]

/-- What a removed rule decided falls to the rules after it. -/
theorem decider?_drop_of_split {old : Factor} (hrules : rules = before ++ (text, old) :: after)
    (hnodup : (Entries.names rules).Nodup) (h : handle.firstPattern? rules value = some text) :
    handle.decider? (Entries.drop text rules) value = handle.decider? after value := by
  subst hrules
  rw [Entries.names, List.map_append, List.map_cons, List.nodup_append, List.nodup_cons] at hnodup
  obtain ⟨-, ⟨hafter, -⟩, hbefore⟩ := hnodup
  have hdrop : Entries.drop text (before ++ (text, old) :: after) = before ++ after := by
    have hleft : text ∉ Entries.names before := fun hmem =>
      hbefore text hmem text List.mem_cons_self rfl
    rw [Entries.drop, List.filter_append, ← Entries.drop, ← Entries.drop,
      Entries.drop_of_notMem hleft, Entries.drop_cons, if_pos rfl, Entries.drop_of_notMem hafter]
  have hnone : handle.decider? before value = none := by
    cases hfound : handle.decider? before value with
    | none => rfl
    | some rule =>
        rw [firstPattern?, decider?_append, hfound] at h
        have hname : rule.1 = text := Option.some.inj h
        have hmem := List.mem_map_of_mem (f := Prod.fst) (List.mem_of_find?_eq_some hfound)
        exact absurd hname (hbefore rule.1 hmem text List.mem_cons_self)
  rw [hdrop, decider?_append, hnone, Option.none_or]

/-! ## What an edit does to the factors -/

/-- A rule with a new pattern gives its factor to what it passes and no other rule does. -/
theorem Gives.put_of_notMem (hold : handle.Gives rules value x)
    (hnew : handle.Gives (Entries.put text factor rules) value y) {written : Binary64}
    (h : text ∉ Entries.names rules) (hfactor : factor.Denotes written) :
    y = if ∃ rule ∈ rules, handle.passes rule.1 value = true then x
      else if handle.passes text value = true then written else .one := by
  have hput : handle.decider? (Entries.put text factor rules) value =
      (handle.decider? rules value).or
        (if handle.passes text value = true then some (text, factor) else none) :=
    decider?_put_of_notMem h
  by_cases hany : ∃ rule ∈ rules, handle.passes rule.1 value = true
  · rw [if_pos hany]
    cases hfound : handle.decider? rules value with
    | none =>
        obtain ⟨rule, hmem, hpasses⟩ := hany
        exact absurd hpasses (decider?_eq_none_iff.mp hfound rule hmem)
    | some rule =>
        rw [hfound, Option.some_or] at hput
        exact hnew.eq_of_decider?_eq hold (hput.trans hfound.symm)
  · rw [if_neg hany]
    have hnone : handle.decider? rules value = none :=
      decider?_eq_none_iff.mpr fun rule hmem hpasses => hany ⟨rule, hmem, hpasses⟩
    rw [hnone, Option.none_or] at hput
    by_cases hpasses : handle.passes text value = true
    · rw [if_pos hpasses] at hput ⊢
      exact hnew.eq_of_denotes hput hfactor
    · rw [if_neg hpasses] at hput ⊢
      exact hnew.eq_one hput

/-- A rule that is written in its place gives its factor to what the pattern decided before. -/
theorem Gives.put_of_mem (hold : handle.Gives rules value x)
    (hnew : handle.Gives (Entries.put text factor rules) value y) {written : Binary64}
    (h : text ∈ Entries.names rules) (hfactor : factor.Denotes written) :
    y = if handle.firstPattern? rules value = some text then written else x := by
  have hput : handle.decider? (Entries.put text factor rules) value =
      if handle.firstPattern? rules value = some text then some (text, factor)
      else handle.decider? rules value :=
    decider?_put_of_mem h
  by_cases hfirst : handle.firstPattern? rules value = some text
  · rw [if_pos hfirst] at hput ⊢
    exact hnew.eq_of_denotes hput hfactor
  · rw [if_neg hfirst] at hput ⊢
    exact hnew.eq_of_decider?_eq hold hput

/-- A table compiles exactly if all of its rules are valid. -/
theorem exists_compile_ofTable_iff {registry : Registry} (h : handle ∈ registry.handles)
    {table : RuleTable} :
    (∃ model, Model.compile (.ofTable handle.name table) registry = .ok model) ↔
      ∀ rule ∈ table.entries, handle.ValidRule rule := by
  rw [← (handle.reports_compileTable table).ok_iff]
  simp [Model.compile_ofTable_eq_ok_iff h]

/-- A table of valid rules compiles, and gives the factors of its rules. -/
theorem exists_compile_ofTable {registry : Registry} (h : handle ∈ registry.handles)
    {table : RuleTable} (hvalid : ∀ rule ∈ table.entries, handle.ValidRule rule) :
    ∃ compiled, Model.compile (.ofTable handle.name table) registry = .ok ⟨[compiled]⟩ ∧
      ∀ value, handle.Gives table.entries value (compiled.factorFor value) := by
  obtain ⟨model, hmodel⟩ := (exists_compile_ofTable_iff h).mpr hvalid
  obtain ⟨compiled, hcompiled, rfl⟩ := (Model.compile_ofTable_eq_ok_iff h).mp hmodel
  exact ⟨compiled, hmodel, gives_factorFor hcompiled⟩

end Handle

/-- **An edit changes what the edited rule decides.**  A table that compiles also compiles after a
rule is written in it or removed from it.  A rule with a new pattern gives its factor to the values
that it passes and that no rule of the table passes; a rule under a pattern of the table gives it to
the values that this pattern is the first to pass; and a removed rule leaves the values that its
pattern was the first to pass to the rules declared after it.  All other values keep their
factors. -/
theorem edits_change_decided_values {registry : Registry} {handle : Handle}
    (h : handle ∈ registry.handles) {table : RuleTable} {model : Model}
    (hcompile : Model.compile (.ofTable handle.name table) registry = .ok model)
    {text : String} (hlegal : handle.Legal text) {factor : Factor} {x : Binary64}
    (hfactor : factor.Denotes x) (hx : x.InUnitInterval) :
    ∃ compiled, model = ⟨[compiled]⟩ ∧
      (∃ edited,
        Model.compile (.ofTable handle.name (table.insert text factor)) registry =
          .ok ⟨[edited]⟩ ∧
        (table.get? text = none → ∀ value, edited.factorFor value =
          if ∃ rule ∈ table.entries, handle.passes rule.1 value = true then
            compiled.factorFor value
          else if handle.passes text value = true then x
          else .one) ∧
        (table.get? text ≠ none → ∀ value, edited.factorFor value =
          if handle.firstPattern? table.entries value = some text then x
          else compiled.factorFor value)) ∧
      ∃ edited,
        Model.compile (.ofTable handle.name (table.erase text)) registry = .ok ⟨[edited]⟩ ∧
        ∀ value,
          (handle.firstPattern? table.entries value ≠ some text →
            edited.factorFor value = compiled.factorFor value) ∧
          (handle.firstPattern? table.entries value = some text →
            ∀ before old after, table.entries = before ++ (text, old) :: after →
              handle.Gives after value (edited.factorFor value)) := by
  have hvalid := (Handle.exists_compile_ofTable_iff h).mp ⟨model, hcompile⟩
  obtain ⟨compiled, htable, rfl⟩ := (Model.compile_ofTable_eq_ok_iff h).mp hcompile
  have hgives := Handle.gives_factorFor htable
  refine ⟨compiled, rfl, ?_, ?_⟩
  · have hwritten : ∀ rule ∈ (table.insert text factor).entries, handle.ValidRule rule := by
      intro rule hrule
      rcases Entries.mem_put hrule with rfl | hrule
      · exact ⟨hlegal, x, hfactor, hx.isNan_eq_false, hx⟩
      · exact hvalid rule hrule
    obtain ⟨edited, hedited, hnew⟩ := Handle.exists_compile_ofTable h hwritten
    refine ⟨edited, hedited, fun hfresh value => ?_, fun hknown value => ?_⟩
    · have hnotMem := (Entries.find?_eq_none_iff text table.entries).mp hfresh
      exact (hgives value).put_of_notMem (hnew value) hnotMem hfactor
    · have hmem := not_not.mp (mt (Entries.find?_eq_none_iff text table.entries).mpr hknown)
      exact (hgives value).put_of_mem (hnew value) hmem hfactor
  · have hkept : ∀ rule ∈ (table.erase text).entries, handle.ValidRule rule :=
      fun rule hrule => hvalid rule (List.mem_of_mem_filter hrule)
    obtain ⟨edited, hedited, hnew⟩ := Handle.exists_compile_ofTable h hkept
    refine ⟨edited, hedited, fun value => ⟨fun hfirst => ?_, ?_⟩⟩
    · exact (hnew value).eq_of_decider?_eq (hgives value) (Handle.decider?_drop_of_ne hfirst)
    · intro hfirst before old after hsplit
      exact (hnew value).of_decider?_eq
        (Handle.decider?_drop_of_split hsplit table.nodup_names hfirst).symm

/-- Speeds below 30 have a quarter, then those below 100 a half.  A zero in place of the quarter,
the removal of the rule of the quarter and a last rule for all speeds change the factors of the
speeds that these rules decide, and leave 50 at a half. -/
theorem edits_change_speeds :
    let speed : Handle := ⟨5, (Definition.continuous "max_speed").withDirections⟩
    let half : Binary64 := .signed false ⟨1022 * Nat.pow 2 52, by decide⟩
    let quarter : Binary64 := .signed false ⟨1021 * Nat.pow 2 52, by decide⟩
    let table : RuleTable := ⟨[("<30", .number quarter), ("<100", .number half)], by decide⟩
    let compiled : CompiledTable :=
      ⟨speed, [⟨.relational .less (.ofInt 30), .compare .less (.ofInt 30), quarter⟩,
        ⟨.relational .less (.ofInt 100), .compare .less (.ofInt 100), half⟩]⟩
    let zero : Factor := .number .zero
    let factorAfter (edit : RuleTable) (value : Int) (x : Binary64) : Prop :=
      ∃ edited, Model.compile (.ofTable "max_speed" edit) Road.registry = .ok ⟨[edited]⟩ ∧
        edited.factorFor (.number (.ofInt value)) = x
    speed ∈ Road.registry.handles ∧
      Model.compile (.ofTable "max_speed" table) Road.registry = .ok ⟨[compiled]⟩ ∧
      speed.Legal "<30" ∧ speed.Legal "*" ∧ zero.Denotes .zero ∧ Binary64.zero.InUnitInterval ∧
      factorAfter (table.insert "<30" zero) 20 .zero ∧
      factorAfter (table.insert "<30" zero) 50 half ∧
      factorAfter (table.erase "<30") 20 half ∧ factorAfter (table.erase "<30") 50 half ∧
      factorAfter (table.insert "*" zero) 110 .zero ∧
      factorAfter (table.insert "*" zero) 50 half := by
  intro speed half quarter table compiled zero factorAfter
  have hspeed : speed ∈ Road.registry.handles := by decide
  have hcompile : Model.compile (.ofTable "max_speed" table) Road.registry =
      .ok ⟨[compiled]⟩ := by
    decide +kernel
  have hslow : speed.Legal "<30" :=
    (Handle.reports_readPattern speed "<30").ok_iff.mp
      ⟨(.relational .less (.ofInt 30), .compare .less (.ofInt 30)), by decide +kernel⟩
  have hall : speed.Legal "*" := .wildcard rfl
  have hzero : zero.Denotes .zero := .number
  have hunit : Binary64.zero.InUnitInterval := by decide
  obtain ⟨_, hmodel, ⟨slower, hslower, -, hinPlace⟩, ⟨removed, hremoved, hleft⟩⟩ :=
    edits_change_decided_values hspeed hcompile hslow hzero hunit
  cases hmodel
  obtain ⟨_, hmodel, ⟨longer, hlonger, hatEnd, -⟩, -⟩ :=
    edits_change_decided_values hspeed hcompile hall hzero hunit
  cases hmodel
  have hgives : speed.Gives [("<100", .number half)] (.number (.ofInt 20)) _ :=
    (hleft _).2 (by decide +kernel) [] _ _ rfl
  refine ⟨hspeed, hcompile, hslow, hall, hzero, hunit, ⟨slower, hslower, ?_⟩,
    ⟨slower, hslower, ?_⟩, ⟨removed, hremoved, ?_⟩, ⟨removed, hremoved, ?_⟩,
    ⟨longer, hlonger, ?_⟩, ⟨longer, hlonger, ?_⟩⟩
  · rw [hinPlace (by decide)]
    decide +kernel
  · rw [hinPlace (by decide)]
    decide +kernel
  · have hnext : speed.decider? [("<100", .number half)] (.number (.ofInt 20)) =
        some ("<100", .number half) := by
      rw [Handle.decider?_cons, if_pos (by decide +kernel)]
    exact hgives.eq_of_denotes hnext .number
  · rw [(hleft _).1 (by decide +kernel)]
    decide +kernel
  · rw [hatEnd (by decide)]
    decide +kernel
  · rw [hatEnd (by decide)]
    decide +kernel

end RoutePriority
