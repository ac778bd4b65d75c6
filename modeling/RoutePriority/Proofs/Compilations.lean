import RoutePriority.Priority.Compile
import RoutePriority.Proofs.RegisteredHandles
import RoutePriority.Proofs.UnitInterval
import Mathlib.Data.List.Forall2

/-!
# What a compilation does

Compiling goes through a specification entry by entry, through each table rule by rule, and ends at
the first error.  Both levels are one traversal, `List.mapM` over results that may be errors, and
`FirstViolation` says which error such a traversal reports.  The traversal of a specification is
`Compilation.run` without its log (`compile_eq_mapM`).

Registrations and assignments end at their first error too, but there an entry meets a state that
the entries before it have changed.  `FirstInvalid` is the general notion, and `Reports.foldlM` the
one lemma about such runs; a violation is what it says of entries that no state changes.

`compile_eq_ok_iff`, `compileTable_eq_ok_iff` and `compileRule_eq_ok_iff` say what the parts of a
model that compiled are; later proofs use them and do not open the compiler again.
-/

namespace RoutePriority

section Traversal

variable {α β ε : Type}

section States

variable {σ : Type}

/-- Every entry is valid in the state that those before it lead to. -/
inductive ValidInOrder (advance : σ → α → σ) (Valid : σ → α → Prop) : σ → List α → Prop
  | nil {state : σ} : ValidInOrder advance Valid state []
  | cons {state : σ} {entry : α} {rest : List α} (h : Valid state entry)
      (hrest : ValidInOrder advance Valid (advance state entry) rest) :
      ValidInOrder advance Valid state (entry :: rest)

/-- The first entry that is not valid in the state that those before it lead to violates something
there. -/
inductive FirstInvalid (advance : σ → α → σ) (Valid : σ → α → Prop)
    (Violates : σ → α → ε → Prop) : σ → List α → ε → Prop
  | here {state : σ} {entry : α} {rest : List α} {error : ε} (h : Violates state entry error) :
      FirstInvalid advance Valid Violates state (entry :: rest) error
  | later {state : σ} {entry : α} {rest : List α} {error : ε} (hvalid : Valid state entry)
      (hrest : FirstInvalid advance Valid Violates (advance state entry) rest error) :
      FirstInvalid advance Valid Violates state (entry :: rest) error

variable {advance : σ → α → σ} {Valid : σ → α → Prop} {Violates : σ → α → ε → Prop} {state : σ}
  {entry : α} {rest : List α} {error : ε}

/-- A list is valid in order if its first entry is, and the others after it. -/
theorem validInOrder_cons :
    ValidInOrder advance Valid state (entry :: rest) ↔
      Valid state entry ∧ ValidInOrder advance Valid (advance state entry) rest := by
  constructor
  · intro h
    cases h with
    | cons h hrest => exact ⟨h, hrest⟩
  · intro h
    exact .cons h.1 h.2

/-- The first entry is what is not valid, or it is valid and the fault lies after it. -/
theorem firstInvalid_cons :
    FirstInvalid advance Valid Violates state (entry :: rest) error ↔
      Violates state entry error ∨
        Valid state entry ∧
          FirstInvalid advance Valid Violates (advance state entry) rest error := by
  constructor
  · intro h
    cases h with
    | here h => exact Or.inl h
    | later hvalid hrest => exact Or.inr ⟨hvalid, hrest⟩
  · intro h
    rcases h with h | ⟨hvalid, hrest⟩
    · exact .here h
    · exact .later hvalid hrest

/-- Where no state counts, entries are valid in order if each is valid. -/
theorem validInOrder_iff_forall_mem {ValidEntry : α → Prop} {entries : List α} :
    ValidInOrder advance (fun _ => ValidEntry) state entries ↔
      ∀ entry ∈ entries, ValidEntry entry := by
  induction entries generalizing state with
  | nil => exact iff_of_true .nil (by simp)
  | cons entry rest ih => rw [validInOrder_cons, ih, List.forall_mem_cons]

end States

/-- The first of the entries that is not valid violates something, and all before it are valid. -/
abbrev FirstViolation (Valid : α → Prop) (Violates : α → ε → Prop) : List α → ε → Prop :=
  FirstInvalid (fun (_ : Unit) _ => ()) (fun _ => Valid) (fun _ => Violates) ()

/-- The first entry violates something, or it is valid and the violation comes after it. -/
theorem firstViolation_cons {Valid : α → Prop} {Violates : α → ε → Prop} {entry : α}
    {rest : List α} {error : ε} :
    FirstViolation Valid Violates (entry :: rest) error ↔
      Violates entry error ∨ Valid entry ∧ FirstViolation Valid Violates rest error :=
  firstInvalid_cons

variable {f : α → Except ε β} {entry : α} {rest entries : List α}

/-- A pass succeeds if its first step does and the pass over the rest. -/
theorem mapM_cons_eq_ok_iff {results : List β} :
    (entry :: rest).mapM f = .ok results ↔
      ∃ first others, f entry = .ok first ∧ rest.mapM f = .ok others ∧
        results = first :: others := by
  rw [List.mapM_cons]
  cases f entry with
  | error error => simp [bind, Except.bind]
  | ok first =>
      cases rest.mapM f with
      | error error => simp [bind, Except.bind]
      | ok others => simp [bind, Except.bind, pure, Except.pure, eq_comm]

/-- A pass fails with the error of its first step, or with that of the rest after it. -/
theorem mapM_cons_eq_error_iff {error : ε} :
    (entry :: rest).mapM f = .error error ↔
      f entry = .error error ∨ (∃ first, f entry = .ok first) ∧ rest.mapM f = .error error := by
  rw [List.mapM_cons]
  cases f entry with
  | error found => simp [bind, Except.bind]
  | ok first =>
      cases rest.mapM f with
      | error found => simp [bind, Except.bind]
      | ok others => simp [bind, Except.bind, pure, Except.pure]

/-- A run succeeds if its first step does and the run from there. -/
theorem foldlM_cons_eq_ok_iff {step : β → α → Except ε β} {state last : β} :
    (entry :: rest).foldlM step state = .ok last ↔
      ∃ next, step state entry = .ok next ∧ rest.foldlM step next = .ok last := by
  rw [List.foldlM_cons]
  cases step state entry <;> simp [bind, Except.bind]

/-- A run fails with the error of its first step, or with that of the run from there. -/
theorem foldlM_cons_eq_error_iff {step : β → α → Except ε β} {state : β} {error : ε} :
    (entry :: rest).foldlM step state = .error error ↔
      step state entry = .error error ∨
        ∃ next, step state entry = .ok next ∧ rest.foldlM step next = .error error := by
  rw [List.foldlM_cons]
  cases step state entry <;> simp [bind, Except.bind]

/-- A traversal succeeds with the results of its entries, in their order. -/
theorem mapM_eq_ok_iff {results : List β} :
    entries.mapM f = .ok results ↔ List.Forall₂ (fun a b => f a = .ok b) entries results := by
  induction entries generalizing results with
  | nil =>
      rw [List.mapM_nil, List.forall₂_nil_left_iff]
      simp [pure, Except.pure, eq_comm]
  | cons entry rest ih =>
      rw [mapM_cons_eq_ok_iff, List.forall₂_cons_left_iff]
      simp only [ih]

/-- Every result comes from an entry. -/
theorem exists_of_mem_right {R : α → β → Prop} {results : List β}
    (h : List.Forall₂ R entries results) {result : β} (hmem : result ∈ results) :
    ∃ entry ∈ entries, R entry result := by
  induction h with
  | nil => cases hmem
  | cons hfirst _ ih =>
      rcases List.mem_cons.mp hmem with rfl | hmem
      · exact ⟨_, List.mem_cons_self, hfirst⟩
      · obtain ⟨entry, hentry, hresult⟩ := ih hmem
        exact ⟨entry, List.mem_cons_of_mem _ hentry, hresult⟩

/-- A result that succeeds if something is valid, and reports what violates it otherwise. -/
structure Reports (result : Except ε β) (Valid : Prop) (Violates : ε → Prop) : Prop where
  ok_iff : (∃ value, result = .ok value) ↔ Valid
  error_iff : ∀ error, result = .error error ↔ Violates error

namespace Reports

variable {γ : Type} {result : Except ε β} {Valid : Prop} {Violates : ε → Prop}

/-- What is not valid violates something, so it is enough to know the result in either case. -/
theorem of_cases (hvalid : Valid → ∃ value, result = .ok value)
    (hviolates : ∀ error, Violates error → result = .error error)
    (htotal : Valid ∨ ∃ error, Violates error) : Reports result Valid Violates := by
  constructor
  · refine ⟨fun h => ?_, hvalid⟩
    obtain ⟨value, hvalue⟩ := h
    rcases htotal with hgood | ⟨error, hbad⟩
    · exact hgood
    · cases hvalue.symm.trans (hviolates error hbad)
  · refine fun error => ⟨fun h => ?_, hviolates error⟩
    rcases htotal with hgood | ⟨found, hbad⟩
    · obtain ⟨value, hvalue⟩ := hvalid hgood
      cases hvalue.symm.trans h
    · cases (hviolates found hbad).symm.trans h
      exact hbad

/-- What is done with the result does not matter for what is reported. -/
theorem map (h : Reports result Valid Violates) (g : β → γ) :
    Reports (result.map g) Valid Violates := by
  constructor
  · rw [← h.ok_iff]
    cases result <;> simp [Except.map]
  · intro error
    rw [← h.error_iff]
    cases result <;> simp [Except.map]

/-- A traversal whose steps report violations reports the first one: an entry is reached only if all
before it succeed, which is to say that they are valid. -/
theorem mapM {ValidEntry : α → Prop} {EntryViolates : α → ε → Prop}
    (h : ∀ entry, Reports (f entry) (ValidEntry entry) (EntryViolates entry)) :
    Reports (entries.mapM f) (∀ entry ∈ entries, ValidEntry entry)
      (FirstViolation ValidEntry EntryViolates entries) := by
  induction entries with
  | nil =>
      refine of_cases (fun _ => ⟨[], rfl⟩) (fun error hviolates => ?_) (Or.inl (by simp))
      cases hviolates
  | cons entry rest ih =>
      constructor
      · rw [List.forall_mem_cons, ← (h entry).ok_iff, ← ih.ok_iff]
        simp only [mapM_cons_eq_ok_iff]
        constructor
        · intro hresults
          obtain ⟨_, first, others, hentry, hrest, -⟩ := hresults
          exact ⟨⟨first, hentry⟩, others, hrest⟩
        · intro hresults
          obtain ⟨⟨first, hentry⟩, others, hrest⟩ := hresults
          exact ⟨first :: others, first, others, hentry, hrest, rfl⟩
      · intro error
        rw [mapM_cons_eq_error_iff, firstViolation_cons, (h entry).error_iff, (h entry).ok_iff,
          ih.error_iff]

/-- Steps are made one after the other, and each reports what is wrong with its entry in the state
that it starts from.  Then the run reports the first entry that is not valid in its state. -/
theorem foldlM {σ : Type} {step : β → α → Except ε β} (view : β → σ) {advance : σ → α → σ}
    {Sound : β → Prop} {ValidEntry : σ → α → Prop} {EntryViolates : σ → α → ε → Prop}
    (hstep : ∀ state entry, Sound state →
      Reports (step state entry) (ValidEntry (view state) entry) (EntryViolates (view state) entry))
    (hnext : ∀ state entry next, Sound state → step state entry = .ok next →
      Sound next ∧ view next = advance (view state) entry)
    {state : β} (hstate : Sound state) (entries : List α) :
    Reports (entries.foldlM step state) (ValidInOrder advance ValidEntry (view state) entries)
      (FirstInvalid advance ValidEntry EntryViolates (view state) entries) := by
  induction entries generalizing state with
  | nil =>
      refine of_cases (fun _ => ⟨state, rfl⟩) (fun error hviolates => ?_) (Or.inl .nil)
      cases hviolates
  | cons entry rest ih =>
      have hfirst := hstep state entry hstate
      have hrest : ∀ next, step state entry = .ok next →
          Reports (rest.foldlM step next)
            (ValidInOrder advance ValidEntry (advance (view state) entry) rest)
            (FirstInvalid advance ValidEntry EntryViolates (advance (view state) entry) rest) := by
        intro next hmade
        obtain ⟨hsound, hview⟩ := hnext state entry next hstate hmade
        rw [← hview]
        exact ih hsound
      constructor
      · simp only [foldlM_cons_eq_ok_iff, validInOrder_cons, ← hfirst.ok_iff]
        constructor
        · intro h
          obtain ⟨last, next, hmade, hlast⟩ := h
          exact ⟨⟨next, hmade⟩, (hrest next hmade).ok_iff.mp ⟨last, hlast⟩⟩
        · intro h
          obtain ⟨⟨next, hmade⟩, hvalid⟩ := h
          obtain ⟨last, hlast⟩ := (hrest next hmade).ok_iff.mpr hvalid
          exact ⟨last, next, hmade, hlast⟩
      · intro error
        rw [foldlM_cons_eq_error_iff, firstInvalid_cons, hfirst.error_iff, ← hfirst.ok_iff]
        refine or_congr_right ⟨fun h => ?_, fun h => ?_⟩
        · obtain ⟨next, hmade, herror⟩ := h
          exact ⟨⟨next, hmade⟩, ((hrest next hmade).error_iff error).mp herror⟩
        · obtain ⟨⟨next, hmade⟩, hviolates⟩ := h
          exact ⟨next, hmade, ((hrest next hmade).error_iff error).mpr hviolates⟩

end Reports

end Traversal

namespace Compilation

/-- Further tables are compiled by traversing their entries. -/
theorem extend_result (registry : Registry) (model : Model) (entries : List (String × RuleTable)) :
    (extend registry model entries).result =
      (entries.mapM fun entry => registry.compileTable entry.1 entry.2).map
        fun tables => ⟨model.tables ++ tables⟩ := by
  induction entries generalizing model with
  | nil => simp [extend, Except.map, pure, Except.pure]
  | cons entry rest ih =>
      obtain ⟨name, table⟩ := entry
      rw [extend, List.mapM_cons]
      cases registry.compileTable name table with
      | error error => rfl
      | ok compiled =>
          simp only [ih]
          cases rest.mapM fun entry => registry.compileTable entry.1 entry.2 with
          | error error => rfl
          | ok tables => simp [bind, Except.bind, pure, Except.pure, Except.map]

end Compilation

/-- A specification is compiled by traversing its entries. -/
theorem Model.compile_eq_mapM (specification : Specification) (registry : Registry) :
    Model.compile specification registry =
      (specification.entries.mapM fun entry => registry.compileTable entry.1 entry.2).map
        Model.mk := by
  rw [Model.compile, Compilation.run, Compilation.extend_result]
  simp

/-- A model that compiled has the compiled tables of its specification, in their order. -/
theorem Model.compile_eq_ok_iff {specification : Specification} {registry : Registry}
    {model : Model} :
    Model.compile specification registry = .ok model ↔
      List.Forall₂ (fun entry table => registry.compileTable entry.1 entry.2 = .ok table)
        specification.entries model.tables := by
  rw [Model.compile_eq_mapM, ← mapM_eq_ok_iff]
  cases specification.entries.mapM fun entry => registry.compileTable entry.1 entry.2 with
  | error error => simp [Except.map]
  | ok tables =>
      obtain ⟨_⟩ := model
      simp [Except.map]

/-- A specification is refused with the error that its traversal ends at. -/
theorem Model.compile_eq_error_iff {specification : Specification} {registry : Registry}
    {error : CompileError} :
    Model.compile specification registry = .error error ↔
      (specification.entries.mapM fun entry => registry.compileTable entry.1 entry.2) =
        .error error := by
  rw [Model.compile_eq_mapM]
  cases specification.entries.mapM fun entry => registry.compileTable entry.1 entry.2 <;>
    simp [Except.map]

namespace Handle

/-- A compiled table has the compiled rules of its table, in their order. -/
theorem compileTable_eq_ok_iff {handle : Handle} {table : RuleTable} {compiled : CompiledTable} :
    handle.compileTable table = .ok compiled ↔
      compiled.handle = handle ∧
        List.Forall₂ (fun entry rule => handle.compileRule entry.1 entry.2 = .ok rule)
          table.entries compiled.rules := by
  rw [Handle.compileTable, ← mapM_eq_ok_iff]
  cases table.entries.mapM fun entry => handle.compileRule entry.1 entry.2 with
  | error error => simp [Except.map]
  | ok rules =>
      obtain ⟨owner, others⟩ := compiled
      simp [Except.map, eq_comm]

/-- A compiled rule joins the reading of its pattern and its checked factor. -/
theorem compileRule_eq_ok_iff {handle : Handle} {text : String} {factor : Factor} {rule : Rule} :
    handle.compileRule text factor = .ok rule ↔
      handle.readPattern text = .ok (rule.pattern, rule.matcher) ∧
        handle.checkFactor text factor = .ok rule.factor := by
  rw [Handle.compileRule]
  cases handle.readPattern text with
  | error fault => simp [bind, Except.bind, Except.mapError]
  | ok read =>
      obtain ⟨pattern, matcher⟩ := read
      obtain ⟨pattern', matcher', value'⟩ := rule
      cases handle.checkFactor text factor with
      | error error => simp [bind, Except.bind, Except.mapError]
      | ok value => simp [bind, Except.bind, Except.mapError, pure, Except.pure, and_assoc]

/-- A factor without a number is called invalid, and so is one that is not a number. -/
theorem checkFactor_of_no_number {handle : Handle} {text : String} {factor : Factor}
    (h : ∀ x, factor.toBinary64? = some x → x.isNan = true) :
    handle.checkFactor text factor = .error (.invalidFactor handle.name text factor.display) := by
  rw [Handle.checkFactor]
  cases hnumber : factor.toBinary64? with
  | none => rfl
  | some x => simp [Option.filter, h x hnumber]

/-- A number is a factor if it lies in the unit interval. -/
theorem checkFactor_of_number {handle : Handle} {text : String} {factor : Factor} {x : Binary64}
    (h : factor.toBinary64? = some x) (hx : x.isNan = false) :
    handle.checkFactor text factor =
      if x.InUnitInterval then .ok x else .error (.outOfRangeFactor handle.name x) := by
  rw [Handle.checkFactor, h]
  simp only [Option.filter, hx, Binary64.InUnitInterval]
  by_cases hbounds : Binary64.zero.le x = true ∧ x.le .one = true <;> simp [hbounds]

/-- A factor passes its check if it is a number of the unit interval. -/
theorem checkFactor_eq_ok_iff {handle : Handle} {text : String} {factor : Factor} {x : Binary64} :
    handle.checkFactor text factor = .ok x ↔
      factor.toBinary64? = some x ∧ x.InUnitInterval := by
  constructor
  · intro h
    by_cases hnumber : ∃ y, factor.toBinary64? = some y ∧ y.isNan = false
    · obtain ⟨y, hy, hnan⟩ := hnumber
      rw [checkFactor_of_number hy hnan] at h
      by_cases hbounds : y.InUnitInterval
      · rw [if_pos hbounds] at h
        cases h
        exact ⟨hy, hbounds⟩
      · rw [if_neg hbounds] at h
        cases h
    · rw [checkFactor_of_no_number (by simpa using hnumber)] at h
      cases h
  · intro h
    rw [checkFactor_of_number h.1 h.2.isNan_eq_false, if_pos h.2]

end Handle

/-- A compiled table belongs to the attribute of its name and has the compiled rules of its table.
-/
theorem Registry.compileTable_eq_ok_iff {registry : Registry} {name : String} {table : RuleTable}
    {compiled : CompiledTable} :
    registry.compileTable name table = .ok compiled ↔
      registry.resolve? name = some compiled.handle ∧
        List.Forall₂ (fun entry rule => compiled.handle.compileRule entry.1 entry.2 = .ok rule)
          table.entries compiled.rules := by
  rw [Registry.compileTable]
  cases registry.resolve? name with
  | none => simp
  | some handle =>
      rw [Option.some.injEq, Handle.compileTable_eq_ok_iff]
      constructor
      · intro h
        obtain ⟨rfl, hrules⟩ := h
        exact ⟨rfl, hrules⟩
      · intro h
        obtain ⟨rfl, hrules⟩ := h
        exact ⟨rfl, hrules⟩

/-- The tables of a model belong to attributes of its registry. -/
theorem Model.mem_handles_of_mem {specification : Specification} {registry : Registry}
    {model : Model} (hcompile : Model.compile specification registry = .ok model)
    {table : CompiledTable} (htable : table ∈ model.tables) : table.handle ∈ registry.handles := by
  obtain ⟨entry, -, hcompiled⟩ := exists_of_mem_right (compile_eq_ok_iff.mp hcompile) htable
  exact Registry.mem_handles_of_resolve? (Registry.compileTable_eq_ok_iff.mp hcompiled).1

/-- Every rule of a model was compiled for the attribute of its table. -/
theorem Model.exists_compileRule {specification : Specification} {registry : Registry}
    {model : Model} (hcompile : Model.compile specification registry = .ok model)
    {table : CompiledTable} (htable : table ∈ model.tables) {rule : Rule}
    (hrule : rule ∈ table.rules) :
    ∃ entry ∈ specification.entries, registry.resolve? entry.1 = some table.handle ∧
      ∃ declared ∈ entry.2.entries,
        table.handle.compileRule declared.1 declared.2 = .ok rule := by
  obtain ⟨entry, hentry, hcompiled⟩ := exists_of_mem_right (compile_eq_ok_iff.mp hcompile) htable
  obtain ⟨hresolve, hrules⟩ := Registry.compileTable_eq_ok_iff.mp hcompiled
  exact ⟨entry, hentry, hresolve, exists_of_mem_right hrules hrule⟩

/-- No factor outside the unit interval gets into a model. -/
theorem Model.inUnitInterval_factor {specification : Specification} {registry : Registry}
    {model : Model} (hcompile : Model.compile specification registry = .ok model)
    {table : CompiledTable} (htable : table ∈ model.tables) {rule : Rule}
    (hrule : rule ∈ table.rules) :
    rule.factor.InUnitInterval := by
  obtain ⟨_, _, _, _, _, hcompiled⟩ := Model.exists_compileRule hcompile htable hrule
  obtain ⟨-, hfactor⟩ := Handle.compileRule_eq_ok_iff.mp hcompiled
  exact (Handle.checkFactor_eq_ok_iff.mp hfactor).2

end RoutePriority
