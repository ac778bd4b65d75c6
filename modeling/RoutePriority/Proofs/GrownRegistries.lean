import RoutePriority.Proofs.Catalogues
import RoutePriority.Proofs.KindSafety

/-!
# Compiling for a grown registry

Registering further attributes leaves the registered ones in their slots, and a call that is refused
leaves everything as it is.  So a name that is resolved stays resolved to the same handle
(`Registry.resolve?_grow`), and a table that was compiled or refused for its rules is compiled or
refused in the same way.  Only an unknown name can become known.

Compiling goes through the tables in their order and ends at the first error.  All tables before it
compile as they did, so the first error stays where it was unless it is an unknown name that has
become known (`compile_grow`).
-/

namespace RoutePriority

section Traversal

variable {α β ε : Type} {f g : α → Except ε β} {entries : List α}

/-- A traversal ends at the same error if neither the successful steps nor that error change. -/
theorem mapM_eq_error_of_steps {error : ε} (hok : ∀ a b, f a = .ok b → g a = .ok b)
    (herror : ∀ a, f a = .error error → g a = .error error)
    (h : entries.mapM f = .error error) : entries.mapM g = .error error := by
  induction entries with
  | nil => cases h
  | cons entry rest ih =>
      rw [mapM_cons_eq_error_iff] at h ⊢
      rcases h with hhere | ⟨⟨first, hfirst⟩, hrest⟩
      · exact Or.inl (herror entry hhere)
      · exact Or.inr ⟨⟨first, hok entry first hfirst⟩, ih hrest⟩

end Traversal

namespace Registry

variable {registry : Registry}

/-- A registered attribute keeps its handle. -/
theorem mem_handles_grow {handle : Handle} (h : handle ∈ registry.handles)
    (definitions : List Definition) : handle ∈ (registry.grow definitions).handles := by
  obtain ⟨added, hadded⟩ := registry.definitions_prefix_grow definitions
  have hslot := slot_lt_of_mem h
  rw [length_handles] at hslot
  rw [mem_handles_iff] at h ⊢
  rw [← hadded, List.getElem?_append_left hslot]
  exact h

/-- A resolved name is resolved to the same handle ever after. -/
theorem resolve?_grow {name : String} {handle : Handle}
    (h : registry.resolve? name = some handle) (definitions : List Definition) :
    (registry.grow definitions).resolve? name = some handle := by
  obtain ⟨hmem, hname⟩ := resolve?_eq_some_iff.mp h
  exact resolve?_eq_some_iff.mpr ⟨mem_handles_grow hmem definitions, hname⟩

theorem size_le_size_grow (registry : Registry) (definitions : List Definition) :
    registry.size ≤ (registry.grow definitions).size :=
  (registry.definitions_prefix_grow definitions).length_le

variable {name : String} {table : RuleTable} {definitions : List Definition}

/-- A table that compiles does so in a grown registry, with the same rules. -/
theorem compileTable_grow {compiled : CompiledTable}
    (h : registry.compileTable name table = .ok compiled) :
    (registry.grow definitions).compileTable name table = .ok compiled := by
  obtain ⟨hresolve, hrules⟩ := compileTable_eq_ok_iff.mp h
  exact compileTable_eq_ok_iff.mpr ⟨resolve?_grow hresolve definitions, hrules⟩

/-- A refused table is refused as before, unless its name has become known. -/
theorem compileTable_grow_error {error : CompileError}
    (hunknown : ∀ unknown, error = .unknownAttribute unknown →
      (registry.grow definitions).resolve? unknown = none)
    (h : registry.compileTable name table = .error error) :
    (registry.grow definitions).compileTable name table = .error error := by
  unfold compileTable at h ⊢
  cases hresolve : registry.resolve? name with
  | none =>
      rw [hresolve] at h
      cases h
      rw [hunknown name rfl]
  | some handle =>
      rw [hresolve] at h
      rw [resolve?_grow hresolve definitions]
      exact h

end Registry

/-- A refused specification is refused as before, unless the unknown name has become known. -/
theorem Model.compile_grow_error {specification : Specification} {registry : Registry}
    {definitions : List Definition} {error : CompileError}
    (hunknown : ∀ unknown, error = .unknownAttribute unknown →
      (registry.grow definitions).resolve? unknown = none)
    (h : Model.compile specification registry = .error error) :
    Model.compile specification (registry.grow definitions) = .error error := by
  rw [compile_eq_error_iff] at h ⊢
  exact mapM_eq_error_of_steps (fun _ _ => Registry.compileTable_grow)
    (fun _ => Registry.compileTable_grow_error hunknown) h

/-- The catalogue that a run of calls leaves behind, whatever they answer. -/
def Catalogue.grow (catalogue : Catalogue) (definitions : List Definition) : Catalogue :=
  definitions.foldl
    (fun catalogue definition => ((Registering.register definition).runOn catalogue).2) catalogue

/-- Calls that change a catalogue in place make of it what they make of the registry. -/
theorem Catalogue.Keeps.grow {catalogue : Catalogue} {registry : Registry}
    (h : catalogue.Keeps registry) (definitions : List Definition) :
    (catalogue.grow definitions).Keeps (registry.grow definitions) := by
  induction definitions generalizing catalogue registry with
  | nil => exact h
  | cons definition rest ih =>
      have hstep : ((Registering.register definition).runOn catalogue).2.Keeps
          (registry.afterRegister definition) := by
        unfold Registry.afterRegister
        obtain ⟨grown, hregister, hrun, hkeeps⟩ | ⟨error, hregister, hrun⟩ :=
          h.register_cases definition
        · rw [hregister, hrun]
          exact hkeeps
        · rw [hregister, hrun]
          exact h
      exact ih hstep

/-- **Growing a registry changes nothing that compiled.**  After further calls that register
attributes, failing ones among them, a specification that compiled gives the same model, and one
that was refused is refused with the same error, except for an unknown attribute that has been
registered.  As far as slots have 32 bits, a catalogue that the calls change in place resolves the
names as these registries do. -/
theorem compile_grow (registry : Registry) (definitions : List Definition)
    (specification : Specification) :
    let grown := registry.grow definitions
    (∀ model, Model.compile specification registry = .ok model →
      Model.compile specification grown = .ok model) ∧
    (∀ error, Model.compile specification registry = .error error →
      (∀ name, error ≠ .unknownAttribute name) →
      Model.compile specification grown = .error error) ∧
    (∀ name, Model.compile specification registry = .error (.unknownAttribute name) →
      grown.resolve? name = none →
      Model.compile specification grown = .error (.unknownAttribute name)) ∧
    ∀ catalogue : Catalogue, catalogue.Keeps registry → grown.size ≤ 2 ^ 32 → ∀ name,
      catalogue.resolve? name = registry.resolve? name ∧
        (catalogue.grow definitions).resolve? name = grown.resolve? name := by
  intro grown
  refine ⟨?_, ?_, ?_, ?_⟩
  · intro model hmodel
    rw [Model.compile_eq_ok_iff] at hmodel ⊢
    exact hmodel.imp fun _ _ => Registry.compileTable_grow
  · intro error herror hknown
    exact Model.compile_grow_error (fun name hname => absurd hname (hknown name)) herror
  · intro name herror hnone
    refine Model.compile_grow_error (fun unknown hsame => ?_) herror
    cases hsame
    exact hnone
  · intro catalogue hkeeps hcount name
    have hbefore := (registry.size_le_size_grow definitions).trans hcount
    exact ⟨hkeeps.resolve?_eq hbefore name, (hkeeps.grow definitions).resolve?_eq hcount name⟩

/-- Lanes are registered after the road attributes, and a second surface is refused.  The rule for
gravel compiles as before, a factor of two and the unknown width are reported as before, and only
the table for the lanes, which were unknown, compiles now. -/
theorem compile_grow_lanes :
    let lanes : Handle := ⟨11, .categorical "lanes" ["one", "two"]⟩
    let surface : Handle := ⟨3, .categorical "surface" Road.surfaceValues⟩
    let half : Binary64 := .signed false ⟨1022 * Nat.pow 2 52, by decide⟩
    let two : Binary64 := .ofInt 2
    let calls := [Definition.continuous "surface", lanes.definition]
    let grown := Road.registry.grow calls
    let gravel : RuleTable := ⟨[("GRAVEL", .number half)], by decide⟩
    let doubled : RuleTable := ⟨[("GRAVEL", .number two)], by decide⟩
    let model : Model := ⟨[⟨surface, [⟨.literal "GRAVEL", .category 9, half⟩]⟩]⟩
    let unknown : Specification := ⟨[("surface", gravel), ("width", gravel)], by decide⟩
    let known : Specification := ⟨[("lanes", ⟨[("one", .number half)], by decide⟩)], by decide⟩
    Model.compile ⟨[("surface", gravel)], by decide⟩ Road.registry = .ok model ∧
      Model.compile ⟨[("surface", gravel)], by decide⟩ grown = .ok model ∧
      Model.compile ⟨[("surface", doubled)], by decide⟩ grown =
        .error (.outOfRangeFactor "surface" two) ∧
      grown.resolve? "width" = none ∧
      Model.compile unknown grown = .error (.unknownAttribute "width") ∧
      Catalogue.road.Keeps Road.registry ∧ grown.size ≤ 2 ^ 32 ∧
      (Catalogue.road.grow calls).resolve? "lanes" = some lanes ∧
      Model.compile known Road.registry = .error (.unknownAttribute "lanes") ∧
      Model.compile known grown = .ok ⟨[⟨lanes, [⟨.literal "one", .category 0, half⟩]⟩]⟩ := by
  intro lanes surface half two calls grown gravel doubled model unknown known
  have hmodel : Model.compile ⟨[("surface", gravel)], by decide⟩ Road.registry = .ok model := by
    decide +kernel
  have hdoubled : Model.compile ⟨[("surface", doubled)], by decide⟩ Road.registry =
      .error (.outOfRangeFactor "surface" two) := by
    decide +kernel
  have hunknown : Model.compile unknown Road.registry = .error (.unknownAttribute "width") := by
    decide +kernel
  let extended : Registry := ⟨Road.definitions ++ [lanes.definition], by decide, by decide⟩
  have hregister : Road.registry.register lanes.definition = .ok extended :=
    Registry.register_eq_ok_iff.mpr ⟨by decide, by decide, rfl⟩
  have hgrown : grown = extended := by
    change (Road.registry.afterRegister lanes.definition) = extended
    rw [Registry.afterRegister, hregister]
  have hwidth : grown.resolve? "width" = none := by
    rw [hgrown]
    decide
  have hlanes : grown.resolve? "lanes" = some lanes := by
    rw [hgrown]
    decide
  have hcount : grown.size ≤ 2 ^ 32 := by
    rw [hgrown]
    decide
  have hknown : Model.compile known grown =
      .ok ⟨[⟨lanes, [⟨.literal "one", .category 0, half⟩]⟩]⟩ := by
    rw [hgrown]
    decide +kernel
  have hroad : Catalogue.road.Keeps Road.registry :=
    .insertAll .empty Road.registry.ofDefinitions_definitions
  obtain ⟨-, -, -, hresolve⟩ := compile_grow Road.registry calls known
  exact ⟨hmodel, (compile_grow Road.registry calls _).1 model hmodel,
    (compile_grow Road.registry calls _).2.1 _ hdoubled (fun name hname => by cases hname),
    hwidth, (compile_grow Road.registry calls unknown).2.2.1 "width" hunknown hwidth, hroad,
    hcount, ((hresolve _ hroad hcount "lanes").2).trans hlanes, by decide +kernel, hknown⟩

end RoutePriority
