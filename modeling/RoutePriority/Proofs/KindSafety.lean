import RoutePriority.Attribute.Road
import RoutePriority.Proofs.LegalPatterns
import RoutePriority.Proofs.RecordWrites

/-!
# Tests meet values of their kind

A test that is given a value of another kind does not pass it, and a build with assertions stops
there.  `Matcher.asserted?` is the test of such a build, `none` being the failed assertion, and
`Model.asserted?` is the evaluation that makes these tests one after the other until one passes.

Nothing fails on records that the library makes.  The tests of a compiled table suit its attribute
(`Matcher.Suits`), because compilation reads every pattern for the attribute.  The values of a
record are admitted, also if the record was made before some of the attributes were registered: it
has no slots for those, and they read as their defaults.
-/

namespace RoutePriority

namespace Registry

/-- The registry after a call that registers a definition; a refused one changes nothing. -/
def afterRegister (registry : Registry) (definition : Definition) : Registry :=
  match registry.register definition with
  | .ok grown => grown
  | .error _ => registry

/-- The registry after a run of such calls. -/
def grow (registry : Registry) (definitions : List Definition) : Registry :=
  definitions.foldl afterRegister registry

variable {registry : Registry}

/-- A call leaves the attributes that are registered where they are. -/
theorem definitions_prefix_afterRegister (registry : Registry) (definition : Definition) :
    registry.definitions <+: (registry.afterRegister definition).definitions := by
  unfold afterRegister
  cases hregister : registry.register definition with
  | error error => exact List.prefix_refl _
  | ok grown =>
      obtain ⟨-, -, hgrown⟩ := register_eq_ok_iff.mp hregister
      exact ⟨[definition], hgrown.symm⟩

/-- A registry grows at its end. -/
theorem definitions_prefix_grow (registry : Registry) (definitions : List Definition) :
    registry.definitions <+: (registry.grow definitions).definitions := by
  induction definitions generalizing registry with
  | nil => exact List.prefix_refl _
  | cons definition rest ih =>
      exact (definitions_prefix_afterRegister registry definition).trans (ih _)

/-- A handle of a grown registry is one of the earlier registry if that one has its slot. -/
theorem mem_handles_iff_slot_lt {base : Registry}
    (hgrown : base.definitions <+: registry.definitions) {handle : Handle}
    (h : handle ∈ registry.handles) :
    handle ∈ base.handles ↔ handle.slot < base.definitions.length := by
  constructor
  · intro hbase
    rw [← length_handles]
    exact slot_lt_of_mem hbase
  · intro hslot
    rw [mem_handles_iff, ← mem_handles_iff.mp h]
    exact (List.prefix_iff_getElem?.mp hgrown _ hslot).symm ▸ List.getElem?_eq_getElem hslot

end Registry

namespace EdgeRecord

variable {base registry : Registry}

/-- In a record of an earlier registry an attribute reads as its default, with or without a slot. -/
theorem get_new_of_earlier (hgrown : base.definitions <+: registry.definitions) {handle : Handle}
    (h : handle ∈ registry.handles) (direction : Direction) :
    (new base).get handle direction = handle.defaultValue := by
  by_cases hslot : handle.slot < base.definitions.length
  · exact get_new ((Registry.mem_handles_iff_slot_lt hgrown h).mpr hslot) direction
  · have hnone : (new base).slots[handle.slot]? = none := by
      rw [List.getElem?_eq_none_iff, length_new, Registry.length_handles]
      omega
    rw [get, hnone]

/-- A new record of an earlier registry is admitted by the grown one. -/
theorem admitted_new_of_earlier (hgrown : base.definitions <+: registry.definitions) :
    Admitted registry (new base) where
  admits := by
    intro handle h direction
    rw [get_new_of_earlier hgrown h]
    exact Handle.admits_defaultValue (Registry.wellFormed_of_mem h)
  undirected := by
    intro handle h _
    rw [get_new_of_earlier hgrown h, get_new_of_earlier hgrown h]

end EdgeRecord

namespace Matcher

/-- The kind of the values that a test is for; one that passes everything is for all kinds. -/
def kind? : Matcher → Option DomainKind
  | any => none
  | category _ => some .categorical
  | flag _ => some .boolean
  | compare _ _ => some .continuous

/-- The outcome of a test in a build with assertions: none if the value is of a kind that the test
is not for. -/
def asserted? : Matcher → AttributeValue → Option Bool
  | any, _ => some true
  | category expected, .category actual => some (expected == actual)
  | flag expected, .flag actual => some (expected == actual)
  | compare comparison threshold, .number actual => some (comparison.holds actual threshold)
  | _, _ => none

/-- The test is one for values of the attribute: it passes everything, or it asks for the ordinal of
a declared value, for a boolean, or for the side of a finite threshold. -/
inductive Suits (handle : Handle) : Matcher → Prop
  | any : Suits handle .any
  | category {ordinal : UInt16} (hkind : handle.kind = .categorical)
      (hordinal : ordinal.toNat < handle.definition.values.length) :
      Suits handle (.category ordinal)
  | flag {value : Bool} (hkind : handle.kind = .boolean) : Suits handle (.flag value)
  | compare {comparison : Comparison} {threshold : Binary64} (hkind : handle.kind = .continuous)
      (hfinite : threshold.isFinite = true) : Suits handle (.compare comparison threshold)

variable {handle : Handle} {matcher : Matcher} {value : AttributeValue}

/-- A test that suits an attribute is for the kind of all values that the attribute admits. -/
theorem Suits.eq_any_or_kind?_eq (h : matcher.Suits handle) (hadmits : handle.admits value = true) :
    matcher = .any ∨ matcher.kind? = some value.kind := by
  rw [Handle.kind_of_admits hadmits]
  cases h with
  | any => exact Or.inl rfl
  | category hkind _ => exact Or.inr (hkind ▸ rfl)
  | flag hkind => exact Or.inr (hkind ▸ rfl)
  | compare hkind _ => exact Or.inr (hkind ▸ rfl)

/-- On a value of the right kind no assertion fails. -/
theorem asserted?_eq_accepts (h : matcher = .any ∨ matcher.kind? = some value.kind) :
    matcher.asserted? value = some (matcher.accepts value) := by
  rcases h with rfl | h
  · rfl
  · cases matcher <;> cases value <;> first | rfl | cases h

end Matcher

namespace Handle

variable {handle : Handle} {text : String}

/-- A pattern is read as a test that suits its attribute. -/
theorem suits_of_readPattern (hsound : handle.definition.WellFormed) {pattern : Pattern}
    {matcher : Matcher} (hread : handle.readPattern text = .ok (pattern, matcher)) :
    matcher.Suits handle := by
  by_cases htext : text = wildcardText
  · rw [htext] at hread
    cases hread
    exact .any
  cases (reports_readPattern handle text).ok_iff.mp ⟨_, hread⟩ with
  | wildcard h => exact absurd h htext
  | comparison hstart hkind hthreshold =>
      obtain ⟨comparison, _, threshold, hleads, hvalue, hfinite⟩ := hthreshold
      rw [readPattern_of_parse (Pattern.parse_comparison hleads hvalue hfinite),
        matcher_relational, if_pos hkind] at hread
      cases hread
      exact .compare hkind hfinite
  | name hstart hkind hvalue =>
      obtain ⟨value, hvalue⟩ := hvalue
      have hother : handle.kind ≠ .continuous := by
        rcases hkind with hkind | hkind <;> simp [hkind]
      have hadmits := admits_of_parse? hsound hvalue
      have hvalueKind := kind_of_admits hadmits
      rw [readPattern_of_parse (Pattern.parse_name htext hstart), matcher_literal hother, hvalue]
        at hread
      cases value with
      | number x => exact absurd hvalue (number_ne_parse? hother x)
      | category ordinal =>
          cases hread
          exact .category hvalueKind.symm ((admits_category hvalueKind.symm).mp hadmits)
      | flag flag =>
          cases hread
          exact .flag hvalueKind.symm

end Handle

/-- Every test of a model suits the attribute of its table. -/
theorem Model.suits_of_compile {specification : Specification} {registry : Registry}
    {model : Model} (hcompile : Model.compile specification registry = .ok model)
    {table : CompiledTable} (htable : table ∈ model.tables) :
    ∀ rule ∈ table.rules, rule.matcher.Suits table.handle := by
  intro rule hrule
  obtain ⟨_, -, -, _, -, hcompiled⟩ := exists_compileRule hcompile htable hrule
  have hsound := Registry.wellFormed_of_mem (mem_handles_of_mem hcompile htable)
  exact Handle.suits_of_readPattern hsound (Handle.compileRule_eq_ok_iff.mp hcompiled).1

/-- The factor of a value in a build with assertions; none if the assertion of a test fails that
is made before one passes. -/
def CompiledTable.asserted? (table : CompiledTable) (value : AttributeValue) : Option Binary64 := do
  match ← table.rules.findM? (·.matcher.asserted? value) with
  | some rule => return rule.factor
  | none => return .one

/-- The priority of an edge in a build with assertions. -/
def Model.asserted? (model : Model) (edge : EdgeStore) (direction : Direction) : Option Binary64 :=
  model.tables.foldlM (fun priority table => do
    return priority * (← table.asserted? (table.valueOf edge direction))) .one

/-- A search whose tests do not fail is the search without failures. -/
theorem findM?_eq_find? {α : Type} {test? : α → Option Bool} {test : α → Bool} {entries : List α}
    (h : ∀ entry ∈ entries, test? entry = some (test entry)) :
    entries.findM? test? = some (entries.find? test) := by
  induction entries with
  | nil => rfl
  | cons entry rest ih =>
      obtain ⟨hentry, hrest⟩ := List.forall_mem_cons.mp h
      rw [List.findM?, List.find?_cons, hentry]
      cases test entry with
      | true => rfl
      | false => exact ih hrest

/-- A table whose tests do not fail gives its factor. -/
theorem CompiledTable.asserted?_eq_factorFor {table : CompiledTable} {value : AttributeValue}
    (h : ∀ rule ∈ table.rules, rule.matcher.asserted? value = some (rule.matcher.accepts value)) :
    table.asserted? value = some (table.factorFor value) := by
  rw [asserted?, findM?_eq_find? h, factorFor]
  cases table.rules.find? (·.matcher.accepts value) <;> rfl

/-- A model whose tests do not fail gives its priority, whatever the tables before have made of
it. -/
theorem Model.asserted?_eq_evaluate {model : Model} {edge : EdgeStore} {direction : Direction}
    (h : ∀ table ∈ model.tables, ∀ rule ∈ table.rules,
      rule.matcher.asserted? (table.valueOf edge direction) =
        some (rule.matcher.accepts (table.valueOf edge direction))) :
    model.asserted? edge direction = some (model.evaluate edge direction) := by
  obtain ⟨tables⟩ := model
  unfold asserted? evaluate
  generalize Binary64.one = priority
  induction tables generalizing priority with
  | nil => rfl
  | cons table rest ih =>
      obtain ⟨htable, hrest⟩ := List.forall_mem_cons.mp h
      rw [List.foldlM_cons, CompiledTable.asserted?_eq_factorFor htable, List.foldl_cons]
      exact ih hrest _

/-- **No assertion fails.**  A model is compiled for a registry; a record is made for the registry
as it was before some registrations and then written by any run of calls through its handles.  Then
the value that a table looks at is admitted by its attribute, and every test of the table suits the
attribute and passes everything or is for the kind of the value.  So no test fails its assertion,
and neither does evaluating the record. -/
theorem asserted?_never_fails (base : Registry) (later : List Definition)
    {specification : Specification} {model : Model}
    (hcompile : Model.compile specification (base.grow later) = .ok model) {writes : List Write}
    (hwrites : ∀ write ∈ writes, write.handle ∈ (base.grow later).handles)
    (direction : Direction) :
    let edge := ((EdgeRecord.new base).performAll writes).store
    (∀ table ∈ model.tables,
      let value := table.valueOf edge direction
      table.handle.admits value = true ∧
      ∀ rule ∈ table.rules,
        rule.matcher.Suits table.handle ∧
        (rule.matcher = .any ∨ rule.matcher.kind? = some value.kind) ∧
        rule.matcher.asserted? value = some (rule.matcher.accepts value)) ∧
    model.asserted? edge direction = some (model.evaluate edge direction) := by
  intro edge
  have hrecord : EdgeRecord.Admitted (base.grow later) ((EdgeRecord.new base).performAll writes) :=
    (EdgeRecord.admitted_new_of_earlier (base.definitions_prefix_grow later)).performAll hwrites
  have hmeets : ∀ table ∈ model.tables,
      let value := table.valueOf edge direction
      table.handle.admits value = true ∧
      ∀ rule ∈ table.rules,
        rule.matcher.Suits table.handle ∧
        (rule.matcher = .any ∨ rule.matcher.kind? = some value.kind) ∧
        rule.matcher.asserted? value = some (rule.matcher.accepts value) := by
    intro table htable value
    have hmem := Model.mem_handles_of_mem hcompile htable
    have hsuits := Model.suits_of_compile hcompile htable
    have hadmits : table.handle.admits value = true := hrecord.admits table.handle hmem _
    refine ⟨hadmits, fun rule hrule => ?_⟩
    have hkind := (hsuits rule hrule).eq_any_or_kind?_eq hadmits
    exact ⟨hsuits rule hrule, hkind, Matcher.asserted?_eq_accepts hkind⟩
  exact ⟨hmeets, Model.asserted?_eq_evaluate fun table htable rule hrule =>
    ((hmeets table htable).2 rule hrule).2.2⟩

/-- A record that was made before the surface was registered has no slot for it, refuses to write
it and reads it as paved; the rule for gravel is asked nevertheless, and does not pass. -/
theorem asserted?_never_fails_late_surface :
    let speed : Definition := (Definition.continuous "max_speed").withDirections
    let surface : Definition := .categorical "surface" ["PAVED", "GRAVEL"]
    let base : Registry := ⟨[speed], by decide, by decide⟩
    let registry := base.grow [speed, surface]
    let half : Binary64 := .signed false ⟨1022 * Nat.pow 2 52, by decide⟩
    let specification : Specification :=
      ⟨[("max_speed", ⟨[("<=50", .text "0.5")], by decide⟩),
        ("surface", ⟨[("GRAVEL", .number .zero)], by decide⟩)], by decide⟩
    let writes : List Write :=
      [.setTextDirectional ⟨0, speed⟩ "110" " 50 ", .setText ⟨1, surface⟩ "GRAVEL"]
    let edge := ((EdgeRecord.new base).performAll writes).store
    ∃ model, Model.compile specification registry = .ok model ∧
      (∀ write ∈ writes, write.handle ∈ registry.handles) ∧
      edge ⟨1, surface⟩ .forward = .category 0 ∧
      model.asserted? edge .backward = some half := by
  intro speed surface base registry half specification writes edge
  let grown : Registry := ⟨[speed, surface], by decide, by decide⟩
  have hrefused : base.afterRegister speed = base := rfl
  have hregister : base.register surface = .ok grown :=
    Registry.register_eq_ok_iff.mpr ⟨by decide, by decide, rfl⟩
  have hadded : base.afterRegister surface = grown := by
    rw [Registry.afterRegister, hregister]
  have hgrown : registry = grown := by
    rw [← hadded]
    exact congrArg (fun start : Registry => start.afterRegister surface) hrefused
  have hcompile : Model.compile specification grown = .ok
      ⟨[⟨⟨0, speed⟩, [⟨.relational .lessOrEqual (.ofInt 50), .compare .lessOrEqual (.ofInt 50),
            half⟩]⟩,
        ⟨⟨1, surface⟩, [⟨.literal "GRAVEL", .category 1, .zero⟩]⟩]⟩ := by
    decide +kernel
  rw [← hgrown] at hcompile
  have hhandles :
      (⟨0, speed⟩ : Handle) ∈ grown.handles ∧ (⟨1, surface⟩ : Handle) ∈ grown.handles := by
    decide
  rw [← hgrown] at hhandles
  have hwrites : ∀ write ∈ writes, write.handle ∈ registry.handles := by
    simp [writes, Write.handle, hhandles]
  have hedge : edge ⟨1, surface⟩ .forward = .category 0 := by decide +kernel
  refine ⟨_, hcompile, hwrites, hedge, ?_⟩
  rw [(asserted?_never_fails base [speed, surface] hcompile hwrites .backward).2]
  decide +kernel

end RoutePriority
