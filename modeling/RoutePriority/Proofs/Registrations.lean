import RoutePriority.Proofs.Compilations
import RoutePriority.Proofs.RegisteredHandles

/-!
# Registering attributes

Which definitions can be registered after others is said here on the definitions themselves
(`Definition.Fits`), and so is why the others cannot (`Definition.Refused`), the first cause if
several apply.  `Registry.reports_register` says that a registry accepts and refuses accordingly,
and `Registry.reports_foldlM_register` that a run of registrations ends at the first definition that
does not fit.

The lemmas on `Registry.register` say what an accepted definition changes: the handles, and what
the names are resolved to.
-/

namespace RoutePriority

namespace Definition

/-- The definition can follow earlier ones: its name is new, and if it is categorical it has between
1 and 65536 values, no two of them alike. -/
structure Fits (definition : Definition) (earlier : List Definition) : Prop where
  name_new : definition.name ∉ earlier.map Definition.name
  values_sound : definition.kind = .categorical →
    1 ≤ definition.values.length ∧ definition.values.length ≤ 65536 ∧ definition.values.Nodup

/-- Why the definition cannot follow earlier ones, the first cause that applies.  A value is called
a duplicate if it is the first that repeats an earlier one. -/
inductive Refused (definition : Definition) (earlier : List Definition) : AttributeError → Prop
  | duplicateAttribute (hname : definition.name ∈ earlier.map Definition.name) :
      Refused definition earlier (.duplicateAttribute definition.name)
  | emptyValueSet (hname : definition.name ∉ earlier.map Definition.name)
      (hkind : definition.kind = .categorical) (hvalues : definition.values = []) :
      Refused definition earlier (.emptyValueSet definition.name)
  | tooManyValues (hname : definition.name ∉ earlier.map Definition.name)
      (hkind : definition.kind = .categorical) (hcount : 65536 < definition.values.length) :
      Refused definition earlier (.tooManyValues definition.name definition.values.length)
  | duplicateValue {before after : List String} {value : String}
      (hname : definition.name ∉ earlier.map Definition.name)
      (hkind : definition.kind = .categorical) (hcount : definition.values.length ≤ 65536)
      (hvalues : definition.values = before ++ value :: after) (hbefore : before.Nodup)
      (hrepeat : value ∈ before) :
      Refused definition earlier (.duplicateValue definition.name value)

variable {definition : Definition} {earlier : List Definition}

/-- The check of the values concerns categorical attributes: there is at least one value and at most
65536, and none is repeated. -/
theorem wellFormed_iff :
    definition.WellFormed ↔ (definition.kind = .categorical →
      1 ≤ definition.values.length ∧ definition.values.length ≤ 65536 ∧
        definition.values.Nodup) := by
  unfold WellFormed
  rw [show maxValues = 65536 from rfl]
  simp only [Nat.one_le_iff_ne_zero, ne_eq, List.length_eq_zero_iff]

/-- A definition fits if its name is new and its values are in order. -/
theorem fits_iff :
    definition.Fits earlier ↔
      definition.name ∉ earlier.map Definition.name ∧ definition.WellFormed := by
  rw [wellFormed_iff]
  exact ⟨fun h => ⟨h.name_new, h.values_sound⟩, fun h => ⟨h.1, h.2⟩⟩

/-- Without values the fault is that there are none. -/
theorem fault?_of_empty (hkind : definition.kind = .categorical) (h : definition.values = []) :
    definition.fault? = some (.emptyValueSet definition.name) := by
  simp [fault?, hkind, h]

/-- Too many values are reported with their number. -/
theorem fault?_of_many (hkind : definition.kind = .categorical)
    (h : 65536 < definition.values.length) :
    definition.fault? = some (.tooManyValues definition.name definition.values.length) := by
  have hempty : definition.values ≠ [] := List.ne_nil_of_length_pos (by omega)
  have hmany : maxValues < definition.values.length := h
  simp [fault?, hkind, hempty, hmany]

/-- Of repeated values the first that repeats an earlier one is reported. -/
theorem fault?_of_repeat (hkind : definition.kind = .categorical)
    (hcount : definition.values.length ≤ 65536) {before after : List String} {value : String}
    (h : definition.values = before ++ value :: after) (hbefore : before.Nodup)
    (hrepeat : value ∈ before) :
    definition.fault? = some (.duplicateValue definition.name value) := by
  have hfirst : Text.firstRepeat? definition.values = some value :=
    (Text.firstRepeat?_eq_some_iff _ _).mpr ⟨before, after, h, hbefore, hrepeat⟩
  have hempty : definition.values ≠ [] := by simp [h]
  have hfew : ¬ maxValues < definition.values.length := Nat.not_lt.mpr hcount
  simp [fault?, hkind, hempty, hfew, hfirst]

/-- A definition fits or is refused. -/
theorem fits_or_refused (definition : Definition) (earlier : List Definition) :
    definition.Fits earlier ∨ ∃ error, definition.Refused earlier error := by
  by_cases hname : definition.name ∈ earlier.map Definition.name
  · exact Or.inr ⟨_, .duplicateAttribute hname⟩
  by_cases hkind : definition.kind = .categorical
  · by_cases hempty : definition.values = []
    · exact Or.inr ⟨_, .emptyValueSet hname hkind hempty⟩
    by_cases hcount : definition.values.length ≤ 65536
    · cases hfirst : Text.firstRepeat? definition.values with
      | none =>
          have hnodup := (Text.firstRepeat?_eq_none_iff _).mp hfirst
          exact Or.inl ⟨hname, fun _ => ⟨List.length_pos_iff.mpr hempty, hcount, hnodup⟩⟩
      | some value =>
          obtain ⟨before, after, hvalues, hbefore, hrepeat⟩ :=
            (Text.firstRepeat?_eq_some_iff _ _).mp hfirst
          exact Or.inr ⟨_, .duplicateValue hname hkind hcount hvalues hbefore hrepeat⟩
    · exact Or.inr ⟨_, .tooManyValues hname hkind (by omega)⟩
  · exact Or.inl ⟨hname, fun h => absurd h hkind⟩

end Definition

namespace Registry

variable {registry grown : Registry} {definition : Definition}

/-- A fault of the values is the error of the registration. -/
theorem register_of_fault {error : AttributeError}
    (hname : definition.name ∉ registry.definitions.map Definition.name)
    (h : definition.fault? = some error) : registry.register definition = .error error := by
  rw [register, dif_neg hname]
  split
  next found hfound => rw [← Option.some.inj (h.symm.trans hfound)]
  next hnone => cases h.symm.trans hnone

/-- Registering accepts the definitions that fit, and names the cause for the others. -/
theorem reports_register (registry : Registry) (definition : Definition) :
    Reports (registry.register definition) (definition.Fits registry.definitions)
      (definition.Refused registry.definitions) := by
  refine Reports.of_cases (fun hfits => ?_) (fun error hrefused => ?_)
    (definition.fits_or_refused registry.definitions)
  · obtain ⟨hname, hsound⟩ := Definition.fits_iff.mp hfits
    have hfault := definition.fault?_eq_none_iff.mpr hsound
    cases hregister : registry.register definition with
    | ok grown => exact ⟨grown, rfl⟩
    | error error =>
        rw [register, dif_neg hname] at hregister
        split at hregister
        next found hfound => cases hfault.symm.trans hfound
        next => cases hregister
  · cases hrefused with
    | duplicateAttribute hname => rw [register, dif_pos hname]
    | emptyValueSet hname hkind hvalues =>
        exact register_of_fault hname (Definition.fault?_of_empty hkind hvalues)
    | tooManyValues hname hkind hcount =>
        exact register_of_fault hname (Definition.fault?_of_many hkind hcount)
    | duplicateValue hname hkind hcount hvalues hbefore hrepeat =>
        exact register_of_fault hname
          (Definition.fault?_of_repeat hkind hcount hvalues hbefore hrepeat)

/-- A handle has its position as slot. -/
theorem slot_eq_of_getElem?_handles {slot : Nat} {handle : Handle}
    (h : registry.handles[slot]? = some handle) : handle.slot = slot := by
  rw [handles, List.getElem?_mapIdx, Option.map_eq_some_iff] at h
  obtain ⟨definition, -, rfl⟩ := h
  rfl

/-- There is a handle for each definition, in the same order. -/
theorem map_definition_handles (registry : Registry) :
    registry.handles.map Handle.definition = registry.definitions := by
  apply List.ext_getElem?
  intro slot
  rw [handles, List.getElem?_map, List.getElem?_mapIdx, Option.map_map]
  exact congrFun Option.map_id _

theorem map_name_handles (registry : Registry) :
    registry.handles.map Handle.name = registry.definitions.map Definition.name := by
  rw [← map_definition_handles, List.map_map]
  rfl

/-- A new attribute gets the next slot; the others keep theirs. -/
theorem handles_of_register (h : registry.register definition = .ok grown) :
    grown.handles = registry.handles ++ [⟨registry.handles.length, definition⟩] := by
  obtain ⟨-, -, hdefinitions⟩ := register_eq_ok_iff.mp h
  rw [length_handles, handles, handles, hdefinitions, List.mapIdx_append]
  simp

/-- A name that no definition has is not resolved. -/
theorem resolve?_eq_none_iff {name : String} :
    registry.resolve? name = none ↔ name ∉ registry.definitions.map Definition.name := by
  rw [← map_name_handles, resolve?, List.find?_eq_none]
  simp

/-- The new name is resolved to the new attribute, and the others as before. -/
theorem resolve?_of_register (h : registry.register definition = .ok grown) (name : String) :
    grown.resolve? name =
      if name = definition.name then some ⟨registry.handles.length, definition⟩
      else registry.resolve? name := by
  obtain ⟨hnew, -, -⟩ := register_eq_ok_iff.mp h
  rw [resolve?, handles_of_register h, List.find?_append]
  change (registry.resolve? name).or _ = _
  by_cases hname : name = definition.name
  · rw [if_pos hname, resolve?_eq_none_iff.mpr (hname ▸ hnew)]
    simp [Handle.name, hname]
  · rw [if_neg hname]
    simp [Handle.name, Ne.symm hname]

end Registry

/-- Each of the definitions fits after earlier ones and those before it. -/
abbrev FitInOrder : List Definition → List Definition → Prop :=
  ValidInOrder (fun earlier definition => earlier ++ [definition])
    fun earlier definition => definition.Fits earlier

/-- Why the first of the definitions that does not fit is refused. -/
abbrev FirstRefused : List Definition → List Definition → AttributeError → Prop :=
  FirstInvalid (fun earlier definition => earlier ++ [definition])
    (fun earlier definition => definition.Fits earlier)
    fun earlier definition => definition.Refused earlier

namespace Registry

variable {registry grown : Registry} {definition : Definition} {rest : List Definition}

/-- Registering one definition after the other ends at the first that does not fit: each meets the
registry that has those before it at its end. -/
theorem reports_foldlM_register (registry : Registry) (definitions : List Definition) :
    Reports (definitions.foldlM register registry)
      (FitInOrder registry.definitions definitions)
      (FirstRefused registry.definitions definitions) :=
  Reports.foldlM Registry.definitions
    (fun registry definition _ => registry.reports_register definition)
    (fun _ _ _ _ hregister => ⟨trivial, (register_eq_ok_iff.mp hregister).2.2⟩)
    (show (fun _ => True) registry from trivial) definitions

/-- Registering one definition after the other appends them all. -/
theorem definitions_of_foldlM_register {definitions : List Definition}
    (h : definitions.foldlM register registry = .ok grown) :
    grown.definitions = registry.definitions ++ definitions := by
  induction definitions generalizing registry with
  | nil =>
      cases h
      exact (List.append_nil _).symm
  | cons definition rest ih =>
      obtain ⟨next, hregister, hrest⟩ := foldlM_cons_eq_ok_iff.mp h
      rw [ih hrest, (register_eq_ok_iff.mp hregister).2.2, List.append_assoc, List.singleton_append]

end Registry

end RoutePriority
