import RoutePriority.Attribute.Edge
import Mathlib.Data.List.Nodup

/-!
# Handles of registered attributes

A registry gives an attribute its position as slot, so a handle of the registry is settled by its
slot and by its name.  Its definition is well formed, and this is what makes ordinals work: the
values of a categorical attribute are distinct and few enough for 16 bits, so an ordinal names one
value and a value has one ordinal.

`Registry.ofDefinitions_definitions` says that the registries of the type are exactly those that
registering definitions one after the other gives.
-/

namespace RoutePriority

namespace Registry

variable {registry : Registry}

/-- A handle belongs to the registry that has its definition in its slot. -/
theorem mem_handles_iff {handle : Handle} :
    handle ∈ registry.handles ↔ registry.definitions[handle.slot]? = some handle.definition := by
  rw [handles, List.mem_mapIdx]
  constructor
  · intro h
    obtain ⟨slot, hslot, rfl⟩ := h
    exact List.getElem?_eq_getElem hslot
  · intro h
    obtain ⟨hslot, hdefinition⟩ := List.getElem?_eq_some_iff.mp h
    exact ⟨handle.slot, hslot, by rw [hdefinition]⟩

theorem length_handles : registry.handles.length = registry.definitions.length :=
  List.length_mapIdx

/-- Every handle has its slot in a new record. -/
theorem slot_lt_of_mem {handle : Handle} (h : handle ∈ registry.handles) :
    handle.slot < registry.handles.length := by
  rw [length_handles]
  exact (List.getElem?_eq_some_iff.mp (mem_handles_iff.mp h)).1

/-- The handle of a slot is the one at that position. -/
theorem getElem?_handles {handle : Handle} (h : handle ∈ registry.handles) :
    registry.handles[handle.slot]? = some handle := by
  rw [handles, List.getElem?_mapIdx, mem_handles_iff.mp h]
  rfl

/-- Two attributes of a registry have different slots. -/
theorem eq_of_slot_eq {handle other : Handle} (h : handle ∈ registry.handles)
    (h' : other ∈ registry.handles) (hslot : handle.slot = other.slot) : handle = other := by
  have hsame := getElem?_handles h
  rw [hslot, getElem?_handles h'] at hsame
  exact (Option.some.inj hsame).symm

/-- Two attributes of a registry have different names. -/
theorem eq_of_name_eq {handle other : Handle} (h : handle ∈ registry.handles)
    (h' : other ∈ registry.handles) (hname : handle.name = other.name) : handle = other := by
  have hnames : (registry.definitions.map Definition.name)[handle.slot]? =
      (registry.definitions.map Definition.name)[other.slot]? := by
    rw [List.getElem?_map, List.getElem?_map, mem_handles_iff.mp h, mem_handles_iff.mp h']
    exact congrArg some hname
  have hslot : handle.slot < (registry.definitions.map Definition.name).length := by
    rw [List.length_map, ← length_handles]
    exact slot_lt_of_mem h
  exact eq_of_slot_eq h h' ((List.getElem?_inj hslot registry.nodup_names).mp hnames)

/-- A name is resolved to the attribute that has it. -/
theorem resolve?_eq_some_iff {name : String} {handle : Handle} :
    registry.resolve? name = some handle ↔ handle ∈ registry.handles ∧ handle.name = name := by
  constructor
  · intro h
    exact ⟨List.mem_of_find?_eq_some h, by simpa using List.find?_some h⟩
  · intro h
    obtain ⟨hmem, rfl⟩ := h
    cases hfound : registry.resolve? handle.name with
    | none => simpa using List.find?_eq_none.mp hfound handle hmem
    | some other =>
        have hother : other.name = handle.name := by simpa using List.find?_some hfound
        rw [eq_of_name_eq (List.mem_of_find?_eq_some hfound) hmem hother]

/-- What a name resolves to is a handle of the registry. -/
theorem mem_handles_of_resolve? {name : String} {handle : Handle}
    (h : registry.resolve? name = some handle) : handle ∈ registry.handles :=
  (resolve?_eq_some_iff.mp h).1

/-- Every registered definition has passed its check. -/
theorem wellFormed_of_mem {handle : Handle} (h : handle ∈ registry.handles) :
    handle.definition.WellFormed :=
  registry.wellFormed _ (List.mem_of_getElem? (mem_handles_iff.mp h))

/-- A definition is registered if its name is new and its values are well formed, and it goes to
the end. -/
theorem register_eq_ok_iff {definition : Definition} {grown : Registry} :
    registry.register definition = .ok grown ↔
      definition.name ∉ registry.definitions.map Definition.name ∧ definition.WellFormed ∧
        grown.definitions = registry.definitions ++ [definition] := by
  rw [← Definition.fault?_eq_none_iff, register]
  split
  next hnamed => simp [hnamed]
  next hnamed =>
    split
    next error hfault => simp [hfault]
    next hfault =>
      obtain ⟨definitions, _, _⟩ := grown
      simp [hfault, hnamed, eq_comm]

/-- Every registry is what registering its definitions one after the other gives. -/
theorem ofDefinitions_definitions (registry : Registry) :
    ofDefinitions registry.definitions = .ok registry := by
  have hgrow : ∀ (rest : List Definition) (start : Registry),
      registry.definitions = start.definitions ++ rest →
        rest.foldlM register start = .ok registry := by
    intro rest
    induction rest with
    | nil =>
        intro start h
        obtain ⟨definitions, _, _⟩ := registry
        obtain ⟨_, _, _⟩ := start
        obtain rfl : definitions = _ := by simpa using h
        rfl
    | cons definition rest ih =>
        intro start h
        have hnames := registry.nodup_names
        rw [h, List.append_cons] at hnames
        let grown : Registry := {
          definitions := start.definitions ++ [definition]
          nodup_names := hnames.sublist ((List.sublist_append_left _ rest).map _)
          wellFormed := fun other hmem => registry.wellFormed other
            (by rw [h, List.append_cons]; exact List.mem_append_left _ hmem) }
        have hnew := grown.nodup_names
        rw [List.map_append, List.nodup_append] at hnew
        have hregister : start.register definition = .ok grown := register_eq_ok_iff.mpr
          ⟨fun hmem => hnew.2.2 _ hmem _ (List.mem_singleton_self _) rfl,
            grown.wellFormed definition (by simp [grown]), rfl⟩
        rw [List.foldlM_cons, hregister]
        exact ih grown (by simp [grown, h])
  exact hgrow registry.definitions empty rfl

end Registry

namespace Handle

variable {handle : Handle} {value : AttributeValue}

/-- The values that a handle admits are of its kind. -/
theorem kind_of_admits (h : handle.admits value = true) : value.kind = handle.kind := by
  unfold admits at h
  cases hkind : handle.kind <;> cases value <;> simp_all [AttributeValue.kind]

/-- An ordinal is admitted if there is a value with this place. -/
theorem admits_category {ordinal : UInt16} (hkind : handle.kind = .categorical) :
    handle.admits (.category ordinal) = true ↔
      ordinal.toNat < handle.definition.values.length := by
  simp [admits, hkind]

/-- The names of a categorical attribute and the ordinals of its values are the same thing. -/
theorem parse?_eq_category_iff (hsound : handle.definition.WellFormed)
    (hkind : handle.kind = .categorical) {text : String} {ordinal : UInt16} :
    handle.parse? text = some (.category ordinal) ↔
      handle.definition.values[ordinal.toNat]? = some text := by
  obtain ⟨-, hcount, hnodup⟩ := hsound hkind
  simp only [parse?, hkind, Option.map_eq_some_iff, AttributeValue.category.injEq]
  constructor
  · intro h
    obtain ⟨position, hposition, rfl⟩ := h
    obtain ⟨hlt, hname, -⟩ := List.idxOf?_eq_some_iff.mp hposition
    have hsmall : (UInt16.ofNat position).toNat = position :=
      UInt16.toNat_ofNat_of_lt' (Nat.lt_of_lt_of_le hlt hcount)
    rw [hsmall, List.getElem?_eq_getElem hlt, hname]
  · intro h
    obtain ⟨hlt, hname⟩ := List.getElem?_eq_some_iff.mp h
    refine ⟨ordinal.toNat, List.idxOf?_eq_some_iff.mpr ⟨hlt, hname, ?_⟩, UInt16.ofNat_toNat⟩
    intro earlier hearlier hsame
    have := (hnodup.getElem_inj_iff (i := earlier)).mp (hsame.trans hname.symm)
    omega

/-- A text that names a value names one that the attribute admits. -/
theorem admits_of_parse? (hsound : handle.definition.WellFormed) {text : String}
    (h : handle.parse? text = some value) : handle.admits value = true := by
  cases hkind : handle.kind with
  | categorical =>
      have hordinal : ∃ ordinal, value = .category ordinal := by
        simp only [parse?, hkind, Option.map_eq_some_iff] at h
        obtain ⟨position, -, rfl⟩ := h
        exact ⟨_, rfl⟩
      obtain ⟨ordinal, rfl⟩ := hordinal
      have hname := (parse?_eq_category_iff hsound hkind).mp h
      exact (admits_category hkind).mpr (List.getElem?_eq_some_iff.mp hname).1
  | continuous =>
      simp only [parse?, hkind, Option.map_eq_some_iff, Option.filter_eq_some_iff] at h
      obtain ⟨x, ⟨-, hfinite⟩, rfl⟩ := h
      cases x with
      | nan => cases hfinite
      | signed negative m => simp [admits, hkind, Binary64.isNan]
  | boolean =>
      have hflag : ∃ flag, value = .flag flag := by
        simp only [parse?, hkind] at h
        split at h
        · exact ⟨true, (Option.some.inj h).symm⟩
        · split at h
          · exact ⟨false, (Option.some.inj h).symm⟩
          · cases h
      obtain ⟨flag, rfl⟩ := hflag
      simp [admits, hkind]

/-- The value of a categorical or boolean attribute is named by its text form and nothing else. -/
theorem parse?_eq_some_iff_eq_format (hsound : handle.definition.WellFormed)
    (hkind : handle.kind ≠ .continuous) (hadmits : handle.admits value = true) {text : String} :
    handle.parse? text = some value ↔ text = handle.format value := by
  have hvalue := kind_of_admits hadmits
  cases value with
  | category ordinal =>
      have hcategorical : handle.kind = .categorical := hvalue.symm
      have hlt := (admits_category hcategorical).mp hadmits
      rw [parse?_eq_category_iff hsound hcategorical, format, List.getElem?_eq_getElem hlt]
      simp [eq_comm]
  | number x => exact absurd hvalue.symm hkind
  | flag value =>
      have hboolean : handle.kind = .boolean := hvalue.symm
      by_cases htrue : text = "true"
      · cases value <;> simp [parse?, hboolean, format, htrue]
      · cases value <;> simp [parse?, hboolean, format, htrue]

/-- An attribute admits the value that it has before it is written. -/
theorem admits_defaultValue (hsound : handle.definition.WellFormed) :
    handle.admits handle.defaultValue = true := by
  cases hkind : handle.kind with
  | categorical =>
      obtain ⟨hne, -, -⟩ := hsound hkind
      rw [defaultValue, hkind]
      exact (admits_category hkind).mpr (List.length_pos_iff.mpr hne)
  | continuous => simp [admits, defaultValue, hkind, AttributeValue.default, Binary64.isNan,
      Binary64.zero]
  | boolean => simp [admits, defaultValue, hkind, AttributeValue.default]

/-- The check before a write passes exactly the admitted values. -/
theorem check_eq_ok_iff : handle.check value = .ok () ↔ handle.admits value = true := by
  unfold check
  by_cases hkind : value.kind = handle.kind
  · by_cases hadmits : handle.admits value = true <;> simp [hkind, hadmits]
  · have hrefused : ¬ handle.admits value = true := fun h => hkind (kind_of_admits h)
    simp [hkind, hrefused]

/-- Reading a text gives its value, or an error if it has none. -/
theorem parse_eq_ok_iff {text : String} :
    handle.parse text = .ok value ↔ handle.parse? text = some value := by
  unfold parse
  cases handle.parse? text <;> simp

end Handle

end RoutePriority
