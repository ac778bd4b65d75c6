import RoutePriority.Proofs.Catalogues
import RoutePriority.Proofs.LegalPatterns
import RoutePriority.Proofs.NumberWriting

/-!
# The texts of values

An attribute value is written as its name, as a boolean word or as a number, and `Handle.parse?`
reads it back.  The two fit together exactly on the values that the attribute admits, infinite
numbers apart: these have a text but no text is read as them.

A value of a foreign kind is written too, and so is an ordinal without a name.  Such a text may even
be the name of another value, so it is not enough that it is read; what matters is that no text is
read as a value that is not admitted.
-/

namespace RoutePriority

namespace Binary64

/-- A number is finite if it is a number and not an infinite one. -/
theorem isFinite_iff {x : Binary64} :
    x.isFinite = true ↔ x.isNan = false ∧ ∀ negative, x ≠ signed negative .infinity := by
  cases x with
  | nan => simp [isFinite, isNan]
  | signed negative m =>
      have hrank : (m : Nat) < topRank ↔ m ≠ .infinity := by
        rw [← Fin.val_ne_iff]
        have hle := Nat.le_of_lt_succ m.isLt
        change _ ↔ (m : Nat) ≠ topRank
        omega
      simp [isFinite, isNan, hrank]

end Binary64

namespace Handle

variable {handle : Handle} {value : AttributeValue}

/-- Numbers of a continuous attribute come back bit for bit, if they are finite. -/
theorem parse?_format_number (hkind : handle.kind = .continuous) (x : Binary64) :
    handle.parse? (handle.format (.number x)) = if x.isFinite then some (.number x) else none := by
  have hread : Binary64.ofText? (Text.trim (Layout.plain.text x)) = some x := by
    rw [Layout.trim_text, Layout.ofText?_text]
  simp only [parse?, hkind, format, hread]
  cases hfinite : x.isFinite <;> simp [hfinite]

/-- No text is read as an infinite number. -/
theorem infinite_ne_parse? (handle : Handle) (text : String) (negative : Bool) :
    handle.parse? text ≠ some (.number (.signed negative .infinity)) := by
  intro h
  by_cases hkind : handle.kind = .continuous
  · simp only [parse?, hkind, Option.map_eq_some_iff, Option.filter_eq_some_iff] at h
    obtain ⟨x, ⟨-, hfinite⟩, hx⟩ := h
    cases hx
    exact (Binary64.isFinite_iff.mp hfinite).2 negative rfl
  · exact number_ne_parse? hkind _ h

/-- The text of a value is read as the value if the attribute admits it and it is not an infinite
number. -/
theorem parse?_format_eq_some_iff (hsound : handle.definition.WellFormed) :
    handle.parse? (handle.format value) = some value ↔
      handle.admits value = true ∧ ∀ negative, value ≠ .number (.signed negative .infinity) := by
  constructor
  · intro h
    refine ⟨admits_of_parse? hsound h, ?_⟩
    intro negative hcase
    obtain rfl := hcase
    exact infinite_ne_parse? handle _ negative h
  · intro h
    obtain ⟨hadmits, hbounded⟩ := h
    by_cases hkind : handle.kind = .continuous
    · have hvalue := kind_of_admits hadmits
      cases value with
      | category ordinal => cases hvalue.trans hkind
      | flag value => cases hvalue.trans hkind
      | number x =>
          have hnan : x.isNan = false := by simpa [admits, hkind] using hadmits
          have hfinite : x.isFinite = true :=
            Binary64.isFinite_iff.mpr ⟨hnan, fun negative hx => hbounded negative (by rw [hx])⟩
          rw [parse?_format_number hkind, if_pos hfinite]
    · exact (parse?_eq_some_iff_eq_format hsound hkind hadmits).mpr rfl

end Handle

namespace Reached

variable {catalogue : Catalogue} {registered : List Definition}

/-- The attributes of a catalogue are well formed, also those that were never looked at. -/
theorem wellFormed_of_mem (h : Reached catalogue registered) {handle : Handle}
    (hmem : handle ∈ catalogue.handles) : handle.definition.WellFormed := by
  obtain ⟨registry, -, hkeeps⟩ := h.exists_keeps
  have hdefinition : handle.definition ∈ catalogue.handles.map Handle.definition :=
    List.mem_map_of_mem hmem
  rw [hkeeps.map_definition_handles] at hdefinition
  exact registry.wellFormed _ hdefinition

/-- **Values and their texts.**  For every attribute that can be registered, the text of a value is
read as the same value, bit for bit, if and only if the attribute admits the value and it is not an
infinite number.  Only admitted values are read from texts, and those of a categorical or boolean
attribute from no text but their own. -/
theorem parse?_inverts_format (h : Reached catalogue registered) {handle : Handle}
    (hmem : handle ∈ catalogue.handles) :
    (∀ value, handle.parse? (handle.format value) = some value ↔
      handle.admits value = true ∧ ∀ negative, value ≠ .number (.signed negative .infinity)) ∧
    ∀ text value, handle.parse? text = some value →
      handle.admits value = true ∧
        (handle.kind = .categorical ∨ handle.kind = .boolean → handle.format value = text) := by
  have hsound := h.wellFormed_of_mem hmem
  refine ⟨fun value => Handle.parse?_format_eq_some_iff hsound, fun text value hread => ?_⟩
  have hadmits := Handle.admits_of_parse? hsound hread
  refine ⟨hadmits, fun hkind => ?_⟩
  have hdiscrete : handle.kind ≠ .continuous := by
    rcases hkind with hkind | hkind <;> simp [hkind]
  exact ((Handle.parse?_eq_some_iff_eq_format hsound hdiscrete hadmits).mp hread).symm

/-- A third width would be written like the first one is called, and so is not read back.  Zero
speeds keep their signs. -/
theorem parse?_inverts_format_width :
    let width := Definition.categorical "width" ["<invalid ordinal 2>", "0"]
    let speed := Definition.continuous "max_speed"
    let first : Handle := ⟨0, width⟩
    let second : Handle := ⟨1, speed⟩
    let minusZero : Binary64 := .signed true .zero
    ∃ catalogue, Reached catalogue [width, speed] ∧
      first ∈ catalogue.handles ∧ second ∈ catalogue.handles ∧
      first.parse? (first.format (.category 1)) = some (.category 1) ∧
      first.parse? (first.format (.category 2)) = some (.category 0) ∧
      first.parse? (first.format (.number .zero)) ≠ some (.number .zero) ∧
      second.parse? (second.format (.number minusZero)) = some (.number minusZero) := by
  intro width speed first second minusZero
  let registry : Registry := ⟨[width, speed], by decide, by decide⟩
  obtain ⟨catalogue, hmade, hkeeps⟩ := Catalogue.ofDefinitions_eq_map [width, speed]
  have hregistry : Registry.ofDefinitions [width, speed] = .ok registry :=
    registry.ofDefinitions_definitions
  have hreached : Reached catalogue [width, speed] := .ofDefinitions (by rw [hmade, hregistry]; rfl)
  have hhandles : catalogue.handles = registry.handles :=
    (hkeeps registry hregistry).handles_eq (by decide)
  have hfirst : first ∈ catalogue.handles := by
    rw [hhandles]
    decide
  have hsecond : second ∈ catalogue.handles := by
    rw [hhandles]
    decide
  obtain ⟨hwidth, -⟩ := hreached.parse?_inverts_format hfirst
  obtain ⟨hspeed, -⟩ := hreached.parse?_inverts_format hsecond
  have hforeign : ¬ (first.admits (.number .zero) = true) := by decide
  exact ⟨catalogue, hreached, hfirst, hsecond, (hwidth _).mpr ⟨by decide, by decide⟩,
    by decide +kernel, fun hread => hforeign ((hwidth _).mp hread).1,
    (hspeed _).mpr ⟨by decide, by decide⟩⟩

end Reached

end RoutePriority
