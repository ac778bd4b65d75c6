import Std.Data.HashSet

/-!
# Distinct texts

`firstRepeat?` walks through a list of texts and finds the first one that occurred before
(`firstRepeat?_eq_some_iff`); it finds none exactly if the texts are distinct.
-/

namespace RoutePriority.Text

/-- The first of the texts that is among those seen or repeats an earlier one. -/
def firstRepeatAfter? (seen : Std.HashSet String) : List String → Option String
  | [] => none
  | text :: rest =>
    if text ∈ seen then some text else firstRepeatAfter? (seen.insert text) rest

/-- The first text that repeats an earlier one. -/
def firstRepeat? (texts : List String) : Option String := firstRepeatAfter? ∅ texts

/-- Nothing repeats if the texts are distinct and none of them was seen before. -/
theorem firstRepeatAfter?_eq_none_iff (seen : Std.HashSet String) (texts : List String) :
    firstRepeatAfter? seen texts = none ↔ texts.Nodup ∧ ∀ text ∈ texts, text ∉ seen := by
  induction texts generalizing seen with
  | nil => simp [firstRepeatAfter?]
  | cons text rest ih =>
    by_cases h : text ∈ seen
    · simp [firstRepeatAfter?, h]
    · simp only [firstRepeatAfter?, h, if_false, ih, Std.HashSet.mem_insert, List.nodup_cons,
        List.mem_cons]
      grind

/-- Nothing repeats if the texts are distinct. -/
theorem firstRepeat?_eq_none_iff (texts : List String) :
    firstRepeat? texts = none ↔ texts.Nodup := by
  simp [firstRepeat?, firstRepeatAfter?_eq_none_iff]

/-- The first repetition is a text that was seen before, and the texts before it are new. -/
theorem firstRepeatAfter?_eq_some_iff (seen : Std.HashSet String) (texts : List String)
    (text : String) :
    firstRepeatAfter? seen texts = some text ↔
      ∃ before after, texts = before ++ text :: after ∧ before.Nodup ∧
        (∀ earlier ∈ before, earlier ∉ seen) ∧ (text ∈ seen ∨ text ∈ before) := by
  induction texts generalizing seen with
  | nil => simp [firstRepeatAfter?]
  | cons first rest ih =>
    by_cases h : first ∈ seen
    · rw [firstRepeatAfter?, if_pos h]
      constructor
      · intro hfirst
        cases hfirst
        exact ⟨[], rest, by simp [h]⟩
      · intro hcase
        obtain ⟨before, after, hsplit, -, hunseen, -⟩ := hcase
        cases before with
        | nil => simp_all
        | cons => grind
    · rw [firstRepeatAfter?, if_neg h, ih]
      constructor
      · intro hcase
        obtain ⟨before, after, rfl, hnodup, hunseen, hrepeat⟩ := hcase
        refine ⟨first :: before, after, rfl, ?_⟩
        grind
      · intro hcase
        obtain ⟨before, after, hsplit, hnodup, hunseen, hrepeat⟩ := hcase
        cases before with
        | nil => simp_all
        | cons _ before => exact ⟨before, after, by grind⟩

/-- The first repeat is the text after the longest part without repeats. -/
theorem firstRepeat?_eq_some_iff (texts : List String) (text : String) :
    firstRepeat? texts = some text ↔
      ∃ before after, texts = before ++ text :: after ∧ before.Nodup ∧ text ∈ before := by
  simp [firstRepeat?, firstRepeatAfter?_eq_some_iff]

end RoutePriority.Text
