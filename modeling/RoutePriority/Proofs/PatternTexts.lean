import RoutePriority.Proofs.Interpretation
import RoutePriority.Proofs.LegalPatterns
import RoutePriority.Proofs.NumberWriting

/-!
# The texts of patterns

What a text denotes as a pattern is said on the text alone (`Pattern.Denoted`): `*` stands for every
value, a text that starts with a comparison sign compares with the number behind its longest sign or
denotes nothing (`Compares`), and any other text names a value.  `parse_eq_iff` says that the reader
follows these rules.

A pattern is written with its sign directly in front of the threshold.  No number starts with `=`,
so the sign is still the longest one when the text is read again, and the threshold comes back bit
for bit.
-/

namespace RoutePriority

/-- The text has the comparison as its longest sign, and what follows, without the blanks around it,
is a text of the finite number. -/
def Compares (text : String) (comparison : Comparison) (threshold : Binary64) : Prop :=
  ∃ rest, comparison.Leads text.toList rest ∧ NumberText (Text.trimmed rest) threshold ∧
    threshold.isFinite = true

/-- A text has a finite threshold if it is a comparison with one. -/
theorem hasFiniteThreshold_iff {text : String} :
    HasFiniteThreshold text ↔ ∃ comparison threshold, Compares text comparison threshold := by
  unfold HasFiniteThreshold Compares
  simp only [Binary64.ofChars?_eq_some_iff]
  constructor
  · intro h
    obtain ⟨comparison, rest, x, h⟩ := h
    exact ⟨comparison, x, rest, h⟩
  · intro h
    obtain ⟨comparison, x, rest, h⟩ := h
    exact ⟨comparison, rest, x, h⟩

/-- No number starts with an equals sign, so the longer operator is not mistaken for the shorter. -/
theorem NumberText.head_ne_equals {text : List Char} {x : Binary64} (h : NumberText text x) :
    text.head? ≠ some '=' := by
  intro hhead
  obtain ⟨tail, rfl⟩ := List.head?_eq_some_iff.mp hhead
  have hread := Binary64.ofChars?_eq_some_iff.mpr h
  rw [Binary64.ofChars?_equals] at hread
  cases hread

/-- A sign is the longest one of a text if no `=` follows it. -/
theorem Comparison.leads_append (comparison : Comparison) {rest : List Char}
    (h : rest.head? ≠ some '=') : comparison.Leads (comparison.symbol.toList ++ rest) rest := by
  apply leads_of_split?
  cases rest with
  | nil => cases comparison <;> rfl
  | cons c tail =>
      have hc : c ≠ '=' := fun hc => h (by rw [hc]; rfl)
      cases comparison with
      | lessOrEqual | greaterOrEqual => rfl
      | less | greater =>
          simp only [toList_symbol, List.cons_append, List.nil_append]
          rw [split?]
          intro other hcase
          cases hcase
          exact hc rfl

namespace Pattern

variable {text : String} {comparison : Comparison} {threshold : Binary64}

/-- A comparison is read as such. -/
theorem parse_compares (h : Compares text comparison threshold) :
    parse text = .ok (.relational comparison threshold) := by
  obtain ⟨rest, hleads, hnumber, hfinite⟩ := h
  exact parse_comparison hleads (Binary64.ofChars?_eq_some_iff.mpr hnumber) hfinite

/-- What a text denotes: a pattern, or an error that carries the text. -/
inductive Denoted (text : String) : Except PatternError Pattern → Prop
  | wildcard (htext : text = "*") : Denoted text (.ok .wildcard)
  | relational {comparison : Comparison} {threshold : Binary64}
      (h : Compares text comparison threshold) :
      Denoted text (.ok (.relational comparison threshold))
  | unfinished (hstart : StartsComparison text)
      (hnone : ¬ ∃ comparison threshold, Compares text comparison threshold) :
      Denoted text (.error ⟨text⟩)
  | literal (htext : text ≠ "*") (hstart : ¬ StartsComparison text) :
      Denoted text (.ok (.literal text))

/-- Every text denotes something. -/
theorem exists_denoted (text : String) : ∃ result, Denoted text result := by
  by_cases htext : text = "*"
  · exact ⟨_, .wildcard htext⟩
  by_cases hcompares : ∃ comparison threshold, Compares text comparison threshold
  · obtain ⟨comparison, threshold, h⟩ := hcompares
    exact ⟨_, .relational h⟩
  by_cases hstart : StartsComparison text
  · exact ⟨_, .unfinished hstart hcompares⟩
  · exact ⟨_, .literal htext hstart⟩

/-- Every text is read as what it denotes. -/
theorem parse_of_denoted {result : Except PatternError Pattern} (h : Denoted text result) :
    parse text = result := by
  cases h with
  | wildcard htext =>
      subst htext
      rfl
  | relational hcompares => exact parse_compares hcompares
  | unfinished hstart hnone =>
      have hthreshold : ¬ HasFiniteThreshold text := by rwa [hasFiniteThreshold_iff]
      exact parse_unfinished hstart hthreshold
  | literal htext hstart => exact parse_name htext hstart

/-- The reader gives what a text denotes. -/
theorem parse_eq_iff {result : Except PatternError Pattern} :
    parse text = result ↔ Denoted text result := by
  constructor
  · intro h
    obtain ⟨other, hother⟩ := exists_denoted text
    rw [← h, parse_of_denoted hother]
    exact hother
  · exact parse_of_denoted

/-- A comparison is written as a text that compares with the threshold. -/
theorem compares_text (comparison : Comparison) (hfinite : threshold.isFinite = true) :
    Compares (relational comparison threshold).text comparison threshold := by
  have hnumber := Layout.plain.numberText_chars threshold
  have htext : (relational comparison threshold).text.toList =
      comparison.symbol.toList ++ Layout.plain.chars threshold := by
    rw [Pattern.text, String.toList_append, Layout.text, String.toList_ofList]
  refine ⟨Layout.plain.chars threshold, ?_, ?_, hfinite⟩
  · rw [htext]
    exact comparison.leads_append hnumber.head_ne_equals
  · rw [hnumber.trimmed_eq]
    exact hnumber

/-- The text of a pattern that was read is read as this pattern. -/
theorem parse_text_of_parse {pattern : Pattern} (h : parse text = .ok pattern) :
    parse pattern.text = .ok pattern := by
  cases parse_eq_iff.mp h with
  | wildcard => rfl
  | relational hcompares =>
      obtain ⟨-, -, -, hfinite⟩ := hcompares
      exact parse_compares (compares_text _ hfinite)
  | literal => exact h

/-- **Patterns and their texts.**  A text is the wildcard, a comparison with a finite number, an
error or the name of a value, exactly as its first characters and the text of a number behind them
say.  The text of every pattern that can be read is read as the same pattern, bit for bit. -/
theorem parse_classifies (text : String) :
    (parse text = .ok .wildcard ↔ text = "*") ∧
    (∀ comparison threshold, parse text = .ok (.relational comparison threshold) ↔
      Compares text comparison threshold) ∧
    (∀ error, parse text = .error error ↔ error = ⟨text⟩ ∧ StartsComparison text ∧
      ¬ ∃ comparison threshold, Compares text comparison threshold) ∧
    (∀ value, parse text = .ok (.literal value) ↔
      value = text ∧ text ≠ "*" ∧ ¬ StartsComparison text) ∧
    ∀ pattern, parse text = .ok pattern → parse pattern.text = .ok pattern := by
  refine ⟨?_, fun comparison threshold => ?_, fun error => ?_, fun value => ?_,
    fun _ => parse_text_of_parse⟩
  · rw [parse_eq_iff]
    constructor
    · intro h
      cases h with
      | wildcard htext => exact htext
    · exact .wildcard
  · rw [parse_eq_iff]
    constructor
    · intro h
      cases h with
      | relational hcompares => exact hcompares
    · exact .relational
  · rw [parse_eq_iff]
    constructor
    · intro h
      cases h with
      | unfinished hstart hnone => exact ⟨rfl, hstart, hnone⟩
    · intro hcase
      obtain ⟨rfl, hstart, hnone⟩ := hcase
      exact .unfinished hstart hnone
  · rw [parse_eq_iff]
    constructor
    · intro h
      cases h with
      | literal htext hstart => exact ⟨rfl, htext, hstart⟩
    · intro hcase
      obtain ⟨rfl, htext, hstart⟩ := hcase
      exact .literal htext hstart

/-- A threshold of minus zero keeps its sign, and the longer sign stays together. -/
theorem parse_classifies_minus_zero :
    let pattern := relational .lessOrEqual (.signed true .zero)
    parse "<= -0.0 " = .ok pattern ∧ pattern.text = "<=-0" ∧ parse "<=-0" = .ok pattern ∧
      parse "<==0" = .error ⟨"<==0"⟩ := by
  intro pattern
  have hparse : parse "<= -0.0 " = .ok pattern := by decide +kernel
  have htext : pattern.text = "<=-0" := by decide +kernel
  obtain ⟨-, -, -, -, hagain⟩ := parse_classifies "<= -0.0 "
  refine ⟨hparse, htext, ?_, by decide +kernel⟩
  rw [← htext]
  exact hagain pattern hparse

end Pattern

end RoutePriority
