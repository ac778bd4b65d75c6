import RoutePriority.Proofs.Compilations

/-!
# Legal patterns

Which pattern texts suit an attribute is said here on the texts themselves (`Handle.Legal`), and so
is what is wrong with the others (`Handle.Faulty`).  A text that starts with a comparison sign is
about its longest sign and the threshold after it; any other text names a value, except for `*`.

`reports_readPattern` compares this with the reading of patterns: legal texts are read, and the
others are refused for their fault.
-/

namespace RoutePriority

/-- The comparison has the longest sign that the text starts with, and `rest` follows it. -/
structure Comparison.Leads (comparison : Comparison) (text rest : List Char) : Prop where
  split : text = comparison.symbol.toList ++ rest
  longest : ∀ other : Comparison, other.symbol.toList <+: text →
    other.symbol.toList.length ≤ comparison.symbol.toList.length

/-- The text starts with `<` or `>`. -/
def StartsComparison (text : String) : Prop :=
  text.toList.head? = some '<' ∨ text.toList.head? = some '>'

/-- What follows the longest sign, without the blanks around it, reads as a finite number. -/
def HasFiniteThreshold (text : String) : Prop :=
  ∃ comparison rest x, Comparison.Leads comparison text.toList rest ∧
    Binary64.ofChars? (Text.trimmed rest) = some x ∧ x.isFinite = true

namespace Handle

/-- The pattern texts that suit an attribute. -/
inductive Legal (handle : Handle) (text : String) : Prop
  | wildcard (htext : text = "*")
  | comparison (hstart : StartsComparison text) (hkind : handle.kind = .continuous)
      (hthreshold : HasFiniteThreshold text)
  | name (hstart : ¬ StartsComparison text)
      (hkind : handle.kind = .categorical ∨ handle.kind = .boolean)
      (hvalue : ∃ value, handle.parse? text = some value)

/-- What is wrong with the other pattern texts. -/
inductive Faulty (handle : Handle) (text : String) : PatternFault → Prop
  | thresholdNotFinite (hstart : StartsComparison text) (hkind : handle.kind = .continuous)
      (hthreshold : ¬ HasFiniteThreshold text) : Faulty handle text .thresholdNotFinite
  | comparesKind (hstart : StartsComparison text) (hkind : handle.kind ≠ .continuous) :
      Faulty handle text (.comparesKind handle.kind)
  | namesKind (htext : text ≠ "*") (hstart : ¬ StartsComparison text)
      (hkind : handle.kind = .continuous) : Faulty handle text (.namesKind handle.kind)
  | notAmong (htext : text ≠ "*") (hstart : ¬ StartsComparison text)
      (hkind : handle.kind ≠ .continuous) (hvalue : handle.parse? text = none) :
      Faulty handle text (.notAmong handle.values)

end Handle

namespace Comparison

theorem toList_symbol (comparison : Comparison) :
    comparison.symbol.toList =
      match comparison with
      | less => ['<']
      | lessOrEqual => ['<', '=']
      | greater => ['>']
      | greaterOrEqual => ['>', '='] := by
  cases comparison <;> rfl

/-- No comparison is split off a text that starts with neither `<` nor `>`. -/
theorem split?_eq_none_iff {text : List Char} :
    split? text = none ↔ ¬ (text.head? = some '<' ∨ text.head? = some '>') := by
  fun_cases split? text with
  | case1 | case2 | case3 | case4 => simp
  | case5 _ _ _ hless hgreater =>
      cases text with
      | nil => simp
      | cons c rest =>
          have hc : c ≠ '<' ∧ c ≠ '>' :=
            ⟨fun h => hless rest (by rw [h]), fun h => hgreater rest (by rw [h])⟩
          simp [hc]

/-- The sign that is split off is the longest one. -/
theorem leads_of_split? {text rest : List Char} {comparison : Comparison} :
    split? text = some (comparison, rest) → comparison.Leads text rest := by
  fun_cases split? text with
  | case1 tail | case2 tail =>
      intro h
      cases h
      exact ⟨rfl, fun other _ => by cases other <;> decide⟩
  | case3 tail hne | case4 tail hne =>
      intro h
      cases h
      refine ⟨rfl, fun other hother => ?_⟩
      obtain ⟨rest, hrest⟩ := hother
      cases other <;> simp_all [toList_symbol, eq_comm]
  | case5 =>
      intro h
      cases h

/-- A text has at most one longest sign. -/
theorem Leads.unique {text rest rest' : List Char} {comparison comparison' : Comparison}
    (h : comparison.Leads text rest) (h' : comparison'.Leads text rest') :
    comparison = comparison' ∧ rest = rest' := by
  have hlength : comparison.symbol.toList.length = comparison'.symbol.toList.length :=
    Nat.le_antisymm (h'.longest _ ⟨rest, h.split.symm⟩) (h.longest _ ⟨rest', h'.split.symm⟩)
  obtain ⟨hsymbol, hrest⟩ := List.append_inj (h.split.symm.trans h'.split) hlength
  refine ⟨?_, hrest⟩
  cases comparison <;> cases comparison' <;> simp_all [toList_symbol]

/-- Splitting a text finds the longest sign. -/
theorem split?_eq_some_iff {text rest : List Char} {comparison : Comparison} :
    split? text = some (comparison, rest) ↔ comparison.Leads text rest := by
  constructor
  · exact leads_of_split?
  · intro h
    cases hsplit : split? text with
    | none =>
        have hhead := split?_eq_none_iff.mp hsplit
        rw [h.split] at hhead
        cases comparison <;> simp [toList_symbol] at hhead
    | some found =>
        obtain ⟨other, tail⟩ := found
        obtain ⟨rfl, rfl⟩ := Leads.unique h (leads_of_split? hsplit)
        rfl

end Comparison

section Patterns

variable {handle : Handle} {text : String}

/-- A text that starts with a comparison is no wildcard. -/
theorem ne_wildcard_of_startsComparison (h : StartsComparison text) : text ≠ wildcardText := by
  intro htext
  rw [htext] at h
  simp [StartsComparison, wildcardText] at h

/-- A text led by a comparison starts with one. -/
theorem Comparison.Leads.startsComparison {comparison : Comparison} {rest : List Char}
    (h : comparison.Leads text.toList rest) : StartsComparison text := by
  rw [StartsComparison, h.split]
  cases comparison <;> simp [toList_symbol]

namespace Pattern

/-- A threshold is a finite number, with blanks around it left out. -/
theorem threshold?_eq_some_iff {rest : List Char} {x : Binary64} :
    threshold? rest = some x ↔
      Binary64.ofChars? (Text.trimmed rest) = some x ∧ x.isFinite = true := by
  simp [threshold?, Option.filter_eq_some_iff]

/-- Every other text is taken for a name. -/
theorem parse_name (htext : text ≠ wildcardText) (hstart : ¬ StartsComparison text) :
    parse text = .ok (.literal text) := by
  rw [parse, if_neg htext, Comparison.split?_eq_none_iff.mpr hstart]

/-- A comparison with a finite threshold is read as such. -/
theorem parse_comparison {comparison : Comparison} {rest : List Char} {threshold : Binary64}
    (hleads : comparison.Leads text.toList rest)
    (hvalue : Binary64.ofChars? (Text.trimmed rest) = some threshold)
    (hfinite : threshold.isFinite = true) :
    parse text = .ok (.relational comparison threshold) := by
  rw [parse, if_neg (ne_wildcard_of_startsComparison hleads.startsComparison),
    Comparison.split?_eq_some_iff.mpr hleads]
  simp only [threshold?_eq_some_iff.mpr ⟨hvalue, hfinite⟩]

/-- A text that starts like a comparison must go on to be one. -/
theorem parse_unfinished (hstart : StartsComparison text)
    (hthreshold : ¬ HasFiniteThreshold text) : parse text = .error ⟨text⟩ := by
  rw [parse, if_neg (ne_wildcard_of_startsComparison hstart)]
  cases hsplit : Comparison.split? text.toList with
  | none => exact absurd hstart (Comparison.split?_eq_none_iff.mp hsplit)
  | some found =>
      obtain ⟨comparison, rest⟩ := found
      have hnone : threshold? rest = none := by
        rw [Option.eq_none_iff_forall_ne_some]
        intro x hx
        obtain ⟨hvalue, hfinite⟩ := threshold?_eq_some_iff.mp hx
        exact hthreshold ⟨_, _, x, Comparison.leads_of_split? hsplit, hvalue, hfinite⟩
      simp only [hnone]

end Pattern

theorem DomainKind.acceptsRelations_iff {kind : DomainKind} :
    kind.acceptsRelations = true ↔ kind = .continuous := by
  cases kind <;> decide

theorem DomainKind.acceptsLiterals_iff {kind : DomainKind} :
    kind.acceptsLiterals = true ↔ kind ≠ .continuous := by
  cases kind <;> decide

namespace Handle

/-- Only numbers are compared. -/
theorem matcher_relational (comparison : Comparison) (threshold : Binary64) :
    handle.matcher (.relational comparison threshold) =
      if handle.kind = .continuous then .ok (.compare comparison threshold)
      else .error (.comparesKind handle.kind) := by
  simp only [matcher, DomainKind.acceptsRelations_iff]

/-- The test for a name is one for the value of that name. -/
theorem matcher_literal (hkind : handle.kind ≠ .continuous) :
    handle.matcher (.literal text) =
      match handle.parse? text with
      | some (.category ordinal) => .ok (.category ordinal)
      | some (.flag flag) => .ok (.flag flag)
      | _ => .error (.notAmong handle.values) := by
  unfold matcher
  exact if_pos (DomainKind.acceptsLiterals_iff.mpr hkind)

/-- Only a continuous attribute has numbers as values. -/
theorem number_ne_parse? (hkind : handle.kind ≠ .continuous) (x : Binary64) :
    handle.parse? text ≠ some (.number x) := by
  unfold parse?
  cases h : handle.kind with
  | continuous => exact absurd h hkind
  | categorical => simp
  | boolean => grind

/-- What is legal about a pattern that can be read depends on the kind of values. -/
theorem readPattern_of_parse {pattern : Pattern} (h : Pattern.parse text = .ok pattern) :
    handle.readPattern text = (handle.matcher pattern).map (pattern, ·) := by
  rw [readPattern, h]

/-- A pattern that cannot be read is blamed on its threshold where numbers are compared, and on the
kind of values elsewhere. -/
theorem readPattern_of_refused {error : PatternError} (h : Pattern.parse text = .error error) :
    handle.readPattern text =
      if handle.kind = .continuous then .error .thresholdNotFinite
      else .error (.comparesKind handle.kind) := by
  simp only [readPattern, h, DomainKind.acceptsRelations_iff]

/-- What is read is the pattern that the text denotes and the test of this pattern. -/
theorem readPattern_eq_ok_iff {pattern : Pattern} {matcher : Matcher} :
    handle.readPattern text = .ok (pattern, matcher) ↔
      Pattern.parse text = .ok pattern ∧ handle.matcher pattern = .ok matcher := by
  cases hparse : Pattern.parse text with
  | error refused =>
      rw [readPattern_of_refused hparse]
      split <;> simp
  | ok parsed =>
      rw [readPattern_of_parse hparse, Except.ok.injEq]
      constructor
      · intro h
        cases hmatcher : handle.matcher parsed with
        | error fault =>
            rw [hmatcher] at h
            cases h
        | ok found =>
            rw [hmatcher] at h
            cases h
            exact ⟨rfl, hmatcher⟩
      · intro h
        obtain ⟨rfl, hmatcher⟩ := h
        rw [hmatcher]
        rfl

/-- Legal patterns are read. -/
theorem exists_readPattern_of_legal (h : handle.Legal text) :
    ∃ read, handle.readPattern text = .ok read := by
  by_cases htext : text = wildcardText
  · rw [htext]
    exact ⟨(.wildcard, .any), rfl⟩
  cases h with
  | wildcard h => exact absurd h htext
  | comparison hstart hkind hthreshold =>
      obtain ⟨comparison, _, threshold, hleads, hvalue, hfinite⟩ := hthreshold
      rw [readPattern_of_parse (Pattern.parse_comparison hleads hvalue hfinite),
        matcher_relational, if_pos hkind]
      exact ⟨_, rfl⟩
  | name hstart hkind hvalue =>
      obtain ⟨value, hvalue⟩ := hvalue
      have hother : handle.kind ≠ .continuous := by
        rcases hkind with hkind | hkind <;> simp [hkind]
      rw [readPattern_of_parse (Pattern.parse_name htext hstart), matcher_literal hother, hvalue]
      cases value with
      | category ordinal => exact ⟨_, rfl⟩
      | flag flag => exact ⟨_, rfl⟩
      | number x => exact absurd hvalue (number_ne_parse? hother x)

/-- The others are refused for what is wrong with them. -/
theorem readPattern_of_faulty {fault : PatternFault} (h : handle.Faulty text fault) :
    handle.readPattern text = .error fault := by
  cases h with
  | thresholdNotFinite hstart hkind hthreshold =>
      rw [readPattern_of_refused (Pattern.parse_unfinished hstart hthreshold), if_pos hkind]
  | comparesKind hstart hkind =>
      by_cases hthreshold : HasFiniteThreshold text
      · obtain ⟨comparison, _, threshold, hleads, hvalue, hfinite⟩ := hthreshold
        rw [readPattern_of_parse (Pattern.parse_comparison hleads hvalue hfinite),
          matcher_relational, if_neg hkind]
        rfl
      · rw [readPattern_of_refused (Pattern.parse_unfinished hstart hthreshold), if_neg hkind]
  | namesKind htext hstart hkind =>
      have hnames : ¬ handle.kind.acceptsLiterals = true := by
        simp [DomainKind.acceptsLiterals_iff, hkind]
      rw [readPattern_of_parse (Pattern.parse_name htext hstart), matcher, if_neg hnames]
      rfl
  | notAmong htext hstart hkind hvalue =>
      rw [readPattern_of_parse (Pattern.parse_name htext hstart), matcher_literal hkind, hvalue]
      rfl

/-- Every text is a legal pattern or has a fault. -/
theorem legal_or_faulty (handle : Handle) (text : String) :
    handle.Legal text ∨ ∃ fault, handle.Faulty text fault := by
  by_cases htext : text = wildcardText
  · exact Or.inl (.wildcard htext)
  by_cases hstart : StartsComparison text
  · by_cases hkind : handle.kind = .continuous
    · by_cases hthreshold : HasFiniteThreshold text
      · exact Or.inl (.comparison hstart hkind hthreshold)
      · exact Or.inr ⟨_, .thresholdNotFinite hstart hkind hthreshold⟩
    · exact Or.inr ⟨_, .comparesKind hstart hkind⟩
  · by_cases hkind : handle.kind = .continuous
    · exact Or.inr ⟨_, .namesKind htext hstart hkind⟩
    · cases hvalue : handle.parse? text with
      | none => exact Or.inr ⟨_, .notAmong htext hstart hkind hvalue⟩
      | some value =>
          have hnamed : handle.kind = .categorical ∨ handle.kind = .boolean := by
            cases h : handle.kind <;> simp_all
          exact Or.inl (.name hstart hnamed ⟨value, hvalue⟩)

/-- The reader accepts the legal patterns and reports the fault of every other. -/
theorem reports_readPattern (handle : Handle) (text : String) :
    Reports (handle.readPattern text) (handle.Legal text) (handle.Faulty text) :=
  Reports.of_cases exists_readPattern_of_legal (fun _ => readPattern_of_faulty)
    (legal_or_faulty handle text)

end Handle

end Patterns

end RoutePriority
