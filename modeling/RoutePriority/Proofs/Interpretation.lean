import RoutePriority.Proofs.LegalPatterns
import RoutePriority.Proofs.RecordWrites

/-!
# Interpreting a specification

`Specification.interpret` rates an edge by reading the texts of a specification again for every
edge.  It knows nothing of parsed patterns, compiled rules or ordinals: a text applies to a stored
value if it is `*`, if it is a comparison sign and a threshold for which the comparison holds, or if
it is the text of the value.

`evaluate_eq_interpret` says that compiling a specification first makes no difference on the records
that writes can make.  Names of values stand for ordinals, and this works because no ordinal is cut
off, no name occurs twice, and a record holds only values that belong to its attributes.
-/

namespace RoutePriority

/-- The signs of comparisons, each with what it says of a value on its left and a threshold on its
right. -/
def comparisonSigns : List (List Char × (Binary64 → Binary64 → Bool)) :=
  [(['<'], fun value threshold => value.lt threshold),
    (['<', '='], fun value threshold => value.le threshold),
    (['>'], fun value threshold => threshold.lt value),
    (['>', '='], fun value threshold => threshold.le value)]

/-- Whether the text is the sign and a threshold, and the value compares to it as the sign says. -/
def signReads (text : List Char) (value : Binary64)
    (sign : List Char × (Binary64 → Binary64 → Bool)) : Bool :=
  match sign.1.isPrefixOf? text with
  | some rest => (Binary64.ofChars? (Text.trimmed rest)).any (sign.2 value)
  | none => false

namespace Handle

/-- Whether a rule with the given text applies to a value. -/
def applies (handle : Handle) (text : String) (value : AttributeValue) : Bool :=
  text = "*" ||
    match handle.kind, value with
    | .continuous, .number x => comparisonSigns.any (signReads text.toList x)
    | .continuous, _ => false
    | .categorical, _ | .boolean, _ => text = handle.format value

/-- The number of the first rule that applies to a value. -/
def declaredFactor? (handle : Handle) (table : RuleTable) (value : AttributeValue) :
    Option Binary64 :=
  (table.entries.find? fun rule => handle.applies rule.1 value).bind fun rule =>
    rule.2.toBinary64?

/-- The value that a record holds for a direction of travel. -/
def valueIn (handle : Handle) (record : EdgeRecord) (direction : Direction) : AttributeValue :=
  if direction = .backward ∧ handle.directional = true then record.get handle .backward
  else record.get handle .forward

end Handle

/-- A priority after the table of an attribute. -/
def Registry.rate (registry : Registry) (record : EdgeRecord) (direction : Direction)
    (priority : Binary64) (entry : String × RuleTable) : Binary64 :=
  match (registry.resolve? entry.1).bind fun handle =>
    handle.declaredFactor? entry.2 (handle.valueIn record direction) with
  | some factor => priority * factor
  | none => priority

/-- The priority of an edge, read off the text of a specification. -/
def Specification.interpret (specification : Specification) (registry : Registry)
    (record : EdgeRecord) (direction : Direction) : Binary64 :=
  specification.entries.foldl (registry.rate record direction) .one

/-- Trimming keeps a text that starts with something else than a blank. -/
theorem Text.exists_trimmed_cons {c : Char} (h : Text.isBlank c = false) (rest : List Char) :
    ∃ tail, Text.trimmed (c :: rest) = c :: tail := by
  refine ⟨(rest.reverse.dropWhile Text.isBlank).reverse, ?_⟩
  have hstop : (rest.reverse ++ [c]).dropWhile Text.isBlank =
      rest.reverse.dropWhile Text.isBlank ++ [c] := by
    rw [List.dropWhile_append]
    by_cases hblank : (rest.reverse.dropWhile Text.isBlank).isEmpty <;> simp_all
  simp [Text.trimmed, h, hstop]

/-- No numeral starts with an equals sign. -/
theorem Binary64.ofChars?_equals (tail : List Char) : Binary64.ofChars? ('=' :: tail) = none := by
  simp [ofChars?, splitSign, Magnitude.ofNumeral?]

namespace Comparison

/-- The signs are those of the comparisons of patterns, and they say what the comparisons do. -/
theorem comparisonSigns_eq_map :
    comparisonSigns = all.map fun comparison => (comparison.symbol.toList, comparison.holds) :=
  rfl

/-- A text that reads as a comparison is its sign and a threshold for which it holds. -/
theorem signReads_eq_true_iff {comparison : Comparison} {text : List Char} {value : Binary64} :
    signReads text value (comparison.symbol.toList, comparison.holds) = true ↔
      ∃ rest threshold, text = comparison.symbol.toList ++ rest ∧
        Binary64.ofChars? (Text.trimmed rest) = some threshold ∧
        comparison.holds value threshold = true := by
  constructor
  · intro h
    unfold signReads at h
    split at h
    next rest hprefix =>
      obtain ⟨threshold, hvalue, hholds⟩ := (Option.any_eq_true _ _).mp h
      exact ⟨rest, threshold, (List.isPrefixOf?_eq_some_iff_append_eq.mp hprefix).symm, hvalue,
        hholds⟩
    next => cases h
  · intro h
    obtain ⟨rest, threshold, hsplit, hvalue, hholds⟩ := h
    have hprefix := List.isPrefixOf?_eq_some_iff_append_eq.mpr hsplit.symm
    rw [signReads, hprefix]
    simp [hvalue, hholds]

/-- A text has no sign but its longest one, except for a shorter one before an equals sign. -/
theorem Leads.of_symbol {comparison other : Comparison} {text rest tail : List Char}
    (h : comparison.Leads text rest) (hsplit : text = other.symbol.toList ++ tail) :
    other = comparison ∧ tail = rest ∨ tail = '=' :: rest := by
  have htext := h.split.symm.trans hsplit
  have hshort := h.longest other ⟨tail, hsplit.symm⟩
  cases comparison <;> cases other <;> simp_all [toList_symbol]

/-- The comparison that a legal text stands for is the only one that it reads as: no numeral starts
with the second character of a longer sign. -/
theorem any_reads {comparison : Comparison} {text rest : List Char} {threshold value : Binary64}
    (hleads : comparison.Leads text rest)
    (hthreshold : Binary64.ofChars? (Text.trimmed rest) = some threshold) :
    comparisonSigns.any (signReads text value) = comparison.holds value threshold := by
  rw [comparisonSigns_eq_map, List.any_map, Bool.eq_iff_iff, List.any_eq_true]
  constructor
  · intro h
    obtain ⟨other, -, hreads⟩ := h
    obtain ⟨tail, found, hsplit, hfound, hholds⟩ := signReads_eq_true_iff.mp hreads
    rcases hleads.of_symbol hsplit with ⟨rfl, rfl⟩ | rfl
    · rw [hthreshold] at hfound
      cases hfound
      exact hholds
    · obtain ⟨kept, hkept⟩ := Text.exists_trimmed_cons (c := '=') (by decide) rest
      rw [hkept, Binary64.ofChars?_equals] at hfound
      cases hfound
  · intro h
    exact ⟨comparison, by cases comparison <;> decide,
      signReads_eq_true_iff.mpr ⟨rest, threshold, hleads.split, hthreshold, h⟩⟩

end Comparison

namespace Handle

variable {handle : Handle} {text : String} {value : AttributeValue}

/-- The test for a name passes the value of that name and nothing else. -/
theorem accepts_named {named : AttributeValue} {matcher : Matcher}
    (hkind : handle.kind ≠ .continuous) (hnamed : handle.parse? text = some named)
    (hmatcher : handle.matcher (.literal text) = .ok matcher) :
    matcher.accepts value = decide (named = value) := by
  rw [matcher_literal hkind, hnamed] at hmatcher
  cases named with
  | number x => exact absurd hnamed (number_ne_parse? hkind x)
  | category ordinal =>
      cases hmatcher
      cases value <;> simp [Matcher.accepts, Bool.beq_eq_decide_eq]
  | flag flag =>
      cases hmatcher
      cases value <;> simp [Matcher.accepts, Bool.beq_eq_decide_eq]

/-- A compiled test passes the values that its text applies to.  For a name this is so because the
stored value has a name, and names and values of the attribute determine each other. -/
theorem accepts_eq_applies (hsound : handle.definition.WellFormed) {pattern : Pattern}
    {matcher : Matcher} (hread : handle.readPattern text = .ok (pattern, matcher))
    (hadmits : handle.admits value = true) :
    matcher.accepts value = handle.applies text value := by
  by_cases htext : text = wildcardText
  · rw [htext] at hread
    cases hread
    simp [applies, htext, wildcardText, Matcher.accepts]
  have hlegal := (reports_readPattern handle text).ok_iff.mp ⟨_, hread⟩
  have hkindOf := kind_of_admits hadmits
  cases hlegal with
  | wildcard h => exact absurd h htext
  | comparison hstart hkind hthreshold =>
      obtain ⟨comparison, rest, threshold, hleads, hvalue, hfinite⟩ := hthreshold
      rw [readPattern_of_parse (Pattern.parse_comparison hleads hvalue hfinite),
        matcher_relational, if_pos hkind] at hread
      cases hread
      rw [hkind] at hkindOf
      cases value with
      | number x =>
          simp only [applies, hkind]
          rw [Comparison.any_reads hleads hvalue]
          simp [Matcher.accepts, show text ≠ "*" from htext]
      | category ordinal => cases hkindOf
      | flag flag => cases hkindOf
  | name hstart hkind hvalue =>
      obtain ⟨named, hnamed⟩ := hvalue
      have hother : handle.kind ≠ .continuous := by
        rcases hkind with hkind | hkind <;> simp [hkind]
      obtain ⟨hparse, hmatcher⟩ := readPattern_eq_ok_iff.mp hread
      cases hparse.symm.trans (Pattern.parse_name htext hstart)
      have happlies : handle.applies text value = decide (text = handle.format value) := by
        rcases hkind with hkind | hkind <;> simp [applies, hkind, show text ≠ "*" from htext]
      rw [accepts_named hother hnamed hmatcher, happlies, decide_eq_decide,
        ← parse?_eq_some_iff_eq_format hsound hother hadmits, hnamed, Option.some.injEq]

/-- The first compiled rule that passes a value is the first declared one that applies to it. -/
theorem find?_factor (hsound : handle.definition.WellFormed) (hadmits : handle.admits value = true)
    {entries : List (String × Factor)} {rules : List Rule}
    (h : List.Forall₂ (fun entry rule => handle.compileRule entry.1 entry.2 = .ok rule)
      entries rules) :
    (rules.find? (·.matcher.accepts value)).map Rule.factor =
      (entries.find? fun entry => handle.applies entry.1 value).bind fun entry =>
        entry.2.toBinary64? := by
  induction h with
  | nil => rfl
  | @cons entry rule _ _ hrule _ ih =>
      obtain ⟨hread, hfactor⟩ := compileRule_eq_ok_iff.mp hrule
      rw [List.find?_cons, List.find?_cons, accepts_eq_applies hsound hread hadmits]
      cases handle.applies entry.1 value with
      | true => exact (checkFactor_eq_ok_iff.mp hfactor).1.symm
      | false => exact ih

/-- A compiled table reads the value that its attribute has in the direction of travel. -/
theorem valueIn_eq_valueOf (record : EdgeRecord) (direction : Direction) (rules : List Rule) :
    handle.valueIn record direction =
      CompiledTable.valueOf ⟨handle, rules⟩ record.store direction := by
  unfold valueIn CompiledTable.valueOf
  cases direction <;> cases handle.directional <;> rfl

end Handle

/-- A compiled table changes a priority as its text does. -/
theorem Registry.rate_eq_mul {registry : Registry} {record : EdgeRecord}
    (hrecord : record.Admitted registry) {entry : String × RuleTable} {compiled : CompiledTable}
    (hcompiled : registry.compileTable entry.1 entry.2 = .ok compiled) (direction : Direction)
    (priority : Binary64) :
    registry.rate record direction priority entry =
      priority * compiled.factorOf record.store direction := by
  obtain ⟨hresolve, hrules⟩ := Registry.compileTable_eq_ok_iff.mp hcompiled
  have hmem := Registry.mem_handles_of_resolve? hresolve
  have hadmits := hrecord.admits compiled.handle hmem
  have hvalue := compiled.handle.valueIn_eq_valueOf record direction compiled.rules
  have hadmitted : compiled.handle.admits (compiled.valueOf record.store direction) = true :=
    hadmits _
  have hfactor := Handle.find?_factor (Registry.wellFormed_of_mem hmem) hadmitted hrules
  rw [Registry.rate, hresolve, Option.bind_some, Handle.declaredFactor?, hvalue, ← hfactor,
    CompiledTable.factorOf, CompiledTable.factorFor]
  cases compiled.rules.find? (·.matcher.accepts (compiled.valueOf record.store direction)) with
  | none => exact (Binary64.mul_one priority).symm
  | some rule => rfl

/-- Compiled tables change a priority as their texts do, whatever the tables before them made it. -/
theorem Registry.foldl_rate {registry : Registry} {record : EdgeRecord}
    (hrecord : record.Admitted registry) {entries : List (String × RuleTable)}
    {tables : List CompiledTable}
    (h : List.Forall₂ (fun entry table => registry.compileTable entry.1 entry.2 = .ok table)
      entries tables) (direction : Direction) (priority : Binary64) :
    entries.foldl (registry.rate record direction) priority =
      tables.foldl (fun priority table => priority * table.factorOf record.store direction)
        priority := by
  induction h generalizing priority with
  | nil => rfl
  | cons hcompiled _ ih =>
      rw [List.foldl_cons, List.foldl_cons, Registry.rate_eq_mul hrecord hcompiled]
      exact ih _

/-- **Compiling makes no difference.**  On the records that calls through handles of the registry
make, a compiled specification gives the priority that interpreting its text gives. -/
theorem evaluate_eq_interpret {specification : Specification} {registry : Registry} {model : Model}
    (hcompile : Model.compile specification registry = .ok model) {writes : List Write}
    (hwrites : ∀ write ∈ writes, write.handle ∈ registry.handles) (direction : Direction) :
    let record := (EdgeRecord.new registry).performAll writes
    model.evaluate record.store direction =
      specification.interpret registry record direction := by
  intro record
  have hrecord : record.Admitted registry :=
    (EdgeRecord.admitted_new registry).performAll hwrites
  have htables := Model.compile_eq_ok_iff.mp hcompile
  exact (Registry.foldl_rate hrecord htables direction .one).symm

/-- Two rules of a table apply to a surface, and the first of them counts; the speed limit of the
way back is written without a fraction and compared as a number, and it is neither below nor above
a threshold that it equals. -/
theorem evaluate_eq_interpret_gravel :
    let speed : Handle := ⟨5, (Definition.continuous "max_speed").withDirections⟩
    let surface : Handle := ⟨3, .categorical "surface" Road.surfaceValues⟩
    let half : Binary64 := .signed false ⟨1022 * Nat.pow 2 52, by decide⟩
    let specification : Specification :=
      ⟨[("max_speed", ⟨[("<50", .number .zero), ("> 50", .number .zero),
          ("<= 50.0", .text "0.5"), ("*", .number .one)], by decide⟩),
        ("surface", ⟨[("GRAVEL", .number half), ("*", .number .zero)], by decide⟩)], by decide⟩
    let writes : List Write := [.setText surface "GRAVEL", .setTextDirectional speed "110" " 50 "]
    let record := (EdgeRecord.new Road.registry).performAll writes
    ∃ model, Model.compile specification Road.registry = .ok model ∧
      (∀ write ∈ writes, write.handle ∈ Road.registry.handles) ∧
      specification.interpret Road.registry record .backward = half * half ∧
      model.evaluate record.store .backward = half * half := by
  intro speed surface half specification writes record
  have hspeed : speed ∈ Road.registry.handles := by decide
  have hsurface : surface ∈ Road.registry.handles := by decide
  have hwrites : ∀ write ∈ writes, write.handle ∈ Road.registry.handles := by
    simp [writes, Write.handle, hspeed, hsurface]
  have hinterpret : specification.interpret Road.registry record .backward = half * half := by
    decide +kernel
  have hcompile : Model.compile specification Road.registry = .ok
      ⟨[⟨speed, [⟨.relational .less (.ofInt 50), .compare .less (.ofInt 50), .zero⟩,
            ⟨.relational .greater (.ofInt 50), .compare .greater (.ofInt 50), .zero⟩,
            ⟨.relational .lessOrEqual (.ofInt 50), .compare .lessOrEqual (.ofInt 50), half⟩,
            ⟨.wildcard, .any, .one⟩]⟩,
        ⟨surface, [⟨.literal "GRAVEL", .category 9, half⟩, ⟨.wildcard, .any, .zero⟩]⟩]⟩ := by
    decide +kernel
  have hsame := evaluate_eq_interpret hcompile hwrites .backward
  exact ⟨_, hcompile, hwrites, hinterpret, hsame.trans hinterpret⟩

end RoutePriority
