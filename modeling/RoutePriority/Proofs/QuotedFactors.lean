import RoutePriority.Proofs.Compilations
import RoutePriority.Proofs.NumberWriting

/-!
# Factors in quotes

A factor that is a number may also be given as the text of this number.  The text reads back as the
number, bit for bit, and it is the text that an error about the number shows, so no check can tell
the two apart (`checkFactor_of_quotes`).  Rule by rule and table by table, a specification with some
of its numbers in quotes is then compiled like the one without.
-/

namespace RoutePriority

/-- The second factor is the first one, or the text of the number that the first one is. -/
inductive Factor.Quotes : Factor → Factor → Prop
  | kept (factor : Factor) : Quotes factor factor
  | quoted (x : Binary64) : Quotes (.number x) (.text (Factor.number x).display)

/-- Two maps hold the same names in the same order, and values that are related. -/
def OrderedMap.Pointwise {α β : Type} (R : α → β → Prop) (left : OrderedMap α)
    (right : OrderedMap β) : Prop :=
  List.Forall₂ (fun a b => a.1 = b.1 ∧ R a.2 b.2) left.entries right.entries

/-- The second table is the first one with some of its numbers in quotes. -/
def RuleTable.Quotes : RuleTable → RuleTable → Prop := OrderedMap.Pointwise Factor.Quotes

/-- The second specification is the first one with some of its numbers in quotes. -/
def Specification.Quotes : Specification → Specification → Prop :=
  OrderedMap.Pointwise RuleTable.Quotes

namespace Factor.Quotes

variable {factor quoted : Factor}

/-- A quoted factor is read as the same number. -/
theorem toBinary64?_eq (h : Quotes factor quoted) : quoted.toBinary64? = factor.toBinary64? := by
  cases h with
  | kept => rfl
  | quoted x =>
      simp only [toBinary64?, display]
      rw [Layout.trim_text, Layout.ofText?_text]

/-- A quoted factor is shown as the same text. -/
theorem display_eq (h : Quotes factor quoted) : quoted.display = factor.display := by
  cases h with
  | kept => rfl
  | quoted x => rfl

end Factor.Quotes

/-- Traversals of related lists are equal if their steps are. -/
theorem mapM_eq_mapM {α β γ ε : Type} {f : α → Except ε γ} {g : β → Except ε γ} {entries : List α}
    {others : List β} (h : List.Forall₂ (fun a b => f a = g b) entries others) :
    entries.mapM f = others.mapM g := by
  induction h with
  | nil => rfl
  | cons hfirst _ ih => rw [List.mapM_cons, List.mapM_cons, hfirst, ih]

/-- The check of a factor sees its number, and for errors its text. -/
theorem Handle.checkFactor_of_quotes {factor quoted : Factor} (h : factor.Quotes quoted)
    (handle : Handle) (pattern : String) :
    handle.checkFactor pattern quoted = handle.checkFactor pattern factor := by
  rw [checkFactor, checkFactor, h.toBinary64?_eq, h.display_eq]

/-- A table of quoted factors compiles to the same rules or fails with the same error. -/
theorem Handle.compileTable_of_quotes {table quoted : RuleTable} (h : table.Quotes quoted)
    (handle : Handle) : handle.compileTable quoted = handle.compileTable table := by
  have hrules : List.Forall₂ (fun a b => handle.compileRule a.1 a.2 = handle.compileRule b.1 b.2)
      table.entries quoted.entries := by
    refine List.Forall₂.imp (fun a b hab => ?_) h
    obtain ⟨htext, hfactor⟩ := hab
    rw [compileRule, compileRule, htext, checkFactor_of_quotes hfactor]
  rw [compileTable, compileTable, mapM_eq_mapM hrules]

/-- A quoted table compiles to the same rules or fails with the same error, whether its attribute is
known or not. -/
theorem Registry.compileTable_of_quotes {table quoted : RuleTable} (h : table.Quotes quoted)
    (registry : Registry) (name : String) :
    registry.compileTable name quoted = registry.compileTable name table := by
  rw [compileTable, compileTable]
  cases registry.resolve? name with
  | none => rfl
  | some handle => exact Handle.compileTable_of_quotes h handle

/-- **Quotes around numbers change nothing.**  With any of the numbers of a specification in quotes,
it is compiled to the same model, bit for bit, or refused with the same error. -/
theorem Model.compile_of_quotes {specification quoted : Specification}
    (h : specification.Quotes quoted) (registry : Registry) :
    Model.compile quoted registry = Model.compile specification registry := by
  have htables : List.Forall₂
      (fun a b => registry.compileTable a.1 a.2 = registry.compileTable b.1 b.2)
      specification.entries quoted.entries := by
    refine List.Forall₂.imp (fun a b hab => ?_) h
    obtain ⟨hname, htable⟩ := hab
    rw [hname, registry.compileTable_of_quotes htable]
  rw [compile_eq_mapM, compile_eq_mapM, mapM_eq_mapM htables]

/-- The least number that is not zero is a factor with quotes and without.  What is not a number is
refused either way, and the error shows the same text. -/
theorem Model.compile_of_quotes_least :
    let least : Binary64 := .signed false ⟨1, by decide⟩
    let specification : Specification :=
      ⟨[("max_speed", ⟨[("<50", .number least), ("*", .number .nan)], by decide⟩)], by decide⟩
    let quoted : Specification :=
      ⟨[("max_speed", ⟨[("<50", .text "5e-324"), ("*", .text "NaN")], by decide⟩)], by decide⟩
    let registry : Registry := ⟨[Definition.continuous "max_speed"], by decide, by decide⟩
    specification.Quotes quoted ∧
      Model.compile quoted registry = .error (.invalidFactor "max_speed" "*" "NaN") := by
  intro least specification quoted registry
  have hleast : (Factor.number least).display = "5e-324" := by decide +kernel
  have hnan : (Factor.number .nan).display = "NaN" := by decide +kernel
  have hquotes : specification.Quotes quoted := by
    have hfirst : (Factor.number least).Quotes (.text "5e-324") := hleast ▸ .quoted least
    have hsecond : (Factor.number .nan).Quotes (.text "NaN") := hnan ▸ .quoted .nan
    exact .cons ⟨rfl, .cons ⟨rfl, hfirst⟩ (.cons ⟨rfl, hsecond⟩ .nil)⟩ .nil
  refine ⟨hquotes, ?_⟩
  rw [compile_of_quotes hquotes registry]
  decide +kernel

end RoutePriority
