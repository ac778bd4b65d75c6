import RoutePriority.Proofs.MapHistories
import RoutePriority.Proofs.RecordWrites
import RoutePriority.Proofs.StricterProfiles
import Mathlib.Data.List.Perm.Basic
import Mathlib.Data.List.Perm.Subperm

/-!
# Equal specifications

Two specifications are equal if they declare the same tables and two tables are equal if they hold
the same rules, both in any order; factors are compared as values.  So the entries of the one are
those of the other in some order (`OrderedMap.equal_reordered`), and this is what compiling keeps of
equality: one compiles if the other does, and the models have the same tables with the same rules,
again in some order (`Registry.alike_of_compileTable`).

Meaning does depend on the order, at two levels.  Of several rules that accept a value the first one
counts, and rounded products depend on the order of their factors.  `compile_of_same` says that
nothing else stands between equality and equal priorities, and `same_rated_differently` has an
example for either level.
-/

namespace RoutePriority

section Reordering

variable {α β γ δ : Type} {R : α → β → Prop} {left : List α} {right : List β}

/-- The lists hold related entries, perhaps in another order. -/
def Reordered (R : α → β → Prop) (left : List α) (right : List β) : Prop :=
  ∃ between, List.Forall₂ R left between ∧ between.Perm right

namespace Reordered

/-- Every entry on the left has its like on the right. -/
theorem exists_right (h : Reordered R left right) {a : α} (ha : a ∈ left) :
    ∃ b ∈ right, R a b := by
  obtain ⟨between, hbetween, hperm⟩ := h
  obtain ⟨b, hb, hab⟩ := exists_of_mem_right hbetween.flip ha
  exact ⟨b, hperm.mem_iff.mp hb, hab⟩

/-- Every entry on the right has its like on the left. -/
theorem exists_left (h : Reordered R left right) {b : β} (hb : b ∈ right) :
    ∃ a ∈ left, R a b := by
  obtain ⟨between, hbetween, hperm⟩ := h
  exact exists_of_mem_right hbetween (hperm.mem_iff.mpr hb)

/-- What related entries share holds of all entries on both sides. -/
theorem forall_mem_iff {P : α → Prop} {Q : β → Prop} (h : Reordered R left right)
    (hshared : ∀ a b, R a b → (P a ↔ Q b)) : (∀ a ∈ left, P a) ↔ ∀ b ∈ right, Q b := by
  constructor
  · intro hleft b hb
    obtain ⟨a, ha, hab⟩ := h.exists_left hb
    exact (hshared a b hab).mp (hleft a ha)
  · intro hright a ha
    obtain ⟨b, hb, hab⟩ := h.exists_right ha
    exact (hshared a b hab).mpr (hright b hb)

/-- Traversals of reordered entries have reordered results. -/
theorem of_traversals {P : α → γ → Prop} {P' : β → δ → Prop} {Q : γ → δ → Prop}
    {results : List γ} {results' : List δ}
    (hstep : ∀ a b c d, R a b → P a c → P' b d → Q c d) (h : Reordered R left right)
    (hleft : List.Forall₂ P left results) (hright : List.Forall₂ P' right results') :
    Reordered Q results results' := by
  obtain ⟨between, hbetween, hperm⟩ := h
  obtain ⟨others, hothers, hperm'⟩ := List.perm_comp_forall₂ hperm hright
  exact ⟨others, forall₂_of_traversals hstep hbetween hleft hothers, hperm'⟩

end Reordered

/-- Entries with distinct names are settled by the order of the names. -/
theorem perm_eq_of_names_eq {entries others : List (String × α)} (hperm : entries.Perm others)
    (hnodup : (Entries.names others).Nodup)
    (hnames : Entries.names entries = Entries.names others) : entries = others := by
  apply List.ext_getElem hperm.length_eq
  intro position hleft hright
  have hname : (entries[position]).1 = (others[position]).1 := by
    have hsame : (Entries.names entries)[position]? = (Entries.names others)[position]? := by
      rw [hnames]
    simpa [Entries.names, hleft, hright] using hsame
  have hmem : entries[position] ∈ others := hperm.mem_iff.mp (List.getElem_mem hleft)
  exact List.inj_on_of_nodup_map hnodup hmem (List.getElem_mem hright) hname

/-- Entries of the same names in the same order are related one after the other. -/
theorem Reordered.forall₂_of_names {R : String × α → String × β → Prop}
    {entries : List (String × α)} {others : List (String × β)} (h : Reordered R entries others)
    (hname : ∀ a b, R a b → a.1 = b.1) (hnodup : (Entries.names others).Nodup)
    (hnames : Entries.names entries = Entries.names others) : List.Forall₂ R entries others := by
  obtain ⟨between, hbetween, hperm⟩ := h
  have hkept : Entries.names entries = Entries.names between := by
    rw [Entries.names, Entries.names, ← List.forall₂_eq_eq_eq, List.forall₂_map_left_iff,
      List.forall₂_map_right_iff]
    exact hbetween.imp hname
  rwa [← perm_eq_of_names_eq hperm hnodup (hkept.symm.trans hnames)]

end Reordering

namespace OrderedMap

variable {α : Type}

/-- Entries of two maps under one name, with values that are the same. -/
structure Pairs (same : α → α → Bool) (left right : OrderedMap α) (a b : String × α) : Prop where
  name : a.1 = b.1
  value : same a.2 b.2 = true
  mem_left : a ∈ left.entries
  mem_right : b ∈ right.entries

/-- Equal maps have the same entries in some order. -/
theorem equal_reordered {same : α → α → Bool} {left right : OrderedMap α}
    (h : left.equal same right = true) :
    Reordered (Pairs same left right) left.entries right.entries := by
  simp only [equal, Bool.and_eq_true, beq_iff_eq, List.all_eq_true] at h
  obtain ⟨hsize, hall⟩ := h
  let partner (a : String × α) : String × α := (a.1, (right.get? a.1).getD a.2)
  have hpairs : ∀ a ∈ left.entries, Pairs same left right a (partner a) := by
    intro a ha
    obtain ⟨value, hvalue, hsame⟩ := (Option.any_eq_true _ _).mp (hall a ha)
    have hpartner : partner a = (a.1, value) := by
      simp [partner, hvalue]
    rw [hpartner]
    exact ⟨rfl, hsame, ha, (Entries.mem_iff_find?_eq_some right.nodup_names).mpr hvalue⟩
  have hnames : Entries.names (left.entries.map partner) = Entries.names left.entries := by
    rw [Entries.names, List.map_map]
    rfl
  refine ⟨left.entries.map partner, ?_, ?_⟩
  · rw [List.forall₂_map_right_iff, List.forall₂_same]
    exact hpairs
  · have hnodup : (left.entries.map partner).Nodup := by
      refine List.Nodup.of_map Prod.fst ?_
      rw [show (left.entries.map partner).map Prod.fst = _ from hnames]
      exact left.nodup_names
    have hsubset : left.entries.map partner ⊆ right.entries := by
      intro b hb
      obtain ⟨a, ha, rfl⟩ := List.mem_map.mp hb
      exact (hpairs a ha).mem_right
    have hlength : right.entries.length ≤ (left.entries.map partner).length := by
      rw [List.length_map]
      exact hsize.ge
    exact (hnodup.subperm hsubset).perm_of_length_le hlength

end OrderedMap

namespace Binary64

variable {x y z : Binary64}

/-- Two numbers are equal as values if they have one place. -/
theorem same_iff : x.same y = true ↔ x.place? = y.place? ∧ x.place? ≠ none := by
  rw [same]
  cases x.place? <;> cases y.place? <;> simp

/-- Equality of numbers is transitive. -/
theorem same_trans (hxy : x.same y = true) (hyz : y.same z = true) : x.same z = true := by
  rw [same_iff] at hxy hyz ⊢
  exact ⟨hxy.1.trans hyz.1, hxy.2⟩

/-- Numbers are equal as values if neither is larger. -/
theorem same_iff_le : x.same y = true ↔ x.le y = true ∧ y.le x = true := by
  rw [same, le, le]
  cases x.place? with
  | none => simp
  | some i =>
      cases y.place? with
      | none => simp
      | some j => simp only [decide_eq_true_eq]; omega

theorem InUnitInterval.same_refl (h : x.InUnitInterval) : x.same x = true :=
  same_iff_le.mpr ⟨h.le_refl, h.le_refl⟩

/-- The interval does not tell equal numbers apart. -/
theorem inUnitInterval_iff_of_same (h : x.same y = true) : x.InUnitInterval ↔ y.InUnitInterval := by
  rw [InUnitInterval, InUnitInterval, le, le, le, le, (same_iff.mp h).1]

end Binary64

namespace Factor

variable {factor other : Factor} {x y : Binary64}

/-- A valid factor denotes a number of the interval. -/
theorem valid_iff : factor.Valid ↔ ∃ x, factor.toBinary64? = some x ∧ x.InUnitInterval := by
  constructor
  · intro h
    obtain ⟨x, hx, -, hunit⟩ := h
    exact ⟨x, denotes_iff.mp hx, hunit⟩
  · intro h
    obtain ⟨x, hx, hunit⟩ := h
    exact ⟨x, denotes_iff.mpr hx, hunit.isNan_eq_false, hunit⟩

/-- Of two equal factors one is valid if the other is. -/
theorem valid_iff_of_same (h : factor.same other = true) : factor.Valid ↔ other.Valid := by
  rw [valid_iff, valid_iff]
  cases factor with
  | number x =>
      cases other with
      | number y =>
          have hunit := Binary64.inUnitInterval_iff_of_same h
          simp [toBinary64?, hunit]
      | text t => cases h
      | other value => cases h
  | text s =>
      cases other with
      | number y => cases h
      | text t =>
          rw [same, beq_iff_eq] at h
          rw [h]
      | other value => cases h
  | other json =>
      cases other with
      | number y => cases h
      | text t => cases h
      | other value => exact Iff.rfl

/-- Equal factors denote numbers that are equal as values. -/
theorem denotes_same (h : factor.same other = true) (hx : factor.Denotes x) (hy : other.Denotes y)
    (hunit : x.InUnitInterval) : x.same y = true := by
  cases hx with
  | number =>
      cases hy with
      | number => exact h
      | text hy => cases h
  | text hx =>
      cases hy with
      | number => cases h
      | text hy =>
          rw [same, beq_iff_eq] at h
          rw [h, hy] at hx
          cases hx
          exact hunit.same_refl

end Factor

/-- Two compiled rules make the same test and give factors that are equal as values. -/
structure Rule.Alike (rule other : Rule) : Prop where
  pattern : rule.pattern = other.pattern
  matcher : rule.matcher = other.matcher
  factor : rule.factor.same other.factor = true

namespace CompiledTable

/-- Two compiled tables are for one attribute and have the same rules in some order. -/
structure Alike (table other : CompiledTable) : Prop where
  handle : table.handle = other.handle
  rules : Reordered Rule.Alike table.rules other.rules

/-- Rules of the table that accept one value give it the same factor. -/
def Unambiguous (table : CompiledTable) : Prop :=
  ∀ rule ∈ table.rules, ∀ other ∈ table.rules, ∀ value,
    rule.matcher.accepts value = true → other.matcher.accepts value = true →
      rule.factor.same other.factor = true

variable {table other : CompiledTable}

/-- Tests for categories, each made once, never compete. -/
theorem unambiguous_of_categories
    (hcategories : ∀ rule ∈ table.rules, ∃ ordinal, rule.matcher = .category ordinal)
    (honce : (table.rules.map (·.matcher)).Nodup)
    (hunit : ∀ rule ∈ table.rules, rule.factor.InUnitInterval) : table.Unambiguous := by
  intro rule hrule other hother value haccepts haccepts'
  have hmatcher : rule.matcher = other.matcher := by
    obtain ⟨ordinal, hordinal⟩ := hcategories rule hrule
    obtain ⟨ordinal', hordinal'⟩ := hcategories other hother
    rw [hordinal] at haccepts ⊢
    rw [hordinal'] at haccepts' ⊢
    cases value with
    | category actual =>
        rw [Matcher.accepts, beq_iff_eq] at haccepts haccepts'
        rw [haccepts, haccepts']
    | flag actual => cases haccepts
    | number actual => cases haccepts
  cases List.inj_on_of_nodup_map honce hrule hother hmatcher
  exact (hunit rule hrule).same_refl

/-- The same rules in the same order give every value the same factor. -/
theorem factorFor_same_of_forall₂ (h : List.Forall₂ Rule.Alike table.rules other.rules)
    (value : AttributeValue) : (table.factorFor value).same (other.factorFor value) = true := by
  have hbelow : List.Forall₂ (fun rule rule' : Rule =>
      rule'.matcher = rule.matcher ∧ rule'.factor.le rule.factor = true)
        other.rules table.rules :=
    h.flip.imp fun _ _ hrules =>
      ⟨hrules.matcher, (Binary64.same_iff_le.mp hrules.factor).1⟩
  have habove : List.Forall₂ (fun rule rule' : Rule =>
      rule'.matcher = rule.matcher ∧ rule'.factor.le rule.factor = true)
        table.rules other.rules :=
    h.imp fun _ _ hrules =>
      ⟨hrules.matcher.symm, (Binary64.same_iff_le.mp hrules.factor).2⟩
  exact Binary64.same_iff_le.mpr
    ⟨factorFor_le_factorFor hbelow value, factorFor_le_factorFor habove value⟩

/-- If no two rules compete for a value, their order does not matter: a rule that accepts the value
on one side has its like on the other. -/
theorem factorFor_same_of_unambiguous (h : Reordered Rule.Alike table.rules other.rules)
    (hagree : table.Unambiguous) (value : AttributeValue) :
    (table.factorFor value).same (other.factorFor value) = true := by
  unfold factorFor
  cases hfirst : table.rules.find? (·.matcher.accepts value) with
  | none =>
      have hnone : other.rules.find? (·.matcher.accepts value) = none := by
        rw [List.find?_eq_none] at hfirst ⊢
        intro rule' hrule'
        obtain ⟨rule, hrule, halike⟩ := h.exists_left hrule'
        rw [← halike.matcher]
        exact hfirst rule hrule
      rw [hnone]
      decide
  | some rule =>
      have hrule := List.mem_of_find?_eq_some hfirst
      have haccepts : rule.matcher.accepts value = true := by
        simpa using List.find?_some hfirst
      cases hsecond : other.rules.find? (·.matcher.accepts value) with
      | none =>
          obtain ⟨rule', hrule', halike⟩ := h.exists_right hrule
          rw [halike.matcher] at haccepts
          exact absurd haccepts (List.find?_eq_none.mp hsecond rule' hrule')
      | some rule' =>
          have haccepts' : rule'.matcher.accepts value = true := by
            simpa using List.find?_some hsecond
          obtain ⟨partner, hpartner, halike⟩ :=
            h.exists_left (List.mem_of_find?_eq_some hsecond)
          rw [← halike.matcher] at haccepts'
          have hsame := hagree rule hrule partner hpartner value haccepts haccepts'
          exact Binary64.same_trans hsame halike.factor

end CompiledTable

/-- Equal rules are compiled to rules that are alike. -/
theorem Handle.alike_of_compileRule {handle : Handle} {a b : String × Factor} {rule other : Rule}
    (hname : a.1 = b.1) (hfactor : a.2.same b.2 = true)
    (hrule : handle.compileRule a.1 a.2 = .ok rule)
    (hother : handle.compileRule b.1 b.2 = .ok other) : rule.Alike other := by
  obtain ⟨hread, hchecked⟩ := Handle.compileRule_eq_ok_iff.mp hrule
  obtain ⟨hread', hchecked'⟩ := Handle.compileRule_eq_ok_iff.mp hother
  obtain ⟨hx, hunit⟩ := Handle.checkFactor_eq_ok_iff.mp hchecked
  obtain ⟨hy, -⟩ := Handle.checkFactor_eq_ok_iff.mp hchecked'
  rw [← hname, hread] at hread'
  obtain ⟨hpattern, hmatcher⟩ := Prod.mk.inj (Except.ok.inj hread')
  exact ⟨hpattern, hmatcher,
    Factor.denotes_same hfactor (Factor.denotes_iff.mpr hx) (Factor.denotes_iff.mpr hy) hunit⟩

namespace Registry

variable {registry : Registry} {a b : String × RuleTable} {table other : CompiledTable}

/-- Of two equal tables one is valid if the other is. -/
theorem validEntry_iff_of_same (hname : a.1 = b.1) (hsame : a.2.same b.2 = true) :
    registry.ValidEntry a ↔ registry.ValidEntry b := by
  have hrules : ∀ handle : Handle, (∀ rule ∈ a.2.entries, handle.ValidRule rule) ↔
      ∀ rule ∈ b.2.entries, handle.ValidRule rule := by
    intro handle
    refine (OrderedMap.equal_reordered hsame).forall_mem_iff fun rule rule' hpairs => ?_
    rw [Handle.ValidRule, Handle.ValidRule, hpairs.name, Factor.valid_iff_of_same hpairs.value]
  simp only [ValidEntry, hname, hrules]

/-- Equal tables are compiled to tables that are alike. -/
theorem alike_of_compileTable (hname : a.1 = b.1) (hsame : a.2.same b.2 = true)
    (htable : registry.compileTable a.1 a.2 = .ok table)
    (hother : registry.compileTable b.1 b.2 = .ok other) : table.Alike other := by
  obtain ⟨hresolve, hcompiled⟩ := compileTable_eq_ok_iff.mp htable
  obtain ⟨hresolve', hcompiled'⟩ := compileTable_eq_ok_iff.mp hother
  have hhandle : table.handle = other.handle := by
    rw [hname, hresolve'] at hresolve
    exact (Option.some.inj hresolve).symm
  rw [← hhandle] at hcompiled'
  refine ⟨hhandle, (OrderedMap.equal_reordered hsame).of_traversals ?_ hcompiled hcompiled'⟩
  exact fun _ _ _ _ hpairs => Handle.alike_of_compileRule hpairs.name hpairs.value

/-- Equal tables that list their patterns in one order are compiled to the same rules in that
order. -/
theorem forall₂_alike_of_compileTable (hname : a.1 = b.1) (hsame : a.2.same b.2 = true)
    (horder : Entries.names a.2.entries = Entries.names b.2.entries)
    (htable : registry.compileTable a.1 a.2 = .ok table)
    (hother : registry.compileTable b.1 b.2 = .ok other) :
    List.Forall₂ Rule.Alike table.rules other.rules := by
  have hhandle := (alike_of_compileTable hname hsame htable hother).handle
  obtain ⟨-, hcompiled⟩ := compileTable_eq_ok_iff.mp htable
  obtain ⟨-, hcompiled'⟩ := compileTable_eq_ok_iff.mp hother
  rw [← hhandle] at hcompiled'
  have hrules := (OrderedMap.equal_reordered hsame).forall₂_of_names
    (fun _ _ hpairs => hpairs.name) b.2.nodup_names horder
  exact forall₂_of_traversals
    (fun _ _ _ _ hpairs => Handle.alike_of_compileRule hpairs.name hpairs.value)
    hrules hcompiled hcompiled'

end Registry

/-- The order of the rules makes no difference between two equal specifications: tables of one name
list their patterns in one order, or no rules of theirs compete for a value. -/
def Specification.RulesAgree (registry : Registry) (left right : Specification) : Prop :=
  ∀ a ∈ left.entries, ∀ b ∈ right.entries, a.1 = b.1 →
    Entries.names a.2.entries = Entries.names b.2.entries ∨
      ∀ table, registry.compileTable a.1 a.2 = .ok table → table.Unambiguous

/-- Specifications compile if all their entries are valid. -/
theorem Model.exists_compile_iff (specification : Specification) (registry : Registry) :
    (∃ model, Model.compile specification registry = .ok model) ↔
      ∀ entry ∈ specification.entries, registry.ValidEntry entry := by
  rw [compile_eq_mapM]
  exact ((Reports.mapM registry.reports_compileTable).map Model.mk).ok_iff

/-- Equal tables whose rules agree give every edge the same factor. -/
theorem Specification.RulesAgree.factorOf_same {registry : Registry} {left right : Specification}
    (h : left.RulesAgree registry right) {a b : String × RuleTable}
    (hpairs : OrderedMap.Pairs RuleTable.same left right a b) {table other : CompiledTable}
    (htable : registry.compileTable a.1 a.2 = .ok table)
    (hother : registry.compileTable b.1 b.2 = .ok other) (edge : EdgeStore)
    (direction : Direction) :
    (table.factorOf edge direction).same (other.factorOf edge direction) = true := by
  have halike := Registry.alike_of_compileTable hpairs.name hpairs.value htable hother
  rw [CompiledTable.factorOf, CompiledTable.factorOf,
    CompiledTable.valueOf_of_handle_eq halike.handle]
  rcases h a hpairs.mem_left b hpairs.mem_right hpairs.name with horder | hagree
  · exact CompiledTable.factorFor_same_of_forall₂
      (Registry.forall₂_alike_of_compileTable hpairs.name hpairs.value horder htable hother) _
  · exact CompiledTable.factorFor_same_of_unambiguous halike.rules (hagree table htable) _

/-- Running products of factors that are equal as values are equal as values. -/
theorem Binary64.foldl_mul_same {factors others : List Binary64}
    (hfactors : ∀ x ∈ factors, x.InUnitInterval) (hothers : ∀ x ∈ others, x.InUnitInterval)
    (h : List.Forall₂ (fun x y : Binary64 => x.same y = true) factors others) :
    (factors.foldl (· * ·) one).same (others.foldl (· * ·) one) = true := by
  have hbelow := h.imp fun _ _ hsame => (same_iff_le.mp hsame).1
  have habove := h.flip.imp fun _ _ hsame => (same_iff_le.mp hsame).2
  exact same_iff_le.mpr
    ⟨foldl_mul_mono hfactors hothers hbelow, foldl_mul_mono hothers hfactors habove⟩

/-- **Equal specifications mean the same up to the order of declaration.**  Of two equal
specifications one compiles exactly if the other does, and then both models have the same tables
with the same rules, each in some order.  If the order of the rules makes no difference, the tables
give every edge the same factors, and if the attributes are declared in one order too, every edge
has the same priority in both directions. -/
theorem compile_of_same {left right : Specification} (h : left.same right = true)
    (registry : Registry) :
    ((∃ model, Model.compile left registry = .ok model) ↔
      ∃ model, Model.compile right registry = .ok model) ∧
    ∀ model other, Model.compile left registry = .ok model →
      Model.compile right registry = .ok other →
      Reordered CompiledTable.Alike model.tables other.tables ∧
      (left.RulesAgree registry right →
        (∀ edge direction, Reordered
          (fun table table' =>
            (table.factorOf edge direction).same (table'.factorOf edge direction) = true)
          model.tables other.tables) ∧
        (Entries.names left.entries = Entries.names right.entries → ∀ edge direction,
          (model.evaluate edge direction).same (other.evaluate edge direction) = true)) := by
  have hentries := OrderedMap.equal_reordered h
  refine ⟨?_, ?_⟩
  · rw [Model.exists_compile_iff, Model.exists_compile_iff]
    exact hentries.forall_mem_iff fun _ _ hpairs =>
      Registry.validEntry_iff_of_same hpairs.name hpairs.value
  · intro model other hleft hright
    have htables := Model.compile_eq_ok_iff.mp hleft
    have htables' := Model.compile_eq_ok_iff.mp hright
    refine ⟨hentries.of_traversals ?_ htables htables', fun hagree => ⟨?_, ?_⟩⟩
    · exact fun _ _ _ _ hpairs => Registry.alike_of_compileTable hpairs.name hpairs.value
    · intro edge direction
      refine hentries.of_traversals ?_ htables htables'
      exact fun _ _ _ _ hpairs hcompiled hcompiled' =>
        hagree.factorOf_same hpairs hcompiled hcompiled' edge direction
    · intro horder edge direction
      have hinOrder := hentries.forall₂_of_names (fun _ _ hpairs => hpairs.name)
        right.nodup_names horder
      have hfactors : List.Forall₂
          (fun table table' : CompiledTable =>
            (table.factorOf edge direction).same (table'.factorOf edge direction) = true)
          model.tables other.tables := by
        refine forall₂_of_traversals ?_ hinOrder htables htables'
        exact fun _ _ _ _ hpairs hcompiled hcompiled' =>
          hagree.factorOf_same hpairs hcompiled hcompiled' edge direction
      rw [Model.evaluate_eq_foldl, Model.evaluate_eq_foldl]
      refine Binary64.foldl_mul_same (Model.inUnitInterval_factorOf hleft edge direction)
        (Model.inUnitInterval_factorOf hright edge direction) ?_
      rw [List.forall₂_map_left_iff, List.forall₂_map_right_iff]
      exact hfactors

/-- Paved roads and gravel change places and the zero for paved roads gets a minus sign; no surface
is both.  The rules for the speed limit do compete, and keep their order.  A slow paved road has the
priority zero both times, once with the minus sign. -/
theorem compile_of_same_paved_road :
    let surface : Handle := ⟨3, .categorical "surface" Road.surfaceValues⟩
    let half : Binary64 := .signed false ⟨1022 * Nat.pow 2 52, by decide⟩
    let negativeZero : Binary64 := .signed true .zero
    let limits : RuleTable := ⟨[("<=50", .number half), ("*", .number .one)], by decide⟩
    let left : Specification := ⟨[("max_speed", limits),
      ("surface", ⟨[("GRAVEL", .text "0.5"), ("PAVED", .number .zero)], by decide⟩)], by decide⟩
    let right : Specification := ⟨[("max_speed", limits),
      ("surface", ⟨[("PAVED", .number negativeZero), ("GRAVEL", .text "0.5")], by decide⟩)],
      by decide⟩
    let edge : EdgeStore := fun handle _ =>
      if handle = surface then .category 1 else .number (.ofInt 30)
    left.same right = true ∧ left.RulesAgree Road.registry right ∧
      Entries.names left.entries = Entries.names right.entries ∧
      ∃ model other, Model.compile left Road.registry = .ok model ∧
        Model.compile right Road.registry = .ok other ∧
        (model.evaluate edge .forward).same (other.evaluate edge .forward) = true ∧
        model.evaluate edge .forward = .zero ∧ other.evaluate edge .forward = negativeZero := by
  intro surface half negativeZero limits left right edge
  let speed : Handle := ⟨5, (Definition.continuous "max_speed").withDirections⟩
  let slow : CompiledTable := ⟨speed, [⟨.relational .lessOrEqual (.ofInt 50),
    .compare .lessOrEqual (.ofInt 50), half⟩, ⟨.wildcard, .any, .one⟩]⟩
  let gravel : Rule := ⟨.literal "GRAVEL", .category 9, half⟩
  have hsame : left.same right = true := by decide +kernel
  have hnames : Entries.names left.entries = Entries.names right.entries := by decide
  have hleft : Model.compile left Road.registry =
      .ok ⟨[slow, ⟨surface, [gravel, ⟨.literal "PAVED", .category 1, .zero⟩]⟩]⟩ := by
    decide +kernel
  have hright : Model.compile right Road.registry =
      .ok ⟨[slow, ⟨surface, [⟨.literal "PAVED", .category 1, negativeZero⟩, gravel]⟩]⟩ := by
    decide +kernel
  have hsurface : Road.registry.compileTable "surface"
      ⟨[("GRAVEL", .text "0.5"), ("PAVED", .number .zero)], by decide⟩ =
      .ok ⟨surface, [gravel, ⟨.literal "PAVED", .category 1, .zero⟩]⟩ := by
    decide +kernel
  have hagree : left.RulesAgree Road.registry right := by
    intro a ha b hb hname
    simp only [left, right, List.mem_cons, List.not_mem_nil, or_false] at ha hb
    rcases ha with rfl | rfl <;> rcases hb with rfl | rfl
    · exact .inl rfl
    · exact absurd hname (by decide)
    · exact absurd hname (by decide)
    · refine .inr fun table htable => ?_
      rw [hsurface] at htable
      cases htable
      refine CompiledTable.unambiguous_of_categories ?_ (by decide) ?_
      · simp [gravel]
      · simp only [List.forall_mem_cons, gravel]
        decide
  obtain ⟨-, hmeaning⟩ := compile_of_same hsame Road.registry
  obtain ⟨-, hpriorities⟩ := hmeaning _ _ hleft hright
  exact ⟨hsame, hagree, hnames, _, _, hleft, hright, (hpriorities hagree).2 hnames edge .forward,
    by decide +kernel, by decide +kernel⟩

/-- Equal specifications that rate an edge differently.  On a gravel road a fallback counts if it
is declared first, and not if it is declared second.  And three fallbacks, of three attributes, have
the product `0.006` or the next larger number, since every product is rounded. -/
theorem same_rated_differently :
    let surface : Handle := ⟨3, .categorical "surface" Road.surfaceValues⟩
    let half : Binary64 := .signed false ⟨1022 * Nat.pow 2 52, by decide⟩
    let first : Specification :=
      ⟨[("surface", ⟨[("*", .number .one), ("GRAVEL", .number half)], by decide⟩)], by decide⟩
    let second : Specification :=
      ⟨[("surface", ⟨[("GRAVEL", .number half), ("*", .number .one)], by decide⟩)], by decide⟩
    let tenth : RuleTable := ⟨[("*", .text "0.1")], by decide⟩
    let fifth : RuleTable := ⟨[("*", .text "0.2")], by decide⟩
    let third : RuleTable := ⟨[("*", .text "0.3")], by decide⟩
    let ascending : Specification :=
      ⟨[("surface", tenth), ("toll", fifth), ("max_speed", third)], by decide⟩
    let exchanged : Specification :=
      ⟨[("surface", tenth), ("max_speed", third), ("toll", fifth)], by decide⟩
    let record := (EdgeRecord.new Road.registry).performAll [.setText surface "GRAVEL"]
    let rated (specification : Specification) : Except CompileError Binary64 :=
      (Model.compile specification Road.registry).map (·.evaluate record.store .forward)
    (first.same second = true ∧ rated first = .ok .one ∧ rated second = .ok half) ∧
      ascending.same exchanged = true ∧
      (rated ascending).map Layout.plain.text = .ok "0.006000000000000001" ∧
      (rated exchanged).map Layout.plain.text = .ok "0.006" := by
  decide +kernel

end RoutePriority
