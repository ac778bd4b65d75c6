import RoutePriority.OrderedMap
import RoutePriority.Proofs.JsonValues
import Mathlib.Data.List.Induction
import Mathlib.Data.List.Nodup

/-!
# What is held of a value

A factor that is neither a number nor a text is held as a value in which every object lists its
names once and in rising order.  `KeptAs` says which value this is without building it: items are
kept item by item, and of the members of an object the last of every name is kept.  `keptAs_iff`
says that there is exactly one such value, and that `normalize` builds it.

The last entry of a name is a notion of its own (`Entries.HasLast`), because repeated names of maps
are settled by it too.
-/

namespace RoutePriority

namespace Entries

variable {α : Type} {entries : List (String × α)} {name : String} {value : α}

/-- The last of the entries of a name has this value. -/
def HasLast (entries : List (String × α)) (name : String) (value : α) : Prop :=
  ∃ before after, entries = before ++ (name, value) :: after ∧ name ∉ names after

/-- Without entries no name has a last one. -/
theorem not_hasLast_nil : ¬ HasLast [] name value := by
  intro hcase
  obtain ⟨before, after, h, -⟩ := hcase
  simp at h

/-- One more entry is the last of its own name and leaves those of the others. -/
theorem hasLast_concat {entry : String × α} :
    HasLast (entries ++ [entry]) name value ↔
      (name = entry.1 ∧ value = entry.2) ∨ (name ≠ entry.1 ∧ HasLast entries name value) := by
  constructor
  · intro h
    obtain ⟨before, after, hsplit, hlater⟩ := h
    rcases List.eq_nil_or_concat after with rfl | ⟨rest, last, rfl⟩
    · obtain ⟨-, hentry⟩ := List.append_inj' hsplit rfl
      obtain rfl := List.singleton_injective hentry
      exact Or.inl ⟨rfl, rfl⟩
    · rw [List.concat_eq_append] at hsplit hlater
      rw [← List.cons_append, ← List.append_assoc] at hsplit
      obtain ⟨hentries, hentry⟩ := List.append_inj' hsplit rfl
      obtain rfl := List.singleton_injective hentry
      simp only [names, List.map_append, List.mem_append, not_or] at hlater
      exact Or.inr ⟨by simpa using hlater.2, before, rest, hentries, hlater.1⟩
  · intro h
    rcases h with ⟨rfl, rfl⟩ | ⟨hname, before, after, rfl, hlater⟩
    · exact ⟨entries, [], rfl, by simp⟩
    · exact ⟨before, after ++ [entry], by simp, by simp [hname, hlater]⟩

/-- The last entry of a name is one of the entries. -/
theorem HasLast.mem (h : HasLast entries name value) : (name, value) ∈ entries := by
  obtain ⟨before, after, rfl, -⟩ := h
  simp

end Entries

namespace Json

/-- Members whose names rise strictly in the order of their octets. -/
abbrev Rising (members : List (String × Json)) : Prop :=
  members.Pairwise fun a b => Text.before a.1 b.1 = true

mutual

/-- Which value is kept of another: the same in which every object has the last member of each of
its names, in rising order of the names. -/
inductive KeptAs : Json → Json → Prop
  | null : KeptAs null null
  | bool (b : Bool) : KeptAs (bool b) (bool b)
  | number (n : JsonNumber) : KeptAs (number n) (number n)
  | string (s : String) : KeptAs (string s) (string s)
  | array {items kept : List Json} (h : ItemsKeptAs items kept) : KeptAs (array items) (array kept)
  | object {members last kept : List (String × Json)} (hrising : Rising last)
      (hlast : ∀ name value, (name, value) ∈ last ↔ Entries.HasLast members name value)
      (h : MembersKeptAs last kept) : KeptAs (object members) (object kept)

/-- Which items are kept of items. -/
inductive ItemsKeptAs : List Json → List Json → Prop
  | nil : ItemsKeptAs [] []
  | cons {item held : Json} {items kept : List Json} (hitem : KeptAs item held)
      (hitems : ItemsKeptAs items kept) : ItemsKeptAs (item :: items) (held :: kept)

/-- Which members are kept of members that are kept all. -/
inductive MembersKeptAs : List (String × Json) → List (String × Json) → Prop
  | nil : MembersKeptAs [] []
  | cons {name : String} {value held : Json} {members kept : List (String × Json)}
      (hvalue : KeptAs value held) (hmembers : MembersKeptAs members kept) :
      MembersKeptAs ((name, value) :: members) ((name, held) :: kept)

end

/-! ## The last members of an object -/

/-- A name in front of the names of all members is in front of each. -/
theorem precedes_iff {name : String} {members : List (String × Json)} :
    precedes name members = true ↔ ∀ member ∈ members, Text.before name member.1 = true :=
  List.all_eq_true

/-- Names that rise strictly do so with one more member set. -/
theorem rising_putMember {members : List (String × Json)} (h : Rising members) (name : String)
    (value : Json) : Rising (putMember name value members) := by
  induction members with
  | nil => exact List.pairwise_singleton _ _
  | cons member members ih =>
      obtain ⟨first, held⟩ := member
      obtain ⟨hfirst, hrest⟩ := List.pairwise_cons.mp h
      rw [putMember]
      split_ifs with hbefore hsame
      · refine List.pairwise_cons.mpr ⟨List.forall_mem_cons.mpr ⟨hbefore, ?_⟩, h⟩
        exact fun later hlater => Text.before_trans hbefore (hfirst later hlater)
      · subst hsame
        exact List.pairwise_cons.mpr ⟨hfirst, hrest⟩
      · refine List.pairwise_cons.mpr ⟨precedes_iff.mp ?_, ih hrest⟩
        exact precedes_putMember (Text.before_of_not_before hbefore hsame) (precedes_iff.mpr hfirst)

/-- Setting a member replaces the one of its name and keeps the others. -/
theorem mem_putMember {members : List (String × Json)} (h : Rising members) {name other : String}
    {value held : Json} :
    (other, held) ∈ putMember name value members ↔
      (other = name ∧ held = value) ∨ (other ≠ name ∧ (other, held) ∈ members) := by
  induction members with
  | nil => simp [putMember]
  | cons member members ih =>
      obtain ⟨first, old⟩ := member
      obtain ⟨hfirst, hrest⟩ := List.pairwise_cons.mp h
      have hlater : ∀ {least : String}, Text.before least first = true ∨ least = first →
          ∀ kept, (least, kept) ∉ members := by
        intro least hleast kept hmember
        have hself := hfirst _ hmember
        rcases hleast with hleast | rfl
        · have hcycle := Text.before_trans hleast hself
          rw [Text.before_irrefl] at hcycle
          cases hcycle
        · rw [Text.before_irrefl] at hself
          cases hself
      rw [putMember]
      split_ifs with hbefore hsame
      · have hne : name ≠ first := by
          intro hcase
          obtain rfl := hcase
          rw [Text.before_irrefl] at hbefore
          cases hbefore
        have hnew := hlater (Or.inl hbefore)
        grind
      · have hnew := hlater (Or.inr hsame)
        grind
      · have := ih hrest
        grind

/-- The members set one after the other: the last of each name, in rising order of the names. -/
def lastMembers (members : List (String × Json)) : List (String × Json) :=
  members.foldl (fun last member => putMember member.1 member.2 last) []

/-- One more member is set on top of the last ones before it. -/
theorem lastMembers_concat (members : List (String × Json)) (member : String × Json) :
    lastMembers (members ++ [member]) = putMember member.1 member.2 (lastMembers members) :=
  List.foldl_concat _ _ _ _

/-- The members picked have rising names. -/
theorem rising_lastMembers (members : List (String × Json)) : Rising (lastMembers members) := by
  induction members using List.reverseRecOn with
  | nil => exact List.Pairwise.nil
  | append_singleton members member ih =>
      rw [lastMembers_concat]
      exact rising_putMember ih member.1 member.2

/-- The members picked are the last ones of their names. -/
theorem mem_lastMembers_iff (members : List (String × Json)) (name : String) (value : Json) :
    (name, value) ∈ lastMembers members ↔ Entries.HasLast members name value := by
  induction members using List.reverseRecOn with
  | nil => exact iff_of_false List.not_mem_nil Entries.not_hasLast_nil
  | append_singleton members member ih =>
      rw [lastMembers_concat, mem_putMember (rising_lastMembers members), ih,
        Entries.hasLast_concat]

/-- A member is set by its name alone, so its value may be changed before or after. -/
theorem putMember_map (change : Json → Json) (name : String) (value : Json)
    (members : List (String × Json)) :
    putMember name (change value) (members.map fun member => (member.1, change member.2)) =
      (putMember name value members).map fun member => (member.1, change member.2) := by
  induction members with
  | nil => rfl
  | cons member members ih =>
      obtain ⟨first, held⟩ := member
      rw [List.map_cons, putMember, putMember]
      split_ifs
      · rfl
      · rfl
      · rw [ih, List.map_cons]

/-- The members of a normalized object are the last ones with their values normalized. -/
theorem normalizeMembers_nil (members : List (String × Json)) :
    normalizeMembers [] members =
      (lastMembers members).map fun member => (member.1, member.2.normalize) := by
  have hfold : ∀ (members last : List (String × Json)),
      normalizeMembers (last.map fun member => (member.1, member.2.normalize)) members =
        (members.foldl (fun last member => putMember member.1 member.2 last) last).map
          fun member => (member.1, member.2.normalize) := by
    intro members
    induction members with
    | nil => exact fun last => rfl
    | cons member members ih =>
        intro last
        obtain ⟨name, value⟩ := member
        rw [normalizeMembers, putMember_map, ih, List.foldl_cons]
  exact hfold members []

/-! ## The kept value -/

/-- Members are kept with the values that are kept of theirs. -/
theorem membersKeptAs_map {members : List (String × Json)}
    (h : ∀ member ∈ members, KeptAs member.2 member.2.normalize) :
    MembersKeptAs members (members.map fun member => (member.1, member.2.normalize)) := by
  induction members with
  | nil => exact .nil
  | cons member members ih =>
      obtain ⟨hmember, hmembers⟩ := List.forall_mem_cons.mp h
      exact .cons hmember (ih hmembers)

mutual

/-- The normal form of a value is kept of it. -/
theorem keptAs_normalize : ∀ json : Json, json.KeptAs json.normalize
  | null => .null
  | bool b => .bool b
  | number n => .number n
  | string s => .string s
  | array items => by
      rw [normalize]
      exact .array (itemsKeptAs_normalizeItems items)
  | object members => by
      have hmembers : ∀ member ∈ lastMembers members, KeptAs member.2 member.2.normalize := by
        intro member hmember
        have hlast := (mem_lastMembers_iff members member.1 member.2).mp hmember
        exact keptAs_normalize_of_mem members member hlast.mem
      rw [normalize, normalizeMembers_nil]
      exact .object (rising_lastMembers members) (mem_lastMembers_iff members)
        (membersKeptAs_map hmembers)

/-- The normal items are what is held of the items. -/
theorem itemsKeptAs_normalizeItems : ∀ items : List Json, ItemsKeptAs items (normalizeItems items)
  | [] => .nil
  | item :: items => .cons (keptAs_normalize item) (itemsKeptAs_normalizeItems items)

/-- The normal value is what is held of the value of a member. -/
theorem keptAs_normalize_of_mem : ∀ (members : List (String × Json)), ∀ member ∈ members,
    KeptAs member.2 member.2.normalize
  | [], _, h => by cases h
  | (name, value) :: members, member, h => by
      rcases List.mem_cons.mp h with rfl | h
      · exact keptAs_normalize value
      · exact keptAs_normalize_of_mem members member h

end

/-- Members with rising names are determined by which members there are. -/
theorem Rising.eq_of_mem_iff {left right : List (String × Json)} (hleft : Rising left)
    (hright : Rising right) (h : ∀ member, member ∈ left ↔ member ∈ right) : left = right := by
  have hnodup : ∀ {members : List (String × Json)}, Rising members → members.Nodup :=
    fun hrising => hrising.imp fun hbefore hsame => by
      rw [hsame, Text.before_irrefl] at hbefore
      cases hbefore
  refine List.Perm.eq_of_pairwise (fun a b _ _ hab hba => ?_) hleft hright
    ((List.perm_ext_iff_of_nodup (hnodup hleft) (hnodup hright)).mpr h)
  have hself := Text.before_trans hab hba
  rw [Text.before_irrefl] at hself
  cases hself

/-- Of members whose values are kept in one way only, the same is kept. -/
theorem MembersKeptAs.eq_map {members kept : List (String × Json)} (h : MembersKeptAs members kept)
    (hunique : ∀ member ∈ members, ∀ held, KeptAs member.2 held → held = member.2.normalize) :
    kept = members.map fun member => (member.1, member.2.normalize) := by
  induction members generalizing kept with
  | nil =>
      cases h
      rfl
  | cons member members ih =>
      obtain ⟨hmember, hrest⟩ := List.forall_mem_cons.mp hunique
      cases h with
      | cons hvalue hmembers => rw [hmember _ hvalue, ih hmembers hrest, List.map_cons]

mutual

/-- Only the normal form of a value is kept of it. -/
theorem KeptAs.eq_normalize : ∀ {json kept : Json}, json.KeptAs kept → kept = json.normalize
  | null, _, h | bool _, _, h | number _, _, h | string _, _, h => by
      cases h
      rfl
  | array items, _, h => by
      cases h with
      | array h => rw [normalize, ItemsKeptAs.eq_normalizeItems h]
  | object members, _, h => by
      cases h with
      | @object _ last kept hrising hlast h =>
          have hsame : last = lastMembers members := by
            refine hrising.eq_of_mem_iff (rising_lastMembers members) fun member => ?_
            exact (hlast member.1 member.2).trans
              (mem_lastMembers_iff members member.1 member.2).symm
          have hkept := h.eq_map fun member hmember held hheld =>
            KeptAs.eq_normalize_of_mem members member ((hlast member.1 member.2).mp hmember).mem
              hheld
          rw [normalize, normalizeMembers_nil, ← hsame, hkept]

/-- Only the normal items are held of the items. -/
theorem ItemsKeptAs.eq_normalizeItems : ∀ {items kept : List Json}, ItemsKeptAs items kept →
    kept = normalizeItems items
  | [], _, h => by
      cases h
      rfl
  | item :: items, _, h => by
      cases h with
      | cons hitem hitems =>
          rw [normalizeItems, KeptAs.eq_normalize hitem, ItemsKeptAs.eq_normalizeItems hitems]

/-- Only the normal value is held of the value of a member. -/
theorem KeptAs.eq_normalize_of_mem : ∀ (members : List (String × Json)), ∀ member ∈ members,
    ∀ {held : Json}, KeptAs member.2 held → held = member.2.normalize
  | [], _, h, _, _ => by cases h
  | (name, value) :: members, member, h, _, hheld => by
      rcases List.mem_cons.mp h with rfl | h
      · exact KeptAs.eq_normalize hheld
      · exact KeptAs.eq_normalize_of_mem members member h hheld

end

/-- **What is kept of a value** is its normal form and nothing else. -/
theorem keptAs_iff {json kept : Json} : json.KeptAs kept ↔ kept = json.normalize := by
  constructor
  · exact KeptAs.eq_normalize
  · intro h
    obtain rfl := h
    exact keptAs_normalize json

end Json

end RoutePriority
