import RoutePriority.Document.Json
import RoutePriority.Proofs.HeldValues
import RoutePriority.Proofs.JsonWriting

/-!
# Which JSON documents are specifications

A specification document is `null` or an object of sections; a section is `null` or an object of
any values.  The reader accepts the texts of these documents and no others, as long as their
containers nest within bounds, and it builds the maps by writing the members one after the other.

What a document stands for is said without the reader: `OrderedMap.Written` writes members one by
one, `Factor.StandsFor` takes numbers and texts for themselves and any other value for what is kept
of it, and `Written.gathers` says where a repeated name ends up and with which value.

`Reads` says for a reader which values it accepts and what it builds of them.  Factors are read by
one reader, and `Reads.orderedMap` takes such a fact from the values of a map to the map, once for
the tables and once more for the specification.
-/

namespace RoutePriority

/-! ## Documents and what they stand for -/

namespace Json

/-- The members of a section; `null` is a section without any. -/
def members : Json → List (String × Json)
  | object members => members
  | _ => []

/-- Whether a value is a section with members of a given kind. -/
def IsSection (accepts : Json → Prop) : Json → Prop
  | null => True
  | object members => ∀ member ∈ members, accepts member.2
  | _ => False

/-- Whether a value is a specification: a section of sections of any values. -/
def IsSpecification : Json → Prop := IsSection (IsSection fun _ => True)

end Json

/-- The factor stands for a value: a number for its nearest number, a text for itself, and for any
other value what is kept of it. -/
inductive Factor.StandsFor : Factor → Json → Prop
  | integer (n : Int) (fits : FitsWord n) :
      StandsFor (.number (.ofInt n)) (.number (.integer n fits))
  | real (x : Binary64) (finite : x.isFinite = true) :
      StandsFor (.number x) (.number (.real x finite))
  | text (s : String) : StandsFor (.text s) (.string s)
  | other {json : Json} {held : NormalJson} (hnumber : ∀ n, json ≠ .number n)
      (hstring : ∀ s, json ≠ .string s) (hheld : json.KeptAs held.value) :
      StandsFor (.other held) json

namespace OrderedMap

variable {α : Type}

/-- The map that comes from writing members one by one, from the first to the last, into the map
without entries. -/
inductive Written (stands : α → Json → Prop) : List (String × Json) → OrderedMap α → Prop
  | nil : Written stands [] .empty
  | concat {members : List (String × Json)} {map : OrderedMap α} {name : String} {json : Json}
      {value : α} (h : Written stands members map) (hvalue : stands value json) :
      Written stands (members ++ [(name, json)]) (map.insert name value)

/-- The map lists every name of the members once, in the place of its first member, and what it
holds under a name stands for the value of the last. -/
structure Gathers (stands : α → Json → Prop) (members : List (String × Json))
    (map : OrderedMap α) : Prop where
  names_eq : Entries.names map.entries = (Entries.names members).eraseDups
  exists_hasLast : ∀ name value, map.get? name = some value →
    ∃ json, Entries.HasLast members name json ∧ stands value json

/-- The map that a section stands for: its members written one after the other. -/
def ofJson (build : Json → α) (json : Json) : OrderedMap α :=
  empty.insertAll (json.members.map fun member => (member.1, build member.2))

variable {stands : α → Json → Prop} {build : Json → α}

/-- Writing members one by one leaves a repeated name in its place, with its last value. -/
theorem Written.gathers {members : List (String × Json)} {map : OrderedMap α}
    (h : Written stands members map) : map.Gathers stands members := by
  induction h with
  | nil => exact ⟨rfl, fun name value hget => by cases hget⟩
  | @concat members map name json value _ hvalue ih =>
      refine ⟨?_, fun other found hget => ?_⟩
      · have hnames : Entries.names (map.insert name value).entries = _ :=
          Entries.names_put name value map.entries
        have hmem : name ∈ Entries.names map.entries ↔ name ∈ Entries.names members := by
          rw [ih.names_eq, List.mem_eraseDups]
        have hall : (Entries.names (members ++ [(name, json)])).eraseDups =
            (Entries.names members).eraseDups ++
              ([name].removeAll (Entries.names members)).eraseDups := by
          rw [Entries.names, List.map_append, List.eraseDups_append]
          rfl
        rw [hnames, hall]
        by_cases hknown : name ∈ Entries.names members
        · rw [if_pos (hmem.mpr hknown), ih.names_eq]
          simp [hknown, List.removeAll]
        · rw [if_neg (mt hmem.mp hknown), ih.names_eq]
          simp [hknown, List.removeAll, List.eraseDups_cons]
      · rw [get?_insert] at hget
        simp only [Entries.hasLast_concat]
        by_cases hname : other = name
        · rw [if_pos hname, Option.some.injEq] at hget
          exact ⟨json, Or.inl ⟨hname, rfl⟩, hget ▸ hvalue⟩
        · rw [if_neg hname] at hget
          obtain ⟨last, hlast, hstands⟩ := ih.exists_hasLast other found hget
          exact ⟨last, Or.inr ⟨hname, hlast⟩, hstands⟩

/-- If a value stands for what it is built of, the written map is the one that is built. -/
theorem written_iff (h : ∀ value json, stands value json ↔ value = build json)
    {members : List (String × Json)} {map : OrderedMap α} :
    Written stands members map ↔
      map = empty.insertAll (members.map fun member => (member.1, build member.2)) := by
  have hstep : ∀ (members : List (String × Json)) (member : String × Json),
      empty.insertAll ((members ++ [member]).map fun member => (member.1, build member.2)) =
        (empty.insertAll (members.map fun member => (member.1, build member.2))).insert member.1
          (build member.2) := by
    intro members member
    rw [List.map_append, insertAll, List.foldl_append]
    rfl
  constructor
  · intro hwritten
    induction hwritten with
    | nil => rfl
    | concat _ hvalue ih => rw [hstep, ih, (h _ _).mp hvalue]
  · intro hcase
    obtain rfl := hcase
    induction members using List.reverseRecOn with
    | nil => exact .nil
    | append_singleton members member ih =>
        rw [hstep]
        exact .concat ih ((h _ _).mpr rfl)

end OrderedMap

/-- The table stands for a section: its members are written one by one, factor by factor. -/
def RuleTable.StandsFor (table : RuleTable) (json : Json) : Prop :=
  OrderedMap.Written Factor.StandsFor json.members table

/-- The specification stands for a document: its sections are written one by one. -/
def Specification.StandsFor (specification : Specification) (json : Json) : Prop :=
  OrderedMap.Written RuleTable.StandsFor json.members specification

/-- The factor that a value stands for. -/
def Factor.ofJson : Json → Factor
  | .number n => .number n.toBinary64
  | .string s => .text s
  | json => .other (.ofJson json)

/-- The table that a section stands for. -/
def RuleTable.ofJson : Json → RuleTable := OrderedMap.ofJson Factor.ofJson

/-- The specification that a document stands for. -/
def Specification.ofJson : Json → Specification := OrderedMap.ofJson RuleTable.ofJson

/-- A value that is neither a number nor a text is held in its normal form. -/
theorem Factor.ofJson_of_ne {json : Json} (hnumber : ∀ n, json ≠ .number n)
    (hstring : ∀ s, json ≠ .string s) : Factor.ofJson json = .other (.ofJson json) := by
  cases json with
  | number n => exact absurd rfl (hnumber n)
  | string s => exact absurd rfl (hstring s)
  | null | bool | array | object => rfl

/-- The reader's factor is the one that stands for the value. -/
theorem Factor.standsFor_iff (factor : Factor) (json : Json) :
    factor.StandsFor json ↔ factor = .ofJson json := by
  constructor
  · intro h
    cases h with
    | integer | real | text => rfl
    | @other _ held hnumber hstring hheld =>
        have hsame : held = .ofJson json := by
          obtain ⟨value, hnormal⟩ := held
          rw [NormalJson.ofJson, NormalJson.mk.injEq]
          exact Json.keptAs_iff.mp hheld
        rw [Factor.ofJson_of_ne hnumber hstring, hsame]
  · intro hcase
    obtain rfl := hcase
    cases json with
    | number n =>
        cases n with
        | integer n fits => exact .integer n fits
        | real x finite => exact .real x finite
    | string s => exact .text s
    | null | bool | array | object => exact .other (by simp) (by simp) (Json.keptAs_iff.mpr rfl)

/-- The reader's table is the one that stands for the section. -/
theorem RuleTable.standsFor_iff (table : RuleTable) (json : Json) :
    table.StandsFor json ↔ table = .ofJson json :=
  OrderedMap.written_iff Factor.standsFor_iff

/-- The reader's specification is the one that stands for the document. -/
theorem Specification.standsFor_iff (specification : Specification) (json : Json) :
    specification.StandsFor json ↔ specification = .ofJson json :=
  OrderedMap.written_iff RuleTable.standsFor_iff

/-! ## Readers -/

/-- If `f` is defined on the shapes of accepted things and builds of each what it stands for, then
it is defined on a list exactly if this is the list of the shapes of such things. -/
theorem mapM_eq_some_iff_exists {α β γ : Type} {f : α → Option β} {shape : γ → α}
    {accepts : γ → Prop} {build : γ → β}
    (h : ∀ a b, f a = some b ↔ ∃ c, a = shape c ∧ accepts c ∧ b = build c) {xs : List α}
    {ys : List β} :
    xs.mapM f = some ys ↔
      ∃ cs : List γ, xs = cs.map shape ∧ (∀ c ∈ cs, accepts c) ∧ ys = cs.map build := by
  induction xs generalizing ys with
  | nil =>
      constructor
      · intro hys
        cases hys
        exact ⟨[], rfl, by simp, rfl⟩
      · intro hcase
        obtain ⟨cs, hcs, -, rfl⟩ := hcase
        rw [List.map_eq_nil_iff.mp hcs.symm]
        rfl
  | cons x xs ih =>
      simp only [List.mapM_cons, Option.bind_eq_bind, Option.bind_eq_some_iff, h, ih]
      constructor
      · intro hcase
        obtain ⟨y, ⟨c, rfl, hc, rfl⟩, rest, ⟨cs, rfl, hcs, rfl⟩, hys⟩ := hcase
        cases hys
        exact ⟨c :: cs, rfl, List.forall_mem_cons.mpr ⟨hc, hcs⟩, rfl⟩
      · intro hcase
        obtain ⟨cs, hxs, hcs, rfl⟩ := hcase
        obtain ⟨c, rest, rfl, rfl, rfl⟩ := List.map_eq_cons_iff.mp hxs.symm
        obtain ⟨hc, hrest⟩ := List.forall_mem_cons.mp hcs
        exact ⟨build c, ⟨c, rfl, hc, rfl⟩, rest.map build, ⟨rest, rfl, hrest, rfl⟩, rfl⟩

namespace Json

/-- The reader accepts the values of a kind and builds of them what they stand for. -/
def Reads {α : Type} (reader : Nat → Tree → Option α) (accepts : Json → Prop) (build : Json → α) :
    Prop :=
  ∀ (room : Nat) (tree : Tree) (value : α), reader room tree = some value ↔
    ∃ json : Json, tree = json.tree ∧ json.depth ≤ room ∧ accepts json ∧ value = build json

section

variable {α : Type} {reader : Nat → Tree → Option α} {accepts : Json → Prop} {build : Json → α}

/-- The members of an object are read if there is room for it and all names are texts. -/
theorem members?_eq_some_iff {room : Nat} {tree : Tree} {found : List (String × Tree)} :
    tree.members? room = some found ↔
      room ≠ 0 ∧ tree = .object (found.map fun member => (some member.1, member.2)) := by
  cases tree with
  | object members =>
      have hmember : ∀ (member : Option String × Tree) (known : String × Tree),
          (member.1.map (·, member.2)) = some known ↔
            ∃ c : String × Tree, member = (some c.1, c.2) ∧ True ∧ known = c := by
        intro h known
        obtain ⟨name, tree⟩ := h
        cases name <;> simp [Prod.ext_iff, eq_comm]
      rw [Tree.members?, Option.ite_none_left_eq_some, Tree.object.injEq,
        mapM_eq_some_iff_exists hmember]
      simp
  | null | bool | number | string | array => simp [Tree.members?]

/-- Members are read one by one if each value is accepted and fits the room. -/
theorem Reads.mapM_eq_some_iff (h : Reads reader accepts build) {room : Nat}
    {found : List (String × Tree)} {entries : List (String × α)} :
    (found.mapM fun (name, tree) => (reader room tree).map (name, ·)) = some entries ↔
      ∃ members : List (String × Json),
        found = members.map (fun member => (member.1, member.2.tree)) ∧
        (∀ member ∈ members, member.2.depth ≤ room ∧ accepts member.2) ∧
        entries = members.map fun member => (member.1, build member.2) := by
  refine mapM_eq_some_iff_exists ?_
  intro hcase entry
  obtain ⟨name, tree⟩ := hcase
  rw [Option.map_eq_some_iff]
  constructor
  · intro hcase
    obtain ⟨value, hvalue, rfl⟩ := hcase
    obtain ⟨json, rfl, hdepth, haccepts, rfl⟩ := (h room tree value).mp hvalue
    exact ⟨(name, json), rfl, ⟨hdepth, haccepts⟩, rfl⟩
  · intro hcase
    obtain ⟨⟨_, json⟩, hsame, ⟨hdepth, haccepts⟩, rfl⟩ := hcase
    cases hsame
    exact ⟨build json, (h room _ _).mpr ⟨json, rfl, hdepth, haccepts, rfl⟩, rfl⟩

/-- A map is read from its members, of which the last of each name counts. -/
theorem ofTree?_eq_some_iff {room : Nat} {tree : Tree} (hnull : tree ≠ .null)
    {map : OrderedMap α} :
    OrderedMap.ofTree? reader room tree = some map ↔
      ∃ found, tree.members? room = some found ∧
        ∃ entries, (found.mapM fun (name, tree) => (reader (room - 1) tree).map (name, ·)) =
            some entries ∧
          map = .ofList entries := by
  rw [OrderedMap.ofTree?]
  · simp only [Option.bind_eq_bind, Option.bind_eq_some_iff, Option.pure_def, Option.some.injEq,
      @eq_comm _ _ map]
  · exact hnull

/-- A map whose values are read is read. -/
theorem Reads.orderedMap (h : Reads reader accepts build) :
    Reads (OrderedMap.ofTree? reader) (IsSection accepts) (OrderedMap.ofJson build) := by
  intro room tree map
  by_cases hnull : tree = .null
  · subst hnull
    constructor
    · intro hmap
      cases hmap
      exact ⟨.null, rfl, Nat.zero_le room, trivial, rfl⟩
    · intro hcase
      obtain ⟨json, htree, -, -, rfl⟩ := hcase
      cases json with
      | null => rfl
      | bool | number | string | array | object => cases htree
  rw [ofTree?_eq_some_iff hnull]
  constructor
  · intro hcase
    obtain ⟨found, hfound, entries, hentries, rfl⟩ := hcase
    obtain ⟨hroom, rfl⟩ := members?_eq_some_iff.mp hfound
    obtain ⟨members, rfl, hmembers, rfl⟩ := h.mapM_eq_some_iff.mp hentries
    refine ⟨.object members, ?_, ?_, fun member hmember => (hmembers member hmember).2,
      OrderedMap.ofList_eq_insertAll _⟩
    · rw [Json.tree, memberTrees_eq_map, List.map_map]
      rfl
    · have hdepth := membersDepth_le_iff.mpr fun member hmember => (hmembers member hmember).1
      rw [depth]
      omega
  · intro hcase
    obtain ⟨json, rfl, hdepth, hsection, rfl⟩ := hcase
    cases json with
    | null => exact absurd rfl hnull
    | object members =>
        rw [depth] at hdepth
        have hroom : room ≠ 0 := by omega
        have hmembers : membersDepth members ≤ room - 1 := by omega
        refine ⟨members.map fun member => (member.1, member.2.tree), ?_,
          members.map fun member => (member.1, build member.2), ?_, ?_⟩
        · rw [members?_eq_some_iff, Json.tree, memberTrees_eq_map, List.map_map]
          exact ⟨hroom, rfl⟩
        · refine h.mapM_eq_some_iff.mpr ⟨members, rfl, ?_, rfl⟩
          intro member hmember
          exact ⟨membersDepth_le_iff.mp hmembers member hmember, hsection member hmember⟩
        · rw [OrderedMap.ofList_eq_insertAll]
          rfl
    | bool | number | string | array => exact hsection.elim

/-- The texts that a reader accepts are those of the values that it accepts. -/
theorem Reads.read?_eq_some_iff (h : Reads reader accepts build) {text : String} {value : α} :
    Tree.read? reader text = some value ↔
      ∃ json : Json, json.WrittenIn text ∧ json.depth ≤ maxDepth ∧ accepts json ∧
        value = build json := by
  rw [Tree.read?, Option.bind_eq_some_iff]
  constructor
  · intro hcase
    obtain ⟨tree, htree, hvalue⟩ := hcase
    obtain ⟨json, rfl, hrest⟩ := (h maxDepth tree value).mp hvalue
    exact ⟨json, ofText?_eq_some_tree_iff.mp htree, hrest⟩
  · intro hcase
    obtain ⟨json, hwritten, hrest⟩ := hcase
    exact ⟨json.tree, ofText?_eq_some_tree_iff.mpr hwritten,
      (h maxDepth json.tree value).mpr ⟨json, rfl, hrest⟩⟩

end

/-- A factor is read as a value, and then taken for a number, a text or a held value. -/
theorem ofTree?_eq_map_toJson? (room : Nat) (tree : Tree) :
    Factor.ofTree? room tree = (tree.toJson? room).map Factor.ofJson := by
  cases tree with
  | null | bool b =>
      rfl
  | number n =>
      cases n <;> rfl
  | string s =>
      cases s <;> rfl
  | array items | object members =>
      rw [Factor.ofTree?, Tree.toJson?]
      · split
        · rfl
        · rw [Option.map_map, Option.map_map]
          rfl
      all_goals simp

/-- The reader of factors accepts every value. -/
theorem reads_factor : Reads Factor.ofTree? (fun _ => True) Factor.ofJson := by
  intro room tree factor
  rw [ofTree?_eq_map_toJson?, Option.map_eq_some_iff]
  constructor
  · intro h
    obtain ⟨json, hjson, rfl⟩ := h
    obtain ⟨rfl, hdepth⟩ := toJson?_eq_some_iff.mp hjson
    exact ⟨json, rfl, hdepth, trivial, rfl⟩
  · intro h
    obtain ⟨json, rfl, hdepth, -, rfl⟩ := h
    exact ⟨json, toJson?_eq_some_iff.mpr ⟨rfl, hdepth⟩, rfl⟩

/-- The reader of tables accepts the objects. -/
theorem reads_table : Reads RuleTable.ofTree? (IsSection fun _ => True) RuleTable.ofJson :=
  reads_factor.orderedMap

/-- The reader of specifications accepts the objects of tables. -/
theorem reads_specification : Reads Specification.ofTree? IsSpecification Specification.ofJson :=
  reads_table.orderedMap

end Json

namespace Specification

/-- **Which texts are specifications.**  A text is read as a specification exactly if it is the text
of a specification document with at most 127 nested containers, and the specification is the one
that stands for the document.  A text is written for one document at most.  In a specification and
in its tables every attribute and every pattern has the place of its first member and stands for the
value of its last. -/
theorem ofJsonText?_accepts_documents (text : String) :
    (∀ specification, ofJsonText? text = some specification ↔
      ∃ json : Json, json.WrittenIn text ∧ json.depth ≤ 127 ∧ json.IsSpecification ∧
        specification.StandsFor json) ∧
    (∀ json other : Json, json.WrittenIn text → other.WrittenIn text → other = json) ∧
    ∀ (specification : Specification) (json : Json), specification.StandsFor json →
      specification.Gathers RuleTable.StandsFor json.members ∧
      ∀ (table : RuleTable) (json : Json), table.StandsFor json →
        table.Gathers Factor.StandsFor json.members := by
  refine ⟨fun specification => ?_, fun json other hjson hother => hother.unique hjson, ?_⟩
  · simp only [standsFor_iff]
    exact Json.reads_specification.read?_eq_some_iff
  · intro specification json hstands
    exact ⟨hstands.gathers, fun table json htable => htable.gathers⟩

/-- An attribute and a pattern that are repeated, a section that is `null`, numbers, a text, and an
object whose names are put in order, the last member of a repeated name kept. -/
theorem ofJsonText?_accepts_documents_repeated :
    let half : Binary64 := .signed false ⟨1022 * Nat.pow 2 52, by decide⟩
    let text :=
      "\x7b\"lanes\":\x7b\"<2\":1\x7d,\"surface\":\x7b\"GRAVEL\":1,\"*\":\"0.5\"," ++
        "\"GRAVEL\":\x7b\"b\":false,\"a\":\x7b\"d\":1,\"c\":true\x7d,\"b\":[null,-3]\x7d," ++
        "\"DIRT\":0.5,\"PAVED\":1\x7d,\"lanes\":null\x7d"
    let held : Json := .object [
      ("a", .object [("c", .bool true), ("d", .number (.integer 1 (by decide)))]),
      ("b", .array [.null, .number (.integer (-3) (by decide))])]
    ofJsonText? text = some ⟨[("lanes", .empty), ("surface",
      ⟨[("GRAVEL", .other ⟨held, rfl⟩), ("*", .text "0.5"), ("DIRT", .number half),
        ("PAVED", .number .one)], by decide⟩)], by decide⟩ := by
  intro half text kept
  let one : Json := .number (.integer 1 (by decide))
  let held : Json := .object [
    ("b", .bool false), ("a", .object [("d", one), ("c", .bool true)]),
    ("b", .array [.null, .number (.integer (-3) (by decide))])]
  let document : Json := .object [("lanes", .object [("<2", one)]),
    ("surface", .object [("GRAVEL", one), ("*", .string "0.5"), ("GRAVEL", held),
      ("DIRT", .number (.real half rfl)), ("PAVED", one)]),
    ("lanes", .null)]
  have htext : text = document.text := by
    decide +kernel
  have hreals : document.RestoresReals := by
    intro x finite hmember
    simp only [document, held, one, Json.numbers, Json.membersNumbers, Json.itemsNumbers,
      List.cons_append, List.nil_append, List.append_nil, List.mem_cons, List.not_mem_nil,
      reduceCtorEq, or_false, false_or] at hmember
    cases hmember
    exact JsonNumber.restored_half
  have hsections : document.IsSpecification := by
    simp [document, held, one, Json.IsSpecification, Json.IsSection]
  have hone : Binary64.one = .ofInt 1 := by
    decide +kernel
  refine ((ofJsonText?_accepts_documents text).1 _).mpr ⟨document, ?_, by decide, hsections, ?_⟩
  · rw [htext]
    exact Json.writtenIn_text hreals
  · rw [standsFor_iff, hone]
    rfl

end Specification

end RoutePriority
