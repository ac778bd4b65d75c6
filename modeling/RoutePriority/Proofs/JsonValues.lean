import RoutePriority.Proofs.JsonGrammar

/-!
# The values that JSON texts are written for

A tree is what a text looks like, a `Json` is what it means: some trees mean nothing, because a
number or a string in them has no value.  `Json.tree` goes back from the meaning to the look, so
that a text can be said to be written for a value (`Json.WrittenIn`), and `toJson?_eq_some_iff` says
that a tree is given a value exactly if it is the tree of that value and nests no deeper than there
is room.
-/

namespace RoutePriority.Json

mutual

/-- The tree of a value. -/
def tree : Json → Tree
  | null => .null
  | bool b => .bool b
  | number n => .number (some n)
  | string s => .string (some s)
  | array items => .array (itemTrees items)
  | object members => .object (memberTrees members)

/-- The trees of items. -/
def itemTrees : List Json → List Tree
  | [] => []
  | item :: items => tree item :: itemTrees items

/-- The names and trees of members. -/
def memberTrees : List (String × Json) → List (Option String × Tree)
  | [] => []
  | (name, value) :: members => (some name, tree value) :: memberTrees members

end

mutual

/-- The number of containers that are nested in a value. -/
def depth : Json → Nat
  | null | bool _ | number _ | string _ => 0
  | array items => itemsDepth items + 1
  | object members => membersDepth members + 1

/-- The greatest depth of items. -/
def itemsDepth : List Json → Nat
  | [] => 0
  | item :: items => max (depth item) (itemsDepth items)

/-- The greatest depth of the values of members. -/
def membersDepth : List (String × Json) → Nat
  | [] => 0
  | (_, value) :: members => max (depth value) (membersDepth members)

end

/-- The text is well-formed JSON and means the value. -/
def WrittenIn (json : Json) (text : String) : Prop := Derives (.element json.tree) text.toList

/-- The tree of a value is read off just the texts it is written in. -/
theorem ofText?_eq_some_tree_iff {text : String} {json : Json} :
    Tree.ofText? text = some json.tree ↔ json.WrittenIn text :=
  ofText?_eq_some_iff

theorem itemTrees_eq_map (items : List Json) : itemTrees items = items.map tree := by
  induction items with
  | nil => rfl
  | cons item items ih => rw [itemTrees, ih, List.map_cons]

theorem memberTrees_eq_map (members : List (String × Json)) :
    memberTrees members = members.map fun member => (some member.1, member.2.tree) := by
  induction members with
  | nil => rfl
  | cons member members ih =>
      rw [memberTrees, ih, List.map_cons]

/-- Members fit the room if each of them does. -/
theorem membersDepth_le_iff {members : List (String × Json)} {room : Nat} :
    membersDepth members ≤ room ↔ ∀ member ∈ members, member.2.depth ≤ room := by
  induction members with
  | nil => simp [membersDepth]
  | cons member members ih =>
      rw [membersDepth, Nat.max_le, ih, List.forall_mem_cons]

mutual

/-- A tree is read as the value whose tree it is, if there is room for it. -/
theorem tree_of_toJson? : ∀ {tree : Tree} {room : Nat} {json : Json},
    tree.toJson? room = some json → tree = json.tree ∧ json.depth ≤ room
  | .null, room, _, h => by
      cases h
      exact ⟨rfl, Nat.zero_le room⟩
  | .bool b, room, _, h => by
      cases h
      exact ⟨rfl, Nat.zero_le room⟩
  | .number n, room, _, h => by
      obtain ⟨value, rfl, rfl⟩ := Option.map_eq_some_iff.mp h
      exact ⟨rfl, Nat.zero_le room⟩
  | .string s, room, _, h => by
      obtain ⟨value, rfl, rfl⟩ := Option.map_eq_some_iff.mp h
      exact ⟨rfl, Nat.zero_le room⟩
  | .array items, room, _, h => by
      rw [Tree.toJson?, Option.ite_none_left_eq_some] at h
      obtain ⟨values, hvalues, rfl⟩ := Option.map_eq_some_iff.mp h.2
      obtain ⟨rfl, hdepth⟩ := itemTrees_of_itemsToJson? hvalues
      refine ⟨rfl, ?_⟩
      rw [depth]
      omega
  | .object members, room, _, h => by
      rw [Tree.toJson?, Option.ite_none_left_eq_some] at h
      obtain ⟨values, hvalues, rfl⟩ := Option.map_eq_some_iff.mp h.2
      obtain ⟨rfl, hdepth⟩ := memberTrees_of_membersToJson? hvalues
      refine ⟨rfl, ?_⟩
      rw [depth]
      omega

/-- Items come from their trees and fit the room. -/
theorem itemTrees_of_itemsToJson? : ∀ {items : List Tree} {room : Nat} {values : List Json},
    Tree.itemsToJson? room items = some values →
      items = itemTrees values ∧ itemsDepth values ≤ room
  | [], room, _, h => by
      cases h
      exact ⟨rfl, Nat.zero_le room⟩
  | item :: items, room, _, h => by
      simp only [Tree.itemsToJson?, Option.bind_eq_bind, Option.bind_eq_some_iff] at h
      obtain ⟨value, hvalue, values, hvalues, hsame⟩ := h
      cases hsame
      obtain ⟨rfl, hfirst⟩ := tree_of_toJson? hvalue
      obtain ⟨rfl, hrest⟩ := itemTrees_of_itemsToJson? hvalues
      exact ⟨rfl, Nat.max_le.mpr ⟨hfirst, hrest⟩⟩

/-- Members come from their trees and fit the room. -/
theorem memberTrees_of_membersToJson? : ∀ {members : List (Option String × Tree)} {room : Nat}
    {values : List (String × Json)}, Tree.membersToJson? room members = some values →
      members = memberTrees values ∧ membersDepth values ≤ room
  | [], room, _, h => by
      cases h
      exact ⟨rfl, Nat.zero_le room⟩
  | (name, item) :: members, room, _, h => by
      simp only [Tree.membersToJson?, Option.bind_eq_bind, Option.bind_eq_some_iff] at h
      obtain ⟨known, rfl, value, hvalue, values, hvalues, hsame⟩ := h
      cases hsame
      obtain ⟨rfl, hfirst⟩ := tree_of_toJson? hvalue
      obtain ⟨rfl, hrest⟩ := memberTrees_of_membersToJson? hvalues
      exact ⟨rfl, Nat.max_le.mpr ⟨hfirst, hrest⟩⟩

end

mutual

/-- A value is read from its tree if there is room for it. -/
theorem toJson?_tree : ∀ {json : Json} {room : Nat}, json.depth ≤ room →
    json.tree.toJson? room = some json
  | null, _, _ | bool _, _, _ | number _, _, _ | string _, _, _ => rfl
  | array items, room, h => by
      rw [depth] at h
      have hroom : room ≠ 0 := by omega
      have hitems : itemsDepth items ≤ room - 1 := by omega
      rw [tree, Tree.toJson?, if_neg hroom, itemsToJson?_itemTrees hitems, Option.map_some]
  | object members, room, h => by
      rw [depth] at h
      have hroom : room ≠ 0 := by omega
      have hmembers : membersDepth members ≤ room - 1 := by omega
      rw [tree, Tree.toJson?, if_neg hroom, membersToJson?_memberTrees hmembers, Option.map_some]

/-- Items that fit the room come back from their trees. -/
theorem itemsToJson?_itemTrees : ∀ {items : List Json} {room : Nat}, itemsDepth items ≤ room →
    Tree.itemsToJson? room (itemTrees items) = some items
  | [], _, _ => rfl
  | item :: items, room, h => by
      obtain ⟨hfirst, hrest⟩ := Nat.max_le.mp h
      rw [itemTrees, Tree.itemsToJson?, toJson?_tree hfirst, itemsToJson?_itemTrees hrest]
      rfl

/-- Members that fit the room come back from their trees. -/
theorem membersToJson?_memberTrees : ∀ {members : List (String × Json)} {room : Nat},
    membersDepth members ≤ room → Tree.membersToJson? room (memberTrees members) = some members
  | [], _, _ => rfl
  | (name, value) :: members, room, h => by
      obtain ⟨hfirst, hrest⟩ := Nat.max_le.mp h
      rw [memberTrees, Tree.membersToJson?, toJson?_tree hfirst, membersToJson?_memberTrees hrest]
      rfl

end

/-- A tree is read as the value whose tree it is, if this value fits the room. -/
theorem toJson?_eq_some_iff {tree : Tree} {room : Nat} {json : Json} :
    tree.toJson? room = some json ↔ tree = json.tree ∧ json.depth ≤ room := by
  refine ⟨tree_of_toJson?, ?_⟩
  intro h
  obtain ⟨rfl, hdepth⟩ := h
  exact toJson?_tree hdepth

/-- Different values look different. -/
theorem tree_injective {left right : Json} (h : left.tree = right.tree) : left = right := by
  have hleft := toJson?_tree (Nat.le_max_left left.depth right.depth)
  have hright := toJson?_tree (Nat.le_max_right left.depth right.depth)
  rw [h, hright] at hleft
  exact (Option.some.inj hleft).symm

/-- A text is written for one value only. -/
theorem WrittenIn.unique {left right : Json} {text : String} (hleft : left.WrittenIn text)
    (hright : right.WrittenIn text) : left = right := by
  have hread := ofText?_eq_some_tree_iff.mpr hleft
  rw [ofText?_eq_some_tree_iff.mpr hright] at hread
  exact tree_injective (Option.some.inj hread).symm

/-! ## Normal values -/

/-- A member whose name comes after all others goes to the end. -/
theorem putMember_of_last {name : String} {value : Json} {members : List (String × Json)}
    (h : ∀ member ∈ members, Text.before member.1 name = true) :
    putMember name value members = members ++ [(name, value)] := by
  induction members with
  | nil => rfl
  | cons member members ih =>
      obtain ⟨first, held⟩ := member
      obtain ⟨hfirst, hrest⟩ := List.forall_mem_cons.mp h
      have hbefore : ¬ Text.before name first = true := by
        intro hlater
        have hself := Text.before_trans hlater hfirst
        rw [Text.before_irrefl] at hself
        cases hself
      have hne : name ≠ first := by
        intro hcase
        obtain rfl := hcase
        exact hbefore hfirst
      rw [putMember, if_neg hbefore, if_neg hne, ih hrest, List.cons_append]

mutual

/-- A normal value stays as it is. -/
theorem normalize_of_isNormal : ∀ {json : Json}, json.isNormal = true → json.normalize = json
  | null, _ | bool _, _ | number _, _ | string _, _ => rfl
  | array items, h => by
      rw [normalize, normalizeItems_of_areNormal h]
  | object members, h => by
      rw [normalize, normalizeMembers_of_areNormal h (by simp), List.nil_append]

/-- Normal items stay as they are. -/
theorem normalizeItems_of_areNormal : ∀ {items : List Json}, areNormal items = true →
    normalizeItems items = items
  | [], _ => rfl
  | item :: items, h => by
      rw [areNormal, Bool.and_eq_true] at h
      rw [normalizeItems, normalize_of_isNormal h.1, normalizeItems_of_areNormal h.2]

/-- Members in order are appended as they stand. -/
theorem normalizeMembers_of_areNormal : ∀ {members held : List (String × Json)},
    areNormalMembers members = true →
      (∀ before ∈ held, ∀ member ∈ members, Text.before before.1 member.1 = true) →
      normalizeMembers held members = held ++ members
  | [], held, _, _ => (List.append_nil held).symm
  | (name, value) :: members, held, h, hheld => by
      simp only [areNormalMembers, precedes, Bool.and_eq_true, List.all_eq_true] at h
      obtain ⟨⟨hvalue, hname⟩, hmembers⟩ := h
      have hput : putMember name value held = held ++ [(name, value)] := by
        refine putMember_of_last ?_
        intro before hbefore
        exact hheld before hbefore (name, value) List.mem_cons_self
      have hlonger : ∀ before ∈ held ++ [(name, value)], ∀ member ∈ members,
          Text.before before.1 member.1 = true := by
        intro before hbefore member hmember
        rcases List.mem_append.mp hbefore with hbefore | hbefore
        · exact hheld before hbefore member (List.mem_cons_of_mem _ hmember)
        · rw [List.mem_singleton.mp hbefore]
          exact hname member hmember
      rw [normalizeMembers, normalize_of_isNormal hvalue, hput,
        normalizeMembers_of_areNormal hmembers hlonger, List.append_assoc, List.singleton_append]

end

end RoutePriority.Json
