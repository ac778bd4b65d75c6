import RoutePriority.Proofs.JsonWriting
import RoutePriority.Proofs.SpecificationDocuments

/-!
# Profiles that are written and read back

A profile that is written to a JSON text is restored from it, with its attributes and its patterns
in their order and every factor of its own sort.  The text is written for the value of the profile
(`Json.writtenIn_text`), the reader takes it for what this value stands for, and the value stands
for the profile: names of a map are distinct, so writing its entries one after the other gives the
map, and a factor that documents can hold is not mistaken for one of another sort.
-/

namespace RoutePriority

/-- The factor is one that documents hold: a finite number, a text, or a value that is neither a
number nor a text. -/
def Factor.IsReadable : Factor → Prop
  | number x => x.isFinite = true
  | text _ => True
  | other json => (∀ n, json.value ≠ .number n) ∧ ∀ s, json.value ≠ .string s

/-- Every factor of the specification is one that documents hold. -/
def Specification.IsReadable (specification : Specification) : Prop :=
  ∀ table ∈ specification.entries, ∀ rule ∈ table.2.entries, rule.2.IsReadable

/-! ## What written values stand for -/

/-- A readable factor comes back from its value. -/
theorem Factor.ofJson_toJson {factor : Factor} (h : factor.IsReadable) :
    Factor.ofJson factor.toJson = factor := by
  cases factor with
  | number x =>
      have hfinite : x.isFinite = true := h
      rw [toJson, dif_pos hfinite]
      rfl
  | text s =>
      rfl
  | other json =>
      have hnormal : NormalJson.ofJson json.value = json := by
        obtain ⟨value, hvalue⟩ := json
        rw [NormalJson.ofJson, NormalJson.mk.injEq]
        exact Json.normalize_of_isNormal hvalue
      rw [toJson, ofJson_of_ne h.1 h.2, hnormal]

/-- An object of the values of a map stands for the map. -/
theorem OrderedMap.ofJson_object {α : Type} {write : α → Json} {build : Json → α}
    (map : OrderedMap α) (h : ∀ entry ∈ map.entries, build (write entry.2) = entry.2) :
    OrderedMap.ofJson build (.object (map.entries.map fun entry => (entry.1, write entry.2))) =
      map := by
  have hentries : (map.entries.map fun entry => (entry.1, write entry.2)).map
      (fun member => (member.1, build member.2)) = map.entries := by
    rw [List.map_map]
    refine (List.map_congr_left ?_).trans (List.map_id map.entries)
    intro entry hentry
    exact Prod.ext rfl (h entry hentry)
  rw [OrderedMap.ofJson, Json.members, hentries]
  exact ext (entries_insertAll_of_nodup map.entries empty map.nodup_names)

/-- A table of readable factors comes back from its value. -/
theorem RuleTable.ofJson_toJson {table : RuleTable}
    (h : ∀ rule ∈ table.entries, rule.2.IsReadable) :
    RuleTable.ofJson (RuleTable.toJson table) = table :=
  OrderedMap.ofJson_object table fun rule hrule => Factor.ofJson_toJson (h rule hrule)

/-- A readable specification comes back from its value. -/
theorem Specification.ofJson_toJson {specification : Specification}
    (h : specification.IsReadable) : Specification.ofJson specification.toJson = specification :=
  OrderedMap.ofJson_object specification fun table htable =>
    RuleTable.ofJson_toJson (h table htable)

/-- What is written of a specification has the shape of one. -/
theorem Specification.isSpecification_toJson (specification : Specification) :
    specification.toJson.IsSpecification := by
  intro member hmember
  obtain ⟨table, -, rfl⟩ := List.mem_map.mp hmember
  exact fun _ _ => trivial

/-! ## Reading what is written -/

/-- A specification is read from its own tree, if there is room for it. -/
theorem Specification.ofTree?_toJson {specification : Specification} {room : Nat}
    (h : specification.IsReadable) (hdepth : specification.toJson.depth ≤ room) :
    Specification.ofTree? room specification.toJson.tree = some specification :=
  (Json.reads_specification room _ _).mpr ⟨specification.toJson, rfl, hdepth,
    specification.isSpecification_toJson, (Specification.ofJson_toJson h).symm⟩

/-- A profile comes back from its tree, if this fits the room. -/
theorem Profile.ofTree?_toJson {profile : Profile} {room : Nat}
    (h : profile.rules.IsReadable) (hdepth : profile.toJson.depth ≤ room) :
    Profile.ofTree? room profile.toJson.tree = some profile := by
  have hroom : room ≠ 0 ∧ profile.rules.toJson.depth ≤ room - 1 := by
    simp only [toJson, Json.depth, Json.membersDepth] at hdepth
    omega
  have hfields : profile.toJson.tree.fields? room ["name", sectionName] =
      some [(sectionName, profile.rules.toJson.tree), ("name", .string (some profile.name))] := by
    simp [toJson, Json.tree, Json.memberTrees, Json.Tree.fields?, hroom.1, sectionName]
  have hrules := Specification.ofTree?_toJson h hroom.2
  rw [Profile.ofTree?, hfields]
  simp [List.lookup_cons, sectionName, Json.Tree.text?, hrules]

namespace Profile

/-- A profile is restored from its text, and a specification is restored from its own, if their
factors are ones that documents hold, their containers nest within bounds, and the reader restores
every number that is written. -/
theorem ofJsonText?_jsonText (profile : Profile) (hfactors : profile.rules.IsReadable)
    (hreals : profile.toJson.RestoresReals) :
    (profile.toJson.depth ≤ Json.maxDepth → ofJsonText? profile.jsonText = some profile) ∧
    (profile.rules.toJson.depth ≤ Json.maxDepth →
      Specification.ofJsonText? profile.rules.jsonText = some profile.rules) := by
  have hrules : profile.rules.toJson.RestoresReals := by
    intro x finite hmember
    refine hreals x finite ?_
    simpa [toJson, Json.numbers, Json.membersNumbers] using hmember
  constructor
  · intro hdepth
    have hread := Json.ofText?_eq_some_tree_iff.mpr (Json.writtenIn_text hreals)
    rw [ofJsonText?, Json.Tree.read?, jsonText, hread, Option.bind_some]
    exact ofTree?_toJson hfactors hdepth
  · intro hdepth
    have hread := Json.ofText?_eq_some_tree_iff.mpr (Json.writtenIn_text hrules)
    rw [Specification.ofJsonText?, Json.Tree.read?, Specification.jsonText, hread, Option.bind_some]
    exact Specification.ofTree?_toJson hfactors hdepth

/-- A factor that is a number and one that is the text of this number, an attribute name with a
quote and a line break, and a factor that is neither number nor text. -/
theorem ofJsonText?_jsonText_quoted :
    let half : Binary64 := .signed false ⟨1022 * Nat.pow 2 52, by decide⟩
    let nested : NormalJson := ⟨.array [.bool true, .number (.integer (-3) (by decide))], rfl⟩
    let rules : Specification :=
      ⟨[("road \"class\"\n", ⟨[("*", .number half), ("0.5", .text "0.5")], by decide⟩),
        ("curvature", ⟨[("<0.5", .other nested)], by decide⟩), ("surface", .empty)], by decide⟩
    let profile : Profile := ⟨"Fähre", rules⟩
    rules.IsReadable ∧ profile.toJson.RestoresReals ∧
      ofJsonText? profile.jsonText = some profile ∧
      Specification.ofJsonText? rules.jsonText = some rules := by
  intro half nested rules profile
  have hfactors : rules.IsReadable := by
    intro table htable rule hrule
    simp only [rules, List.mem_cons, List.not_mem_nil, or_false] at htable
    rcases htable with rfl | rfl | rfl
    · simp only [List.mem_cons, List.not_mem_nil, or_false] at hrule
      rcases hrule with rfl | rfl
      · rfl
      · trivial
    · obtain rfl := List.mem_singleton.mp hrule
      exact ⟨by simp [nested], by simp [nested]⟩
    · cases hrule
  have hreals : profile.toJson.RestoresReals := by
    intro x finite hmember
    have hnumbers : profile.toJson.numbers =
        [.real half rfl, .integer (-3) (by decide)] := by
      rfl
    rw [hnumbers, List.mem_cons, List.mem_singleton] at hmember
    rcases hmember with hmember | hmember
    · cases hmember
      exact JsonNumber.restored_half
    · cases hmember
  have hdepth : profile.toJson.depth ≤ Json.maxDepth := by
    decide
  have hdepthRules : rules.toJson.depth ≤ Json.maxDepth := by
    decide
  obtain ⟨hprofile, hrules⟩ := ofJsonText?_jsonText profile hfactors hreals
  exact ⟨hfactors, hreals, hprofile hdepth, hrules hdepthRules⟩

end Profile

end RoutePriority
