import RoutePriority.Document.Json
import RoutePriority.Proofs.Catalogues
import RoutePriority.Proofs.JsonWriting

/-!
# Definitions that are written and read back

The JSON text of a definition has all its fields but an empty list of values, which the reader puts
in again; so a definition is restored whatever its names, its kind and its values are, sound or not.
A list of definitions is restored with it, and registering the restored list goes as registering the
list itself.  A registry hands out definitions as they were registered, and their texts give them
back.
-/

namespace RoutePriority

open Json (Tree)

/-- A list is restored if every element of it is. -/
theorem mapM_map_eq_some {α β : Type} {write : α → β} {read : β → Option α} {values : List α}
    (h : ∀ value ∈ values, read (write value) = some value) :
    (values.map write).mapM read = some values := by
  induction values with
  | nil => rfl
  | cons value values ih =>
      obtain ⟨hvalue, hvalues⟩ := List.forall_mem_cons.mp h
      rw [List.map_cons, List.mapM_cons, hvalue, ih hvalues]
      rfl

namespace Definition

/-! ## One definition -/

/-- No number is written of a definition. -/
theorem numbers_toJson (definition : Definition) : definition.toJson.numbers = [] := by
  have hvalues : Json.itemsNumbers (definition.values.map .string) = [] := by
    apply Json.itemsNumbers_eq_nil
    intro item hitem
    obtain ⟨value, -, rfl⟩ := List.mem_map.mp hitem
    rfl
  rw [toJson]
  cases definition.values.isEmpty <;>
    simp [Json.numbers, Json.membersNumbers, DomainKind.toJson, hvalues]

/-- The tree of the values of a definition. -/
def valuesTree (definition : Definition) : Tree :=
  .array (definition.values.map fun value => .string (some value))

/-- The fields that are found in what is written, the last one first. -/
theorem fields?_toJson (definition : Definition) {room : Nat} (hroom : room ≠ 0) :
    definition.toJson.tree.fields? room fieldNames = some
      ((if definition.values = [] then [] else [("values", definition.valuesTree)]) ++
        [("directional", .bool definition.directional),
          ("kind", .string (some definition.kind.name)),
          ("name", .string (some definition.name))]) := by
  have hvalues : .array (Json.itemTrees (definition.values.map .string)) =
      definition.valuesTree := by
    rw [Json.itemTrees_eq_map, List.map_map]
    rfl
  rw [toJson]
  by_cases hempty : definition.values = []
  · simp [hempty, Json.tree, Json.memberTrees, Tree.fields?, fieldNames, hroom, DomainKind.toJson]
  · simp [hempty, Json.tree, Json.memberTrees, Tree.fields?, fieldNames, hroom, DomainKind.toJson,
      hvalues]

/-- A definition is read from its own tree, if there is room for a list in it. -/
theorem ofTree?_toJson (definition : Definition) {room : Nat} (hroom : 2 ≤ room) :
    ofTree? room definition.toJson.tree = some definition := by
  rw [ofTree?, definition.fields?_toJson (by omega)]
  by_cases hempty : definition.values = []
  · obtain ⟨name, kind, directional, values⟩ := definition
    obtain rfl : values = [] := hempty
    simp [List.lookup_cons, DomainKind.ofTree?, DomainKind.ofName?_name, Tree.text?, Tree.flag?]
  · have hitems : definition.valuesTree.items? (room - 1) =
        some (definition.values.map fun value => .string (some value)) :=
      if_neg (by omega)
    have hvalues : (definition.values.map fun value => Tree.string (some value)).mapM Tree.text? =
        some definition.values :=
      mapM_map_eq_some fun _ _ => rfl
    simp [hempty, List.lookup_cons, DomainKind.ofTree?, DomainKind.ofName?_name, Tree.text?,
      Tree.flag?, hitems, hvalues]

/-! ## Texts -/

/-- Every text that is written for a definition holds it. -/
theorem ofJsonText?_of_writtenIn {definition : Definition} {text : String}
    (h : definition.toJson.WrittenIn text) : ofJsonText? text = some definition := by
  rw [ofJsonText?, Tree.read?, Json.ofText?_eq_some_tree_iff.mpr h, Option.bind_some]
  exact definition.ofTree?_toJson (by decide)

/-- What is written of a definition is a text of it. -/
theorem writtenIn_jsonText (definition : Definition) :
    definition.toJson.WrittenIn definition.jsonText :=
  Json.writtenIn_text (Json.restoresReals_of_numbers_eq_nil definition.numbers_toJson)

/-- Every text that is written for a list of definitions holds them in their order. -/
theorem listOfJsonText?_of_writtenIn {definitions : List Definition} {text : String}
    (h : (Json.array (definitions.map toJson)).WrittenIn text) :
    listOfJsonText? text = some definitions := by
  have hitems : Tree.items? Json.maxDepth (Json.array (definitions.map toJson)).tree =
      some (definitions.map fun definition => definition.toJson.tree) := by
    rw [Json.tree, Json.itemTrees_eq_map, List.map_map]
    rfl
  rw [listOfJsonText?, Tree.read?, Json.ofText?_eq_some_tree_iff.mpr h, Option.bind_some,
    listOfTree?, hitems]
  exact mapM_map_eq_some fun definition _ => definition.ofTree?_toJson (by decide)

/-- What is written of a list of definitions is a text of it. -/
theorem writtenIn_listJsonText (definitions : List Definition) :
    (Json.array (definitions.map toJson)).WrittenIn (listJsonText definitions) := by
  refine Json.writtenIn_text (Json.restoresReals_of_numbers_eq_nil ?_)
  apply Json.itemsNumbers_eq_nil
  intro item hitem
  obtain ⟨definition, -, rfl⟩ := List.mem_map.mp hitem
  exact definition.numbers_toJson

end Definition

/-- A registry hands out its definitions as they were registered. -/
theorem Reached.definition_of_get? {catalogue : Catalogue} {registered : List Definition}
    (h : Reached catalogue registered) {slot : Nat} {handle : Handle}
    (hget : catalogue.get? slot = some handle) : registered[slot]? = some handle.definition := by
  obtain ⟨registry, rfl, hkeeps⟩ := h.exists_keeps
  have hhandle : catalogue.handles[slot]? = some handle := hget
  rw [← hkeeps.map_definition_handles, List.getElem?_map, hhandle]
  rfl

/-- **Definitions survive their JSON form.**  The text of a list of definitions, sound or not, is
read as this list, so a registry is made of it or refused as it is of the list.  Values are left out
of the text if there are none.  In a registry the text of every handed out definition is read as the
definition that was registered in the slot. -/
theorem definitions_survive_json :
    (∀ definitions : List Definition,
      let text := Definition.listJsonText definitions
      (Json.array (definitions.map Definition.toJson)).WrittenIn text ∧
        Definition.listOfJsonText? text = some definitions ∧
        (Definition.listOfJsonText? text).map Catalogue.ofDefinitions =
          some (Catalogue.ofDefinitions definitions) ∧
        (Definition.listOfJsonText? text).map Registry.ofDefinitions =
          some (Registry.ofDefinitions definitions)) ∧
    (∀ definition : Definition, ∃ members, definition.toJson = .object members ∧
      ("values" ∈ members.map Prod.fst ↔ definition.values ≠ [])) ∧
    ∀ (catalogue : Catalogue) (registered : List Definition), Reached catalogue registered →
      ∀ slot handle, catalogue.get? slot = some handle →
        ∃ definition, registered[slot]? = some definition ∧
          Definition.ofJsonText? handle.definition.jsonText = some definition := by
  refine ⟨fun definitions => ?_, fun definition => ?_, fun catalogue registered h => ?_⟩
  · have hread : Definition.listOfJsonText? (Definition.listJsonText definitions) =
        some definitions :=
      Definition.listOfJsonText?_of_writtenIn (Definition.writtenIn_listJsonText definitions)
    exact ⟨Definition.writtenIn_listJsonText definitions, hread,
      congrArg (Option.map Catalogue.ofDefinitions) hread,
      congrArg (Option.map Registry.ofDefinitions) hread⟩
  · refine ⟨_, rfl, ?_⟩
    by_cases hempty : definition.values = [] <;> simp [hempty]
  · intro slot handle hget
    exact ⟨handle.definition, h.definition_of_get? hget,
      Definition.ofJsonText?_of_writtenIn handle.definition.writtenIn_jsonText⟩

/-- Definitions with a name that has a quote and a line break, with values where there should be
none, and with a value that is named twice: they are restored, and the last one is refused.  The
road attributes can be asked for the definition of the surface. -/
theorem definitions_survive_json_surface :
    let odd : Definition := ⟨"road \"class\"\n", .continuous, true, ["Fähre", ""]⟩
    let twice : Definition := .categorical "ferry" ["no", "no"]
    let surface : Handle := ⟨3, .categorical "surface" Road.surfaceValues⟩
    let text := Definition.listJsonText [odd, .boolean "", twice]
    Definition.listOfJsonText? text = some [odd, .boolean "", twice] ∧
      (Definition.listOfJsonText? text).map Registry.ofDefinitions =
        some (.error (.duplicateValue "ferry" "no")) ∧
      Reached .road Road.definitions ∧ Catalogue.road.get? 3 = some surface ∧
      Definition.ofJsonText? surface.definition.jsonText = some surface.definition := by
  intro odd twice surface text
  obtain ⟨hlists, -, hhandles⟩ := definitions_survive_json
  obtain ⟨-, hread, -, hregistry⟩ := hlists [odd, .boolean "", twice]
  have hrefused : Registry.ofDefinitions [odd, .boolean "", twice] =
      .error (.duplicateValue "ferry" "no") := by
    have hvalues : twice.values = ["no"] ++ "no" :: [] := rfl
    refine ((Registry.empty.reports_foldlM_register _).error_iff _).mpr
      (.later ⟨by decide, by decide⟩ (.later ⟨by decide, by decide⟩ (.here ?_)))
    exact .duplicateValue (by decide) rfl (by decide) hvalues (by decide) (by decide)
  have hget : Catalogue.road.get? 3 = some surface := rfl
  obtain ⟨definition, hregistered, hdefinition⟩ := hhandles _ _ .road 3 surface hget
  obtain rfl : surface.definition = definition := Option.some.inj hregistered
  rw [hrefused] at hregistry
  exact ⟨hread, hregistry, .road, hget, hdefinition⟩

end RoutePriority
