import RoutePriority.Attribute.Registry

/-!
# The road attributes

The attributes that a road edge has unless a registry of its own is given: five categorical ones,
four measures and two flags.  Speed limits and the duty to push a bicycle may differ between the two
directions.
-/

namespace RoutePriority.Road

/-- The classes of roads. -/
def classValues : List String :=
  ["OTHER", "MOTORWAY", "TRUNK", "PRIMARY", "SECONDARY", "TERTIARY", "RESIDENTIAL",
    "UNCLASSIFIED", "SERVICE", "ROAD", "TRACK", "BRIDLEWAY", "STEPS", "CYCLEWAY", "PATH",
    "LIVING_STREET", "FOOTWAY", "PEDESTRIAN", "PLATFORM", "CORRIDOR"]

/-- What a road runs on or through. -/
def environmentValues : List String := ["OTHER", "ROAD", "FERRY", "BRIDGE", "TUNNEL", "FORD"]

/-- Who may use a road. -/
def accessValues : List String :=
  ["YES", "DESTINATION", "CUSTOMERS", "DELIVERY", "FORESTRY", "AGRICULTURAL", "PRIVATE", "OTHER",
    "NO"]

/-- What a road is covered with. -/
def surfaceValues : List String :=
  ["MISSING", "PAVED", "ASPHALT", "CONCRETE", "PAVING_STONES", "COBBLESTONE", "UNPAVED",
    "COMPACTED", "FINE_GRAVEL", "GRAVEL", "GROUND", "DIRT", "GRASS", "SAND", "OTHER"]

/-- Who pays a toll. -/
def tollValues : List String := ["MISSING", "NO", "HGV", "ALL"]

/-- The road attributes in the order of their slots. -/
def definitions : List Definition :=
  [.categorical "road_class" classValues,
    .categorical "road_environment" environmentValues,
    .categorical "road_access" accessValues,
    .categorical "surface" surfaceValues,
    .categorical "toll" tollValues,
    (Definition.continuous "max_speed").withDirections,
    .continuous "max_weight",
    .continuous "max_height",
    .continuous "max_width",
    .boolean "roundabout",
    (Definition.boolean "get_off_bike").withDirections]

/-- No two road attributes have the same name. -/
theorem nodup_names_definitions : (definitions.map Definition.name).Nodup := by
  decide

/-- Every road attribute passes the check of its values. -/
theorem wellFormed_definitions : ∀ definition ∈ definitions, definition.WellFormed := by
  decide

/-- The registry of the road attributes. -/
def registry : Registry := ⟨definitions, nodup_names_definitions, wellFormed_definitions⟩

end RoutePriority.Road
