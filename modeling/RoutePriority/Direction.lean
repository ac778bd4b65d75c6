/-!
# Directions of travel

An edge is travelled forward or backward, and some of its attributes depend on which.
-/

namespace RoutePriority

/-- The direction in which an edge is travelled. -/
inductive Direction where
  | forward
  | backward
  deriving DecidableEq, Inhabited

namespace Direction

/-- Whether the direction is the forward one. -/
def isForward : Direction → Bool
  | forward => true
  | backward => false

/-- The other direction. -/
def reverse : Direction → Direction
  | forward => backward
  | backward => forward

/-- The name of a direction. -/
def name : Direction → String
  | forward => "forward"
  | backward => "backward"

/-- The direction of travel with or against an edge. -/
def ofForward (forward : Bool) : Direction := if forward then .forward else .backward

/-- The direction that is meant if none is given. -/
def default : Direction := forward

/-- The reverse of the reverse direction is the direction. -/
theorem reverse_reverse (direction : Direction) : direction.reverse.reverse = direction := by
  cases direction <;> rfl

end Direction

end RoutePriority
