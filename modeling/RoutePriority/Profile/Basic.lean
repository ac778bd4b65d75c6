import RoutePriority.Rule.Specification

/-!
# Profiles

A routing profile is a named specification.  The name is the key under which it is activated.
-/

namespace RoutePriority

/-- A named specification. -/
structure Profile where
  name : String
  rules : Specification
  deriving Inhabited

namespace Profile

/-- A profile without rules. -/
def ofName (name : String) : Profile := ⟨name, .empty⟩

end Profile

end RoutePriority
