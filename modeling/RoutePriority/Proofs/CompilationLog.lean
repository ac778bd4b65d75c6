import RoutePriority.Attribute.Road
import RoutePriority.Proofs.Compilations
import RoutePriority.Proofs.StoreRuns

/-!
# What the log says

A compilation writes one event for each table that it compiles and one more at its end, if it gets
there; an activation writes the events of its compilation and one more with the outcome.  Both say
nothing but what happened: the events of the tables are those of the entries before the first fault
(`Registry.leading`), and the outcome depends on the run of the store before it, in which the name
of the profile may have been activated and deactivated any number of times.
-/

namespace RoutePriority

/-! ## Compiling a specification -/

section Compilation

variable {registry : Registry} {name : String} {table : RuleTable} {compiled : CompiledTable}
  {entry : String × RuleTable} {rest entries : List (String × RuleTable)} {error : CompileError}
  {model : Model} {event : LogEvent}

end Compilation

/-! ## Activating a profile -/

section Activation

variable {store : ProfileStore} {profile : Profile} {registry : Registry}

/-- The first table compiles, the attribute of the second is unknown. -/
example :
    let table : RuleTable := ⟨[("*", .text "0.5")], by decide⟩
    (Compilation.run ⟨[("surface", table), ("lanes", table)], by decide⟩ Road.registry).log =
      [.tableCompiled "surface" .categorical 1] := by
  decide +kernel

end Activation

end RoutePriority
