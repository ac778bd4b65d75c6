import RoutePriority.Priority.Compile
import RoutePriority.Profile.Basic

/-!
# The profile store

The store keeps the active profiles, each with the model that its last successful activation
compiled and the time of that activation.  Every activation has a serial number of its own, so an
evaluator that was handed out can be told from one that replaced it even if both give the same
priorities.  A failed activation changes nothing.

The clock is not read here: a caller says at what time it activates a profile.
-/

namespace RoutePriority

/-- What an activation hands out: a compiled model, and the number of activations before it. -/
structure Evaluator where
  model : Model
  serial : Nat
  deriving DecidableEq

/-- A point in time, in nanoseconds since the start of the year 1970 in UTC. -/
structure Instant where
  nanoseconds : Int
  deriving DecidableEq

/-- An active profile: its name, and the evaluator and the time of its activation. -/
structure ActiveProfile where
  name : String
  evaluator : Evaluator
  activatedAt : Instant
  deriving DecidableEq

/-- The active profiles. -/
structure ProfileStore where
  active : OrderedMap ActiveProfile
  /-- The number of successful activations so far. -/
  activations : Nat

/-- The outcome of an activation: the store after it, the evaluator or the error, and the account.
-/
structure Activation where
  store : ProfileStore
  result : Except CompileError Evaluator
  log : List LogEvent

namespace ProfileStore

/-- The store without profiles. -/
def empty : ProfileStore := ⟨.empty, 0⟩

/-- The active profile of a name. -/
def activation? (store : ProfileStore) (name : String) : Option ActiveProfile :=
  store.active.get? name

/-- The evaluator of a name. -/
def get? (store : ProfileStore) (name : String) : Option Evaluator :=
  (store.activation? name).map ActiveProfile.evaluator

/-- Whether a name has an active profile. -/
def contains (store : ProfileStore) (name : String) : Bool := (store.activation? name).isSome

/-- The names of the active profiles in rising order. -/
def names (store : ProfileStore) : List String :=
  (Entries.names store.active.entries).mergeSort fun a b => !Text.before b a

/-- The number of active profiles. -/
def size (store : ProfileStore) : Nat := store.active.size

/-- Whether there are no active profiles. -/
def isEmpty (store : ProfileStore) : Bool := store.active.isEmpty

/-- Compiles a profile and makes it, from `now` on, the active one of its name. -/
def activate (store : ProfileStore) (profile : Profile) (registry : Registry) (now : Instant) :
    Activation :=
  let compilation := Compilation.run profile.rules registry
  match compilation.result with
  | .error error =>
    ⟨store, .error error, compilation.log ++ [.profileRejected profile.name error]⟩
  | .ok model =>
    let evaluator : Evaluator := ⟨model, store.activations⟩
    let (previous, active) := store.active.exchange profile.name ⟨profile.name, evaluator, now⟩
    let event : LogEvent :=
      if previous.isSome then .profileReplaced profile.name else .profileActivated profile.name
    { store := ⟨active, store.activations + 1⟩
      result := .ok evaluator
      log := compilation.log ++ [event] }

/-- Takes the active profile of a name out of the store. -/
def deactivate (store : ProfileStore) (name : String) : Option ActiveProfile × ProfileStore :=
  let (previous, active) := store.active.takeOut name
  (previous, { store with active })

end ProfileStore

end RoutePriority
