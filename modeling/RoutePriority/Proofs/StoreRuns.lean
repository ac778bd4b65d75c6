import RoutePriority.Profile.Store
import RoutePriority.Proofs.MapHistories

/-!
# Runs of the profile store

Several clients share one store.  Whatever they do, their calls take effect one after the other, so
a run is a list of calls, and a `StoreSession` is the store together with what happened: every call
with its answer.

What record a name has is said on these events alone.  `LatestActivation` picks the last successful
activation of a profile of the name, provided that the name was not deactivated after it; the record
holds the evaluator that it returned and the time at which it was made.
`perform_cases` says all that a call can do, `Faithful` is what every call preserves, and the main
theorem reads off what clients see.

The identity of an evaluator is its serial number.  No two activations return the same one, so
whoever gets hold of an evaluator, at whatever time, can know its priorities from its identity.
-/

namespace RoutePriority

/-- A call to the store. -/
inductive StoreCall where
  | activate (profile : Profile) (registry : Registry) (now : Instant)
  | deactivate (name : String)
  | get (name : String)
  | activation (name : String)
  | list
  | contains (name : String)
  | size
  | isEmpty

/-- The answer to a call. -/
inductive StoreAnswer where
  | activated (result : Except CompileError Evaluator)
  | profile (found : Option ActiveProfile)
  | evaluator (found : Option Evaluator)
  | names (names : List String)
  | truth (value : Bool)
  | count (n : Nat)

/-- Whether an answer hands out an evaluator. -/
inductive StoreAnswer.HandsOut (evaluator : Evaluator) : StoreAnswer → Prop
  | activated : HandsOut evaluator (.activated (.ok evaluator))
  | profile {active : ActiveProfile} (h : active.evaluator = evaluator) :
      HandsOut evaluator (.profile (some active))
  | evaluator : HandsOut evaluator (.evaluator (some evaluator))

/-- The answer to a call, and the store after it. -/
def ProfileStore.perform (store : ProfileStore) : StoreCall → StoreAnswer × ProfileStore
  | .activate profile registry now =>
    let activation := store.activate profile registry now
    (.activated activation.result, activation.store)
  | .deactivate name =>
    let (previous, left) := store.deactivate name
    (.profile previous, left)
  | .get name => (.evaluator (store.get? name), store)
  | .activation name => (.profile (store.activation? name), store)
  | .list => (.names store.names, store)
  | .contains name => (.truth (store.contains name), store)
  | .size => (.count store.size, store)
  | .isEmpty => (.truth store.isEmpty, store)

/-- A call and its answer. -/
abbrev StoreEvent := StoreCall × StoreAnswer

/-- A store and what happened to it, the first event first. -/
structure StoreSession where
  events : List StoreEvent
  store : ProfileStore

namespace StoreSession

/-- The session after one more call. -/
def step (session : StoreSession) (call : StoreCall) : StoreSession :=
  ⟨session.events ++ [(call, (session.store.perform call).1)], (session.store.perform call).2⟩

/-- The session after a run of calls. -/
def extend (session : StoreSession) (calls : List StoreCall) : StoreSession :=
  calls.foldl step session

/-- A run of calls on a new store. -/
def run (calls : List StoreCall) : StoreSession := extend ⟨[], .empty⟩ calls

end StoreSession

/-- Whether an event ends the activation that a name had before: by another activation, or by a
deactivation. -/
inductive EndsActivation (name : String) : StoreEvent → Prop
  | replaced {profile : Profile} {registry : Registry} {now : Instant} {evaluator : Evaluator}
      (h : profile.name = name) :
      EndsActivation name (.activate profile registry now, .activated (.ok evaluator))
  | deactivated {answer : StoreAnswer} : EndsActivation name (.deactivate name, answer)

/-- The latest successful activation of a profile of the name was made at the time `now` and
returned the evaluator, and nothing ended it since. -/
def LatestActivation (events : List StoreEvent) (name : String) (profile : Profile)
    (registry : Registry) (now : Instant) (evaluator : Evaluator) : Prop :=
  ∃ before after,
    events = before ++ (.activate profile registry now, .activated (.ok evaluator)) :: after ∧
      profile.name = name ∧ ∀ event ∈ after, ¬ EndsActivation name event

/-- The evaluators that successful activations returned, in their order. -/
def activatedIn (events : List StoreEvent) : List Evaluator :=
  events.filterMap fun event =>
    match event.2 with
    | .activated (.ok evaluator) => some evaluator
    | _ => none

/-- Whether some event hands out the evaluator. -/
def HandedOut (events : List StoreEvent) (evaluator : Evaluator) : Prop :=
  ∃ event ∈ events, event.2.HandsOut evaluator

section Events

variable {events : List StoreEvent} {event : StoreEvent} {name : String} {profile : Profile}
  {registry : Registry} {now : Instant} {evaluator : Evaluator}

/-- What a successful activation of the run returned is among the evaluators of the run. -/
theorem mem_activatedIn {call : StoreCall} (h : (call, .activated (.ok evaluator)) ∈ events) :
    evaluator ∈ activatedIn events :=
  List.mem_filterMap.mpr ⟨_, h, rfl⟩

/-- The latest activation is one of the events. -/
theorem LatestActivation.mem (h : LatestActivation events name profile registry now evaluator) :
    (.activate profile registry now, .activated (.ok evaluator)) ∈ events := by
  obtain ⟨before, after, rfl, -, -⟩ := h
  exact List.mem_append_right _ List.mem_cons_self

/-- A successful activation ends the one that its own name had. -/
theorem endsActivation_activate :
    EndsActivation name (.activate profile registry now, .activated (.ok evaluator)) ↔
      name = profile.name := by
  constructor
  · intro hcase
    obtain ⟨h⟩ := hcase
    exact h.symm
  · intro h
    exact .replaced h.symm

/-- A deactivation ends the activation that its own name had. -/
theorem endsActivation_deactivate {removed : String} {answer : StoreAnswer} :
    EndsActivation name (.deactivate removed, answer) ↔ name = removed := by
  constructor
  · intro h
    cases h
    rfl
  · intro h
    obtain rfl := h
    exact .deactivated

/-- An event that does not end the activation of a name leaves the latest one as it is. -/
theorem latestActivation_concat_of_not_ends (hkeeps : ¬ EndsActivation name event) :
    LatestActivation (events ++ [event]) name profile registry now evaluator ↔
      LatestActivation events name profile registry now evaluator := by
  constructor
  · intro h
    obtain ⟨before, after, hsplit, hname, hafter⟩ := h
    rcases concat_eq_append_cons_iff.mp hsplit with ⟨-, rfl, -⟩ | ⟨rest, hevents, rfl⟩
    · exact absurd (.replaced hname) hkeeps
    · exact ⟨before, rest, hevents, hname, (List.forall_mem_append.mp hafter).1⟩
  · intro h
    obtain ⟨before, after, rfl, hname, hafter⟩ := h
    refine ⟨before, after ++ [event], by simp, hname, ?_⟩
    exact List.forall_mem_append.mpr ⟨hafter, by simpa using hkeeps⟩

/-- After an event that ends the activation of a name only the event itself can be the latest. -/
theorem latestActivation_concat_of_ends (hends : EndsActivation name event) :
    LatestActivation (events ++ [event]) name profile registry now evaluator ↔
      event = (.activate profile registry now, .activated (.ok evaluator)) := by
  constructor
  · intro h
    obtain ⟨before, after, hsplit, -, hafter⟩ := h
    rcases concat_eq_append_cons_iff.mp hsplit with ⟨-, hevent, -⟩ | ⟨rest, -, rfl⟩
    · exact hevent
    · exact absurd hends (hafter event (List.mem_append_right _ (List.mem_singleton_self _)))
  · intro hcase
    obtain rfl := hcase
    exact ⟨events, [], rfl, (endsActivation_activate.mp hends).symm, by simp⟩

end Events

namespace ProfileStore

variable {store : ProfileStore}

/-- The evaluator of a name is that of its record. -/
theorem get?_eq_some_iff {name : String} {evaluator : Evaluator} :
    store.get? name = some evaluator ↔
      ∃ active, store.activation? name = some active ∧ active.evaluator = evaluator :=
  Option.map_eq_some_iff

/-- A name is active if it has an evaluator. -/
theorem contains_iff_exists_get? {name : String} :
    store.contains name = true ↔ ∃ evaluator, store.get? name = some evaluator := by
  rw [contains, get?]
  cases store.activation? name <;> simp

/-- The store without the active profile of a name. -/
def without (store : ProfileStore) (name : String) : ProfileStore :=
  { store with active := store.active.erase name }

/-- A deactivation answers with the record that the name has, and leaves the store without it. -/
theorem deactivate_eq (store : ProfileStore) (name : String) :
    store.deactivate name = (store.activation? name, store.without name) := by
  rw [deactivate, store.active.takeOut_eq]
  rfl

/-- Without a name, the other names have the records that they had. -/
theorem activation?_without (store : ProfileStore) (name other : String) :
    (store.without name).activation? other =
      if other = name then none else store.activation? other :=
  store.active.get?_erase name other

/-- The store with one more active profile. -/
def put (store : ProfileStore) (active : ActiveProfile) : ProfileStore :=
  ⟨store.active.insert active.name active, store.activations + 1⟩

/-- A name has the record that was put last under it. -/
theorem activation?_put (store : ProfileStore) (active : ActiveProfile) (name : String) :
    (store.put active).activation? name =
      if name = active.name then some active else store.activation? name :=
  store.active.get?_insert active.name name active

/-- An activation of a profile that does not compile changes nothing and says why. -/
theorem activate_of_error {profile : Profile} {registry : Registry} {error : CompileError}
    (h : Model.compile profile.rules registry = .error error) (now : Instant) :
    store.activate profile registry now =
      ⟨store, .error error,
        (Compilation.run profile.rules registry).log ++ [.profileRejected profile.name error]⟩ := by
  have hresult : (Compilation.run profile.rules registry).result = .error error := h
  simp only [activate, hresult]

/-- A profile that compiles becomes the active one of its name, with an evaluator of a new number
and the time of the activation, and the log says whether the name was active before. -/
theorem activate_of_ok {profile : Profile} {registry : Registry} {model : Model}
    (h : Model.compile profile.rules registry = .ok model) (now : Instant) :
    store.activate profile registry now =
      { store := store.put ⟨profile.name, ⟨model, store.activations⟩, now⟩
        result := .ok ⟨model, store.activations⟩
        log := (Compilation.run profile.rules registry).log ++
          [if store.contains profile.name then .profileReplaced profile.name
            else .profileActivated profile.name] } := by
  have hresult : (Compilation.run profile.rules registry).result = .ok model := h
  simp only [activate, hresult, OrderedMap.exchange_eq]
  rfl

/-- An activation compiles; what does not compile changes nothing. -/
theorem perform_activate_of_error {profile : Profile} {registry : Registry} {error : CompileError}
    (h : Model.compile profile.rules registry = .error error) (now : Instant) :
    store.perform (.activate profile registry now) = (.activated (.error error), store) := by
  simp only [perform, activate_of_error h]

/-- What compiles becomes the active profile of its name, with an evaluator of a new number. -/
theorem perform_activate_of_ok {profile : Profile} {registry : Registry} {model : Model}
    (h : Model.compile profile.rules registry = .ok model) (now : Instant) :
    store.perform (.activate profile registry now) =
      (.activated (.ok ⟨model, store.activations⟩),
        store.put ⟨profile.name, ⟨model, store.activations⟩, now⟩) := by
  simp only [perform, activate_of_ok h]

/-- A deactivation answers with the record of its name and removes it. -/
theorem perform_deactivate (store : ProfileStore) (name : String) :
    store.perform (.deactivate name) =
      (.profile (store.activation? name), store.without name) := by
  rw [perform, deactivate_eq]

/-- **All that a call can do.**  It activates a profile that compiles, it deactivates a name, or it
leaves the store as it is, ends no activation and hands out nothing but what the store holds. -/
theorem perform_cases (store : ProfileStore) (call : StoreCall) :
    (∃ profile registry now model, call = .activate profile registry now ∧
        Model.compile profile.rules registry = .ok model ∧
        store.perform call = (.activated (.ok ⟨model, store.activations⟩),
          store.put ⟨profile.name, ⟨model, store.activations⟩, now⟩)) ∨
      (∃ name, call = .deactivate name ∧
        store.perform call = (.profile (store.activation? name), store.without name)) ∨
      ∃ answer, store.perform call = (answer, store) ∧
        (∀ name, ¬ EndsActivation name (call, answer)) ∧
        (∀ result, answer = .activated result → ∃ error, result = .error error) ∧
        ∀ evaluator, answer.HandsOut evaluator → ∃ name, store.get? name = some evaluator := by
  cases call with
  | activate profile registry now =>
      cases hcompile : Model.compile profile.rules registry with
      | ok model =>
          exact Or.inl ⟨profile, registry, now, model, rfl, hcompile,
            perform_activate_of_ok hcompile now⟩
      | error error =>
          refine Or.inr (Or.inr ⟨_, perform_activate_of_error hcompile now, ?_, ?_, ?_⟩)
          · intro name h
            cases h
          · intro result h
            exact ⟨error, (StoreAnswer.activated.inj h).symm⟩
          · intro evaluator h
            cases h
  | deactivate name => exact Or.inr (Or.inl ⟨name, rfl, perform_deactivate store name⟩)
  | get name =>
      refine Or.inr (Or.inr ⟨_, rfl, by rintro _ ⟨⟩, by simp, fun evaluator h => ⟨name, ?_⟩⟩)
      generalize hfound : store.get? name = found at h
      cases h
      rfl
  | activation name =>
      refine Or.inr (Or.inr ⟨_, rfl, by rintro _ ⟨⟩, by simp, fun evaluator h => ⟨name, ?_⟩⟩)
      generalize hfound : store.activation? name = found at h
      cases h with
      | profile h => exact get?_eq_some_iff.mpr ⟨_, hfound, h⟩
  | list | contains name | size | isEmpty =>
      exact Or.inr (Or.inr ⟨_, rfl, by rintro _ ⟨⟩, by simp, by rintro _ ⟨⟩⟩)

/-! ## The list of names -/

/-- The order by which names are sorted is transitive. -/
theorem not_before_trans (a b c : String) (hab : (!Text.before b a) = true)
    (hbc : (!Text.before c b) = true) : (!Text.before c a) = true := by
  rw [Bool.not_eq_true'] at hab hbc ⊢
  rw [Bool.eq_false_iff]
  intro hca
  by_cases hsame : b = a
  · rw [hsame, hca] at hbc
    cases hbc
  · have hba := Text.before_of_not_before (Bool.eq_false_iff.mp hab) hsame
    rw [Text.before_trans hca hba] at hbc
    cases hbc

/-- The order by which names are sorted is total. -/
theorem not_before_total (a b : String) : (!Text.before b a || !Text.before a b) = true := by
  cases hba : Text.before b a with
  | false => rfl
  | true =>
      cases hab : Text.before a b with
      | false => rfl
      | true =>
          have hirrefl := Text.before_irrefl a
          rw [Text.before_trans hab hba] at hirrefl
          cases hirrefl

/-- The sorted names are the names of the map. -/
theorem names_perm (store : ProfileStore) :
    store.names.Perm (Entries.names store.active.entries) :=
  List.mergeSort_perm _ _

/-- The names are listed in strictly rising order of their octets. -/
theorem names_pairwise (store : ProfileStore) :
    store.names.Pairwise fun a b => Text.before a b = true := by
  have hsorted : store.names.Pairwise fun a b => (!Text.before b a) = true :=
    List.pairwise_mergeSort not_before_trans not_before_total _
  have hdistinct : store.names.Pairwise (· ≠ ·) :=
    store.names_perm.nodup_iff.mpr store.active.nodup_names
  refine (hsorted.and hdistinct).imp fun h => ?_
  exact Text.before_of_not_before (by simpa using h.1) h.2.symm

/-- A name is listed if the store has it. -/
theorem mem_names_iff {name : String} : name ∈ store.names ↔ store.contains name = true := by
  rw [store.names_perm.mem_iff, contains, Option.isSome_iff_ne_none, activation?, OrderedMap.get?,
    Ne, Entries.find?_eq_none_iff, not_not]

/-- The size is the number of listed names. -/
theorem size_eq_length_names (store : ProfileStore) : store.size = store.names.length := by
  rw [store.names_perm.length_eq, Entries.names, List.length_map]
  rfl

theorem isEmpty_iff : store.isEmpty = true ↔ store.names = [] := by
  rw [← List.length_eq_zero_iff, ← size_eq_length_names]
  exact List.isEmpty_iff_length_eq_zero

end ProfileStore

/-- What holds after every call of a run. -/
structure Faithful (session : StoreSession) : Prop where
  /-- A name has the record of its latest activation: the name, the evaluator and the time. -/
  latest : ∀ name active, session.store.activation? name = some active ↔
    active.name = name ∧ ∃ profile registry,
      LatestActivation session.events name profile registry active.activatedAt active.evaluator
  /-- What an activation returns is what compiling gives. -/
  compiled : ∀ profile registry now evaluator,
    (StoreCall.activate profile registry now, StoreAnswer.activated (.ok evaluator)) ∈
        session.events →
      Model.compile profile.rules registry = .ok evaluator.model
  /-- The successful activations are numbered. -/
  numbered :
    (activatedIn session.events).map Evaluator.serial = List.range session.store.activations
  /-- No evaluator is handed out that no activation returned. -/
  known : ∀ evaluator, HandedOut session.events evaluator → evaluator ∈ activatedIn session.events

section Steps

variable {events : List StoreEvent} {event : StoreEvent} {evaluator : Evaluator}

/-- What is handed out was handed out before or is handed out by the last event. -/
theorem handedOut_concat : HandedOut (events ++ [event]) evaluator ↔
    HandedOut events evaluator ∨ event.2.HandsOut evaluator := by
  simp [HandedOut, or_and_right, exists_or]

/-- A successful activation adds its evaluator to those of the run. -/
theorem activatedIn_concat_ok {call : StoreCall} :
    activatedIn (events ++ [(call, .activated (.ok evaluator))]) =
      activatedIn events ++ [evaluator] := by
  simp [activatedIn]

/-- Other events add no evaluator. -/
theorem activatedIn_concat_of_ne (h : ∀ evaluator, event.2 ≠ .activated (.ok evaluator)) :
    activatedIn (events ++ [event]) = activatedIn events := by
  obtain ⟨call, answer⟩ := event
  rw [activatedIn, List.filterMap_append, activatedIn]
  cases answer with
  | activated result =>
      cases result with
      | ok evaluator => exact absurd rfl (h evaluator)
      | error error => simp
  | profile found | evaluator found | names names | truth value | count n => simp

variable {store : ProfileStore}

/-- The evaluator of a name is the one that its latest activation returned. -/
theorem Faithful.get?_iff {session : StoreSession} (h : Faithful session) {name : String} :
    session.store.get? name = some evaluator ↔ ∃ profile registry now,
      LatestActivation session.events name profile registry now evaluator := by
  rw [ProfileStore.get?_eq_some_iff]
  constructor
  · intro hcase
    obtain ⟨active, hactive, rfl⟩ := hcase
    obtain ⟨-, profile, registry, hlatest⟩ := (h.latest name active).mp hactive
    exact ⟨profile, registry, active.activatedAt, hlatest⟩
  · intro hcase
    obtain ⟨profile, registry, now, hlatest⟩ := hcase
    exact ⟨⟨name, evaluator, now⟩, (h.latest name _).mpr ⟨rfl, profile, registry, hlatest⟩, rfl⟩

/-- A name that has an evaluator got it from a successful activation. -/
theorem Faithful.mem_activatedIn_of_get? (h : Faithful ⟨events, store⟩) {name : String}
    (hget : store.get? name = some evaluator) : evaluator ∈ activatedIn events := by
  obtain ⟨profile, registry, now, hlatest⟩ := h.get?_iff.mp hget
  exact mem_activatedIn hlatest.mem

/-- Nothing happened to a new store. -/
theorem faithful_empty : Faithful ⟨[], .empty⟩ where
  latest := by
    intro name active
    constructor
    · intro h
      cases h
    · intro h
      obtain ⟨-, profile, registry, hlatest⟩ := h
      cases hlatest.mem
  compiled := by
    intro profile registry now evaluator h
    cases h
  numbered := rfl
  known := by
    intro evaluator h
    obtain ⟨event, hevent, -⟩ := h
    cases hevent

/-- A step that activates a profile. -/
theorem Faithful.activated (h : Faithful ⟨events, store⟩) {profile : Profile} {registry : Registry}
    {now : Instant} {model : Model} (hcompile : Model.compile profile.rules registry = .ok model) :
    Faithful ⟨events ++
        [(.activate profile registry now, .activated (.ok ⟨model, store.activations⟩))],
      store.put ⟨profile.name, ⟨model, store.activations⟩, now⟩⟩ where
  latest := by
    intro name active
    rw [ProfileStore.activation?_put]
    by_cases hname : name = profile.name
    · simp only [latestActivation_concat_of_ends (endsActivation_activate.mpr hname)]
      rw [if_pos hname, hname]
      obtain ⟨held, evaluator, time⟩ := active
      constructor
      · intro hactive
        cases hactive
        exact ⟨rfl, profile, registry, rfl⟩
      · intro hcase
        obtain ⟨rfl, other, place, hevent⟩ := hcase
        cases hevent
        rfl
    · simp only [latestActivation_concat_of_not_ends (mt endsActivation_activate.mp hname)]
      rw [if_neg hname]
      exact h.latest name active
  compiled := by
    intro other place time evaluator hevent
    rcases List.mem_append.mp hevent with hevent | hevent
    · exact h.compiled other place time evaluator hevent
    · cases List.mem_singleton.mp hevent
      exact hcompile
  numbered := by
    rw [activatedIn_concat_ok, List.map_append, h.numbered]
    exact List.range_succ.symm
  known := by
    intro evaluator hout
    rw [activatedIn_concat_ok]
    rcases handedOut_concat.mp hout with hout | hout
    · exact List.mem_append_left _ (h.known evaluator hout)
    · cases hout
      exact List.mem_append_right _ (List.mem_singleton_self _)

/-- A step that deactivates a name. -/
theorem Faithful.deactivated (h : Faithful ⟨events, store⟩) (removed : String) :
    Faithful ⟨events ++ [(.deactivate removed, .profile (store.activation? removed))],
      store.without removed⟩ where
  latest := by
    intro name active
    rw [ProfileStore.activation?_without]
    by_cases hname : name = removed
    · simp only [latestActivation_concat_of_ends (endsActivation_deactivate.mpr hname)]
      simp [hname]
    · simp only [latestActivation_concat_of_not_ends (mt endsActivation_deactivate.mp hname)]
      rw [if_neg hname]
      exact h.latest name active
  compiled := by
    intro profile registry now evaluator hevent
    exact h.compiled profile registry now evaluator (by simpa using hevent)
  numbered := by
    rw [activatedIn_concat_of_ne (by simp)]
    exact h.numbered
  known := by
    intro evaluator hout
    rw [activatedIn_concat_of_ne (by simp)]
    rcases handedOut_concat.mp hout with hout | hout
    · exact h.known evaluator hout
    · generalize hfound : store.activation? removed = found at hout
      cases hout with
      | profile hactive =>
          exact h.mem_activatedIn_of_get? (ProfileStore.get?_eq_some_iff.mpr ⟨_, hfound, hactive⟩)

/-- A step that leaves the store as it is. -/
theorem Faithful.observed (h : Faithful ⟨events, store⟩)
    (hkeeps : ∀ name, ¬ EndsActivation name event)
    (hfails : ∀ result, event.2 = .activated result → ∃ error, result = .error error)
    (hout : ∀ evaluator, event.2.HandsOut evaluator → ∃ name, store.get? name = some evaluator) :
    Faithful ⟨events ++ [event], store⟩ := by
  have hne : ∀ evaluator, event.2 ≠ .activated (.ok evaluator) := by
    intro evaluator hsame
    obtain ⟨error, herror⟩ := hfails _ hsame
    cases herror
  refine ⟨?_, ?_, ?_, ?_⟩
  · intro name active
    simp only [latestActivation_concat_of_not_ends (hkeeps name)]
    exact h.latest name active
  · intro profile registry now evaluator hevent
    rcases List.mem_append.mp hevent with hevent | hevent
    · exact h.compiled profile registry now evaluator hevent
    · exact absurd (congrArg Prod.snd (List.mem_singleton.mp hevent)).symm (hne evaluator)
  · rw [activatedIn_concat_of_ne hne]
    exact h.numbered
  · intro evaluator hevent
    rw [activatedIn_concat_of_ne hne]
    rcases handedOut_concat.mp hevent with hevent | hevent
    · exact h.known evaluator hevent
    · obtain ⟨name, hget⟩ := hout evaluator hevent
      exact h.mem_activatedIn_of_get? hget

end Steps

namespace StoreSession

/-- One call keeps the account of the store. -/
theorem faithful_step {session : StoreSession} (h : Faithful session) (call : StoreCall) :
    Faithful (session.step call) := by
  obtain ⟨events, store⟩ := session
  rw [step]
  rcases store.perform_cases call with
    ⟨profile, registry, now, model, rfl, hcompile, hperform⟩ | ⟨name, rfl, hperform⟩ |
      ⟨answer, hperform, hkeeps, hfails, hout⟩
  · rw [hperform]
    exact h.activated hcompile
  · rw [hperform]
    exact h.deactivated name
  · rw [hperform]
    exact h.observed hkeeps hfails hout

/-- A run of calls keeps the account of the store. -/
theorem faithful_extend {session : StoreSession} (h : Faithful session) (calls : List StoreCall) :
    Faithful (session.extend calls) := by
  induction calls generalizing session with
  | nil => exact h
  | cons call rest ih => exact ih (faithful_step h call)

/-- After any run on a new store the store holds what the run says. -/
theorem faithful_run (calls : List StoreCall) : Faithful (run calls) :=
  faithful_extend faithful_empty calls

/-- Further calls add events and change none. -/
theorem events_prefix_extend (session : StoreSession) (calls : List StoreCall) :
    session.events <+: (session.extend calls).events := by
  induction calls generalizing session with
  | nil => exact List.prefix_refl _
  | cons call rest ih => exact (List.prefix_append _ _).trans (ih (session.step call))

end StoreSession

/-- Two evaluators that a run hands out, at whatever times, are the same if their numbers are. -/
theorem Faithful.eq_of_serial_eq {session : StoreSession} (h : Faithful session)
    {evaluator other : Evaluator} (hout : HandedOut session.events evaluator)
    (hother : HandedOut session.events other) (hserial : evaluator.serial = other.serial) :
    evaluator = other := by
  have hdistinct : ((activatedIn session.events).map Evaluator.serial).Nodup := by
    rw [h.numbered]
    exact List.nodup_range
  exact List.inj_on_of_nodup_map hdistinct (h.known _ hout) (h.known _ hother) hserial

/-- **The store after any run.**  A name has the evaluator that its latest activation returned, and
has none if there is no such activation; what an activation returns is what compiling gives.  The
record of a name holds the name, that evaluator and the time of that activation.  One more
activation fails exactly if compiling does, and then nothing changes.  One more deactivation returns
the record of its name, removes it and leaves the other names alone.  The list of names rises
strictly and holds the active names; it is as long as the store says.

No two activations return the same evaluator, and an evaluator that was handed out keeps its
priorities: whatever calls follow, the evaluator of that number rates every edge as it did. -/
theorem run_follows_latest_activation (calls : List StoreCall) :
    let session := StoreSession.run calls
    let store := session.store
    (∀ name evaluator, store.get? name = some evaluator ↔
      ∃ profile registry now,
        LatestActivation session.events name profile registry now evaluator) ∧
    (∀ name profile registry now evaluator,
      LatestActivation session.events name profile registry now evaluator →
        Model.compile profile.rules registry = .ok evaluator.model) ∧
    (∀ name active, store.activation? name = some active ↔
      active.name = name ∧ store.get? name = some active.evaluator ∧ ∃ profile registry,
        LatestActivation session.events name profile registry active.activatedAt
          active.evaluator) ∧
    (∀ profile registry now,
      (∃ model, Model.compile profile.rules registry = .ok model ∧
        ∃ evaluator,
          (store.perform (.activate profile registry now)).1 = .activated (.ok evaluator) ∧
          evaluator.model = model) ∨
      ∃ error, Model.compile profile.rules registry = .error error ∧
        store.perform (.activate profile registry now) = (.activated (.error error), store)) ∧
    (∀ name, (store.perform (.deactivate name)).1 = .profile (store.activation? name) ∧
      ∀ other, (store.perform (.deactivate name)).2.activation? other =
        if other = name then none else store.activation? other) ∧
    (store.names.Pairwise (fun a b => Text.before a b = true) ∧
      (∀ name, name ∈ store.names ↔ store.contains name = true) ∧
      (∀ name, store.contains name = true ↔ ∃ evaluator, store.get? name = some evaluator) ∧
      store.size = store.names.length ∧ (store.isEmpty = true ↔ store.names = [])) ∧
    ((activatedIn session.events).map Evaluator.serial).Nodup ∧
    ∀ further evaluator other, HandedOut session.events evaluator →
      HandedOut (session.extend further).events other → other.serial = evaluator.serial →
        ∀ edge direction,
          other.model.evaluate edge direction = evaluator.model.evaluate edge direction := by
  intro session store
  have hfaithful : Faithful session := StoreSession.faithful_run calls
  refine ⟨fun _ _ => hfaithful.get?_iff, ?_, ?_, ?_, ?_, ?_, ?_, ?_⟩
  · intro name profile registry now evaluator hlatest
    exact hfaithful.compiled profile registry now evaluator hlatest.mem
  · intro name active
    rw [hfaithful.latest]
    constructor
    · intro h
      obtain ⟨hname, profile, registry, hlatest⟩ := h
      exact ⟨hname, hfaithful.get?_iff.mpr ⟨profile, registry, _, hlatest⟩,
        profile, registry, hlatest⟩
    · intro h
      obtain ⟨hname, -, hlatest⟩ := h
      exact ⟨hname, hlatest⟩
  · intro profile registry now
    cases hcompile : Model.compile profile.rules registry with
    | ok model =>
        exact Or.inl ⟨model, rfl, _,
          congrArg Prod.fst (ProfileStore.perform_activate_of_ok hcompile now), rfl⟩
    | error error => exact Or.inr ⟨error, rfl, ProfileStore.perform_activate_of_error hcompile now⟩
  · intro name
    rw [ProfileStore.perform_deactivate]
    exact ⟨rfl, store.activation?_without name⟩
  · exact ⟨store.names_pairwise, fun _ => ProfileStore.mem_names_iff,
      fun _ => ProfileStore.contains_iff_exists_get?, store.size_eq_length_names,
      ProfileStore.isEmpty_iff⟩
  · rw [hfaithful.numbered]
    exact List.nodup_range
  · intro further evaluator other hout hother hserial edge direction
    have hlater : Faithful (session.extend further) :=
      StoreSession.faithful_extend hfaithful further
    obtain ⟨event, hevent, hhands⟩ := hout
    have hkept : HandedOut (session.extend further).events evaluator :=
      ⟨event, (session.events_prefix_extend further).subset hevent, hhands⟩
    rw [hlater.eq_of_serial_eq hother hkept hserial]

/-- The second activation takes the place of the first, and its removal returns its whole record. -/
example :
    let profile := Profile.ofName "touring"
    let store := (StoreSession.run
      [.activate profile .empty ⟨5⟩, .activate profile .empty ⟨9⟩]).store
    (store.deactivate "touring").1 = some ⟨"touring", ⟨⟨[]⟩, 1⟩, ⟨9⟩⟩ ∧
      store.names = ["touring"] := by
  decide +kernel

end RoutePriority
