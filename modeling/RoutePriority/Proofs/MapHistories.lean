import RoutePriority.Rule.Specification
import Mathlib.Data.List.Induction
import Mathlib.Data.List.Nodup

/-!
# Histories of ordered maps

Rule tables and specifications are ordered maps, and both are made by calls: entries are written,
removed and written again, and everything is cleared.  What a map holds after such calls is said
here on the calls alone.  A key is there if some call writes it and no later one drops it; its value
is the one that the last call concerning it writes; and its place is that of the call that made it
present, a call that writes it while it is not there.

`performAll_follows_history` says that this is what the map lists, in this order.  The key fact is
`madePresent_concat`: one more call makes a key present that was not, or leaves all places as they
are.
-/

namespace RoutePriority

namespace Entries

variable {α : Type}

/-- A removal leaves the other names in their order. -/
theorem names_drop (key : String) (entries : List (String × α)) :
    names (drop key entries) = (names entries).filter (· ≠ key) := by
  rw [names, names, List.filter_map]
  rfl

/-- Under distinct names the entries are what looking them up finds. -/
theorem mem_iff_find?_eq_some {key : String} {value : α} {entries : List (String × α)}
    (h : (names entries).Nodup) : (key, value) ∈ entries ↔ find? key entries = some value := by
  induction entries with
  | nil => simp [find?]
  | cons entry rest ih =>
      obtain ⟨hnew, hrest⟩ := List.nodup_cons.mp h
      rw [List.mem_cons, find?]
      by_cases hkey : entry.1 = key
      · have hother : (key, value) ∉ rest := fun hmem => hnew (hkey ▸ List.mem_map_of_mem hmem)
        simp [hkey, hother, Prod.ext_iff, eq_comm]
      · have hhead : (key, value) ≠ entry := fun heq => hkey (heq ▸ rfl)
        simp [hkey, hhead, ih hrest]

end Entries

/-- A call that changes a map.  `declare` is the form of `insert` for chains of writes, which hands
the map on instead of the value that was there. -/
inductive MapCall (α : Type) where
  | insert (key : String) (value : α)
  | declare (key : String) (value : α)
  | remove (key : String)
  | clear

/-- The answer to such a call: the value that its key had, or nothing. -/
inductive MapAnswer (α : Type) where
  | previous (value : Option α)
  | nothing

namespace OrderedMap

variable {α : Type}

/-- The names that a map lists, in their order. -/
def keys (map : OrderedMap α) : List String := Entries.names map.entries

/-- The answer to a call, and the map after it. -/
def perform (map : OrderedMap α) : MapCall α → MapAnswer α × OrderedMap α
  | .insert key value => (.previous (map.exchange key value).1, (map.exchange key value).2)
  | .declare key value => (.nothing, (map.exchange key value).2)
  | .remove key => (.previous (map.takeOut key).1, (map.takeOut key).2)
  | .clear => (.nothing, empty)

/-- The map after a run of calls. -/
def performAll (map : OrderedMap α) (calls : List (MapCall α)) : OrderedMap α :=
  calls.foldl (fun map call => (map.perform call).2) map

theorem performAll_concat (map : OrderedMap α) (calls : List (MapCall α)) (call : MapCall α) :
    map.performAll (calls ++ [call]) = ((map.performAll calls).perform call).2 :=
  List.foldl_concat _ _ _ _

/-- A key is listed if it has a value. -/
theorem mem_keys_iff {map : OrderedMap α} {key : String} :
    key ∈ map.keys ↔ ∃ value, map.get? key = some value := by
  rw [← Option.isSome_iff_exists, Option.isSome_iff_ne_none, get?, Ne,
    Entries.find?_eq_none_iff, not_not, keys]

/-- A new key comes last, and a known one keeps its place. -/
theorem keys_insert (map : OrderedMap α) (key : String) (value : α) :
    (map.insert key value).keys = if key ∈ map.keys then map.keys else map.keys ++ [key] :=
  Entries.names_put key value map.entries

/-- A removal leaves the other keys in their order. -/
theorem keys_erase (map : OrderedMap α) (key : String) :
    (map.erase key).keys = map.keys.filter (· ≠ key) :=
  Entries.names_drop key map.entries

end OrderedMap

/-! ## What the calls say -/

section Since

variable {β : Type} {P Q : β → Prop} {calls : List β}

/-- A list with one more entry is split at this entry or before it. -/
theorem concat_eq_append_cons_iff {before after : List β} {call last : β} :
    calls ++ [last] = before ++ call :: after ↔
      (calls = before ∧ last = call ∧ after = []) ∨
        ∃ rest, calls = before ++ call :: rest ∧ after = rest ++ [last] := by
  constructor
  · intro h
    rcases after.eq_nil_or_concat with rfl | ⟨rest, final, rfl⟩
    · obtain ⟨hbefore, hlast⟩ := List.append_inj' h rfl
      exact Or.inl ⟨hbefore, List.singleton_inj.mp hlast, rfl⟩
    · rw [List.concat_eq_append, ← List.cons_append, ← List.append_assoc] at h
      obtain ⟨hbefore, hlast⟩ := List.append_inj' h rfl
      rw [List.concat_eq_append, List.singleton_inj.mp hlast]
      exact Or.inr ⟨rest, hbefore, rfl⟩
  · intro hcase
    rcases hcase with ⟨rfl, rfl, rfl⟩ | ⟨rest, rfl, rfl⟩
    · rfl
    · simp

/-- One of the calls is such that `P` holds of it, and `Q` of every call after it. -/
def Since (P Q : β → Prop) (calls : List β) : Prop :=
  ∃ before call after, calls = before ++ call :: after ∧ P call ∧ ∀ later ∈ after, Q later

theorem not_since_nil : ¬ Since P Q [] := by
  intro hcase
  obtain ⟨before, call, after, h, -⟩ := hcase
  simp at h

/-- One more call begins such a stretch, or carries it on. -/
theorem since_concat {call : β} :
    Since P Q (calls ++ [call]) ↔ P call ∨ Since P Q calls ∧ Q call := by
  constructor
  · intro h
    obtain ⟨before, first, after, hsplit, hfirst, hafter⟩ := h
    rcases concat_eq_append_cons_iff.mp hsplit with ⟨-, rfl, -⟩ | ⟨rest, hcalls, rfl⟩
    · exact Or.inl hfirst
    · obtain ⟨hrest, hlast⟩ := List.forall_mem_append.mp hafter
      exact Or.inr ⟨⟨before, first, rest, hcalls, hfirst, hrest⟩,
        hlast call (List.mem_singleton_self call)⟩
  · intro h
    rcases h with hcall | ⟨⟨before, first, rest, hcalls, hfirst, hrest⟩, hcall⟩
    · exact ⟨calls, call, [], rfl, hcall, by simp⟩
    · refine ⟨before, first, rest ++ [call], by simp [hcalls], hfirst, ?_⟩
      exact List.forall_mem_append.mpr ⟨hrest, by simpa using hcall⟩

end Since

namespace MapCall

variable {α : Type}

/-- The call writes the value under the key. -/
def Writes (key : String) (value : α) : MapCall α → Prop
  | insert written new | declare written new => written = key ∧ new = value
  | remove _ | clear => False

/-- After the call the key is not there. -/
def Drops (key : String) : MapCall α → Prop
  | insert _ _ | declare _ _ => False
  | remove removed => removed = key
  | clear => True

end MapCall

variable {α : Type} {calls : List (MapCall α)} {call : MapCall α} {key : String} {value : α}

/-- Some call writes the key, and no later one drops it. -/
def Present (calls : List (MapCall α)) (key : String) : Prop :=
  Since (fun call => ∃ value, call.Writes key value) (fun call => ¬ call.Drops key) calls

/-- The last call that concerns the key writes the value. -/
def LatestWrite (calls : List (MapCall α)) (key : String) (value : α) : Prop :=
  Since (fun call => call.Writes key value)
    (fun call => ¬ call.Drops key ∧ ∀ other, ¬ call.Writes key other) calls

/-- The call after the first `place` calls last made the key present: it writes the key, which was
not there before, and no later call drops it. -/
def MadePresent (calls : List (MapCall α)) (key : String) (place : Nat) : Prop :=
  ∃ before call after, calls = before ++ call :: after ∧ before.length = place ∧
    (∃ value, call.Writes key value) ∧ ¬ Present before key ∧ ∀ later ∈ after, ¬ later.Drops key

/-- One more call makes a key present that was not there, or leaves its place as it is. -/
theorem madePresent_concat {place : Nat} :
    MadePresent (calls ++ [call]) key place ↔
      (place = calls.length ∧ (∃ value, call.Writes key value) ∧ ¬ Present calls key) ∨
        MadePresent calls key place ∧ ¬ call.Drops key := by
  constructor
  · intro h
    obtain ⟨before, first, after, hsplit, hplace, hwrites, habsent, hafter⟩ := h
    rcases concat_eq_append_cons_iff.mp hsplit with ⟨rfl, rfl, -⟩ | ⟨rest, hcalls, rfl⟩
    · exact Or.inl ⟨hplace.symm, hwrites, habsent⟩
    · obtain ⟨hrest, hlast⟩ := List.forall_mem_append.mp hafter
      exact Or.inr ⟨⟨before, first, rest, hcalls, hplace, hwrites, habsent, hrest⟩,
        hlast call (List.mem_singleton_self call)⟩
  · intro h
    rcases h with ⟨rfl, hwrites, habsent⟩ | ⟨⟨before, first, rest, hcalls, hplace, hrest⟩, hcall⟩
    · exact ⟨calls, call, [], rfl, rfl, hwrites, habsent, by simp⟩
    · obtain ⟨hwrites, habsent, hkept⟩ := hrest
      refine ⟨before, first, rest ++ [call], by simp [hcalls], hplace, hwrites, habsent, ?_⟩
      exact List.forall_mem_append.mpr ⟨hkept, by simpa using hcall⟩

theorem not_madePresent_nil {place : Nat} : ¬ MadePresent ([] : List (MapCall α)) key place := by
  intro hcase
  obtain ⟨before, call, after, h, -⟩ := hcase
  simp at h

/-- The places of a run lie before its end. -/
theorem MadePresent.lt_length {place : Nat} (h : MadePresent calls key place) :
    place < calls.length := by
  obtain ⟨before, call, after, rfl, rfl, -⟩ := h
  simp

/-- What is present was made present by some call. -/
theorem present_iff_exists_madePresent :
    Present calls key ↔ ∃ place, MadePresent calls key place := by
  induction calls using List.reverseRecOn with
  | nil => simp [Present, not_since_nil, not_madePresent_nil]
  | append_singleton calls call ih =>
      simp only [madePresent_concat]
      rw [Present, since_concat, ← Present]
      constructor
      · intro h
        rcases h with hwrites | ⟨hpresent, hkept⟩
        · by_cases hpresent : Present calls key
          · obtain ⟨place, hplace⟩ := ih.mp hpresent
            refine ⟨place, Or.inr ⟨hplace, ?_⟩⟩
            obtain ⟨value, hwrites⟩ := hwrites
            cases call <;> simp_all [MapCall.Writes, MapCall.Drops]
          · exact ⟨calls.length, Or.inl ⟨rfl, hwrites, hpresent⟩⟩
        · obtain ⟨place, hplace⟩ := ih.mp hpresent
          exact ⟨place, Or.inr ⟨hplace, hkept⟩⟩
      · intro h
        obtain ⟨place, ⟨-, hwrites, -⟩ | ⟨hplace, hkept⟩⟩ := h
        · exact Or.inl hwrites
        · exact Or.inr ⟨ih.mpr ⟨place, hplace⟩, hkept⟩

/-- A key was made present by one call only. -/
theorem MadePresent.unique {place other : Nat} (h : MadePresent calls key place)
    (h' : MadePresent calls key other) : place = other := by
  induction calls using List.reverseRecOn with
  | nil => exact absurd h not_madePresent_nil
  | append_singleton calls call ih =>
      rcases madePresent_concat.mp h with ⟨hplace, -, habsent⟩ | ⟨hplace, -⟩
      · rcases madePresent_concat.mp h' with ⟨hother, -⟩ | ⟨hother, -⟩
        · rw [hplace, hother]
        · exact absurd (present_iff_exists_madePresent.mpr ⟨other, hother⟩) habsent
      · rcases madePresent_concat.mp h' with ⟨-, -, habsent⟩ | ⟨hother, -⟩
        · exact absurd (present_iff_exists_madePresent.mpr ⟨place, hplace⟩) habsent
        · exact ih hplace hother

/-- What is present has the value of its latest write. -/
theorem present_iff_exists_latestWrite :
    Present calls key ↔ ∃ value, LatestWrite calls key value := by
  induction calls using List.reverseRecOn with
  | nil => simp [Present, LatestWrite, not_since_nil]
  | append_singleton calls call ih =>
      simp only [LatestWrite, since_concat] at ih ⊢
      rw [Present, since_concat, ← Present, ih]
      constructor
      · intro h
        rcases h with ⟨value, hwrites⟩ | ⟨⟨value, hlatest⟩, hkept⟩
        · exact ⟨value, Or.inl hwrites⟩
        · by_cases hwrites : ∃ other, call.Writes key other
          · obtain ⟨other, hwrites⟩ := hwrites
            exact ⟨other, Or.inl hwrites⟩
          · exact ⟨value, Or.inr ⟨hlatest, hkept, not_exists.mp hwrites⟩⟩
      · intro h
        obtain ⟨value, hwrites | ⟨hlatest, hkept, -⟩⟩ := h
        · exact Or.inl ⟨value, hwrites⟩
        · exact Or.inr ⟨⟨value, hlatest⟩, hkept⟩

/-! ## What the map lists -/

/-- What holds of a map after every call of a run. -/
structure FollowsHistory (calls : List (MapCall α)) (map : OrderedMap α) : Prop where
  /-- A key has the value of its latest write. -/
  value : ∀ key value, map.get? key = some value ↔ LatestWrite calls key value
  /-- A key is listed before another only if it was made present before it. -/
  order : map.keys.Pairwise fun a b =>
    ∀ i j, MadePresent calls a i → MadePresent calls b j → i < j

namespace FollowsHistory

variable {map : OrderedMap α}

/-- A key is listed if the history leaves it present. -/
theorem mem_keys_iff (h : FollowsHistory calls map) : key ∈ map.keys ↔ Present calls key := by
  rw [OrderedMap.mem_keys_iff, present_iff_exists_latestWrite]
  simp only [h.value]

/-- An empty map follows the empty history. -/
theorem new : FollowsHistory [] (.empty : OrderedMap α) where
  value := by
    intro key value
    simp [LatestWrite, not_since_nil, OrderedMap.empty, OrderedMap.get?, Entries.find?]
  order := List.Pairwise.nil

/-- Places that a call leaves as they are stay in their order. -/
theorem order_of_kept {keys : List String}
    (horder : keys.Pairwise fun a b =>
      ∀ i j, MadePresent calls a i → MadePresent calls b j → i < j)
    (hkept : ∀ a ∈ keys, ∀ i, MadePresent (calls ++ [call]) a i → MadePresent calls a i) :
    keys.Pairwise fun a b =>
      ∀ i j, MadePresent (calls ++ [call]) a i → MadePresent (calls ++ [call]) b j → i < j :=
  horder.imp_of_mem fun {a b} ha hb hab i j hi hj => hab i j (hkept a ha i hi) (hkept b hb j hj)

/-- A call that writes a key keeps the law: a key that is present stays where it is, and a new one
comes last. -/
theorem inserted (h : FollowsHistory calls map)
    (hwrites : ∀ other found, call.Writes other found ↔ key = other ∧ value = found)
    (hkeeps : ∀ other, ¬ call.Drops other) :
    FollowsHistory (calls ++ [call]) (map.insert key value) where
  value := by
    intro other found
    rw [OrderedMap.get?_insert, LatestWrite, since_concat, ← LatestWrite, ← h.value, hwrites]
    by_cases hother : other = key
    · simp [hother, hwrites]
    · have hne : ¬ key = other := fun heq => hother heq.symm
      simp [hother, hne, hwrites, hkeeps]
  order := by
    rw [OrderedMap.keys_insert]
    by_cases hkey : key ∈ map.keys
    · rw [if_pos hkey]
      refine order_of_kept h.order fun a ha i hi => ?_
      rcases madePresent_concat.mp hi with ⟨-, -, habsent⟩ | ⟨hplace, -⟩
      · exact absurd (h.mem_keys_iff.mp ha) habsent
      · exact hplace
    · rw [if_neg hkey, List.pairwise_append]
      have hearlier : ∀ a ∈ map.keys, ∀ i, MadePresent (calls ++ [call]) a i →
          MadePresent calls a i := by
        intro a ha i hi
        rcases madePresent_concat.mp hi with ⟨-, -, habsent⟩ | ⟨hplace, -⟩
        · exact absurd (h.mem_keys_iff.mp ha) habsent
        · exact hplace
      refine ⟨order_of_kept h.order hearlier, List.pairwise_singleton _ _, ?_⟩
      intro a ha b hb i j hi hj
      rw [List.mem_singleton.mp hb] at hj
      rcases madePresent_concat.mp hj with ⟨rfl, -⟩ | ⟨hplace, -⟩
      · exact (hearlier a ha i hi).lt_length
      · have hpresent := present_iff_exists_madePresent.mpr ⟨j, hplace⟩
        exact absurd (h.mem_keys_iff.mpr hpresent) hkey

/-- A removal keeps the law: its key is gone, and the others keep their order. -/
theorem removed (h : FollowsHistory calls map) (key : String) :
    FollowsHistory (calls ++ [.remove key]) (map.erase key) where
  value := by
    intro other found
    rw [OrderedMap.get?_erase, LatestWrite, since_concat, ← LatestWrite, ← h.value]
    by_cases hother : other = key
    · simp [hother, MapCall.Writes, MapCall.Drops]
    · have hne : ¬ key = other := fun heq => hother heq.symm
      simp [hother, hne, MapCall.Writes, MapCall.Drops]
  order := by
    rw [OrderedMap.keys_erase]
    refine order_of_kept (h.order.filter _) fun a _ i hi => ?_
    rcases madePresent_concat.mp hi with ⟨-, ⟨value, hwrites⟩, -⟩ | ⟨hplace, -⟩
    · exact hwrites.elim
    · exact hplace

/-- After clearing, the history begins anew. -/
theorem cleared : FollowsHistory (calls ++ [.clear]) (.empty : OrderedMap α) where
  value := by
    intro key value
    rw [LatestWrite, since_concat]
    simp [MapCall.Writes, MapCall.Drops, OrderedMap.empty, OrderedMap.get?, Entries.find?]
  order := List.Pairwise.nil

/-- One call more. -/
theorem perform (h : FollowsHistory calls map) (call : MapCall α) :
    FollowsHistory (calls ++ [call]) (map.perform call).2 := by
  cases call with
  | insert key value | declare key value =>
      rw [OrderedMap.perform, OrderedMap.exchange_eq]
      exact h.inserted (fun _ _ => Iff.rfl) (fun _ => id)
  | remove key =>
      rw [OrderedMap.perform, OrderedMap.takeOut_eq]
      exact h.removed key
  | clear => exact cleared

/-- Every run follows its history, one call at a time. -/
theorem performAll (calls : List (MapCall α)) :
    FollowsHistory calls (OrderedMap.empty.performAll calls) := by
  induction calls using List.reverseRecOn with
  | nil => exact new
  | append_singleton calls call ih =>
      rw [OrderedMap.performAll_concat]
      exact ih.perform call

end FollowsHistory

/-- Of two different entries of a list one comes before the other. -/
theorem pair_sublist_or {β : Type} {a b : β} {entries : List β} (ha : a ∈ entries)
    (hb : b ∈ entries) (hne : a ≠ b) : [a, b].Sublist entries ∨ [b, a].Sublist entries := by
  induction entries with
  | nil => cases ha
  | cons entry rest ih =>
      rcases List.mem_cons.mp ha with rfl | ha'
      · have hb' : b ∈ rest := (List.mem_cons.mp hb).resolve_left hne.symm
        exact Or.inl (List.Sublist.cons_cons a (List.singleton_sublist.mpr hb'))
      · rcases List.mem_cons.mp hb with rfl | hb'
        · exact Or.inr (List.Sublist.cons_cons b (List.singleton_sublist.mpr ha'))
        · exact (ih ha' hb').imp (List.Sublist.cons entry) (List.Sublist.cons entry)

/-- Two keys are listed one before the other if they were made present so. -/
theorem FollowsHistory.pair_sublist_iff {map : OrderedMap α} (h : FollowsHistory calls map)
    {a b : String} : [a, b].Sublist map.keys ↔
      ∃ i j, i < j ∧ MadePresent calls a i ∧ MadePresent calls b j := by
  have hbefore : ∀ {a b : String}, [a, b].Sublist map.keys → ∀ i j,
      MadePresent calls a i → MadePresent calls b j → i < j := fun hlisted =>
    List.rel_of_pairwise_cons (h.order.sublist hlisted) (List.mem_singleton_self _)
  constructor
  · intro hlisted
    have ha : a ∈ map.keys := hlisted.subset (by simp)
    have hb : b ∈ map.keys := hlisted.subset (by simp)
    obtain ⟨i, hi⟩ := present_iff_exists_madePresent.mp (h.mem_keys_iff.mp ha)
    obtain ⟨j, hj⟩ := present_iff_exists_madePresent.mp (h.mem_keys_iff.mp hb)
    exact ⟨i, j, hbefore hlisted i j hi hj, hi, hj⟩
  · intro hcase
    obtain ⟨i, j, hlt, hi, hj⟩ := hcase
    have ha := h.mem_keys_iff.mpr (present_iff_exists_madePresent.mpr ⟨i, hi⟩)
    have hb := h.mem_keys_iff.mpr (present_iff_exists_madePresent.mpr ⟨j, hj⟩)
    have hne : a ≠ b := by
      intro hcase
      obtain rfl := hcase
      exact Nat.ne_of_lt hlt (hi.unique hj)
    refine (pair_sublist_or ha hb hne).resolve_right fun hlisted => ?_
    exact Nat.lt_asymm hlt (hbefore hlisted j i hj hi)

/-- **A map lists the history of its calls.**  After any run of calls on an empty map the present
keys are listed, each once, in the order in which they were last made present, and each with the
value of its latest write; looking a key up finds this value, and nothing if the key is not listed.
A further insertion or removal answers with the value that the key has until then, and a removal
leaves the other keys in their order.  The size of the map is the number of its keys. -/
theorem performAll_follows_history (calls : List (MapCall α)) :
    let map := OrderedMap.empty.performAll calls
    (map.keys.Nodup ∧ ∀ key, key ∈ map.keys ↔ Present calls key) ∧
    (∀ a b, [a, b].Sublist map.keys ↔
      ∃ i j, i < j ∧ MadePresent calls a i ∧ MadePresent calls b j) ∧
    (∀ key value, (key, value) ∈ map.entries ↔ LatestWrite calls key value) ∧
    (∀ key value, map.get? key = some value ↔ LatestWrite calls key value) ∧
    (∀ key, map.get? key = none ↔ key ∉ map.keys) ∧
    (∀ key value, (map.perform (.insert key value)).1 = .previous (map.get? key)) ∧
    (∀ key, (map.perform (.remove key)).1 = .previous (map.get? key) ∧
      (map.perform (.remove key)).2.keys = map.keys.filter (· ≠ key)) ∧
    map.size = map.keys.length ∧ (map.isEmpty = true ↔ map.size = 0) := by
  intro map
  have h : FollowsHistory calls map := FollowsHistory.performAll calls
  refine ⟨⟨map.nodup_names, fun _ => h.mem_keys_iff⟩, fun _ _ => h.pair_sublist_iff, ?_, h.value,
    fun key => Entries.find?_eq_none_iff key map.entries, ?_, ?_, ?_, ?_⟩
  · intro key value
    rw [Entries.mem_iff_find?_eq_some map.nodup_names]
    exact h.value key value
  · intro key value
    rw [OrderedMap.perform, OrderedMap.exchange_eq]
  · intro key
    rw [OrderedMap.perform, OrderedMap.takeOut_eq]
    exact ⟨rfl, map.keys_erase key⟩
  · rw [OrderedMap.keys, Entries.names, List.length_map]
    rfl
  · exact List.isEmpty_iff_length_eq_zero

/-- Written again, a key stays where it is; removed and written again, it goes to the end. -/
example : (OrderedMap.empty.performAll [.insert "a" 1, .declare "b" 2, .insert "a" 3, .remove "b",
    .insert "c" 4, .insert "b" 5]).entries = [("a", 3), ("c", 4), ("b", 5)] := by
  decide

end RoutePriority
