import RoutePriority.Text.Distinct

/-!
# Ordered maps

Profiles are read first to last: the rules of an attribute are tried in the order in which they
were declared, and attributes are compiled in theirs.  An `OrderedMap` is a finite map from names
that keeps this order.  Writing to a name that is present replaces its value and leaves it where it
is; a new name goes to the end; removing a name closes the gap.

The entries hold every name once, and the type carries that fact.  What a look-up sees after a write
or a removal is said by `get?_insert` and `get?_erase`, and `ofList_eq_insertAll` says that a list
of entries is read as writing them one after the other.

Writing and removing answer with the value that was there: `exchange` and `takeOut` walk over the
entries once and do both.  `insert` and `erase` are the maps that they leave (`exchange_eq`,
`takeOut_eq`).
-/

namespace RoutePriority

namespace Entries

variable {α : Type}

/-- The names of a list of entries. -/
abbrev names (entries : List (String × α)) : List String := entries.map Prod.fst

/-- The entries with `key` set to `value`: in its place if it is there, else at the end. -/
def put (key : String) (value : α) : List (String × α) → List (String × α)
  | [] => [(key, value)]
  | entry :: rest => if entry.1 = key then (key, value) :: rest else entry :: put key value rest

/-- A new key comes last, and a known one keeps its place. -/
theorem names_put (key : String) (value : α) (entries : List (String × α)) :
    names (put key value entries) =
      if key ∈ names entries then names entries else names entries ++ [key] := by
  induction entries with
  | nil => simp [put]
  | cons entry rest ih =>
    by_cases h : entry.1 = key
    · simp [put, h]
    · have h' : ¬ key = entry.1 := fun e => h e.symm
      by_cases hm : key ∈ names rest <;> simp_all [put]

/-- A new entry comes last. -/
theorem put_of_notMem {key : String} {value : α} {entries : List (String × α)}
    (h : key ∉ names entries) : put key value entries = entries ++ [(key, value)] := by
  induction entries with
  | nil => rfl
  | cons entry rest ih =>
    simp only [names, List.map_cons, List.mem_cons, not_or] at h
    simp [put, Ne.symm h.1, ih h.2]

/-- No name is listed twice after an insertion, if none was before. -/
theorem nodup_names_put {key : String} {value : α} {entries : List (String × α)}
    (h : (names entries).Nodup) : (names (put key value entries)).Nodup := by
  rw [names_put]
  split
  · exact h
  · exact List.nodup_append.2 ⟨h, by simp, by grind⟩

/-- The value of the first entry under `key`. -/
def find? (key : String) : List (String × α) → Option α
  | [] => none
  | entry :: rest => if entry.1 = key then some entry.2 else find? key rest

/-- The entries without the one under `key`. -/
def drop (key : String) (entries : List (String × α)) : List (String × α) :=
  entries.filter (·.1 ≠ key)

/-- No name is listed twice after a removal, if none was before. -/
theorem nodup_names_drop {key : String} {entries : List (String × α)}
    (h : (names entries).Nodup) : (names (drop key entries)).Nodup :=
  (List.filter_sublist.map Prod.fst).nodup h

/-- After an insertion its key has the new value, and the others have theirs. -/
theorem find?_put (key other : String) (value : α) (entries : List (String × α)) :
    find? other (put key value entries) =
      if other = key then some value else find? other entries := by
  induction entries with
  | nil => simp [put, find?, eq_comm]
  | cons entry rest ih =>
    by_cases h : entry.1 = key
    · subst h
      by_cases ho : other = entry.1 <;> simp [put, find?, ho, Ne.symm]
    · by_cases ho : entry.1 = other
      · subst ho
        simp [put, find?, h]
      · simp [put, find?, h, ho, ih]

theorem drop_cons (key : String) (entry : String × α) (entries : List (String × α)) :
    drop key (entry :: entries) =
      if entry.1 = key then drop key entries else entry :: drop key entries := by
  by_cases h : entry.1 = key <;> simp [drop, h]

/-- After a removal its key has no value, and the others have theirs. -/
theorem find?_drop (key other : String) (entries : List (String × α)) :
    find? other (drop key entries) = if other = key then none else find? other entries := by
  induction entries with
  | nil => simp [drop, find?]
  | cons entry rest ih =>
    rw [drop_cons]
    by_cases h : entry.1 = key
    · by_cases ho : other = key
      · subst ho
        simpa [h] using ih
      · simp [h, ih, ho, find?, Ne.symm ho]
    · by_cases ho : entry.1 = other
      · subst ho
        simp [find?, h]
      · simp [find?, h, ih, ho]

/-- A key without a value is one that is not listed. -/
theorem find?_eq_none_iff (key : String) (entries : List (String × α)) :
    find? key entries = none ↔ key ∉ names entries := by
  induction entries with
  | nil => simp [find?]
  | cons entry rest ih =>
    by_cases h : entry.1 = key
    · simp [find?, h]
    · simp [find?, h, ih, Ne.symm h]

/-- Dropping a name that is not listed changes nothing. -/
theorem drop_of_notMem {key : String} {entries : List (String × α)} (h : key ∉ names entries) :
    drop key entries = entries := by
  refine List.filter_eq_self.mpr fun entry hentry => ?_
  have hne : entry.1 ≠ key := fun heq => h (heq ▸ List.mem_map_of_mem hentry)
  exact decide_eq_true hne

/-- The entries with the value of `key` replaced in its place, or else with a new entry at the end,
and the value that was there before. -/
def exchange (key : String) (value : α) : List (String × α) → Option α × List (String × α)
  | [] => (none, [(key, value)])
  | entry :: rest =>
    if entry.1 = key then (some entry.2, (key, value) :: rest)
    else
      let (previous, exchanged) := exchange key value rest
      (previous, entry :: exchanged)

/-- The value of the first entry under `key`, taken out, and the entries that are left. -/
def take (key : String) : List (String × α) → Option α × List (String × α)
  | [] => (none, [])
  | entry :: rest =>
    if entry.1 = key then (some entry.2, rest)
    else
      let (taken, left) := take key rest
      (taken, entry :: left)

/-- Exchanging a value finds the old one and puts the new one. -/
theorem exchange_eq (key : String) (value : α) (entries : List (String × α)) :
    exchange key value entries = (find? key entries, put key value entries) := by
  induction entries with
  | nil => rfl
  | cons entry rest ih =>
    rw [exchange, find?, put]
    by_cases hkey : entry.1 = key
    · rw [if_pos hkey, if_pos hkey, if_pos hkey]
    · rw [if_neg hkey, if_neg hkey, if_neg hkey, ih]

/-- Taking an entry out finds its value and drops it. -/
theorem take_eq (key : String) {entries : List (String × α)} (h : (names entries).Nodup) :
    take key entries = (find? key entries, drop key entries) := by
  induction entries with
  | nil => rfl
  | cons entry rest ih =>
    obtain ⟨hnew, hrest⟩ := List.nodup_cons.mp h
    rw [take, find?, drop_cons]
    by_cases hkey : entry.1 = key
    · rw [if_pos hkey, if_pos hkey, if_pos hkey, drop_of_notMem (hkey ▸ hnew)]
    · rw [if_neg hkey, if_neg hkey, if_neg hkey, ih hrest]

end Entries

/-- A finite map from names to values that remembers the order of its names. -/
structure OrderedMap (α : Type) where
  entries : List (String × α)
  nodup_names : (Entries.names entries).Nodup

namespace OrderedMap

variable {α : Type}

@[ext]
theorem ext {left right : OrderedMap α} (h : left.entries = right.entries) : left = right := by
  cases left
  cases right
  simp_all

/-- The map without entries. -/
def empty : OrderedMap α := ⟨[], by simp⟩

instance : Inhabited (OrderedMap α) := ⟨empty⟩

/-- The map with `key` set to `value`. -/
def insert (map : OrderedMap α) (key : String) (value : α) : OrderedMap α :=
  ⟨Entries.put key value map.entries, Entries.nodup_names_put map.nodup_names⟩

/-- The value under `key`. -/
def get? (map : OrderedMap α) (key : String) : Option α := Entries.find? key map.entries

/-- The map without `key`; the other entries keep their order. -/
def erase (map : OrderedMap α) (key : String) : OrderedMap α :=
  ⟨Entries.drop key map.entries, Entries.nodup_names_drop map.nodup_names⟩

/-- Writes an entry, and answers with the value that was there. -/
def exchange (map : OrderedMap α) (key : String) (value : α) : Option α × OrderedMap α :=
  ((Entries.exchange key value map.entries).1, ⟨(Entries.exchange key value map.entries).2, by
    rw [Entries.exchange_eq]
    exact Entries.nodup_names_put map.nodup_names⟩)

/-- Takes an entry out, and answers with its value. -/
def takeOut (map : OrderedMap α) (key : String) : Option α × OrderedMap α :=
  ((Entries.take key map.entries).1, ⟨(Entries.take key map.entries).2, by
    rw [Entries.take_eq key map.nodup_names]
    exact Entries.nodup_names_drop map.nodup_names⟩)

/-- Exchanging answers with what was there and leaves the map with the new value. -/
theorem exchange_eq (map : OrderedMap α) (key : String) (value : α) :
    map.exchange key value = (map.get? key, map.insert key value) := by
  obtain ⟨hfound, hentries⟩ := Prod.ext_iff.mp (Entries.exchange_eq key value map.entries)
  exact Prod.ext hfound (ext hentries)

/-- Taking out answers with what was there and leaves the map without it. -/
theorem takeOut_eq (map : OrderedMap α) (key : String) :
    map.takeOut key = (map.get? key, map.erase key) := by
  obtain ⟨hfound, hentries⟩ := Prod.ext_iff.mp (Entries.take_eq key map.nodup_names)
  exact Prod.ext hfound (ext hentries)

/-- An insertion changes the value of its key only. -/
theorem get?_insert (map : OrderedMap α) (key other : String) (value : α) :
    (map.insert key value).get? other = if other = key then some value else map.get? other :=
  Entries.find?_put key other value map.entries

/-- A removal takes the value of its key only. -/
theorem get?_erase (map : OrderedMap α) (key other : String) :
    (map.erase key).get? other = if other = key then none else map.get? other :=
  Entries.find?_drop key other map.entries

/-- The number of entries. -/
def size (map : OrderedMap α) : Nat := map.entries.length

/-- Whether there are no entries. -/
def isEmpty (map : OrderedMap α) : Bool := map.entries.isEmpty

/-- The map with the entries written to it one after the other. -/
def insertAll (map : OrderedMap α) (entries : List (String × α)) : OrderedMap α :=
  entries.foldl (fun map entry => map.insert entry.1 entry.2) map

/-- The map that the entries give when they are written one after the other.  Entries with distinct
names are a map as they stand. -/
def ofList (entries : List (String × α)) : OrderedMap α :=
  if distinct : Text.firstRepeat? (Entries.names entries) = none then
    ⟨entries, (Text.firstRepeat?_eq_none_iff _).1 distinct⟩
  else empty.insertAll entries

/-- Entries with new and distinct names are appended as they stand. -/
theorem entries_insertAll_of_nodup (entries : List (String × α)) (map : OrderedMap α)
    (h : (Entries.names (map.entries ++ entries)).Nodup) :
    (map.insertAll entries).entries = map.entries ++ entries := by
  induction entries generalizing map with
  | nil => simp [insertAll]
  | cons entry rest ih =>
    have fresh : entry.1 ∉ Entries.names map.entries := by
      simp only [Entries.names, List.map_append, List.map_cons, List.nodup_append] at h
      grind
    have written : (map.insert entry.1 entry.2).entries = map.entries ++ [entry] :=
      Entries.put_of_notMem fresh
    have := ih (map.insert entry.1 entry.2) (by rw [written]; simpa using h)
    simpa [insertAll, written] using this

/-- A map is built from a list by inserting the entries one after another. -/
theorem ofList_eq_insertAll (entries : List (String × α)) :
    ofList entries = empty.insertAll entries := by
  unfold ofList
  split
  · rename_i distinct
    refine ext (entries_insertAll_of_nodup entries empty ?_).symm
    exact (Text.firstRepeat?_eq_none_iff _).1 distinct
  · rfl

/-- Whether two maps hold the same names with values that `same` relates; the order of the names
does not count. -/
def equal (same : α → α → Bool) (left right : OrderedMap α) : Bool :=
  left.size == right.size &&
    left.entries.all fun entry => (right.get? entry.1).any (same entry.2)

end OrderedMap

end RoutePriority
