import Mathlib.Data.List.AList
import Mathlib.Data.List.Perm.Basic
import Mathlib.Data.List.Perm.Subperm

/-!
# Finite maps

A concurrent or hashed map whose iteration order is never observed is an
association list with unique keys.  Lookup, insertion and erasure are those of
`AList`; this module adds the size of a map and the enumeration of the values
whose keys satisfy a test.
-/

namespace SpecMock.Library

/-- Finite maps from `κ` to `α`: unordered, with unique keys. -/
abbrev FiniteMap (κ α : Type) := AList fun _ : κ => α

namespace FiniteMap

variable {κ α : Type}

/-- Number of keys. -/
def size (map : FiniteMap κ α) : Nat := map.entries.length

/-- Values of the entries whose key satisfies `test`. -/
def valuesWhere (map : FiniteMap κ α) (test : κ → Bool) : List α :=
  (map.entries.filter fun entry => test entry.1).map Sigma.snd

/-- Change every value, keeping the keys. -/
def mapValues {β : Type} (change : α → β) (map : FiniteMap κ α) : FiniteMap κ β where
  entries := map.entries.map fun entry => ⟨entry.1, change entry.2⟩
  nodupKeys := by
    have unique := map.nodupKeys
    unfold List.NodupKeys List.keys at *
    rwa [List.map_map]

@[simp]
theorem size_empty : size (∅ : FiniteMap κ α) = 0 := rfl

theorem size_eq_length_keys (map : FiniteMap κ α) : size map = map.keys.length := by
  simp [size, AList.keys, List.keys]

@[simp]
theorem size_mapValues {β : Type} (change : α → β) (map : FiniteMap κ α) :
    size (mapValues change map) = size map := by
  simp [size, mapValues]

/-- A map without keys outside a list is no larger than the list. -/
theorem size_le_length {map : FiniteMap κ α} {keys : List κ} (included : ∀ key ∈ map, key ∈ keys) :
    size map ≤ keys.length := by
  rw [size_eq_length_keys]
  exact (List.subperm_of_subset map.keys_nodup included).length_le

/-- A map with all the keys of a list is at least as large. -/
theorem length_le_size {map : FiniteMap κ α} {keys : List κ} (distinct : keys.Nodup)
    (included : ∀ key ∈ keys, key ∈ map) : keys.length ≤ size map := by
  rw [size_eq_length_keys]
  exact (List.subperm_of_subset distinct included).length_le

/-- A map with no other keys than another is no larger. -/
theorem size_le_of_subset {β : Type} {map : FiniteMap κ α} {other : FiniteMap κ β}
    (included : ∀ key ∈ map, key ∈ other) : size map ≤ size other := by
  rw [size_eq_length_keys other]
  exact size_le_length included

/-- A map that has a key beside all those of another is larger. -/
theorem size_lt_of_keys {β : Type} {map : FiniteMap κ α} {other : FiniteMap κ β} {extra : κ}
    (included : ∀ key ∈ other, key ∈ map) (present : extra ∈ map) (absent : extra ∉ other) :
    size other < size map := by
  have distinct : (extra :: other.keys).Nodup := List.nodup_cons.mpr ⟨absent, other.keys_nodup⟩
  have subset : extra :: other.keys ⊆ map.keys := by
    intro key member
    rcases List.mem_cons.mp member with rfl | there
    · exact present
    · exact included key there
  have fewer := length_le_size distinct subset
  rwa [List.length_cons, ← size_eq_length_keys] at fewer

/-- A map has at most one key more than another that has all its keys but one. -/
theorem size_le_of_keys {β : Type} {map : FiniteMap κ α} {other : FiniteMap κ β} (extra : κ)
    (included : ∀ key ∈ map, key = extra ∨ key ∈ other) : size map ≤ size other + 1 := by
  have subset : map.keys ⊆ extra :: other.keys := by
    intro key member
    exact List.mem_cons.mpr (included key member)
  have fewer := size_le_length subset
  rwa [List.length_cons, ← size_eq_length_keys] at fewer

variable [DecidableEq κ]

theorem lookup_insert_eq (map : FiniteMap κ α) (key query : κ) (value : α) :
    (map.insert key value).lookup query =
      if query = key then some value else map.lookup query := by
  by_cases same : query = key
  · subst same
    simp
  · simp [same, AList.lookup_insert_ne same]

theorem lookup_erase_eq (map : FiniteMap κ α) (key query : κ) :
    (map.erase key).lookup query =
      if query = key then none else map.lookup query := by
  by_cases same : query = key
  · subst same
    simp
  · simp [same, AList.lookup_erase_ne same]

theorem lookup_mapValues {β : Type} (change : α → β) (map : FiniteMap κ α) (key : κ) :
    (mapValues change map).lookup key = (map.lookup key).map change := by
  unfold AList.lookup mapValues
  dsimp only
  induction map.entries with
  | nil => rfl
  | cons entry rest ih =>
      obtain ⟨first, held⟩ := entry
      by_cases same : first = key
      · subst same
        simp
      · rw [List.map_cons, List.dlookup_cons_ne _ _ (Ne.symm same),
          List.dlookup_cons_ne _ _ (Ne.symm same), ih]

theorem mapValues_insert_of_absent {β : Type} (change : α → β) {map : FiniteMap κ α} {key : κ}
    (value : α) (absent : map.lookup key = none) :
    mapValues change (map.insert key value) =
      (mapValues change map).insert key (change value) := by
  have missing : key ∉ map := AList.lookup_eq_none.mp absent
  have missing' : key ∉ mapValues change map := by
    rw [← AList.lookup_eq_none, lookup_mapValues, absent]
    rfl
  apply AList.ext
  rw [AList.entries_insert_of_notMem missing']
  unfold mapValues
  dsimp only
  rw [AList.entries_insert_of_notMem missing]
  rfl

/-- Inserting at an absent key adds one entry. -/
theorem size_insert_of_absent {map : FiniteMap κ α} {key : κ} (value : α)
    (absent : map.lookup key = none) :
    size (map.insert key value) = size map + 1 := by
  have missing : key ∉ map := AList.lookup_eq_none.mp absent
  rw [size, AList.entries_insert_of_notMem missing]
  rfl

/-- Erasing a present key removes one entry. -/
theorem size_erase_of_present {map : FiniteMap κ α} {key : κ} {value : α}
    (present : map.lookup key = some value) :
    size (map.erase key) + 1 = size map := by
  have member : key ∈ map.keys :=
    AList.mem_keys.mp (AList.lookup_isSome.mp (by simp [present]))
  rw [size_eq_length_keys, size_eq_length_keys, AList.keys_erase,
    List.length_erase_of_mem member]
  have positive : 0 < map.keys.length := List.length_pos_of_mem member
  omega

theorem size_erase_le (map : FiniteMap κ α) (key : κ) : size (map.erase key) ≤ size map := by
  rw [size_eq_length_keys, size_eq_length_keys, AList.keys_erase]
  exact List.length_erase_le

/-- Overwriting a present key keeps the size. -/
theorem size_insert_of_present {map : FiniteMap κ α} {key : κ} {value : α}
    (fresh : α) (present : map.lookup key = some value) :
    size (map.insert key fresh) = size map := by
  have member : key ∈ map.keys :=
    AList.mem_keys.mp (AList.lookup_isSome.mp (by simp [present]))
  rw [size_eq_length_keys, size_eq_length_keys, AList.keys_insert,
    List.length_cons, List.length_erase_of_mem member]
  have positive : 0 < map.keys.length := List.length_pos_of_mem member
  omega

/-- Looking up the keys of a map that pass a test enumerates their values. -/
theorem filterMap_lookup_keys (map : FiniteMap κ α) (test : κ → Bool) :
    (map.keys.filter test).filterMap map.lookup = valuesWhere map test := by
  have found : ∀ entry ∈ map.entries.filter (fun entry => test entry.1),
      map.lookup entry.1 = some entry.2 := by
    intro entry member
    exact AList.mem_lookup_iff.mpr (List.mem_filter.mp member).1
  have keyed : map.keys.filter test =
      (map.entries.filter fun entry => test entry.1).map Sigma.fst := by
    simp only [AList.keys, List.keys, List.filter_map]
    rfl
  rw [keyed, List.filterMap_map, valuesWhere, ← List.filterMap_eq_map]
  exact List.filterMap_congr found

/--
An index that holds every live key passing the test exactly once, and no live
key failing it, lists exactly the values of those keys.
-/
theorem filterMap_lookup_perm (map : FiniteMap κ α) (test : κ → Bool)
    (index : List κ)
    (once : ∀ key ∈ map, test key = true → index.count key = 1)
    (only : ∀ key ∈ index, test key = true) :
    (index.filterMap map.lookup).Perm (valuesWhere map test) := by
  have live : index.filterMap map.lookup =
      (index.filter fun key => (map.lookup key).isSome).filterMap map.lookup := by
    rw [List.filterMap_filter]
    apply List.filterMap_congr
    intro key _
    cases map.lookup key <;> simp
  have nodupLive : (index.filter fun key => (map.lookup key).isSome).Nodup := by
    rw [List.nodup_iff_count_le_one]
    intro key
    by_cases present : (map.lookup key).isSome = true
    · rw [List.count_filter (p := fun key => (map.lookup key).isSome) present]
      by_cases member : key ∈ index
      · exact Nat.le_of_eq (once key (AList.lookup_isSome.mp present) (only key member))
      · simp [List.count_eq_zero_of_not_mem member]
    · rw [List.count_eq_zero_of_not_mem]
      · exact Nat.zero_le 1
      · simp [present]
  have nodupKeys : (map.keys.filter test).Nodup := map.keys_nodup.filter _
  rw [live, ← filterMap_lookup_keys]
  apply List.Perm.filterMap _
  rw [List.perm_ext_iff_of_nodup nodupLive nodupKeys]
  intro key
  simp only [List.mem_filter, AList.lookup_isSome, ← AList.mem_keys]
  constructor
  · rintro ⟨member, present⟩
    exact ⟨present, only key member⟩
  · rintro ⟨present, passes⟩
    have counted := once key present passes
    exact ⟨List.count_pos_iff.mp (by omega), present⟩

end FiniteMap

end SpecMock.Library
