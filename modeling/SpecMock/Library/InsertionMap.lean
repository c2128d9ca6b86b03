import Mathlib.Data.List.Basic
import Mathlib.Data.List.Nodup

/-!
# Insertion-ordered maps

A map that remembers the order in which its keys were created.  A created key
goes last, a replaced value keeps the place of its key, and a removed key
leaves no trace, so creating it again puts it last.
-/

namespace SpecMock.Library

/-- Entries with unique keys, in the order of creation. -/
structure InsertionMap (κ α : Type) where
  items : List (κ × α)
  unique : (items.map Prod.fst).Nodup

namespace InsertionMap

variable {κ α : Type}

def empty : InsertionMap κ α := ⟨[], List.nodup_nil⟩

def size (map : InsertionMap κ α) : Nat := map.items.length

/-- Keys that satisfy `test`, in the order of creation. -/
def keysWhere (map : InsertionMap κ α) (test : κ → Bool) : List κ :=
  (map.items.filter fun item => test item.1).map Prod.fst

/-- Values whose keys satisfy `test`, in the order of creation. -/
def valuesWhere (map : InsertionMap κ α) (test : κ → Bool) : List α :=
  (map.items.filter fun item => test item.1).map Prod.snd

theorem nodup_keysWhere (map : InsertionMap κ α) (test : κ → Bool) : (map.keysWhere test).Nodup :=
  map.unique.sublist ((List.filter_sublist).map _)

variable [DecidableEq κ]

def get (map : InsertionMap κ α) (key : κ) : Option α := map.items.lookup key

theorem get_eq_none_iff {map : InsertionMap κ α} {key : κ} :
    map.get key = none ↔ key ∉ map.items.map Prod.fst := by
  simp only [get, List.lookup_eq_none_iff, List.mem_map]
  constructor
  · rintro absent ⟨item, member, rfl⟩
    simpa using absent item member
  · intro absent item member
    have differs : key ≠ item.1 := fun same => absent ⟨item, member, same.symm⟩
    simpa using differs

theorem get_isSome_iff {map : InsertionMap κ α} {key : κ} :
    (map.get key).isSome = true ↔ key ∈ map.items.map Prod.fst := by
  rw [← not_iff_not, ← get_eq_none_iff]
  cases map.get key <;> simp

/-- Every item is the one its key is looked up to. -/
theorem get_of_mem {map : InsertionMap κ α} {item : κ × α} (member : item ∈ map.items) :
    map.get item.1 = some item.2 := by
  obtain ⟨before, after, split⟩ := List.append_of_mem member
  refine List.lookup_eq_some_iff.mpr ⟨before, after, split, ?_⟩
  intro earlier there
  have unique := map.unique
  rw [split, List.map_append, List.nodup_append] at unique
  have differs := unique.2.2 earlier.1 (List.mem_map_of_mem there) item.1 (by simp)
  simpa using Ne.symm differs

/-- Add a key that is not there yet; a key already there is left alone. -/
def create (map : InsertionMap κ α) (key : κ) (value : α) : InsertionMap κ α :=
  if absent : map.get key = none then
    ⟨map.items ++ [(key, value)], by
      have missing := get_eq_none_iff.mp absent
      rw [List.map_append, List.map_singleton, List.nodup_append]
      refine ⟨map.unique, List.nodup_singleton _, ?_⟩
      intro first there second here same
      rw [same, List.mem_singleton.mp here] at there
      exact missing there⟩
  else map

/-- Change the value of a key in place. -/
def replace (map : InsertionMap κ α) (key : κ) (value : α) : InsertionMap κ α :=
  ⟨map.items.map fun item => if item.1 = key then (key, value) else item, by
    have kept : (map.items.map fun item => if item.1 = key then (key, value) else item).map
        Prod.fst = map.items.map Prod.fst := by
      rw [List.map_map]
      apply List.map_congr_left
      intro item _
      by_cases same : item.1 = key <;> simp [same]
    rw [kept]
    exact map.unique⟩

/-- Drop a key. -/
def remove (map : InsertionMap κ α) (key : κ) : InsertionMap κ α :=
  ⟨map.items.filter fun item => decide (item.1 ≠ key),
    map.unique.sublist ((List.filter_sublist).map _)⟩

theorem items_create {map : InsertionMap κ α} {key : κ} (value : α)
    (absent : map.get key = none) :
    (map.create key value).items = map.items ++ [(key, value)] := by
  simp [create, absent]

theorem get_create {map : InsertionMap κ α} {key : κ} (value : α)
    (absent : map.get key = none) (query : κ) :
    (map.create key value).get query = if query = key then some value else map.get query := by
  rw [get, items_create value absent, List.lookup_append]
  by_cases same : query = key
  · have missed : map.items.lookup key = none := absent
    simp [same, missed]
  · have missed : (query == key) = false := by simpa using same
    simp [same, missed, get, List.lookup_cons]

/-- Add entries in turn, the first of each key. -/
def createAll (map : InsertionMap κ α) (entries : List (κ × α)) : InsertionMap κ α :=
  entries.foldl (fun map entry => map.create entry.1 entry.2) map

/-- A create adds its entry or nothing. -/
theorem items_create_sublist (map : InsertionMap κ α) (key : κ) (value : α) :
    (map.create key value).items.Sublist (map.items ++ [(key, value)]) := by
  by_cases absent : map.get key = none
  · rw [items_create value absent]
  · rw [create, dif_neg absent]
    exact List.sublist_append_left _ _

theorem items_createAll_sublist (map : InsertionMap κ α) (entries : List (κ × α)) :
    (map.createAll entries).items.Sublist (map.items ++ entries) := by
  induction entries generalizing map with
  | nil => simp [createAll]
  | cons entry rest ih =>
      have grown := (map.items_create_sublist entry.1 entry.2).append_right rest
      rw [List.append_assoc] at grown
      exact (ih _).trans grown

/-- Entries with keys of their own are all added, behind what was there. -/
theorem items_createAll {map : InsertionMap κ α} {entries : List (κ × α)}
    (distinct : ((map.items ++ entries).map Prod.fst).Nodup) :
    (map.createAll entries).items = map.items ++ entries := by
  induction entries generalizing map with
  | nil => simp [createAll]
  | cons entry rest ih =>
      have absent : map.get entry.1 = none := by
        rw [List.map_append, List.map_cons] at distinct
        have apart := (List.nodup_append.mp distinct).2.2
        exact get_eq_none_iff.mpr fun member => apart _ member _ (by simp) rfl
      have grown := items_create entry.2 absent
      have split : map.items ++ entry :: rest = (map.create entry.1 entry.2).items ++ rest := by
        simp [grown]
      rw [split] at distinct ⊢
      exact ih distinct

theorem get_replace (map : InsertionMap κ α) (key : κ) (value : α) (query : κ) :
    (map.replace key value).get query =
      (map.get query).map fun held => if query = key then value else held := by
  unfold get
  simp only [replace]
  induction map.items with
  | nil => rfl
  | cons item rest ih =>
      obtain ⟨first, held⟩ := item
      by_cases asked : query = first
      · subst asked
        by_cases here : query = key <;> simp [here]
      · have skipped : (query == first) = false := by simpa using asked
        have kept : (if first = key then (key, value) else (first, held)).1 = first := by
          split
          next same => exact same.symm
          next => rfl
        rw [List.map_cons, List.lookup_cons, List.lookup_cons, kept, skipped]
        exact ih

theorem get_remove (map : InsertionMap κ α) (key query : κ) :
    (map.remove key).get query = if query = key then none else map.get query := by
  unfold get
  simp only [remove]
  by_cases asked : query = key
  · subst asked
    rw [if_pos rfl, List.lookup_eq_none_iff]
    intro item member
    have differs := (List.mem_filter.mp member).2
    simp only [decide_eq_true_eq] at differs
    simpa using Ne.symm differs
  · rw [if_neg asked]
    induction map.items with
    | nil => rfl
    | cons item rest ih =>
        obtain ⟨first, held⟩ := item
        by_cases here : first = key
        · subst here
          have missed : (query == first) = false := by simpa using asked
          simp only [ne_eq, not_true_eq_false, decide_false, Bool.false_eq_true,
            not_false_eq_true, List.filter_cons_of_neg, List.lookup_cons, missed]
          exact ih
        · simp only [ne_eq, here, not_false_eq_true, decide_true, List.filter_cons_of_pos,
            List.lookup_cons, ih]

theorem size_create {map : InsertionMap κ α} {key : κ} (value : α)
    (absent : map.get key = none) : (map.create key value).size = map.size + 1 := by
  simp [size, items_create value absent]

@[simp]
theorem size_replace (map : InsertionMap κ α) (key : κ) (value : α) :
    (map.replace key value).size = map.size := by
  simp [size, replace]

theorem size_remove {map : InsertionMap κ α} {key : κ} {value : α}
    (present : map.get key = some value) : (map.remove key).size + 1 = map.size := by
  have member : key ∈ map.items.map Prod.fst := get_isSome_iff.mp (by simp [present])
  have once : (map.items.map Prod.fst).count key = 1 :=
    List.count_eq_one_of_mem map.unique member
  have split := List.length_eq_countP_add_countP (l := map.items) fun item => decide (item.1 ≠ key)
  have single : map.items.countP (fun item => decide (¬decide (item.1 ≠ key) = true)) = 1 := by
    rw [← once, List.count, List.countP_map]
    apply List.countP_congr
    intro item _
    simp
  rw [single, List.countP_eq_length_filter] at split
  simp only [size, remove]
  omega

theorem size_create_le (map : InsertionMap κ α) (key : κ) (value : α) :
    (map.create key value).size ≤ map.size + 1 := by
  simpa [size] using (map.items_create_sublist key value).length_le

theorem keysWhere_create {map : InsertionMap κ α} {key : κ} (value : α)
    (absent : map.get key = none) (test : κ → Bool) :
    (map.create key value).keysWhere test =
      map.keysWhere test ++ if test key then [key] else [] := by
  rw [keysWhere, items_create value absent, List.filter_append, List.map_append, keysWhere]
  cases passes : test key <;> simp [passes]

@[simp]
theorem keysWhere_replace (map : InsertionMap κ α) (key : κ) (value : α) (test : κ → Bool) :
    (map.replace key value).keysWhere test = map.keysWhere test := by
  simp only [keysWhere, replace]
  induction map.items with
  | nil => rfl
  | cons item rest ih =>
      by_cases same : item.1 = key
      · cases passes : test key <;> simp [same, passes, ih]
      · cases passes : test item.1 <;> simp [same, passes, ih]

theorem keysWhere_remove (map : InsertionMap κ α) (key : κ) (test : κ → Bool) :
    (map.remove key).keysWhere test =
      (map.keysWhere test).filter fun other => decide (other ≠ key) := by
  simp only [keysWhere, remove, List.filter_filter, List.filter_map]
  congr 1
  apply List.filter_congr
  intro item _
  simp [Bool.and_comm]

theorem mem_keysWhere {map : InsertionMap κ α} {test : κ → Bool} {key : κ} :
    key ∈ map.keysWhere test ↔ test key = true ∧ (map.get key).isSome = true := by
  rw [get_isSome_iff]
  simp only [keysWhere, List.mem_map, List.mem_filter]
  constructor
  · rintro ⟨item, ⟨member, passes⟩, rfl⟩
    exact ⟨passes, item, member, rfl⟩
  · rintro ⟨passes, item, member, rfl⟩
    exact ⟨item, ⟨member, passes⟩, rfl⟩

/-- Looking the keys up one by one gives the values in the same order. -/
theorem filterMap_get_keysWhere (map : InsertionMap κ α) (test : κ → Bool) :
    (map.keysWhere test).filterMap map.get = map.valuesWhere test := by
  rw [keysWhere, valuesWhere, List.filterMap_map, ← List.filterMap_eq_map]
  apply List.filterMap_congr
  intro item member
  exact get_of_mem (List.mem_filter.mp member).1

end InsertionMap

end SpecMock.Library
