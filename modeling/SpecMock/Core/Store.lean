import SpecMock.Core.Json
import SpecMock.Library.FiniteMap

/-!
# The resource store

A store keeps the resources one scenario instance has invented.  The data and
the ordering index live in two maps and the number of entries in a counter, so
every operation is a sequence of single accesses to these three.  The accesses
come first; the operations are composed of them, and the concurrent semantics
of the store takes the same accesses one at a time.
-/

namespace SpecMock.Core

open SpecMock.Library

/-- Namespace and identifier of a stored resource. -/
structure StoreKey where
  ns : String
  id : String
  deriving DecidableEq

/-- A key is displayed as its namespace, a slash and its identifier. -/
def StoreKey.toText (key : StoreKey) : String := key.ns ++ "/" ++ key.id

/-- Different keys of one namespace have different identifiers. -/
theorem StoreKey.id_ne {key other : StoreKey} (differs : key ≠ other) (sameNs : key.ns = other.ns) :
    key.id ≠ other.id := by
  intro sameId
  cases key
  cases other
  exact differs (StoreKey.mk.injEq .. ▸ ⟨sameNs, sameId⟩)

/-- The operation a scenario declares against the store. -/
inductive StoreAction where
  | create
  | read
  | update
  | delete
  | list
  deriving DecidableEq

/-- Why a store operation could not be completed. -/
inductive StoreError where
  | notFound (key : StoreKey)
  | alreadyExists (key : StoreKey)
  | capacityExceeded (limit : Nat)
  deriving DecidableEq

/-- Largest value of the machine-word counter. -/
def usizeMax : Nat := 2 ^ 64 - 1

/-- `fetch_sub(1)`: subtraction on a machine word wraps below zero. -/
def fetchSub (count : Nat) : Nat := if count = 0 then usizeMax else count - 1

structure Store where
  entries : FiniteMap StoreKey Value
  /-- Insertion order of identifiers per namespace. -/
  order : FiniteMap String (List String)
  limit : Nat
  /-- Live entry count, maintained alongside `entries`. -/
  count : Nat

namespace Store

def new (limit : Nat) : Store := ⟨∅, ∅, limit, 0⟩

/-- Identifiers indexed for a namespace, none when it has no vector. -/
def indexed (store : Store) (ns : String) : List String := (store.order.lookup ns).getD []

/-- The successful half of `compare_exchange(current, current + 1)`. -/
def reserve (store : Store) (current : Nat) : Store := { store with count := current + 1 }

/-- `count.fetch_sub(1)`. -/
def release (store : Store) : Store := { store with count := fetchSub store.count }

/-- `entries.insert_sync`: fails when the key is present. -/
def insertEntry (store : Store) (key : StoreKey) (value : Value) : Option Store :=
  match store.entries.lookup key with
  | some _ => none
  | none => some { store with entries := store.entries.insert key value }

/-- `entries.remove_sync`: fails when the key is absent. -/
def removeEntry (store : Store) (key : StoreKey) : Option Store :=
  match store.entries.lookup key with
  | some _ => some { store with entries := store.entries.erase key }
  | none => none

/-- `order.contains_sync`. -/
def containsOrder (store : Store) (ns : String) : Bool := (store.order.lookup ns).isSome

/-- `order.insert_sync(namespace, vec![id]).ok()`: a vector already there stays. -/
def insertOrder (store : Store) (key : StoreKey) : Store :=
  match store.order.lookup key.ns with
  | some _ => store
  | none => { store with order := store.order.insert key.ns [key.id] }

/-- `order.update_sync`: only touches a vector that is there. -/
def updateOrder (store : Store) (ns : String) (change : List String → List String) : Store :=
  match store.order.lookup ns with
  | some ids => { store with order := store.order.insert ns (change ids) }
  | none => store

/-- Append the identifier of a key to its vector. -/
def pushOrder (store : Store) (key : StoreKey) : Store :=
  store.updateOrder key.ns fun ids => ids ++ [key.id]

/-- Retain the identifiers of a vector that differ from that of a key. -/
def retainOrder (store : Store) (key : StoreKey) : Store :=
  store.updateOrder key.ns fun ids => ids.filter fun existing => decide (existing ≠ key.id)

/-- The index step of a create: start the namespace's vector or append to it. -/
def indexKey (store : Store) (key : StoreKey) : Store :=
  if store.containsOrder key.ns then store.pushOrder key else store.insertOrder key

def create (store : Store) (key : StoreKey) (value : Value) : Store × Except StoreError Unit :=
  if store.count ≥ store.limit then (store, .error (.capacityExceeded store.limit))
  else
    -- Nothing else runs, so the exchange succeeds at the first attempt.
    let reserved := store.reserve store.count
    match reserved.insertEntry key value with
    | none => (reserved.release, .error (.alreadyExists key))
    | some inserted => (inserted.indexKey key, .ok ())

def read (store : Store) (key : StoreKey) : Option Value := store.entries.lookup key

def update (store : Store) (key : StoreKey) (value : Value) : Store × Except StoreError Unit :=
  match store.entries.lookup key with
  | none => (store, .error (.notFound key))
  | some _ => ({ store with entries := store.entries.insert key value }, .ok ())

def delete (store : Store) (key : StoreKey) : Store × Except StoreError Unit :=
  match store.removeEntry key with
  | none => (store, .error (.notFound key))
  | some removed => (removed.release.retainOrder key, .ok ())

/-- An identifier indexed but not stored is skipped. -/
def list (store : Store) (ns : String) : List Value :=
  match store.order.lookup ns with
  | none => []
  | some ids => ids.filterMap fun id => store.entries.lookup ⟨ns, id⟩

def len (store : Store) : Nat := store.count

def clear (store : Store) : Store × Nat :=
  ({ store with entries := ∅, order := ∅, count := 0 }, store.count)

@[simp] theorem read_new (limit : Nat) (key : StoreKey) : (new limit).read key = none := rfl

@[simp] theorem entries_reserve (store : Store) (current : Nat) :
    (store.reserve current).entries = store.entries := rfl
@[simp] theorem order_reserve (store : Store) (current : Nat) :
    (store.reserve current).order = store.order := rfl
@[simp] theorem count_reserve (store : Store) (current : Nat) :
    (store.reserve current).count = current + 1 := rfl
@[simp] theorem limit_reserve (store : Store) (current : Nat) :
    (store.reserve current).limit = store.limit := rfl

@[simp] theorem entries_release (store : Store) : store.release.entries = store.entries := rfl
@[simp] theorem order_release (store : Store) : store.release.order = store.order := rfl
@[simp] theorem count_release (store : Store) : store.release.count = fetchSub store.count := rfl
@[simp] theorem limit_release (store : Store) : store.release.limit = store.limit := rfl

/-- Releasing the slot just reserved restores the store. -/
theorem release_reserve (store : Store) : (store.reserve store.count).release = store := by
  simp [reserve, release, fetchSub]

theorem insertEntry_eq_some {store inserted : Store} {key : StoreKey} {value : Value}
    (success : store.insertEntry key value = some inserted) :
    store.read key = none ∧
      inserted = { store with entries := store.entries.insert key value } := by
  unfold insertEntry at success
  cases found : store.entries.lookup key with
  | some held => simp [found] at success
  | none =>
      simp only [found, Option.some.injEq] at success
      exact ⟨found, success.symm⟩

theorem insertEntry_eq_none {store : Store} {key : StoreKey} {value : Value} :
    store.insertEntry key value = none ↔ (store.read key).isSome = true := by
  unfold insertEntry read
  cases store.entries.lookup key <;> simp

theorem removeEntry_eq_some {store removed : Store} {key : StoreKey}
    (success : store.removeEntry key = some removed) :
    (∃ held, store.read key = some held) ∧
      removed = { store with entries := store.entries.erase key } := by
  unfold removeEntry at success
  cases found : store.entries.lookup key with
  | none => simp [found] at success
  | some held =>
      simp only [found, Option.some.injEq] at success
      exact ⟨⟨held, found⟩, success.symm⟩

theorem removeEntry_eq_none {store : Store} {key : StoreKey} :
    store.removeEntry key = none ↔ store.read key = none := by
  unfold removeEntry read
  cases store.entries.lookup key <;> simp

theorem updateOrder_eq (store : Store) (ns : String) (change : List String → List String) :
    store.updateOrder ns change =
      { store with order := (store.updateOrder ns change).order } := by
  unfold updateOrder
  split <;> rfl

@[simp] theorem entries_updateOrder (store : Store) (ns : String)
    (change : List String → List String) :
    (store.updateOrder ns change).entries = store.entries := by rw [updateOrder_eq]
@[simp] theorem count_updateOrder (store : Store) (ns : String)
    (change : List String → List String) :
    (store.updateOrder ns change).count = store.count := by rw [updateOrder_eq]
@[simp] theorem limit_updateOrder (store : Store) (ns : String)
    (change : List String → List String) :
    (store.updateOrder ns change).limit = store.limit := by rw [updateOrder_eq]

@[simp] theorem entries_insertOrder (store : Store) (key : StoreKey) :
    (store.insertOrder key).entries = store.entries := by unfold insertOrder; split <;> rfl
@[simp] theorem count_insertOrder (store : Store) (key : StoreKey) :
    (store.insertOrder key).count = store.count := by unfold insertOrder; split <;> rfl
@[simp] theorem limit_insertOrder (store : Store) (key : StoreKey) :
    (store.insertOrder key).limit = store.limit := by unfold insertOrder; split <;> rfl

/-- An update changes the vector of its namespace, if there is one, and no other. -/
theorem indexed_updateOrder (store : Store) (ns other : String)
    (change : List String → List String) :
    (store.updateOrder ns change).indexed other =
      if other = ns ∧ store.containsOrder ns then change (store.indexed ns)
      else store.indexed other := by
  unfold updateOrder indexed containsOrder
  cases found : store.order.lookup ns with
  | none => simp
  | some ids =>
      by_cases same : other = ns
      · subst same
        simp
      · simp [same, AList.lookup_insert_ne same]

/-- Starting a vector adds it where there is none and changes nothing elsewhere. -/
theorem indexed_insertOrder (store : Store) (key : StoreKey) (other : String) :
    (store.insertOrder key).indexed other =
      if other = key.ns ∧ store.containsOrder key.ns = false then [key.id]
      else store.indexed other := by
  unfold insertOrder indexed containsOrder
  cases found : store.order.lookup key.ns with
  | some ids => simp
  | none =>
      by_cases same : other = key.ns
      · subst same
        simp
      · simp [same, AList.lookup_insert_ne same]

theorem indexed_of_not_containsOrder {store : Store} {ns : String}
    (missing : store.containsOrder ns = false) : store.indexed ns = [] := by
  unfold containsOrder at missing
  unfold indexed
  cases found : store.order.lookup ns with
  | none => rfl
  | some ids => simp [found] at missing

theorem containsOrder_updateOrder {store : Store} {ns other : String}
    {change : List String → List String} (held : store.containsOrder ns = true) :
    (store.updateOrder other change).containsOrder ns = true := by
  unfold updateOrder
  split
  · rw [containsOrder, FiniteMap.lookup_insert_eq]
    split
    · rfl
    · exact held
  · exact held

theorem containsOrder_insertOrder {store : Store} {ns : String} {key : StoreKey}
    (held : store.containsOrder ns = true) : (store.insertOrder key).containsOrder ns = true := by
  unfold insertOrder
  split
  · exact held
  · rw [containsOrder, FiniteMap.lookup_insert_eq]
    split
    · rfl
    · exact held

/-- The index step of a create appends the identifier to its namespace. -/
theorem indexed_indexKey (store : Store) (key : StoreKey) (other : String) :
    (store.indexKey key).indexed other =
      store.indexed other ++ if key.ns = other then [key.id] else [] := by
  unfold indexKey
  by_cases same : key.ns = other
  · subst same
    cases held : store.containsOrder key.ns with
    | true => simp [pushOrder, indexed_updateOrder, held]
    | false => simp [indexed_insertOrder, held, indexed_of_not_containsOrder held]
  · have differs : other ≠ key.ns := fun equal => same equal.symm
    cases held : store.containsOrder key.ns with
    | true => simp [pushOrder, indexed_updateOrder, same, differs]
    | false => simp [indexed_insertOrder, same, differs]

/-- The index step of a delete drops the identifier from its namespace. -/
theorem indexed_retainOrder (store : Store) (key : StoreKey) (other : String) :
    (store.retainOrder key).indexed other =
      if other = key.ns then (store.indexed other).filter fun id => decide (id ≠ key.id)
      else store.indexed other := by
  rw [retainOrder, indexed_updateOrder]
  by_cases same : other = key.ns
  · subst same
    cases held : store.containsOrder key.ns with
    | true => simp
    | false => simp [indexed_of_not_containsOrder held]
  · simp [same]

@[simp] theorem entries_indexKey (store : Store) (key : StoreKey) :
    (store.indexKey key).entries = store.entries := by
  unfold indexKey
  split <;> simp [pushOrder]
@[simp] theorem count_indexKey (store : Store) (key : StoreKey) :
    (store.indexKey key).count = store.count := by
  unfold indexKey
  split <;> simp [pushOrder]
@[simp] theorem limit_indexKey (store : Store) (key : StoreKey) :
    (store.indexKey key).limit = store.limit := by
  unfold indexKey
  split <;> simp [pushOrder]

/-- A listing looks the indexed identifiers up, whether or not there is a vector. -/
theorem list_eq (store : Store) (ns : String) :
    store.list ns = (store.indexed ns).filterMap fun id => store.read ⟨ns, id⟩ := by
  unfold list indexed read
  cases store.order.lookup ns <;> rfl

/-- A create is refused when the store is full or the key is taken, else it files the value. -/
theorem create_cases (store : Store) (key : StoreKey) (value : Value) :
    (store.limit ≤ store.count ∧
      store.create key value = (store, .error (.capacityExceeded store.limit))) ∨
    (store.count < store.limit ∧ (store.read key).isSome = true ∧
      store.create key value = (store, .error (.alreadyExists key))) ∨
    (store.count < store.limit ∧ store.read key = none ∧
      ∃ after : Store, store.create key value = (after, .ok ()) ∧
        after.entries = store.entries.insert key value ∧
        (∀ ns, after.indexed ns = store.indexed ns ++ if key.ns = ns then [key.id] else []) ∧
        after.limit = store.limit ∧ after.count = store.count + 1) := by
  unfold create
  by_cases full : store.limit ≤ store.count
  · exact .inl ⟨full, by rw [if_pos full]⟩
  have free : store.count < store.limit := Nat.lt_of_not_le full
  simp only [ge_iff_le, full, if_false]
  cases inserted : (store.reserve store.count).insertEntry key value with
  | none =>
      have taken := insertEntry_eq_none.mp inserted
      exact .inr (.inl ⟨free, taken, by rw [release_reserve]⟩)
  | some after =>
      obtain ⟨absent, rfl⟩ := insertEntry_eq_some inserted
      refine .inr (.inr ⟨free, absent, _, rfl, by simp, ?_, by simp, by simp⟩)
      intro ns
      rw [indexed_indexKey]
      rfl

theorem update_cases (store : Store) (key : StoreKey) (value : Value) :
    (store.read key = none ∧ store.update key value = (store, .error (.notFound key))) ∨
    ((store.read key).isSome = true ∧
      store.update key value =
        ({ store with entries := store.entries.insert key value }, .ok ())) := by
  unfold update read
  cases store.entries.lookup key with
  | none => exact .inl ⟨rfl, rfl⟩
  | some held => exact .inr ⟨rfl, rfl⟩

theorem delete_cases (store : Store) (key : StoreKey) :
    (store.read key = none ∧ store.delete key = (store, .error (.notFound key))) ∨
    ((store.read key).isSome = true ∧
      ∃ after : Store, store.delete key = (after, .ok ()) ∧
        after.entries = store.entries.erase key ∧
        (∀ ns, after.indexed ns =
          if ns = key.ns then (store.indexed ns).filter fun id => decide (id ≠ key.id)
          else store.indexed ns) ∧
        after.limit = store.limit ∧ after.count = fetchSub store.count) := by
  unfold delete
  cases removed : store.removeEntry key with
  | none => exact .inl ⟨removeEntry_eq_none.mp removed, rfl⟩
  | some after =>
      obtain ⟨⟨held, found⟩, rfl⟩ := removeEntry_eq_some removed
      refine .inr ⟨by simp [found], _, rfl, by simp [retainOrder], ?_, by simp [retainOrder],
        by simp [retainOrder]⟩
      intro ns
      rw [indexed_retainOrder]
      rfl

theorem reply_create (store : Store) (key : StoreKey) (value : Value) :
    (store.create key value).2 =
      if store.limit ≤ store.count then .error (.capacityExceeded store.limit)
      else if (store.read key).isSome = true then .error (.alreadyExists key)
      else .ok () := by
  rcases store.create_cases key value with
    ⟨full, done⟩ | ⟨room, taken, done⟩ | ⟨room, free, _, done, _⟩
  · rw [done, if_pos full]
  · rw [done, if_neg (Nat.not_le.mpr room), if_pos taken]
  · rw [done, if_neg (Nat.not_le.mpr room), free]
    rfl

theorem reply_update (store : Store) (key : StoreKey) (value : Value) :
    (store.update key value).2 =
      if (store.read key).isSome = true then .ok () else .error (.notFound key) := by
  rcases store.update_cases key value with ⟨absent, done⟩ | ⟨present, done⟩
  · rw [done, absent]
    rfl
  · rw [done, if_pos present]

theorem reply_delete (store : Store) (key : StoreKey) :
    (store.delete key).2 =
      if (store.read key).isSome = true then .ok () else .error (.notFound key) := by
  rcases store.delete_cases key with ⟨absent, done⟩ | ⟨present, _, done, _⟩
  · rw [done, absent]
    rfl
  · rw [done, if_pos present]

theorem limit_create (store : Store) (key : StoreKey) (value : Value) :
    (store.create key value).1.limit = store.limit := by
  rcases store.create_cases key value with ⟨_, full⟩ | ⟨_, _, taken⟩ |
    ⟨_, _, after, filed, _, _, limited, _⟩
  · rw [full]
  · rw [taken]
  · rw [filed]
    exact limited

theorem limit_update (store : Store) (key : StoreKey) (value : Value) :
    (store.update key value).1.limit = store.limit := by
  rcases store.update_cases key value with ⟨_, absent⟩ | ⟨_, replaced⟩
  · rw [absent]
  · rw [replaced]

theorem limit_delete (store : Store) (key : StoreKey) :
    (store.delete key).1.limit = store.limit := by
  rcases store.delete_cases key with ⟨_, absent⟩ | ⟨_, after, removed, _, _, limited, _⟩
  · rw [absent]
  · rw [removed]
    exact limited

end Store

end SpecMock.Core
