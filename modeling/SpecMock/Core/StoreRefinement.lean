import SpecMock.Core.Store
import SpecMock.Library.InsertionMap
import SpecMock.Library.Machine

/-!
# The store as a bounded insertion-ordered map

A shelf is an insertion-ordered map of resources with a capacity.  It has one
structure where the store has three.  Every store operation, called alone,
does to the store what the shelf operation does to the shelf it represents.
-/

namespace SpecMock.Core

open SpecMock.Library

/-- A sequential call of one of the store's operations. -/
inductive StoreCall where
  | create (key : StoreKey) (value : Value)
  | read (key : StoreKey)
  | update (key : StoreKey) (value : Value)
  | delete (key : StoreKey)
  | list (ns : String)
  | len
  | clear

inductive StoreReply where
  | done (result : Except StoreError Unit)
  | found (value : Option Value)
  | listed (values : List Value)
  | counted (count : Nat)

/-- The call returned an error. -/
def StoreReply.Failed : StoreReply → Prop
  | .done (.error _) => True
  | _ => False

def Store.exec (store : Store) : StoreCall → Store × StoreReply
  | .create key value => ((store.create key value).1, .done (store.create key value).2)
  | .read key => (store, .found (store.read key))
  | .update key value => ((store.update key value).1, .done (store.update key value).2)
  | .delete key => ((store.delete key).1, .done (store.delete key).2)
  | .list ns => (store, .listed (store.list ns))
  | .len => (store, .counted store.len)
  | .clear => (store.clear.1, .counted store.clear.2)

/-- Resources in the order of their most recent creation. -/
abbrev Shelf := InsertionMap StoreKey Value

/-- Keys of one namespace. -/
def inNamespace (ns : String) (key : StoreKey) : Bool := decide (key.ns = ns)

namespace Shelf

def create (limit : Nat) (shelf : Shelf) (key : StoreKey) (value : Value) :
    Shelf × Except StoreError Unit :=
  if shelf.size ≥ limit then (shelf, .error (.capacityExceeded limit))
  else if (shelf.get key).isSome then (shelf, .error (.alreadyExists key))
  else (InsertionMap.create shelf key value, .ok ())

def update (shelf : Shelf) (key : StoreKey) (value : Value) : Shelf × Except StoreError Unit :=
  if (shelf.get key).isSome then (shelf.replace key value, .ok ())
  else (shelf, .error (.notFound key))

def delete (shelf : Shelf) (key : StoreKey) : Shelf × Except StoreError Unit :=
  if (shelf.get key).isSome then (shelf.remove key, .ok ())
  else (shelf, .error (.notFound key))

def exec (limit : Nat) (shelf : Shelf) : StoreCall → Shelf × StoreReply
  | .create key value =>
      ((create limit shelf key value).1, .done (create limit shelf key value).2)
  | .read key => (shelf, .found (shelf.get key))
  | .update key value => ((update shelf key value).1, .done (update shelf key value).2)
  | .delete key => ((delete shelf key).1, .done (delete shelf key).2)
  | .list ns => (shelf, .listed (shelf.valuesWhere (inNamespace ns)))
  | .len => (shelf, .counted shelf.size)
  | .clear => (InsertionMap.empty, .counted shelf.size)

end Shelf

/-- The three structures of a store hold the one content of a shelf. -/
structure Represents (limit : Nat) (store : Store) (shelf : Shelf) : Prop where
  limit_eq : store.limit = limit
  read_eq : ∀ key, store.read key = shelf.get key
  indexed_eq : ∀ ns, store.indexed ns = (shelf.keysWhere (inNamespace ns)).map StoreKey.id
  size_eq : FiniteMap.size store.entries = shelf.size
  count_eq : store.count = shelf.size
  bounded : shelf.size ≤ limit

namespace Represents

variable {limit : Nat} {store : Store} {shelf : Shelf}

theorem new (limit : Nat) : Represents limit (Store.new limit) InsertionMap.empty where
  limit_eq := rfl
  read_eq _ := rfl
  indexed_eq _ := rfl
  size_eq := rfl
  count_eq := rfl
  bounded := Nat.zero_le _

/-- A key of a namespace is determined by its identifier. -/
theorem key_eq {ns : String} {key : StoreKey} (member : inNamespace ns key = true) :
    key = ⟨ns, key.id⟩ := by
  simp only [inNamespace, decide_eq_true_eq] at member
  subst member
  rfl

theorem nodup_indexed (represents : Represents limit store shelf) (ns : String) :
    (store.indexed ns).Nodup := by
  rw [represents.indexed_eq]
  refine List.Nodup.map_on ?_ (shelf.nodup_keysWhere _)
  intro first firstMember second secondMember same
  rw [key_eq (InsertionMap.mem_keysWhere.mp firstMember).1,
    key_eq (InsertionMap.mem_keysWhere.mp secondMember).1, same]

theorem mem_indexed_iff (represents : Represents limit store shelf) (ns id : String) :
    id ∈ store.indexed ns ↔ (store.read ⟨ns, id⟩).isSome = true := by
  rw [represents.indexed_eq, represents.read_eq, List.mem_map]
  constructor
  · rintro ⟨key, member, rfl⟩
    obtain ⟨inside, present⟩ := InsertionMap.mem_keysWhere.mp member
    rw [← key_eq inside]
    exact present
  · intro present
    exact ⟨⟨ns, id⟩, InsertionMap.mem_keysWhere.mpr ⟨by simp [inNamespace], present⟩, rfl⟩

theorem list_eq (represents : Represents limit store shelf) (ns : String) :
    store.list ns = shelf.valuesWhere (inNamespace ns) := by
  rw [Store.list_eq, represents.indexed_eq, List.filterMap_map,
    ← InsertionMap.filterMap_get_keysWhere]
  apply List.filterMap_congr
  intro key member
  have inside := (InsertionMap.mem_keysWhere.mp member).1
  rw [Function.comp_apply, ← key_eq inside, represents.read_eq]

theorem create (represents : Represents limit store shelf) (key : StoreKey) (value : Value) :
    (store.create key value).2 = (Shelf.create limit shelf key value).2 ∧
      Represents limit (store.create key value).1 (Shelf.create limit shelf key value).1 := by
  have sameRead := represents.read_eq key
  unfold Shelf.create
  rcases store.create_cases key value with
    ⟨full, done⟩ | ⟨room, taken, done⟩ | ⟨room, free, after, done, entries, indexed, kept, counted⟩
  · rw [represents.limit_eq, represents.count_eq] at full
    rw [done, if_pos full, represents.limit_eq]
    exact ⟨rfl, represents⟩
  · rw [represents.limit_eq, represents.count_eq] at room
    rw [sameRead] at taken
    rw [done, if_neg (Nat.not_le.mpr room), if_pos taken]
    exact ⟨rfl, represents⟩
  · rw [represents.limit_eq, represents.count_eq] at room
    have absent : shelf.get key = none := sameRead ▸ free
    rw [done, if_neg (Nat.not_le.mpr room), absent]
    refine ⟨rfl, kept.trans represents.limit_eq, ?_, ?_, ?_, ?_, ?_⟩
    · intro query
      refine Eq.trans ?_ (InsertionMap.get_create value absent query).symm
      rw [Store.read, entries, FiniteMap.lookup_insert_eq, ← represents.read_eq]
      rfl
    · intro ns
      refine Eq.trans ?_
        (congrArg (List.map StoreKey.id) (InsertionMap.keysWhere_create value absent _)).symm
      rw [indexed, represents.indexed_eq, List.map_append]
      by_cases same : key.ns = ns <;> simp [inNamespace, same]
    · rw [entries, FiniteMap.size_insert_of_absent value free, represents.size_eq]
      exact (InsertionMap.size_create value absent).symm
    · rw [counted, represents.count_eq]
      exact (InsertionMap.size_create value absent).symm
    · exact (InsertionMap.size_create value absent).symm ▸ room

theorem update (represents : Represents limit store shelf) (key : StoreKey) (value : Value) :
    (store.update key value).2 = (Shelf.update shelf key value).2 ∧
      Represents limit (store.update key value).1 (Shelf.update shelf key value).1 := by
  have sameRead := represents.read_eq key
  unfold Shelf.update
  rcases store.update_cases key value with ⟨absent, done⟩ | ⟨present, done⟩
  · rw [done, ← sameRead, absent]
    exact ⟨rfl, represents⟩
  · obtain ⟨held, found⟩ := Option.isSome_iff_exists.mp present
    rw [done, ← sameRead, found]
    refine ⟨rfl, represents.limit_eq, ?_, ?_, ?_, represents.count_eq.trans ?_, ?_⟩
    · intro query
      refine Eq.trans ?_ (InsertionMap.get_replace shelf key value query).symm
      rw [Store.read, FiniteMap.lookup_insert_eq, ← represents.read_eq]
      by_cases same : query = key
      · subst same
        simp [found]
      · simp [same, Store.read]
    · intro ns
      exact (represents.indexed_eq ns).trans
        (congrArg (List.map StoreKey.id) (InsertionMap.keysWhere_replace shelf key value _)).symm
    · rw [FiniteMap.size_insert_of_present value found, represents.size_eq]
      exact (InsertionMap.size_replace shelf key value).symm
    · exact (InsertionMap.size_replace shelf key value).symm
    · exact (InsertionMap.size_replace shelf key value).symm ▸ represents.bounded

/-- Within one namespace, keys differ exactly when their identifiers do. -/
theorem filter_ids (shelf : Shelf) (key : StoreKey) (ns : String) :
    ((shelf.keysWhere (inNamespace ns)).filter fun other => decide (other ≠ key)).map StoreKey.id =
      if ns = key.ns then
        ((shelf.keysWhere (inNamespace ns)).map StoreKey.id).filter fun id => decide (id ≠ key.id)
      else (shelf.keysWhere (inNamespace ns)).map StoreKey.id := by
  by_cases same : ns = key.ns
  · subst same
    rw [if_pos rfl, List.filter_map]
    congr 1
    refine List.filter_congr fun other member => decide_eq_decide.mpr ?_
    have inside := key_eq (InsertionMap.mem_keysWhere.mp member).1
    constructor
    · intro differs equal
      rw [equal] at inside
      exact differs inside
    · exact fun differs equal => differs (congrArg StoreKey.id equal)
  · rw [if_neg same]
    congr 1
    apply List.filter_eq_self.mpr
    intro other member
    have inside := key_eq (InsertionMap.mem_keysWhere.mp member).1
    have differs : other ≠ key := fun equal => same (by rw [← equal, inside])
    simpa using differs

theorem delete (represents : Represents limit store shelf) (key : StoreKey) :
    (store.delete key).2 = (Shelf.delete shelf key).2 ∧
      Represents limit (store.delete key).1 (Shelf.delete shelf key).1 := by
  have sameRead := represents.read_eq key
  unfold Shelf.delete
  rcases store.delete_cases key with
    ⟨absent, done⟩ | ⟨present, after, done, entries, indexed, kept, counted⟩
  · rw [done, ← sameRead, absent]
    exact ⟨rfl, represents⟩
  · obtain ⟨held, found⟩ := Option.isSome_iff_exists.mp present
    have smaller := InsertionMap.size_remove (sameRead ▸ found)
    rw [done, ← sameRead, found]
    refine ⟨rfl, kept.trans represents.limit_eq, ?_, ?_, ?_, ?_, ?_⟩
    · intro query
      refine Eq.trans ?_ (InsertionMap.get_remove shelf key query).symm
      rw [Store.read, entries, FiniteMap.lookup_erase_eq, ← represents.read_eq]
      rfl
    · intro ns
      refine Eq.trans ?_
        (congrArg (List.map StoreKey.id) (InsertionMap.keysWhere_remove shelf key _)).symm
      rw [indexed, represents.indexed_eq, filter_ids]
    · have shrunk := FiniteMap.size_erase_of_present found
      have sized := represents.size_eq
      rw [entries]
      change _ = (shelf.remove key).size
      omega
    · have count := represents.count_eq
      rw [counted, fetchSub, if_neg (by omega)]
      change _ = (shelf.remove key).size
      omega
    · have bounded := represents.bounded
      change (shelf.remove key).size ≤ limit
      omega

/-- One call keeps the representation and answers as the shelf does. -/
theorem exec (represents : Represents limit store shelf) (call : StoreCall) :
    (store.exec call).2 = (Shelf.exec limit shelf call).2 ∧
      Represents limit (store.exec call).1 (Shelf.exec limit shelf call).1 := by
  cases call with
  | create key value =>
      exact ⟨congrArg StoreReply.done (represents.create key value).1,
        (represents.create key value).2⟩
  | read key => exact ⟨congrArg StoreReply.found (represents.read_eq key), represents⟩
  | update key value =>
      exact ⟨congrArg StoreReply.done (represents.update key value).1,
        (represents.update key value).2⟩
  | delete key =>
      exact ⟨congrArg StoreReply.done (represents.delete key).1, (represents.delete key).2⟩
  | list ns => exact ⟨congrArg StoreReply.listed (represents.list_eq ns), represents⟩
  | len => exact ⟨congrArg StoreReply.counted represents.count_eq, represents⟩
  | clear =>
      exact ⟨congrArg StoreReply.counted represents.count_eq,
        represents.limit_eq, fun _ => rfl, fun _ => rfl, rfl, rfl, Nat.zero_le _⟩

end Represents

/-- A call that returns an error leaves all three structures as they were. -/
theorem Store.exec_failed {store : Store} {call : StoreCall}
    (failed : (store.exec call).2.Failed) : (store.exec call).1 = store := by
  cases call with
  | create key value =>
      simp only [Store.exec] at failed ⊢
      rcases store.create_cases key value with
        ⟨_, done⟩ | ⟨_, _, done⟩ | ⟨_, _, after, done, _⟩
      · rw [done]
      · rw [done]
      · rw [done] at failed
        exact failed.elim
  | update key value =>
      simp only [Store.exec] at failed ⊢
      rcases store.update_cases key value with ⟨_, done⟩ | ⟨_, done⟩
      · rw [done]
      · rw [done] at failed
        exact failed.elim
  | delete key =>
      simp only [Store.exec] at failed ⊢
      rcases store.delete_cases key with ⟨_, done⟩ | ⟨_, after, done, _⟩
      · rw [done]
      · rw [done] at failed
        exact failed.elim
  | read key => rfl
  | list ns => rfl
  | len => rfl
  | clear => exact failed.elim

/--
Every sequential history of a store is a history of a bounded insertion-ordered
map: the answers agree, the index and the counter say what the entries say, a
listing follows the most recent successful creates, and an error changes
nothing.
-/
theorem store_refines_shelf (limit : Nat) (calls : List StoreCall) :
    let store := stateAfter Store.exec (Store.new limit) calls
    let shelf := stateAfter (Shelf.exec limit) InsertionMap.empty calls
    answers Store.exec (Store.new limit) calls =
        answers (Shelf.exec limit) InsertionMap.empty calls ∧
      (∀ ns, (store.indexed ns).Nodup ∧
        ∀ id, id ∈ store.indexed ns ↔ (store.read ⟨ns, id⟩).isSome = true) ∧
      (store.count = FiniteMap.size store.entries ∧ store.count ≤ limit) ∧
      (∀ key, store.read key = shelf.get key) ∧
      (∀ ns, store.list ns = shelf.valuesWhere (inNamespace ns)) ∧
      ∀ call, (store.exec call).2.Failed → (store.exec call).1 = store := by
  have matched : ∀ store shelf call, Represents limit store shelf →
      (Store.exec store call).2 = (Shelf.exec limit shelf call).2 ∧
        Represents limit (Store.exec store call).1 (Shelf.exec limit shelf call).1 :=
    fun _ _ call represents => represents.exec call
  obtain ⟨agree, represents⟩ := simulation matched (Represents.new limit) calls
  refine ⟨agree, fun ns => ⟨represents.nodup_indexed ns, represents.mem_indexed_iff ns⟩,
    ⟨represents.count_eq.trans represents.size_eq.symm, ?_⟩, represents.read_eq,
    represents.list_eq, fun call failed => Store.exec_failed failed⟩
  exact represents.count_eq ▸ represents.bounded

end SpecMock.Core
