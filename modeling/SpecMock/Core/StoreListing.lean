import SpecMock.Core.StoreConcurrency
import Mathlib.Data.List.Count

/-!
# Listings under concurrent creates and deletes

A create makes its entry visible before it indexes it, and a delete removes
its entry before it edits the index.  In between the call owes the index an
update of its key.  Three of these updates can go wrong when calls on one
namespace overlap: the vector a create starts is dropped when another create
started it first, an identifier is appended a second time, and a delete strips
the identifier of a key that was created again.  The listing of a quiescent
store is exact when no such update is the last one owed to a stored key, and an
update of that kind leaves a wrong listing at once.
-/

namespace SpecMock.Core

open SpecMock.Library

/-- The call has changed the entry of `key` and still owes the index its update. -/
def CallState.owes (key : StoreKey) : CallState → Bool
  | .createContains other | .createStart other | .createPush other
  | .deleteRelease other | .deleteRetain other => decide (other = key)
  | _ => false

/-- The identifier of a stored key is indexed exactly once. -/
def Store.IndexedOnce (store : Store) (key : StoreKey) : Prop :=
  (store.read key).isSome = true → (store.indexed key.ns).count key.id = 1

/--
A namespace lists each of its stored resources exactly once and nothing else:
key by key in the index, and value by value in the answer.
-/
def Store.ListsExactly (store : Store) (ns : String) : Prop :=
  (∀ id, store.IndexedOnce ⟨ns, id⟩) ∧
    (store.list ns).Perm (FiniteMap.valuesWhere store.entries (inNamespace ns))

theorem Store.IndexedOnce.congr {store other : Store} {key : StoreKey}
    (once : store.IndexedOnce key) (read : other.read key = store.read key)
    (count : (other.indexed key.ns).count key.id = (store.indexed key.ns).count key.id) :
    other.IndexedOnce key := by
  unfold Store.IndexedOnce
  rw [read, count]
  exact once

theorem Store.listsExactly_of_indexedOnce {store : Store} {ns : String}
    (once : ∀ id, store.IndexedOnce ⟨ns, id⟩) : store.ListsExactly ns := by
  refine ⟨once, ?_⟩
  have keyed : store.list ns =
      ((store.indexed ns).map fun id => (⟨ns, id⟩ : StoreKey)).filterMap store.entries.lookup := by
    rw [Store.list_eq, List.filterMap_map]
    rfl
  rw [keyed]
  refine FiniteMap.filterMap_lookup_perm store.entries (inNamespace ns) _ ?_ ?_
  · intro key present inside
    rw [Represents.key_eq inside]
    have stored : (store.read ⟨ns, key.id⟩).isSome = true := by
      rw [← Represents.key_eq inside]
      exact AList.lookup_isSome.mpr present
    have injective : Function.Injective fun id => (⟨ns, id⟩ : StoreKey) :=
      fun first second same => congrArg StoreKey.id same
    exact (List.count_map_of_injective _ _ injective key.id).trans (once key.id stored)
  · intro key member
    obtain ⟨id, _, rfl⟩ := List.mem_map.mp member
    simp [inNamespace]

/-- A stored key to which exactly one call owes an index update. -/
def LastOwed (pool : StorePool) (key : StoreKey) : Prop :=
  (pool.shared.read key).isSome = true ∧ pool.occurs (CallState.owes key) = 1

instance (pool : StorePool) (key : StoreKey) : Decidable (LastOwed pool key) :=
  inferInstanceAs (Decidable (_ ∧ _))

/--
If the next access of the call is the last index update owed to a stored key,
then it starts a vector that is not there (or that lists the key already), or
appends an identifier that is not listed; it does not strip the identifier.
-/
def CallState.WellTimed (pool : StorePool) : CallState → Prop
  | .createStart key => LastOwed pool key →
      pool.shared.containsOrder key.ns = false ∨ (pool.shared.indexed key.ns).count key.id = 1
  | .createPush key => LastOwed pool key → key.id ∉ pool.shared.indexed key.ns
  | .deleteRetain key => ¬ LastOwed pool key
  | _ => True

instance (pool : StorePool) : (call : CallState) → Decidable (call.WellTimed pool)
  | .createStart _ => inferInstanceAs (Decidable (_ → _ ∨ _))
  | .createPush _ => inferInstanceAs (Decidable (_ → ¬ _))
  | .deleteRetain _ => inferInstanceAs (Decidable (¬ _))
  | .createLoad .. | .createExchange .. | .createInsert .. | .createRelease _
  | .createContains _ | .deleteRemove _ | .deleteRelease _ | .clearLoad | .clearEntries _
  | .clearOrder _ | .clearStore _ | .returned _ => isTrue trivial

/-- The next access of a call of the pool is well timed. -/
def WellTimed (pool : StorePool) (index : Nat) : Prop :=
  ∀ call ∈ pool.calls[index]?, call.WellTimed pool

instance (pool : StorePool) (index : Nat) : Decidable (WellTimed pool index) :=
  inferInstanceAs (Decidable (∀ call ∈ pool.calls[index]?, call.WellTimed pool))

namespace Store

theorem countId_insertOrder {store : Store} {key other : StoreKey} (differs : key ≠ other) :
    ((store.insertOrder key).indexed other.ns).count other.id =
      (store.indexed other.ns).count other.id := by
  rw [indexed_insertOrder]
  split
  next both =>
    obtain ⟨sameNs, missing⟩ := both
    have differsId := StoreKey.id_ne differs sameNs.symm
    rw [sameNs, indexed_of_not_containsOrder missing]
    simp [differsId]
  next => rfl

theorem countId_pushOrder {store : Store} {key other : StoreKey} (differs : key ≠ other) :
    ((store.pushOrder key).indexed other.ns).count other.id =
      (store.indexed other.ns).count other.id := by
  rw [pushOrder, indexed_updateOrder]
  split
  next both =>
    have differsId := StoreKey.id_ne differs both.1.symm
    rw [both.1, List.count_append]
    simp [differsId]
  next => rfl

theorem countId_retainOrder {store : Store} {key other : StoreKey} (differs : key ≠ other) :
    ((store.retainOrder key).indexed other.ns).count other.id =
      (store.indexed other.ns).count other.id := by
  rw [indexed_retainOrder]
  split
  next sameNs =>
    have differsId := StoreKey.id_ne differs sameNs.symm
    rw [sameNs]
    exact List.count_filter (by simpa using Ne.symm differsId)
  next => rfl

end Store

/-- A clear in progress. -/
def CallState.isClear : CallState → Bool
  | .clearLoad | .clearEntries _ | .clearOrder _ | .clearStore _ => true
  | _ => false

/-- What creates and deletes keep as long as every index update is well timed. -/
structure ListingInvariant (pool : StorePool) : Prop where
  /-- A key to which no update is owed is indexed once if it is stored. -/
  settled : ∀ key, pool.occurs (CallState.owes key) = 0 → pool.shared.IndexedOnce key
  /-- A call about to append has seen the vector of its namespace. -/
  vector : ∀ key, .createPush key ∈ pool.calls → pool.shared.containsOrder key.ns = true
  unclear : ∀ call ∈ pool.calls, call.isClear = false

section Step

variable {pool : StorePool} {index : Nat} {call after : CallState} {shared : Store}

/--
A well timed step keeps every key to which nothing is owed afterwards indexed
once.  An insertion or removal of an entry makes the call owe the update of its
own key, an index update pays it, and every other access leaves the key alone.
-/
theorem settled_step (invariant : ListingInvariant pool)
    (located : pool.calls[index]? = some call)
    (moved : call.Moves pool.shared after shared) (timed : call.WellTimed pool)
    (key : StoreKey)
    (settled : Pool.occurs ⟨shared, pool.calls.set index after⟩ (CallState.owes key) = 0) :
    shared.IndexedOnce key := by
  have counted := Pool.occurs_set located shared after (CallState.owes key)
  rw [settled] at counted
  have last : call.owes key = true → (pool.shared.read key).isSome = true →
      LastOwed pool key := by
    intro owing stored
    rw [owing] at counted
    have positive := Pool.occurs_pos located owing
    exact ⟨stored, by simp only [if_true] at counted; omega⟩
  have carry : after.owes key = call.owes key → shared.read key = pool.shared.read key →
      (shared.indexed key.ns).count key.id = (pool.shared.indexed key.ns).count key.id →
      shared.IndexedOnce key := by
    intro owing read count
    rw [owing] at counted
    exact (invariant.settled key (by omega)).congr read count
  cases moved with
  | full | load | exchange | retry | taken | collide | seen | unseen | missing | release
  | clearLoad | clearStore => exact carry rfl rfl rfl
  | clearEntries | clearOrder =>
      have clear := invariant.unclear _ (List.mem_of_getElem? located)
      cases clear
  | @insert filed value _ absent =>
      by_cases same : filed = key
      · simp [CallState.owes, same] at counted
      · refine carry (by simp [CallState.owes, same]) ?_ rfl
        rw [Store.read, FiniteMap.lookup_insert_eq, if_neg (Ne.symm same)]
        rfl
  | @remove dropped _ present =>
      by_cases same : dropped = key
      · simp [CallState.owes, same] at counted
      · refine carry (by simp [CallState.owes, same]) ?_ rfl
        rw [Store.read, FiniteMap.lookup_erase_eq, if_neg (Ne.symm same)]
        rfl
  | @start filed =>
      by_cases same : filed = key
      · subst same
        intro stored
        rw [Store.read, Store.entries_insertOrder] at stored
        have onTime := timed (last (by simp [CallState.owes]) stored)
        rw [Store.indexed_insertOrder]
        rcases onTime with missing | once
        · simp [missing]
        · split
          · simp
          · exact once
      · exact carry (by simp [CallState.owes, same]) (by simp [Store.read])
          (Store.countId_insertOrder same)
  | @push filed =>
      by_cases same : filed = key
      · subst same
        intro stored
        rw [Store.read, Store.pushOrder, Store.entries_updateOrder] at stored
        have fresh := timed (last (by simp [CallState.owes]) stored)
        have held := invariant.vector filed (List.mem_of_getElem? located)
        rw [Store.pushOrder, Store.indexed_updateOrder, if_pos ⟨rfl, held⟩, List.count_append,
          List.count_eq_zero_of_not_mem fresh]
        simp
      · exact carry (by simp [CallState.owes, same]) (by simp [Store.read, Store.pushOrder])
          (Store.countId_pushOrder same)
  | @retain dropped =>
      by_cases same : dropped = key
      · subst same
        intro stored
        rw [Store.read, Store.retainOrder, Store.entries_updateOrder] at stored
        exact absurd (last (by simp [CallState.owes]) stored) timed
      · exact carry (by simp [CallState.owes, same]) (by simp [Store.read, Store.retainOrder])
          (Store.countId_retainOrder same)

/-- Creates and deletes never drop the vector of a namespace. -/
theorem containsOrder_step (unclear : call.isClear = false)
    (moved : call.Moves pool.shared after shared) {ns : String}
    (held : pool.shared.containsOrder ns = true) : shared.containsOrder ns = true := by
  cases moved with
  | full | load | exchange | retry | insert | taken | collide | seen | unseen | missing | remove
  | release | clearLoad | clearStore => exact held
  | clearEntries | clearOrder => cases unclear
  | start => exact Store.containsOrder_insertOrder held
  | push | retain => exact Store.containsOrder_updateOrder held

theorem unclear_step (unclear : call.isClear = false)
    (moved : call.Moves pool.shared after shared) : after.isClear = false := by
  cases moved <;> first | rfl | cases unclear

/-- A well timed step of a create or a delete keeps the invariant. -/
theorem ListingInvariant.step {last : StorePool} (invariant : ListingInvariant pool)
    (timed : WellTimed pool index) (stepped : pool.step CallState.next index = some last) :
    ListingInvariant last := by
  obtain ⟨call, after, shared, located, moved, rfl⟩ := StorePool.step_moves stepped
  have unclear := invariant.unclear call (List.mem_of_getElem? located)
  refine ⟨settled_step invariant located moved (timed call located), ?_, ?_⟩
  · intro key member
    rcases List.mem_or_eq_of_mem_set member with before | now
    · exact containsOrder_step unclear moved (invariant.vector key before)
    · subst now
      cases moved with
      | seen held => exact held
  · intro other member
    rcases List.mem_or_eq_of_mem_set member with before | now
    · exact invariant.unclear other before
    · exact now ▸ unclear_step unclear moved

/--
A step that is not well timed leaves a stored key, to which no update is owed
any more, missing from its listing or listed twice.
-/
theorem mistimed_step {last : StorePool} (mistimed : ¬ WellTimed pool index)
    (stepped : pool.step CallState.next index = some last) :
    ∃ key, last.occurs (CallState.owes key) = 0 ∧ ¬ last.shared.IndexedOnce key := by
  obtain ⟨call, after, shared, located, moved, rfl⟩ := StorePool.step_moves stepped
  have untimely : ¬ call.WellTimed pool := by
    intro timed
    apply mistimed
    intro other same
    rw [located] at same
    exact Option.some.inj same ▸ timed
  have paid : ∀ key, LastOwed pool key → call.owes key = true → after.owes key = false →
      Pool.occurs ⟨shared, pool.calls.set index after⟩ (CallState.owes key) = 0 := by
    intro key last owing settled
    have counted := Pool.occurs_set located shared after (CallState.owes key)
    rw [owing, settled, last.2] at counted
    simpa using counted
  cases moved with
  | @start key =>
      simp only [CallState.WellTimed, Classical.not_imp, not_or, Bool.not_eq_false] at untimely
      obtain ⟨last, held, wrong⟩ := untimely
      refine ⟨key, paid key last (by simp [CallState.owes]) rfl, fun once => wrong ?_⟩
      have counted := once (by simpa [Store.read] using last.1)
      simpa [Store.indexed_insertOrder, held] using counted
  | @push key =>
      simp only [CallState.WellTimed, Classical.not_imp, not_not] at untimely
      obtain ⟨last, listed⟩ := untimely
      refine ⟨key, paid key last (by simp [CallState.owes]) rfl, fun once => ?_⟩
      have held : pool.shared.containsOrder key.ns = true := by
        by_contra missing
        rw [Store.indexed_of_not_containsOrder (Bool.not_eq_true _ ▸ missing)] at listed
        cases listed
      have counted := once (by simpa [Store.read, Store.pushOrder] using last.1)
      rw [Store.pushOrder, Store.indexed_updateOrder, if_pos ⟨rfl, held⟩, List.count_append]
        at counted
      have before := List.count_pos_iff.mpr listed
      simp only [List.count_singleton_self] at counted
      omega
  | @retain key =>
      have last := not_not.mp untimely
      refine ⟨key, paid key last (by simp [CallState.owes]) rfl, fun once => ?_⟩
      have counted := once (by simpa [Store.read, Store.retainOrder] using last.1)
      have gone : key.id ∉ ((pool.shared.retainOrder key).indexed key.ns) := by
        simp [Store.indexed_retainOrder]
      rw [List.count_eq_zero_of_not_mem gone] at counted
      cases counted
  | full | load | exchange | retry | insert | taken | collide | seen | unseen | remove | missing
  | release | clearLoad | clearEntries | clearOrder | clearStore => exact absurd trivial untimely

end Step

theorem listingInvariant_initial {limit : Nat} {calls : List ConcurrentCall}
    (unclear : ∀ call ∈ calls, call ≠ .clear) :
    ListingInvariant (StorePool.initial limit calls) := by
  refine ⟨?_, ?_, ?_⟩
  · intro key _ stored
    cases stored
  · intro key member
    obtain ⟨call, _, started⟩ := List.mem_map.mp member
    cases call <;> cases started
  · intro position member
    obtain ⟨call, called, rfl⟩ := List.mem_map.mp member
    cases call with
    | create | delete => rfl
    | clear => exact absurd rfl (unclear _ called)

theorem CallState.not_returned_of_owes {key : StoreKey} (call : CallState)
    (owing : call.owes key = true) : call.isReturned = false := by
  cases call with
  | returned => cases owing
  | _ => rfl

/--
Creates and deletes whose index updates are all well timed leave an exact
listing of every namespace once they have returned.  An update that is not,
in any interleaving, makes a listing wrong at once.
-/
theorem listings_exact_when_wellTimed (limit : Nat) (calls : List ConcurrentCall)
    (unclear : ∀ call ∈ calls, call ≠ .clear) :
    (∀ last, Pool.Run CallState.next WellTimed (StorePool.initial limit calls) last →
      last.Quiescent CallState.isReturned → ∀ ns, last.shared.ListsExactly ns) ∧
    (∀ pool index last, StoreRun (StorePool.initial limit calls) pool →
      ¬ WellTimed pool index → pool.step CallState.next index = some last →
      ∃ key, last.occurs (CallState.owes key) = 0 ∧ ¬ last.shared.IndexedOnce key) := by
  refine ⟨?_, fun pool index last _ => mistimed_step⟩
  intro last run quiet ns
  have invariant := run.preserves ListingInvariant ListingInvariant.step
    (listingInvariant_initial unclear)
  refine Store.listsExactly_of_indexedOnce fun id => invariant.settled ⟨ns, id⟩ ?_
  exact quiet.occurs_eq_zero CallState.not_returned_of_owes

/-- A create and a delete, then two creates one after the other. -/
def tidyCalls : List ConcurrentCall :=
  [.create ⟨"/users", "a"⟩ (.string "a"), .delete ⟨"/users", "a"⟩,
    .create ⟨"/users", "a"⟩ (.string "b"), .create ⟨"/users", "b"⟩ (.string "c")]

theorem listings_exact_when_wellTimed_tidy :
    (∀ call ∈ tidyCalls, call ≠ .clear) ∧
    ∃ last, Pool.Run CallState.next WellTimed (StorePool.initial 8 tidyCalls) last ∧
      last.Quiescent CallState.isReturned ∧ last.shared.ListsExactly "/users" ∧
      last.shared.list "/users" = [.string "b", .string "c"] := by
  have unclear : ∀ call ∈ tidyCalls, call ≠ .clear := by
    simp [tidyCalls]
  have reached : ∃ last, Pool.Run CallState.next WellTimed (StorePool.initial 8 tidyCalls) last ∧
      decide (last.Quiescent CallState.isReturned ∧
        last.shared.list "/users" = [.string "b", .string "c"]) = true :=
    Pool.exists_run_of_follow [0, 0, 0, 0, 0, 1, 1, 1, 2, 2, 2, 3, 2, 3, 2, 3, 3, 3] (by decide)
  obtain ⟨last, run, meets⟩ := reached
  obtain ⟨quiet, listed⟩ := of_decide_eq_true meets
  exact ⟨unclear, last, run, quiet,
    (listings_exact_when_wellTimed 8 tidyCalls unclear).1 last run quiet "/users", listed⟩

/-- Two creates that both find no vector for their namespace. -/
def racingCreates : List ConcurrentCall :=
  [.create ⟨"/users", "a"⟩ (.string "a"), .create ⟨"/users", "b"⟩ (.string "b")]

/--
Both creates succeed, but the second vector is dropped for the first, so one
resource is stored and not listed.
-/
theorem racing_creates_lose_listing :
    ¬ ∀ (limit : Nat) (calls : List ConcurrentCall), (∀ call ∈ calls, call ≠ .clear) →
      ∀ last, StoreRun (StorePool.initial limit calls) last →
        last.Quiescent CallState.isReturned → ∀ ns,
          (last.shared.list ns).Perm
            (FiniteMap.valuesWhere last.shared.entries (inNamespace ns)) := by
  intro exact
  have reached : ∃ last, StoreRun (StorePool.initial 8 racingCreates) last ∧
      decide (last.Quiescent CallState.isReturned ∧
        ¬ (last.shared.list "/users").Perm
          (FiniteMap.valuesWhere last.shared.entries (inNamespace "/users"))) = true :=
    Pool.exists_run_of_follow [0, 0, 0, 1, 1, 1, 0, 1, 0, 1] (by decide)
  obtain ⟨last, run, meets⟩ := reached
  obtain ⟨quiet, wrong⟩ := of_decide_eq_true meets
  exact wrong (exact 8 racingCreates (by simp [racingCreates]) last run quiet "/users")

end SpecMock.Core
