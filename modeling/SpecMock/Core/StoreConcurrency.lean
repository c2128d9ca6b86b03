import SpecMock.Core.StoreRefinement
import SpecMock.Library.Interleaving

/-!
# Concurrent store calls

Creates, deletes and clears of one store interleave at their single accesses:
each map call and each access to the counter is one atomic step.  A call is
represented by where it stands, with the local values it still needs.
-/

namespace SpecMock.Core

open SpecMock.Library

/-- A call whose steps interleave with those of others. -/
inductive ConcurrentCall where
  | create (key : StoreKey) (value : Value)
  | delete (key : StoreKey)
  | clear

/-- Where a concurrent call stands: the access it makes next. -/
inductive CallState where
  | createLoad (key : StoreKey) (value : Value)
  | createExchange (key : StoreKey) (value : Value) (current : Nat)
  | createInsert (key : StoreKey) (value : Value)
  | createRelease (key : StoreKey)
  | createContains (key : StoreKey)
  | createStart (key : StoreKey)
  | createPush (key : StoreKey)
  | deleteRemove (key : StoreKey)
  | deleteRelease (key : StoreKey)
  | deleteRetain (key : StoreKey)
  | clearLoad
  | clearEntries (removed : Nat)
  | clearOrder (removed : Nat)
  | clearStore (removed : Nat)
  | returned (reply : StoreReply)

def ConcurrentCall.start : ConcurrentCall → CallState
  | .create key value => .createLoad key value
  | .delete key => .deleteRemove key
  | .clear => .clearLoad

def CallState.isReturned : CallState → Bool
  | .returned _ => true
  | _ => false

/-- The next atomic access of a call. -/
def CallState.next : CallState → Store → Option (CallState × Store)
  | .createLoad key value, store =>
      if store.count ≥ store.limit then
        some (.returned (.done (.error (.capacityExceeded store.limit))), store)
      else some (.createExchange key value store.count, store)
  | .createExchange key value current, store =>
      -- A failed exchange goes back to the head of the loop.
      if store.count = current then some (.createInsert key value, store.reserve current)
      else some (.createLoad key value, store)
  | .createInsert key value, store =>
      match store.insertEntry key value with
      | none => some (.createRelease key, store)
      | some inserted => some (.createContains key, inserted)
  | .createRelease key, store =>
      some (.returned (.done (.error (.alreadyExists key))), store.release)
  | .createContains key, store =>
      if store.containsOrder key.ns then some (.createPush key, store)
      else some (.createStart key, store)
  | .createStart key, store => some (.returned (.done (.ok ())), store.insertOrder key)
  | .createPush key, store => some (.returned (.done (.ok ())), store.pushOrder key)
  | .deleteRemove key, store =>
      match store.removeEntry key with
      | none => some (.returned (.done (.error (.notFound key))), store)
      | some removed => some (.deleteRelease key, removed)
  | .deleteRelease key, store => some (.deleteRetain key, store.release)
  | .deleteRetain key, store => some (.returned (.done (.ok ())), store.retainOrder key)
  | .clearLoad, store => some (.clearEntries store.count, store)
  | .clearEntries removed, store => some (.clearOrder removed, { store with entries := ∅ })
  | .clearOrder removed, store => some (.clearStore removed, { store with order := ∅ })
  | .clearStore removed, store =>
      some (.returned (.counted removed), { store with count := 0 })
  | .returned _, _ => none

/-- Everything one access can do, with what it found. -/
inductive CallState.Moves : CallState → Store → CallState → Store → Prop where
  | full {key : StoreKey} {value : Value} {store : Store} (full : store.limit ≤ store.count) :
      Moves (.createLoad key value) store
        (.returned (.done (.error (.capacityExceeded store.limit)))) store
  | load {key : StoreKey} {value : Value} {store : Store} (room : store.count < store.limit) :
      Moves (.createLoad key value) store (.createExchange key value store.count) store
  | exchange {key : StoreKey} {value : Value} {store : Store} :
      Moves (.createExchange key value store.count) store (.createInsert key value)
        (store.reserve store.count)
  | retry {key : StoreKey} {value : Value} {current : Nat} {store : Store}
      (changed : store.count ≠ current) :
      Moves (.createExchange key value current) store (.createLoad key value) store
  | insert {key : StoreKey} {value : Value} {store : Store} (absent : store.read key = none) :
      Moves (.createInsert key value) store (.createContains key)
        { store with entries := store.entries.insert key value }
  | taken {key : StoreKey} {value : Value} {store : Store}
      (present : (store.read key).isSome = true) :
      Moves (.createInsert key value) store (.createRelease key) store
  | collide {key : StoreKey} {store : Store} :
      Moves (.createRelease key) store (.returned (.done (.error (.alreadyExists key))))
        store.release
  | seen {key : StoreKey} {store : Store} (held : store.containsOrder key.ns = true) :
      Moves (.createContains key) store (.createPush key) store
  | unseen {key : StoreKey} {store : Store} (missing : store.containsOrder key.ns = false) :
      Moves (.createContains key) store (.createStart key) store
  | start {key : StoreKey} {store : Store} :
      Moves (.createStart key) store (.returned (.done (.ok ()))) (store.insertOrder key)
  | push {key : StoreKey} {store : Store} :
      Moves (.createPush key) store (.returned (.done (.ok ()))) (store.pushOrder key)
  | remove {key : StoreKey} {store : Store} (present : (store.read key).isSome = true) :
      Moves (.deleteRemove key) store (.deleteRelease key)
        { store with entries := store.entries.erase key }
  | missing {key : StoreKey} {store : Store} (absent : store.read key = none) :
      Moves (.deleteRemove key) store (.returned (.done (.error (.notFound key)))) store
  | release {key : StoreKey} {store : Store} :
      Moves (.deleteRelease key) store (.deleteRetain key) store.release
  | retain {key : StoreKey} {store : Store} :
      Moves (.deleteRetain key) store (.returned (.done (.ok ()))) (store.retainOrder key)
  | clearLoad {store : Store} : Moves .clearLoad store (.clearEntries store.count) store
  | clearEntries {removed : Nat} {store : Store} :
      Moves (.clearEntries removed) store (.clearOrder removed) { store with entries := ∅ }
  | clearOrder {removed : Nat} {store : Store} :
      Moves (.clearOrder removed) store (.clearStore removed) { store with order := ∅ }
  | clearStore {removed : Nat} {store : Store} :
      Moves (.clearStore removed) store (.returned (.counted removed)) { store with count := 0 }

theorem CallState.moves_of_next {call after : CallState} {store shared : Store}
    (moved : call.next store = some (after, shared)) : call.Moves store after shared := by
  cases call with
  | createLoad key value =>
      simp only [next] at moved
      split at moved
      next full =>
        obtain ⟨rfl, rfl⟩ := Prod.mk.inj (Option.some.inj moved)
        exact .full full
      next room =>
        obtain ⟨rfl, rfl⟩ := Prod.mk.inj (Option.some.inj moved)
        exact .load (Nat.lt_of_not_le room)
  | createExchange key value current =>
      simp only [next] at moved
      split at moved
      next unchanged =>
        subst unchanged
        obtain ⟨rfl, rfl⟩ := Prod.mk.inj (Option.some.inj moved)
        exact .exchange
      next changed =>
        obtain ⟨rfl, rfl⟩ := Prod.mk.inj (Option.some.inj moved)
        exact .retry changed
  | createInsert key value =>
      simp only [next] at moved
      cases inserted : store.insertEntry key value with
      | none =>
          rw [inserted] at moved
          obtain ⟨rfl, rfl⟩ := Prod.mk.inj (Option.some.inj moved)
          exact .taken (Store.insertEntry_eq_none.mp inserted)
      | some result =>
          obtain ⟨absent, rfl⟩ := Store.insertEntry_eq_some inserted
          rw [inserted] at moved
          obtain ⟨rfl, rfl⟩ := Prod.mk.inj (Option.some.inj moved)
          exact .insert absent
  | createContains key =>
      simp only [next] at moved
      split at moved
      next held =>
        obtain ⟨rfl, rfl⟩ := Prod.mk.inj (Option.some.inj moved)
        exact .seen held
      next missing =>
        obtain ⟨rfl, rfl⟩ := Prod.mk.inj (Option.some.inj moved)
        exact .unseen (Bool.not_eq_true _ ▸ missing)
  | deleteRemove key =>
      simp only [next] at moved
      cases removed : store.removeEntry key with
      | none =>
          rw [removed] at moved
          obtain ⟨rfl, rfl⟩ := Prod.mk.inj (Option.some.inj moved)
          exact .missing (Store.removeEntry_eq_none.mp removed)
      | some result =>
          obtain ⟨⟨held, found⟩, rfl⟩ := Store.removeEntry_eq_some removed
          rw [removed] at moved
          obtain ⟨rfl, rfl⟩ := Prod.mk.inj (Option.some.inj moved)
          exact .remove (by rw [found]; rfl)
  | createRelease | createStart | createPush | deleteRelease | deleteRetain | clearLoad
  | clearEntries | clearOrder | clearStore =>
      obtain ⟨rfl, rfl⟩ := Prod.mk.inj (Option.some.inj moved)
      constructor
  | returned => cases moved

/-- A store and the calls in progress on it. -/
abbrev StorePool := Pool Store CallState

/-- A new store on which a set of calls is about to run. -/
def StorePool.initial (limit : Nat) (calls : List ConcurrentCall) : StorePool :=
  ⟨Store.new limit, calls.map ConcurrentCall.start⟩

/-- A step of a pool is an access of one of its calls. -/
theorem StorePool.step_moves {pool last : StorePool} {index : Nat}
    (stepped : pool.step CallState.next index = some last) :
    ∃ call after shared, pool.calls[index]? = some call ∧
      call.Moves pool.shared after shared ∧ last = ⟨shared, pool.calls.set index after⟩ := by
  obtain ⟨call, after, shared, located, moved, rfl⟩ := Pool.step_cases stepped
  exact ⟨call, after, shared, located, CallState.moves_of_next moved, rfl⟩

/-- Interleavings of store calls. -/
abbrev StoreRun := Pool.FreeRun CallState.next

/-- The same call made alone. -/
def ConcurrentCall.toCall : ConcurrentCall → StoreCall
  | .create key value => .create key value
  | .delete key => .delete key
  | .clear => .clear

/-- Without interference, the accesses of a call make up the sequential operation. -/
theorem alone_run_exec (store : Store) (call : ConcurrentCall) :
    StoreRun ⟨store, [call.start]⟩
      ⟨(store.exec call.toCall).1, [.returned (store.exec call.toCall).2]⟩ := by
  cases call with
  | create key value =>
      simp only [ConcurrentCall.start, ConcurrentCall.toCall, Store.exec, Store.create]
      by_cases full : store.count ≥ store.limit
      · rw [if_pos full]
        apply Pool.run_of_follow [0]
        simp [Pool.follow, Pool.step, CallState.next, full]
      rw [if_neg full]
      cases inserted : (store.reserve store.count).insertEntry key value with
      | none =>
          apply Pool.run_of_follow [0, 0, 0, 0]
          simp [Pool.follow, Pool.step, CallState.next, full, inserted]
      | some after =>
          apply Pool.run_of_follow [0, 0, 0, 0, 0]
          cases held : after.containsOrder key.ns <;>
            simp [Pool.follow, Pool.step, CallState.next, full, inserted, held, Store.indexKey]
  | delete key =>
      simp only [ConcurrentCall.start, ConcurrentCall.toCall, Store.exec, Store.delete]
      cases removed : store.removeEntry key with
      | none =>
          apply Pool.run_of_follow [0]
          simp [Pool.follow, Pool.step, CallState.next, removed]
      | some after =>
          apply Pool.run_of_follow [0, 0, 0]
          simp [Pool.follow, Pool.step, CallState.next, removed]
  | clear =>
      apply Pool.run_of_follow [0, 0, 0, 0]
      simp [Pool.follow, Pool.step, CallState.next, ConcurrentCall.start, ConcurrentCall.toCall,
        Store.exec, Store.clear]

/-- A call that returns alone has done what the sequential operation does. -/
theorem alone_run_unique {store after : Store} {call : ConcurrentCall} {reply : StoreReply}
    (run : StoreRun ⟨store, [call.start]⟩ ⟨after, [.returned reply]⟩) :
    store.exec call.toCall = (after, reply) := by
  have stopped : ∀ (shared : Store) (answer : StoreReply) (index : Nat),
      Pool.step CallState.next ⟨shared, [.returned answer]⟩ index = none := by
    intro shared answer index
    cases index <;> simp [Pool.step, CallState.next]
  have same := Pool.Run.finished_unique run (alone_run_exec store call) (stopped _ _) (stopped _ _)
  injection same with sameStore sameCalls
  cases sameCalls
  exact Prod.ext sameStore.symm rfl

end SpecMock.Core
