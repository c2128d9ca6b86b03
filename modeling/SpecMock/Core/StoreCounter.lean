import SpecMock.Core.StoreConcurrency

/-!
# The counter under concurrent creates, deletes and clears

A slot is in use when its entry is stored, when a create has reserved it, or
when a delete has still to release it.  Creates and deletes keep the counter at
the number of slots in use.  A clear drops the entries first and overwrites the
counter with zero later, which is right only when no slot is in use at that
moment.
-/

namespace SpecMock.Core

open SpecMock.Library

/-- The call holds a slot of the counter that no stored entry accounts for. -/
def CallState.holdsSlot : CallState → Bool
  | .createInsert _ _ | .createRelease _ | .deleteRelease _ => true
  | _ => false

/-- The next access of the call is the `fetch_sub`. -/
def CallState.releases : CallState → Bool
  | .createRelease _ | .deleteRelease _ => true
  | _ => false

/-- A clear that has emptied the entries and not yet overwritten the counter. -/
def CallState.clearing : CallState → Bool
  | .clearOrder _ | .clearStore _ => true
  | _ => false

/-- Slots in use: by stored entries and by calls in progress. -/
def slotsInUse (pool : StorePool) : Nat :=
  FiniteMap.size pool.shared.entries + pool.occurs CallState.holdsSlot

/-- A call that overwrites the counter does so when no slot is in use. -/
def CallState.ClearsIdle (pool : StorePool) : CallState → Prop
  | .clearStore _ => slotsInUse pool = 0
  | _ => True

/-- The next access of a call of the pool does not overwrite a counter in use. -/
def ClearsIdle (pool : StorePool) (index : Nat) : Prop :=
  ∀ call ∈ pool.calls[index]?, call.ClearsIdle pool

instance (pool : StorePool) : (call : CallState) → Decidable (call.ClearsIdle pool)
  | .clearStore _ => inferInstanceAs (Decidable (_ = _))
  | .createLoad .. | .createExchange .. | .createInsert .. | .createRelease _
  | .createContains _ | .createStart _ | .createPush _ | .deleteRemove _ | .deleteRelease _
  | .deleteRetain _ | .clearLoad | .clearEntries _ | .clearOrder _ | .returned _ =>
      isTrue trivial

instance (pool : StorePool) (index : Nat) : Decidable (ClearsIdle pool index) :=
  inferInstanceAs (Decidable (∀ call ∈ pool.calls[index]?, call.ClearsIdle pool))

/-- What every access keeps as long as clears overwrite an idle counter. -/
structure CounterInvariant (limit : Nat) (pool : StorePool) : Prop where
  limited : pool.shared.limit = limit
  covered : slotsInUse pool ≤ pool.shared.count
  bounded : pool.shared.count ≤ limit
  /-- The counter runs ahead only while a clear is about to overwrite it. -/
  counted : pool.shared.count = slotsInUse pool ∨ 0 < pool.occurs CallState.clearing
  /-- A create exchanges a count below the limit. -/
  room : ∀ key value current, .createExchange key value current ∈ pool.calls → current < limit

theorem CallState.Moves.limit {call after : CallState} {store shared : Store}
    (moved : call.Moves store after shared) : shared.limit = store.limit := by
  cases moved <;> simp [Store.pushOrder, Store.retainOrder]

section Step

variable {limit : Nat} {pool : StorePool} {index : Nat} {call after : CallState} {shared : Store}

/--
An access moves the counter with the slots in use: a reservation and a release
change both by one, a removal hands its slot to the delete, an insertion takes
over the slot of its create, and the other accesses change neither.
-/
theorem counter_step (invariant : CounterInvariant limit pool)
    (located : pool.calls[index]? = some call)
    (moved : call.Moves pool.shared after shared) (idle : call.ClearsIdle pool) :
    slotsInUse ⟨shared, pool.calls.set index after⟩ ≤ shared.count ∧ shared.count ≤ limit ∧
      (shared.count = slotsInUse ⟨shared, pool.calls.set index after⟩ ∨
        0 < Pool.occurs ⟨shared, pool.calls.set index after⟩ CallState.clearing) := by
  have slots := Pool.occurs_set located shared after CallState.holdsSlot
  have clears := Pool.occurs_set located shared after CallState.clearing
  obtain ⟨limited, covered, bounded, counted, room⟩ := invariant
  simp only [slotsInUse] at covered counted idle ⊢
  generalize Pool.occurs ⟨shared, pool.calls.set index after⟩ CallState.holdsSlot = slotsAfter
    at slots ⊢
  generalize Pool.occurs ⟨shared, pool.calls.set index after⟩ CallState.clearing = clearsAfter
    at clears ⊢
  cases moved with
  | full | load | retry | taken | seen | unseen | missing | clearLoad =>
      simp only [CallState.holdsSlot, CallState.clearing, if_true, Bool.false_eq_true, if_false]
        at slots clears
      omega
  | start | push | retain =>
      simp only [CallState.holdsSlot, CallState.clearing, Bool.false_eq_true, if_false]
        at slots clears
      simp only [Store.pushOrder, Store.retainOrder, Store.entries_updateOrder,
        Store.count_updateOrder, Store.entries_insertOrder, Store.count_insertOrder]
      omega
  | @exchange key value =>
      have free := room key value _ (List.mem_of_getElem? located)
      simp only [CallState.holdsSlot, CallState.clearing, if_true, Bool.false_eq_true, if_false]
        at slots clears
      simp only [Store.entries_reserve, Store.count_reserve]
      omega
  | @insert key value _ absent =>
      have inserted := FiniteMap.size_insert_of_absent value absent
      simp only [CallState.holdsSlot, CallState.clearing, if_true, Bool.false_eq_true, if_false]
        at slots clears ⊢
      omega
  | remove present =>
      obtain ⟨held, found⟩ := Option.isSome_iff_exists.mp present
      have removed := FiniteMap.size_erase_of_present found
      simp only [CallState.holdsSlot, CallState.clearing, if_true, Bool.false_eq_true, if_false]
        at slots clears ⊢
      omega
  | collide | release =>
      have used : 0 < pool.occurs CallState.holdsSlot := Pool.occurs_pos located rfl
      simp only [CallState.holdsSlot, CallState.clearing, if_true, Bool.false_eq_true, if_false]
        at slots clears
      simp only [Store.entries_release, Store.count_release, fetchSub]
      split <;> omega
  | clearEntries | clearOrder =>
      simp only [CallState.holdsSlot, CallState.clearing, if_true, Bool.false_eq_true, if_false]
        at slots clears
      simp only [FiniteMap.size_empty]
      omega
  | clearStore =>
      have unused : slotsInUse pool = 0 := idle
      simp only [slotsInUse] at unused
      simp only [CallState.holdsSlot, CallState.clearing, if_true, Bool.false_eq_true, if_false]
        at slots clears ⊢
      omega

theorem CounterInvariant.step {last : StorePool} (invariant : CounterInvariant limit pool)
    (idle : ClearsIdle pool index) (stepped : pool.step CallState.next index = some last) :
    CounterInvariant limit last := by
  obtain ⟨call, after, shared, located, moved, rfl⟩ := StorePool.step_moves stepped
  obtain ⟨covered, bounded, counted⟩ :=
    counter_step invariant located moved (idle call located)
  refine ⟨moved.limit.trans invariant.limited, covered, bounded, counted, ?_⟩
  intro key value current member
  rcases List.mem_or_eq_of_mem_set member with before | now
  · exact invariant.room key value current before
  · subst now
    cases moved with
    | load room => exact invariant.limited ▸ room

end Step

theorem counterInvariant_initial (limit : Nat) (calls : List ConcurrentCall) :
    CounterInvariant limit (StorePool.initial limit calls) := by
  have unused : slotsInUse (StorePool.initial limit calls) = 0 := by
    refine Nat.add_eq_zero_iff.mpr ⟨rfl, List.countP_eq_zero.mpr fun position member => ?_⟩
    obtain ⟨call, _, rfl⟩ := List.mem_map.mp member
    cases call <;> simp [ConcurrentCall.start, CallState.holdsSlot]
  refine ⟨rfl, Nat.le_of_eq unused, Nat.zero_le limit, .inl unused.symm, ?_⟩
  intro key value current member
  obtain ⟨call, _, started⟩ := List.mem_map.mp member
  cases call <;> cases started

section Quiescence

variable {limit : Nat} {pool : StorePool}

/-- A call about to release holds a slot, so the counter is not zero. -/
theorem CounterInvariant.count_pos (invariant : CounterInvariant limit pool) {index : Nat}
    {call : CallState} (located : pool.calls[index]? = some call)
    (releasing : call.releases = true) : 0 < pool.shared.count := by
  have holding : call.holdsSlot = true := by
    cases call with
    | createRelease | deleteRelease => rfl
    | _ => cases releasing
  have used := Pool.occurs_pos located holding
  have covered := invariant.covered
  simp only [slotsInUse] at covered
  omega

/-- Once every call has returned, the counter is the number of stored entries. -/
theorem CounterInvariant.count_eq_size (invariant : CounterInvariant limit pool)
    (quiet : pool.Quiescent CallState.isReturned) :
    pool.shared.count = FiniteMap.size pool.shared.entries := by
  have slots : pool.occurs CallState.holdsSlot = 0 :=
    quiet.occurs_eq_zero fun call holding => by
      cases call with
      | returned => cases holding
      | _ => rfl
  have clears : pool.occurs CallState.clearing = 0 :=
    quiet.occurs_eq_zero fun call clearing => by
      cases call with
      | returned => cases clearing
      | _ => rfl
  have counted := invariant.counted
  simp only [slotsInUse] at counted
  omega

/-- A create that runs alone is refused for capacity only by a full counter. -/
theorem full_of_refused {store after : Store} {key : StoreKey} {value : Value} {bound : Nat}
    (run : StoreRun ⟨store, [(ConcurrentCall.create key value).start]⟩
      ⟨after, [.returned (.done (.error (.capacityExceeded bound)))]⟩) :
    store.limit ≤ store.count := by
  have executed := alone_run_unique run
  simp only [ConcurrentCall.toCall, Store.exec] at executed
  rcases store.create_cases key value with ⟨full, _⟩ | ⟨_, _, taken⟩ | ⟨_, _, filed, created, _⟩
  · exact full
  · rw [taken] at executed
    cases executed
  · rw [created] at executed
    cases executed

end Quiescence

/--
As long as every clear overwrites the counter while no slot is in use, no
release finds a zero counter, the counter of a quiescent store is its number
of entries, and a create that runs alone there is refused only when the limit
is reached by stored entries.  A clear that overwrites a counter in use leaves
it at zero with the slots still in use.
-/
theorem counter_exact_when_clearsIdle (limit : Nat) (calls : List ConcurrentCall) :
    (∀ last, Pool.Run CallState.next ClearsIdle (StorePool.initial limit calls) last →
      (∀ (index : Nat) (call : CallState), last.calls[index]? = some call → call.releases = true →
        0 < last.shared.count) ∧
      (last.Quiescent CallState.isReturned →
        last.shared.count = FiniteMap.size last.shared.entries ∧
        ∀ key value after bound,
          StoreRun ⟨last.shared, [(ConcurrentCall.create key value).start]⟩
            ⟨after, [.returned (.done (.error (.capacityExceeded bound)))]⟩ →
          FiniteMap.size last.shared.entries = limit)) ∧
    (∀ pool index last, StoreRun (StorePool.initial limit calls) pool →
      ¬ ClearsIdle pool index → pool.step CallState.next index = some last →
      last.shared.count = 0 ∧ 0 < slotsInUse last) := by
  constructor
  · intro last run
    have invariant := run.preserves (CounterInvariant limit) CounterInvariant.step
      (counterInvariant_initial limit calls)
    refine ⟨fun index call located => invariant.count_pos located, fun quiet => ?_⟩
    have counted := invariant.count_eq_size quiet
    refine ⟨counted, fun key value after bound refused => ?_⟩
    have full := full_of_refused refused
    have bounded := invariant.bounded
    rw [invariant.limited] at full
    omega
  · intro pool index last _ busy stepped
    obtain ⟨call, after, shared, located, moved, rfl⟩ := StorePool.step_moves stepped
    have inUse : ¬ call.ClearsIdle pool := by
      intro idle
      apply busy
      intro other same
      rw [located] at same
      exact Option.some.inj same ▸ idle
    cases moved with
    | @clearStore removed =>
        refine ⟨rfl, ?_⟩
        have slots := Pool.occurs_set located { pool.shared with count := 0 }
          (.returned (.counted removed)) CallState.holdsSlot
        have used : slotsInUse pool ≠ 0 := inUse
        simp only [slotsInUse] at used ⊢
        simp only [CallState.holdsSlot, Bool.false_eq_true, if_false] at slots
        omega
    | _ => exact absurd trivial inUse

/-- A create and a delete, and a clear that starts when both have returned. -/
def orderlyCalls : List ConcurrentCall :=
  [.create ⟨"/users", "a"⟩ .null, .delete ⟨"/users", "a"⟩, .clear, .create ⟨"/users", "b"⟩ .null]

theorem counter_exact_when_clearsIdle_orderly :
    ∃ last, Pool.Run CallState.next ClearsIdle (StorePool.initial 1 orderlyCalls) last ∧
      last.Quiescent CallState.isReturned ∧ last.shared.count = 1 ∧
      FiniteMap.size last.shared.entries = 1 := by
  have reached : ∃ last,
      Pool.Run CallState.next ClearsIdle (StorePool.initial 1 orderlyCalls) last ∧
      decide (last.Quiescent CallState.isReturned ∧ last.shared.count = 1) = true :=
    Pool.exists_run_of_follow [0, 0, 0, 0, 0, 1, 1, 1, 2, 2, 2, 2, 3, 3, 3, 3, 3] (by decide)
  obtain ⟨last, run, meets⟩ := reached
  obtain ⟨quiet, counted⟩ := of_decide_eq_true meets
  have exact := (((counter_exact_when_clearsIdle 1 orderlyCalls).1 last run).2 quiet).1
  exact ⟨last, run, quiet, counted, exact ▸ counted⟩

/-- A create that inserts after a clear has overwritten its reservation, and a delete. -/
def clearedReservation : List ConcurrentCall :=
  [.create ⟨"/users", "a"⟩ .null, .clear, .delete ⟨"/users", "a"⟩]

/--
The create reserves a slot, the clear runs, the create inserts: the quiescent
store counts no entry and holds one.  The delete then takes the counter below
zero, and a store without entries refuses the next create.
-/
theorem clear_overwrites_reservation :
    (¬ ∀ (limit : Nat) (calls : List ConcurrentCall) (last : StorePool),
      StoreRun (StorePool.initial limit calls) last →
      ∀ (index : Nat) (call : CallState), last.calls[index]? = some call → call.releases = true →
        0 < last.shared.count) ∧
    (¬ ∀ (limit : Nat) (calls : List ConcurrentCall) (last : StorePool),
      StoreRun (StorePool.initial limit calls) last → last.Quiescent CallState.isReturned →
      last.shared.count = FiniteMap.size last.shared.entries) ∧
    ∃ last, StoreRun (StorePool.initial 8 clearedReservation) last ∧
      last.Quiescent CallState.isReturned ∧ FiniteMap.size last.shared.entries = 0 ∧
      last.shared.count = usizeMax ∧
      (last.shared.create ⟨"/users", "b"⟩ .null).2 = .error (.capacityExceeded 8) := by
  refine ⟨fun positive => ?_, fun counted => ?_, ?_⟩
  · have reached : ∃ last, StoreRun (StorePool.initial 8 clearedReservation) last ∧
        decide (last.calls[2]?.map CallState.releases = some true ∧
          last.shared.count = 0) = true :=
      Pool.exists_run_of_follow [0, 0, 1, 1, 1, 1, 0, 0, 0, 2] (by decide)
    obtain ⟨last, run, meets⟩ := reached
    obtain ⟨releasing, zero⟩ := of_decide_eq_true meets
    obtain ⟨call, located, releases⟩ := Option.map_eq_some_iff.mp releasing
    have above := positive 8 clearedReservation last run 2 call located releases
    omega
  · have reached : ∃ last, StoreRun (StorePool.initial 8 clearedReservation) last ∧
        decide (last.Quiescent CallState.isReturned ∧
          last.shared.count ≠ FiniteMap.size last.shared.entries) = true :=
      Pool.exists_run_of_follow [0, 0, 1, 1, 1, 1, 0, 0, 0, 2, 2, 2] (by decide)
    obtain ⟨last, run, meets⟩ := reached
    obtain ⟨quiet, differs⟩ := of_decide_eq_true meets
    exact differs (counted 8 clearedReservation last run quiet)
  · have reached : ∃ last, StoreRun (StorePool.initial 8 clearedReservation) last ∧
        decide (last.Quiescent CallState.isReturned ∧
          FiniteMap.size last.shared.entries = 0 ∧ last.shared.count = usizeMax ∧
          (last.shared.create ⟨"/users", "b"⟩ .null).2 = .error (.capacityExceeded 8)) = true :=
      Pool.exists_run_of_follow [0, 0, 1, 1, 1, 1, 0, 0, 0, 2, 2, 2] (by decide)
    obtain ⟨last, run, meets⟩ := reached
    exact ⟨last, run, of_decide_eq_true meets⟩

end SpecMock.Core
