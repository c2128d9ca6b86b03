import SpecMock.Core.StoreCounter
import SpecMock.Library.Linearization

/-!
# The store as an atomic map

Creates, reads, updates and deletes of one store interleave at their single
accesses.  Looked at from outside each of them happens at one moment: a create
when it is refused or its entry goes in, a delete when the entry goes out, the
others with their one access.  The index and the counter are not seen, save
that a create may be refused while the slots it misses are only reserved by
others.
-/

namespace SpecMock.Core

open SpecMock.Library

/-- A call on the resource at one key. -/
inductive EntryCall where
  | create (key : StoreKey) (value : Value)
  | read (key : StoreKey)
  | update (key : StoreKey) (value : Value)
  | delete (key : StoreKey)

/-- Creates and deletes take slots of the counter. -/
def EntryCall.counted : EntryCall → Bool
  | .create _ _ | .delete _ => true
  | .read _ | .update _ _ => false

/-- Before its invocation, at one of the accesses, or returned. -/
inductive EntryPosition where
  | idle
  | looking
  | replacing
  | access (state : CallState)

/-- A call with the place where it stands. -/
structure EntryProgress where
  call : EntryCall
  position : EntryPosition

namespace EntryProgress

/-- The first access of a call. -/
def first : EntryCall → EntryPosition
  | .create key value => .access (.createLoad key value)
  | .read _ => .looking
  | .update _ _ => .replacing
  | .delete key => .access (.deleteRemove key)

/-- The next step of a call: its invocation or its next access. -/
def next (progress : EntryProgress) (store : Store) : Option (EntryProgress × Store) :=
  match progress.position, progress.call with
  | .idle, call => some (⟨call, first call⟩, store)
  | .looking, .read key =>
      some (⟨progress.call, .access (.returned (.found (store.read key)))⟩, store)
  | .replacing, .update key value =>
      some (⟨progress.call, .access (.returned (.done (store.update key value).2))⟩,
        (store.update key value).1)
  | .access state, call =>
      (state.next store).map fun moved => (⟨call, .access moved.1⟩, moved.2)
  | _, _ => none

/-- The places a call comes to. -/
inductive Stands : EntryCall → EntryPosition → Prop where
  | idle (call : EntryCall) : Stands call .idle
  | load (key : StoreKey) (value : Value) :
      Stands (.create key value) (.access (.createLoad key value))
  | exchange (key : StoreKey) (value : Value) (current : Nat) :
      Stands (.create key value) (.access (.createExchange key value current))
  | insert (key : StoreKey) (value : Value) :
      Stands (.create key value) (.access (.createInsert key value))
  | collide (key : StoreKey) (value : Value) :
      Stands (.create key value) (.access (.createRelease key))
  | contains (key : StoreKey) (value : Value) :
      Stands (.create key value) (.access (.createContains key))
  | start (key : StoreKey) (value : Value) :
      Stands (.create key value) (.access (.createStart key))
  | push (key : StoreKey) (value : Value) :
      Stands (.create key value) (.access (.createPush key))
  | looking (key : StoreKey) : Stands (.read key) .looking
  | replacing (key : StoreKey) (value : Value) : Stands (.update key value) .replacing
  | remove (key : StoreKey) : Stands (.delete key) (.access (.deleteRemove key))
  | release (key : StoreKey) : Stands (.delete key) (.access (.deleteRelease key))
  | retain (key : StoreKey) : Stands (.delete key) (.access (.deleteRetain key))
  | returned (call : EntryCall) (reply : StoreReply) :
      Stands call (.access (.returned reply))

/-- A call looked at from outside. -/
def view (progress : EntryProgress) : AtomicCall EntryCall StoreReply :=
  match progress.position with
  | .idle => .idle progress.call
  | .looking | .replacing => .pending progress.call
  | .access (.returned reply) => .returned progress.call reply
  | .access (.createRelease key) =>
      .answered progress.call (.done (.error (.alreadyExists key)))
  | .access (.createContains _) | .access (.createStart _) | .access (.createPush _)
  | .access (.deleteRelease _) | .access (.deleteRetain _) =>
      .answered progress.call (.done (.ok ()))
  | .access _ => .pending progress.call

/-- The call as one of those that use the counter; the others have no more to do there. -/
def counting (progress : EntryProgress) : CallState :=
  match progress.call, progress.position with
  | .create key value, .idle => .createLoad key value
  | .delete key, .idle => .deleteRemove key
  | .create _ _, .access state | .delete _, .access state => state
  | _, _ => .returned (.found none)

/-- Everything a step of a call can do. -/
inductive Moves : EntryProgress → Store → EntryProgress → Store → Prop where
  | invoke (call : EntryCall) (store : Store) :
      Moves ⟨call, .idle⟩ store ⟨call, first call⟩ store
  | look (key : StoreKey) (store : Store) :
      Moves ⟨.read key, .looking⟩ store
        ⟨.read key, .access (.returned (.found (store.read key)))⟩ store
  | replace (key : StoreKey) (value : Value) (store : Store) :
      Moves ⟨.update key value, .replacing⟩ store
        ⟨.update key value, .access (.returned (.done (store.update key value).2))⟩
        (store.update key value).1
  | access {call : EntryCall} {state after : CallState} {store shared : Store}
      (moved : state.Moves store after shared) :
      Moves ⟨call, .access state⟩ store ⟨call, .access after⟩ shared

theorem moves_of_next {progress after : EntryProgress} {store shared : Store}
    (moved : progress.next store = some (after, shared)) : Moves progress store after shared := by
  obtain ⟨call, position⟩ := progress
  cases position with
  | idle =>
      simp only [next, Option.some.injEq, Prod.mk.injEq] at moved
      obtain ⟨rfl, rfl⟩ := moved
      exact .invoke call store
  | looking =>
      cases call with
      | read key =>
          simp only [next, Option.some.injEq, Prod.mk.injEq] at moved
          obtain ⟨rfl, rfl⟩ := moved
          exact .look key store
      | _ => cases moved
  | replacing =>
      cases call with
      | update key value =>
          simp only [next, Option.some.injEq, Prod.mk.injEq] at moved
          obtain ⟨rfl, rfl⟩ := moved
          exact .replace key value store
      | _ => cases moved
  | access state =>
      simp only [next, Option.map_eq_some_iff, Prod.mk.injEq] at moved
      obtain ⟨⟨reached, result⟩, accessed, rfl, rfl⟩ := moved
      exact .access (CallState.moves_of_next accessed)

theorem Moves.call_eq {progress after : EntryProgress} {store shared : Store}
    (moved : Moves progress store after shared) : after.call = progress.call := by
  cases moved <;> rfl

/-- A call goes from place to place. -/
theorem Stands.next {progress after : EntryProgress} {store shared : Store}
    (stands : Stands progress.call progress.position)
    (moved : Moves progress store after shared) : Stands after.call after.position := by
  cases moved with
  | invoke call _ => cases call <;> constructor
  | look key _ => constructor
  | replace key value _ => constructor
  | access moved => cases moved <;> cases stands <;> constructor

/-- Only creates and deletes that have been invoked and not returned hold a slot. -/
theorem Stands.busy_of_holdsSlot {progress : EntryProgress}
    (stands : Stands progress.call progress.position)
    (holding : progress.counting.holdsSlot = true) :
    progress.view.inProgress.any EntryCall.counted = true := by
  obtain ⟨call, position⟩ := progress
  cases stands with
  | idle => cases call <;> cases holding
  | returned => cases call <;> cases holding
  | _ => first | rfl | cases holding

end EntryProgress

/-- What one call does to an atomic map of at most `limit` entries. -/
inductive MapStep (limit busy : Nat) :
    FiniteMap StoreKey Value → EntryCall → StoreReply → FiniteMap StoreKey Value → Prop where
  | created {map : FiniteMap StoreKey Value} {key : StoreKey} {value : Value}
      (room : FiniteMap.size map < limit) (absent : map.lookup key = none) :
      MapStep limit busy map (.create key value) (.done (.ok ())) (map.insert key value)
  | taken {map : FiniteMap StoreKey Value} {key : StoreKey} {value : Value}
      (present : (map.lookup key).isSome = true) :
      MapStep limit busy map (.create key value) (.done (.error (.alreadyExists key))) map
  /-- A create is refused only if the creates and deletes in progress could fill the map. -/
  | full {map : FiniteMap StoreKey Value} {key : StoreKey} {value : Value}
      (full : limit < FiniteMap.size map + busy) :
      MapStep limit busy map (.create key value) (.done (.error (.capacityExceeded limit))) map
  | read {map : FiniteMap StoreKey Value} {key : StoreKey} :
      MapStep limit busy map (.read key) (.found (map.lookup key)) map
  | updated {map : FiniteMap StoreKey Value} {key : StoreKey} {value : Value}
      (present : (map.lookup key).isSome = true) :
      MapStep limit busy map (.update key value) (.done (.ok ())) (map.insert key value)
  | notUpdated {map : FiniteMap StoreKey Value} {key : StoreKey} {value : Value}
      (absent : map.lookup key = none) :
      MapStep limit busy map (.update key value) (.done (.error (.notFound key))) map
  | deleted {map : FiniteMap StoreKey Value} {key : StoreKey}
      (present : (map.lookup key).isSome = true) :
      MapStep limit busy map (.delete key) (.done (.ok ())) (map.erase key)
  | notDeleted {map : FiniteMap StoreKey Value} {key : StoreKey}
      (absent : map.lookup key = none) :
      MapStep limit busy map (.delete key) (.done (.error (.notFound key))) map

/-- A store and the entry calls in progress on it. -/
abbrev EntryPool := Pool Store EntryProgress

namespace EntryPool

/-- A new store on which a set of calls is about to be made. -/
def initial (limit : Nat) (calls : List EntryCall) : EntryPool :=
  ⟨Store.new limit, calls.map fun call => ⟨call, .idle⟩⟩

/-- The pool as one of atomic calls on a map. -/
def atomic (pool : EntryPool) : AtomicPool (FiniteMap StoreKey Value) EntryCall StoreReply :=
  Pool.atomic Store.entries EntryProgress.view pool

/-- The pool as one of calls that use the counter. -/
def counting (pool : EntryPool) : StorePool :=
  ⟨pool.shared, pool.calls.map EntryProgress.counting⟩

/-- Every call stands where it can come to, and the counter is exact. -/
structure Sound (limit : Nat) (pool : EntryPool) : Prop where
  stands : ∀ progress ∈ pool.calls, EntryProgress.Stands progress.call progress.position
  counter : CounterInvariant limit pool.counting

theorem busy_atomic (pool : EntryPool) :
    pool.atomic.busy EntryCall.counted =
      Pool.occurs pool fun progress => progress.view.inProgress.any EntryCall.counted :=
  List.countP_map

theorem occurs_counting (pool : EntryPool) (test : CallState → Bool) :
    pool.counting.occurs test = Pool.occurs pool fun progress => test progress.counting :=
  List.countP_map

namespace Sound

variable {limit : Nat} {pool : EntryPool}

/-- No call overwrites the counter. -/
theorem count_eq (sound : pool.Sound limit) :
    pool.shared.count = slotsInUse pool.counting := by
  refine sound.counter.counted.resolve_right fun clearing => ?_
  rw [occurs_counting] at clearing
  obtain ⟨⟨call, position⟩, member, clears⟩ := List.countP_pos_iff.mp clearing
  cases sound.stands _ member with
  | idle => cases call <;> cases clears
  | returned => cases call <;> cases clears
  | _ => cases clears

theorem limit_eq (sound : pool.Sound limit) : pool.shared.limit = limit := sound.counter.limited

/-- A create at its check holds no slot itself, so those in use leave it out. -/
theorem full_of_count (sound : pool.Sound limit) {index : Nat} {progress : EntryProgress}
    (located : pool.calls[index]? = some progress)
    (busy : progress.view.inProgress.any EntryCall.counted = true)
    (free : progress.counting.holdsSlot = false) (full : limit ≤ pool.shared.count) :
    limit < FiniteMap.size pool.shared.entries + pool.atomic.busy EntryCall.counted := by
  have fewer : (Pool.occurs pool fun progress => progress.counting.holdsSlot) <
      Pool.occurs pool fun progress => progress.view.inProgress.any EntryCall.counted :=
    Pool.occurs_lt located
      (fun other member => (sound.stands other member).busy_of_holdsSlot) busy free
  have counted := sound.count_eq
  rw [slotsInUse, occurs_counting] at counted
  rw [busy_atomic]
  change pool.shared.count = FiniteMap.size pool.shared.entries + _ at counted
  omega

/-- The slot of a create that inserts is not one of the entries'. -/
theorem room_of_holdsSlot (sound : pool.Sound limit) {index : Nat} {progress : EntryProgress}
    (located : pool.calls[index]? = some progress)
    (holding : progress.counting.holdsSlot = true) :
    FiniteMap.size pool.shared.entries < limit := by
  have some : 0 < Pool.occurs pool fun progress => progress.counting.holdsSlot :=
    Pool.occurs_pos located holding
  have counted := sound.count_eq
  have bounded := sound.counter.bounded
  rw [slotsInUse, occurs_counting] at counted
  change pool.shared.count = FiniteMap.size pool.shared.entries + _ at counted
  change pool.shared.count ≤ limit at bounded
  omega

/-- What the counter invariant says of a pool, it says of one with as many entries. -/
theorem counter_congr {store : Store} (invariant : CounterInvariant limit pool.counting)
    (limited : store.limit = pool.shared.limit) (counted : store.count = pool.shared.count)
    (sized : FiniteMap.size store.entries = FiniteMap.size pool.shared.entries)
    {calls : List EntryProgress}
    (same : calls.map EntryProgress.counting = pool.calls.map EntryProgress.counting) :
    CounterInvariant limit (counting ⟨store, calls⟩) := by
  have slots : slotsInUse (counting ⟨store, calls⟩) = slotsInUse pool.counting := by
    simp only [slotsInUse, counting, Pool.occurs, same, sized]
  refine ⟨limited.trans invariant.limited, ?_, ?_, ?_, ?_⟩
  · rw [slots]
    exact invariant.covered.trans_eq counted.symm
  · exact (Nat.le_of_eq counted).trans invariant.bounded
  · rw [slots]
    simpa only [counting, Pool.occurs, same, counted] using invariant.counted
  · simpa only [counting, same] using invariant.room

/-- An access of a call is one of those the counter is about. -/
theorem counter_access (sound : pool.Sound limit) {index : Nat} {call : EntryCall}
    {state after : CallState} {shared : Store}
    (located : pool.calls[index]? = some ⟨call, .access state⟩)
    (accessed : state.next pool.shared = some (after, shared)) :
    CounterInvariant limit
      (counting ⟨shared, pool.calls.set index ⟨call, .access after⟩⟩) := by
  have stands := sound.stands _ (List.mem_of_getElem? located)
  have counts : ∀ position, EntryProgress.counting ⟨call, .access position⟩ = position := by
    intro position
    cases call with
    | create | delete => rfl
    | read | update =>
        cases stands
        cases accessed
  have found : pool.counting.calls[index]? = some state := by
    rw [counting, List.getElem?_map, located, Option.map_some, counts]
  have stepped : pool.counting.step CallState.next index =
      some ⟨shared, pool.counting.calls.set index after⟩ := by
    rw [Pool.step, found]
    simp only [counting, accessed]
  have idle : ClearsIdle pool.counting index := by
    intro position located
    rw [found] at located
    cases located
    cases stands <;> trivial
  have kept := sound.counter.step idle stepped
  rw [counting, List.map_set, counts]
  exact kept

theorem step {last : EntryPool} {index : Nat} (sound : pool.Sound limit)
    (stepped : Pool.step EntryProgress.next pool index = some last) : last.Sound limit := by
  obtain ⟨progress, after, shared, located, moved, rfl⟩ := Pool.step_cases stepped
  have stands := sound.stands progress (List.mem_of_getElem? located)
  constructor
  · intro other member
    rcases List.mem_or_eq_of_mem_set member with before | rfl
    · exact sound.stands other before
    · exact stands.next (EntryProgress.moves_of_next moved)
  · obtain ⟨call, position⟩ := progress
    cases position with
    | access state =>
        simp only [EntryProgress.next, Option.map_eq_some_iff, Prod.mk.injEq] at moved
        obtain ⟨⟨reached, result⟩, accessed, rfl, rfl⟩ := moved
        exact sound.counter_access located accessed
    | idle =>
        cases EntryProgress.moves_of_next moved
        refine counter_congr sound.counter rfl rfl rfl (Pool.map_calls_set located ?_)
        cases call <;> rfl
    | looking =>
        cases EntryProgress.moves_of_next moved
        exact counter_congr sound.counter rfl rfl rfl (Pool.map_calls_set located rfl)
    | replacing =>
        cases EntryProgress.moves_of_next moved with
        | replace key value _ =>
            rcases pool.shared.update_cases key value with ⟨absent, done⟩ | ⟨present, done⟩
            · rw [done]
              exact counter_congr sound.counter rfl rfl rfl (Pool.map_calls_set located rfl)
            · obtain ⟨held, found⟩ := Option.isSome_iff_exists.mp present
              rw [done]
              refine counter_congr sound.counter ?_ ?_ ?_ (Pool.map_calls_set located rfl)
              · rfl
              · rfl
              · exact FiniteMap.size_insert_of_present value found

/-- Looked at from outside, every step is one of an atomic call on the map. -/
theorem matched (sound : pool.Sound limit) {index : Nat} {progress after : EntryProgress}
    {shared : Store} (located : pool.calls[index]? = some progress)
    (moved : progress.next pool.shared = some (after, shared)) :
    AtomicMove (MapStep limit (pool.atomic.busy EntryCall.counted)) pool.shared.entries
      progress.view after.view shared.entries := by
  have stands := sound.stands progress (List.mem_of_getElem? located)
  have limited := sound.limit_eq
  cases EntryProgress.moves_of_next moved with
  | invoke call _ => cases call <;> exact .invoke _ _
  | look key _ => exact .finish .read
  | replace key value _ =>
      rcases pool.shared.update_cases key value with ⟨absent, done⟩ | ⟨present, done⟩
      · rw [done]
        exact .finish (.notUpdated absent)
      · rw [done]
        exact .finish (.updated present)
  | access accessed =>
      cases accessed with
      | full full =>
          cases stands
          rw [limited] at full ⊢
          exact .finish (.full (sound.full_of_count located rfl rfl full))
      | load | exchange | retry =>
          cases stands
          exact .stay _ _
      | insert absent =>
          cases stands
          exact .effect (.created (sound.room_of_holdsSlot located rfl) absent)
      | taken present =>
          cases stands
          exact .effect (.taken present)
      | collide =>
          cases stands
          exact .respond _ _ _
      | seen | unseen =>
          cases stands
          exact .stay _ _
      | start | push =>
          cases stands
          simp only [Store.pushOrder, Store.entries_updateOrder, Store.entries_insertOrder]
          exact .respond _ _ _
      | remove present =>
          cases stands
          exact .effect (.deleted present)
      | missing absent =>
          cases stands
          exact .finish (.notDeleted absent)
      | release =>
          cases stands
          exact .stay _ _
      | retain =>
          cases stands
          simp only [Store.retainOrder, Store.entries_updateOrder]
          exact .respond _ _ _
      | clearLoad | clearEntries | clearOrder | clearStore => cases stands

end Sound

theorem sound_initial (limit : Nat) (calls : List EntryCall) :
    (initial limit calls).Sound limit where
  stands := by
    intro progress member
    obtain ⟨call, _, rfl⟩ := List.mem_map.mp member
    exact .idle call
  counter := by
    have idle : ∀ state ∈ (initial limit calls).counting.calls, state.holdsSlot = false ∧
        ∀ key value current, state ≠ .createExchange key value current := by
      intro state member
      obtain ⟨progress, located, rfl⟩ := List.mem_map.mp member
      obtain ⟨call, _, rfl⟩ := List.mem_map.mp located
      cases call <;> exact ⟨rfl, by simp [EntryProgress.counting]⟩
    have unused : slotsInUse (initial limit calls).counting = 0 :=
      Nat.add_eq_zero_iff.mpr ⟨rfl, List.countP_eq_zero.mpr fun state member => by
        simp [(idle state member).1]⟩
    exact ⟨rfl, Nat.le_of_eq unused, Nat.zero_le limit, .inl unused.symm,
      fun key value current member => absurd rfl ((idle _ member).2 key value current)⟩

/-- Every interleaving of entry calls is one of atomic calls on a bounded map. -/
theorem linearizes (limit : Nat) :
    Linearizes EntryProgress.next Store.entries EntryProgress.view (MapStep limit)
      EntryCall.counted (Sound limit) where
  kept := Sound.step
  matched := fun sound located moved => sound.matched located moved

end EntryPool

/-- A run keeps what its calls have been made with. -/
theorem calls_of_run {first last : EntryPool} (run : Pool.FreeRun EntryProgress.next first last) :
    last.calls.map EntryProgress.call = first.calls.map EntryProgress.call := by
  induction run with
  | refl => rfl
  | tail _ _ stepped ih =>
      obtain ⟨progress, after, shared, located, moved, rfl⟩ := Pool.step_cases stepped
      exact (Pool.map_calls_set located (EntryProgress.moves_of_next moved).call_eq).trans ih

/--
Any interleaving of creates, reads, updates and deletes of one store is a run
of calls that take effect one at a time on a map of bounded size: the effects
replay on that map in the order of a log in which every call that has taken
effect stands once with the reply it returns, a later part of the run only adds
to the log, and so calls that have returned precede those not yet made.
-/
theorem store_linearizable (limit : Nat) (calls : List EntryCall) {middle last : EntryPool}
    (before : Pool.FreeRun EntryProgress.next (EntryPool.initial limit calls) middle)
    (after : Pool.FreeRun EntryProgress.next middle last) :
    last.calls.map EntryProgress.call = calls ∧
    ∃ log later,
      AtomicRun (MapStep limit) EntryCall.counted (EntryPool.initial limit calls).atomic log
        middle.atomic ∧
      AtomicRun (MapStep limit) EntryCall.counted middle.atomic later last.atomic ∧
      Replays (fun map call reply result => ∃ busy, MapStep limit busy map call reply result)
        ∅ (log ++ later) last.shared.entries ∧
      Accounts (log ++ later) last.atomic ∧
      ∀ (earlier next : Nat) call reply other,
        middle.atomic.calls[earlier]? = some (.returned call reply) →
        middle.atomic.calls[next]? = some (.idle other) →
        ⟨earlier, call, reply⟩ ∈ log ∧ next ∉ log.map Effect.index := by
  have sound := EntryPool.sound_initial limit calls
  have linearizes := EntryPool.linearizes limit
  have idle : ∀ call ∈ (EntryPool.initial limit calls).atomic.calls, call.effect = none := by
    intro call member
    obtain ⟨progress, located, rfl⟩ := List.mem_map.mp member
    obtain ⟨op, _, rfl⟩ := List.mem_map.mp located
    rfl
  obtain ⟨log, earlier⟩ := linearizes.run before sound
  obtain ⟨later, rest⟩ := linearizes.run after (before.preserves _
    (fun sound _ stepped => EntryPool.Sound.step sound stepped) sound)
  refine ⟨?_, log, later, earlier, rest, (earlier.trans rest).replays,
    (earlier.trans rest).accounts idle,
    fun _ _ _ _ _ responded unused => (earlier.accounts idle).precedes responded unused⟩
  have same := (calls_of_run after).trans (calls_of_run before)
  rw [same, EntryPool.initial, List.map_map]
  exact List.map_id calls

/-- Two creates race for one slot, and a read follows. -/
def racingCalls : List EntryCall :=
  [.create ⟨"/users", "ada"⟩ (.bool true), .create ⟨"/users", "bob"⟩ (.bool false),
    .read ⟨"/users", "ada"⟩]

/-- The first has reserved the slot, the second has been refused. -/
def refusedPool : EntryPool :=
  ⟨(Store.new 1).reserve 0,
    [⟨.create ⟨"/users", "ada"⟩ (.bool true),
        .access (.createInsert ⟨"/users", "ada"⟩ (.bool true))⟩,
      ⟨.create ⟨"/users", "bob"⟩ (.bool false),
        .access (.returned (.done (.error (.capacityExceeded 1))))⟩,
      ⟨.read ⟨"/users", "ada"⟩, .idle⟩]⟩

theorem store_linearizable_racing :
    ∃ last, Pool.FreeRun EntryProgress.next (EntryPool.initial 1 racingCalls) refusedPool ∧
      Pool.FreeRun EntryProgress.next refusedPool last ∧
      ∃ log later, Accounts (log ++ later) (EntryPool.atomic last) ∧
        ⟨1, .create ⟨"/users", "bob"⟩ (.bool false), .done (.error (.capacityExceeded 1))⟩ ∈ log ∧
        2 ∉ log.map Effect.index := by
  have refused : Pool.FreeRun EntryProgress.next (EntryPool.initial 1 racingCalls) refusedPool :=
    Pool.run_of_follow [0, 0, 0, 1, 1] rfl
  have served : ∃ last, Pool.FreeRun EntryProgress.next refusedPool last :=
    ⟨_, Pool.run_of_follow [0, 0, 0, 2, 2] rfl⟩
  obtain ⟨last, after⟩ := served
  obtain ⟨_, log, later, _, _, _, accounts, precedes⟩ :=
    store_linearizable 1 racingCalls refused after
  exact ⟨last, refused, after, log, later, accounts, precedes 1 2 _ _ _ rfl rfl⟩

end SpecMock.Core
