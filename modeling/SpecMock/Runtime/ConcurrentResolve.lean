import SpecMock.Runtime.StoreActions
import SpecMock.Runtime.Accepted
import SpecMock.Library.Interleaving
import Mathlib.Data.List.Perm.Subperm

/-!
# Concurrent requests on one instance

A request takes a snapshot of the state, then acts on the store, then writes
the next state.  The snapshot and the write are critical sections of their own,
so requests that overlap may all be legal in one state.  Some of the accepted
operations always lead to the state they leave; where every transition is
written while it still applies, all of them make up a walk to it.
-/

namespace SpecMock.Runtime

open SpecMock.Library SpecMock.Core ScenarioRuntime

/-- Where a request stands. -/
inductive ResolveState where
  | snapshot (operation : ResolvedOperation) (request : Request)
  | storing (operation : ResolvedOperation) (request : Request) (state : State)
  | moving (operation : ResolvedOperation) (target : State) (outcome : Resolution)
  | returned (operation : ResolvedOperation) (answer : Resolution)

namespace ResolveState

def isReturned : ResolveState → Bool
  | .returned _ _ => true
  | _ => false

/--
The next step of a validated request.  The work on the store is one step, for
it neither reads nor writes the state.
-/
def next (machine : Scenario) (session : String) :
    ResolveState → Instance → Option (ResolveState × Instance)
  | .snapshot operation request, inst =>
      if machine.allows inst.state operation.name then
        some (.storing operation request inst.state, inst)
      else
        some (.returned operation (.failed
          (.illegalOperation machine.name session inst.state.name operation.name)), inst)
  | .storing operation request state, inst =>
      let stored := storeOutcome inst.store operation request
      let outcome := finalOutcome machine state operation stored.2
      match machine.nextState state operation.name with
      | some target => some (.moving operation target outcome, { inst with store := stored.1 })
      | none => some (.returned operation outcome, { inst with store := stored.1 })
  | .moving operation target outcome, inst =>
      some (.returned operation outcome, { inst with state := target })
  | .returned _ _, _ => none

/-- The operation of a request that was not refused, once it has returned. -/
def accepted : ResolveState → Option String
  | .returned operation answer => if answer.refused then none else some operation.name
  | _ => none

/-- The operation of a request that has had its effect on the state. -/
def effective (machine : Scenario) : ResolveState → Option String
  | .storing operation _ state =>
      if (machine.nextState state operation.name).isSome then none else some operation.name
  | .returned operation answer => if answer.refused then none else some operation.name
  | _ => none

/-- A transition is written in a state from which its operation leads to the same target. -/
def Applies (machine : Scenario) (inst : Instance) : ResolveState → Prop
  | .moving operation target _ => machine.nextState inst.state operation.name = some target
  | _ => True

instance (machine : Scenario) (inst : Instance) :
    (call : ResolveState) → Decidable (call.Applies machine inst)
  | .moving _ _ _ => inferInstanceAs (Decidable (_ = _))
  | .snapshot _ _ | .storing _ _ _ | .returned _ _ => isTrue trivial

end ResolveState

/-- An instance and the requests in progress on it. -/
abbrev ResolvePool := Pool Instance ResolveState

def ResolvePool.initial (inst : Instance) (requests : List (ResolvedOperation × Request)) :
    ResolvePool :=
  ⟨inst, requests.map fun request => .snapshot request.1 request.2⟩

/-- The next step of a request of the pool is not a transition that has become outdated. -/
def TransitionApplies (machine : Scenario) (pool : ResolvePool) (index : Nat) : Prop :=
  ∀ call ∈ pool.calls[index]?, call.Applies machine pool.shared

instance (machine : Scenario) (pool : ResolvePool) (index : Nat) :
    Decidable (TransitionApplies machine pool index) :=
  inferInstanceAs (Decidable (∀ call ∈ pool.calls[index]?, call.Applies machine pool.shared))

/-- A request that runs alone is served as in the sequential runtime. -/
theorem alone_resolve (machine : Scenario) (session : String) (inst : Instance)
    (operation : ResolvedOperation) {request : Request} (valid : request.validated = true) :
    let attended := attendInstance machine operation request session inst
    Pool.FreeRun (ResolveState.next machine session) ⟨inst, [.snapshot operation request]⟩
      ⟨attended.1, [.returned operation attended.2]⟩ := by
  intro attended
  by_cases legal : machine.allows inst.state operation.name = true
  · have served : attended = serve machine inst operation request := by
      simp [attended, attendInstance, legal, valid]
    rw [served]
    cases moves : machine.nextState inst.state operation.name with
    | none =>
        apply Pool.run_of_follow [0, 0]
        simp [Pool.follow, Pool.step, ResolveState.next, legal, moves, serve]
    | some target =>
        apply Pool.run_of_follow [0, 0, 0]
        simp [Pool.follow, Pool.step, ResolveState.next, legal, moves, serve]
  · have refused : attended = (inst, .failed
        (.illegalOperation machine.name session inst.state.name operation.name)) := by
      simp [attended, attendInstance, legal]
    rw [refused]
    apply Pool.run_of_follow [0]
    simp [Pool.follow, Pool.step, ResolveState.next, legal]

namespace ResolveState

/-- What a step does to the position of a request and to the instance. -/
inductive Advances (machine : Scenario) :
    ResolveState → Instance → ResolveState → Instance → Prop where
  | admitted {operation : ResolvedOperation} {request : Request} {inst : Instance}
      (legal : machine.allows inst.state operation.name = true) :
      Advances machine (.snapshot operation request) inst
        (.storing operation request inst.state) inst
  | turnedAway {operation : ResolvedOperation} {request : Request} {inst : Instance}
      {answer : Resolution} (refused : answer.refused = true) :
      Advances machine (.snapshot operation request) inst (.returned operation answer) inst
  | stayed {operation : ResolvedOperation} {request : Request} {state : State}
      {inst : Instance} {outcome : Resolution} (store : Store)
      (stays : machine.nextState state operation.name = none)
      (served : outcome.refused = false) :
      Advances machine (.storing operation request state) inst
        (.returned operation outcome) { inst with store }
  | prepared {operation : ResolvedOperation} {request : Request} {state target : State}
      {inst : Instance} {outcome : Resolution} (store : Store)
      (moves : machine.nextState state operation.name = some target)
      (served : outcome.refused = false) :
      Advances machine (.storing operation request state) inst
        (.moving operation target outcome) { inst with store }
  | moved {operation : ResolvedOperation} {target : State} {inst : Instance}
      {outcome : Resolution} :
      Advances machine (.moving operation target outcome) inst
        (.returned operation outcome) { inst with state := target }

theorem advances_of_next {machine : Scenario} {session : String} {call after : ResolveState}
    {inst result : Instance} (stepped : call.next machine session inst = some (after, result)) :
    call.Advances machine inst after result := by
  cases call with
  | snapshot operation request =>
      simp only [next] at stepped
      split at stepped
      next legal =>
        cases stepped
        exact .admitted legal
      next =>
        cases stepped
        exact .turnedAway rfl
  | storing operation request state =>
      have served := finalOutcome_not_refused machine operation state
        (storeOutcome_not_refused operation request inst.store)
      simp only [next] at stepped
      cases moves : machine.nextState state operation.name with
      | none =>
          rw [moves] at stepped
          cases stepped
          exact .stayed _ moves served
      | some target =>
          rw [moves] at stepped
          cases stepped
          exact .prepared _ moves served
  | moving operation target outcome =>
      cases stepped
      exact .moved
  | returned operation answer => cases stepped

end ResolveState

open ResolveState

/-- Only the request that moved adds to the accepted operations. -/
theorem collect_accepted_step {machine : Scenario} {pool : ResolvePool} {index : Nat}
    {call after : ResolveState} {result : Instance} (located : pool.calls[index]? = some call)
    (advanced : call.Advances machine pool.shared after result) :
    (Pool.collect ⟨result, pool.calls.set index after⟩ accepted).Perm
      (pool.collect accepted ++ after.accepted.toList) := by
  have moved := Pool.collect_set located result after accepted
  have pending : call.accepted = none := by cases advanced <;> rfl
  simpa [pending] using moved

/-- Operations of the history, each taken at most once, lead from `start` to `state`. -/
def Supported (machine : Scenario) (start : State) (history : List String) (state : State) :
    Prop :=
  ∃ path, path.Subperm history ∧ machine.walk start path = some state

/-- An operation of the history that a walk through operations of the history ends with. -/
def Fired (machine : Scenario) (start : State) (history : List String) (operation : String) :
    Prop :=
  ∃ path, (path ++ [operation]).Subperm history ∧
    (machine.walk start (path ++ [operation])).isSome = true

section History

variable {machine : Scenario} {start state : State} {history longer : List String}
  {operation : String}

theorem Supported.mono (supported : Supported machine start history state)
    (grown : history.Subperm longer) : Supported machine start longer state := by
  obtain ⟨path, taken, walked⟩ := supported
  exact ⟨path, taken.trans grown, walked⟩

theorem Fired.mono (fired : Fired machine start history operation)
    (grown : history.Subperm longer) : Fired machine start longer operation := by
  obtain ⟨path, taken, walked⟩ := fired
  exact ⟨path, taken.trans grown, walked⟩

/-- A legal operation added to the history fires and supports the state it leads to. -/
theorem Supported.fire (supported : Supported machine start history state)
    (legal : machine.allows state operation = true)
    (grown : (history ++ [operation]).Subperm longer) :
    Fired machine start longer operation ∧
      Supported machine start longer (machine.stateAfter state operation) := by
  obtain ⟨path, taken, walked⟩ := supported
  have extended := Scenario.walk_snoc walked legal
  have used : (path ++ [operation]).Subperm longer :=
    (taken.append (.refl [operation])).trans grown
  exact ⟨⟨path, used, by rw [extended]; rfl⟩, path ++ [operation], used, extended⟩

end History

/-- The state a request has seen is supported by what was accepted before it acts. -/
def ResolveState.Backed (machine : Scenario) (start : State) (history : List String) :
    ResolveState → Prop
  | .snapshot _ _ => True
  | .storing operation _ state =>
      Supported machine start history state ∧ machine.allows state operation.name = true
  | .moving operation target outcome =>
      outcome.refused = false ∧ ∃ state, Supported machine start history state ∧
        machine.nextState state operation.name = some target
  | .returned operation answer =>
      answer.refused = false → Fired machine start history operation.name

theorem ResolveState.Backed.mono {machine : Scenario} {start : State}
    {history longer : List String} {call : ResolveState}
    (backed : call.Backed machine start history) (grown : history.Subperm longer) :
    call.Backed machine start longer := by
  cases call with
  | snapshot operation request => trivial
  | storing operation request state => exact ⟨backed.1.mono grown, backed.2⟩
  | moving operation target outcome =>
      obtain ⟨served, state, supported, moves⟩ := backed
      exact ⟨served, state, supported.mono grown, moves⟩
  | returned operation answer => exact fun served => (backed served).mono grown

/-- The state of the instance and of every request is supported. -/
structure ResolvePool.Backed (machine : Scenario) (start : State) (pool : ResolvePool) :
    Prop where
  shared : Supported machine start (pool.collect accepted) pool.shared.state
  calls : ∀ call ∈ pool.calls, call.Backed machine start (pool.collect accepted)

theorem ResolvePool.backed_initial (machine : Scenario) (inst : Instance)
    (requests : List (ResolvedOperation × Request)) :
    (ResolvePool.initial inst requests).Backed machine inst.state where
  shared := ⟨[], List.nil_subperm, rfl⟩
  calls := by
    intro call member
    obtain ⟨request, _, rfl⟩ := List.mem_map.mp member
    trivial

/-- The request that takes a step is backed after it, and so is the instance. -/
theorem ResolveState.Backed.advances {machine : Scenario} {start : State}
    {history longer : List String} {call after : ResolveState} {inst result : Instance}
    (backed : call.Backed machine start history)
    (shared : Supported machine start history inst.state)
    (advanced : call.Advances machine inst after result)
    (grown : (history ++ after.accepted.toList).Subperm longer) :
    after.Backed machine start longer ∧ Supported machine start longer result.state := by
  have kept : history.Subperm longer := (List.sublist_append_left _ _).subperm.trans grown
  cases advanced with
  | admitted legal => exact ⟨⟨shared.mono kept, legal⟩, shared.mono kept⟩
  | turnedAway refused =>
      refine ⟨fun served => ?_, shared.mono kept⟩
      rw [refused] at served
      cases served
  | stayed store stays served =>
      refine ⟨fun _ => (backed.1.fire backed.2 ?_).1, shared.mono kept⟩
      simpa [accepted, served] using grown
  | prepared store moves served =>
      exact ⟨⟨served, _, backed.1.mono kept, moves⟩, shared.mono kept⟩
  | moved =>
      obtain ⟨served, state, supported, moves⟩ := backed
      have fired := supported.fire (Scenario.allows_of_nextState moves)
        (by simpa [accepted, served] using grown)
      refine ⟨fun _ => fired.1, ?_⟩
      simpa [Scenario.stateAfter, moves] using fired.2

theorem ResolvePool.backed_step {machine : Scenario} {session : String} {start : State}
    {pool last : ResolvePool} {index : Nat} (backed : pool.Backed machine start)
    (stepped : pool.step (ResolveState.next machine session) index = some last) :
    last.Backed machine start := by
  obtain ⟨call, after, result, located, moved, rfl⟩ := Pool.step_cases stepped
  have advanced := advances_of_next moved
  have grown := (collect_accepted_step located advanced).symm.subperm
  have own := backed.calls call (List.mem_of_getElem? located)
  obtain ⟨backedAfter, supported⟩ := own.advances backed.shared advanced grown
  refine ⟨supported, fun other member => ?_⟩
  rcases List.mem_or_eq_of_mem_set member with kept | rfl
  · exact (backed.calls other kept).mono
      ((List.sublist_append_left _ _).subperm.trans grown)
  · exact backedAfter

/-- The operations that have had their effect make up a walk to the current state. -/
def ResolvePool.Walked (machine : Scenario) (start : State) (pool : ResolvePool) : Prop :=
  ∃ path, path.Perm (pool.collect (effective machine)) ∧
    machine.walk start path = some pool.shared.state

/-- A step of a transition that still applies extends the walk or leaves it. -/
theorem ResolvePool.walked_step {machine : Scenario} {session : String} {start : State}
    {pool last : ResolvePool} {index : Nat} (backed : pool.Backed machine start)
    (walked : pool.Walked machine start) (applies : TransitionApplies machine pool index)
    (stepped : pool.step (ResolveState.next machine session) index = some last) :
    last.Walked machine start := by
  obtain ⟨call, after, result, located, moved, rfl⟩ := Pool.step_cases stepped
  have advanced := advances_of_next moved
  have exchanged := Pool.collect_set located result after (effective machine)
  have own := backed.calls call (List.mem_of_getElem? located)
  have still := applies call located
  obtain ⟨path, ordered, walk⟩ := walked
  have same : call.effective machine = after.effective machine →
      result.state = pool.shared.state →
      ResolvePool.Walked machine start ⟨result, pool.calls.set index after⟩ := by
    intro contributes unmoved
    rw [contributes] at exchanged
    refine ⟨path, ordered.trans ((List.perm_append_right_iff _).mp exchanged).symm, ?_⟩
    rw [walk, unmoved]
  have more : ∀ operation, call.effective machine = none →
      after.effective machine = some operation →
      machine.allows pool.shared.state operation = true →
      result.state = machine.stateAfter pool.shared.state operation →
      ResolvePool.Walked machine start ⟨result, pool.calls.set index after⟩ := by
    intro operation pending fires legal moves
    rw [pending, fires] at exchanged
    refine ⟨path ++ [operation], (ordered.append_right _).trans ?_, ?_⟩
    · simpa using exchanged.symm
    · rw [moves]
      exact Scenario.walk_snoc walk legal
  cases advanced with
  | @admitted operation _ _ legal =>
      cases moves : machine.nextState pool.shared.state operation.name with
      | none =>
          refine more operation.name rfl ?_ legal ?_
          · simp [effective, moves]
          · simp [Scenario.stateAfter, moves]
      | some target => exact same (by simp [effective, moves]) rfl
  | turnedAway refused => exact same (by simp [effective, refused]) rfl
  | stayed store stays served => exact same (by simp [effective, stays, served]) rfl
  | prepared store moves served => exact same (by simp [effective, moves]) rfl
  | @moved operation target _ outcome =>
      have served : outcome.refused = false := own.1
      have moves : machine.nextState pool.shared.state operation.name = some target := still
      refine more operation.name rfl ?_ (Scenario.allows_of_nextState moves) ?_
      · simp [effective, served]
      · simp [Scenario.stateAfter, moves]

/-- Once all requests have returned, the operations with an effect are the accepted ones. -/
theorem ResolvePool.collect_effective {machine : Scenario} {pool : ResolvePool}
    (quiet : pool.Quiescent isReturned) :
    pool.collect (effective machine) = pool.collect accepted := by
  apply List.filterMap_congr
  intro call member
  have finished := quiet call member
  cases call with
  | returned operation answer => rfl
  | _ => cases finished

/--
In every interleaving, accepted operations taken at most once each lead from
the state the instance was in to the state it is left in, and every accepted
operation ends such a walk.  If every transition is written while it still
applies, all the accepted operations, taken once each, make up a walk to the
final state, so that an operation which cannot become legal again after it has
fired is accepted at most once.
-/
theorem accepted_operations_walk (machine : Scenario) (session : String) (inst : Instance)
    (requests : List (ResolvedOperation × Request)) (last : ResolvePool) :
    (Pool.FreeRun (ResolveState.next machine session)
        (ResolvePool.initial inst requests) last →
      Supported machine inst.state (last.collect accepted) last.shared.state ∧
      ∀ operation ∈ last.collect accepted,
        Fired machine inst.state (last.collect accepted) operation) ∧
    (Pool.Run (ResolveState.next machine session) (TransitionApplies machine)
        (ResolvePool.initial inst requests) last → last.Quiescent isReturned →
      (∃ path, path.Perm (last.collect accepted) ∧
        machine.walk inst.state path = some last.shared.state) ∧
      ∀ operation, machine.FiresOnce operation →
        (last.collect accepted).count operation ≤ 1) := by
  have initial := ResolvePool.backed_initial machine inst requests
  constructor
  · intro run
    have backed := run.preserves (ResolvePool.Backed machine inst.state)
      (fun before _ stepped => ResolvePool.backed_step before stepped) initial
    refine ⟨backed.shared, fun operation member => ?_⟩
    obtain ⟨call, located, contributes⟩ := List.mem_filterMap.mp member
    have own := backed.calls call located
    cases call with
    | returned resolved answer =>
        cases refused : answer.refused with
        | true => simp [ResolveState.accepted, refused] at contributes
        | false =>
            obtain rfl : resolved.name = operation := by
              simpa [ResolveState.accepted, refused] using contributes
            exact own refused
    | _ => cases contributes
  · intro run quiet
    have start : (ResolvePool.initial inst requests).Walked machine inst.state := by
      refine ⟨[], ?_, rfl⟩
      have none : (ResolvePool.initial inst requests).collect (effective machine) = [] := by
        apply List.filterMap_eq_nil_iff.mpr
        intro call member
        obtain ⟨request, _, rfl⟩ := List.mem_map.mp member
        rfl
      rw [none]
    have kept := run.preserves
      (fun pool => ResolvePool.Backed machine inst.state pool ∧
        ResolvePool.Walked machine inst.state pool)
      (fun before applies stepped => ⟨ResolvePool.backed_step before.1 stepped,
        ResolvePool.walked_step before.1 before.2 applies stepped⟩) ⟨initial, start⟩
    obtain ⟨path, ordered, walk⟩ := kept.2
    rw [ResolvePool.collect_effective quiet] at ordered
    refine ⟨⟨path, ordered, walk⟩, fun operation once => ?_⟩
    rw [← ordered.count_eq]
    exact once.count_le_one walk

/-- A user signs up, as the runtime resolves it. -/
def signUpOf (id : String) : ResolvedOperation × Request :=
  (⟨"createUser", some ⟨"/users", .create, none, some ⟨.request, "/id"⟩⟩, ∅⟩,
    { scenario := none, session := none, method := "POST", pathTemplate := "/users", params := ∅,
      request := some (.object [("id", .string id)]), response := .null, preferCode := false,
      validated := true, createValue := .followKeySource })

/-- A new user of the sample. -/
def newcomer : Instance :=
  Instance.new "signUp" (ScenarioEntry.machine signUp).initial [] 8

/--
Two sign-ups take their snapshots before either moves the state: both are
accepted, though no walk takes `createUser` twice.
-/
theorem overlapping_signUps_walk_nowhere :
    let machine := ScenarioEntry.machine signUp
    ∃ last, Pool.FreeRun (ResolveState.next machine defaultSession)
        (ResolvePool.initial newcomer [signUpOf "ada", signUpOf "bob"]) last ∧
      last.Quiescent isReturned ∧
      (¬ ∃ path, path.Perm (last.collect ResolveState.accepted) ∧
        machine.walk machine.initial path = some last.shared.state) ∧
      machine.nextState machine.initial "createUser" = some ⟨"member"⟩ ∧
      machine.allows ⟨"member"⟩ "createUser" = false ∧
      (last.collect ResolveState.accepted).count "createUser" = 2 := by
  intro machine
  have reached : ∃ last, Pool.FreeRun (ResolveState.next machine defaultSession)
      (ResolvePool.initial newcomer [signUpOf "ada", signUpOf "bob"]) last ∧
      decide (last.Quiescent isReturned ∧
        last.collect ResolveState.accepted = List.replicate 2 "createUser") = true :=
    Pool.exists_run_of_follow [0, 1, 0, 0, 1, 1] (by decide)
  obtain ⟨last, run, meets⟩ := reached
  obtain ⟨quiet, collected⟩ := of_decide_eq_true meets
  refine ⟨last, run, quiet, ?_, by decide, by decide, ?_⟩
  · rintro ⟨path, ordered, walk⟩
    rw [collected, List.perm_replicate] at ordered
    subst ordered
    have stuck : machine.walk machine.initial (List.replicate 2 "createUser") = none := by decide
    rw [stuck] at walk
    cases walk
  · rw [collected]
    decide

theorem accepted_operations_walk_signUp :
    let machine := ScenarioEntry.machine signUp
    ∃ last, Pool.Run (ResolveState.next machine defaultSession) (TransitionApplies machine)
        (ResolvePool.initial newcomer [signUpOf "ada", signUpOf "bob"]) last ∧
      last.Quiescent isReturned ∧
      (∃ path, path.Perm (last.collect ResolveState.accepted) ∧
        machine.walk machine.initial path = some last.shared.state) ∧
      Fired machine machine.initial (last.collect ResolveState.accepted) "createUser" := by
  intro machine
  have reached : ∃ last, Pool.Run (ResolveState.next machine defaultSession)
      (TransitionApplies machine)
      (ResolvePool.initial newcomer [signUpOf "ada", signUpOf "bob"]) last ∧
      decide (last.Quiescent isReturned ∧
        "createUser" ∈ last.collect ResolveState.accepted) = true :=
    Pool.exists_run_of_follow [0, 0, 0, 1] (by decide)
  obtain ⟨last, run, meets⟩ := reached
  obtain ⟨quiet, fired⟩ := of_decide_eq_true meets
  have walks := accepted_operations_walk machine defaultSession newcomer
    [signUpOf "ada", signUpOf "bob"] last
  exact ⟨last, run, quiet, (walks.2 run quiet).1, (walks.1 run.free).2 "createUser" fired⟩

end SpecMock.Runtime
