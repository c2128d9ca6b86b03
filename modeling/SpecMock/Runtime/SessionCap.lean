import SpecMock.Runtime.Accepted
import SpecMock.Library.Interleaving
import Mathlib.Data.List.Dedup

/-!
# Concurrent first requests

A request that needs an instance looks its session up, compares the number of
live sessions with the cap, looks again and inserts a fresh instance, and each
of these accesses to the map is a step of its own.  The comparison is not
repeated at the insertion, so requests that open different sessions at once can
exceed the cap: some interleaving has all of them live.  An insertion on a key
that is taken hands back the pair it was given, so a request that loses the
race for its session after the second look is given an instance of its own,
which the map never holds.
-/

namespace SpecMock.Runtime

open SpecMock.Library SpecMock.Core

/-- A shared handle; handles of one address share one instance. -/
structure Handle where
  address : Nat
  inst : Instance

/-- The live instances, and the next free address. -/
structure SessionMap where
  sessions : FiniteMap (String × String) Handle
  allocated : Nat

/-- A call that works on the map of live instances. -/
inductive SessionCall where
  | instanceOf (machine : Scenario) (session : String)
  | release (scenario session : String)

/-- Where a call stands: the access to the map that it makes next. -/
inductive SessionState where
  | lookup (machine : Scenario) (session : String)
  | measure (machine : Scenario) (session : String)
  | recheck (key : String × String) (fresh : Handle)
  | insert (key : String × String) (fresh : Handle)
  | remove (key : String × String)
  | given (key : String × String) (result : Except StatefulFailure Handle)
  | released (found : Bool)

def SessionCall.start : SessionCall → SessionState
  | .instanceOf machine session => .lookup machine session
  | .release scenario session => .remove (scenario, session)

/-- The next access of a call. -/
def SessionState.next (runtime : ScenarioRuntime) :
    SessionState → SessionMap → Option (SessionState × SessionMap)
  | .lookup machine session, map =>
      match map.sessions.lookup (machine.name, session) with
      | some existing => some (.given (machine.name, session) (.ok existing), map)
      | none => some (.measure machine session, map)
  | .measure machine session, map =>
      if FiniteMap.size map.sessions ≥ runtime.maxSessions then
        some (.given (machine.name, session)
          (.error (.sessionCapExceeded runtime.maxSessions)), map)
      else
        match runtime.sidecar.scenario machine.name with
        | none =>
            some (.given (machine.name, session)
              (.error (.unknownScenario machine.name runtime.sidecar.scenarioNames)), map)
        | some entry =>
            let fresh := Instance.new machine.name machine.initial entry.seed
              runtime.maxStoreEntries
            some (.recheck (machine.name, session) ⟨map.allocated, fresh⟩,
              { map with allocated := map.allocated + 1 })
  | .recheck key fresh, map =>
      match map.sessions.lookup key with
      | some existing => some (.given key (.ok existing), map)
      | none => some (.insert key fresh, map)
  | .insert key fresh, map =>
      -- On a key that is taken the map returns the pair it was given, not the one it holds.
      match map.sessions.lookup key with
      | some _ => some (.given key (.ok fresh), map)
      | none =>
          some (.given key (.ok fresh), { map with sessions := map.sessions.insert key fresh })
  | .remove key, map =>
      some (.released (map.sessions.lookup key).isSome,
        { map with sessions := map.sessions.erase key })
  | .given _ _, _ | .released _, _ => none

abbrev SessionPool := Pool SessionMap SessionState

namespace SessionPool

/-- A runtime without sessions, on which a set of calls is about to run. -/
def initial (calls : List SessionCall) : SessionPool := ⟨⟨∅, 0⟩, calls.map SessionCall.start⟩

/-- Number of live instances. -/
def live (pool : SessionPool) : Nat := FiniteMap.size pool.shared.sessions

end SessionPool

/-- The session that a call opens if it is not live: one of a declared scenario, if any may be. -/
def SessionCall.opens (runtime : ScenarioRuntime) : SessionCall → Option (String × String)
  | .instanceOf machine session =>
      if runtime.maxSessions = 0 then none
      else (runtime.sidecar.scenario machine.name).map fun _ => (machine.name, session)
  | .release _ _ => none

/-- The different sessions that a set of calls opens. -/
def ScenarioRuntime.opened (runtime : ScenarioRuntime) (calls : List SessionCall) :
    List (String × String) :=
  (calls.filterMap (SessionCall.opens runtime)).dedup

/-! ## A call alone -/

/-- The runtime with the instances of a map. -/
def ScenarioRuntime.holding (runtime : ScenarioRuntime) (map : SessionMap) : ScenarioRuntime :=
  { runtime with sessions := FiniteMap.mapValues Handle.inst map.sessions }

/-- Without interference, the accesses make up the sequential operation. -/
theorem alone_instanceOf (runtime : ScenarioRuntime) (map : SessionMap) (machine : Scenario)
    (session : String) :
    ∃ after result,
      Pool.FreeRun (SessionState.next runtime) ⟨map, [.lookup machine session]⟩
        ⟨after, [.given (machine.name, session) result]⟩ ∧
      (runtime.holding map).instanceOf machine session =
        (runtime.holding after, result.map Handle.inst) := by
  unfold ScenarioRuntime.instanceOf ScenarioRuntime.holding
  simp only [FiniteMap.lookup_mapValues, FiniteMap.size_mapValues]
  cases held : map.sessions.lookup (machine.name, session) with
  | some existing =>
      refine ⟨map, .ok existing, ?_, rfl⟩
      apply Pool.run_of_follow [0]
      simp [Pool.follow, Pool.step, SessionState.next, held]
  | none =>
      by_cases full : FiniteMap.size map.sessions ≥ runtime.maxSessions
      · refine ⟨map, .error (.sessionCapExceeded runtime.maxSessions), ?_, ?_⟩
        · apply Pool.run_of_follow [0, 0]
          simp [Pool.follow, Pool.step, SessionState.next, held, full]
        · simp only [Option.map_none, full, if_true]
          rfl
      cases known : runtime.sidecar.scenario machine.name with
      | none =>
          refine ⟨map,
            .error (.unknownScenario machine.name runtime.sidecar.scenarioNames), ?_, ?_⟩
          · apply Pool.run_of_follow [0, 0]
            simp [Pool.follow, Pool.step, SessionState.next, held, full, known]
          · simp only [Option.map_none, full, if_false]
            rfl
      | some entry =>
          let fresh : Handle := ⟨map.allocated,
            Instance.new machine.name machine.initial entry.seed runtime.maxStoreEntries⟩
          refine ⟨⟨map.sessions.insert (machine.name, session) fresh, map.allocated + 1⟩,
            .ok fresh, ?_, ?_⟩
          · apply Pool.run_of_follow [0, 0, 0, 0]
            simp [Pool.follow, Pool.step, SessionState.next, held, full, known, fresh]
          · simp only [Option.map_none, full, if_false,
              FiniteMap.mapValues_insert_of_absent Handle.inst fresh held]
            rfl

/-! ## One access -/

/-- What an access does to the live instances. -/
inductive SessionState.Touches : SessionState → SessionMap → SessionState → SessionMap → Prop where
  | looked {state after : SessionState} {map : SessionMap} {allocated : Nat}
      (unanswered : ∀ key handle, after ≠ .given key (.ok handle)) :
      Touches state map after { map with allocated }
  | adopted {state : SessionState} {map : SessionMap} {key : String × String} {handle : Handle}
      (live : map.sessions.lookup key = some handle) :
      Touches state map (.given key (.ok handle)) map
  | opened {map : SessionMap} {key : String × String} {fresh : Handle}
      (absent : map.sessions.lookup key = none) :
      Touches (.insert key fresh) map (.given key (.ok fresh))
        { map with sessions := map.sessions.insert key fresh }
  | refused {map : SessionMap} {key : String × String} {fresh existing : Handle}
      (taken : map.sessions.lookup key = some existing) :
      Touches (.insert key fresh) map (.given key (.ok fresh)) map
  | removed {map : SessionMap} {key : String × String} {found : Bool} :
      Touches (.remove key) map (.released found) { map with sessions := map.sessions.erase key }

theorem SessionState.touches_of_next {runtime : ScenarioRuntime} {state after : SessionState}
    {map result : SessionMap} (moved : state.next runtime map = some (after, result)) :
    state.Touches map after result := by
  cases state with
  | lookup machine session =>
      simp only [next] at moved
      split at moved
      next existing live =>
        cases moved
        exact .adopted live
      next =>
        cases moved
        exact .looked fun _ _ other => nomatch other
  | measure machine session =>
      simp only [next] at moved
      split at moved
      · cases moved
        exact .looked fun _ _ other => nomatch other
      · split at moved
        · cases moved
          exact .looked fun _ _ other => nomatch other
        · cases moved
          exact .looked fun _ _ other => nomatch other
  | recheck key fresh =>
      simp only [next] at moved
      split at moved
      next existing live =>
        cases moved
        exact .adopted live
      next =>
        cases moved
        exact .looked fun _ _ other => nomatch other
  | insert key fresh =>
      simp only [next] at moved
      split at moved
      next existing taken =>
        cases moved
        exact .refused taken
      next absent =>
        cases moved
        exact .opened absent
  | remove key =>
      cases moved
      exact .removed
  | given | released => cases moved

namespace SessionPool

/-- An insertion finds its session missing, and fewer live sessions than the cap. -/
def FindsRoom (runtime : ScenarioRuntime) (pool : SessionPool) (index : Nat) : Prop :=
  ∀ key fresh, pool.calls[index]? = some (.insert key fresh) →
    pool.shared.sessions.lookup key = none ∧ pool.live < runtime.maxSessions

instance (runtime : ScenarioRuntime) (pool : SessionPool) (index : Nat) :
    Decidable (FindsRoom runtime pool index) :=
  match located : pool.calls[index]? with
  | some (.insert key fresh) =>
      decidable_of_iff (pool.shared.sessions.lookup key = none ∧ live pool < runtime.maxSessions)
        (by simp [FindsRoom, located])
  | some (.lookup _ _) | some (.measure _ _) | some (.recheck _ _) | some (.remove _)
  | some (.given _ _) | some (.released _) | none => isTrue (by simp [FindsRoom, located])

/-- The step does not release the session of `key`. -/
def Retains (key : String × String) (pool : SessionPool) (index : Nat) : Prop :=
  pool.calls[index]? ≠ some (.remove key)

/-- The step is the return of a call that was given an instance for `key`. -/
structure Returns (runtime : ScenarioRuntime) (key : String × String) (handle : Handle)
    (pool last : SessionPool) (index : Nat) : Prop where
  stepped : pool.step (SessionState.next runtime) index = some last
  given : last.calls[index]? = some (.given key (.ok handle))

/-- In the runs of permitted steps, no more sessions are live than the cap. -/
def KeepsCap (runtime : ScenarioRuntime) (allowed : SessionPool → Nat → Prop)
    (calls : List SessionCall) : Prop :=
  ∀ last, Pool.Run (SessionState.next runtime) allowed (initial calls) last →
    live last ≤ runtime.maxSessions

/--
In the runs of permitted steps, two calls that are given an instance for one
session, with no release of the session in between, are given the same one.
-/
def SharesInstances (runtime : ScenarioRuntime) (allowed : SessionPool → Nat → Prop)
    (calls : List SessionCall) : Prop :=
  ∀ key first second third fourth index other handle handle',
    Pool.Run (SessionState.next runtime) allowed (initial calls) first →
    allowed first index → Returns runtime key handle first second index →
    Pool.Run (SessionState.next runtime) (fun pool place => allowed pool place ∧
      Retains key pool place) second third →
    allowed third other → Returns runtime key handle' third fourth other → handle = handle'

variable {runtime : ScenarioRuntime} {pool last : SessionPool} {index : Nat}

/-- Within the cap, a step that finds room stays within the cap. -/
theorem live_step (within : pool.live ≤ runtime.maxSessions)
    (room : FindsRoom runtime pool index)
    (stepped : pool.step (SessionState.next runtime) index = some last) :
    last.live ≤ runtime.maxSessions := by
  obtain ⟨call, after, shared, located, moved, rfl⟩ := Pool.step_cases stepped
  have touched := SessionState.touches_of_next moved
  unfold live at *
  cases touched with
  | looked => exact within
  | adopted => exact within
  | refused => exact within
  | @opened _ key fresh absent =>
      obtain ⟨-, below⟩ := room key fresh located
      simp only [FiniteMap.size_insert_of_absent fresh absent]
      exact below
  | removed => exact Nat.le_trans (FiniteMap.size_erase_le _ _) within

/-- A call that returns with an instance leaves its session live. -/
theorem Returns.live {key : String × String} {handle : Handle}
    (returns : Returns runtime key handle pool last index) :
    ∃ existing, last.shared.sessions.lookup key = some existing := by
  obtain ⟨stepped, given⟩ := returns
  obtain ⟨call, after, shared, located, moved, rfl⟩ := Pool.step_cases stepped
  obtain ⟨inside, _⟩ := List.getElem?_eq_some_iff.mp located
  obtain rfl : after = .given key (.ok handle) := by
    simpa [List.getElem?_set_self inside] using given
  cases SessionState.touches_of_next moved with
  | looked unanswered => exact absurd rfl (unanswered key handle)
  | adopted live => exact ⟨handle, live⟩
  | refused taken => exact ⟨_, taken⟩
  | opened => exact ⟨handle, by simp only [FiniteMap.lookup_insert_eq, if_true]⟩

/-- A call whose insertion finds room is given the live instance of its session. -/
theorem Returns.lookup_eq {key : String × String} {handle : Handle}
    (returns : Returns runtime key handle pool last index)
    (room : FindsRoom runtime pool index) :
    last.shared.sessions.lookup key = some handle := by
  obtain ⟨stepped, given⟩ := returns
  obtain ⟨call, after, shared, located, moved, rfl⟩ := Pool.step_cases stepped
  obtain ⟨inside, _⟩ := List.getElem?_eq_some_iff.mp located
  obtain rfl : after = .given key (.ok handle) := by
    simpa [List.getElem?_set_self inside] using given
  cases SessionState.touches_of_next moved with
  | looked unanswered => exact absurd rfl (unanswered key handle)
  | adopted live => exact live
  | refused taken =>
      obtain ⟨absent, -⟩ := room key handle located
      rw [absent] at taken
      cases taken
  | opened => simp only [FiniteMap.lookup_insert_eq, if_true]

/-- The step a call returns with is no release. -/
theorem Returns.retains {key : String × String} {handle : Handle}
    (returns : Returns runtime key handle pool last index) : Retains key pool index := by
  intro removes
  obtain ⟨call, after, shared, located, moved, reached⟩ := Pool.step_cases returns.stepped
  obtain rfl : SessionState.remove key = call := Option.some.inj (removes.symm.trans located)
  obtain ⟨inside, _⟩ := List.getElem?_eq_some_iff.mp removes
  have given := returns.given
  rw [reached] at given
  simp only [SessionState.next, Option.some.injEq, Prod.mk.injEq] at moved
  obtain ⟨rfl, -⟩ := moved
  simp [List.getElem?_set_self inside] at given

/-- A live instance is neither replaced nor dropped by a step that does not release it. -/
theorem lookup_step {key : String × String} {handle : Handle}
    (live : pool.shared.sessions.lookup key = some handle) (retains : Retains key pool index)
    (stepped : pool.step (SessionState.next runtime) index = some last) :
    last.shared.sessions.lookup key = some handle := by
  obtain ⟨call, after, shared, located, moved, rfl⟩ := Pool.step_cases stepped
  have touched := SessionState.touches_of_next moved
  cases touched with
  | looked => exact live
  | adopted => exact live
  | refused => exact live
  | @opened _ other fresh absent =>
      have differs : key ≠ other := by
        rintro rfl
        exact absurd (absent.symm.trans live) (by simp)
      simp only [FiniteMap.lookup_insert_eq, differs, if_false, live]
  | @removed _ other =>
      have differs : key ≠ other := by
        rintro rfl
        exact retains located
      simp only [FiniteMap.lookup_erase_eq, differs, if_false, live]

/-- The session whose instance a call may still insert. -/
def aim (runtime : ScenarioRuntime) : SessionState → Option (String × String)
  | .lookup machine session | .measure machine session =>
      (SessionCall.instanceOf machine session).opens runtime
  | .recheck key _ | .insert key _ => some key
  | .remove _ | .given _ _ | .released _ => none

theorem aim_start (call : SessionCall) : aim runtime call.start = call.opens runtime := by
  cases call with
  | instanceOf machine session => rfl
  | release scenario session => rfl

/-- An access changes the aim of its call only by giving it up, and opens no other session. -/
theorem aim_next {state after : SessionState} {map result : SessionMap}
    (moved : state.next runtime map = some (after, result)) :
    (∀ key, aim runtime after = some key → aim runtime state = some key) ∧
      ∀ key ∈ result.sessions, key ∈ map.sessions ∨ aim runtime state = some key := by
  cases state with
  | lookup machine session =>
      simp only [SessionState.next] at moved
      split at moved
      · cases moved
        exact ⟨nofun, fun _ => .inl⟩
      · cases moved
        exact ⟨fun _ => id, fun _ => .inl⟩
  | measure machine session =>
      simp only [SessionState.next] at moved
      split at moved
      · cases moved
        exact ⟨nofun, fun _ => .inl⟩
      next room =>
        split at moved
        · cases moved
          exact ⟨nofun, fun _ => .inl⟩
        next entry declared =>
          cases moved
          have positive : runtime.maxSessions ≠ 0 := by omega
          refine ⟨?_, fun _ => .inl⟩
          rintro key ⟨⟩
          simp [aim, SessionCall.opens, positive, declared]
  | recheck key fresh =>
      simp only [SessionState.next] at moved
      split at moved
      · cases moved
        exact ⟨nofun, fun _ => .inl⟩
      · cases moved
        exact ⟨fun _ => id, fun _ => .inl⟩
  | insert key fresh =>
      simp only [SessionState.next] at moved
      split at moved
      · cases moved
        exact ⟨nofun, fun _ => .inl⟩
      · cases moved
        refine ⟨nofun, ?_⟩
        intro other member
        rcases (AList.mem_insert _).mp member with rfl | earlier
        · exact .inr rfl
        · exact .inl earlier
  | remove key =>
      cases moved
      refine ⟨nofun, ?_⟩
      intro other member
      exact .inl (AList.mem_erase.mp member).2
  | given | released => cases moved

/-- Every live session, and every one that may still be opened, is one of `keys`. -/
structure Within (runtime : ScenarioRuntime) (keys : List (String × String))
    (pool : SessionPool) : Prop where
  aims : ∀ call ∈ pool.calls, ∀ key, aim runtime call = some key → key ∈ keys
  live : ∀ key ∈ pool.shared.sessions, key ∈ keys

theorem within_initial (calls : List SessionCall) :
    Within runtime (runtime.opened calls) (initial calls) := by
  constructor
  · intro state member key aimed
    obtain ⟨call, present, rfl⟩ := List.mem_map.mp member
    rw [aim_start] at aimed
    exact List.mem_dedup.mpr (List.mem_filterMap.mpr ⟨call, present, aimed⟩)
  · intro key member
    exact absurd member (AList.notMem_empty key)

theorem Within.step {keys : List (String × String)} (within : Within runtime keys pool)
    (stepped : pool.step (SessionState.next runtime) index = some last) :
    Within runtime keys last := by
  obtain ⟨call, after, shared, located, moved, rfl⟩ := Pool.step_cases stepped
  obtain ⟨aimed, opened⟩ := aim_next moved
  have present := List.mem_of_getElem? located
  constructor
  · intro other member key aims
    rcases List.mem_or_eq_of_mem_set member with earlier | rfl
    · exact within.aims other earlier key aims
    · exact within.aims call present key (aimed key aims)
  · intro key member
    rcases opened key member with earlier | aims
    · exact within.live key earlier
    · exact within.aims call present key aims

/-! ## The worst interleaving -/

/-- The session that a call inserts an instance for. -/
def poised : SessionState → Option (String × String)
  | .insert key _ => some key
  | _ => none

theorem poised_start (call : SessionCall) : poised call.start = none := by
  cases call with
  | instanceOf machine session => rfl
  | release scenario session => rfl

/-- With no session live, a call that opens a session can move on until it is about to. -/
theorem exists_insert_alone {runtime : ScenarioRuntime} {map : SessionMap}
    (empty : map.sessions = ∅) {call : SessionCall} {key : String × String}
    (opens : call.opens runtime = some key) :
    ∃ inst, Pool.FreeRun (SessionState.next runtime) ⟨map, [call.start]⟩
      ⟨{ map with allocated := map.allocated + 1 }, [.insert key ⟨map.allocated, inst⟩]⟩ := by
  cases call with
  | release scenario session => cases opens
  | instanceOf machine session =>
      simp only [SessionCall.opens] at opens
      split at opens
      · cases opens
      next positive =>
        obtain ⟨entry, declared, rfl⟩ := Option.map_eq_some_iff.mp opens
        have absent : map.sessions.lookup (machine.name, session) = none := by
          rw [empty]
          rfl
        have room : ¬ FiniteMap.size map.sessions ≥ runtime.maxSessions := by
          rw [empty, FiniteMap.size_empty]
          omega
        refine ⟨Instance.new machine.name machine.initial entry.seed runtime.maxStoreEntries, ?_⟩
        apply Pool.run_of_follow [0, 0, 0]
        simp only [SessionCall.start, Pool.follow, Pool.step, SessionState.next, absent, room,
          declared, if_true, if_false, List.getElem?_cons_zero, List.set_cons_zero]

/-- With no session live, a call can move on until it is about to open its session. -/
theorem exists_poised_alone (runtime : ScenarioRuntime) {map : SessionMap}
    (empty : map.sessions = ∅) (call : SessionCall) :
    ∃ result after, Pool.FreeRun (SessionState.next runtime) ⟨map, [call.start]⟩ ⟨result, [after]⟩ ∧
      result.sessions = ∅ ∧ poised after = call.opens runtime := by
  cases opens : call.opens runtime with
  | none => exact ⟨map, call.start, .refl _, empty, poised_start call⟩
  | some key =>
      obtain ⟨inst, ready⟩ := exists_insert_alone empty opens
      exact ⟨_, _, ready, empty, rfl⟩

/-- With no session live, all calls can move on until each is about to open its session. -/
theorem exists_poised (runtime : ScenarioRuntime) (before : List SessionState)
    {map : SessionMap} (empty : map.sessions = ∅) (calls : List SessionCall) :
    ∃ result states, Pool.FreeRun (SessionState.next runtime)
        ⟨map, before ++ calls.map SessionCall.start⟩ ⟨result, before ++ states⟩ ∧
      states.filterMap poised = calls.filterMap (SessionCall.opens runtime) := by
  induction calls generalizing before map with
  | nil => exact ⟨map, [], .refl _, rfl⟩
  | cons call rest ih =>
      obtain ⟨middle, after, alone, empty', ready⟩ := exists_poised_alone runtime empty call
      obtain ⟨result, states, others, poised'⟩ := ih (before ++ [after]) empty'
      refine ⟨result, after :: states, ?_, ?_⟩
      · have first := alone.beside before (rest.map SessionCall.start)
        simp only [List.append_assoc, List.singleton_append] at others
        exact first.trans others
      · simp only [List.filterMap_cons, ready, poised']

/-- Calls that are about to open sessions can all do so, one after the other. -/
theorem exists_opened (runtime : ScenarioRuntime) (before states : List SessionState)
    (map : SessionMap) :
    ∃ result after, Pool.FreeRun (SessionState.next runtime)
        ⟨map, before ++ states⟩ ⟨result, before ++ after⟩ ∧
      (∀ key ∈ map.sessions, key ∈ result.sessions) ∧
      ∀ key ∈ states.filterMap poised, key ∈ result.sessions := by
  induction states generalizing before map with
  | nil =>
      refine ⟨map, [], .refl _, fun _ => id, ?_⟩
      intro key member
      cases member
  | cons state rest ih =>
      have alone : ∃ middle after, Pool.FreeRun (SessionState.next runtime)
          ⟨map, [state]⟩ ⟨middle, [after]⟩ ∧ (∀ key ∈ map.sessions, key ∈ middle.sessions) ∧
          ∀ key, poised state = some key → key ∈ middle.sessions := by
        cases state with
        | insert key fresh =>
            cases held : map.sessions.lookup key with
            | some existing =>
                refine ⟨map, .given key (.ok fresh), ?_, fun _ => id, ?_⟩
                · apply Pool.run_of_follow [0]
                  simp [Pool.follow, Pool.step, SessionState.next, held]
                · rintro _ ⟨⟩
                  exact AList.lookup_isSome.mp (by simp [held])
            | none =>
                refine ⟨{ map with sessions := map.sessions.insert key fresh },
                  .given key (.ok fresh), ?_, ?_, ?_⟩
                · apply Pool.run_of_follow [0]
                  simp [Pool.follow, Pool.step, SessionState.next, held]
                · exact fun other member => (AList.mem_insert _).mpr (.inr member)
                · rintro _ ⟨⟩
                  exact (AList.mem_insert _).mpr (.inl rfl)
        | lookup | measure | recheck | remove | given | released =>
            refine ⟨map, _, .refl _, fun _ => id, ?_⟩
            intro key aimed
            cases aimed
      obtain ⟨middle, after, first, kept, own⟩ := alone
      obtain ⟨result, states', others, kept', opened⟩ := ih (before ++ [after]) middle
      refine ⟨result, after :: states', ?_, fun key member => kept' key (kept key member), ?_⟩
      · simp only [List.append_assoc, List.singleton_append] at others
        exact (first.beside before rest).trans others
      · intro key member
        rw [List.filterMap_cons] at member
        cases aimed : poised state with
        | none => exact opened key (by simpa [aimed] using member)
        | some other =>
            rw [aimed] at member
            rcases List.mem_cons.mp member with rfl | later
            · exact kept' key (own key aimed)
            · exact opened key later

/-- Some interleaving has all the sessions live at once that the calls open. -/
theorem exists_all_opened (runtime : ScenarioRuntime) (calls : List SessionCall) :
    ∃ last, Pool.FreeRun (SessionState.next runtime) (initial calls) last ∧
      (runtime.opened calls).length ≤ live last := by
  have empty : (⟨∅, 0⟩ : SessionMap).sessions = ∅ := rfl
  obtain ⟨middle, states, ready, same⟩ := exists_poised runtime [] empty calls
  obtain ⟨result, after, opens, -, opened⟩ := exists_opened runtime [] states middle
  refine ⟨⟨result, after⟩, ready.trans opens, ?_⟩
  apply FiniteMap.length_le_size (List.nodup_dedup _)
  intro key member
  rw [same] at opened
  exact opened key (List.mem_dedup.mp member)

/-! ## Two first requests of one session -/

/-- The session that a call asks an instance of. -/
def asks : SessionState → Option (String × String)
  | .lookup machine session | .measure machine session => some (machine.name, session)
  | .recheck key _ | .insert key _ | .given key _ => some key
  | .remove _ | .released _ => none

theorem asks_next {state after : SessionState} {map result : SessionMap}
    (moved : state.next runtime map = some (after, result)) : asks after = asks state := by
  cases state with
  | lookup machine session =>
      simp only [SessionState.next] at moved
      split at moved <;> (cases moved; rfl)
  | measure machine session =>
      simp only [SessionState.next] at moved
      split at moved
      · cases moved
        rfl
      · split at moved <;> (cases moved; rfl)
  | recheck key fresh =>
      simp only [SessionState.next] at moved
      split at moved <;> (cases moved; rfl)
  | insert key fresh =>
      simp only [SessionState.next] at moved
      split at moved <;> (cases moved; rfl)
  | remove key =>
      cases moved
      rfl
  | given | released => cases moved

/-- Every call of a run asks for the session it was made for. -/
theorem asks_run {calls : List SessionCall} {last : SessionPool}
    (run : Pool.FreeRun (SessionState.next runtime) (initial calls) last) :
    last.calls.map asks = calls.map fun call => asks call.start := by
  apply run.preserves (fun pool => pool.calls.map asks = calls.map fun call => asks call.start)
  · intro pool last index same _ stepped
    obtain ⟨call, after, shared, located, moved, rfl⟩ := Pool.step_cases stepped
    exact (Pool.map_calls_set located (asks_next moved)).trans same
  · exact List.map_map

/-- A call that asks for a session opens it if another call does. -/
theorem opens_of_asks {call other : SessionCall} {key : String × String}
    (asked : asks call.start = some key) (opens : other.opens runtime = some key) :
    call.opens runtime = some key := by
  cases call with
  | release scenario session => cases asked
  | instanceOf machine session =>
      cases asked
      cases other with
      | release scenario session' => cases opens
      | instanceOf machine' session' =>
          simp only [SessionCall.opens] at opens ⊢
          split at opens
          · cases opens
          next positive =>
            obtain ⟨entry, declared, same⟩ := Option.map_eq_some_iff.mp opens
            obtain ⟨named, -⟩ := Prod.mk.inj same
            rw [if_neg positive, ← named, declared]
            rfl

/-- A call that returns with an instance opens its session. -/
theorem Returns.opens {calls : List SessionCall} {key : String × String} {handle : Handle}
    (run : Pool.FreeRun (SessionState.next runtime) (initial calls) pool)
    (returns : Returns runtime key handle pool last index) :
    ∃ call, calls[index]? = some call ∧ call.opens runtime = some key := by
  have reached := run.tail trivial returns.stepped
  have within : Within runtime (runtime.opened calls) last :=
    reached.preserves (Within runtime (runtime.opened calls))
      (fun within _ stepped => within.step stepped) (within_initial calls)
  obtain ⟨existing, live⟩ := returns.live
  have member := within.live key (AList.lookup_isSome.mp (by simp [live]))
  obtain ⟨other, -, opens⟩ := List.mem_filterMap.mp (List.mem_dedup.mp member)
  have same : (last.calls.map asks)[index]? = some (some key) := by
    rw [List.getElem?_map, returns.given]
    rfl
  rw [asks_run reached, List.getElem?_map] at same
  obtain ⟨call, located, asked⟩ := Option.map_eq_some_iff.mp same
  exact ⟨call, located, opens_of_asks asked opens⟩

/-- What a call has returned with it keeps. -/
theorem given_run {allowed : SessionPool → Nat → Prop} {key : String × String}
    {result : Except StatefulFailure Handle}
    (run : Pool.Run (SessionState.next runtime) allowed pool last)
    (given : pool.calls[index]? = some (.given key result)) :
    last.calls[index]? = some (.given key result) := by
  apply run.preserves (fun pool => pool.calls[index]? = some (.given key result)) _ given
  intro pool last other given _ stepped
  obtain ⟨call, after, shared, located, moved, rfl⟩ := Pool.step_cases stepped
  have apart : other ≠ index := by
    rintro rfl
    cases located.symm.trans given
    cases moved
  exact (List.getElem?_set_ne apart).trans given

/-- Two calls that open one session can both have found it missing, and are given two instances. -/
theorem exists_two_given {calls : List SessionCall} {first second : Nat} (before : first < second)
    {call other : SessionCall} {key : String × String}
    (located : calls[first]? = some call) (opens : call.opens runtime = some key)
    (located' : calls[second]? = some other) (opens' : other.opens runtime = some key) :
    ∃ ready between after inst inst',
      Pool.FreeRun (SessionState.next runtime) (initial calls) ready ∧
      Returns runtime key ⟨0, inst⟩ ready between first ∧
      Returns runtime key ⟨1, inst'⟩ between after second := by
  have apart : first ≠ second := Nat.ne_of_lt before
  have started : ∀ {index : Nat} {call : SessionCall}, calls[index]? = some call →
      (calls.map SessionCall.start)[index]? = some call.start := by
    intro index call located
    rw [List.getElem?_map, located]
    rfl
  -- Both move on until they are about to insert, the one after the other.
  obtain ⟨inst, alone⟩ := exists_insert_alone (show (⟨∅, 0⟩ : SessionMap).sessions = ∅ from rfl) opens
  have finds : (initial calls).calls[first]? = some call.start := started located
  have one := Pool.Run.placed finds alone
  let poised := (calls.map SessionCall.start).set first (.insert key ⟨0, inst⟩)
  obtain ⟨inst', alone'⟩ := exists_insert_alone (show (⟨∅, 1⟩ : SessionMap).sessions = ∅ from rfl) opens'
  have waits : poised[second]? = some other.start :=
    (List.getElem?_set_ne apart).trans (started located')
  have finds' : (⟨⟨∅, 1⟩, poised⟩ : SessionPool).calls[second]? = some other.start := waits
  have two := Pool.Run.placed finds' alone'
  let ready : SessionPool := ⟨⟨∅, 2⟩, poised.set second (.insert key ⟨1, inst'⟩)⟩
  have inserts : ready.calls[first]? = some (.insert key ⟨0, inst⟩) :=
    (List.getElem?_set_ne apart.symm).trans
      (List.getElem?_set_self (List.getElem?_eq_some_iff.mp (started located)).1)
  let between : SessionPool :=
    ⟨⟨(∅ : FiniteMap (String × String) Handle).insert key ⟨0, inst⟩, 2⟩,
      ready.calls.set first (.given key (.ok ⟨0, inst⟩))⟩
  have stepped : ready.step (SessionState.next runtime) first = some between := by
    simp only [Pool.step, inserts]
    rfl
  have inserts' : between.calls[second]? = some (.insert key ⟨1, inst'⟩) :=
    (List.getElem?_set_ne apart).trans
      (List.getElem?_set_self (List.getElem?_eq_some_iff.mp waits).1)
  let after : SessionPool :=
    ⟨between.shared, between.calls.set second (.given key (.ok ⟨1, inst'⟩))⟩
  have stepped' : between.step (SessionState.next runtime) second = some after := by
    have taken : between.shared.sessions.lookup key = some ⟨0, inst⟩ :=
      AList.lookup_insert _
    simp only [Pool.step, inserts', SessionState.next, taken]
    rfl
  exact ⟨ready, between, after, inst, inst', one.trans two,
    ⟨stepped, List.getElem?_set_self (List.getElem?_eq_some_iff.mp inserts).1⟩,
    ⟨stepped', List.getElem?_set_self (List.getElem?_eq_some_iff.mp inserts').1⟩⟩

/-- The cap is kept in every interleaving exactly if few enough sessions are opened. -/
theorem cap_kept_iff (runtime : ScenarioRuntime) (calls : List SessionCall) :
    KeepsCap runtime (fun _ _ => True) calls ↔
      (runtime.opened calls).length ≤ runtime.maxSessions := by
  constructor
  · intro capped
    obtain ⟨last, run, many⟩ := exists_all_opened runtime calls
    exact Nat.le_trans many (capped last run)
  · intro few last run
    have within : Within runtime (runtime.opened calls) last :=
      run.preserves (Within runtime (runtime.opened calls))
        (fun within _ stepped => within.step stepped) (within_initial calls)
    exact Nat.le_trans (FiniteMap.size_le_length within.live) few

/-- Instances are shared in every interleaving exactly if no two calls open one session. -/
theorem shares_instances_iff (runtime : ScenarioRuntime) (calls : List SessionCall) :
    SharesInstances runtime (fun _ _ => True) calls ↔
      (calls.filterMap (SessionCall.opens runtime)).Nodup := by
  unfold List.Nodup
  rw [List.pairwise_filterMap, List.pairwise_iff_getElem]
  constructor
  · rintro shares first second inside inside' before key opens _ opens' rfl
    obtain ⟨ready, between, after, inst, inst', run, given, given'⟩ :=
      exists_two_given before (List.getElem?_eq_getElem inside) opens
        (List.getElem?_eq_getElem inside') opens'
    have same := shares key ready between between after first second _ _ run trivial given
      (.refl _) trivial given'
    cases same
  · intro apart key first second third fourth index other handle handle' run _ returns between _
      returns'
    obtain ⟨call, located, opens⟩ := returns.opens run
    have reached := (run.tail trivial returns.stepped).trans between.free
    obtain ⟨call', located', opens'⟩ := returns'.opens reached
    obtain ⟨inside, rfl⟩ := List.getElem?_eq_some_iff.mp located
    obtain ⟨inside', rfl⟩ := List.getElem?_eq_some_iff.mp located'
    rcases Nat.lt_trichotomy index other with before | rfl | after
    · exact absurd rfl (apart index other inside inside' before key opens key opens')
    · -- A call that has returned does not return again.
      have given := given_run between returns.given
      obtain ⟨state, _, _, stands, moved, -⟩ := Pool.step_cases returns'.stepped
      cases stands.symm.trans given
      cases moved
    · exact absurd rfl (apart other index inside' inside after key opens' key opens)

/-- In a run whose insertions find room, instances are shared. -/
theorem shares_instances_of_room (runtime : ScenarioRuntime) (calls : List SessionCall) :
    SharesInstances runtime (FindsRoom runtime) calls := by
  intro key first second third fourth index other handle handle' _ room returns between room'
    returns'
  have kept : third.shared.sessions.lookup key = some handle :=
    between.preserves (fun pool => pool.shared.sessions.lookup key = some handle)
      (fun live retained stepped => lookup_step live retained.2 stepped) (returns.lookup_eq room)
  have later := lookup_step kept returns'.retains returns'.stepped
  exact Option.some.inj (later.symm.trans (returns'.lookup_eq room'))

/--
In all interleavings, the cap is kept exactly if the calls open no more
different sessions than it allows, and two calls given an instance of one
session share it exactly if no two calls open the same session.  In every run,
both hold as long as each insertion finds its session missing and fewer live
sessions than the cap.
-/
theorem session_cap_iff (runtime : ScenarioRuntime) (calls : List SessionCall) :
    (KeepsCap runtime (fun _ _ => True) calls ↔
      (runtime.opened calls).length ≤ runtime.maxSessions) ∧
    (SharesInstances runtime (fun _ _ => True) calls ↔
      (calls.filterMap (SessionCall.opens runtime)).Nodup) ∧
    KeepsCap runtime (FindsRoom runtime) calls ∧
    SharesInstances runtime (FindsRoom runtime) calls := by
  refine ⟨cap_kept_iff runtime calls, shares_instances_iff runtime calls, ?_,
    shares_instances_of_room runtime calls⟩
  intro last run
  apply run.preserves (fun pool => live pool ≤ runtime.maxSessions)
  · exact fun within room stepped => live_step within room stepped
  · exact Nat.zero_le _

end SessionPool

/-! ## Racing requests -/

/-- A call for an instance of the sample. -/
def signUpSession (session : String) : SessionCall :=
  .instanceOf (ScenarioEntry.machine signUp) session

/-- Two first requests of one session: the second looks again after the first has inserted. -/
theorem session_cap_iff_signUp :
    let runtime := ScenarioRuntime.new signUpSidecar 1 8
    let start := SessionPool.initial [signUpSession "a", signUpSession "a"]
    ∃ first second third handle handle',
      Pool.Run (SessionState.next runtime) (SessionPool.FindsRoom runtime) start first ∧
      SessionPool.Returns runtime ("signUp", "a") handle first second 0 ∧
      SessionPool.Returns runtime ("signUp", "a") handle' second third 1 ∧
      SessionPool.live second ≤ runtime.maxSessions ∧ handle = handle' := by
  intro runtime start
  obtain ⟨-, -, capped, shared⟩ :=
    SessionPool.session_cap_iff runtime [signUpSession "a", signUpSession "a"]
  let first := (start.follow (SessionState.next runtime) (SessionPool.FindsRoom runtime)
    [0, 0, 1, 1, 0]).get (by decide)
  let second := (first.step (SessionState.next runtime) 0).get (by decide)
  let third := (second.step (SessionState.next runtime) 1).get (by decide)
  let winner : Handle := ⟨0, Instance.new "signUp" ⟨"new"⟩ [] 8⟩
  have reached : Pool.Run (SessionState.next runtime) (SessionPool.FindsRoom runtime) start first :=
    Pool.run_of_follow [0, 0, 1, 1, 0] (Option.some_get _).symm
  have inserted : SessionPool.Returns runtime ("signUp", "a") winner first second 0 :=
    ⟨(Option.some_get _).symm, rfl⟩
  have adopted : SessionPool.Returns runtime ("signUp", "a") winner second third 1 :=
    ⟨(Option.some_get _).symm, rfl⟩
  have room : SessionPool.FindsRoom runtime first 0 := by decide
  have room' : SessionPool.FindsRoom runtime second 1 := by decide
  exact ⟨first, second, third, winner, winner, reached, inserted, adopted,
    capped _ (reached.tail room inserted.stepped),
    shared _ _ _ _ _ _ _ _ _ reached room inserted (.refl _) room' adopted⟩

/--
Two requests open different sessions at once, though only one may be live; two
requests of one session are given two instances.
-/
theorem racing_sessions_exceed_cap :
    let runtime := ScenarioRuntime.new signUpSidecar 1 8
    ¬ SessionPool.KeepsCap runtime (fun _ _ => True) [signUpSession "a", signUpSession "b"] ∧
      ¬ SessionPool.SharesInstances runtime (fun _ _ => True)
        [signUpSession "a", signUpSession "a"] := by
  intro runtime
  constructor
  · intro capped
    have reached : ∃ last, Pool.FreeRun (SessionState.next runtime)
        (SessionPool.initial [signUpSession "a", signUpSession "b"]) last ∧
        decide (SessionPool.live last = 2) = true :=
      Pool.exists_run_of_follow [0, 0, 1, 1, 0, 1, 0, 1] (by decide)
    obtain ⟨last, run, two⟩ := reached
    have within := capped last run
    rw [of_decide_eq_true two] at within
    revert within
    decide
  · -- Both look again before either inserts.
    intro shared
    let start := SessionPool.initial [signUpSession "a", signUpSession "a"]
    let first := (start.follow (SessionState.next runtime) (fun _ _ => True)
      [0, 0, 1, 1, 0, 1]).get (by decide)
    let second := (first.step (SessionState.next runtime) 0).get (by decide)
    let third := (second.step (SessionState.next runtime) 1).get (by decide)
    have reached : Pool.FreeRun (SessionState.next runtime) start first :=
      Pool.run_of_follow [0, 0, 1, 1, 0, 1] (Option.some_get _).symm
    have inserted : SessionPool.Returns runtime ("signUp", "a")
        ⟨0, Instance.new "signUp" ⟨"new"⟩ [] 8⟩ first second 0 :=
      ⟨(Option.some_get _).symm, rfl⟩
    have own : SessionPool.Returns runtime ("signUp", "a")
        ⟨1, Instance.new "signUp" ⟨"new"⟩ [] 8⟩ second third 1 :=
      ⟨(Option.some_get _).symm, rfl⟩
    have same := shared _ _ _ _ _ _ _ _ _ reached trivial inserted (.refl _) trivial own
    exact absurd (congrArg Handle.address same) (by decide)

end SpecMock.Runtime
