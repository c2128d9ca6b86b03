import SpecMock.Runtime.Isolation

/-!
# Requests that are turned away

A request that prefers a code, fails validation, names an unknown scenario or
meets the session cap is meant to change nothing.  The session of a request is
opened before its validity is looked at, so one kind of request does change the
runtime: an invalid one that is the first of its session.
-/

namespace SpecMock.Runtime

open SpecMock.Library SpecMock.Core

/-- The answer names an unknown scenario or the session cap. -/
def Resolution.turnedAway : Resolution → Bool
  | .failed (.unknownScenario _ _) | .failed (.sessionCapExceeded _) => true
  | _ => false

theorem Resolution.refused_of_turnedAway {answer : Resolution}
    (turned : answer.turnedAway = true) : answer.refused = true := by
  cases answer with
  | failed failure => cases failure <;> first | rfl | cases turned
  | _ => cases turned

namespace ScenarioRuntime

/-- A request that should leave the runtime alone. -/
def TurnsAway (runtime : ScenarioRuntime) (request : Request) : Prop :=
  request.preferCode = true ∨ request.validated = false ∨
    (runtime.resolveWith request).2.turnedAway = true

/-- An invalid request that is the first of its session, below the session cap. -/
structure OpensInvalid (runtime : ScenarioRuntime) (request : Request) : Prop where
  unpreferred : request.preferCode = false
  invalid : request.validated = false
  known : (runtime.entryOf (runtime.scenarioOf request)).isSome = true
  catalogued : (runtime.operationOf request).isSome = true
  dormant : runtime.view (runtime.pairOf request) = none
  room : FiniteMap.size runtime.sessions < runtime.maxSessions

theorem OpensInvalid.not_passesBy {runtime : ScenarioRuntime} {request : Request}
    (opens : runtime.OpensInvalid request) : ¬ runtime.PassesBy request := by
  rintro (prefers | unknown | uncatalogued)
  · exact absurd (opens.unpreferred.symm.trans prefers) (by simp)
  · simpa [unknown] using opens.known
  · simpa [uncatalogued] using opens.catalogued

/-- An invalid request that has an instance changes nothing more. -/
theorem resolveWith_of_invalid {runtime entered : ScenarioRuntime} {request : Request}
    {entry : ScenarioEntry} {operation : ResolvedOperation} {inst : Instance}
    (honest : request.preferCode = false) (invalid : request.validated = false)
    (known : runtime.entryOf (runtime.scenarioOf request) = some entry)
    (catalogued : runtime.operationOf request = some operation)
    (given : runtime.instanceOf (ScenarioEntry.machine entry)
      (request.session.getD defaultSession) = (entered, .ok inst)) :
    (runtime.resolveWith request).1 = entered := by
  have machine := machine_of_known known
  unfold operationOf at catalogued
  simp only [resolveWith, honest, Bool.false_eq_true, if_false, machine, catalogued, given,
    invalid, if_true]
  split <;> rfl

/-- A valid request that has an instance is not turned away. -/
theorem attendInstance_not_turnedAway (machine : Scenario) (operation : ResolvedOperation)
    {request : Request} (valid : request.validated = true) (session : String) (inst : Instance) :
    (attendInstance machine operation request session inst).2.turnedAway = false := by
  unfold attendInstance
  split
  · rfl
  · rw [if_neg (by simp [valid])]
    cases turned : (serve machine inst operation request).2.turnedAway with
    | false => rfl
    | true =>
        have accepted := serve_not_refused machine inst operation request
        rw [Resolution.refused_of_turnedAway turned] at accepted
        cases accepted

theorem not_turnsAway_of_instance {runtime entered : ScenarioRuntime} {request : Request}
    {entry : ScenarioEntry} {operation : ResolvedOperation} {inst : Instance}
    (honest : request.preferCode = false) (valid : request.validated = true)
    (known : runtime.entryOf (runtime.scenarioOf request) = some entry)
    (catalogued : runtime.operationOf request = some operation)
    (given : runtime.instanceOf (ScenarioEntry.machine entry)
      (request.session.getD defaultSession) = (entered, .ok inst))
    (found : entered.view (runtime.pairOf request) = some inst) : ¬ runtime.TurnsAway request := by
  obtain ⟨_, resolved, _⟩ := resolveWith_of_instance honest known catalogued given found
  rintro (prefers | invalid | turned)
  · exact absurd (honest.symm.trans prefers) (by simp)
  · exact absurd (valid.symm.trans invalid) (by simp)
  · rw [resolved, attendInstance_not_turnedAway _ _ valid] at turned
    cases turned

/-- A request that should change nothing does so unless it opens a session while invalid. -/
theorem unchanged_iff {runtime : ScenarioRuntime} {request : Request}
    (turned : runtime.TurnsAway request) :
    (runtime.resolveWith request).1 = runtime ↔ ¬ runtime.OpensInvalid request := by
  rcases runtime.passesBy_or_reaches request with
    passes | ⟨honest, entry, operation, known, catalogued⟩
  · rw [resolveWith_of_passesBy passes]
    exact iff_of_true rfl fun opens => opens.not_passesBy passes
  rcases runtime.instanceOf_cases known (request.session.getD defaultSession) with
    ⟨inst, live, given⟩ | ⟨_, full, refused⟩ | ⟨dormant, room, given⟩
  · have live' : runtime.view (runtime.pairOf request) = some inst := live
    refine iff_of_true ?_ fun opens => absurd (live'.symm.trans opens.dormant) (by simp)
    cases valid : request.validated with
    | false => exact resolveWith_of_invalid honest valid known catalogued given
    | true =>
        exact absurd turned (not_turnsAway_of_instance honest valid known catalogued given live')
  · rw [resolveWith_of_error honest known catalogued refused]
    exact iff_of_true rfl fun opens => absurd opens.room (by omega)
  · have found : ScenarioRuntime.view
        { runtime with
          sessions := runtime.sessions.insert
            (runtime.scenarioOf request, request.session.getD defaultSession)
            (runtime.freshInstance entry) } (runtime.pairOf request) =
        some (runtime.freshInstance entry) := by
      rw [view, pairOf, FiniteMap.lookup_insert_eq, if_pos rfl]
    have dormant' : runtime.view (runtime.pairOf request) = none := dormant
    cases valid : request.validated with
    | false =>
        refine iff_of_false (fun same => ?_) fun closed => closed
          ⟨honest, valid, by simp [known], by simp [catalogued], dormant', room⟩
        rw [resolveWith_of_invalid honest valid known catalogued given] at same
        rw [same, dormant'] at found
        cases found
    | true =>
        exact absurd turned (not_turnsAway_of_instance honest valid known catalogued given found)

/-- Requests that are turned away without opening a session leave no trace. -/
theorem stateAfter_turnsAway {runtime : ScenarioRuntime} {requests : List Request}
    (turned : ∀ request ∈ requests, runtime.TurnsAway request ∧ ¬ runtime.OpensInvalid request) :
    stateAfter resolveWith runtime requests = runtime := by
  induction requests with
  | nil => rfl
  | cons request rest ih =>
      obtain ⟨here, later⟩ := List.forall_mem_cons.mp turned
      rw [stateAfter_cons, (unchanged_iff here.1).mpr here.2]
      exact ih later

/--
In every reachable state, a request that prefers a code, is invalid or is
answered for an unknown scenario or the session cap leaves the whole runtime as
it was if and only if it does not open a session while invalid; and sequences
of such requests that open none leave it as it was too.
-/
theorem turned_away_unchanged_iff (sidecar : ValidatedSidecar)
    (maxSessions maxStoreEntries : Nat) (calls : List Call) :
    let runtime := stateAfter exec (new sidecar maxSessions maxStoreEntries) calls
    (∀ request, runtime.TurnsAway request →
      ((runtime.resolveWith request).1 = runtime ↔ ¬ runtime.OpensInvalid request)) ∧
    ∀ requests : List Request,
      (∀ request ∈ requests, runtime.TurnsAway request ∧ ¬ runtime.OpensInvalid request) →
      stateAfter resolveWith runtime requests = runtime :=
  ⟨fun _ => unchanged_iff, fun _ => stateAfter_turnsAway⟩

end ScenarioRuntime

/-- An attempt to sign up that fails validation. -/
def invalidSignUp (session : Option String) : Request where
  scenario := none
  session := session
  method := "POST"
  pathTemplate := "/users"
  params := ∅
  request := none
  response := .null
  preferCode := false
  validated := false
  createValue := .followKeySource

/-- In a session that is live, the attempt changes nothing. -/
theorem turned_away_unchanged_iff_live :
    let runtime := stateAfter ScenarioRuntime.exec (ScenarioRuntime.new signUpSidecar 1 8)
      [signUpRequest none "ada"]
    (runtime.resolveWith (invalidSignUp none)).1 = runtime ∧
      stateAfter ScenarioRuntime.resolveWith runtime
        [invalidSignUp none, invalidSignUp none] = runtime := by
  intro runtime
  have turned : runtime.TurnsAway (invalidSignUp none) := .inr (.inl rfl)
  have closed : ¬ runtime.OpensInvalid (invalidSignUp none) := by
    intro opens
    have live : (runtime.view (runtime.pairOf (invalidSignUp none))).isSome = true := by decide
    rw [opens.dormant] at live
    cases live
  have unchanged := ScenarioRuntime.turned_away_unchanged_iff signUpSidecar 1 8
    [signUpRequest none "ada"]
  refine ⟨(unchanged.1 _ turned).mpr closed, unchanged.2 _ ?_⟩
  intro request member
  have only : request = invalidSignUp none := by simpa using member
  exact only ▸ ⟨turned, closed⟩

/--
An invalid request of session `a` takes the only place, so that a valid request
of session `b` is refused for the session cap.
-/
theorem invalid_request_takes_session :
    (¬ ∀ (sidecar : ValidatedSidecar) (maxSessions maxStoreEntries : Nat) (calls : List Call),
      let runtime := stateAfter ScenarioRuntime.exec
        (ScenarioRuntime.new sidecar maxSessions maxStoreEntries) calls
      ∀ request, runtime.TurnsAway request → (runtime.resolveWith request).1 = runtime) ∧
    let runtime := ScenarioRuntime.new signUpSidecar 1 8
    ((runtime.resolveWith (invalidSignUp (some "a"))).1.exec (signUpRequest (some "b") "bob")).2 =
        .resolution (.failed (.sessionCapExceeded 1)) ∧
      (runtime.exec (signUpRequest (some "b") "bob")).2 ≠
        .resolution (.failed (.sessionCapExceeded 1)) := by
  refine ⟨fun unchanged => ?_, by decide⟩
  have same := unchanged signUpSidecar 1 8 [] (invalidSignUp (some "a")) (.inr (.inl rfl))
  have counts := congrArg ScenarioRuntime.sessionCount same
  revert counts
  decide

end SpecMock.Runtime
