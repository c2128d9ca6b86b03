import SpecMock.Runtime.Sessions
import SpecMock.Runtime.StoreActions

/-!
# The state of a session is its history

Every live session stands in a declared state of its scenario, and that state
is where the scenario's transitions lead from the initial state along the
operations the session has accepted since it was created or last reset.
-/

namespace SpecMock.Runtime

open SpecMock.Library SpecMock.Core

namespace ScenarioEntry

theorem states_get_machine (entry : ScenarioEntry) (name : String) :
    (ScenarioEntry.machine entry).states.get ⟨name⟩ =
      (entry.states.get name).map fun steps =>
        OrderedMap.collect (steps.entries.map fun step =>
          (step.1, StepEntry.transition step.2)) := by
  have monotone : ∀ left right : String, left < right → (⟨left⟩ : State) < ⟨right⟩ :=
    fun left right below => below
  exact OrderedMap.get_collect_map monotone (fun steps : OrderedMap String StepEntry =>
    OrderedMap.collect (steps.entries.map fun step => (step.1, StepEntry.transition step.2)))
    entry.states name

theorem transition_machine (entry : ScenarioEntry) (name operation : String) :
    (ScenarioEntry.machine entry).transition ⟨name⟩ operation =
      match entry.states.get name with
      | none => none
      | some steps => (steps.get operation).map StepEntry.transition := by
  unfold Scenario.transition
  rw [states_get_machine]
  cases entry.states.get name with
  | none => rfl
  | some steps =>
      have monotone : ∀ left right : String, left < right → id left < id right :=
        fun left right below => below
      exact OrderedMap.get_collect_map monotone StepEntry.transition steps operation

end ScenarioEntry

theorem StepEntry.target_transition (step : StepEntry) :
    (StepEntry.transition step).target = step.target.map State.mk := by
  unfold StepEntry.transition
  cases step.target <;> rfl

/-- The machine of an accepted scenario never leaves its declared states. -/
theorem ScenarioEntry.closed_machine {sidecar : Sidecar} {entry : ScenarioEntry}
    (wellFormed : entry.WellFormed sidecar) : (ScenarioEntry.machine entry).Closed := by
  have declares : ∀ name, entry.states.containsKey name = true →
      (ScenarioEntry.machine entry).Declares ⟨name⟩ := by
    intro name declared
    unfold OrderedMap.containsKey at declared
    unfold Scenario.Declares OrderedMap.containsKey
    rw [states_get_machine]
    simpa using declared
  refine ⟨declares _ wellFormed.initial, ?_⟩
  rintro ⟨name⟩ next operation moves
  unfold Scenario.nextState at moves
  rw [transition_machine] at moves
  cases held : entry.states.get name with
  | none => simp [held] at moves
  | some steps =>
      cases found : steps.get operation with
      | none => simp [held, found] at moves
      | some step =>
          simp only [held, found, Option.map_some, StepEntry.target_transition,
            Option.map_eq_some_iff] at moves
          obtain ⟨target, targeted, rfl⟩ := moves
          exact declares target (wellFormed.target (OrderedMap.get_mem held)
            (OrderedMap.get_mem found) targeted)

namespace ScenarioRuntime

/-- The operation that an event has the session of `pair` accept, if it does. -/
def acceptedBy (runtime : ScenarioRuntime) (pair : String × String) (event : Call × Reply) :
    Option String :=
  match event.1.request?, event.2 with
  | some request, .resolution answer =>
      if request.preferCode = false ∧ request.validated = true ∧ runtime.pairOf request = pair ∧
          (runtime.entryOf pair.1).isSome = true ∧ answer.refused = false then
        (runtime.operationOf request).map ResolvedOperation.name
      else none
  | _, _ => none

/-- The operations a session has accepted, after one more event. -/
def recordAccepted (runtime : ScenarioRuntime) (pair : String × String) (history : List String)
    (event : Call × Reply) : List String :=
  if Drops pair event.1 then [] else history ++ (runtime.acceptedBy pair event).toList

/-- The operations the session of `pair` has accepted since it was created or last reset. -/
def accepted (runtime : ScenarioRuntime) (calls : List Call) (pair : String × String) :
    List String :=
  (trace exec runtime calls).foldl (runtime.recordAccepted pair) []

theorem recordAccepted_of_kept (runtime : ScenarioRuntime) {pair : String × String}
    (history : List String) {call : Call} (kept : ¬ Drops pair call) (answer : Reply) :
    runtime.recordAccepted pair history (call, answer) =
      history ++ (runtime.acceptedBy pair (call, answer)).toList :=
  if_neg kept

theorem recordAccepted_of_drops (runtime : ScenarioRuntime) {pair : String × String}
    (history : List String) {call : Call} (drops : Drops pair call) (answer : Reply) :
    runtime.recordAccepted pair history (call, answer) = [] :=
  if_pos drops

/-- The session of `pair` stands where its history leads. -/
def Follows (runtime : ScenarioRuntime) (pair : String × String) (held : Option Instance)
    (history : List String) : Prop :=
  match held with
  | none => history = []
  | some inst => ∃ entry, runtime.entryOf pair.1 = some entry ∧
      inst.initial = (ScenarioEntry.machine entry).initial ∧
      inst.state = (ScenarioEntry.machine entry).fold history

section Step

variable {runtime : ScenarioRuntime} {request : Request} {held : Option Instance}
  {history : List String}

/-- A request moves the session it is about along the operation it has accepted. -/
theorem follows_attend {call : Call} (made : call.request? = some request)
    (follows : runtime.Follows (runtime.pairOf request) held history) :
    runtime.Follows (runtime.pairOf request) (runtime.attend held request).1
      (history ++ (runtime.acceptedBy (runtime.pairOf request)
        (call, .resolution (runtime.attend held request).2)).toList) := by
  rcases runtime.passesBy_or_reaches request with
    passes | ⟨honest, entry, operation, known, catalogued⟩
  · -- Nothing is accepted.
    have none : runtime.acceptedBy (runtime.pairOf request)
        (call, .resolution (runtime.unattended request)) = none := by
      rcases passes with prefers | unknown | uncatalogued
      · simp [acceptedBy, made, prefers]
      · simp [acceptedBy, made, pairOf, unknown]
      · simp [acceptedBy, made, uncatalogued]
    rw [attend_of_passesBy passes, none]
    simpa using follows
  rw [attend_of_reaches honest known catalogued]
  have stands : (held.getD (runtime.freshInstance entry)).initial =
        (ScenarioEntry.machine entry).initial ∧
      (held.getD (runtime.freshInstance entry)).state =
        (ScenarioEntry.machine entry).fold history := by
    cases held with
    | none =>
        have empty : history = [] := follows
        subst empty
        exact ⟨rfl, rfl⟩
    | some inst =>
        obtain ⟨other, found, initial, state⟩ := follows
        obtain rfl : entry = other := Option.some.inj (known.symm.trans found)
        exact ⟨initial, state⟩
  generalize held.getD (runtime.freshInstance entry) = inst at stands ⊢
  obtain ⟨initial, state⟩ := stands
  refine ⟨entry, known, ?_⟩
  unfold attendInstance
  split
  · simp [acceptedBy, made, Resolution.refused, initial, state]
  · split
    next unvalidated => simp [acceptedBy, made, unvalidated, initial, state]
    next validated =>
      have accepts : runtime.acceptedBy (runtime.pairOf request) (call, .resolution
          (serve (ScenarioEntry.machine entry) inst operation request).2) =
          some operation.name := by
        have valid : request.validated = true := by simpa using validated
        have isKnown : (runtime.entryOf (runtime.pairOf request).1).isSome = true := by
          simp only [pairOf, known, Option.isSome_some]
        simp [acceptedBy, made, honest, valid, isKnown, serve_not_refused, catalogued]
      dsimp only
      rw [accepts, serve_instance]
      refine ⟨initial, ?_⟩
      rw [Option.toList_some, Scenario.fold_append, ← state]

/-- Every call keeps every session where its history leads. -/
theorem follows_exec (start state : ScenarioRuntime) (pair : String × String)
    (history : List String) (call : Call)
    (before : start.SameSetup state ∧ start.Follows pair (state.view pair) history) :
    start.SameSetup (state.exec call).1 ∧
      start.Follows pair ((state.exec call).1.view pair)
        (start.recordAccepted pair history (call, (state.exec call).2)) := by
  obtain ⟨same, follows⟩ := before
  refine ⟨same.trans (state.exec_sameSetup call), ?_⟩
  cases made : call.request? with
  | some request =>
      rw [recordAccepted_of_kept start history (not_drops_of_request made pair)]
      rcases state.exec_request_cases made with ⟨_, executed⟩ | ⟨_, answered, updated⟩
      · rw [executed]
        simpa [acceptedBy, made, Resolution.refused] using follows
      · rw [answered, updated, same.attend_eq, same.pairOf_eq]
        by_cases concerned : pair = start.pairOf request
        · subst concerned
          rw [Function.update_self]
          exact follows_attend made follows
        · rw [Function.update_of_ne concerned]
          have other : ¬ start.pairOf request = pair := fun equal => concerned equal.symm
          simpa [acceptedBy, made, other] using follows
  | none =>
      rcases Call.request?_eq_none.mp made with ⟨scenario, session, rfl⟩ | rfl
      · rw [view_release]
        by_cases concerned : pair = (scenario, session)
        · subst concerned
          rw [Function.update_self, recordAccepted_of_drops start history (.inl rfl)]
          rfl
        · rw [Function.update_of_ne concerned, recordAccepted_of_kept start history]
          · simpa [acceptedBy, Call.request?] using follows
          · rintro (released | reset)
            · cases released
              exact concerned rfl
            · cases reset
      · rw [view_resetAll, recordAccepted_of_drops start history (.inr rfl)]
        dsimp only
        cases held : state.view pair with
        | none => rfl
        | some inst =>
            rw [held] at follows
            obtain ⟨entry, known, initial, _⟩ := follows
            exact ⟨entry, known, initial, initial⟩

end Step

theorem follows_run (start : ScenarioRuntime) (fresh : ∀ pair, start.view pair = none)
    (calls : List Call) (pair : String × String) :
    start.Follows pair ((stateAfter exec start calls).view pair) (start.accepted calls pair) := by
  have initial : start.SameSetup start ∧ start.Follows pair (start.view pair) [] := by
    refine ⟨SameSetup.refl start, ?_⟩
    rw [fresh]
    rfl
  exact (stateAfter_history
    (fun state history => start.SameSetup state ∧ start.Follows pair (state.view pair) history)
    (fun state history call => follows_exec start state pair history call) initial calls).2

/-- A validated request given an instance is found illegal exactly when its operation is not
declared there. -/
theorem illegal_iff (runtime : ScenarioRuntime) {call : Call} {request : Request}
    {entry : ScenarioEntry} {operation : ResolvedOperation} {entered : ScenarioRuntime}
    {inst : Instance} (made : call.request? = some request) (honest : request.preferCode = false)
    (valid : request.validated = true)
    (known : runtime.entryOf (runtime.scenarioOf request) = some entry)
    (catalogued : runtime.operationOf request = some operation)
    (given : runtime.instanceOf (ScenarioEntry.machine entry)
      (request.session.getD defaultSession) = (entered, .ok inst)) :
    (∃ answer, (runtime.exec call).2 = .resolution answer ∧ answer.illegal = true) ↔
      (ScenarioEntry.machine entry).allows inst.state operation.name = false := by
  have found : entered.view (runtime.pairOf request) = some inst := view_of_given known given
  obtain ⟨sessions, resolved, _⟩ := resolveWith_of_instance honest known catalogued given found
  rw [exec_request runtime made, resolved]
  simp only [attendInstance, valid, Bool.true_eq_false, if_false, Reply.resolution.injEq,
    exists_eq_left']
  split
  next illegal => simp [Resolution.illegal, illegal]
  next legal =>
    refine iff_of_false (fun illegal => ?_) legal
    have accepted := serve_not_refused (ScenarioEntry.machine entry) inst operation request
    rw [Resolution.refused_of_illegal illegal] at accepted
    cases accepted

/--
Over every run of an accepted sidecar, each live instance is in a declared
state of its scenario, namely where the operations it has accepted lead from
the initial state; and a validated request that is given an instance is
answered as illegal exactly when its operation is not declared in the state of
that instance.
-/
theorem sessions_follow_scenarios (sidecar : ValidatedSidecar)
    (maxSessions maxStoreEntries : Nat) (calls : List Call) :
    let start := new sidecar maxSessions maxStoreEntries
    let runtime := stateAfter exec start calls
    (∀ pair inst, runtime.view pair = some inst →
      ∃ machine, runtime.machine pair.1 = some machine ∧ machine.Declares inst.state ∧
        inst.state = machine.fold (start.accepted calls pair)) ∧
    (∀ (call : Call) request machine operation entered inst, call.request? = some request →
      request.preferCode = false → request.validated = true →
      runtime.machine (runtime.scenarioOf request) = some machine →
      runtime.operationOf request = some operation →
      runtime.instanceOf machine (request.session.getD defaultSession) = (entered, .ok inst) →
      ((∃ answer, (runtime.exec call).2 = .resolution answer ∧ answer.illegal = true) ↔
        machine.allows inst.state operation.name = false)) := by
  intro start runtime
  have same : start.SameSetup runtime := start.stateAfter_sameSetup calls
  constructor
  · intro pair inst live
    have follows := follows_run start (view_new sidecar maxSessions maxStoreEntries) calls pair
    rw [show (stateAfter exec start calls).view pair = some inst from live] at follows
    obtain ⟨entry, known, _, state⟩ := follows
    refine ⟨ScenarioEntry.machine entry, ?_, ?_, state⟩
    · rw [machine_eq, same.entryOf_eq, known]
      rfl
    · have wellFormed := sidecar.wellFormed.scenarios entry
        (ValidatedSidecar.scenario_mem known).1
      rw [state]
      exact (ScenarioEntry.closed_machine wellFormed).fold _
  · intro call request machine operation entered inst made honest valid known catalogued given
    rw [machine_eq] at known
    obtain ⟨entry, found, rfl⟩ := Option.map_eq_some_iff.mp known
    exact runtime.illegal_iff made honest valid found catalogued given

end ScenarioRuntime

/-- Users are created under the `id` of the request and read by path parameter. -/
def userOperations : OrderedMap String OperationEntry :=
  OrderedMap.collect
    [("createUser", ⟨⟨"POST", "/users"⟩,
        some ⟨"/users", .create, none, some ⟨.request, "/id"⟩⟩, ∅⟩),
      ("readUser", ⟨⟨"GET", "/users/\x7bid\x7d"⟩,
        some ⟨"/users", .read, some "\x7bid\x7d", none⟩, ∅⟩)]

/-- A user is created once and may then be read. -/
def signUp : ScenarioEntry where
  name := "signUp"
  initialState := "new"
  seed := []
  states := OrderedMap.collect
    [("new", OrderedMap.collect [("createUser", ⟨some "member", ∅⟩)]),
      ("member", OrderedMap.collect [("readUser", ⟨none, ∅⟩)])]

def signUpSidecar : ValidatedSidecar where
  sidecar := ⟨1, userOperations, [signUp]⟩
  supported := rfl
  valid := by decide

/-- A user signs up in a session. -/
def signUpRequest (session : Option String) (id : String) : Call :=
  .resolve none session "POST" "/users" ∅ (some (.object [("id", .string id)])) .null false true

theorem sessions_follow_scenarios_signUp :
    let start := ScenarioRuntime.new signUpSidecar 8 8
    let runtime := stateAfter ScenarioRuntime.exec start [signUpRequest none "ada"]
    (∃ inst, runtime.view ("signUp", defaultSession) = some inst ∧
      inst.state = (ScenarioEntry.machine signUp).fold ["createUser"]) ∧
    ∃ answer, (runtime.exec (signUpRequest none "bob")).2 = .resolution answer ∧
      answer.illegal = true := by
  intro start runtime
  have live : (runtime.view ("signUp", defaultSession)).map Instance.state = some ⟨"member"⟩ := by
    decide
  obtain ⟨inst, held, state⟩ := Option.map_eq_some_iff.mp live
  have follows := ScenarioRuntime.sessions_follow_scenarios signUpSidecar 8 8
    [signUpRequest none "ada"]
  refine ⟨⟨inst, held, ?_⟩, ?_⟩
  · obtain ⟨machine, known, _, led⟩ := follows.1 ("signUp", defaultSession) inst held
    have history : start.accepted [signUpRequest none "ada"] ("signUp", defaultSession) =
        ["createUser"] := by decide
    rw [history] at led
    obtain rfl : ScenarioEntry.machine signUp = machine := Option.some.inj known
    exact led
  · have illegal : (ScenarioEntry.machine signUp).allows inst.state "createUser" = false := by
      rw [state]
      decide
    refine (follows.2 (signUpRequest none "bob") _ (ScenarioEntry.machine signUp)
      ⟨"createUser", _, _⟩ runtime inst rfl rfl rfl rfl rfl ?_).mpr illegal
    exact ScenarioRuntime.given_of_view
      (show runtime.entryOf "signUp" = some signUp from rfl) held

end SpecMock.Runtime
