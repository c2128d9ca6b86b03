import SpecMock.Runtime.Scenarios
import SpecMock.Library.Machine
import Mathlib.Logic.Function.Basic

/-!
# Sessions as independent machines

The runtime keeps its live instances in one map.  Seen from outside it is a
family of independent machines, one for each pair of a scenario and a session:
a request is attended by the machine of its pair alone, and the others stay as
they are.  Only the session cap looks at more than one pair.
-/

namespace SpecMock.Runtime

open SpecMock.Library SpecMock.Core

/-- A call of one of the runtime's operations. -/
inductive Call where
  | resolve (scenario session : Option String) (method pathTemplate : String)
      (params : PathParams) (request : Option Value) (response : Value)
      (preferCode validated : Bool)
  | resolveChannel (scenario session channel : String) (incoming : Option Value)
      (generated : Value)
  | resolveGrpc (scenario session : Option String) (methodPath : String)
      (request response : Value)
  | release (scenario session : String)
  | resetAll

inductive Reply where
  | resolution (answer : Resolution)
  | released (found : Bool)
  | reset (count : Nat)
  deriving DecidableEq

/-- The request a call makes, if it makes one. -/
def Call.request? : Call → Option Request
  | .resolve scenario session method pathTemplate params request response preferCode validated =>
      some
        { scenario, session, method, pathTemplate, params, request, response, preferCode,
          validated, createValue := .followKeySource }
  | .resolveChannel scenario session channel incoming generated =>
      some
        { scenario := some scenario, session := some session, method := "channel",
          pathTemplate := channel, params := ∅, request := incoming, response := generated,
          preferCode := false, validated := true, createValue := .followKeySource }
  | .resolveGrpc scenario session methodPath request response =>
      some
        { scenario, session, method := "unary", pathTemplate := methodPath, params := ∅,
          request := some request, response, preferCode := false, validated := true,
          createValue := .response }
  | .release _ _ | .resetAll => none

theorem Call.request?_eq_none {call : Call} :
    call.request? = none ↔ (∃ scenario session, call = .release scenario session) ∨
      call = .resetAll := by
  cases call <;> simp [Call.request?]

namespace ScenarioRuntime

def exec (runtime : ScenarioRuntime) : Call → ScenarioRuntime × Reply
  | .resolve scenario session method pathTemplate params request response preferCode validated =>
      let result := runtime.resolve scenario session method pathTemplate params request response
        preferCode validated
      (result.1, .resolution result.2)
  | .resolveChannel scenario session channel incoming generated =>
      let result := runtime.resolveChannel scenario session channel incoming generated
      (result.1, .resolution result.2)
  | .resolveGrpc scenario session methodPath request response =>
      let result := runtime.resolveGrpc scenario session methodPath request response
      (result.1, .resolution result.2)
  | .release scenario session =>
      let result := runtime.release scenario session
      (result.1, .released result.2)
  | .resetAll =>
      let result := runtime.resetAll
      (result.1, .reset result.2)

/-- The three ways of making a request are one. -/
theorem exec_request (runtime : ScenarioRuntime) {call : Call} {request : Request}
    (made : call.request? = some request) :
    runtime.exec call =
      ((runtime.resolveWith request).1, .resolution (runtime.resolveWith request).2) := by
  cases call with
  | resolve | resolveChannel | resolveGrpc =>
      cases made
      rfl
  | release | resetAll => cases made

/-- The call drops the session of `pair` or resets it. -/
def Drops (pair : String × String) (call : Call) : Prop :=
  call = .release pair.1 pair.2 ∨ call = .resetAll

instance (pair : String × String) : (call : Call) → Decidable (Drops pair call)
  | .release scenario session =>
      decidable_of_iff (scenario = pair.1 ∧ session = pair.2) (by simp [Drops])
  | .resetAll => isTrue (.inr rfl)
  | .resolve .. | .resolveChannel .. | .resolveGrpc .. => isFalse (by simp [Drops])

theorem not_drops_of_request {call : Call} {request : Request}
    (made : call.request? = some request) (pair : String × String) : ¬ Drops pair call := by
  rintro (rfl | rfl) <;> cases made

/-- The scenario a request is about. -/
def scenarioOf (runtime : ScenarioRuntime) (request : Request) : String :=
  (request.scenario.or runtime.defaultScenarioName).getD ""

/-- The scenario and the session a request is about. -/
def pairOf (runtime : ScenarioRuntime) (request : Request) : String × String :=
  (runtime.scenarioOf request, request.session.getD defaultSession)

/-- The catalogued operation a request is for. -/
def operationOf (runtime : ScenarioRuntime) (request : Request) : Option ResolvedOperation :=
  runtime.byRequest.lookup (requestKey request.method request.pathTemplate)

/-- A scenario of the sidecar, by name. -/
def entryOf (runtime : ScenarioRuntime) (name : String) : Option ScenarioEntry :=
  runtime.sidecar.scenario name

/-- The instance a scenario starts a session with. -/
def freshInstance (runtime : ScenarioRuntime) (entry : ScenarioEntry) : Instance :=
  Instance.new entry.name ⟨entry.initialState⟩ entry.seed runtime.maxStoreEntries

theorem machine_eq (runtime : ScenarioRuntime) (name : String) :
    runtime.machine name = (runtime.entryOf name).map ScenarioEntry.machine := rfl

@[simp] theorem ScenarioEntry.name_machine (entry : ScenarioEntry) :
    (ScenarioEntry.machine entry).name = entry.name := rfl

theorem entryOf_name {runtime : ScenarioRuntime} {name : String} {entry : ScenarioEntry}
    (found : runtime.entryOf name = some entry) : entry.name = name :=
  (ValidatedSidecar.scenario_mem found).2

/-- What a request does once it has its instance. -/
def attendInstance (machine : Scenario) (operation : ResolvedOperation) (request : Request)
    (session : String) (inst : Instance) : Instance × Resolution :=
  if machine.allows inst.state operation.name = false then
    (inst, .failed (.illegalOperation machine.name session inst.state.name operation.name))
  else if request.validated = false then (inst, .ungoverned)
  else serve machine inst operation request

/-- What a request does to the session it is about, and its answer. -/
def attend (runtime : ScenarioRuntime) (held : Option Instance) (request : Request) :
    Option Instance × Resolution :=
  if request.preferCode then (held, .ungoverned)
  else
    match runtime.entryOf (runtime.scenarioOf request), runtime.operationOf request with
    | none, _ =>
        match request.scenario with
        | some requested =>
            (held, .failed (.unknownScenario requested runtime.sidecar.scenarioNames))
        | none => (held, .ungoverned)
    | some _, none => (held, .ungoverned)
    | some entry, some operation =>
        let attended := attendInstance (ScenarioEntry.machine entry) operation request
          (request.session.getD defaultSession) (held.getD (runtime.freshInstance entry))
        (some attended.1, attended.2)

/-- A request that needs a new session when the cap is reached. -/
structure Capped (runtime : ScenarioRuntime) (request : Request) : Prop where
  unpreferred : request.preferCode = false
  known : (runtime.entryOf (runtime.scenarioOf request)).isSome = true
  catalogued : (runtime.operationOf request).isSome = true
  dormant : runtime.sessions.lookup (runtime.pairOf request) = none
  full : runtime.maxSessions ≤ FiniteMap.size runtime.sessions

/-- The instance of a pair, if it is live. -/
def view (runtime : ScenarioRuntime) (pair : String × String) : Option Instance :=
  runtime.sessions.lookup pair

theorem instanceOf_cases (runtime : ScenarioRuntime) {name : String} {entry : ScenarioEntry}
    (found : runtime.entryOf name = some entry) (session : String) :
    (∃ inst, runtime.view (name, session) = some inst ∧
      runtime.instanceOf (ScenarioEntry.machine entry) session = (runtime, .ok inst)) ∨
    (runtime.view (name, session) = none ∧
      runtime.maxSessions ≤ FiniteMap.size runtime.sessions ∧
      runtime.instanceOf (ScenarioEntry.machine entry) session =
        (runtime, .error (.sessionCapExceeded runtime.maxSessions))) ∨
    (runtime.view (name, session) = none ∧
      FiniteMap.size runtime.sessions < runtime.maxSessions ∧
      runtime.instanceOf (ScenarioEntry.machine entry) session =
        ({ runtime with
            sessions := runtime.sessions.insert (name, session) (runtime.freshInstance entry) },
          .ok (runtime.freshInstance entry))) := by
  obtain rfl := entryOf_name found
  unfold instanceOf view
  cases held : runtime.sessions.lookup (entry.name, session) with
  | some inst => exact .inl ⟨inst, rfl, by simp [held]⟩
  | none =>
      by_cases full : FiniteMap.size runtime.sessions ≥ runtime.maxSessions
      · exact .inr (.inl ⟨rfl, full, by simp [held, full]⟩)
      · refine .inr (.inr ⟨rfl, Nat.lt_of_not_le full, ?_⟩)
        unfold entryOf at found
        simp only [ScenarioEntry.name_machine, held, full, if_false, found]
        rfl

/-- A live instance is given whatever the cap. -/
theorem given_of_view {runtime : ScenarioRuntime} {name session : String} {entry : ScenarioEntry}
    {inst : Instance} (found : runtime.entryOf name = some entry)
    (live : runtime.view (name, session) = some inst) :
    runtime.instanceOf (ScenarioEntry.machine entry) session = (runtime, .ok inst) := by
  rcases runtime.instanceOf_cases found session with
    ⟨other, held, given⟩ | ⟨dormant, _⟩ | ⟨dormant, _⟩
  · cases held.symm.trans live
    exact given
  · cases dormant.symm.trans live
  · cases dormant.symm.trans live

/-- The instance that is given is live from then on. -/
theorem view_of_given {runtime entered : ScenarioRuntime} {name session : String}
    {entry : ScenarioEntry} {inst : Instance} (found : runtime.entryOf name = some entry)
    (given : runtime.instanceOf (ScenarioEntry.machine entry) session = (entered, .ok inst)) :
    entered.view (name, session) = some inst := by
  rcases runtime.instanceOf_cases found session with
    ⟨live, held, same⟩ | ⟨_, _, refused⟩ | ⟨_, _, same⟩
  · cases same.symm.trans given
    exact held
  · cases refused.symm.trans given
  · cases same.symm.trans given
    rw [view, FiniteMap.lookup_insert_eq, if_pos rfl]

/-- The answer to a request that no machine attends. -/
def unattended (runtime : ScenarioRuntime) (request : Request) : Resolution :=
  match request.preferCode, runtime.entryOf (runtime.scenarioOf request), request.scenario with
  | false, none, some requested =>
      .failed (.unknownScenario requested runtime.sidecar.scenarioNames)
  | _, _, _ => .ungoverned

/-- The request passes by the machines: it prefers a code or there is nothing to reach. -/
def PassesBy (runtime : ScenarioRuntime) (request : Request) : Prop :=
  request.preferCode = true ∨ runtime.entryOf (runtime.scenarioOf request) = none ∨
    runtime.operationOf request = none

theorem passesBy_or_reaches (runtime : ScenarioRuntime) (request : Request) :
    runtime.PassesBy request ∨
      request.preferCode = false ∧
        ∃ entry operation, runtime.entryOf (runtime.scenarioOf request) = some entry ∧
          runtime.operationOf request = some operation := by
  unfold PassesBy
  cases request.preferCode <;> cases runtime.entryOf (runtime.scenarioOf request) <;>
    cases runtime.operationOf request <;> simp

theorem attend_of_passesBy {runtime : ScenarioRuntime} {request : Request}
    (passes : runtime.PassesBy request) (held : Option Instance) :
    runtime.attend held request = (held, runtime.unattended request) := by
  unfold attend unattended
  cases prefers : request.preferCode with
  | true => rfl
  | false =>
      cases known : runtime.entryOf (runtime.scenarioOf request) with
      | none => cases request.scenario <;> rfl
      | some entry =>
          cases catalogued : runtime.operationOf request with
          | none => rfl
          | some operation => simp [PassesBy, prefers, known, catalogued] at passes

theorem attend_of_reaches {runtime : ScenarioRuntime} {request : Request} {entry : ScenarioEntry}
    {operation : ResolvedOperation} (honest : request.preferCode = false)
    (known : runtime.entryOf (runtime.scenarioOf request) = some entry)
    (catalogued : runtime.operationOf request = some operation) (held : Option Instance) :
    runtime.attend held request =
      let attended := attendInstance (ScenarioEntry.machine entry) operation request
        (request.session.getD defaultSession) (held.getD (runtime.freshInstance entry))
      (some attended.1, attended.2) := by
  simp only [attend, honest, Bool.false_eq_true, if_false, known, catalogued]

theorem resolveWith_of_passesBy {runtime : ScenarioRuntime} {request : Request}
    (passes : runtime.PassesBy request) :
    runtime.resolveWith request = (runtime, runtime.unattended request) := by
  unfold resolveWith unattended
  cases prefers : request.preferCode with
  | true => rfl
  | false =>
      have scenario : (request.scenario.or runtime.defaultScenarioName).getD "" =
          runtime.scenarioOf request := rfl
      simp only [Bool.false_eq_true, if_false, machine_eq, scenario]
      cases known : runtime.entryOf (runtime.scenarioOf request) with
      | none => cases request.scenario <;> rfl
      | some entry =>
          cases catalogued : runtime.operationOf request with
          | none =>
              unfold operationOf at catalogued
              simp only [Option.map_some, catalogued]
          | some operation => simp [PassesBy, prefers, known, catalogued] at passes

/-- The scenario of a request, as its resolution looks it up. -/
theorem machine_of_known {runtime : ScenarioRuntime} {request : Request} {entry : ScenarioEntry}
    (known : runtime.entryOf (runtime.scenarioOf request) = some entry) :
    runtime.machine ((request.scenario.or runtime.defaultScenarioName).getD "") =
      some (ScenarioEntry.machine entry) := by
  rw [machine_eq]
  exact congrArg _ known

theorem resolveWith_of_error {runtime entered : ScenarioRuntime} {request : Request}
    {entry : ScenarioEntry} {operation : ResolvedOperation} {failure : StatefulFailure}
    (honest : request.preferCode = false)
    (known : runtime.entryOf (runtime.scenarioOf request) = some entry)
    (catalogued : runtime.operationOf request = some operation)
    (refused : runtime.instanceOf (ScenarioEntry.machine entry)
      (request.session.getD defaultSession) = (entered, .error failure)) :
    runtime.resolveWith request = (entered, .failed failure) := by
  have machine := machine_of_known known
  unfold operationOf at catalogued
  simp only [resolveWith, honest, Bool.false_eq_true, if_false, machine, catalogued, refused]

/-- A request that finds its scenario, its operation and an instance is attended there. -/
theorem resolveWith_of_instance {runtime entered : ScenarioRuntime} {request : Request}
    {entry : ScenarioEntry} {operation : ResolvedOperation} {inst : Instance}
    (honest : request.preferCode = false)
    (known : runtime.entryOf (runtime.scenarioOf request) = some entry)
    (catalogued : runtime.operationOf request = some operation)
    (given : runtime.instanceOf (ScenarioEntry.machine entry)
      (request.session.getD defaultSession) = (entered, .ok inst))
    (found : entered.view (runtime.pairOf request) = some inst) :
    ∃ sessions, runtime.resolveWith request =
        ({ entered with sessions }, (attendInstance (ScenarioEntry.machine entry) operation request
          (request.session.getD defaultSession) inst).2) ∧
      sessions.lookup = Function.update entered.view (runtime.pairOf request)
        (some (attendInstance (ScenarioEntry.machine entry) operation request
          (request.session.getD defaultSession) inst).1) := by
  have machine := machine_of_known known
  have unchanged : entered.sessions.lookup =
      Function.update entered.view (runtime.pairOf request) (some inst) := by
    rw [← found, Function.update_eq_self]
    rfl
  have name : entry.name = runtime.scenarioOf request := entryOf_name known
  unfold operationOf at catalogued
  simp only [resolveWith, honest, Bool.false_eq_true, if_false, machine, catalogued, given,
    attendInstance, ScenarioEntry.name_machine]
  split
  · exact ⟨entered.sessions, rfl, unchanged⟩
  · split
    · exact ⟨entered.sessions, rfl, unchanged⟩
    · refine ⟨_, rfl, funext fun pair => ?_⟩
      rw [FiniteMap.lookup_insert_eq, Function.update_apply]
      simp only [pairOf, name, view]
      rfl

/--
Everything a request can do.  It is refused for the cap and changes nothing;
or the session it is about is attended and no other session changes.
-/
theorem resolveWith_cases (runtime : ScenarioRuntime) (request : Request) :
    (runtime.Capped request ∧
      runtime.resolveWith request =
        (runtime, .failed (.sessionCapExceeded runtime.maxSessions))) ∨
    (¬ runtime.Capped request ∧
      ∃ sessions, runtime.resolveWith request =
          ({ runtime with sessions },
            (runtime.attend (runtime.view (runtime.pairOf request)) request).2) ∧
        sessions.lookup = Function.update runtime.view (runtime.pairOf request)
          (runtime.attend (runtime.view (runtime.pairOf request)) request).1) := by
  have unchanged : runtime.sessions.lookup = Function.update runtime.view
      (runtime.pairOf request) (runtime.view (runtime.pairOf request)) := by
    rw [Function.update_eq_self]
    rfl
  rcases runtime.passesBy_or_reaches request with
    passes | ⟨honest, entry, operation, known, catalogued⟩
  · refine .inr ⟨fun capped => ?_, runtime.sessions, ?_, ?_⟩
    · rcases passes with prefers | unknown | uncatalogued
      · exact absurd (capped.unpreferred.symm.trans prefers) (by simp)
      · simpa [unknown] using capped.known
      · simpa [uncatalogued] using capped.catalogued
    · rw [resolveWith_of_passesBy passes, attend_of_passesBy passes]
    · simpa only [attend_of_passesBy passes] using unchanged
  rw [attend_of_reaches honest known catalogued]
  rcases runtime.instanceOf_cases known (request.session.getD defaultSession) with
    ⟨inst, live, given⟩ | ⟨dormant, full, refused⟩ | ⟨dormant, room, given⟩
  · -- A live instance serves whatever the cap.
    refine .inr ⟨fun capped => ?_, ?_⟩
    · exact absurd (live.symm.trans capped.dormant) (by simp)
    · have live' : runtime.view (runtime.pairOf request) = some inst := live
      rw [live']
      exact resolveWith_of_instance honest known catalogued given live'
  · refine .inl ⟨⟨honest, by simp [known], by simp [catalogued], dormant, full⟩, ?_⟩
    exact resolveWith_of_error honest known catalogued refused
  · refine .inr ⟨fun capped => absurd capped.full (by omega), ?_⟩
    have dormant' : runtime.view (runtime.pairOf request) = none := dormant
    obtain ⟨sessions, resolved, updated⟩ := resolveWith_of_instance honest known catalogued given
      (by rw [view, pairOf, FiniteMap.lookup_insert_eq, if_pos rfl])
    refine ⟨sessions, by rw [resolved, dormant']; rfl, ?_⟩
    rw [updated, dormant']
    funext pair
    by_cases same : pair = runtime.pairOf request
    · subst same
      simp
    · rw [Function.update_of_ne same, Function.update_of_ne same, view, view,
        FiniteMap.lookup_insert_eq]
      exact if_neg same

/-- The request reaches a machine and is given an instance to be attended by. -/
structure Gives (runtime : ScenarioRuntime) (request : Request) (entry : ScenarioEntry)
    (operation : ResolvedOperation) (inst : Instance) : Prop where
  unpreferred : request.preferCode = false
  known : runtime.entryOf (runtime.scenarioOf request) = some entry
  catalogued : runtime.operationOf request = some operation
  given : ∃ entered, runtime.instanceOf (ScenarioEntry.machine entry)
    (request.session.getD defaultSession) = (entered, .ok inst)

/-- Every request passes by, is refused for the cap or is given an instance. -/
theorem gives_cases (runtime : ScenarioRuntime) (request : Request) :
    (runtime.PassesBy request ∧
      runtime.resolveWith request = (runtime, runtime.unattended request)) ∨
    runtime.resolveWith request = (runtime, .failed (.sessionCapExceeded runtime.maxSessions)) ∨
    ∃ entry operation inst, runtime.Gives request entry operation inst := by
  rcases runtime.passesBy_or_reaches request with
    passes | ⟨unpreferred, entry, operation, known, catalogued⟩
  · exact .inl ⟨passes, resolveWith_of_passesBy passes⟩
  rcases runtime.instanceOf_cases known (request.session.getD defaultSession) with
    ⟨inst, _, given⟩ | ⟨_, _, refused⟩ | ⟨_, _, given⟩
  · exact .inr (.inr ⟨entry, operation, inst, unpreferred, known, catalogued, _, given⟩)
  · exact .inr (.inl (resolveWith_of_error unpreferred known catalogued refused))
  · exact .inr (.inr ⟨entry, operation, _, unpreferred, known, catalogued, _, given⟩)

namespace Gives

variable {runtime : ScenarioRuntime} {request : Request} {entry : ScenarioEntry}
  {operation : ResolvedOperation} {inst : Instance}

/-- A request is given one instance, of one scenario and for one operation. -/
theorem unique (gives : runtime.Gives request entry operation inst) {entry' : ScenarioEntry}
    {operation' : ResolvedOperation} {inst' : Instance}
    (other : runtime.Gives request entry' operation' inst') :
    entry = entry' ∧ operation = operation' ∧ inst = inst' := by
  obtain rfl : entry = entry' := Option.some.inj (gives.known.symm.trans other.known)
  obtain rfl : operation = operation' :=
    Option.some.inj (gives.catalogued.symm.trans other.catalogued)
  obtain ⟨_, given⟩ := gives.given
  obtain ⟨_, given'⟩ := other.given
  cases given.symm.trans given'
  exact ⟨rfl, rfl, rfl⟩

/-- The instance is the one that is live or the one that the scenario starts with. -/
theorem held (gives : runtime.Gives request entry operation inst) :
    (runtime.view (runtime.pairOf request)).getD (runtime.freshInstance entry) = inst := by
  obtain ⟨_, given⟩ := gives.given
  unfold pairOf
  rcases runtime.instanceOf_cases gives.known (request.session.getD defaultSession) with
    ⟨_, live, same⟩ | ⟨_, _, refused⟩ | ⟨dormant, _, same⟩
  · cases same.symm.trans given
    rw [live]
    rfl
  · cases refused.symm.trans given
  · cases same.symm.trans given
    rw [dormant]
    rfl

/-- The instance decides the answer, and is live afterwards as it leaves the request. -/
theorem resolved (gives : runtime.Gives request entry operation inst) :
    let attended := attendInstance (ScenarioEntry.machine entry) operation request
      (request.session.getD defaultSession) inst
    (runtime.resolveWith request).2 = attended.2 ∧
      (runtime.resolveWith request).1.view (runtime.pairOf request) = some attended.1 := by
  obtain ⟨entered, given⟩ := gives.given
  obtain ⟨sessions, resolved, updated⟩ := resolveWith_of_instance gives.unpreferred gives.known
    gives.catalogued given (view_of_given gives.known given)
  constructor
  · rw [resolved]
  · rw [resolved]
    exact (congrFun updated _).trans (Function.update_self _ _ _)

end Gives

/-- The runtimes differ in their live instances only. -/
def SameSetup (runtime other : ScenarioRuntime) : Prop :=
  other = { runtime with sessions := other.sessions }

theorem SameSetup.refl (runtime : ScenarioRuntime) : runtime.SameSetup runtime := rfl

theorem SameSetup.trans {first second third : ScenarioRuntime} (before : first.SameSetup second)
    (after : second.SameSetup third) : first.SameSetup third := by
  unfold SameSetup at *
  rw [after, before]

/-- What a request is about does not depend on the live instances. -/
theorem SameSetup.pairOf_eq {runtime other : ScenarioRuntime} (same : runtime.SameSetup other)
    (request : Request) : other.pairOf request = runtime.pairOf request := by
  rw [same]
  rfl

theorem SameSetup.entryOf_eq {runtime other : ScenarioRuntime} (same : runtime.SameSetup other)
    (name : String) : other.entryOf name = runtime.entryOf name := by
  rw [same]
  rfl

theorem SameSetup.attend_eq {runtime other : ScenarioRuntime} (same : runtime.SameSetup other)
    (held : Option Instance) (request : Request) :
    other.attend held request = runtime.attend held request := by
  rw [same]
  rfl

theorem resolveWith_sameSetup (runtime : ScenarioRuntime) (request : Request) :
    runtime.SameSetup (runtime.resolveWith request).1 := by
  rcases runtime.resolveWith_cases request with ⟨_, resolved⟩ | ⟨_, sessions, resolved, _⟩
  · rw [resolved]
    rfl
  · rw [resolved]
    rfl

theorem exec_sameSetup (runtime : ScenarioRuntime) (call : Call) :
    runtime.SameSetup (runtime.exec call).1 := by
  cases made : call.request? with
  | some request =>
      rw [exec_request runtime made]
      exact runtime.resolveWith_sameSetup request
  | none =>
      cases call with
      | resolve | resolveChannel | resolveGrpc => cases made
      | release | resetAll => rfl

theorem stateAfter_sameSetup (runtime : ScenarioRuntime) (calls : List Call) :
    runtime.SameSetup (stateAfter exec runtime calls) :=
  stateAfter_invariant runtime.SameSetup
    (fun state call same => same.trans (state.exec_sameSetup call)) (SameSetup.refl runtime) calls

/-- Everything a call that makes a request can do to the live instances. -/
theorem exec_request_cases (runtime : ScenarioRuntime) {call : Call} {request : Request}
    (made : call.request? = some request) :
    (runtime.Capped request ∧ runtime.exec call =
      (runtime, .resolution (.failed (.sessionCapExceeded runtime.maxSessions)))) ∨
    (¬ runtime.Capped request ∧
      (runtime.exec call).2 = .resolution
        (runtime.attend (runtime.view (runtime.pairOf request)) request).2 ∧
      (runtime.exec call).1.view = Function.update runtime.view (runtime.pairOf request)
        (runtime.attend (runtime.view (runtime.pairOf request)) request).1) := by
  rw [exec_request runtime made]
  rcases runtime.resolveWith_cases request with
    ⟨capped, resolved⟩ | ⟨uncapped, sessions, resolved, updated⟩
  · exact .inl ⟨capped, by rw [resolved]⟩
  · refine .inr ⟨uncapped, by rw [resolved], ?_⟩
    rw [resolved]
    exact updated

theorem view_release (runtime : ScenarioRuntime) (scenario session : String) :
    (runtime.exec (.release scenario session)).1.view =
      Function.update runtime.view (scenario, session) none := by
  funext pair
  change (runtime.sessions.erase (scenario, session)).lookup pair = _
  rw [FiniteMap.lookup_erase_eq, Function.update_apply]
  rfl

theorem view_resetAll (runtime : ScenarioRuntime) :
    (runtime.exec .resetAll).1.view = fun pair => (runtime.view pair).map Instance.reset :=
  funext fun pair => FiniteMap.lookup_mapValues Instance.reset runtime.sessions pair

/-- A call that neither makes a request about a pair nor drops it leaves its session as it is. -/
theorem view_exec_of_elsewhere {runtime : ScenarioRuntime} {call : Call} {pair : String × String}
    (elsewhere : ∀ request, call.request? = some request → runtime.pairOf request ≠ pair)
    (kept : ¬ Drops pair call) : (runtime.exec call).1.view pair = runtime.view pair := by
  cases made : call.request? with
  | some request =>
      have apart := elsewhere request made
      rcases runtime.exec_request_cases made with ⟨_, executed⟩ | ⟨_, _, updated⟩
      · rw [executed]
      · rw [updated, Function.update_of_ne (Ne.symm apart)]
  | none =>
      rcases Call.request?_eq_none.mp made with ⟨scenario, session, rfl⟩ | rfl
      · rw [view_release, Function.update_of_ne]
        rintro rfl
        exact kept (.inl rfl)
      · exact absurd (.inr rfl) kept

theorem view_new (sidecar : ValidatedSidecar) (maxSessions maxStoreEntries : Nat)
    (pair : String × String) : (new sidecar maxSessions maxStoreEntries).view pair = none := rfl

end ScenarioRuntime

end SpecMock.Runtime
