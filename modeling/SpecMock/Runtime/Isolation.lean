import SpecMock.Runtime.Accepted

/-!
# Sessions do not interfere

Below the session cap, what a run does to the session of a pair, and what it
answers to the requests about that pair, is what these requests do alone.
-/

namespace SpecMock.Runtime

open SpecMock.Library SpecMock.Core

namespace ScenarioRuntime

/-- The call is a request about the session of `pair`. -/
def concerns (runtime : ScenarioRuntime) (pair : String × String) (call : Call) : Bool :=
  match call.request? with
  | none => false
  | some request => decide (runtime.pairOf request = pair)

/-- One session as a machine of its own. -/
def attendCall (runtime : ScenarioRuntime) (held : Option Instance) (call : Call) :
    Option Instance × Reply :=
  match call.request? with
  | none => (held, .released false)
  | some request =>
      let attended := runtime.attend held request
      (attended.1, .resolution attended.2)

/-- The answer that the session cap gives. -/
def Reply.capped : Reply → Bool
  | .resolution (.failed (.sessionCapExceeded _)) => true
  | _ => false

/-- A request that the session cap did not refuse. -/
def Uncapped (event : Call × Reply) : Prop :=
  event.1.request?.isSome = true ∧ Reply.capped event.2 = false

instance (event : Call × Reply) : Decidable (Uncapped event) :=
  inferInstanceAs (Decidable (_ ∧ _))

/-- An uncapped request does to its session what the machine of the session does. -/
theorem view_exec_of_concerns {start state : ScenarioRuntime} (same : start.SameSetup state)
    {pair : String × String} {call : Call} (concerned : start.concerns pair call = true)
    (uncapped : Uncapped (call, (state.exec call).2)) :
    ((state.exec call).1.view pair, (state.exec call).2) =
      start.attendCall (state.view pair) call := by
  cases made : call.request? with
  | none => simp [concerns, made] at concerned
  | some request =>
      obtain rfl : start.pairOf request = pair := by simpa [concerns, made] using concerned
      rcases state.exec_request_cases made with ⟨_, executed⟩ | ⟨_, answered, updated⟩
      · have capped := uncapped.2
        rw [executed] at capped
        cases capped
      · rw [answered, updated, same.attend_eq, same.pairOf_eq, Function.update_self]
        simp only [attendCall, made]

/-- A request leaves the sessions it is not about as they are. -/
theorem view_exec_of_not_concerns {start state : ScenarioRuntime} (same : start.SameSetup state)
    {pair : String × String} {call : Call} (unconcerned : start.concerns pair call = false)
    (uncapped : Uncapped (call, (state.exec call).2)) :
    (state.exec call).1.view pair = state.view pair := by
  obtain ⟨request, made⟩ := Option.isSome_iff_exists.mp uncapped.1
  have other : start.pairOf request ≠ pair := by simpa [concerns, made] using unconcerned
  apply view_exec_of_elsewhere
  · intro made' same'
    cases made.symm.trans same'
    rw [same.pairOf_eq]
    exact other
  · exact not_drops_of_request made pair

/-- A run of uncapped requests, seen from one session. -/
theorem session_run (start : ScenarioRuntime) (pair : String × String) {calls : List Call}
    (uncapped : ∀ event ∈ trace exec start calls, Uncapped event) :
    (stateAfter exec start calls).view pair =
        stateAfter start.attendCall (start.view pair) (calls.filter (start.concerns pair)) ∧
      (trace exec start calls).filter (fun event => start.concerns pair event.1) =
        trace start.attendCall (start.view pair) (calls.filter (start.concerns pair)) :=
  projection (fun state : ScenarioRuntime => state.view pair)
    (fun state call same => SameSetup.trans same (state.exec_sameSetup call))
    (fun _ _ same => view_exec_of_concerns same)
    (fun _ _ same => view_exec_of_not_concerns same)
    (SameSetup.refl start) uncapped

/--
Two runs in which no request is refused for the session cap, and which make
the same requests about one pair, give these requests the same answers and
leave the session of the pair the same, whatever the other requests were.
-/
theorem sessions_do_not_interfere (sidecar : ValidatedSidecar)
    (maxSessions maxStoreEntries : Nat) (pair : String × String) (calls others : List Call)
    (uncapped : ∀ event ∈ trace exec (new sidecar maxSessions maxStoreEntries) calls,
      Uncapped event)
    (othersUncapped : ∀ event ∈ trace exec (new sidecar maxSessions maxStoreEntries) others,
      Uncapped event)
    (alike : calls.filter ((new sidecar maxSessions maxStoreEntries).concerns pair) =
      others.filter ((new sidecar maxSessions maxStoreEntries).concerns pair)) :
    let start := new sidecar maxSessions maxStoreEntries
    (trace exec start calls).filter (fun event => start.concerns pair event.1) =
        (trace exec start others).filter (fun event => start.concerns pair event.1) ∧
      (stateAfter exec start calls).view pair = (stateAfter exec start others).view pair := by
  intro start
  obtain ⟨view, answered⟩ := start.session_run pair uncapped
  obtain ⟨otherView, otherAnswered⟩ := start.session_run pair othersUncapped
  rw [answered, otherAnswered, view, otherView, alike]
  exact ⟨rfl, rfl⟩

end ScenarioRuntime

/-- Two sessions sign up, in one run both and in the other only the first. -/
theorem sessions_do_not_interfere_signUp :
    let start := ScenarioRuntime.new signUpSidecar 8 8
    (stateAfter ScenarioRuntime.exec start
        [signUpRequest (some "b") "bob", signUpRequest (some "a") "ada"]).view ("signUp", "a") =
      (stateAfter ScenarioRuntime.exec start [signUpRequest (some "a") "ada"]).view
        ("signUp", "a") ∧
    (stateAfter ScenarioRuntime.exec start [signUpRequest (some "b") "bob"]).view
      ("signUp", "a") ≠
        (stateAfter ScenarioRuntime.exec start [signUpRequest (some "a") "ada"]).view
          ("signUp", "a") := by
  intro start
  refine ⟨(ScenarioRuntime.sessions_do_not_interfere signUpSidecar 8 8 ("signUp", "a")
    [signUpRequest (some "b") "bob", signUpRequest (some "a") "ada"]
    [signUpRequest (some "a") "ada"] (by decide) (by decide) rfl).2, fun same => ?_⟩
  have differs := congrArg Option.isSome same
  revert differs
  decide

end SpecMock.Runtime
