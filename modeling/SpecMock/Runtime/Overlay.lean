import SpecMock.Runtime.Accepted

/-!
# Scenarios as overlays

A scenario is meant to be an overlay of the document: an operation that none of
its states names is served as if there were no scenario, and only an operation
that it names elsewhere is refused as illegal.  The legality check looks at the
current state alone, so an operation that the scenario does not name is refused
as well, unless the request prefers a code.
-/

namespace SpecMock.Runtime

open SpecMock.Library SpecMock.Core

namespace ScenarioRuntime

/-- What the session of a request holds, or would start with. -/
def heldBy (runtime : ScenarioRuntime) (request : Request) (entry : ScenarioEntry) : Instance :=
  (runtime.view (runtime.pairOf request)).getD (runtime.freshInstance entry)

/-- The scenario that the request selects is an overlay, as far as the request can tell. -/
structure Overlaid (runtime : ScenarioRuntime) (request : Request) : Prop where
  unnamed : ∀ entry operation, runtime.entryOf (runtime.scenarioOf request) = some entry →
    runtime.operationOf request = some operation →
    operation.name ∉ (ScenarioEntry.machine entry).operations →
    (runtime.resolveWith request).2 = .ungoverned ∧
      (runtime.resolveWith request).1.heldBy request entry = runtime.heldBy request entry
  illegal : ∀ scenario session state operation,
    (runtime.resolveWith request).2 =
      .failed (.illegalOperation scenario session state operation) →
    ∃ machine other, runtime.machine scenario = some machine ∧ other.name ≠ state ∧
      machine.allows other operation = true

/-- The request is for a catalogued operation that no state of its scenario names. -/
structure Unlisted (runtime : ScenarioRuntime) (request : Request) : Prop where
  unpreferred : request.preferCode = false
  unnamed : ∃ entry operation, runtime.entryOf (runtime.scenarioOf request) = some entry ∧
    runtime.operationOf request = some operation ∧
    operation.name ∉ (ScenarioEntry.machine entry).operations

theorem SameSetup.unlisted_iff {runtime other : ScenarioRuntime} (same : runtime.SameSetup other)
    (request : Request) : other.Unlisted request ↔ runtime.Unlisted request := by
  rw [same]
  exact ⟨fun unlisted => ⟨unlisted.1, unlisted.2⟩, fun unlisted => ⟨unlisted.1, unlisted.2⟩⟩

/-- An operation that is not named is not legal anywhere. -/
theorem not_allows_of_unnamed {machine : Scenario} {operation : String}
    (unnamed : operation ∉ machine.operations) (state : State) :
    machine.allows state operation = false := by
  apply Bool.eq_false_iff.mpr
  intro legal
  exact unnamed (Scenario.mem_operations.mpr ⟨state, legal⟩)

/-- A request for an operation that is not named is refused, if it reaches the scenario. -/
theorem Unlisted.not_ungoverned {runtime : ScenarioRuntime} {request : Request}
    (unlisted : runtime.Unlisted request) : (runtime.resolveWith request).2 ≠ .ungoverned := by
  obtain ⟨unpreferred, entry, operation, known, catalogued, unnamed⟩ := unlisted
  rcases runtime.gives_cases request with ⟨passes, _⟩ | capped | ⟨entry', operation', inst, gives⟩
  · rcases passes with prefers | unknown | uncatalogued
    · exact absurd (unpreferred.symm.trans prefers) (by simp)
    · exact absurd (known.symm.trans unknown) (by simp)
    · exact absurd (catalogued.symm.trans uncatalogued) (by simp)
  · rw [capped]
    simp
  · obtain rfl : entry = entry' := Option.some.inj (known.symm.trans gives.known)
    obtain rfl : operation = operation' :=
      Option.some.inj (catalogued.symm.trans gives.catalogued)
    rw [gives.resolved.1, attendInstance, if_pos (not_allows_of_unnamed unnamed _)]
    simp

/-- An illegal operation is one that the current state does not name. -/
theorem illegal_cases {runtime : ScenarioRuntime} {request : Request}
    {scenario session state operation : String}
    (answered : (runtime.resolveWith request).2 =
      .failed (.illegalOperation scenario session state operation)) :
    ∃ entry resolved inst, runtime.Gives request entry resolved inst ∧
      scenario = entry.name ∧ state = inst.state.name ∧ operation = resolved.name ∧
      (ScenarioEntry.machine entry).allows inst.state resolved.name = false := by
  rcases runtime.gives_cases request with ⟨_, passed⟩ | capped | ⟨entry, resolved, inst, gives⟩
  · rw [passed] at answered
    unfold unattended at answered
    split at answered <;> cases answered
  · rw [capped] at answered
    cases answered
  · rw [gives.resolved.1, attendInstance] at answered
    refine ⟨entry, resolved, inst, gives, ?_⟩
    split at answered
    next illegal =>
      cases answered
      exact ⟨rfl, rfl, rfl, illegal⟩
    next =>
      split at answered
      · cases answered
      · have served := serve_not_refused (ScenarioEntry.machine entry) inst resolved request
        rw [answered] at served
        cases served

/-- The selected scenario is an overlay for exactly the requests that are not unlisted. -/
theorem overlaid_iff (runtime : ScenarioRuntime) (request : Request) :
    runtime.Overlaid request ↔ ¬ runtime.Unlisted request := by
  constructor
  · intro overlaid unlisted
    obtain ⟨entry, operation, known, catalogued, unnamed⟩ := unlisted.unnamed
    exact unlisted.not_ungoverned (overlaid.unnamed entry operation known catalogued unnamed).1
  · intro listed
    constructor
    · intro entry operation known catalogued unnamed
      cases prefers : request.preferCode with
      | false => exact absurd ⟨prefers, entry, operation, known, catalogued, unnamed⟩ listed
      | true =>
          rw [resolveWith_of_passesBy (.inl prefers), unattended, prefers]
          exact ⟨rfl, rfl⟩
    · intro scenario session state operation answered
      obtain ⟨entry, resolved, inst, gives, rfl, rfl, rfl, illegal⟩ := illegal_cases answered
      have named : resolved.name ∈ (ScenarioEntry.machine entry).operations := by
        by_contra unnamed
        exact listed ⟨gives.unpreferred, entry, resolved, gives.known, gives.catalogued, unnamed⟩
      obtain ⟨other, legal⟩ := Scenario.mem_operations.mp named
      refine ⟨ScenarioEntry.machine entry, other, ?_, ?_, legal⟩
      · rw [machine_eq, entryOf_name gives.known, gives.known]
        rfl
      · intro same
        rw [State.name_injective same, illegal] at legal
        cases legal

/--
In every reachable state, and so over every run, the scenario that a request
selects is an overlay if and only if the request is not for a catalogued
operation that no state of the scenario names, or prefers a code.
-/
theorem scenario_overlays_iff (sidecar : ValidatedSidecar) (maxSessions maxStoreEntries : Nat)
    (calls : List Call) :
    let start := new sidecar maxSessions maxStoreEntries
    (∀ request, (stateAfter exec start calls).Overlaid request ↔ ¬ start.Unlisted request) ∧
    ((∀ visit ∈ visits exec start calls, ∀ request, visit.2.request? = some request →
        visit.1.Overlaid request) ↔
      ∀ call ∈ calls, ∀ request, call.request? = some request → ¬ start.Unlisted request) := by
  intro start
  constructor
  · intro request
    rw [overlaid_iff, (start.stateAfter_sameSetup calls).unlisted_iff]
  · let listed := fun call : Call => ∀ request, call.request? = some request →
      ¬ start.Unlisted request
    refine Iff.trans ?_ (forall_visits_call : (∀ visit ∈ visits exec start calls,
      listed visit.2) ↔ ∀ call ∈ calls, listed call)
    apply forall_visits_congr start.SameSetup
      (fun state (call : Call) => ∀ request, call.request? = some request → state.Overlaid request)
      (fun _ call => ∀ request, call.request? = some request → ¬ start.Unlisted request)
    · exact fun state call same => same.trans (state.exec_sameSetup call)
    · intro state call same
      simp only [overlaid_iff, same.unlisted_iff]
    · exact SameSetup.refl start

end ScenarioRuntime

/-- The users can be listed, which the sign-up scenario does not mention. -/
def browsableSidecar : ValidatedSidecar where
  sidecar := ⟨1, OrderedMap.collect (userOperations.entries ++
    [("listUsers", ⟨⟨"GET", "/users"⟩, some ⟨"/users", .list, none, none⟩, ∅⟩)]), [signUp]⟩
  supported := rfl
  valid := by decide

/-- A valid request for the list of users. -/
def browseRequest : Request where
  scenario := none
  session := none
  method := "GET"
  pathTemplate := "/users"
  params := ∅
  request := none
  response := .null
  preferCode := false
  validated := true
  createValue := .followKeySource

/-- The list of users is refused in the first state, though no state names it. -/
theorem unlisted_browse_refused :
    (¬ ∀ (sidecar : ValidatedSidecar) (maxSessions maxStoreEntries : Nat) (calls : List Call),
      let runtime := stateAfter ScenarioRuntime.exec
        (ScenarioRuntime.new sidecar maxSessions maxStoreEntries) calls
      ∀ request, request.validated = true → runtime.Overlaid request) ∧
    ((ScenarioRuntime.new browsableSidecar 8 8).resolveWith browseRequest).2 =
      .failed (.illegalOperation "signUp" "__default__" "new" "listUsers") := by
  have refused : ((ScenarioRuntime.new browsableSidecar 8 8).resolveWith browseRequest).2 =
      .failed (.illegalOperation "signUp" "__default__" "new" "listUsers") := by decide
  refine ⟨fun overlaid => ?_, refused⟩
  have unnamed : "listUsers" ∉ (ScenarioEntry.machine signUp).operations := by decide
  have kept := (overlaid browsableSidecar 8 8 [] browseRequest rfl).unnamed signUp
    ⟨"listUsers", _, _⟩ rfl rfl unnamed
  exact absurd (kept.1.symm.trans refused) (by simp)

end SpecMock.Runtime
