import SpecMock.Runtime.Router
import SpecMock.Runtime.Sessions
import SpecMock.Runtime.StoreActions

/-!
# The HTTP handler

A request whose body has been read, parsed and validated is routed to an
operation of the document, given a mocked response and resolved against the
scenarios, which may replace the body, pin the status or refuse the request.
-/

namespace SpecMock.Runtime

open SpecMock.Library SpecMock.Core ScenarioRuntime

structure OpenApiRuntime where
  operations : List OperationSpec
  router : RouteNode
  built : router = buildRouter operations

/-- The document with the given operations. -/
def OpenApiRuntime.of (operations : List OperationSpec) : OpenApiRuntime :=
  ⟨operations, buildRouter operations, rfl⟩

structure MatchedOperation where
  operation : OperationSpec
  pathParams : PathParams

/-- Match an operation by method and path. -/
def OpenApiRuntime.matchOperation (openapi : OpenApiRuntime) (method path : String) :
    Option MatchedOperation :=
  match matchRoute openapi.router method path with
  | none => none
  | some found => (openapi.operations[found.operationIndex]?).map
      fun operation => ⟨operation, found.pathParams⟩

/-- A request is matched to the operation that serves it. -/
theorem OpenApiRuntime.matchOperation_eq_some {openapi : OpenApiRuntime} {method path : String}
    {matched : MatchedOperation} :
    openapi.matchOperation method path = some matched ↔
      ∃ index, Serves openapi.operations method path index matched.operation ∧
        matched.pathParams =
          bindSegments (parseSegments matched.operation.pathTemplate) (splitPath path) ∅ := by
  unfold matchOperation
  rw [openapi.built]
  constructor
  · intro found
    cases routed : matchRoute (buildRouter openapi.operations) method path with
    | none => simp [routed] at found
    | some route =>
        obtain ⟨operation, serves, bound⟩ := serves_of_matchRoute routed
        simp only [routed, serves.declared, Option.map_some, Option.some.injEq] at found
        subst found
        exact ⟨_, serves, bound⟩
  · rintro ⟨index, serves, bound⟩
    simp only [matchRoute_of_serves serves, serves.declared, Option.map_some, ← bound]

/-- Substitute `{name}` placeholders by their values, leaving unbound ones as they are. -/
def substituteChars (params : PathParams) : Nat → List Char → List Char → List Char
  | 0, rendered, rest => rendered ++ rest
  | fuel + 1, rendered, rest =>
      match rest.dropWhile fun char => char != '{' with
      | [] => rendered ++ rest
      | opened :: inside =>
          let rendered := rendered ++ rest.takeWhile fun char => char != '{'
          match inside.dropWhile fun char => char != '}' with
          | [] => rendered ++ opened :: inside
          | _ :: after =>
              let name := inside.takeWhile fun char => char != '}'
              match params.lookup (String.ofList name) with
              | some value => substituteChars params fuel (rendered ++ value.toList) after
              | none => substituteChars params fuel (rendered ++ '{' :: name ++ ['}']) after

def substitutePathParams (template : String) (params : PathParams) : String :=
  String.ofList (substituteChars params template.toList.length [] template.toList)

/-- A declared `Location` header is rendered from the path of the request. -/
def renderLocationHeader (headers : List (String × String)) (pathTemplate : String)
    (params : PathParams) : List (String × String) :=
  headers.map fun header =>
    if asciiLowercase header.1 = "location" then
      (header.1, substitutePathParams pathTemplate params)
    else header

structure HttpServer where
  /-- Deterministic seed of the generator. -/
  seed : BitVec 64
  openapi : OpenApiRuntime

/-- A request that has passed validation, with its parsed body. -/
structure HttpRequest where
  method : String
  path : String
  prefer : PreferDirectives
  json : Option Value

def StatefulFailure.status : StatefulFailure → Nat
  | .unknownScenario _ _ | .resourceNotFound _ => 404
  | .illegalOperation _ _ _ _ | .resourceExists _ => 409
  | .sessionCapExceeded _ => 429
  | .storeCapExceeded _ => 500

inductive HttpResponse where
  | mocked (response : MockHttpResponse)
  /-- A response that could not be mocked, or no operation to mock it for. -/
  | unmocked (error : RuntimeError)
  | refused (failure : StatefulFailure)
  deriving DecidableEq

namespace HttpResponse

def status : HttpResponse → Nat
  | .mocked response => response.status
  | .unmocked (.notFound _) => 404
  | .unmocked (.notAcceptable _) => 406
  | .unmocked (.parse _) => 500
  | .refused failure => failure.status

/-- The request was answered with a mocked response. -/
def succeeded : HttpResponse → Bool
  | .mocked _ => true
  | _ => false

end HttpResponse

/-- A mocked response after its resolution against the scenarios. -/
def resolvedResponse (mock : MockHttpResponse) : Resolution → HttpResponse
  | .ungoverned => .mocked mock
  | .body body => .mocked { mock with body := some body }
  | .empty => .mocked { mock with body := none, status := 204 }
  | .forced status body => .mocked { mock with status, body := body.or mock.body }
  | .failed failure => .refused failure

namespace HttpServer

variable (libraries : Libraries) (server : HttpServer)

/-- Every request with the same method and path has the same seed. -/
def seedOf (method path : String) : BitVec 64 := deterministicHash server.seed (method ++ path)

/-- The mocked response of a request to an operation, before the scenarios. -/
def mockFor (matched : MatchedOperation) (request : HttpRequest) :
    Except RuntimeError MockHttpResponse :=
  (matched.operation.mockResponse libraries (server.seedOf request.method request.path)
    request.prefer).map fun mock =>
      { mock with headers :=
          renderLocationHeader mock.headers matched.operation.pathTemplate matched.pathParams }

end HttpServer

/-- What the handler asks of the scenarios. -/
def HttpRequest.resolution (request : HttpRequest) (matched : MatchedOperation)
    (mock : MockHttpResponse) : Request where
  scenario := request.prefer.scenario
  session := request.prefer.session
  method := request.method
  pathTemplate := matched.operation.pathTemplate
  params := matched.pathParams
  request := request.json
  response := mock.body.getD .null
  preferCode := request.prefer.code.isSome || request.prefer.dynamic
  validated := true
  createValue := .followKeySource

/-- Answer a request; without scenarios the mocked response is served as it is. -/
def fallbackHandler (libraries : Libraries) (server : HttpServer)
    (scenarios : Option ScenarioRuntime) (request : HttpRequest) :
    Option ScenarioRuntime × HttpResponse :=
  match server.openapi.matchOperation request.method request.path with
  | none => (scenarios, .unmocked (.notFound "operation not found"))
  | some matched =>
      match server.mockFor libraries matched request with
      | .error error => (scenarios, .unmocked error)
      | .ok mock =>
          match scenarios with
          | none => (none, .mocked mock)
          | some runtime =>
              let asked := request.resolution matched mock
              let resolved := runtime.resolve asked.scenario asked.session asked.method
                asked.pathTemplate asked.params asked.request asked.response asked.preferCode
                asked.validated
              (some resolved.1, resolvedResponse mock resolved.2)

/-- A request is served with a mocked response unless its resolution failed. -/
theorem resolvedResponse_succeeded (mock : MockHttpResponse) (answer : Resolution) :
    (resolvedResponse mock answer).succeeded = !answer.isFailed := by
  cases answer <;> rfl

/-- Overrides do not decide whether a request is served. -/
theorem finalOutcome_succeeded (mock : MockHttpResponse) (machine : Scenario) (state : State)
    (operation : ResolvedOperation) (outcome : Resolution) :
    (resolvedResponse mock (finalOutcome machine state operation outcome)).succeeded =
      !outcome.isFailed := by
  rw [resolvedResponse_succeeded, isFailed_finalOutcome]

/-- The scenario and the session that directives are about. -/
def ScenarioRuntime.sessionOf (runtime : ScenarioRuntime) (prefer : PreferDirectives) :
    String × String :=
  ((prefer.scenario.or runtime.defaultScenarioName).getD "", prefer.session.getD defaultSession)

/-- The catalogued operation of a matched request. -/
def ScenarioRuntime.catalogued (runtime : ScenarioRuntime) (method : String)
    (matched : MatchedOperation) : Option ResolvedOperation :=
  runtime.byRequest.lookup (requestKey method matched.operation.pathTemplate)

/-- The directives leave the request to the scenarios. -/
structure PreferDirectives.Governed (prefer : PreferDirectives) : Prop where
  code : prefer.code = .none
  dynamic : prefer.dynamic = false

/-- A governed request to a path, in a session. -/
structure Asks (runtime : ScenarioRuntime) (pair : String × String) (method path : String)
    (request : HttpRequest) : Prop where
  method : request.method = method
  path : request.path = path
  governed : request.prefer.Governed
  session : runtime.sessionOf request.prefer = pair

/-- A catalogued create that posts to a path are routed to. -/
structure CataloguedCreate (server : HttpServer) (runtime : ScenarioRuntime) (path : String) where
  matched : MatchedOperation
  routed : server.openapi.matchOperation "POST" path = some matched
  operation : ResolvedOperation
  catalogued : runtime.catalogued "POST" matched = some operation
  spec : StoreSpec
  stored : operation.store = some spec
  creating : spec.action = .create
  source : KeySource
  sourced : spec.keyFrom = some source

/-- The collection that the resources are filed in. -/
def CataloguedCreate.ns {server : HttpServer} {runtime : ScenarioRuntime} {path : String}
    (create : CataloguedCreate server runtime path) : String :=
  bindNamespace create.spec.resource create.matched.pathParams

/-- The call that the handler makes of the scenarios. -/
def HttpRequest.call (request : HttpRequest) (matched : MatchedOperation)
    (mock : MockHttpResponse) : Call :=
  .resolve request.prefer.scenario request.prefer.session request.method
    matched.operation.pathTemplate matched.pathParams request.json (mock.body.getD .null)
    (request.prefer.code.isSome || request.prefer.dynamic) true

section Governed

variable {libraries : Libraries} {server : HttpServer} {runtime : ScenarioRuntime}
  {request : HttpRequest} {matched : MatchedOperation}

theorem fallbackHandler_of_error {error : RuntimeError}
    (routed : server.openapi.matchOperation request.method request.path = some matched)
    (failed : server.mockFor libraries matched request = .error error)
    (scenarios : Option ScenarioRuntime) :
    fallbackHandler libraries server scenarios request = (scenarios, .unmocked error) := by
  simp only [fallbackHandler, routed, failed]

/-- A mocked request is a call of the scenarios, and its answer decides the response. -/
theorem fallbackHandler_exec (runtime : ScenarioRuntime) {mock : MockHttpResponse}
    (routed : server.openapi.matchOperation request.method request.path = some matched)
    (mocked : server.mockFor libraries matched request = .ok mock) :
    ∃ answer, (runtime.exec (request.call matched mock)).2 = .resolution answer ∧
      fallbackHandler libraries server (some runtime) request =
        (some (runtime.exec (request.call matched mock)).1, resolvedResponse mock answer) := by
  refine ⟨_, rfl, ?_⟩
  simp only [fallbackHandler, routed, mocked]
  rfl

/-- A governed request for a catalogued operation is attended by the instance it is given. -/
theorem fallbackHandler_of_given {mock : MockHttpResponse} {entry : ScenarioEntry}
    {operation : ResolvedOperation} {entered : ScenarioRuntime} {inst : Instance}
    (routed : server.openapi.matchOperation request.method request.path = some matched)
    (mocked : server.mockFor libraries matched request = .ok mock)
    (governed : request.prefer.Governed)
    (known : runtime.entryOf (runtime.sessionOf request.prefer).1 = some entry)
    (catalogued : runtime.catalogued request.method matched = some operation)
    (given : runtime.instanceOf (ScenarioEntry.machine entry)
      (runtime.sessionOf request.prefer).2 = (entered, .ok inst)) :
    let attended := attendInstance (ScenarioEntry.machine entry) operation
      (request.resolution matched mock) (runtime.sessionOf request.prefer).2 inst
    ∃ after, fallbackHandler libraries server (some runtime) request =
        (some after, resolvedResponse mock attended.2) ∧
      runtime.SameSetup after ∧
      after.view (runtime.sessionOf request.prefer) = some attended.1 := by
  intro attended
  let asked := request.resolution matched mock
  have unpreferred : asked.preferCode = false := by
    simp [asked, HttpRequest.resolution, governed.code, governed.dynamic]
  have handled : fallbackHandler libraries server (some runtime) request =
      (some (runtime.resolveWith asked).1,
        resolvedResponse mock (runtime.resolveWith asked).2) := by
    simp only [fallbackHandler, routed, mocked]
    rfl
  obtain ⟨sessions, resolved, updated⟩ := resolveWith_of_instance unpreferred
    known catalogued given (view_of_given known given)
  refine ⟨(runtime.resolveWith asked).1, ?_, runtime.resolveWith_sameSetup asked, ?_⟩
  · rw [handled, resolved]
    rfl
  · rw [resolved]
    exact (congrFun updated _).trans (Function.update_self _ _ _)

/-- A governed request for a catalogued operation is attended in its session. -/
theorem Asks.attended {start entered : ScenarioRuntime} {pair : String × String}
    {method path : String} {mock : MockHttpResponse} {entry : ScenarioEntry}
    {operation : ResolvedOperation} {inst : Instance}
    (asks : Asks start pair method path request) (same : start.SameSetup runtime)
    (routed : server.openapi.matchOperation method path = some matched)
    (mocked : server.mockFor libraries matched request = .ok mock)
    (known : start.entryOf pair.1 = some entry)
    (catalogued : start.catalogued method matched = some operation)
    (given : runtime.instanceOf (ScenarioEntry.machine entry) pair.2 = (entered, .ok inst)) :
    let attended := attendInstance (ScenarioEntry.machine entry) operation
      (request.resolution matched mock) pair.2 inst
    ∃ after, fallbackHandler libraries server (some runtime) request =
        (some after, resolvedResponse mock attended.2) ∧
      runtime.SameSetup after ∧ after.view pair = some attended.1 := by
  obtain ⟨rfl, rfl, governed, rfl⟩ := asks
  have session : runtime.sessionOf request.prefer = start.sessionOf request.prefer := by
    rw [same]
    rfl
  have catalogued : runtime.catalogued request.method matched = some operation := by
    rw [same]
    exact catalogued
  rw [← session] at known given ⊢
  exact fallbackHandler_of_given routed mocked governed ((same.entryOf_eq _).trans known)
    catalogued given

/-- A legal, governed request for a stored operation acts on the store of its session. -/
theorem Asks.handled {start entered : ScenarioRuntime} {pair : String × String}
    {method path : String} {mock : MockHttpResponse} {entry : ScenarioEntry}
    {operation : ResolvedOperation} {spec : StoreSpec} {inst : Instance}
    (asks : Asks start pair method path request) (same : start.SameSetup runtime)
    (routed : server.openapi.matchOperation method path = some matched)
    (mocked : server.mockFor libraries matched request = .ok mock)
    (known : start.entryOf pair.1 = some entry)
    (catalogued : start.catalogued method matched = some operation)
    (stored : operation.store = some spec)
    (given : runtime.instanceOf (ScenarioEntry.machine entry) pair.2 = (entered, .ok inst))
    (legal : (ScenarioEntry.machine entry).allows inst.state operation.name = true) :
    ∃ after result,
      fallbackHandler libraries server (some runtime) request =
        (some after, resolvedResponse mock (finalOutcome (ScenarioEntry.machine entry) inst.state
          operation (outcomeOf result.2))) ∧
      runtime.SameSetup after ∧
      after.view pair = some
        { inst with
          store := result.1
          state := (ScenarioEntry.machine entry).stateAfter inst.state operation.name } ∧
      Applies inst.store spec matched.pathParams request.json (mock.body.getD .null)
        .followKeySource result := by
  obtain ⟨after, handled, setup, live⟩ :=
    asks.attended same routed mocked known catalogued given
  simp only [attendInstance, legal, Bool.true_eq_false, if_false, HttpRequest.resolution]
    at handled live
  rw [serve_answer] at handled
  rw [serve_instance] at live
  simp only [storeOutcome, stored] at handled live
  exact ⟨after, _, handled, setup, live, applyStore_applies _ _ _ _ _ _⟩

end Governed

end SpecMock.Runtime
