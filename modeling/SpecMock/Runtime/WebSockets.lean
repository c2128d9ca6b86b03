import SpecMock.Runtime.AsyncApi
import SpecMock.Runtime.Handshake

/-!
# The mock server

The HTTP, gRPC and WebSocket sides of a server share one scenario runtime.  A
WebSocket connection picks its scenario and session when it is opened, resolves
its messages one after the other, and releases its session when it closes.
-/

namespace SpecMock.Runtime

open SpecMock.Library SpecMock.Core ScenarioRuntime

/-- Maximum number of WebSocket messages per second per connection. -/
def maxWsMessagesPerSecond : Nat := 100

/-- The state of a rate limiter; points in time are in nanoseconds. -/
structure RateLimiter where
  messageCount : Nat
  windowStart : Nat
  deriving DecidableEq

def RateLimiter.new (now : Nat) : RateLimiter := ⟨0, now⟩

def RateLimiter.checkAndUpdate (limiter : RateLimiter) (now : Nat) : RateLimiter × Bool :=
  if now - limiter.windowStart ≥ 10 ^ 9 then (⟨1, now⟩, true)
  else if limiter.messageCount ≥ maxWsMessagesPerSecond then (limiter, false)
  else ({ limiter with messageCount := limiter.messageCount + 1 }, true)

def rateLimited : WsOutcome :=
  .error [⟨"/", "#", "rate_limit",
    "rate limit exceeded: " ++ toString maxWsMessagesPerSecond ++ " messages per second"⟩]

/-- How a server is configured. -/
structure MockServer where
  json : JsonLibraries
  libraries : Libraries
  protobuf : Protobuf
  http : HttpServer
  grpc : GrpcServer protobuf
  asyncapi : Option AsyncApiRuntime
  /-- Channels by the paths of their routes. -/
  wsChannelPaths : FiniteMap String String
  controlToken : Option String
  sidecar : Option ValidatedSidecar
  maxSessions : Nat
  maxStoreEntries : Nat

/-- A connection with what its handshake has decided. -/
structure WsConnection where
  pinnedChannel : Option String
  scenarioName : Option String
  /-- The session the client has named; the loop of the connection is not told. -/
  requestedSession : Option String
  session : String
  rateLimiter : RateLimiter
  live : Bool
  deriving DecidableEq

namespace WsConnection

/-- The connection after a message has passed its rate limiter or not. -/
def counted (connection : WsConnection) (now : Nat) : WsConnection :=
  { connection with rateLimiter := (connection.rateLimiter.checkAndUpdate now).1 }

def closed (connection : WsConnection) : WsConnection := { connection with live := false }

/-- The instance that the messages of a connection are about. -/
def pair (connection : WsConnection) : Option (String × String) :=
  connection.scenarioName.map fun scenario => (scenario, connection.session)

end WsConnection

structure ServerState where
  scenarios : Option ScenarioRuntime
  /-- Counter behind the keys of connections without a session. -/
  wsSessions : BitVec 64
  /-- The connections in the order of their handshakes. -/
  connections : List WsConnection

inductive ServerEvent where
  /-- An HTTP request that has passed validation. -/
  | http (headers : Headers) (method path : String) (json : Option Value)
  | grpc (request : GrpcRequest)
  /-- A handshake on one of the WebSocket routes. -/
  | upgrade (path : String) (query : Option String) (now : Nat)
  | message (index : Nat) (text : String) (now : Nat)
  /-- A connection ends, whoever closes it. -/
  | close (index : Nat)
  /-- A request to the control endpoint that resets all instances. -/
  | controlReset (headers : Headers)

inductive ServerReply where
  | http (response : HttpResponse)
  | grpc (response : GrpcResponse)
  | upgraded
  | asyncapiMissing
  | outcome (outcome : WsOutcome)
  /-- There is no such connection any more. -/
  | disconnected
  | closed
  /-- The control endpoints are registered only with a token. -/
  | unrouted
  | denied
  | notFound
  | reset (count : Nat)
  deriving DecidableEq

namespace ServerState

/-- The live connection at an index. -/
def liveConnection (state : ServerState) (index : Nat) : Option WsConnection :=
  (state.connections[index]?).filter WsConnection.live

/-- The live instance of a pair. -/
def view (state : ServerState) (pair : String × String) : Option Instance :=
  state.scenarios.bind fun runtime => runtime.view pair

end ServerState

namespace MockServer

variable (server : MockServer)

def initial : ServerState where
  scenarios := server.sidecar.map fun sidecar =>
    ScenarioRuntime.new sidecar server.maxSessions server.maxStoreEntries
  wsSessions := 0
  connections := []

/-- The handshake of a connection: the session is the client's or a minted one. -/
def wsUpgradeHandler (state : ServerState) (path : String) (query : Option String) (now : Nat) :
    ServerState × ServerReply :=
  if server.asyncapi.isNone then (state, .asyncapiMissing)
  else
    let requestedScenario := queryParam query "scenario"
    let requestedSession := queryParam query "session"
    let minted := freshWsSession state.wsSessions
    let connection : WsConnection :=
      { pinnedChannel := server.wsChannelPaths.lookup path
        scenarioName := requestedScenario.or
          (state.scenarios.bind ScenarioRuntime.defaultScenarioName)
        requestedSession
        session := requestedSession.getD minted.1
        rateLimiter := .new now
        live := true }
    ({ state with
        wsSessions := if requestedSession.isNone then minted.2 else state.wsSessions
        connections := state.connections ++ [connection] }, .upgraded)

/-- The reply to a message before the scenarios. -/
def mockedOutcome (connection : WsConnection) (text : String) : WsOutcome :=
  match server.asyncapi with
  | none => .error [⟨"/", "#", "runtime", "asyncapi runtime is not configured"⟩]
  | some asyncapi =>
      asyncapi.handlePinned server.json server.libraries connection.pinnedChannel text
        server.http.seed

/-- One round of the loop of a connection. -/
def wsMessage (state : ServerState) (index : Nat) (text : String) (now : Nat) :
    ServerState × ServerReply :=
  match state.liveConnection index with
  | none => (state, .disconnected)
  | some connection =>
      let connections := state.connections.set index (connection.counted now)
      if (connection.rateLimiter.checkAndUpdate now).2 = false then
        ({ state with connections }, .outcome rateLimited)
      else
        let applied := applyScenario state.scenarios (server.mockedOutcome connection text)
          connection.scenarioName connection.session connection.pinnedChannel
          (server.json.fromStr text).toOption
        ({ state with scenarios := applied.1, connections }, .outcome applied.2)

/-- The end of the loop of a connection: its session is released. -/
def wsClose (state : ServerState) (index : Nat) : ServerState × ServerReply :=
  match state.liveConnection index with
  | none => (state, .disconnected)
  | some connection =>
      let scenarios := state.scenarios.map fun runtime =>
        match connection.scenarioName.or runtime.defaultScenarioName with
        | some scenario => (runtime.release scenario connection.session).1
        | none => runtime
      ({ state with scenarios, connections := state.connections.set index connection.closed },
        .closed)

/-- The request presents the bearer token of the run. -/
def authorizeControl (headers : Headers) : Bool :=
  match server.controlToken with
  | none => true
  | some expected =>
      ((headers.get "authorization").bind (Text.stripPrefix "Bearer ")) == some expected

def controlReset (state : ServerState) (headers : Headers) : ServerState × ServerReply :=
  if server.controlToken.isNone then (state, .unrouted)
  else if server.authorizeControl headers = false then (state, .denied)
  else
    match state.scenarios with
    | none => (state, .notFound)
    | some runtime =>
        let reset := runtime.resetAll
        ({ state with scenarios := some reset.1 }, .reset reset.2)

/-- A request as the handler takes it. -/
def httpRequest (headers : Headers) (method path : String) (json : Option Value) : HttpRequest :=
  ⟨method, path, .fromHeaders server.libraries.qualities headers, json⟩

/-- One event of a run. -/
def step (state : ServerState) : ServerEvent → ServerState × ServerReply
  | .http headers method path json =>
      let handled := fallbackHandler server.libraries server.http state.scenarios
        (server.httpRequest headers method path json)
      ({ state with scenarios := handled.1 }, .http handled.2)
  | .grpc request =>
      let called := server.grpc.call state.scenarios request
      ({ state with scenarios := called.1 }, .grpc called.2)
  | .upgrade path query now => server.wsUpgradeHandler state path query now
  | .message index text now => server.wsMessage state index text now
  | .close index => wsClose state index
  | .controlReset headers => server.controlReset state headers

/-- The call of the scenarios that an event makes, if it makes one. -/
def asks (runtime : ScenarioRuntime) (state : ServerState) : ServerEvent → Option Call
  | .http headers method path json =>
      let request := server.httpRequest headers method path json
      (server.http.openapi.matchOperation method path).bind fun matched =>
        (server.http.mockFor server.libraries matched request).toOption.map fun mock =>
          request.call matched mock
  | .grpc request =>
      (server.grpc.prepare request).toOption.map fun call =>
        let directives := grpcDirectives request.headers
        .resolveGrpc directives.scenario directives.session request.path
          (server.protobuf.toValue call.request) (server.protobuf.toValue call.response)
  | .upgrade .. => none
  | .message index text now =>
      (state.liveConnection index).bind fun connection =>
        if (connection.rateLimiter.checkAndUpdate now).2 = false then none
        else
          connection.scenarioName.bind fun scenario =>
            ((server.mockedOutcome connection text).replaceable connection.pinnedChannel).map
              fun reply => .resolveChannel scenario connection.session reply.1
                (server.json.fromStr text).toOption reply.2
  | .close index =>
      (state.liveConnection index).bind fun connection =>
        (connection.scenarioName.or runtime.defaultScenarioName).map fun scenario =>
          .release scenario connection.session
  | .controlReset headers =>
      if server.controlToken.isNone then none
      else if server.authorizeControl headers = false then none
      else some .resetAll

end MockServer

/-- What a call that may be absent does, and its answer. -/
def ScenarioRuntime.serves (runtime : ScenarioRuntime) :
    Option Call → ScenarioRuntime × Option Reply
  | none => (runtime, none)
  | some call => ((runtime.exec call).1, some (runtime.exec call).2)

/-- A reply made from the resolution that a call was answered with. -/
def fromResolution {α : Type} (otherwise : α) (respond : Resolution → α) : Option Reply → α
  | some (.resolution answer) => respond answer
  | _ => otherwise

/-- The count that a reset was answered with. -/
def resetCount : Option Reply → Nat
  | some (.reset count) => count
  | _ => 0

/-- The state with another scenario runtime. -/
def ServerState.withRuntime (state : ServerState) (runtime : ScenarioRuntime) : ServerState :=
  { state with scenarios := some runtime }

namespace MockServer

variable (server : MockServer)

/--
An event reaches the scenarios by its one call only: what it does otherwise,
and how it replies to the answer, is the same for all runtimes of one setup.
-/
def CallsOnce (runtime : ScenarioRuntime) (state : ServerState) (event : ServerEvent) : Prop :=
  ∃ (next : ServerState) (respond : Option Reply → ServerReply),
    ∀ other, runtime.SameSetup other →
      let served := other.serves (server.asks runtime state event)
      server.step (state.withRuntime other) event =
        (next.withRuntime served.1, respond served.2)

variable {server}

theorem callsOnce_http (runtime : ScenarioRuntime) (state : ServerState) (headers : Headers)
    (method path : String) (json : Option Value) :
    server.CallsOnce runtime state (.http headers method path json) := by
  unfold CallsOnce
  generalize asked : server.httpRequest headers method path json = request
  have routes : server.http.openapi.matchOperation method path =
      server.http.openapi.matchOperation request.method request.path := by
    rw [← asked]
    rfl
  simp only [step, asks, asked, routes]
  cases routed : server.http.openapi.matchOperation request.method request.path with
  | none =>
      refine ⟨state, fun _ => .http (.unmocked (.notFound "operation not found")), ?_⟩
      intro other _
      simp only [fallbackHandler, routed]
      rfl
  | some matched =>
      cases mocked : server.http.mockFor server.libraries matched request with
      | error error =>
          refine ⟨state, fun _ => .http (.unmocked error), ?_⟩
          intro other _
          rw [fallbackHandler_of_error routed mocked, Option.bind_some, mocked]
          rfl
      | ok mock =>
          refine ⟨state, fun answer =>
            .http (fromResolution (.mocked mock) (resolvedResponse mock) answer), ?_⟩
          intro other _
          obtain ⟨answer, answered, handled⟩ := fallbackHandler_exec other routed mocked
          have served : (state.withRuntime other).scenarios = some other := rfl
          rw [served, handled, Option.bind_some, mocked]
          simp only [Except.toOption, Option.map_some, serves, answered]
          rfl

theorem callsOnce_grpc (runtime : ScenarioRuntime) (state : ServerState) (request : GrpcRequest) :
    server.CallsOnce runtime state (.grpc request) := by
  unfold CallsOnce
  cases prepared : server.grpc.prepare request with
  | error response =>
      refine ⟨state, fun _ => .grpc response, ?_⟩
      intro other _
      simp only [step, GrpcServer.call, asks, prepared]
      rfl
  | ok call =>
      refine ⟨state, fun answer => .grpc
        (fromResolution (.success [frameOf call.response]) (grpcAnswer call) answer), ?_⟩
      intro other _
      simp only [step, ServerState.withRuntime, GrpcServer.call, asks, prepared]
      rfl

theorem callsOnce_upgrade (runtime : ScenarioRuntime) (state : ServerState) (path : String)
    (query : Option String) (now : Nat) :
    server.CallsOnce runtime state (.upgrade path query now) := by
  have upgraded : ∀ other, runtime.SameSetup other →
      server.wsUpgradeHandler (state.withRuntime other) path query now =
        ((server.wsUpgradeHandler (state.withRuntime runtime) path query now).1.withRuntime other,
          (server.wsUpgradeHandler (state.withRuntime runtime) path query now).2) := by
    intro other same
    have setup : (state.withRuntime other).scenarios.bind ScenarioRuntime.defaultScenarioName =
        (state.withRuntime runtime).scenarios.bind ScenarioRuntime.defaultScenarioName := by
      rw [same]
      rfl
    unfold wsUpgradeHandler
    rw [setup]
    split
    · rfl
    · rfl
  exact ⟨_, fun _ => _, upgraded⟩

theorem callsOnce_message (runtime : ScenarioRuntime) (state : ServerState) (index : Nat)
    (text : String) (now : Nat) : server.CallsOnce runtime state (.message index text now) := by
  unfold CallsOnce
  have found : ∀ other, (state.withRuntime other).liveConnection index =
      state.liveConnection index := fun _ => rfl
  simp only [step, wsMessage, asks, found]
  cases state.liveConnection index with
  | none => exact ⟨state, fun _ => .disconnected, fun _ _ => rfl⟩
  | some connection =>
      let advanced : ServerState :=
        { state with connections := state.connections.set index (connection.counted now) }
      simp only [Option.bind_some]
      cases limited : (connection.rateLimiter.checkAndUpdate now).2 with
      | false => exact ⟨advanced, fun _ => .outcome rateLimited, fun _ _ => rfl⟩
      | true =>
          have held : ∀ other, (state.withRuntime other).scenarios = some other := fun _ => rfl
          simp only [Bool.true_eq_false, if_false, held, applyScenario]
          generalize server.mockedOutcome connection text = mocked
          cases connection.scenarioName with
          | none => exact ⟨advanced, fun _ => .outcome mocked, fun _ _ => rfl⟩
          | some scenario =>
              cases mocked.replaceable connection.pinnedChannel with
              | none => exact ⟨advanced, fun _ => .outcome mocked, fun _ _ => rfl⟩
              | some reply =>
                  exact ⟨advanced, fun answer =>
                    .outcome (fromResolution mocked (wsAnswer reply.1 mocked) answer),
                    fun _ _ => rfl⟩

theorem callsOnce_close (runtime : ScenarioRuntime) (state : ServerState) (index : Nat) :
    server.CallsOnce runtime state (.close index) := by
  unfold CallsOnce
  have found : ∀ other, (state.withRuntime other).liveConnection index =
      state.liveConnection index := fun _ => rfl
  simp only [step, wsClose, asks, found]
  cases state.liveConnection index with
  | none => exact ⟨state, fun _ => .disconnected, fun _ _ => rfl⟩
  | some connection =>
      refine ⟨{ state with connections := state.connections.set index connection.closed },
        fun _ => .closed, ?_⟩
      intro other same
      have setup : other.defaultScenarioName = runtime.defaultScenarioName := by
        rw [same]
        rfl
      have held : (state.withRuntime other).scenarios = some other := rfl
      simp only [held, Option.map_some, setup, Option.bind_some]
      cases connection.scenarioName.or runtime.defaultScenarioName with
      | none => rfl
      | some scenario => rfl

theorem callsOnce_controlReset (runtime : ScenarioRuntime) (state : ServerState)
    (headers : Headers) : server.CallsOnce runtime state (.controlReset headers) := by
  unfold CallsOnce
  simp only [step, controlReset, asks]
  cases server.controlToken.isNone with
  | true => exact ⟨state, fun _ => .unrouted, fun _ _ => rfl⟩
  | false =>
      cases server.authorizeControl headers with
      | false => exact ⟨state, fun _ => .denied, fun _ _ => rfl⟩
      | true => exact ⟨state, fun answer => .reset (resetCount answer), fun _ _ => rfl⟩

/-- Every event reaches the scenarios by one call at most. -/
theorem callsOnce (runtime : ScenarioRuntime) (state : ServerState) (event : ServerEvent) :
    server.CallsOnce runtime state event := by
  cases event with
  | http headers method path json => exact callsOnce_http runtime state headers method path json
  | grpc request => exact callsOnce_grpc runtime state request
  | upgrade path query now => exact callsOnce_upgrade runtime state path query now
  | message index text now => exact callsOnce_message runtime state index text now
  | close index => exact callsOnce_close runtime state index
  | controlReset headers => exact callsOnce_controlReset runtime state headers

/-- What an event does to the scenarios is what its call does. -/
theorem scenarios_step {state : ServerState} {runtime : ScenarioRuntime}
    (held : state.scenarios = some runtime) (event : ServerEvent) :
    (server.step state event).1.scenarios =
      some (runtime.serves (server.asks runtime state event)).1 := by
  obtain ⟨next, respond, stepped⟩ := server.callsOnce runtime state event
  have same : state.withRuntime runtime = state := by
    rw [ServerState.withRuntime, ← held]
  have result := stepped runtime (SameSetup.refl runtime)
  rw [same] at result
  rw [result]
  rfl

/-- A server without scenarios stays so. -/
theorem scenarios_step_none {state : ServerState} (absent : state.scenarios = none)
    (event : ServerEvent) : (server.step state event).1.scenarios = none := by
  cases event with
  | http headers method path json =>
      simp only [step, fallbackHandler, absent]
      split
      · rfl
      · split <;> rfl
  | grpc request =>
      simp only [step, GrpcServer.call, absent]
      split <;> rfl
  | upgrade path query now =>
      simp only [step, wsUpgradeHandler]
      split
      · exact absent
      · exact absent
  | message index text now =>
      simp only [step, wsMessage, applyScenario, absent]
      split
      · exact absent
      · split <;> rfl
  | close index =>
      simp only [step, wsClose, absent]
      split
      · exact absent
      · rfl
  | controlReset headers =>
      simp only [step, controlReset, absent]
      split
      · exact absent
      · split
        · exact absent
        · exact absent

/-- An event that asks nothing of the scenarios, or whose call leaves a session as it is. -/
theorem view_step_eq {state : ServerState} {event : ServerEvent} {pair : String × String}
    (kept : ∀ runtime call, state.scenarios = some runtime →
      server.asks runtime state event = some call →
      (runtime.exec call).1.view pair = runtime.view pair) :
    (server.step state event).1.view pair = state.view pair := by
  unfold ServerState.view
  cases held : state.scenarios with
  | none => rw [scenarios_step_none held]
  | some runtime =>
      rw [scenarios_step held, Option.bind_some, Option.bind_some]
      cases asked : server.asks runtime state event with
      | none => rfl
      | some call => exact kept runtime call held asked

/-- A closing connection drops its instance, whoever has named the session. -/
theorem view_close {state : ServerState} {index : Nat} {connection : WsConnection}
    {pair : String × String} (found : state.liveConnection index = some connection)
    (about : connection.pair = some pair) :
    (server.step state (.close index)).1.view = Function.update state.view pair none := by
  obtain ⟨scenario, named, rfl⟩ := Option.map_eq_some_iff.mp about
  funext other
  cases held : state.scenarios with
  | none =>
      have absent : state.view = fun _ => none := by
        funext pair
        rw [ServerState.view, held]
        rfl
      rw [ServerState.view, scenarios_step_none held, absent, Function.update_apply]
      split <;> rfl
  | some runtime =>
      have released : server.asks runtime state (.close index) =
          some (.release scenario connection.session) := by
        simp only [asks, found, Option.bind_some, named, Option.some_or, Option.map_some]
      have before : state.view = runtime.view := by
        funext pair
        rw [ServerState.view, held]
        rfl
      rw [ServerState.view, scenarios_step held, released, before, ← view_release]
      rfl

end MockServer

/-- Widgets are announced on one channel and fetched on another. -/
def eventSidecar : ValidatedSidecar where
  sidecar := ⟨1, OrderedMap.collect
    [("widgetsCreated", ⟨⟨"channel", "widgets.created"⟩, some (widgetStore .create), ∅⟩),
      ("widgetsFetched", ⟨⟨"channel", "widgets.fetched"⟩, some (widgetStore .read), ∅⟩)],
    [{ name := "events"
       initialState := "listening"
       seed := []
       states := OrderedMap.collect [("listening", OrderedMap.collect
        [("widgetsCreated", ⟨some "listening", ∅⟩), ("widgetsFetched", ⟨none, ∅⟩)])] }]⟩
  supported := rfl
  valid := by decide

/-- The message that announces or fetches the widget `a`. -/
def widgetMessage : Value := .object [("id", .string "a")]

/-- The documents that are sent to the widget channels. -/
def widgetDocuments : List Value :=
  [widgetMessage,
    .object [("channel", .string "widgets.created"), ("payload", widgetMessage)],
    .object [("channel", .string "widgets.fetched"), ("payload", widgetMessage)]]

def eventServer : MockServer where
  json :=
    { fromStr text := match widgetDocuments.find? fun document => document.toText == text with
        | some document => .ok document
        | none => .error "expected value at line 1 column 1"
      validateInstance _ _ := .ok [] }
  libraries := sampleLibraries
  protobuf := stringMessages
  http := ⟨0, .of []⟩
  grpc := ⟨∅, 0⟩
  asyncapi := some ⟨((∅ : FiniteMap _ _).insert "widgets.created" ⟨none, none, none⟩).insert
    "widgets.fetched" ⟨none, none, none⟩⟩
  wsChannelPaths := ((∅ : FiniteMap _ _).insert "/ws/widgets.created" "widgets.created").insert
    "/ws/widgets.fetched" "widgets.fetched"
  controlToken := none
  sidecar := some eventSidecar
  maxSessions := 8
  maxStoreEntries := 8

/-- A connection announces the widget, another one fetches it. -/
example : answers eventServer.step eventServer.initial
    [.upgrade "/ws/widgets.created" (some "session=shared") 0, .message 0 widgetMessage.toText 0,
      .upgrade "/ws/widgets.fetched" (some "session=shared") 0,
      .message 1 widgetMessage.toText 0] =
    [.upgraded, .outcome (.mock "widgets.created" widgetMessage), .upgraded,
      .outcome (.mock "widgets.fetched" widgetMessage)] := by decide

end SpecMock.Runtime
