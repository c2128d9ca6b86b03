import SpecMock.Runtime.WebSockets
import Mathlib.Data.List.Nodup

/-!
# Sessions of unnamed connections

A connection that names no session is given a minted key.  Minted keys and the
keys that clients supply are plain texts of one kind, so the instance of such a
connection is its own as long as no client supplies a key that is minted.
-/

namespace SpecMock.Runtime

open SpecMock.Library SpecMock.Core ScenarioRuntime

/-! ## Calls about another session -/

/-- The session key a call is about; resetting is about all of them. -/
def Call.sessionKey : Call → Option String
  | .resolve _ session .. => some (session.getD defaultSession)
  | .resolveChannel _ session .. => some session
  | .resolveGrpc _ session .. => some (session.getD defaultSession)
  | .release _ session => some session
  | .resetAll => none

namespace ScenarioRuntime

/-- The runtime with another instance for a pair. -/
def replacing (runtime : ScenarioRuntime) (pair : String × String) (inst : Instance) :
    ScenarioRuntime :=
  { runtime with sessions := runtime.sessions.insert pair inst }

theorem view_replacing (runtime : ScenarioRuntime) (pair : String × String) (inst : Instance) :
    (runtime.replacing pair inst).view = Function.update runtime.view pair (some inst) := by
  funext other
  rw [view, replacing, FiniteMap.lookup_insert_eq, Function.update_apply]
  rfl

theorem view_replacing_of_ne (runtime : ScenarioRuntime) {pair other : String × String}
    (inst : Instance) (apart : other ≠ pair) :
    (runtime.replacing pair inst).view other = runtime.view other := by
  rw [view_replacing, Function.update_of_ne apart]

/-- Another instance for a live pair does not change which requests the cap refuses. -/
theorem capped_replacing_iff {runtime : ScenarioRuntime} {pair : String × String}
    (live : (runtime.view pair).isSome = true) (inst : Instance) {request : Request}
    (apart : runtime.pairOf request ≠ pair) :
    (runtime.replacing pair inst).Capped request ↔ runtime.Capped request := by
  have held := runtime.view_replacing_of_ne inst apart
  have full : FiniteMap.size (runtime.replacing pair inst).sessions =
      FiniteMap.size runtime.sessions := by
    obtain ⟨before, found⟩ := Option.isSome_iff_exists.mp live
    exact FiniteMap.size_insert_of_present inst found
  constructor
  · intro capped
    exact ⟨capped.unpreferred, capped.known, capped.catalogued,
      held.symm.trans capped.dormant, full ▸ capped.full⟩
  · intro capped
    exact ⟨capped.unpreferred, capped.known, capped.catalogued,
      held.trans capped.dormant, full ▸ capped.full⟩

theorem sessionKey_of_request {call : Call} {request : Request} {key : String}
    (made : call.request? = some request) (keyed : call.sessionKey = some key)
    (runtime : ScenarioRuntime) : (runtime.pairOf request).2 = key := by
  cases call with
  | resolve | resolveChannel | resolveGrpc =>
      cases made
      exact Option.some.inj keyed
  | release | resetAll => cases made

variable {runtime : ScenarioRuntime} {call : Call} {key : String} {pair : String × String}

/-- A call about another session leaves the instance of a pair as it is. -/
theorem view_exec_of_other (keyed : call.sessionKey = some key) (other : key ≠ pair.2) :
    (runtime.exec call).1.view pair = runtime.view pair := by
  apply view_exec_of_elsewhere
  · rintro request made rfl
    exact other (sessionKey_of_request made keyed runtime).symm
  · rintro (rfl | rfl)
    · exact other (Option.some.inj keyed).symm
    · cases keyed

/-- A call about another session does and answers the same whatever the instance of a pair. -/
theorem exec_replacing_of_other (keyed : call.sessionKey = some key) (other : key ≠ pair.2)
    (live : (runtime.view pair).isSome = true) (inst : Instance) :
    ((runtime.replacing pair inst).exec call).2 = (runtime.exec call).2 ∧
      ∀ query, query ≠ pair →
        ((runtime.replacing pair inst).exec call).1.view query =
          (runtime.exec call).1.view query := by
  have same : runtime.SameSetup (runtime.replacing pair inst) := rfl
  have elsewhere : ∀ query, query ≠ pair →
      (runtime.replacing pair inst).view query = runtime.view query :=
    fun query => runtime.view_replacing_of_ne inst
  cases made : call.request? with
  | some request =>
      have apart : runtime.pairOf request ≠ pair := by
        rintro rfl
        exact other (sessionKey_of_request made keyed runtime).symm
      have held := elsewhere _ apart
      have capped_iff := capped_replacing_iff live inst apart
      rcases runtime.exec_request_cases made with
        ⟨capped, executed⟩ | ⟨uncapped, answered, updated⟩
      · rcases (runtime.replacing pair inst).exec_request_cases made with
          ⟨_, executed'⟩ | ⟨uncapped, _⟩
        · rw [executed, executed']
          exact ⟨rfl, elsewhere⟩
        · exact absurd (capped_iff.mpr capped) uncapped
      · rcases (runtime.replacing pair inst).exec_request_cases made with
          ⟨capped, _⟩ | ⟨_, answered', updated'⟩
        · exact absurd (capped_iff.mp capped) uncapped
        · rw [same.pairOf_eq, same.attend_eq, held] at answered' updated'
          refine ⟨answered'.trans answered.symm, ?_⟩
          intro query away
          rw [updated, updated', Function.update_apply, Function.update_apply,
            elsewhere query away]
  | none =>
      rcases Call.request?_eq_none.mp made with ⟨scenario, session, rfl⟩ | rfl
      · cases keyed
        have apart : (scenario, key) ≠ pair := by
          rintro rfl
          exact other rfl
        constructor
        · have released := elsewhere (scenario, key) apart
          exact congrArg (fun held : Option Instance => Reply.released held.isSome) released
        · intro query away
          rw [view_release, view_release, Function.update_apply, Function.update_apply,
            elsewhere query away]
      · cases keyed

end ScenarioRuntime

/-! ## Keys of a run -/

/-- The connection that an event belongs to. -/
def ServerEvent.connection? : ServerEvent → Option Nat
  | .message index .. | .close index => some index
  | _ => none

/-- Requests to the control endpoints address all sessions at once. -/
def ServerEvent.isControl : ServerEvent → Bool
  | .controlReset _ => true
  | _ => false

/-- What a handshake settles for good. -/
def WsConnection.terms (connection : WsConnection) :
    Option String × Option String × String :=
  (connection.scenarioName, connection.requestedSession, connection.session)

@[simp]
theorem WsConnection.terms_counted (connection : WsConnection) (now : Nat) :
    (connection.counted now).terms = connection.terms := rfl

@[simp]
theorem WsConnection.terms_closed (connection : WsConnection) :
    connection.closed.terms = connection.terms := rfl

/-- The minted keys of all connections so far. -/
def ServerState.mintedSessions (state : ServerState) : List String :=
  (state.connections.filter fun connection => connection.requestedSession.isNone).map
    WsConnection.session

namespace MockServer

variable (server : MockServer)

/-- The session keys that a client supplies with an event. -/
def supplied : ServerEvent → List String
  | .http headers .. =>
      (PreferDirectives.fromHeaders server.libraries.qualities headers).session.toList
  | .grpc request => (grpcDirectives request.headers).session.toList
  | .upgrade _ query _ => (queryParam query "session").toList
  | .message .. | .close _ | .controlReset _ => []

/-- The session keys that clients supply in a run. -/
def suppliedKeys (events : List ServerEvent) : List String := events.flatMap server.supplied

/-- The event is a handshake that is given a minted key. -/
def mints : ServerEvent → Bool
  | .upgrade _ query _ => server.asyncapi.isSome && (queryParam query "session").isNone
  | _ => false

/-- The number of minted keys of a run. -/
def mintCount (events : List ServerEvent) : Nat := events.countP server.mints

variable {server}

theorem mintCount_append (events : List ServerEvent) (event : ServerEvent) :
    server.mintCount (events ++ [event]) =
      server.mintCount events + if server.mints event then 1 else 0 := by
  rw [mintCount, List.countP_append, List.countP_singleton]
  rfl

theorem suppliedKeys_append (events : List ServerEvent) (event : ServerEvent) :
    server.suppliedKeys (events ++ [event]) =
      server.suppliedKeys events ++ server.supplied event := by
  rw [suppliedKeys, List.flatMap_append]
  simp [suppliedKeys]

/-- Replacing a connection on its own terms. -/
theorem terms_set {state : ServerState} {index : Nat} {connection changed : WsConnection}
    (found : state.liveConnection index = some connection)
    (same : changed.terms = connection.terms) :
    (state.connections.set index changed).map WsConnection.terms =
      state.connections.map WsConnection.terms := by
  obtain ⟨held, -⟩ := Option.filter_eq_some_iff.mp found
  rw [List.map_set, same]
  apply List.ext_getElem?
  intro position
  rw [List.getElem?_set]
  split
  next here =>
    subst here
    have inside := (List.getElem?_eq_some_iff.mp held).1
    rw [List.length_map, if_pos inside, List.getElem?_map, held]
    rfl
  next => rfl

/-- A handshake of a server with channels opens a connection. -/
theorem step_upgrade (served : server.asyncapi.isSome = true) (state : ServerState)
    (path : String) (query : Option String) (now : Nat) :
    ∃ connection, connection.requestedSession = queryParam query "session" ∧
      connection.session = (queryParam query "session").getD (mintedKey state.wsSessions) ∧
      (server.step state (.upgrade path query now)).1 =
        { state with
          wsSessions := if (queryParam query "session").isNone then state.wsSessions + 1
            else state.wsSessions
          connections := state.connections ++ [connection] } := by
  let connection : WsConnection :=
    { pinnedChannel := server.wsChannelPaths.lookup path
      scenarioName := (queryParam query "scenario").or
        (state.scenarios.bind ScenarioRuntime.defaultScenarioName)
      requestedSession := queryParam query "session"
      session := (queryParam query "session").getD (mintedKey state.wsSessions)
      rateLimiter := .new now
      live := true }
  refine ⟨connection, rfl, rfl, ?_⟩
  simp only [step, wsUpgradeHandler, Option.isNone_eq_false_iff.mpr served, Bool.false_eq_true,
    if_false]
  rfl

/-- An event opens one connection, or the connections keep their terms. -/
theorem step_connections (state : ServerState) (event : ServerEvent) :
    (∃ path query now connection, event = .upgrade path query now ∧
      server.asyncapi.isSome = true ∧
      connection.requestedSession = queryParam query "session" ∧
      connection.session = (queryParam query "session").getD (mintedKey state.wsSessions) ∧
      (server.step state event).1.connections = state.connections ++ [connection] ∧
      (server.step state event).1.wsSessions =
        if (queryParam query "session").isNone then state.wsSessions + 1
        else state.wsSessions) ∨
    (server.mints event = false ∧
      (server.step state event).1.connections.map WsConnection.terms =
        state.connections.map WsConnection.terms ∧
      (server.step state event).1.wsSessions = state.wsSessions) := by
  cases event with
  | http headers method path json =>
      exact .inr ⟨rfl, by simp only [step], by simp only [step]⟩
  | grpc request =>
      exact .inr ⟨rfl, by simp only [step], by simp only [step]⟩
  | upgrade path query now =>
      cases served : server.asyncapi with
      | none =>
          refine .inr ⟨?_, ?_, ?_⟩
          · simp [mints, served]
          · simp [step, wsUpgradeHandler, served]
          · simp [step, wsUpgradeHandler, served]
      | some asyncapi =>
          have channels : server.asyncapi.isSome = true := by rw [served]; rfl
          obtain ⟨connection, requested, session, stepped⟩ :=
            step_upgrade channels state path query now
          rw [stepped]
          exact .inl ⟨path, query, now, connection, rfl, rfl, requested, session, rfl, rfl⟩
  | message index text now =>
      refine .inr ⟨rfl, ?_⟩
      simp only [step, wsMessage]
      cases found : state.liveConnection index with
      | none => exact ⟨rfl, rfl⟩
      | some connection =>
          have kept := terms_set found (connection.terms_counted now)
          dsimp only
          split
          · exact ⟨kept, rfl⟩
          · exact ⟨kept, rfl⟩
  | close index =>
      refine .inr ⟨rfl, ?_⟩
      simp only [step, wsClose]
      cases found : state.liveConnection index with
      | none => exact ⟨rfl, rfl⟩
      | some connection => exact ⟨terms_set found connection.terms_closed, rfl⟩
  | controlReset headers =>
      refine .inr ⟨rfl, ?_⟩
      simp only [step, controlReset]
      split
      · exact ⟨rfl, rfl⟩
      · split
        · exact ⟨rfl, rfl⟩
        · split
          · exact ⟨rfl, rfl⟩
          · exact ⟨rfl, rfl⟩

/-- Later events keep the terms of a connection. -/
theorem terms_prefix (later : List ServerEvent) (state : ServerState) :
    state.connections.map WsConnection.terms <+:
      (stateAfter server.step state later).connections.map WsConnection.terms := by
  induction later generalizing state with
  | nil => exact List.prefix_rfl
  | cons event rest ih =>
      refine List.IsPrefix.trans ?_ (ih (server.step state event).1)
      rcases server.step_connections state event with
        ⟨_, _, _, connection, _, _, _, _, opened, _⟩ | ⟨_, kept, _⟩
      · rw [opened, List.map_append]
        exact List.prefix_append _ _
      · exact ⟨[], by rw [List.append_nil, kept]⟩

/-- A connection keeps its place, and the session of its handshake. -/
theorem connection_later {state : ServerState} {index : Nat} {connection : WsConnection}
    (held : state.connections[index]? = some connection) (later : List ServerEvent) :
    ∃ final, (stateAfter server.step state later).connections[index]? = some final ∧
      final.session = connection.session := by
  obtain ⟨others, terms⟩ := server.terms_prefix later state
  have inside := (List.getElem?_eq_some_iff.mp held).1
  have kept : ((stateAfter server.step state later).connections.map WsConnection.terms)[index]? =
      some connection.terms := by
    rw [← terms, List.getElem?_append_left (by rw [List.length_map]; exact inside),
      List.getElem?_map, held]
    rfl
  rw [List.getElem?_map] at kept
  obtain ⟨final, there, same⟩ := Option.map_eq_some_iff.mp kept
  simp only [WsConnection.terms, Prod.mk.injEq] at same
  exact ⟨final, there, same.2.2⟩

theorem mintedSessions_eq (state : ServerState) :
    state.mintedSessions =
      ((state.connections.map WsConnection.terms).filter fun terms => terms.2.1.isNone).map
        fun terms => terms.2.2 := by
  rw [List.filter_map, List.map_map]
  rfl

/-- The connections of a run: minted keys in their order, and keys that clients have supplied. -/
structure Handshakes (server : MockServer) (events : List ServerEvent) (state : ServerState) :
    Prop where
  counter : state.wsSessions = BitVec.ofNat 64 (server.mintCount events)
  minted : state.mintedSessions = mintedKeys (server.mintCount events)
  named : ∀ connection ∈ state.connections, ∀ key,
    connection.requestedSession = some key →
      connection.session = key ∧ key ∈ server.suppliedKeys events

theorem handshakes_step {events : List ServerEvent} {state : ServerState}
    (settled : server.Handshakes events state) (event : ServerEvent) :
    server.Handshakes (events ++ [event]) (server.step state event).1 := by
  have supplies := server.suppliedKeys_append events event
  have count := server.mintCount_append events event
  have earlier : ∀ connection ∈ state.connections, ∀ key,
      connection.requestedSession = some key →
        connection.session = key ∧ key ∈ server.suppliedKeys (events ++ [event]) := by
    intro connection member key named
    obtain ⟨same, known⟩ := settled.named connection member key named
    exact ⟨same, supplies ▸ List.mem_append_left _ known⟩
  rcases server.step_connections state event with
    ⟨path, query, now, connection, rfl, served, requested, session, opened, counted⟩ |
    ⟨unminted, kept, counted⟩
  · have named : ∀ other ∈ (server.step state (.upgrade path query now)).1.connections, ∀ key,
        other.requestedSession = some key →
          other.session = key ∧
            key ∈ server.suppliedKeys (events ++ [.upgrade path query now]) := by
      intro other member key named
      rw [opened, List.mem_append, List.mem_singleton] at member
      rcases member with before | rfl
      · exact earlier other before key named
      · have chosen : queryParam query "session" = some key := requested.symm.trans named
        rw [chosen] at session
        refine ⟨session, supplies ▸ List.mem_append_right _ ?_⟩
        simp [supplied, chosen]
    cases chosen : queryParam query "session" with
    | none =>
        have minting : server.mints (.upgrade path query now) = true := by
          simp [mints, served, chosen]
        rw [chosen] at requested session counted
        rw [minting, if_pos rfl] at count
        refine ⟨?_, ?_, named⟩
        · rw [counted, count, settled.counter, BitVec.ofNat_add]
          rfl
        · rw [count, mintedKeys_succ, ← settled.minted, ServerState.mintedSessions, opened,
            List.filter_append, List.map_append, ← settled.counter]
          simp [ServerState.mintedSessions, requested, session]
    | some chosenKey =>
        have unminted : server.mints (.upgrade path query now) = false := by
          simp [mints, chosen]
        rw [chosen] at requested counted
        rw [unminted, if_neg Bool.false_ne_true, Nat.add_zero] at count
        refine ⟨?_, ?_, named⟩
        · rw [counted, count, settled.counter]
          rfl
        · rw [count, ← settled.minted, ServerState.mintedSessions, opened, List.filter_append]
          simp [ServerState.mintedSessions, requested]
  · rw [unminted, if_neg Bool.false_ne_true, Nat.add_zero] at count
    constructor
    · rw [counted, count, settled.counter]
    · rw [count, ← settled.minted, mintedSessions_eq, mintedSessions_eq, kept]
    · intro other member key named
      have there : other.terms ∈ state.connections.map WsConnection.terms :=
        kept ▸ List.mem_map_of_mem member
      obtain ⟨before, member, same⟩ := List.mem_map.mp there
      simp only [WsConnection.terms, Prod.mk.injEq] at same
      obtain ⟨-, sameRequest, sameSession⟩ := same
      obtain ⟨session, known⟩ := earlier before member key (sameRequest.trans named)
      exact ⟨sameSession.symm.trans session, known⟩

/-- The keys of the connections of every run. -/
theorem handshakes_run (server : MockServer) (events : List ServerEvent) :
    server.Handshakes events (stateAfter server.step server.initial events) := by
  induction events using List.reverseRecOn with
  | nil => exact ⟨rfl, rfl, fun connection member => nomatch member⟩
  | append_singleton before event ih =>
      rw [stateAfter_append]
      exact handshakes_step ih event

end MockServer

/-! ## Isolation -/

/-- The state with another instance for a pair. -/
def ServerState.replacing (state : ServerState) (pair : String × String) (inst : Instance) :
    ServerState :=
  { state with scenarios := state.scenarios.map fun runtime => runtime.replacing pair inst }

namespace MockServer

/-- An event neither changes the instance of a pair nor depends on it. -/
structure Undisturbed (server : MockServer) (state : ServerState) (event : ServerEvent)
    (pair : String × String) : Prop where
  kept : (server.step state event).1.view pair = state.view pair
  unread : (state.view pair).isSome = true → ∀ inst,
    (server.step (state.replacing pair inst) event).2 = (server.step state event).2 ∧
      ∀ other, other ≠ pair →
        (server.step (state.replacing pair inst) event).1.view other =
          (server.step state event).1.view other

variable {server : MockServer}

/-- An event whose call is about another session. -/
theorem undisturbed_of_other {state : ServerState} {event : ServerEvent}
    {pair : String × String}
    (other : ∀ runtime call, server.asks runtime state event = some call →
      ∃ key, call.sessionKey = some key ∧ key ≠ pair.2) :
    server.Undisturbed state event pair := by
  constructor
  · apply view_step_eq
    intro runtime call _ asked
    obtain ⟨key, keyed, apart⟩ := other runtime call asked
    exact view_exec_of_other keyed apart
  · intro live inst
    cases held : state.scenarios with
    | none =>
        rw [ServerState.view, held] at live
        cases live
    | some runtime =>
        obtain ⟨next, respond, stepped⟩ := server.callsOnce runtime state event
        have plain : state = state.withRuntime runtime := by
          rw [ServerState.withRuntime, ← held]
        have replaced : state.replacing pair inst =
            state.withRuntime (runtime.replacing pair inst) := by
          rw [ServerState.replacing, held]
          rfl
        have first := stepped runtime (SameSetup.refl runtime)
        have second := stepped (runtime.replacing pair inst) rfl
        rw [← plain] at first
        rw [replaced, second, first]
        have alive : (runtime.view pair).isSome = true := by
          rw [ServerState.view, held] at live
          exact live
        cases asked : server.asks runtime state event with
        | none =>
            refine ⟨rfl, ?_⟩
            intro query away
            change (runtime.replacing pair inst).view query = runtime.view query
            exact runtime.view_replacing_of_ne inst away
        | some call =>
            obtain ⟨key, keyed, apart⟩ := other runtime call asked
            obtain ⟨answered, elsewhere⟩ := exec_replacing_of_other keyed apart alive inst
            constructor
            · exact congrArg (fun answer => respond (some answer)) answered
            · exact elsewhere

/-- The session key of a call is the default one, supplied, or that of a connection. -/
theorem sessionKey_of_asks {runtime : ScenarioRuntime} {state : ServerState}
    {event : ServerEvent} {call : Call} (asked : server.asks runtime state event = some call)
    (plain : event.isControl = false) :
    ∃ key, call.sessionKey = some key ∧
      (key = defaultSession ∨ key ∈ server.supplied event ∨
        ∃ index connection, event.connection? = some index ∧
          state.connections[index]? = some connection ∧ key = connection.session) := by
  have directed : ∀ session : Option String,
      session.getD defaultSession = defaultSession ∨
        session.getD defaultSession ∈ session.toList := by
    intro session
    cases session with
    | none => exact .inl rfl
    | some key => exact .inr (List.mem_singleton_self key)
  cases event with
  | http headers method path json =>
      simp only [asks] at asked
      obtain ⟨matched, -, mocked⟩ := Option.bind_eq_some_iff.mp asked
      obtain ⟨mock, -, rfl⟩ := Option.map_eq_some_iff.mp mocked
      refine ⟨_, rfl, ?_⟩
      rcases directed (server.httpRequest headers method path json).prefer.session with
        unnamed | named
      · exact .inl unnamed
      · exact .inr (.inl named)
  | grpc request =>
      simp only [asks] at asked
      obtain ⟨unary, -, rfl⟩ := Option.map_eq_some_iff.mp asked
      refine ⟨_, rfl, ?_⟩
      rcases directed (grpcDirectives request.headers).session with unnamed | named
      · exact .inl unnamed
      · exact .inr (.inl named)
  | upgrade => cases asked
  | message index text now =>
      simp only [asks] at asked
      obtain ⟨connection, found, resolved⟩ := Option.bind_eq_some_iff.mp asked
      obtain ⟨held, -⟩ := Option.filter_eq_some_iff.mp found
      split at resolved
      · cases resolved
      · obtain ⟨scenario, -, replied⟩ := Option.bind_eq_some_iff.mp resolved
        obtain ⟨reply, -, rfl⟩ := Option.map_eq_some_iff.mp replied
        exact ⟨_, rfl, .inr (.inr ⟨index, connection, rfl, held, rfl⟩)⟩
  | close index =>
      simp only [asks] at asked
      obtain ⟨connection, found, released⟩ := Option.bind_eq_some_iff.mp asked
      obtain ⟨held, -⟩ := Option.filter_eq_some_iff.mp found
      obtain ⟨scenario, -, rfl⟩ := Option.map_eq_some_iff.mp released
      exact ⟨_, rfl, .inr (.inr ⟨index, connection, rfl, held, rfl⟩)⟩
  | controlReset headers => cases plain

/-- The minted keys of a run are different, and no client supplies one of them. -/
structure KeysApart (server : MockServer) (events : List ServerEvent) : Prop where
  distinct : (stateAfter server.step server.initial events).mintedSessions.Nodup
  apart : ∀ key ∈ server.suppliedKeys events,
    key ∉ (stateAfter server.step server.initial events).mintedSessions

/--
The keys of a run are apart, and no event disturbs the instance of an unnamed
connection but those of the connection itself and the operator's.
-/
structure Isolated (server : MockServer) (events : List ServerEvent) : Prop where
  keys : server.KeysApart events
  undisturbed : ∀ index connection pair,
    (stateAfter server.step server.initial events).connections[index]? = some connection →
    connection.requestedSession = none → connection.pair = some pair →
    ∀ visit ∈ visits server.step server.initial events,
      visit.2.connection? ≠ some index → visit.2.isControl = false →
      server.Undisturbed visit.1 visit.2 pair

theorem keysApart_iff (server : MockServer) (events : List ServerEvent) :
    server.KeysApart events ↔ server.mintCount events ≤ 2 ^ 64 ∧
      ∀ key ∈ server.suppliedKeys events, ∀ index < server.mintCount events,
        key ≠ "ws-" ++ toString index := by
  have minted := (server.handshakes_run events).minted
  constructor
  · intro keys
    have within := nodup_mintedKeys_iff.mp (minted ▸ keys.distinct)
    refine ⟨within, ?_⟩
    intro key known index below same
    apply keys.apart key known
    rw [minted]
    exact (mem_mintedKeys within).mpr ⟨index, below, same⟩
  · rintro ⟨within, unminted⟩
    constructor
    · rw [minted]
      exact nodup_mintedKeys_iff.mpr within
    · intro key known member
      rw [minted] at member
      obtain ⟨index, below, same⟩ := (mem_mintedKeys within).mp member
      exact unminted key known index below same

/-- Two unnamed connections with one key are the same connection. -/
theorem index_eq_of_session_eq {state : ServerState} (distinct : state.mintedSessions.Nodup)
    {first second : Nat} {left right : WsConnection}
    (leftHeld : state.connections[first]? = some left)
    (rightHeld : state.connections[second]? = some right)
    (leftUnnamed : left.requestedSession = none) (rightUnnamed : right.requestedSession = none)
    (same : left.session = right.session) : first = second := by
  obtain ⟨leftInside, rfl⟩ := List.getElem?_eq_some_iff.mp leftHeld
  obtain ⟨rightInside, rfl⟩ := List.getElem?_eq_some_iff.mp rightHeld
  rw [ServerState.mintedSessions, List.Nodup, List.pairwise_map, List.pairwise_filter] at distinct
  have apart := List.pairwise_iff_getElem.mp distinct
  by_contra differs
  rcases Nat.lt_or_gt_of_ne differs with before | after
  · exact apart first second leftInside rightInside before (by simp [leftUnnamed])
      (by simp [rightUnnamed]) same
  · exact apart second first rightInside leftInside after (by simp [rightUnnamed])
      (by simp [leftUnnamed]) same.symm

/-- While the keys of a run are apart, its unnamed connections are undisturbed. -/
theorem undisturbed_of_keysApart {events : List ServerEvent} (keys : server.KeysApart events)
    {index : Nat} {connection : WsConnection} {pair : String × String}
    (held : (stateAfter server.step server.initial events).connections[index]? = some connection)
    (unnamed : connection.requestedSession = none) (about : connection.pair = some pair)
    {visit : ServerState × ServerEvent}
    (member : visit ∈ visits server.step server.initial events)
    (foreign : visit.2.connection? ≠ some index) (plain : visit.2.isControl = false) :
    server.Undisturbed visit.1 visit.2 pair := by
  have settled := server.handshakes_run events
  obtain ⟨scenario, -, rfl⟩ := Option.map_eq_some_iff.mp about
  have minted : connection.session ∈
      (stateAfter server.step server.initial events).mintedSessions := by
    apply List.mem_map_of_mem
    exact List.mem_filter.mpr ⟨List.mem_of_getElem? held, by simp [unnamed]⟩
  obtain ⟨before, after, rfl, reached⟩ := split_of_mem_visits member
  apply undisturbed_of_other
  intro runtime call asked
  obtain ⟨key, keyed, source⟩ := server.sessionKey_of_asks asked plain
  refine ⟨key, keyed, ?_⟩
  rintro rfl
  rcases source with default | supplied | ⟨position, other, belongs, found, same⟩
  · rw [settled.minted] at minted
    obtain ⟨number, -, numbered⟩ := List.mem_map.mp minted
    exact mintedKey_ne_defaultSession _ (numbered.trans default)
  · refine keys.apart _ ?_ minted
    exact List.mem_flatMap.mpr ⟨visit.2, by simp, supplied⟩
  · -- The connection of the event is still there at the end of the run.
    obtain ⟨final, there, sameSession⟩ := server.connection_later found (visit.2 :: after)
    rw [reached, ← stateAfter_append] at there
    rw [← sameSession] at same
    cases named : final.requestedSession with
    | none =>
        apply foreign
        rw [belongs, index_eq_of_session_eq keys.distinct held there unnamed named same]
    | some key =>
        obtain ⟨session, known⟩ := settled.named final (List.mem_of_getElem? there) key named
        refine keys.apart key known ?_
        rw [← session, ← same]
        exact minted

/--
Unnamed connections are isolated in a run exactly if at most `2 ^ 64` keys are
minted and no client supplies the key `ws-n` of the `n`-th of them.
-/
theorem isolated_iff (server : MockServer) (events : List ServerEvent) :
    server.Isolated events ↔ server.mintCount events ≤ 2 ^ 64 ∧
      ∀ key ∈ server.suppliedKeys events, ∀ index < server.mintCount events,
        key ≠ "ws-" ++ toString index := by
  rw [← keysApart_iff]
  constructor
  · exact Isolated.keys
  · intro keys
    refine ⟨keys, ?_⟩
    intro index connection pair held unnamed about visit member foreign plain
    exact undisturbed_of_keysApart keys held unnamed about member foreign plain

end MockServer

/-! ## A key that is guessed -/

/-- An unnamed connection announces the widget; a client asks for it with `session=ws-0`. -/
def guessedRun : List ServerEvent :=
  [.upgrade "/ws/widgets.created" none 0, .message 0 widgetMessage.toText 0,
    .upgrade "/ws/widgets.fetched" (some "session=ws-0") 0, .message 1 widgetMessage.toText 0]

/-- The client reads from the store of the unnamed connection. -/
theorem guessed_session_read :
    (¬ ∀ (server : MockServer) (events : List ServerEvent), server.Isolated events) ∧
    answers eventServer.step eventServer.initial guessedRun =
      [.upgraded, .outcome (.mock "widgets.created" widgetMessage), .upgraded,
        .outcome (.mock "widgets.fetched" widgetMessage)] := by
  constructor
  · intro isolated
    have unminted := (eventServer.keysApart_iff guessedRun).mp
      (isolated eventServer guessedRun).keys
    exact unminted.2 "ws-0" (by decide) 0 (by decide) rfl
  · decide

end SpecMock.Runtime
