import SpecMock.Runtime.Isolation
import SpecMock.Runtime.WebSockets

/-!
# Sessions that connections share

A connection that names its session shares it with everybody who names it.  The
loop of a connection is not told whether its session was named, and releases it
in either case: a closing connection takes the shared session away from the
others.
-/

namespace SpecMock.Runtime

open SpecMock.Library SpecMock.Core ScenarioRuntime

namespace MockServer

variable (server : MockServer)

/-- The event is the close of a connection that has named its session. -/
def ClosesNamed (state : ServerState) (event : ServerEvent) : Prop :=
  ∃ index connection, event = .close index ∧ state.liveConnection index = some connection ∧
    connection.requestedSession.isSome = true

/--
The event is a party of the session of a pair, or ends it: a request about it,
the reset of all instances, or the close of a connection whose own it is.
-/
def Engages (state : ServerState) (event : ServerEvent) (pair : String × String) : Prop :=
  ∃ runtime call, state.scenarios = some runtime ∧
    server.asks runtime state event = some call ∧
    (runtime.concerns pair call = true ∨ Drops pair call ∧ ¬ ClosesNamed state event)

/-- What the close of a connection does to the instance of its pair. -/
structure ClosesWell (state : ServerState) (index : Nat) (connection : WsConnection)
    (pair : String × String) : Prop where
  /-- A named session: the next party of the pair finds it as it was. -/
  shared : connection.requestedSession.isSome = true → ∀ later : List ServerEvent,
    (∀ visit ∈ visits server.step (server.step state (.close index)).1 later,
      ¬ server.Engages visit.1 visit.2 pair) →
    (stateAfter server.step (server.step state (.close index)).1 later).view pair =
      state.view pair
  /-- A session of its own: the instance is dropped. -/
  dropped : connection.requestedSession = none →
    (server.step state (.close index)).1.view pair = none

variable {server}

/-- Only a request about the pair brings an instance into being. -/
theorem view_step_none {state : ServerState} {event : ServerEvent} {pair : String × String}
    (dormant : state.view pair = none) (idle : ¬ server.Engages state event pair) :
    (server.step state event).1.view pair = none := by
  rw [← dormant]
  apply view_step_eq
  intro runtime call held asked
  have absent : runtime.view pair = none := by
    rw [ServerState.view, held] at dormant
    exact dormant
  by_cases drops : Drops pair call
  · -- Dropping or resetting a session that has no instance.
    rcases drops with rfl | rfl
    · rw [view_release, Function.update_self, absent]
    · rw [view_resetAll]
      simp only [absent, Option.map_none]
  · refine view_exec_of_elsewhere ?_ drops
    rintro request made rfl
    exact idle ⟨runtime, call, held, asked, .inl (by simp [concerns, made])⟩

theorem view_run_none {pair : String × String} (later : List ServerEvent) {state : ServerState}
    (dormant : state.view pair = none)
    (idle : ∀ visit ∈ visits server.step state later, ¬ server.Engages visit.1 visit.2 pair) :
    (stateAfter server.step state later).view pair = none := by
  induction later generalizing state with
  | nil => exact dormant
  | cons event rest ih =>
      obtain ⟨first, others⟩ := List.forall_mem_cons.mp idle
      exact ih (view_step_none dormant first) others

/-- A close does what it should exactly if a named session has no instance then. -/
theorem closesWell_iff {state : ServerState} {index : Nat} {connection : WsConnection}
    {pair : String × String} (found : state.liveConnection index = some connection)
    (about : connection.pair = some pair) :
    server.ClosesWell state index connection pair ↔
      (connection.requestedSession.isSome = true → state.view pair = none) := by
  have closed : (server.step state (.close index)).1.view pair = none := by
    rw [view_close found about, Function.update_self]
  constructor
  · intro well named
    exact (well.shared named [] (fun visit member => nomatch member)).symm.trans closed
  · intro unused
    constructor
    · intro named later idle
      rw [unused named]
      exact view_run_none later closed idle
    · intro _
      exact closed

/-- A requirement on every close of a run, with the connection and the pair that it is about. -/
def EveryClose (server : MockServer) (events : List ServerEvent)
    (required : ServerState → Nat → WsConnection → String × String → Prop) : Prop :=
  ∀ visit ∈ visits server.step server.initial events, ∀ index connection pair,
    visit.2 = .close index → visit.1.liveConnection index = some connection →
    connection.pair = some pair → required visit.1 index connection pair

/--
In a run of a server, every closing connection leaves a session it has named to
its later parties and drops a session of its own, exactly if no connection
closes while the session that it has named has a live instance.
-/
theorem shared_sessions_iff (server : MockServer) (events : List ServerEvent) :
    server.EveryClose events server.ClosesWell ↔
      server.EveryClose events fun state _ connection pair =>
        connection.requestedSession.isSome = true → state.view pair = none := by
  constructor
  · intro met visit member index connection pair closes found about
    have well := met visit member index connection pair closes found about
    exact (closesWell_iff found about).mp well
  · intro met visit member index connection pair closes found about
    have unused := met visit member index connection pair closes found about
    exact (closesWell_iff found about).mpr unused

end MockServer

/-- A connection announces the widget in the session `shared` and closes; another fetches it. -/
def sharedRun : List ServerEvent :=
  [.upgrade "/ws/widgets.created" (some "session=shared") 0, .message 0 widgetMessage.toText 0,
    .close 0, .upgrade "/ws/widgets.fetched" (some "session=shared") 0,
    .message 1 widgetMessage.toText 0]

/-- The connection that fetches the widget does not find the store of its session. -/
theorem shared_session_dropped :
    (¬ ∀ (server : MockServer) (events : List ServerEvent),
      server.EveryClose events server.ClosesWell) ∧
    answers eventServer.step eventServer.initial sharedRun =
      [.upgraded, .outcome (.mock "widgets.created" widgetMessage), .closed, .upgraded,
        .outcome (.error [⟨"/", "#", "scenario", "no resource exists at widgets/a"⟩])] := by
  constructor
  · intro well
    let opened := stateAfter eventServer.step eventServer.initial (sharedRun.take 2)
    have member : (opened, .close 0) ∈
        visits eventServer.step eventServer.initial sharedRun := .tail _ (.tail _ (.head _))
    have found : opened.liveConnection 0 =
        some ⟨some "widgets.created", some "events", some "shared", "shared", ⟨1, 0⟩, true⟩ := by
      decide
    have closes := well eventServer sharedRun _ member 0 _ ("events", "shared") rfl found rfl
    have dropped := (MockServer.closesWell_iff found rfl).mp closes rfl
    have held : (opened.view ("events", "shared")).isSome = true := by decide
    rw [dropped] at held
    cases held
  · decide

end SpecMock.Runtime
