import Mathlib.Data.Prod.Lex
import SpecMock.Library.Scans
import SpecMock.Runtime.Reset
import SpecMock.Runtime.SharedSessions
import SpecMock.Runtime.WebSockets
import SpecMock.Runtime.WireAnswers

/-!
# The control endpoints

With the token of the run a client lists the live sessions and resets them.
The listing reads the sessions one by one while other requests are served, so
each line of it was true at some moment; without the token nothing is changed
and nothing is told.
-/

namespace SpecMock.Runtime

open SpecMock.Library SpecMock.Core ScenarioRuntime

/-! ## The listing -/

structure SessionLine where
  scenario : String
  session : String
  state : String
  deriving DecidableEq

structure ControlState where
  sessions : List SessionLine
  count : Nat
  scenarios : List String
  deriving DecidableEq

def SessionLine.pair (line : SessionLine) : String × String := (line.scenario, line.session)

namespace ScenarioRuntime

variable (runtime : ScenarioRuntime)

/-- Current scenario and state of one instance; the empty name is the default session. -/
def sessionStateFor (scenario session : String) : Option (String × String) :=
  (runtime.sessions.lookup (scenario, if session = "" then defaultSession else session)).map
    fun inst => (inst.scenario, inst.state.name)

/--
The live pairs of a scenario and a session, sorted.  They are taken at one moment; the iteration
over the concurrent map that the source makes may meet events on its way.
-/
def livePairs : List (String × String) :=
  runtime.sessions.keys.insertionSort fun first second => toLex first ≤ toLex second

/-- The reads of a listing, each behind what happens before it. -/
def controlReads (others : Nat → List ServerEvent) :
    List (List ServerEvent × (String × String)) :=
  runtime.livePairs.zipIdx.map fun read => (others read.2, read.1)

end ScenarioRuntime

def ServerState.readState (state : ServerState) (pair : String × String) :
    Option (String × String) :=
  state.scenarios.bind fun runtime => runtime.sessionStateFor pair.1 pair.2

/-- What happens while the sessions are listed. -/
def ServerState.during (state : ServerState) (others : Nat → List ServerEvent) :
    List ServerEvent :=
  match state.scenarios with
  | none => []
  | some runtime => scanCalls (runtime.controlReads others)

inductive ControlReply where
  /-- The control endpoints are registered only with a token. -/
  | unrouted
  | refused (problem : ProblemDetails)
  | listed (state : ControlState)

/-- The problem of a request that does not present the token. -/
def unauthorizedControl : ProblemDetails :=
  .statefulError 401 "the control endpoints require the run's bearer token"
    [("control", .string controlPrefix)]

namespace MockServer

variable (server : MockServer)

/-- The listing, while other events happen before each read and before the count. -/
def controlState (state : ServerState) (runtime : ScenarioRuntime)
    (others : Nat → List ServerEvent) : ServerState × ControlState :=
  let read := scan server.step ServerState.readState state (runtime.controlReads others)
  let final := stateAfter server.step read.1 (others runtime.livePairs.length)
  (final,
    { sessions := read.2.map fun found => ⟨found.1.1, found.1.2, found.2.2⟩
      count := (final.scenarios.map ScenarioRuntime.sessionCount).getD 0
      scenarios := runtime.sidecar.scenarioNames })

def controlStateHandler (state : ServerState) (headers : Headers)
    (others : Nat → List ServerEvent) : ServerState × ControlReply :=
  if server.controlToken.isNone then (state, .unrouted)
  else if server.authorizeControl headers = false then (state, .refused unauthorizedControl)
  else
    match state.scenarios with
    | none => (state, .refused (.notFound "no scenario sidecar is loaded"))
    | some runtime =>
        let read := server.controlState state runtime others
        (read.1, .listed read.2)

end MockServer

def SessionLine.toValue (line : SessionLine) : Value :=
  .object [("scenario", .string line.scenario), ("session", .string line.session),
    ("state", .string line.state)]

def ControlState.toValue (state : ControlState) : Value :=
  .object [("count", .number (.int state.count)),
    ("scenarios", .array (state.scenarios.map .string)),
    ("sessions", .array (state.sessions.map SessionLine.toValue))]

/-! ## The text of a listing -/

theorem SessionLine.toValue_injective : Function.Injective SessionLine.toValue := by
  rintro ⟨scenario, session, state⟩ ⟨others, other, stands⟩ same
  simp only [SessionLine.toValue, Value.object.injEq, List.cons.injEq, Prod.mk.injEq,
    Value.string.injEq, true_and, and_true] at same
  obtain ⟨rfl, rfl, rfl⟩ := same
  rfl

theorem ControlState.spelled (state : ControlState) : state.toValue.Spelled := by
  refine .object fun member inside => ?_
  simp only [List.mem_cons, List.not_mem_nil, or_false] at inside
  rcases inside with rfl | rfl | rfl
  · exact .int _
  · refine .array fun item listed => ?_
    obtain ⟨name, _, rfl⟩ := List.mem_map.mp listed
    exact .string name
  · refine .array fun item listed => ?_
    obtain ⟨line, _, rfl⟩ := List.mem_map.mp listed
    refine .object fun member held => ?_
    simp only [List.mem_cons, List.not_mem_nil, or_false] at held
    rcases held with rfl | rfl | rfl
    · exact .string _
    · exact .string _
    · exact .string _

/-- The text that a client gets is that of no other listing. -/
theorem ControlState.eq_of_toText {state other : ControlState}
    (same : state.toValue.toText = other.toValue.toText) : state = other := by
  have documents := toText_injective state.spelled other.spelled same
  have named : Function.Injective Value.string := fun _ _ same => Value.string.inj same
  obtain ⟨sessions, count, scenarios⟩ := state
  obtain ⟨lines, total, names⟩ := other
  simp only [ControlState.toValue, Value.object.injEq, List.cons.injEq, Prod.mk.injEq,
    Value.number.injEq, Number.int.injEq, Value.array.injEq, true_and, and_true,
    Int.natCast_inj] at documents
  obtain ⟨rfl, alike, listed⟩ := documents
  rw [List.map_injective_iff.mpr named alike,
    List.map_injective_iff.mpr SessionLine.toValue_injective listed]

/-! ## Names of sessions -/

section Names

theorem session_preferDirective {directives : PreferDirectives} (segment : String)
    (named : directives.session ≠ some "") :
    (preferDirective directives segment).session ≠ some "" := by
  unfold preferDirective
  split
  · exact named
  · dsimp only
    split_ifs with code scenario session
    · exact named
    · exact named
    · exact fun same => session.2 (Option.some.inj same)
    · exact named
    · exact named
    · exact named

/-- No header names an empty session. -/
theorem session_fromHeaders {κ : Type} (qualities : Qualities κ) (headers : Headers) :
    (PreferDirectives.fromHeaders qualities headers).session ≠ some "" := by
  let named := fun directives : PreferDirectives => directives.session ≠ some ""
  have segments : ∀ directives, named directives → ∀ text,
      named (parsePreferValue directives text) := fun directives kept text =>
    List.foldlRecOn (motive := named) _ _ kept fun _ kept segment _ =>
      session_preferDirective segment kept
  have folded : named ((headers.getAll "prefer").foldl parsePreferValue .none) :=
    List.foldlRecOn (motive := named) _ _ (Option.some_ne_none "").symm
      fun directives kept text _ => segments directives kept text
  unfold PreferDirectives.fromHeaders
  dsimp only
  split
  · exact folded
  · exact folded

theorem session_grpcDirective {directives : GrpcDirectives} (header : String × Option String)
    (named : directives.session ≠ some "") :
    (grpcDirective directives header).session ≠ some "" := by
  unfold grpcDirective
  split
  · exact named
  · dsimp only
    split_ifs with empty scenario session
    · exact named
    · exact named
    · exact fun same => empty (Option.some.inj same)
    · exact named

theorem session_grpcDirectives (headers : Headers) :
    (grpcDirectives headers).session ≠ some "" :=
  List.foldlRecOn (motive := fun directives : GrpcDirectives => directives.session ≠ some "")
    headers _ (Option.some_ne_none "").symm fun _ kept header _ => session_grpcDirective header kept

theorem queryParam_ne_empty (query : Option String) (name : String) :
    queryParam query name ≠ some "" := by
  intro empty
  obtain ⟨text, _, found⟩ := Option.bind_eq_some_iff.mp empty
  obtain ⟨pair, _, read⟩ := List.exists_of_findSome?_eq_some found
  split at read
  · cases read
  · dsimp only at read
    split at read
    next chosen => exact chosen.2 (Option.some.inj read)
    · cases read

theorem mintedKey_ne_empty (index : BitVec 64) : mintedKey index ≠ "" := by
  intro same
  have first := congrArg (fun key : String => key.toList.head?) same
  simp [mintedKey] at first

end Names

namespace ServerState

/-- The sessions of the connections and of the live instances have names. -/
structure Named (state : ServerState) : Prop where
  connections : ∀ connection ∈ state.connections, connection.session ≠ ""
  live : ∀ pair, (state.view pair).isSome = true → pair.2 ≠ ""

end ServerState

namespace MockServer

variable {server : MockServer} {state : ServerState}

theorem mem_of_liveConnection {index : Nat} {connection : WsConnection}
    (found : state.liveConnection index = some connection) : connection ∈ state.connections :=
  List.mem_of_getElem? (Option.filter_eq_some_iff.mp found).1

theorem connections_step (named : ∀ connection ∈ state.connections, connection.session ≠ "")
    (event : ServerEvent) :
    ∀ connection ∈ (server.step state event).1.connections, connection.session ≠ "" := by
  have changed : ∀ {index connection changed}, state.liveConnection index = some connection →
      changed.session = connection.session →
        ∀ other ∈ state.connections.set index changed, other.session ≠ "" := by
    intro index connection changed found same other member
    rcases List.mem_or_eq_of_mem_set member with kept | rfl
    · exact named other kept
    · rw [same]
      exact named connection (mem_of_liveConnection found)
  cases event with
  | http headers method path json =>
      unfold step
      dsimp only
      exact named
  | grpc request =>
      unfold step
      dsimp only
      exact named
  | upgrade path query now =>
      unfold step wsUpgradeHandler
      dsimp only
      split
      · exact named
      · intro connection member
        rcases List.mem_append.mp member with earlier | new
        · exact named connection earlier
        · obtain rfl := List.mem_singleton.mp new
          dsimp only
          cases requested : queryParam query "session" with
          | none => exact mintedKey_ne_empty _
          | some session => exact fun empty => queryParam_ne_empty query "session" (empty ▸ requested)
  | message index text now =>
      unfold step wsMessage
      dsimp only
      split
      · exact named
      next connection found =>
        split
        · exact changed found rfl
        · exact changed found rfl
  | close index =>
      unfold step wsClose
      dsimp only
      split
      · exact named
      next connection found => exact changed found rfl
  | controlReset headers =>
      unfold step controlReset
      dsimp only
      split
      · exact named
      · split
        · exact named
        · split
          · exact named
          · exact named

/-- Whatever asks for a session asks for one with a name. -/
theorem session_of_asks (named : ∀ connection ∈ state.connections, connection.session ≠ "")
    {runtime : ScenarioRuntime} {event : ServerEvent} {call : Call} {request : Request}
    (asked : server.asks runtime state event = some call)
    (made : call.request? = some request) : request.session ≠ some "" := by
  unfold asks at asked
  cases event with
  | http headers method path json =>
      dsimp only at asked
      obtain ⟨matched, _, asked⟩ := Option.bind_eq_some_iff.mp asked
      obtain ⟨mock, _, rfl⟩ := Option.map_eq_some_iff.mp asked
      rw [← Option.some.inj made]
      exact session_fromHeaders _ headers
  | grpc request =>
      obtain ⟨call, _, rfl⟩ := Option.map_eq_some_iff.mp asked
      cases made
      exact session_grpcDirectives request.headers
  | upgrade path query now => cases asked
  | message index text now =>
      obtain ⟨connection, found, asked⟩ := Option.bind_eq_some_iff.mp asked
      split at asked
      · cases asked
      · obtain ⟨scenario, _, asked⟩ := Option.bind_eq_some_iff.mp asked
        obtain ⟨reply, _, rfl⟩ := Option.map_eq_some_iff.mp asked
        cases made
        exact fun same => named connection (mem_of_liveConnection found) (Option.some.inj same)
  | close index =>
      obtain ⟨connection, _, asked⟩ := Option.bind_eq_some_iff.mp asked
      obtain ⟨scenario, _, rfl⟩ := Option.map_eq_some_iff.mp asked
      cases made
  | controlReset headers =>
      dsimp only at asked
      split_ifs at asked
      cases asked
      cases made

theorem named_step (named : state.Named) (event : ServerEvent) :
    (server.step state event).1.Named := by
  refine ⟨connections_step named.connections event, fun pair live empty => ?_⟩
  have absent : state.view pair = none :=
    Option.not_isSome_iff_eq_none.mp fun held => named.live pair held empty
  have kept : (server.step state event).1.view pair = state.view pair := by
    refine view_step_eq fun runtime call held asked => ?_
    have dormant : runtime.view pair = none := by
      rw [ServerState.view, held] at absent
      exact absent
    by_cases drops : Drops pair call
    · rcases drops with rfl | rfl
      · rw [view_release, Function.update_self, dormant]
      · rw [view_resetAll]
        simp only [dormant, Option.map_none]
    · refine view_exec_of_elsewhere (fun request made about => ?_) drops
      have session := session_of_asks named.connections asked made
      have chosen : request.session.getD defaultSession = "" := by
        rw [← empty, ← about]
        rfl
      cases given : request.session with
      | none =>
          rw [given] at chosen
          exact absurd chosen (by decide)
      | some name =>
          rw [given] at chosen
          exact session (given.trans (congrArg some chosen))
  rw [kept, absent] at live
  cases live

/-- No session of a server is without a name. -/
theorem named_run (server : MockServer) (events : List ServerEvent) :
    (stateAfter server.step server.initial events).Named := by
  refine stateAfter_invariant ServerState.Named (fun _ event named => named_step named event) ?_
    events
  have dormant : server.initial.view = fun _ => none := by
    funext pair
    unfold ServerState.view initial
    cases server.sidecar with
    | none => rfl
    | some sidecar => rfl
  refine ⟨nofun, fun pair live => ?_⟩
  rw [dormant] at live
  cases live

/-! ## Calls of a run -/

/-- The calls of the scenarios that events make. -/
def called (server : MockServer) : ServerState → List ServerEvent → List Call
  | _, [] => []
  | state, event :: rest =>
      (state.scenarios.bind fun runtime => server.asks runtime state event).toList ++
        called server (server.step state event).1 rest

/-- Events do to the scenarios what their calls do. -/
theorem scenarios_run {runtime : ScenarioRuntime} (held : state.scenarios = some runtime)
    (events : List ServerEvent) :
    (stateAfter server.step state events).scenarios =
      some (stateAfter ScenarioRuntime.exec runtime (server.called state events)) := by
  induction events generalizing state runtime with
  | nil => exact held
  | cons event rest ih =>
      have stepped : (server.step state event).1.scenarios = _ := scenarios_step held event
      rw [stateAfter_cons, ih stepped, called, held, Option.bind_some]
      cases server.asks runtime state event with
      | none => rfl
      | some call => rfl

end MockServer

/-! ## Listed sessions -/

section Listed

variable {server : MockServer} {state : ServerState} {runtime : ScenarioRuntime}
  {others : Nat → List ServerEvent}

theorem mem_livePairs {pair : String × String} :
    pair ∈ runtime.livePairs ↔ (runtime.view pair).isSome = true :=
  ((List.perm_insertionSort _ _).mem_iff).trans mem_sessions

theorem livePairs_sorted :
    runtime.livePairs.Pairwise fun first second => toLex first < toLex second := by
  have distinct : runtime.livePairs.Nodup :=
    (List.perm_insertionSort _ _).nodup_iff.mpr runtime.sessions.keys_nodup
  have sorted : runtime.livePairs.Pairwise fun first second => toLex first ≤ toLex second :=
    List.pairwise_insertionSort _ _
  exact (sorted.and distinct).imp fun both => lt_of_le_of_ne both.1 fun same =>
    both.2 (toLex.injective same)

theorem controlReads_pairs :
    (runtime.controlReads others).map Prod.snd = runtime.livePairs := by
  rw [ScenarioRuntime.controlReads, List.map_map]
  exact List.zipIdx_map_fst 0 runtime.livePairs

/-- What is read for a session with a name is its state. -/
theorem readState_eq {pair : String × String} (named : pair.2 ≠ "") :
    state.readState pair = (state.view pair).map fun inst => (inst.scenario, inst.state.name) := by
  unfold ServerState.readState ServerState.view
  cases state.scenarios with
  | none => rfl
  | some runtime =>
      rw [Option.bind_some, Option.bind_some, ScenarioRuntime.sessionStateFor, if_neg named]
      rfl

theorem view_of_held (held : state.scenarios = some runtime) : state.view = runtime.view := by
  funext pair
  rw [ServerState.view, held]
  rfl

theorem mem_livePairs_iff (held : state.scenarios = some runtime) {pair : String × String} :
    pair ∈ runtime.livePairs ↔ (state.view pair).isSome = true := by
  rw [mem_livePairs, view_of_held held]

/-- Every line was true at some moment of what the others did. -/
theorem exists_of_line (held : state.scenarios = some runtime) (named : state.Named)
    {line : SessionLine}
    (member : line ∈ (server.controlState state runtime others).2.sessions) :
    (state.view line.pair).isSome = true ∧ ∃ before after,
      state.during others = before ++ after ∧
        ∃ inst, (stateAfter server.step state before).view line.pair = some inst ∧
          line.state = inst.state.name := by
  obtain ⟨found, read, rfl⟩ := List.mem_map.mp member
  have listed : found.1 ∈ runtime.livePairs := by
    have keys : (runtime.controlReads others).map Prod.snd = runtime.livePairs :=
      controlReads_pairs
    rw [← keys]
    exact (scan_keys_sublist _ _).subset (List.mem_map_of_mem read)
  have live := (mem_livePairs_iff held).mp listed
  obtain ⟨before, after, split, there⟩ := exists_of_mem_scan read
  rw [readState_eq (named.live found.1 live)] at there
  obtain ⟨inst, alive, same⟩ := Option.map_eq_some_iff.mp there
  refine ⟨live, before, after, ?_, inst, alive, ?_⟩
  · rw [ServerState.during, held]
    exact split
  · rw [← same]

/-- The lines stand in the order of their pairs, each pair once. -/
theorem lines_sorted :
    (server.controlState state runtime others).2.sessions.Pairwise fun first second =>
      toLex first.pair < toLex second.pair := by
  have sorted : ((runtime.controlReads others).map Prod.snd).Pairwise
      fun first second => toLex first < toLex second :=
    controlReads_pairs.symm ▸ livePairs_sorted
  have pairs : ((scan server.step ServerState.readState state
      (runtime.controlReads others)).2.map Prod.fst).Pairwise
        fun first second => toLex first < toLex second :=
    sorted.sublist (scan_keys_sublist _ _)
  exact List.pairwise_map.mpr (List.pairwise_map.mp pairs)

/-- A session that lives through the listing has a line. -/
theorem exists_line (held : state.scenarios = some runtime) (named : state.Named)
    {pair : String × String} (lives : ∀ before after,
      state.during others = before ++ after →
        ((stateAfter server.step state before).view pair).isSome = true) :
    ∃ line ∈ (server.controlState state runtime others).2.sessions, line.pair = pair := by
  have live := lives [] _ rfl
  rw [stateAfter_nil] at live
  have listed : pair ∈ (runtime.controlReads others).map Prod.snd := by
    rw [controlReads_pairs]
    exact (mem_livePairs_iff held).mpr live
  have there : ∀ before after,
      scanCalls (runtime.controlReads others) = before ++ after →
        ((stateAfter server.step state before).readState pair).isSome = true := by
    intro before after split
    rw [readState_eq (named.live pair live), Option.isSome_map]
    refine lives before after ?_
    rw [ServerState.during, held]
    exact split
  obtain ⟨value, found⟩ := exists_mem_scan there listed
  exact ⟨⟨pair.1, pair.2, value.2⟩, List.mem_map_of_mem found, rfl⟩

theorem scanCalls_quiet (quiet : ∀ turn, others turn = []) :
    scanCalls (runtime.controlReads others) = [] := by
  rw [scanCalls, ScenarioRuntime.controlReads, List.flatMap_map]
  exact List.flatMap_eq_nil_iff.mpr fun read _ => quiet read.2

theorem controlState_still (quiet : ∀ turn, others turn = []) :
    (server.controlState state runtime others).1 = state := by
  change stateAfter server.step (scan server.step ServerState.readState state
    (runtime.controlReads others)).1 (others _) = state
  rw [scan_state, quiet, scanCalls_quiet quiet]
  rfl

variable (server) in
/-- When nobody interferes, the listing is of the live sessions and counts them. -/
theorem controlState_quiet (held : state.scenarios = some runtime) (named : state.Named)
    (quiet : ∀ turn, others turn = []) :
    (server.controlState state runtime others).2.sessions.map SessionLine.pair =
        runtime.livePairs ∧
      (server.controlState state runtime others).2.count = runtime.livePairs.length := by
  constructor
  · change ((scan server.step ServerState.readState state
      (runtime.controlReads others)).2.map _).map _ = _
    rw [scan_quiet (scanCalls_quiet quiet), controlReads_pairs, List.map_map, List.map_filterMap]
    refine (List.filterMap_congr fun pair member => ?_).trans List.filterMap_some
    have live := (mem_livePairs_iff held).mp member
    obtain ⟨inst, alive⟩ := Option.isSome_iff_exists.mp live
    rw [readState_eq (named.live pair live), alive]
    rfl
  · change (((server.controlState state runtime others).1.scenarios).map _).getD 0 = _
    rw [controlState_still quiet, held, Option.map_some, Option.getD_some,
      ScenarioRuntime.sessionCount, FiniteMap.size_eq_length_keys, ScenarioRuntime.livePairs]
    exact (List.perm_insertionSort _ _).length_eq.symm

end Listed

namespace MockServer

/--
What a listing tells that was made after some events of a run, while others
happened.
-/
structure Tells (server : MockServer) (start : ScenarioRuntime) (events : List ServerEvent)
    (others : Nat → List ServerEvent) (after : ServerState) (listing : ControlState) : Prop where
  /-- The lines stand in the order of their sessions, each session once. -/
  sorted : listing.sessions.Pairwise fun first second => toLex first.pair < toLex second.pair
  /-- A line is true at a moment: the operations accepted by then lead to its state. -/
  line : let state := stateAfter server.step server.initial events
    ∀ line ∈ listing.sessions, (state.view line.pair).isSome = true ∧
      ∃ before rest, state.during others = before ++ rest ∧
        ((stateAfter server.step state before).view line.pair).isSome = true ∧
          ∃ machine, start.machine line.scenario = some machine ∧
            machine.Declares ⟨line.state⟩ ∧ ⟨line.state⟩ = machine.fold
              (start.accepted (server.called server.initial (events ++ before)) line.pair)
  /-- A session that lives through the listing has a line. -/
  all : let state := stateAfter server.step server.initial events
    ∀ pair, (∀ before rest, state.during others = before ++ rest →
        ((stateAfter server.step state before).view pair).isSome = true) →
      ∃ line ∈ listing.sessions, line.pair = pair
  /-- Without interference it lists the live sessions, counts them and changes nothing. -/
  quiet : let state := stateAfter server.step server.initial events
    (∀ turn, others turn = []) → after = state ∧
      (∀ pair, pair ∈ listing.sessions.map SessionLine.pair ↔
        (state.view pair).isSome = true) ∧
      listing.count = listing.sessions.length
  /-- Its text is that of no other listing. -/
  only : ∀ other : ControlState, other.toValue.toText = listing.toValue.toText → other = listing

/-- Who gets a listing gets that of the scenarios. -/
theorem controlState_of_listed {server : MockServer} {state after : ServerState}
    {runtime : ScenarioRuntime} {others : Nat → List ServerEvent} {headers : Headers}
    {listing : ControlState} (held : state.scenarios = some runtime)
    (listed : server.controlStateHandler state headers others = (after, .listed listing)) :
    server.controlState state runtime others = (after, listing) := by
  unfold controlStateHandler at listed
  rw [held] at listed
  split at listed
  · cases listed
  · split at listed
    · cases listed
    · cases listed
      rfl

/-- The scenarios of a run are where its calls lead them. -/
theorem scenarios_initial {server : MockServer} {sidecar : ValidatedSidecar}
    (configured : server.sidecar = some sidecar) (events : List ServerEvent) :
    (stateAfter server.step server.initial events).scenarios =
      some (stateAfter ScenarioRuntime.exec
        (ScenarioRuntime.new sidecar server.maxSessions server.maxStoreEntries)
        (server.called server.initial events)) := by
  refine scenarios_run ?_ events
  rw [initial, configured]
  rfl

/--
Whatever has happened in a server and whatever happens while a client lists the
sessions, the listing tells the sessions that live through it, each with a state
that it had at a moment of the listing and that its history leads to.
-/
theorem control_listing (server : MockServer) (sidecar : ValidatedSidecar)
    (configured : server.sidecar = some sidecar) (events : List ServerEvent)
    (others : Nat → List ServerEvent) (headers : Headers) (after : ServerState)
    (listing : ControlState)
    (listed : server.controlStateHandler (stateAfter server.step server.initial events) headers
      others = (after, .listed listing)) :
    server.Tells (ScenarioRuntime.new sidecar server.maxSessions server.maxStoreEntries) events
      others after listing := by
  let start := ScenarioRuntime.new sidecar server.maxSessions server.maxStoreEntries
  let state := stateAfter server.step server.initial events
  have held := scenarios_initial configured events
  have named := named_run server events
  have read := controlState_of_listed held listed
  obtain rfl := congrArg Prod.fst read
  obtain rfl := congrArg Prod.snd read
  constructor
  case sorted => exact lines_sorted
  case line =>
    intro state line member
    obtain ⟨live, before, rest, split, inst, alive, stands⟩ := exists_of_line held named member
    refine ⟨live, before, rest, split, by rw [alive]; rfl, ?_⟩
    have moment := scenarios_initial configured (events ++ before)
    rw [stateAfter_append] at moment
    rw [view_of_held moment] at alive
    have follows := follows_run start (view_new sidecar server.maxSessions server.maxStoreEntries)
      (server.called server.initial (events ++ before)) line.pair
    rw [alive] at follows
    obtain ⟨entry, known, _, led⟩ := follows
    have wellFormed := sidecar.wellFormed.scenarios entry (ValidatedSidecar.scenario_mem known).1
    have same : (⟨line.state⟩ : State) = inst.state := congrArg State.mk stands
    refine ⟨ScenarioEntry.machine entry, ?_, ?_, same.trans led⟩
    · rw [machine_eq]
      exact congrArg (Option.map ScenarioEntry.machine) known
    · rw [same, led]
      exact (ScenarioEntry.closed_machine wellFormed).fold _
  case all =>
    intro state pair lives
    exact exists_line held named lives
  case quiet =>
    intro state quiet
    obtain ⟨pairs, count⟩ := controlState_quiet server held named quiet
    refine ⟨controlState_still quiet, fun pair => ?_, ?_⟩
    · rw [pairs]
      exact mem_livePairs_iff held
    · rw [count, ← pairs, List.length_map]
  case only => exact fun other same => ControlState.eq_of_toText same

/-! ## Guarded runs -/

/-- An event, or a request for the listing. -/
inductive ControlledEvent where
  | own (event : ServerEvent)
  | list (headers : Headers)

inductive ControlledReply where
  | own (reply : ServerReply)
  | list (reply : ControlReply)

variable (server : MockServer)

def controlled (state : ServerState) : ControlledEvent → ServerState × ControlledReply
  | .own event =>
      let stepped := server.step state event
      (stepped.1, .own stepped.2)
  | .list headers =>
      let handled := server.controlStateHandler state headers fun _ => []
      (handled.1, .list handled.2)

/-- What is left of an event when listings and unauthorized resets are left out. -/
def effect : ControlledEvent → Option ServerEvent
  | .own (.controlReset headers) =>
      if server.authorizeControl headers then some (.controlReset headers) else none
  | .own event => some event
  | .list _ => none

/-- The reply that is left. -/
def ControlledReply.told : ControlledReply → Option ServerReply
  | .own .denied => none
  | .own reply => some reply
  | .list _ => none

variable {server} {token : String}

/-- Only the header with the token is let through. -/
theorem authorizeControl_iff (configured : server.controlToken = some token) {headers : Headers} :
    server.authorizeControl headers = true ↔
      headers.get "authorization" = some ("Bearer " ++ token) := by
  unfold authorizeControl
  rw [configured]
  dsimp only
  rw [beq_iff_eq, Option.bind_eq_some_iff]
  constructor
  · rintro ⟨value, given, stripped⟩
    rw [given, Text.stripPrefix_eq_some_iff.mp stripped]
  · intro given
    exact ⟨_, given, Text.stripPrefix_eq_some_iff.mpr rfl⟩

theorem step_denied (configured : server.controlToken = some token) (state : ServerState)
    {headers : Headers} (denied : server.authorizeControl headers = false) :
    server.step state (.controlReset headers) = (state, .denied) := by
  change server.controlReset state headers = _
  rw [controlReset, configured, if_neg (by simp), if_pos denied]

/-- Only a reset without the token is denied. -/
theorem step_reply_ne_denied (state : ServerState) {event : ServerEvent}
    (kept : server.effect (.own event) = some event) : (server.step state event).2 ≠ .denied := by
  cases event with
  | http headers method path json => exact nofun
  | grpc request => exact nofun
  | upgrade path query now =>
      unfold step wsUpgradeHandler
      dsimp only
      split
      · exact nofun
      · exact nofun
  | message index text now =>
      unfold step wsMessage
      dsimp only
      split
      · exact nofun
      · split
        · exact nofun
        · exact nofun
  | close index =>
      unfold step wsClose
      dsimp only
      split
      · exact nofun
      · exact nofun
  | controlReset headers =>
      unfold effect at kept
      dsimp only at kept
      split at kept
      next allowed =>
        unfold step controlReset
        dsimp only
        rw [allowed]
        split
        · exact nofun
        · split
          next denied => cases denied
          · split
            · exact nofun
            · exact nofun
      · cases kept

theorem told_of_ne {reply : ServerReply} (other : reply ≠ .denied) :
    (ControlledReply.own reply).told = some reply := by
  unfold ControlledReply.told
  split
  next same =>
    cases same
    exact absurd rfl other
  next same =>
    cases same
    rfl
  next same => cases same

/-- What is left of an event is the event itself. -/
theorem eq_of_effect {event : ControlledEvent} {other : ServerEvent}
    (left : server.effect event = some other) : event = .own other := by
  cases event with
  | own event =>
      unfold effect at left
      split at left
      next same =>
        cases same
        split at left
        · cases left
          rfl
        · cases left
      next same =>
        cases same
        cases left
        rfl
      next same => cases same
  | list headers => cases left

theorem controlled_of_effect (state : ServerState) {event : ControlledEvent} {other : ServerEvent}
    (left : server.effect event = some other) :
    (server.controlled state event).1 = (server.step state other).1 ∧
      (server.controlled state event).2.told = some (server.step state other).2 := by
  obtain rfl := eq_of_effect left
  exact ⟨rfl, told_of_ne (step_reply_ne_denied state left)⟩

theorem controlStateHandler_still (state : ServerState) (headers : Headers) :
    (server.controlStateHandler state headers fun _ => []).1 = state := by
  unfold controlStateHandler
  split
  · rfl
  · split
    · rfl
    · split
      · rfl
      · exact controlState_still fun _ => rfl

theorem controlled_of_none (configured : server.controlToken = some token) (state : ServerState)
    {event : ControlledEvent} (left : server.effect event = none) :
    (server.controlled state event).1 = state ∧ (server.controlled state event).2.told = none := by
  cases event with
  | own event =>
      unfold effect at left
      split at left
      next headers same =>
        cases same
        split at left
        · cases left
        next denied =>
          have stepped := step_denied configured state (Bool.eq_false_of_not_eq_true denied)
          change (server.step state (.controlReset headers)).1 = state ∧
            (ControlledReply.own (server.step state (.controlReset headers)).2).told = none
          rw [stepped]
          exact ⟨rfl, rfl⟩
      next => cases left
      next same => cases same
  | list headers => exact ⟨controlStateHandler_still state headers, rfl⟩

/-- A reset is denied, and a listing refused, exactly without the token. -/
theorem denied_iff (configured : server.controlToken = some token) (state : ServerState)
    (headers : Headers) :
    ((server.step state (.controlReset headers)).2 = .denied ↔
        headers.get "authorization" ≠ some ("Bearer " ++ token)) ∧
      ((server.controlStateHandler state headers fun _ => []).2 = .refused unauthorizedControl ↔
        headers.get "authorization" ≠ some ("Bearer " ++ token)) := by
  rw [Ne, ← authorizeControl_iff configured]
  cases presented : server.authorizeControl headers with
  | false =>
      have registered : ¬ server.controlToken.isNone = true := by simp [configured]
      rw [step_denied configured state presented, controlStateHandler, if_neg registered,
        if_pos presented]
      simp
  | true =>
      have kept : server.effect (.own (.controlReset headers)) = some (.controlReset headers) :=
        if_pos presented
      refine ⟨iff_of_false (step_reply_ne_denied state kept) (by simp), iff_of_false ?_ (by simp)⟩
      unfold controlStateHandler
      rw [presented]
      split
      · exact nofun
      · split
        next denied => cases denied
        · split
          · intro same
            have status := congrArg ProblemDetails.status (ControlReply.refused.inj same)
            exact absurd status (by decide)
          · exact nofun

/--
Over every run with control requests in it, the server is in the state of the
run in which each reset that presents the token is left and every other control
request is left out, and it gives the replies of that run.  A reset is denied
and a listing is refused, always alike, exactly if they do not present the token.
-/
theorem control_guarded (server : MockServer) (token : String)
    (configured : server.controlToken = some token) (state : ServerState)
    (events : List ControlledEvent) :
    let erased := events.filterMap server.effect
    stateAfter server.controlled state events = stateAfter server.step state erased ∧
      (answers server.controlled state events).filterMap ControlledReply.told =
        answers server.step state erased ∧
      ∀ event ∈ trace server.controlled state events, ∀ headers,
        (event.1 = .own (.controlReset headers) → (event.2 = .own .denied ↔
          headers.get "authorization" ≠ some ("Bearer " ++ token))) ∧
        (event.1 = .list headers → (event.2 = .list (.refused unauthorizedControl) ↔
          headers.get "authorization" ≠ some ("Bearer " ++ token))) := by
  intro erased
  have acts : ∀ (state : ServerState) (event : ControlledEvent) other,
      server.effect event = some other →
        (server.controlled state event).1 = (server.step state other).1 ∧
          (server.controlled state event).2.told = some (server.step state other).2 :=
    fun state _ _ left => controlled_of_effect state left
  have idles : ∀ (state : ServerState) (event : ControlledEvent), server.effect event = none →
      (server.controlled state event).1 = state ∧
        (server.controlled state event).2.told = none :=
    fun state _ left => controlled_of_none configured state left
  have run := stateAfter_erased acts idles state events
  refine ⟨run.1, run.2, fun event member headers => ?_⟩
  obtain ⟨before, after, _, answered⟩ := exists_of_mem_trace member
  obtain ⟨reset, listing⟩ :=
    denied_iff configured (stateAfter server.controlled state before) headers
  constructor
  · intro asked
    rw [answered, asked, ← reset]
    exact ⟨ControlledReply.own.inj, congrArg ControlledReply.own⟩
  · intro asked
    rw [answered, asked, ← listing]
    exact ⟨ControlledReply.list.inj, congrArg ControlledReply.list⟩

end MockServer

/-! ## A guarded server -/

def guardedServer : MockServer := { eventServer with controlToken := some "secret" }

/-- A connection announces the widget in a session of its own choice. -/
def announcement : List ServerEvent :=
  [.upgrade "/ws/widgets.created" (some "session=shared") 0, .message 0 widgetMessage.toText 0]

theorem control_guarded_announcement :
    stateAfter guardedServer.controlled guardedServer.initial
        (announcement.map .own ++ [.own (.controlReset []), .list []]) =
      stateAfter guardedServer.step guardedServer.initial announcement := by
  have erased : List.filterMap guardedServer.effect
      (announcement.map .own ++ [.own (.controlReset []), .list []]) = announcement := rfl
  have guarded := (MockServer.control_guarded guardedServer "secret" rfl guardedServer.initial
    (announcement.map .own ++ [.own (.controlReset []), .list []])).1
  rwa [erased] at guarded

theorem control_listing_announcement :
    ∃ after listing, listing.sessions = [⟨"events", "shared", "listening"⟩] ∧
      guardedServer.Tells (ScenarioRuntime.new eventSidecar 8 8) announcement (fun _ => []) after
        listing := by
  let state := stateAfter guardedServer.step guardedServer.initial announcement
  have listed : (guardedServer.controlStateHandler state [("authorization", some "Bearer secret")]
      fun _ => []).2 = .listed ⟨[⟨"events", "shared", "listening"⟩], 1, ["events"]⟩ := by
    rfl
  exact ⟨_, ⟨[⟨"events", "shared", "listening"⟩], 1, ["events"]⟩, rfl,
    MockServer.control_listing guardedServer eventSidecar rfl announcement (fun _ => [])
      [("authorization", some "Bearer secret")] _ _ (Prod.ext rfl listed)⟩

end SpecMock.Runtime
