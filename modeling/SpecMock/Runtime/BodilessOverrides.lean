import SpecMock.Runtime.GrpcOutcomes
import SpecMock.Runtime.Media

/-!
# Overrides without a body

An override that declares no body is meant to pin the status and nothing else.
A resolution with a status cannot say that there is no body, so the answer to a
delete that succeeds is lost: over HTTP the mocked body comes back, and over
gRPC, where an override without a body is an error, the delete fails.
-/

namespace SpecMock.Runtime

open SpecMock.Library SpecMock.Core

/-- An override with a numeric key and no body is chosen for a request. -/
structure ScenarioRuntime.Pins (runtime : ScenarioRuntime) (request : Request)
    (entry : ScenarioEntry) (operation : ResolvedOperation) (inst : Instance) (status : Nat) :
    Prop where
  admitted : runtime.Admitted request entry operation inst
  validated : request.validated = true
  succeeded : (storeOutcome inst.store operation request).2.isFailed = false
  chosen : ∃ key spec,
    chosenOverride (ScenarioEntry.machine entry) inst.state operation = some (key, spec) ∧
      spec.body = none ∧ parseU16 key = some status

namespace ScenarioRuntime.Pins

variable {runtime : ScenarioRuntime} {request : Request} {entry : ScenarioEntry}
  {operation : ResolvedOperation} {inst : Instance} {status : Nat}

/-- The status comes with the store's body, if the store provides one. -/
theorem resolved (pins : runtime.Pins request entry operation inst status) :
    (runtime.resolveWith request).2 = .forced status
      (overriddenBody ⟨none⟩ (storeOutcome inst.store operation request).2) := by
  obtain ⟨key, ⟨body⟩, chosen, rfl, numeric⟩ := pins.chosen
  rw [pins.admitted.resolved pins.validated, finalOutcome_of_overrides ⟨pins.succeeded, chosen⟩,
    numeric]
  rfl

end ScenarioRuntime.Pins

/-- The response has the status, and the body it would have had without the override. -/
def PinsStatusOnly (rules : HeaderRules) (mock : MockHttpResponse) (outcome : Resolution)
    (response : HttpResponse) (status : Nat) : Prop :=
  ∃ given plain, response = .mocked given ∧ resolvedResponse mock outcome = .mocked plain ∧
    (buildMockResponse rules given).status = status ∧
    (buildMockResponse rules given).body = (buildMockResponse rules plain).body

/-- A status is rendered as it is exactly if it is an HTTP status. -/
theorem status_buildMockResponse (rules : HeaderRules) (mock : MockHttpResponse) :
    (buildMockResponse rules mock).status = mock.status ↔
      100 ≤ mock.status ∧ mock.status ≤ 999 := by
  change (if 100 ≤ mock.status ∧ mock.status ≤ 999 then mock.status else 200) = mock.status ↔ _
  split_ifs with valid
  · exact iff_of_true rfl valid
  · refine iff_of_false ?_ valid
    intro same
    omega

/-- The status is pinned and the body kept unless the mock speaks up for an empty answer. -/
theorem pinsStatusOnly_iff (rules : HeaderRules) (mock : MockHttpResponse) {outcome : Resolution}
    (provided : outcome = .ungoverned ∨ outcome = .empty ∨ ∃ value, outcome = .body value)
    (status : Nat) :
    PinsStatusOnly rules mock outcome
        (resolvedResponse mock (.forced status (ScenarioRuntime.overriddenBody ⟨none⟩ outcome)))
        status ↔
      (100 ≤ status ∧ status ≤ 999) ∧ (outcome = .empty → mock.payload = "") := by
  have pinned : ∀ {body : Option Value} {plain : MockHttpResponse},
      resolvedResponse mock outcome = .mocked plain →
      (PinsStatusOnly rules mock outcome (.mocked { mock with status, body }) status ↔
        (100 ≤ status ∧ status ≤ 999) ∧
          (buildMockResponse rules { mock with status, body }).body =
            (buildMockResponse rules plain).body) := by
    intro body plain answered
    have statuses := status_buildMockResponse rules { mock with status, body }
    constructor
    · rintro ⟨given, other, same, answeredToo, valid, bodies⟩
      cases same
      cases answered.symm.trans answeredToo
      exact ⟨statuses.mp valid, bodies⟩
    · rintro ⟨valid, bodies⟩
      exact ⟨_, plain, rfl, answered, statuses.mpr valid, bodies⟩
  rcases provided with rfl | rfl | ⟨value, rfl⟩
  · exact (pinned rfl).trans (and_congr_right' (iff_of_true rfl nofun))
  · exact (pinned rfl).trans (and_congr_right' ⟨fun same _ => same, fun silent => silent rfl⟩)
  · exact (pinned rfl).trans (and_congr_right' (iff_of_true rfl nofun))

/-- The status says success, as a gRPC code or as an HTTP status. -/
def NamesSuccess (status : Nat) : Prop := status = 0 ∨ (200 ≤ status ∧ status ≤ 299)

/-- The call is answered with a message. -/
def GrpcResponse.succeeded (response : GrpcResponse) : Prop :=
  ∃ frames, response = .success frames

/-- The code that a status of success is turned into. -/
theorem grpcCodeFor_of_namesSuccess {status : Nat} (names : NamesSuccess status) :
    grpcCodeFor status = if status = 0 then 0 else 13 := by
  rcases names with rfl | ⟨low, high⟩
  · rfl
  · have big : ¬ status ≤ 16 := by omega
    have apart : ∀ code, code < 200 ∨ 299 < code → status ≠ code := by omega
    simp [grpcCodeFor, big, apart]

section Overrides

variable {protobuf : Protobuf}

/--
Over HTTP an override without a body pins the status of a request and keeps its
body exactly if the status is one and the request is no delete of an operation
whose mock has a payload.  Over gRPC a delete under an override that names
success is answered with an error or without a message, so it succeeds exactly
if there is no such delete.
-/
theorem bodiless_override_iff (rules : HeaderRules) (libraries : Libraries) (server : HttpServer)
    (grpc : GrpcServer protobuf) (runtime : ScenarioRuntime) :
    (∀ request matched mock entry operation inst status,
      server.openapi.matchOperation request.method request.path = some matched →
      server.mockFor libraries matched request = .ok mock →
      runtime.Pins (request.resolution matched mock) entry operation inst status →
      let outcome := (ScenarioRuntime.storeOutcome inst.store operation
        (request.resolution matched mock)).2
      (PinsStatusOnly rules mock outcome
          (fallbackHandler libraries server (some runtime) request).2 status ↔
        (100 ≤ status ∧ status ≤ 999) ∧ (outcome = .empty → mock.payload = ""))) ∧
    ∀ request call entry operation inst status, grpc.prepare request = .ok call →
      runtime.Pins (call.resolution request) entry operation inst status →
      let outcome := (ScenarioRuntime.storeOutcome inst.store operation
        (call.resolution request)).2
      let response := (grpc.call (some runtime) request).2
      ((outcome = .empty → NamesSuccess status → response.succeeded) ↔
        ¬ (outcome = .empty ∧ NamesSuccess status)) ∧
      (outcome = .empty → NamesSuccess status →
        response.status = if status = 0 then 0 else 13) := by
  constructor
  · intro request matched mock entry operation inst status routed mocked pins outcome
    have handled : (fallbackHandler libraries server (some runtime) request).2 =
        resolvedResponse mock (.forced status (ScenarioRuntime.overriddenBody ⟨none⟩ outcome)) := by
      rw [← pins.resolved]
      simp only [fallbackHandler, routed, mocked]
      rfl
    rw [handled]
    exact pinsStatusOnly_iff rules mock
      (ScenarioRuntime.storeOutcome_provides pins.succeeded) status
  · intro request call entry operation inst status prepared pins outcome response
    have answered : response =
        grpcAnswer call (.forced status (ScenarioRuntime.overriddenBody ⟨none⟩ outcome)) := by
      rw [← pins.resolved]
      exact congrArg Prod.snd (GrpcServer.call_of_prepare prepared runtime)
    have failed : outcome = .empty → response =
        .failed (grpcCodeFor status) ("scenario declared status " ++ toString status) none := by
      intro deleted
      rw [answered, deleted]
      rfl
    refine ⟨⟨?_, ?_⟩, ?_⟩
    · rintro succeeds ⟨deleted, names⟩
      obtain ⟨frames, success⟩ := succeeds deleted names
      cases (failed deleted).symm.trans success
    · exact fun apart deleted names => absurd ⟨deleted, names⟩ apart
    · intro deleted names
      rw [failed deleted]
      exact grpcCodeFor_of_namesSuccess names

end Overrides

/-- A removal names the user in its body, and declares its status. -/
def removeUser : ResolvedOperation :=
  ⟨"removeUser", some ⟨"/users", .delete, none, some ⟨.request, "/id"⟩⟩,
    OrderedMap.collect [("204", ⟨none⟩)]⟩

/-- All users, with a declared status. -/
def listUsers : ResolvedOperation :=
  ⟨"listUsers", some ⟨"/users", .list, none, none⟩, OrderedMap.collect [("200", ⟨none⟩)]⟩

/-- Users may be listed and removed at any time. -/
def roster : ScenarioEntry where
  name := "roster"
  initialState := "open"
  seed := [⟨"/users", [.object [("id", .string "ada")]]⟩]
  states := OrderedMap.collect
    [("open", OrderedMap.collect [("listUsers", ⟨none, ∅⟩), ("removeUser", ⟨none, ∅⟩)])]

def rosterSidecar : ValidatedSidecar where
  sidecar := ⟨1, OrderedMap.collect
    [("listUsers", ⟨⟨"GET", "/users"⟩, listUsers.store, listUsers.responses⟩),
      ("removeUser", ⟨⟨"DELETE", "/users"⟩, removeUser.store, removeUser.responses⟩)], [roster]⟩
  supported := rfl
  valid := by decide

def rosterRuntime : ScenarioRuntime := ScenarioRuntime.new rosterSidecar 8 8

/-- The session before any request. -/
def rosterSession : Instance := Instance.new "roster" ⟨"open"⟩ roster.seed 8

/-- An operation that is documented with a user as its response. -/
def documented (method : String) : OperationSpec :=
  ⟨method, "/users",
    [⟨"200", [⟨"application/json", none, some (.object [("id", .string "bob")]), ∅⟩], ∅⟩]⟩

def rosterServer : HttpServer := ⟨0, .of [documented "GET", documented "DELETE"]⟩

/-- The mocked response of both operations. -/
def mockedUser : MockHttpResponse :=
  ⟨200, some "application/json", none, some (.object [("id", .string "bob")]), []⟩

def listRequest : HttpRequest := ⟨"GET", "/users", .none, none⟩

def removeRequest : HttpRequest :=
  ⟨"DELETE", "/users", .none, some (.object [("id", .string "ada")])⟩

/-- The service has no methods. -/
def idleServer : GrpcServer stringMessages := ⟨∅, 0⟩

/-- The users are listed with the declared status, and with the stored body. -/
theorem bodiless_override_iff_list :
    rosterRuntime.Pins (listRequest.resolution ⟨documented "GET", ∅⟩ mockedUser) roster listUsers
        rosterSession 200 ∧
      PinsStatusOnly ⟨fun _ => true, fun _ => true⟩ mockedUser
        (.body (.array [.object [("id", .string "ada")]]))
        (fallbackHandler sampleLibraries rosterServer (some rosterRuntime) listRequest).2 200 := by
  have pins : rosterRuntime.Pins (listRequest.resolution ⟨documented "GET", ∅⟩ mockedUser) roster
      listUsers rosterSession 200 := by
    constructor
    · exact ⟨⟨rfl, rfl, rfl, _, rfl⟩, by decide⟩
    · rfl
    · rfl
    · exact ⟨"200", ⟨none⟩, rfl, rfl, by decide⟩
  have iff := (bodiless_override_iff ⟨fun _ => true, fun _ => true⟩ sampleLibraries rosterServer
    idleServer rosterRuntime).1 listRequest ⟨documented "GET", ∅⟩ mockedUser roster listUsers
      rosterSession 200 rfl rfl pins
  exact ⟨pins, iff.mpr ⟨by decide, nofun⟩⟩

/-- A removal is answered with status 204 and the mocked user. -/
theorem removed_user_answered :
    (¬ ∀ (rules : HeaderRules) (libraries : Libraries) (server : HttpServer)
        (runtime : ScenarioRuntime) (request : HttpRequest) (matched : MatchedOperation)
        (mock : MockHttpResponse) (entry : ScenarioEntry) (operation : ResolvedOperation)
        (inst : Instance) (status : Nat),
      server.openapi.matchOperation request.method request.path = some matched →
      server.mockFor libraries matched request = .ok mock →
      runtime.Pins (request.resolution matched mock) entry operation inst status →
      PinsStatusOnly rules mock
        (ScenarioRuntime.storeOutcome inst.store operation (request.resolution matched mock)).2
        (fallbackHandler libraries server (some runtime) request).2 status) ∧
    (fallbackHandler sampleLibraries rosterServer (some rosterRuntime) removeRequest).2 =
      .mocked { mockedUser with status := 204 } := by
  have answered : (fallbackHandler sampleLibraries rosterServer (some rosterRuntime)
      removeRequest).2 = .mocked { mockedUser with status := 204 } := by decide
  have pins : rosterRuntime.Pins (removeRequest.resolution ⟨documented "DELETE", ∅⟩ mockedUser)
      roster removeUser rosterSession 204 := by
    constructor
    · exact ⟨⟨rfl, rfl, rfl, _, rfl⟩, by decide⟩
    · rfl
    · rfl
    · exact ⟨"204", ⟨none⟩, rfl, rfl, by decide⟩
  refine ⟨?_, answered⟩
  intro pinned
  obtain ⟨given, plain, same, deleted, _, body⟩ := pinned ⟨fun _ => true, fun _ => true⟩
    sampleLibraries rosterServer rosterRuntime removeRequest ⟨documented "DELETE", ∅⟩ mockedUser
      roster removeUser rosterSession 204 rfl rfl pins
  cases same.symm.trans answered
  cases deleted
  revert body
  decide

end SpecMock.Runtime
