import SpecMock.Library.Percent
import SpecMock.Runtime.Coherence
import SpecMock.Runtime.Handler

/-!
# Identifiers in paths

A create may take the identifier of a resource from its body; later requests
name the resource in their path, with the identifier percent encoded.  The
router binds a parameter to the segment as it is written, so the resource is
addressed again exactly when its identifier is its own encoding.
-/

namespace SpecMock.Runtime

open SpecMock.Library SpecMock.Core ScenarioRuntime

/-- A create that takes its identifier from the request. -/
structure FilingCreate (server : HttpServer) (runtime : ScenarioRuntime) (path : String)
    extends CataloguedCreate server runtime path where
  inRequest : source.location = .request

/-- An encoded identifier as a segment of a path. -/
def encodedSegment (id : String) (nonempty : id ≠ "") : SegmentText where
  text := Percent.encode id
  nonempty := Percent.encode_ne_empty nonempty
  undivided := by
    intro member
    rcases Percent.mem_encode member with plain | percent
    · cases plain
    · cases percent

/-- A catalogued operation on the resource that a parameter of its path names. -/
structure KeyedOperation (server : HttpServer) (runtime : ScenarioRuntime) where
  index : Nat
  declared : OperationSpec
  located : server.openapi.operations[index]? = some declared
  operation : ResolvedOperation
  catalogued : runtime.byRequest.lookup (requestKey declared.method declared.pathTemplate) =
    some operation
  spec : StoreSpec
  stored : operation.store = some spec
  action : spec.action = .read ∨ spec.action = .update ∨ spec.action = .delete
  parameter : String
  key : spec.key.map keyParameter = some parameter
  inPath : .param parameter ∈ parseSegments declared.pathTemplate

section Filing

variable {libraries : Libraries} {server : HttpServer} {start : ScenarioRuntime} {path : String}
  {pair : String × String} {entry : ScenarioEntry} {request : HttpRequest}

theorem FilingCreate.fromRequest (create : FilingCreate server start path) :
    create.spec.keyFrom = some ⟨.request, create.source.pointer⟩ := by
  rw [create.sourced, ← create.inRequest]

/-- A create that succeeds has filed its body under the identifier in it. -/
theorem FilingCreate.filed (create : FilingCreate server start path)
    (known : start.entryOf pair.1 = some entry) (posts : Asks start pair "POST" path request)
    {body : Value} {id : String} (sent : request.json = some body)
    (named : pointerValue body create.source.pointer = some id) {opened : ScenarioRuntime}
    {response : HttpResponse}
    (handled : fallbackHandler libraries server (some start) request = (some opened, response))
    (succeeded : response.succeeded = true) :
    start.SameSetup opened ∧
      ∃ inst, opened.view pair = some inst ∧ inst.store.read ⟨create.ns, id⟩ = some body := by
  obtain ⟨method, rfl, governed, rfl⟩ := posts
  have routed : server.openapi.matchOperation request.method request.path =
      some create.matched := by
    rw [method]
    exact create.routed
  cases mocked : server.mockFor libraries create.matched request with
  | error error =>
      rw [fallbackHandler_of_error routed mocked] at handled
      cases handled
      cases succeeded
  | ok mock =>
      obtain ⟨answer, answered, executed⟩ := fallbackHandler_exec start routed mocked
      cases executed.symm.trans handled
      rw [resolvedResponse_succeeded, Bool.not_eq_true'] at succeeded
      let asked := request.resolution create.matched mock
      have made : (request.call create.matched mock).request? = some asked := rfl
      have honest : asked.preferCode = false := by
        simp [asked, HttpRequest.resolution, governed.code, governed.dynamic]
      have catalogued : start.operationOf asked = some create.operation := by
        rw [← create.catalogued, ← method]
        rfl
      have performed := performs_of_reaches made honest known catalogued answer
      rw [if_pos ⟨rfl, succeeded⟩, create.stored] at performed
      have addressed : addressedKey create.spec asked = some ⟨create.ns, id⟩ := by
        simp [addressedKey, storeKeyOf, create.creating, resolveCreateKey, create.fromRequest,
          asked, HttpRequest.resolution, sent, named, CataloguedCreate.ns]
      have value : createdValue create.spec asked.request asked.response asked.createValue id =
          body := by
        simp [createdValue, create.fromRequest, asked, HttpRequest.resolution, sent]
      have filed : start.filedBy (start.sessionOf request.prefer)
          (request.call create.matched mock, (start.exec (request.call create.matched mock)).2) =
            some (⟨create.ns, id⟩, body) := by
        rw [answered, filedBy]
        change start.performs (start.sessionOf request.prefer) _ = _ at performed
        simp only [performed, Option.map_some, create.creating, if_true, addressed, value]
      exact ⟨start.exec_sameSetup _, read_of_filed (SameSetup.refl start) filed⟩

end Filing

namespace KeyedOperation

variable {server : HttpServer} {start : ScenarioRuntime}
  (keyed : KeyedOperation server start) (values : String → SegmentText)

/-- The path of a request, the parameters of the template replaced by values. -/
def path : String := renderPath values keyed.declared.pathTemplate

/-- The operation with the parameters that the router binds for the path. -/
def matched : MatchedOperation where
  operation := keyed.declared
  pathParams :=
    bindSegments (parseSegments keyed.declared.pathTemplate) (splitPath (keyed.path values)) ∅

/-- The key that the path addresses. -/
def target : StoreKey :=
  ⟨bindNamespace keyed.spec.resource (keyed.matched values).pathParams,
    (values keyed.parameter).text⟩

/-- The values of a path that names the resource `id`. -/
def naming (id : String) (nonempty : id ≠ "") : String → SegmentText :=
  Function.update values keyed.parameter (encodedSegment id nonempty)

/-- The router leads the path to the operation. -/
def RoutedTo : Prop :=
  (matchRoute server.openapi.router keyed.declared.method (keyed.path values)).map
    RouteMatch.operationIndex = some keyed.index

/-- No other operation takes precedence for the path. -/
def IsPreferred : Prop :=
  Preferred server.openapi.operations keyed.declared.method (keyed.path values) keyed.index
    keyed.declared

variable {keyed values}

theorem serves (preferred : keyed.IsPreferred values) :
    Serves server.openapi.operations keyed.declared.method (keyed.path values) keyed.index
      keyed.declared :=
  ⟨keyed.located, rfl, matches_renderPath values _, preferred⟩

/-- The path always matches the template, so precedence alone decides where it leads. -/
theorem routedTo_iff : keyed.RoutedTo values ↔ keyed.IsPreferred values := by
  unfold RoutedTo
  rw [server.openapi.built]
  constructor
  · intro routed
    obtain ⟨found, route, index⟩ := Option.map_eq_some_iff.mp routed
    obtain ⟨operation, serves, _⟩ := serves_of_matchRoute route
    rw [index] at serves
    cases serves.declared.symm.trans keyed.located
    exact serves.preferred
  · intro preferred
    simp only [matchRoute_of_serves (serves preferred), Option.map_some]

theorem matchOperation_path (preferred : keyed.IsPreferred values) :
    server.openapi.matchOperation keyed.declared.method (keyed.path values) =
      some (keyed.matched values) := by
  refine OpenApiRuntime.matchOperation_eq_some.mpr ⟨keyed.index, serves preferred, ?_⟩
  simp only [matched]

/-- The identifier is the segment of the path as it is written. -/
theorem storeKeyOf_eq (json : Option Value) (response : Value) :
    storeKeyOf keyed.spec (keyed.matched values).pathParams json response =
      some (keyed.target values) := by
  have bound : (keyed.matched values).pathParams.lookup keyed.parameter =
      some (values keyed.parameter).text := by
    simp only [matched, path]
    exact lookup_renderPath values keyed.inPath
  have resolved : resolveKey keyed.spec (keyed.matched values).pathParams json response =
      some (values keyed.parameter).text := by
    obtain ⟨name, key, parameter⟩ := Option.map_eq_some_iff.mp keyed.key
    rw [← parameter] at bound ⊢
    simp only [resolveKey, key, Option.bind_some, bound]
  rcases keyed.action with action | action | action <;>
    simp only [storeKeyOf, action, resolved, Option.map_some, target]

/-- A path that names `id` addresses the key of its encoding. -/
theorem target_naming {id ns : String} {nonempty : id ≠ ""}
    (shared : bindNamespace keyed.spec.resource
      (keyed.matched (keyed.naming values id nonempty)).pathParams = ns) :
    keyed.target (keyed.naming values id nonempty) = ⟨ns, Percent.encode id⟩ := by
  rw [target, shared]
  simp [naming, encodedSegment]

end KeyedOperation

/-- The value stored under a key of a session, if there is one. -/
def valueAt (scenarios : Option ScenarioRuntime) (pair : String × String) (key : StoreKey) :
    Option Value :=
  scenarios.bind fun runtime => (runtime.view pair).bind fun inst => inst.store.read key

/--
A request acts on the resource `body` under `key`: a read is answered with it,
an update replaces it by the body of the request and a delete removes it.
-/
def ActsOn (libraries : Libraries) (server : HttpServer) (runtime : ScenarioRuntime)
    (pair : String × String) (action : StoreAction) (key : StoreKey) (body : Value)
    (request : HttpRequest) : Prop :=
  let handled := fallbackHandler libraries server (some runtime) request
  match action with
  | .read => ∃ mock, handled.2 = .mocked mock ∧ mock.body = some body
  | .update => handled.2.succeeded = true ∧
      valueAt handled.1 pair key = some (request.json.getD .null)
  | .delete => handled.2.succeeded = true ∧ valueAt handled.1 pair key = none
  | .create | .list => False

/--
Acting on another resource cannot be told from acting on `body`: the other one
has the same value, or the update leaves `body` as it is.
-/
def Indistinguishable (action : StoreAction) (other : Option Value) (body : Value)
    (json : Option Value) : Prop :=
  match action with
  | .read => other = some body
  | .update => other.isSome = true ∧ json.getD .null = body
  | .delete | .create | .list => False

/-- A request of a keyed operation is attended by a live instance. -/
structure KeyedOperation.Attended {server : HttpServer} {start : ScenarioRuntime}
    (libraries : Libraries) (keyed : KeyedOperation server start) (values : String → SegmentText)
    (runtime : ScenarioRuntime) (pair : String × String) (machine : Scenario) (inst : Instance)
    (request : HttpRequest) : Prop where
  asks : Asks start pair keyed.declared.method (keyed.path values) request
  mocked : ∃ mock, server.mockFor libraries (keyed.matched values) request = .ok mock
  live : runtime.view pair = some inst
  legal : machine.allows inst.state keyed.operation.name = true
  bodiless : keyed.spec.action = .read → BodilessOverride machine inst.state keyed.operation

section Acting

variable {libraries : Libraries} {server : HttpServer} {start runtime : ScenarioRuntime}
  {keyed : KeyedOperation server start} {values : String → SegmentText} {pair : String × String}
  {entry : ScenarioEntry} {inst : Instance} {request : HttpRequest}

/-- A request routed to a keyed operation does to the store what the operation declares. -/
theorem KeyedOperation.Attended.handled
    (attended : keyed.Attended libraries values runtime pair (ScenarioEntry.machine entry) inst
      request)
    (same : start.SameSetup runtime) (known : start.entryOf pair.1 = some entry)
    (preferred : keyed.IsPreferred values) :
    ∃ mock after result,
      fallbackHandler libraries server (some runtime) request =
        (some after, resolvedResponse mock (finalOutcome (ScenarioEntry.machine entry) inst.state
          keyed.operation (outcomeOf result.2))) ∧
      (∀ key, valueAt (some after) pair key = result.1.read key) ∧
      storeKeyOf keyed.spec (keyed.matched values).pathParams request.json (mock.body.getD .null) =
        some (keyed.target values) ∧
      Applies inst.store keyed.spec (keyed.matched values).pathParams request.json
        (mock.body.getD .null) .followKeySource result := by
  obtain ⟨asks, ⟨mock, mocked⟩, live, legal, _⟩ := attended
  have given := given_of_view ((same.entryOf_eq pair.1).trans known) live
  obtain ⟨after, result, handled, _, view, applied⟩ := asks.handled same
    (KeyedOperation.matchOperation_path preferred) mocked known keyed.catalogued keyed.stored given
    legal
  refine ⟨mock, after, result, handled, fun key => ?_, KeyedOperation.storeKeyOf_eq _ _, applied⟩
  simp only [valueAt, Option.bind_some, view]

/-- A request routed to a keyed operation acts on a stored resource when it addresses its key. -/
theorem KeyedOperation.Attended.actsOn_iff
    (attended : keyed.Attended libraries values runtime pair (ScenarioEntry.machine entry) inst
      request)
    (same : start.SameSetup runtime) (known : start.entryOf pair.1 = some entry)
    (preferred : keyed.IsPreferred values) {key : StoreKey} {body : Value}
    (stored : inst.store.read key = some body) :
    ActsOn libraries server runtime pair keyed.spec.action key body request ↔
      keyed.target values = key ∨
        Indistinguishable keyed.spec.action (inst.store.read (keyed.target values)) body
          request.json := by
  obtain ⟨mock, after, result, handled, left, keyedBy, applied⟩ :=
    attended.handled same known preferred
  have answered := finalOutcome_succeeded mock (ScenarioEntry.machine entry) inst.state
    keyed.operation
  unfold ActsOn Indistinguishable
  rw [handled]
  cases applied with
  | created action | full action | taken action | listed action =>
      rcases keyed.action with other | other | other <;> cases action.symm.trans other
  | unaddressed _ missing => cases missing.symm.trans keyedBy
  | @found _ value action addressed present =>
      cases addressed.symm.trans keyedBy
      have same : keyed.target values = key → value = body := by
        rintro rfl
        exact Option.some.inj (present.symm.trans stored)
      have served : (∃ served, resolvedResponse mock (finalOutcome (ScenarioEntry.machine entry)
          inst.state keyed.operation (.body value)) = .mocked served ∧ served.body = some body) ↔
            value = body := by
        rcases finalOutcome_body (attended.bodiless action) value with plain | ⟨status, forced⟩
        · simp [plain, resolvedResponse]
        · simp [forced, resolvedResponse]
      simp only [action, present, Option.some.injEq]
      exact served.trans ⟨.inr, fun alike => alike.elim same id⟩
  | absent action addressed missing =>
      cases addressed.symm.trans keyedBy
      have differs : keyed.target values ≠ key := by
        rintro rfl
        cases missing.symm.trans stored
      have refused : finalOutcome (ScenarioEntry.machine entry) inst.state keyed.operation
          (outcomeOf (.error (.resourceNotFound (keyed.target values).toText))) =
            .failed (.resourceNotFound (keyed.target values).toText) := rfl
      rcases action with action | action | action <;>
        simp [action, missing, differs, refused, resolvedResponse, HttpResponse.succeeded]
  | updated action addressed present =>
      cases addressed.symm.trans keyedBy
      have held : inst.store.entries.lookup key = some body := stored
      simp only [action, left, answered, Store.read, FiniteMap.lookup_insert_eq]
      by_cases same : key = keyed.target values
      · simp [same, outcomeOf, Resolution.isFailed]
      · have differs : keyed.target values ≠ key := Ne.symm same
        have other : (inst.store.entries.lookup (keyed.target values)).isSome = true := present
        simp [same, differs, held, other, outcomeOf, Resolution.isFailed, eq_comm]
  | deleted action addressed present removed =>
      cases addressed.symm.trans keyedBy
      have held : inst.store.entries.lookup key = some body := stored
      simp only [action, left, answered, Store.read, removed, FiniteMap.lookup_erase_eq]
      by_cases same : key = keyed.target values
      · simp [same, outcomeOf, Resolution.isFailed]
      · have differs : keyed.target values ≠ key := Ne.symm same
        simp [same, differs, held]

/--
After a create has filed a resource under the identifier in its body, and
whatever was called since without touching the resource, a request whose path
names it is routed to the keyed operation and acts on the resource exactly when
the router gives the operation precedence and the identifier is its own
encoding; or when acting on another resource makes no difference.
-/
theorem named_in_path_iff (libraries : Libraries) {path : String}
    (create : FilingCreate server start path) (known : start.entryOf pair.1 = some entry)
    {post : HttpRequest} (posts : Asks start pair "POST" path post) {body : Value} {id : String}
    (sent : post.json = some body) (named : pointerValue body create.source.pointer = some id)
    (nonempty : id ≠ "") {opened : ScenarioRuntime} {created : HttpResponse}
    (handled : fallbackHandler libraries server (some start) post = (some opened, created))
    (succeeded : created.succeeded = true) {between : List Call}
    (untouched : ∀ event ∈ trace exec opened between,
      ¬ Drops pair event.1 ∧ start.changedBy pair event ≠ some ⟨create.ns, id⟩)
    (keyed : KeyedOperation server start) (values : String → SegmentText)
    (shared : bindNamespace keyed.spec.resource
      (keyed.matched (keyed.naming values id nonempty)).pathParams = create.ns)
    (attended : keyed.Attended libraries (keyed.naming values id nonempty)
      (stateAfter exec opened between) pair (ScenarioEntry.machine entry) inst request) :
    (keyed.RoutedTo (keyed.naming values id nonempty) ∧
        ActsOn libraries server (stateAfter exec opened between) pair keyed.spec.action
          ⟨create.ns, id⟩ body request) ↔
      keyed.IsPreferred (keyed.naming values id nonempty) ∧
        ((∀ char ∈ id.toList, Percent.isUnreserved char = true) ∨
          Indistinguishable keyed.spec.action (inst.store.read ⟨create.ns, Percent.encode id⟩) body
            request.json) := by
  obtain ⟨setup, filed⟩ := create.filed known posts sent named handled succeeded
  obtain ⟨same, held, live, stored⟩ := read_of_untouched setup filed untouched
  cases live.symm.trans attended.live
  rw [KeyedOperation.routedTo_iff]
  apply and_congr_right
  intro preferred
  rw [attended.actsOn_iff same known preferred stored, KeyedOperation.target_naming shared]
  simp only [StoreKey.mk.injEq, true_and, ← Percent.encode_eq_self]

end Acting

/-- Users are any objects. -/
def userContent : List MediaTypeSpec :=
  [⟨"application/json", some (.object [("type", .string "object")]), none, ∅⟩]

def createUser : OperationSpec := ⟨"POST", "/users", [⟨"201", userContent, ∅⟩]⟩

def readUser : OperationSpec := ⟨"GET", "/users/\x7bid\x7d", [⟨"200", userContent, ∅⟩]⟩

def userServer : HttpServer := ⟨42#64, .of [createUser, readUser]⟩

def userScenarios : ScenarioRuntime := ScenarioRuntime.new signUpSidecar 8 8

def postUser (id : String) : HttpRequest :=
  ⟨"POST", "/users", .none, some (.object [("id", .string id)])⟩

def getUser (path : String) : HttpRequest := ⟨"GET", path, .none, none⟩

/-- The create of the sample. -/
def userCreate : FilingCreate userServer userScenarios "/users" where
  matched := ⟨createUser, ∅⟩
  routed := rfl
  operation := ⟨"createUser", some ⟨"/users", .create, none, some ⟨.request, "/id"⟩⟩, ∅⟩
  catalogued := rfl
  spec := ⟨"/users", .create, none, some ⟨.request, "/id"⟩⟩
  stored := rfl
  creating := rfl
  source := ⟨.request, "/id"⟩
  sourced := rfl
  inRequest := rfl

/-- The read of the sample. -/
def userRead : KeyedOperation userServer userScenarios where
  index := 1
  declared := readUser
  located := rfl
  operation := ⟨"readUser", some ⟨"/users", .read, some "\x7bid\x7d", none⟩, ∅⟩
  catalogued := rfl
  spec := ⟨"/users", .read, some "\x7bid\x7d", none⟩
  stored := rfl
  action := .inl rfl
  parameter := "id"
  key := by decide
  inPath := by decide

/-- The runtime after a user was posted. -/
def afterPost (id : String) : ScenarioRuntime :=
  (fallbackHandler sampleLibraries userServer (some userScenarios) (postUser id)).1.getD
    userScenarios

/-- The path of a user. -/
def userValues (id : String) (nonempty : id ≠ "") : String → SegmentText :=
  userRead.naming (fun _ => encodedSegment id nonempty) id nonempty

/--
A user with a space in the identifier is created, and a read of its path is
routed to the operation, but the encoded identifier is not found in the store.
-/
theorem spaced_user_not_found :
    let values := userValues "a b" (by decide)
    let body := Value.object [("id", .string "a b")]
    let created := fallbackHandler sampleLibraries userServer (some userScenarios) (postUser "a b")
    let request := getUser "/users/a%20b"
    created.2.succeeded = true ∧ (postUser "a b").json = some body ∧
      pointerValue body userCreate.source.pointer = some "a b" ∧
      valueAt created.1 ("signUp", defaultSession) ⟨"/users", "a b"⟩ = some body ∧
      userRead.path values = request.path ∧ userRead.RoutedTo values ∧
      (fallbackHandler sampleLibraries userServer created.1 request).2 =
        .refused (.resourceNotFound "/users/a%20b") ∧
      ¬ ActsOn sampleLibraries userServer (afterPost "a b") ("signUp", defaultSession) .read
        ⟨"/users", "a b"⟩ body request := by
  intro values body created request
  have refused : (fallbackHandler sampleLibraries userServer (some (afterPost "a b")) request).2 =
      .refused (.resourceNotFound "/users/a%20b") := by
    decide
  refine ⟨by decide, rfl, by decide, by decide, by decide, ?_, refused, ?_⟩
  · unfold KeyedOperation.RoutedTo
    decide
  · rintro ⟨mock, mocked, _⟩
    cases refused.symm.trans mocked

/-- A plain identifier is found again. -/
theorem named_in_path_iff_ada :
    userRead.RoutedTo (userValues "ada" (by decide)) ∧
      ActsOn sampleLibraries userServer (afterPost "ada") ("signUp", defaultSession) .read
        ⟨"/users", "ada"⟩ (.object [("id", .string "ada")]) (getUser "/users/ada") := by
  have live : ((afterPost "ada").view ("signUp", defaultSession)).map Instance.state =
      some ⟨"member"⟩ := by
    decide
  obtain ⟨inst, held, state⟩ := Option.map_eq_some_iff.mp live
  have legal : (ScenarioEntry.machine signUp).allows ⟨"member"⟩ "readUser" = true := by decide
  have bodiless : BodilessOverride (ScenarioEntry.machine signUp) ⟨"member"⟩
      userRead.operation := by
    intro status spec chosen
    have unchosen : none = some (status, spec) := chosen
    cases unchosen
  have known : userScenarios.entryOf "signUp" = some signUp := rfl
  have posts : Asks userScenarios ("signUp", defaultSession) "POST" "/users" (postUser "ada") :=
    ⟨rfl, rfl, ⟨rfl, rfl⟩, rfl⟩
  have named : pointerValue (.object [("id", .string "ada")]) userCreate.source.pointer =
      some "ada" := by
    decide
  have handled : fallbackHandler sampleLibraries userServer (some userScenarios) (postUser "ada") =
      (some (afterPost "ada"), _) := rfl
  have untouched : ∀ event ∈ trace exec (afterPost "ada") [],
      ¬ Drops ("signUp", defaultSession) event.1 ∧
        userScenarios.changedBy ("signUp", defaultSession) event ≠ some ⟨userCreate.ns, "ada"⟩ := by
    simp [trace]
  have attended : userRead.Attended sampleLibraries (userValues "ada" (by decide))
      (afterPost "ada") ("signUp", defaultSession) (ScenarioEntry.machine signUp) inst
      (getUser "/users/ada") :=
    ⟨⟨rfl, by decide, ⟨rfl, rfl⟩, rfl⟩, ⟨_, rfl⟩, held, state ▸ legal, fun _ => state ▸ bodiless⟩
  have preferred : userRead.IsPreferred (userValues "ada" (by decide)) := by
    apply KeyedOperation.routedTo_iff.mp
    unfold KeyedOperation.RoutedTo
    decide
  exact (named_in_path_iff sampleLibraries userCreate known posts rfl named (by decide) handled
    (by decide) untouched userRead _ (bindNamespace_of_plain _ (by decide)) attended).mpr
      ⟨preferred, .inl (Percent.encode_eq_self.mp (by decide))⟩

end SpecMock.Runtime
