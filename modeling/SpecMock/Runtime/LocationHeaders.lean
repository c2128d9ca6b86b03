import SpecMock.Runtime.PathIdentifiers

/-!
# The Location of a created resource

A declared `Location` header is the path template of the create itself, bound
like the template of a collection and rendered before the store is asked.  It
leads to the created resource when the path of the create already names it; a
create that posts to a collection only names the collection.
-/

namespace SpecMock.Runtime

open SpecMock.Library SpecMock.Core ScenarioRuntime

theorem substituteChars_eq (params : PathParams) (fuel : Nat) (rendered rest : List Char) :
    substituteChars params fuel rendered rest = rendered ++ bindChars params fuel rest := by
  induction fuel generalizing rendered rest with
  | zero => rfl
  | succ fuel ih =>
      unfold substituteChars bindChars
      cases opened : rest.dropWhile fun char => char != '{' with
      | nil =>
          have whole : rest.takeWhile (fun char => char != '{') = rest := by
            have parts := List.takeWhile_append_dropWhile (p := fun char => char != '{') (l := rest)
            rwa [opened, List.append_nil] at parts
          simp [whole]
      | cons brace inside =>
          have shape : brace = '{' := by
            have stops := List.head?_dropWhile_not (fun char => char != '{') rest
            rw [opened] at stops
            simpa using stops
          subst shape
          dsimp only
          cases inside.dropWhile fun char => char != '}' with
          | nil => simp
          | cons closing after =>
              dsimp only
              unfold boundText
              cases params.lookup (String.ofList (inside.takeWhile fun char => char != '}')) with
              | none => simp [ih]
              | some value => simp [ih]

/-- A `Location` is the template bound like that of a collection. -/
theorem substitutePathParams_eq (template : String) (params : PathParams) :
    substitutePathParams template params = bindNamespace template params := by
  rw [substitutePathParams, substituteChars_eq, List.nil_append, bindNamespace]

/-- The `Location` headers of a response. -/
def HttpResponse.locations : HttpResponse → List String
  | .mocked response =>
      (response.headers.filter fun header => asciiLowercase header.1 == "location").map Prod.snd
  | _ => []

/-- A request that has created a resource in the session it is about. -/
structure FiledCreate (libraries : Libraries) (server : HttpServer) (runtime : ScenarioRuntime)
    (request : HttpRequest) where
  matched : MatchedOperation
  routed : server.openapi.matchOperation request.method request.path = some matched
  mock : MockHttpResponse
  mocked : server.mockFor libraries matched request = .ok mock
  entry : ScenarioEntry
  known : runtime.entryOf (runtime.sessionOf request.prefer).1 = some entry
  operation : ResolvedOperation
  catalogued : runtime.catalogued request.method matched = some operation
  key : StoreKey
  value : Value
  filed : runtime.filedBy (runtime.sessionOf request.prefer)
    (request.call matched mock, (runtime.exec (request.call matched mock)).2) = some (key, value)

/-- A declared read of the resource that a parameter of its path names. -/
structure DeclaredRead (runtime : ScenarioRuntime) where
  declared : OperationSpec
  operation : ResolvedOperation
  catalogued : runtime.byRequest.lookup (requestKey "GET" declared.pathTemplate) = some operation
  spec : StoreSpec
  stored : operation.store = some spec
  reading : spec.action = .read
  parameter : String
  key : spec.key.map keyParameter = some parameter

/-- The parameters that the template of the read binds in a path. -/
def DeclaredRead.binds {runtime : ScenarioRuntime} (read : DeclaredRead runtime) (path : String) :
    PathParams :=
  bindSegments (parseSegments read.declared.pathTemplate) (splitPath path) ∅

namespace FiledCreate

variable {libraries : Libraries} {server : HttpServer} {runtime : ScenarioRuntime}
  {request : HttpRequest}

/-- The path of the create as its own template has it. -/
def boundPath (create : FiledCreate libraries server runtime request) : String :=
  bindNamespace create.matched.operation.pathTemplate create.matched.pathParams

/-- The instance that attends the create, live or fresh. -/
def attending (create : FiledCreate libraries server runtime request) : Instance :=
  (runtime.view (runtime.sessionOf request.prefer)).getD (runtime.freshInstance create.entry)

/-- The state that the create leads to. -/
def reached (create : FiledCreate libraries server runtime request) : State :=
  (ScenarioEntry.machine create.entry).stateAfter create.attending.state create.operation.name

end FiledCreate

/--
A request is routed to the read with its parameter bound to the identifier of
the created resource, addresses that resource and is answered with it.
-/
structure LeadsTo {runtime : ScenarioRuntime} (libraries : Libraries) (server : HttpServer)
    (after : ScenarioRuntime) (read : DeclaredRead runtime) (key : StoreKey) (value : Value)
    (get : HttpRequest) : Prop where
  reaches : ∃ found, server.openapi.matchOperation "GET" get.path = some found ∧
    found.operation = read.declared ∧ found.pathParams.lookup read.parameter = some key.id ∧
    storeKeyOf read.spec found.pathParams get.json .null = some key
  answered : ∃ mock, (fallbackHandler libraries server (some after) get).2 = .mocked mock ∧
    mock.body = some value

/--
The path of the create names the resource for the read: it is one of the read,
whose parameter there is the identifier and whose collection there is that of
the resource; and after the create the read is legal and serves what is stored.
-/
structure NamedByItsPath {libraries : Libraries} {server : HttpServer} {runtime : ScenarioRuntime}
    {request : HttpRequest} (create : FiledCreate libraries server runtime request)
    (read : DeclaredRead runtime) (get : HttpRequest) : Prop where
  served : ∃ index, Serves server.openapi.operations "GET" create.boundPath index read.declared
  bound : (read.binds create.boundPath).lookup read.parameter = some create.key.id
  shared : bindNamespace read.spec.resource (read.binds create.boundPath) = create.key.ns
  legal : (ScenarioEntry.machine create.entry).allows create.reached read.operation.name = true
  mocked : ∃ mock,
    server.mockFor libraries ⟨read.declared, read.binds create.boundPath⟩ get = .ok mock
  unmasked : ∀ status spec,
    chosenOverride (ScenarioEntry.machine create.entry) create.reached read.operation =
      some (status, spec) → spec.body = none ∨ spec.body = some create.value

section Create

variable {libraries : Libraries} {server : HttpServer} {runtime after : ScenarioRuntime}
  {request : HttpRequest} {response : HttpResponse}

/-- Resolving a mocked response does not touch its headers. -/
theorem locations_resolvedResponse {mock : MockHttpResponse} {answer : Resolution}
    {location : String} (emitted : location ∈ (resolvedResponse mock answer).locations) :
    ∃ header ∈ mock.headers, asciiLowercase header.1 = "location" ∧ header.2 = location := by
  cases answer with
  | failed failure => cases emitted
  | ungoverned | body | empty | forced =>
      obtain ⟨header, kept, rfl⟩ := List.mem_map.mp emitted
      obtain ⟨member, named⟩ := List.mem_filter.mp kept
      exact ⟨header, member, eq_of_beq named, rfl⟩

/-- Every `Location` of a create is its own path, as its template has it. -/
theorem FiledCreate.location_eq (create : FiledCreate libraries server runtime request)
    (handled : fallbackHandler libraries server (some runtime) request = (some after, response))
    {location : String} (emitted : location ∈ response.locations) :
    location = create.boundPath := by
  obtain ⟨answer, _, executed⟩ := fallbackHandler_exec runtime create.routed create.mocked
  cases executed.symm.trans handled
  obtain ⟨header, member, named, rfl⟩ := locations_resolvedResponse emitted
  have mocked := create.mocked
  unfold HttpServer.mockFor at mocked
  cases produced : create.matched.operation.mockResponse libraries
    (server.seedOf request.method request.path) request.prefer with
  | error error =>
      rw [produced] at mocked
      cases mocked
  | ok mock =>
      rw [produced] at mocked
      have rendered : create.mock.headers = renderLocationHeader mock.headers
          create.matched.operation.pathTemplate create.matched.pathParams := by
        rw [← Except.ok.inj mocked]
      rw [rendered] at member
      obtain ⟨written, _, same⟩ := List.mem_map.mp member
      by_cases location : asciiLowercase written.1 = "location"
      · rw [if_pos location] at same
        rw [← same]
        exact substitutePathParams_eq _ _
      · rw [if_neg location] at same
        rw [← same] at named
        exact absurd named location

/-- The request reaches the store, so that it is governed. -/
theorem FiledCreate.reaches (create : FiledCreate libraries server runtime request) :
    (request.resolution create.matched create.mock).preferCode = false := by
  obtain ⟨spec, asked, performed, _⟩ := filedBy_eq_some create.filed
  have made : (request.call create.matched create.mock).request? =
    some (request.resolution create.matched create.mock) := rfl
  rcases runtime.passesBy_or_reaches (request.resolution create.matched create.mock) with
    passes | ⟨honest, _⟩
  · have unperformed := performs_of_passesBy made passes
      (runtime.exec (request.call create.matched create.mock)).2
    cases unperformed.symm.trans performed
  · exact honest

/-- A create that has filed a resource was attended, and was not refused. -/
theorem FiledCreate.attended (create : FiledCreate libraries server runtime request) :
    let attended := attendInstance (ScenarioEntry.machine create.entry) create.operation
      (request.resolution create.matched create.mock) (request.prefer.session.getD defaultSession)
      create.attending
    (runtime.exec (request.call create.matched create.mock)).1.view
        (runtime.sessionOf request.prefer) = some attended.1 ∧
      attended.2.isFailed = false := by
  intro attended
  obtain ⟨spec, asked, performed, _⟩ := filedBy_eq_some create.filed
  have made : (request.call create.matched create.mock).request? =
    some (request.resolution create.matched create.mock) := rfl
  have performs := performs_of_reaches made create.reaches create.known create.catalogued
  rcases runtime.exec_request_cases made with ⟨_, executed⟩ | ⟨_, answered, updated⟩
  · rw [executed] at performed
    cases (performs _).symm.trans performed
  · rw [attend_of_reaches create.reaches create.known create.catalogued] at answered updated
    refine ⟨?_, ?_⟩
    · exact (congrFun updated _).trans (Function.update_self _ _ _)
    · rw [answered] at performed
      have served := (performs _).symm.trans performed
      by_contra failed
      rw [if_neg fun both => failed both.2] at served
      cases served

/-- The created resource is in the session, which is in the state that the create leads to. -/
theorem FiledCreate.leaves (create : FiledCreate libraries server runtime request)
    (handled : fallbackHandler libraries server (some runtime) request = (some after, response)) :
    runtime.SameSetup after ∧ ∃ left, after.view (runtime.sessionOf request.prefer) = some left ∧
      left.state = create.reached ∧ left.store.read create.key = some create.value := by
  obtain ⟨answer, answered, executed⟩ := fallbackHandler_exec runtime create.routed create.mocked
  cases executed.symm.trans handled
  refine ⟨runtime.exec_sameSetup _, ?_⟩
  obtain ⟨left, live, stored⟩ := read_of_filed (SameSetup.refl runtime) create.filed
  refine ⟨left, live, ?_, stored⟩
  obtain ⟨view, accepted⟩ := create.attended
  cases live.symm.trans view
  unfold attendInstance at accepted ⊢
  split at accepted
  · cases accepted
  next legal =>
    rw [if_neg legal]
    exact congrArg Instance.state (serve_instance _ _ _ _)

end Create

section Read

variable {libraries : Libraries} {server : HttpServer} {runtime after : ScenarioRuntime}
  {request get : HttpRequest} {response : HttpResponse}

/-- A read that finds its parameter bound addresses its value in the bound collection. -/
theorem DeclaredRead.storeKeyOf_eq (read : DeclaredRead runtime) {params : PathParams}
    {id : String} (bound : params.lookup read.parameter = some id) (json : Option Value)
    (response : Value) :
    storeKeyOf read.spec params json response =
      some ⟨bindNamespace read.spec.resource params, id⟩ := by
  obtain ⟨name, key, parameter⟩ := Option.map_eq_some_iff.mp read.key
  rw [← parameter] at bound
  simp only [storeKeyOf, read.reading, resolveKey, key, Option.bind_some, bound, Option.map_some]

/-- A stored value is served unless an override has another body. -/
theorem served_iff {machine : Scenario} {state : State} {operation : ResolvedOperation}
    {mock : MockHttpResponse} {value : Value} :
    (∃ served, resolvedResponse mock (finalOutcome machine state operation (.body value)) =
        .mocked served ∧ served.body = some value) ↔
      ∀ status spec, chosenOverride machine state operation = some (status, spec) →
        spec.body = none ∨ spec.body = some value := by
  unfold finalOutcome
  cases chosen : chosenOverride machine state operation with
  | none => simp [resolvedResponse]
  | some entry =>
      obtain ⟨status, spec⟩ := entry
      cases body : spec.body with
      | none => simp [resolvedResponse, applyOverride, body]
      | some other => simp [resolvedResponse, applyOverride, body]

/-- A read of a stored resource finds it. -/
theorem found_of_applies {store : Store} {spec : StoreSpec} {params : PathParams}
    {json : Option Value} {body value : Value} {key : StoreKey}
    {result : Store × Except StatefulFailure Resolution} (reading : spec.action = .read)
    (addressed : storeKeyOf spec params json body = some key)
    (stored : store.read key = some value)
    (applied : Applies store spec params json body .followKeySource result) :
    outcomeOf result.2 = .body value := by
  cases applied with
  | found _ keyed present =>
      cases keyed.symm.trans addressed
      cases present.symm.trans stored
      rfl
  | absent _ keyed missing =>
      cases keyed.symm.trans addressed
      cases missing.symm.trans stored
  | unaddressed _ missing => cases missing.symm.trans addressed
  | listed action | created action | full action | taken action | updated action
    | deleted action => cases action.symm.trans reading

/-- A request that is not legal in the state of its session is refused. -/
theorem Asks.refused {start : ScenarioRuntime} {pair : String × String} {method path : String}
    {matched : MatchedOperation} {mock : MockHttpResponse} {entry : ScenarioEntry}
    {operation : ResolvedOperation} {inst : Instance}
    (asks : Asks start pair method path request) (same : start.SameSetup runtime)
    (routed : server.openapi.matchOperation method path = some matched)
    (mocked : server.mockFor libraries matched request = .ok mock)
    (known : start.entryOf pair.1 = some entry)
    (catalogued : start.catalogued method matched = some operation)
    (live : runtime.view pair = some inst)
    (illegal : (ScenarioEntry.machine entry).allows inst.state operation.name = false) :
    ∃ failure, (fallbackHandler libraries server (some runtime) request).2 = .refused failure := by
  have given := given_of_view ((same.entryOf_eq _).trans known) live
  obtain ⟨after, handled, _⟩ := asks.attended same routed mocked known catalogued given
  rw [handled, attendInstance, if_pos illegal]
  exact ⟨_, rfl⟩

/-- Where the read finds its parameter bound, it is answered from the store if it is legal. -/
theorem answered_iff (create : FiledCreate libraries server runtime request)
    (handled : fallbackHandler libraries server (some runtime) request = (some after, response))
    (read : DeclaredRead runtime)
    (gets : Asks runtime (runtime.sessionOf request.prefer) "GET" create.boundPath get)
    (routed : server.openapi.matchOperation "GET" create.boundPath =
      some ⟨read.declared, read.binds create.boundPath⟩)
    (addressed : ∀ json body, storeKeyOf read.spec (read.binds create.boundPath) json body =
      some create.key) :
    (∃ mock, (fallbackHandler libraries server (some after) get).2 = .mocked mock ∧
        mock.body = some create.value) ↔
      (ScenarioEntry.machine create.entry).allows create.reached read.operation.name = true ∧
        (∃ mock, server.mockFor libraries ⟨read.declared, read.binds create.boundPath⟩ get =
          .ok mock) ∧
        ∀ status spec, chosenOverride (ScenarioEntry.machine create.entry) create.reached
            read.operation = some (status, spec) →
          spec.body = none ∨ spec.body = some create.value := by
  obtain ⟨setup, left, live, moved, stored⟩ := create.leaves handled
  have given := given_of_view ((setup.entryOf_eq _).trans create.known) live
  have asked : server.openapi.matchOperation get.method get.path =
      some ⟨read.declared, read.binds create.boundPath⟩ := by
    rw [gets.method, gets.path]
    exact routed
  cases mocked : server.mockFor libraries ⟨read.declared, read.binds create.boundPath⟩ get with
  | error error =>
      rw [fallbackHandler_of_error asked mocked]
      exact iff_of_false (by rintro ⟨_, ⟨⟩, _⟩) (by rintro ⟨_, ⟨_, ⟨⟩⟩, _⟩)
  | ok mock =>
      by_cases legal : (ScenarioEntry.machine create.entry).allows create.reached
        read.operation.name = true
      · rw [← moved] at legal ⊢
        obtain ⟨_, result, served, _, _, applied⟩ := gets.handled setup routed mocked create.known
          read.catalogued read.stored given legal
        have found : outcomeOf result.2 = .body create.value := by
          have keyed := addressed get.json (mock.body.getD .null)
          dsimp only at applied
          generalize read.binds create.boundPath = params at keyed applied
          exact found_of_applies read.reading keyed stored applied
        rw [served, found, served_iff]
        exact ⟨fun unmasked => ⟨legal, ⟨mock, rfl⟩, unmasked⟩, fun holds => holds.2.2⟩
      · have illegal := (Bool.not_eq_true _).mp legal
        rw [← moved] at illegal
        obtain ⟨failure, refused⟩ := gets.refused setup routed mocked create.known read.catalogued
          live illegal
        rw [refused]
        exact iff_of_false (by rintro ⟨_, ⟨⟩, _⟩) fun holds => legal holds.1

end Read

/--
A `Location` that a create emits leads to the created resource exactly when the
path of the create names it.
-/
theorem location_names_created_iff {libraries : Libraries} {server : HttpServer}
    {runtime after : ScenarioRuntime} {request get : HttpRequest} {response : HttpResponse}
    (create : FiledCreate libraries server runtime request)
    (handled : fallbackHandler libraries server (some runtime) request = (some after, response))
    {location : String} (emitted : location ∈ response.locations) (read : DeclaredRead runtime)
    (gets : Asks runtime (runtime.sessionOf request.prefer) "GET" location get) :
    LeadsTo libraries server after read create.key create.value get ↔
      NamedByItsPath create read get := by
  obtain rfl := create.location_eq handled emitted
  constructor
  · rintro ⟨⟨found, routed, declared, bound, addressed⟩, answered⟩
    rw [gets.path] at routed
    obtain ⟨index, serves, params⟩ := OpenApiRuntime.matchOperation_eq_some.mp routed
    obtain ⟨operation, pathParams⟩ := found
    obtain rfl : operation = read.declared := declared
    change pathParams = read.binds create.boundPath at params
    rw [params] at routed bound addressed
    dsimp only at bound addressed
    have key := (read.storeKeyOf_eq bound get.json .null).symm.trans addressed
    have same : ∀ json body, storeKeyOf read.spec (read.binds create.boundPath) json body =
        some create.key := fun json body => (read.storeKeyOf_eq bound json body).trans key
    obtain ⟨legal, mocked, unmasked⟩ :=
      (answered_iff create handled read gets routed same).mp answered
    exact ⟨⟨index, serves⟩, bound, congrArg StoreKey.ns (Option.some.inj key), legal, mocked,
      unmasked⟩
  · rintro ⟨⟨index, serves⟩, bound, shared, legal, mocked, unmasked⟩
    have routed : server.openapi.matchOperation "GET" create.boundPath =
        some ⟨read.declared, read.binds create.boundPath⟩ := by
      refine OpenApiRuntime.matchOperation_eq_some.mpr ⟨index, serves, ?_⟩
      simp only [DeclaredRead.binds]
    have same : ∀ json body, storeKeyOf read.spec (read.binds create.boundPath) json body =
        some create.key := by
      intro json body
      rw [read.storeKeyOf_eq bound, shared]
    refine ⟨?_, (answered_iff create handled read gets routed same).mpr ⟨legal, mocked, unmasked⟩⟩
    rw [gets.path]
    generalize read.binds create.boundPath = params at routed bound same
    exact ⟨⟨read.declared, params⟩, routed, rfl, bound, same get.json .null⟩

/-- A user is created by its collection or at its own path, and read at its path. -/
def directorySidecar : ValidatedSidecar where
  sidecar := ⟨1, OrderedMap.collect
    [("createUser", ⟨⟨"POST", "/users"⟩,
        some ⟨"/users", .create, none, some ⟨.request, "/id"⟩⟩, ∅⟩),
      ("putUser", ⟨⟨"PUT", "/users/\x7bid\x7d"⟩,
        some ⟨"/users", .create, none, some ⟨.request, "/id"⟩⟩, ∅⟩),
      ("readUser", ⟨⟨"GET", "/users/\x7bid\x7d"⟩,
        some ⟨"/users", .read, some "\x7bid\x7d", none⟩, ∅⟩)],
    [⟨"directory", "new", [], OrderedMap.collect
      [("new", OrderedMap.collect
        [("createUser", ⟨some "member", ∅⟩), ("putUser", ⟨some "member", ∅⟩)]),
      ("member", OrderedMap.collect [("readUser", ⟨none, ∅⟩)])]⟩]⟩
  supported := rfl
  valid := by decide

/-- The response of a create that declares a `Location`. -/
def createdResponse : ResponseSpec :=
  ⟨"201", userContent, OrderedMap.collect [("Location", ⟨none, some (.string "elsewhere")⟩)]⟩

def putOperation : OperationSpec := ⟨"PUT", "/users/\x7bid\x7d", [createdResponse]⟩

def directoryServer : HttpServer :=
  ⟨42#64, .of [⟨"POST", "/users", [createdResponse]⟩, putOperation, readUser]⟩

def directory : ScenarioRuntime := ScenarioRuntime.new directorySidecar 8 8

/-- The runtime after a request to the empty directory. -/
def directoryAfter (request : HttpRequest) : ScenarioRuntime :=
  (fallbackHandler sampleLibraries directoryServer (some directory) request).1.getD directory

/-- A user is read by the identifier in the path. -/
def memberSpec : StoreSpec := ⟨"/users", .read, some "\x7bid\x7d", none⟩

def memberRead : ResolvedOperation := ⟨"readUser", some memberSpec, ∅⟩

def directoryRead : DeclaredRead directory where
  declared := readUser
  operation := memberRead
  catalogued := rfl
  spec := memberSpec
  stored := rfl
  reading := rfl
  parameter := "id"
  key := by decide

/--
The `Location` of a user who is posted to the collection is the collection, where
no operation reads.
-/
theorem posted_user_not_located :
    let created := fallbackHandler sampleLibraries directoryServer (some directory)
      (postUser "ada")
    let body := Value.object [("id", .string "ada")]
    created.2.succeeded = true ∧ created.2.locations = ["/users"] ∧
      valueAt created.1 ("directory", defaultSession) ⟨"/users", "ada"⟩ = some body ∧
      ¬ LeadsTo sampleLibraries directoryServer (directoryAfter (postUser "ada")) directoryRead
        ⟨"/users", "ada"⟩ body (getUser "/users") := by
  intro created body
  refine ⟨by decide, by decide, by decide, ?_⟩
  rintro ⟨⟨found, routed, _⟩, _⟩
  have missed : (directoryServer.openapi.matchOperation "GET" "/users").isNone = true := by
    decide
  change directoryServer.openapi.matchOperation "GET" "/users" = _ at routed
  rw [routed] at missed
  cases missed

/-- A user who is created at the path of the identifier. -/
def putUser (id : String) : HttpRequest :=
  ⟨"PUT", "/users/" ++ id, .none, some (.object [("id", .string id)])⟩

def putAda : FiledCreate sampleLibraries directoryServer directory (putUser "ada") where
  matched := ⟨putOperation, (∅ : PathParams).insert "id" "ada"⟩
  routed := rfl
  mock := ⟨201, some "application/json", some (.object [("type", .string "object")]),
    some (.object []), [("Location", "/users/ada")]⟩
  mocked := by rfl
  entry := ⟨"directory", "new", [], OrderedMap.collect
      [("new", OrderedMap.collect
        [("createUser", ⟨some "member", ∅⟩), ("putUser", ⟨some "member", ∅⟩)]),
      ("member", OrderedMap.collect [("readUser", ⟨none, ∅⟩)])]⟩
  known := rfl
  operation := ⟨"putUser", some ⟨"/users", .create, none, some ⟨.request, "/id"⟩⟩, ∅⟩
  catalogued := rfl
  key := ⟨"/users", "ada"⟩
  value := .object [("id", .string "ada")]
  filed := by decide

theorem location_names_created_iff_put :
    LeadsTo sampleLibraries directoryServer (directoryAfter (putUser "ada")) directoryRead
      ⟨"/users", "ada"⟩ (.object [("id", .string "ada")]) (getUser "/users/ada") := by
  have handled : fallbackHandler sampleLibraries directoryServer (some directory)
      (putUser "ada") = (some (directoryAfter (putUser "ada")), _) := rfl
  have emitted : "/users/ada" ∈ (fallbackHandler sampleLibraries directoryServer (some directory)
      (putUser "ada")).2.locations := by
    decide
  have gets : Asks directory (directory.sessionOf (putUser "ada").prefer) "GET" "/users/ada"
    (getUser "/users/ada") := ⟨rfl, rfl, ⟨rfl, rfl⟩, rfl⟩
  refine (location_names_created_iff putAda handled emitted directoryRead gets).mpr ?_
  constructor
  case served =>
    have path : putAda.boundPath = "/users/ada" := by decide
    have routed : directoryServer.openapi.matchOperation "GET" "/users/ada" =
      some ⟨readUser, (∅ : PathParams).insert "id" "ada"⟩ := rfl
    obtain ⟨index, serves, _⟩ := OpenApiRuntime.matchOperation_eq_some.mp routed
    rw [path]
    exact ⟨index, serves⟩
  case bound => decide
  case shared => decide
  case legal => decide
  case mocked => exact ⟨_, rfl⟩
  case unmasked =>
    intro status spec chosen
    have unchosen : (chosenOverride (ScenarioEntry.machine putAda.entry) putAda.reached
      directoryRead.operation).isNone = true := by decide
    rw [chosen] at unchosen
    cases unchosen

end SpecMock.Runtime
