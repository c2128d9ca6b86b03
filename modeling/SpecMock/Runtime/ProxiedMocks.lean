import SpecMock.Library.Utf8
import SpecMock.Runtime.WireAnswers

/-!
# A proxy in front of a mock

The upstream of a proxy may be a mock of the same document.  The proxy turns
away what the mock would turn away, hands the rest on without the credentials
of the client, and judges the answers by the document as they arrive: not every
answer arrives with its body.  Where the document reads no header that is
changed on the way, the mock goes through the states it would go through alone,
and its clients get its answers, but for those that break the document.
-/

namespace SpecMock.Runtime

open SpecMock.Library SpecMock.Core

/-! ## What arrives -/

/-- Whether an answer with a status to a request with a method has a body on the wire. -/
def carriesBody (method : String) (status : Nat) : Bool :=
  method != "HEAD" && !(method == "CONNECT" && status / 100 == 2) &&
    status / 100 != 1 && status != 204 && status != 304

namespace HttpAnswer

def bytes (answer : HttpAnswer) : List UInt8 := Utf8.encode answer.body.toList

def wireHeaders (answer : HttpAnswer) : Headers :=
  answer.headers.map fun header => (header.1, some header.2)

/-- The bytes that arrive at a client that used the method. -/
def delivered (method : String) (answer : HttpAnswer) : List UInt8 :=
  if carriesBody method answer.status then answer.bytes else []

end HttpAnswer

/-- Headers about the transfer of a message, which are not the server's alone. -/
def transferHeaders : List String :=
  ["connection", "content-encoding", "content-length", "keep-alive", "te", "trailer",
    "transfer-encoding", "upgrade"]

namespace Served

def status : Served → Nat
  | rendered answer => answer.status
  | relayed status _ _ => status

def headers : Served → Headers
  | rendered answer => answer.wireHeaders
  | relayed _ headers _ => headers

def bytes : Served → List UInt8
  | rendered answer => answer.bytes
  | relayed _ _ body => body

/-- The answer as a client that used the method gets it. -/
def sent (method : String) (served : Served) : UpstreamResponse where
  status := served.status
  headers := served.headers
  body := .ok (if carriesBody method served.status then served.bytes else [])

/-- A final answer that is no redirect and says nothing about its transfer. -/
def Plain (served : Served) : Prop :=
  (served.status / 100 = 2 ∨ 400 ≤ served.status) ∧
    ∀ header ∈ served.headers, header.1 ∉ transferHeaders

instance (served : Served) : Decidable served.Plain :=
  inferInstanceAs (Decidable (_ ∧ ∀ header ∈ served.headers, _))

end Served

def isUnreserved (char : Char) : Bool := char.isAlphanum || decide (char ∈ ['-', '.', '_', '~'])

/-- The path and the query stand in a URL as they are: nothing in them is escaped or resolved. -/
def RawRequest.isPlain (request : RawRequest) : Bool :=
  request.path.toList.head? == some '/' &&
    request.path.toList.all (fun char => isUnreserved char || char == '/') &&
    (Text.pieces '/' request.path).all (fun segment => segment != "." && segment != "..") &&
    request.query.all fun query =>
      query.toList.all fun char => isUnreserved char || decide (char ∈ ['&', '=', '+', '%'])

theorem RawRequest.not_mem_of_isPlain {request : RawRequest} (plain : request.isPlain = true) :
    '?' ∉ request.path.toList := by
  intro member
  simp only [RawRequest.isPlain, Bool.and_eq_true] at plain
  have spelled := List.all_eq_true.mp plain.1.1.2 '?' member
  exact absurd spelled (by decide)

namespace Upstream

variable (upstream : Upstream) (added : Headers)

/-- The URL that paths are appended to. -/
def base : String :=
  String.ofList (upstream.url.toList.rdropWhile fun char => char == '/')

/-- The scheme, the host and the port of the URL. -/
def origin : String :=
  let scheme := upstream.url.toList.takeWhile fun char => char != ':'
  let authority := (upstream.url.toList.drop (scheme.length + 3)).takeWhile fun char =>
    decide (char ∉ ['/', '?', '#'])
  String.ofList (scheme ++ "://".toList ++ authority)

/--
A request as a server at the address gets it, with the headers that the HTTP
client adds.  What it makes of a path or a query that is not plain is left open.
-/
def received (sent : UpstreamRequest) : Option RawRequest :=
  ((Text.stripPrefix upstream.origin sent.url).map fun target =>
    match Text.splitOnce '?' target with
    | some (path, query) => ⟨sent.method, path, some query, sent.headers ++ added, sent.body⟩
    | none => ⟨sent.method, target, none, sent.headers ++ added, sent.body⟩).filter
      RawRequest.isPlain

/-- A request that was handed on, as it arrives. -/
def arriving (request : RawRequest) : RawRequest :=
  { request with headers := (upstream.forwarded request).headers ++ added }

/--
A server answers at the address; what is sent elsewhere goes there.  What the
HTTP client makes of an answer that is not plain is left open too.
-/
def answering (answer : RawRequest → Served) : Upstream :=
  { upstream with
    send := fun sent =>
      match upstream.received added sent with
      | some request =>
          if (answer request).Plain then .ok ((answer request).sent request.method)
          else upstream.send sent
      | none => upstream.send sent }

/-- What is handed on depends on the address alone. -/
theorem forwarded_answering (answer : RawRequest → Served) (request : RawRequest) :
    (upstream.answering added answer).forwarded request = upstream.forwarded request := by
  unfold answering forwarded hostHeader
  rfl

/-- Nothing follows the host and the port of an upstream that is a server as a whole. -/
theorem received_forwarded (whole : upstream.base = upstream.origin) {request : RawRequest}
    (plain : request.isPlain = true) :
    upstream.received added (upstream.forwarded request) =
      some (upstream.arriving added request) := by
  have undivided := request.not_mem_of_isPlain plain
  have arrives : (upstream.arriving added request).isPlain = true := plain
  cases asked : request.query with
  | none =>
      have url : (upstream.forwarded request).url = upstream.origin ++ request.path := by
        rw [forwarded, asked, ← whole]
        exact String.append_empty
      rw [received, Text.stripPrefix_eq_some_iff.mpr url, Option.map_some,
        Text.splitOnce_undivided undivided]
      rw [arriving, asked] at arrives ⊢
      exact Option.filter_eq_some_iff.mpr ⟨rfl, arrives⟩
  | some query =>
      have url : (upstream.forwarded request).url =
          upstream.origin ++ (request.path ++ String.singleton '?' ++ query) := by
        rw [forwarded, asked, ← whole]
        simp only [String.append_assoc]
        rfl
      rw [received, Text.stripPrefix_eq_some_iff.mpr url, Option.map_some,
        Text.splitOnce_append undivided query]
      rw [arriving, asked] at arrives ⊢
      exact Option.filter_eq_some_iff.mpr ⟨rfl, arrives⟩

end Upstream

/-! ## Headers that are kept -/

theorem toLower_twice (char : Char) : char.toLower.toLower = char.toLower := by
  unfold Char.toLower
  split
  next capital =>
    refine dif_neg fun again => ?_
    have code : char.toNat = char.val.toNat := rfl
    have low : 65 ≤ char.val.toNat := by simpa [UInt32.le_iff_toNat_le] using capital.1
    have high : char.val.toNat ≤ 90 := by simpa [UInt32.le_iff_toNat_le] using capital.2
    have still := again.2
    simp [UInt32.le_iff_toNat_le] at still
    omega
  next other => rfl

theorem asciiLowercase_twice (name : String) :
    asciiLowercase (asciiLowercase name) = asciiLowercase name := by
  rw [asciiLowercase, asciiLowercase, String.toList_ofList, List.map_map]
  exact congrArg String.ofList
    (List.map_congr_left fun char _ => toLower_twice char)

/-- The names of the headers that are left out or added on the way. -/
def alteredHeaders (added : Headers) : List String := unforwardedHeaders ++ added.map Prod.fst

section Kept

variable (upstream : Upstream) (added : Headers) (request : RawRequest)

theorem hostHeader_names : ∀ header ∈ upstream.hostHeader, header.1 = "host" := by
  unfold Upstream.hostHeader
  split
  · exact nofun
  · exact fun header member => congrArg Prod.fst (List.mem_singleton.mp member)

variable {added} {name : String}

/-- A header that is handed on under its name, which is in lower case. -/
structure HandedOn (added : Headers) (name : String) : Prop where
  lower : asciiLowercase name = name
  kept : name ∉ alteredHeaders added

theorem HandedOn.forwarded (handed : HandedOn added name) : name ∉ unforwardedHeaders :=
  fun member => handed.kept (List.mem_append_left _ member)

/-- The headers that come in on the way have other names. -/
theorem HandedOn.ne_new (handed : HandedOn added name) :
    ∀ header ∈ upstream.hostHeader ++ added, header.1 ≠ name := by
  rintro header member rfl
  rcases List.mem_append.mp member with host | new
  · refine handed.forwarded ?_
    rw [hostHeader_names upstream header host]
    exact List.mem_cons_self
  · exact handed.kept (List.mem_append_right _ (List.mem_map_of_mem new))

theorem get_arriving (handed : HandedOn added name) :
    (upstream.arriving added request).headers.get name = request.headers.get name := by
  change Headers.get ((_ ++ upstream.hostHeader) ++ added) name = _
  unfold Headers.get
  have others : (upstream.hostHeader ++ added).find? (fun header => header.1 == name) = none :=
    List.find?_eq_none.mpr fun header member found =>
      handed.ne_new upstream header member (eq_of_beq found)
  rw [List.append_assoc, List.find?_append, others, Option.or_none, List.find?_filter]
  congr 2
  funext header
  by_cases same : header.1 = name
  · simp [same, handed.lower, handed.forwarded]
  · simp [same]

theorem getAll_arriving (handed : HandedOn added name) :
    (upstream.arriving added request).headers.getAll name = request.headers.getAll name := by
  change Headers.getAll ((_ ++ upstream.hostHeader) ++ added) name = _
  unfold Headers.getAll
  have others : (upstream.hostHeader ++ added).filterMap
      (fun header => if header.1 = name then header.2 else none) = [] :=
    List.filterMap_eq_nil_iff.mpr fun header member =>
      if_neg (handed.ne_new upstream header member)
  rw [List.append_assoc, List.filterMap_append, others, List.append_nil, List.filterMap_filter]
  refine List.filterMap_congr fun header _ => ?_
  by_cases same : header.1 = name
  · simp [same, handed.lower, handed.forwarded]
  · simp [same]

/-- The headers that every request may be read by are not altered. -/
def ReadsStandard (added : Headers) : Prop :=
  ∀ name ∈ ["content-type", "prefer", "accept"], name ∉ alteredHeaders added

instance (added : Headers) : Decidable (ReadsStandard added) :=
  inferInstanceAs (Decidable (∀ name ∈ _, _))

variable (standard : ReadsStandard added)

include standard

theorem handedOn_contentType : HandedOn added "content-type" :=
  ⟨by decide, standard _ (by simp)⟩

theorem headerIsJson_arriving :
    headerIsJson (upstream.arriving added request).headers = headerIsJson request.headers := by
  rw [headerIsJson, headerIsJson, get_arriving upstream request (handedOn_contentType standard)]

theorem fromHeaders_arriving {κ : Type} (qualities : Qualities κ) :
    PreferDirectives.fromHeaders qualities (upstream.arriving added request).headers =
      PreferDirectives.fromHeaders qualities request.headers := by
  have prefers : HandedOn added "prefer" := ⟨by decide, standard _ (by simp)⟩
  have accepts : HandedOn added "accept" := ⟨by decide, standard _ (by simp)⟩
  rw [PreferDirectives.fromHeaders, PreferDirectives.fromHeaders, Headers.preferred,
    Headers.preferred, getAll_arriving upstream request prefers,
    get_arriving upstream request accepts]

theorem parseOptionalJsonBody_arriving (libraries : RequestLibraries) (should : Bool) :
    parseOptionalJsonBody libraries (upstream.arriving added request).headers request.body
        should =
      parseOptionalJsonBody libraries request.headers request.body should := by
  rw [parseOptionalJsonBody, parseOptionalJsonBody, headerIsJson_arriving upstream request standard]

omit standard

/-- The parameters of an operation are in no header that is altered. -/
def DeclaredOperation.ReadsHandedOn (added : Headers) (operation : DeclaredOperation) : Prop :=
  ∀ parameter ∈ operation.parameters, parameter.location = .header →
    asciiLowercase parameter.name ∉ alteredHeaders added

instance (operation : DeclaredOperation) : Decidable (operation.ReadsHandedOn added) :=
  inferInstanceAs (Decidable (∀ parameter ∈ operation.parameters, _))

theorem issues_arriving (libraries : RequestLibraries) {parameter : ParameterSpec}
    (params : PathParams) (elsewhere : parameter.location = .header →
      asciiLowercase parameter.name ∉ alteredHeaders added) :
    parameter.issues libraries params request.query (upstream.arriving added request).headers =
      parameter.issues libraries params request.query request.headers := by
  unfold ParameterSpec.issues
  cases location : parameter.location with
  | path => rfl
  | query => rfl
  | header =>
      have handed : HandedOn added (asciiLowercase parameter.name) :=
        ⟨asciiLowercase_twice _, elsewhere location⟩
      dsimp only
      rw [get_arriving upstream request handed]

theorem validateRequest_arriving (libraries : RequestLibraries) {operation : DeclaredOperation}
    (unaltered : operation.ReadsHandedOn added) (params : PathParams) (json : Option Value)
    (present : Bool) :
    operation.validateRequest libraries params request.query
        (upstream.arriving added request).headers json present =
      operation.validateRequest libraries params request.query request.headers json present := by
  unfold DeclaredOperation.validateRequest
  congr 2
  exact List.flatMap_congr fun parameter member =>
    issues_arriving upstream request libraries params (unaltered parameter member)

end Kept

theorem mem_of_matchDeclared {operations : List DeclaredOperation} {method path : String}
    {operation : DeclaredOperation} {params : PathParams}
    (found : HttpFallback.matchDeclared operations method path = some (operation, params)) :
    operation ∈ operations ∧ operation.method = method := by
  unfold HttpFallback.matchDeclared at found
  rcases matchRoute_cases (operations.map DeclaredOperation.toOperationSpec) method path with
    ⟨missed, _⟩ | ⟨index, spec, serves, route⟩
  · rw [missed] at found
    cases found
  · rw [route] at found
    obtain ⟨listed, indexed, same⟩ := Option.map_eq_some_iff.mp found
    cases same
    have declared := serves.declared
    rw [List.getElem?_map, indexed] at declared
    exact ⟨List.mem_of_getElem? indexed,
      (congrArg OperationSpec.method (Option.some.inj declared)).trans serves.asked⟩

namespace HttpFallback

theorem mem_of_accept {libraries : Libraries} {reading : RequestLibraries}
    {fallback : HttpFallback} {request : RawRequest} {operation : DeclaredOperation}
    {accepted : HttpRequest}
    (passed : fallback.accept libraries reading request = .ok (operation, accepted)) :
    operation.method = request.method ∧
      ∃ operations, fallback.openapi = some operations ∧ operation ∈ operations := by
  unfold accept at passed
  split at passed
  · cases passed
  split at passed
  · cases passed
  next operations document =>
    split at passed
    · cases passed
    next found params routed =>
      dsimp only at passed
      split at passed
      · cases passed
      split at passed
      · cases passed
      split at passed
      · cases passed
        obtain ⟨member, asked⟩ := mem_of_matchDeclared routed
        exact ⟨asked, operations, document, member⟩
      · cases passed

variable (libraries : Libraries) (reading : RequestLibraries) (rules : HeaderRules)
  (mock : HttpFallback) {added : Headers}

/-- The document is read by no header that is altered on the way. -/
structure ReadsHandedOn (added : Headers) : Prop where
  standard : ReadsStandard added
  parameters : ∀ operations, mock.openapi = some operations →
    ∀ operation ∈ operations, operation.ReadsHandedOn added

variable {mock}

/-- What arrives is accepted as what was sent. -/
theorem accept_arriving (unaltered : mock.ReadsHandedOn added) (upstream : Upstream)
    (request : RawRequest) :
    mock.accept libraries reading (upstream.arriving added request) =
      mock.accept libraries reading request := by
  have bodies : (upstream.arriving added request).body = request.body := rfl
  unfold accept
  rw [bodies]
  cases document : mock.openapi with
  | none => rfl
  | some operations =>
      cases routed : matchDeclared operations request.method request.path with
      | none =>
          have unrouted : matchDeclared operations (upstream.arriving added request).method
            (upstream.arriving added request).path = none := routed
          dsimp only
          rw [unrouted, routed]
      | some found =>
          obtain ⟨operation, params⟩ := found
          have alike : matchDeclared operations (upstream.arriving added request).method
            (upstream.arriving added request).path = some (operation, params) := routed
          have quiet := unaltered.parameters operations document operation
            (mem_of_matchDeclared routed).1
          have queries : (upstream.arriving added request).query = request.query := rfl
          dsimp only
          rw [alike, routed]
          dsimp only
          rw [get_arriving upstream request (handedOn_contentType unaltered.standard),
            parseOptionalJsonBody_arriving upstream request unaltered.standard,
            fromHeaders_arriving upstream request unaltered.standard, queries]
          simp only [validateRequest_arriving upstream request reading quiet]
          rfl

/-- A mock does with what arrives what it does with what was sent. -/
theorem serve_arriving (unaltered : mock.ReadsHandedOn added) (alone : mock.proxied = false)
    (upstream : Upstream) (scenarios : Option ScenarioRuntime) (request : RawRequest) :
    mock.serve libraries reading rules upstream scenarios (upstream.arriving added request) =
      mock.serve libraries reading rules upstream scenarios request := by
  unfold serve
  rw [accept_arriving libraries reading unaltered, alone]
  rfl

end HttpFallback

/-! ## Answers that break the document -/

/-- A JSON answer that arrives without a value that is valid under the schema for its status. -/
structure Breaks (reading : RequestLibraries) (operation : OperationSpec) (method : String)
    (answer : HttpAnswer) : Prop where
  json : headerIsJson answer.wireHeaders = true
  judged : ∃ schema, operation.responseSchemaForStatus answer.status = some schema ∧
    ∀ value, reading.fromSlice (answer.delivered method) = .ok value →
      reading.validateInstance schema value ≠ .ok []

section Judged

variable {reading : RequestLibraries}

theorem judgeJson_passed {schema value : Value} {response : UpstreamResponse} {bytes : List UInt8}
    (read : reading.fromSlice bytes = .ok value)
    (valid : reading.validateInstance schema value = .ok []) :
    judgeJson reading schema response bytes = .passed response.status response.headers bytes := by
  rw [judgeJson, read]
  dsimp only
  rw [valid]

theorem judgeJson_refused {schema : Value} (response : UpstreamResponse) {bytes : List UInt8}
    (invalid : ∀ value, reading.fromSlice bytes = .ok value →
      reading.validateInstance schema value ≠ .ok []) :
    ∃ issues, issues ≠ [] ∧ judgeJson reading schema response bytes = .refused 502 issues := by
  unfold judgeJson
  cases read : reading.fromSlice bytes with
  | error error => exact ⟨_, List.cons_ne_nil _ _, rfl⟩
  | ok value =>
      dsimp only
      cases checked : reading.validateInstance schema value with
      | error error => exact ⟨_, List.cons_ne_nil _ _, rfl⟩
      | ok issues =>
          cases issues with
          | nil => exact absurd checked (invalid value read)
          | cons issue others => exact ⟨_, List.cons_ne_nil _ _, rfl⟩

variable (reading) in
/-- Exactly the answers that break the document are held back. -/
theorem judgeResponse_sent (operation : OperationSpec) (method : String) (answer : HttpAnswer) :
    let arrived := (Served.rendered answer).sent method
    (¬ Breaks reading operation method answer →
      judgeResponse reading operation arrived (answer.delivered method) =
        .passed answer.status answer.wireHeaders (answer.delivered method)) ∧
    (Breaks reading operation method answer → ∃ issues, issues ≠ [] ∧
      judgeResponse reading operation arrived (answer.delivered method) = .refused 502 issues) := by
  intro arrived
  constructor
  · intro whole
    unfold judgeResponse
    split
    · rfl
    next schema declared =>
      split
      next json =>
        by_cases valid : ∃ value, reading.fromSlice (answer.delivered method) = .ok value ∧
          reading.validateInstance schema value = .ok []
        · obtain ⟨value, read, valid⟩ := valid
          exact judgeJson_passed read valid
        · exact absurd ⟨json, schema, declared, fun value read clean =>
            valid ⟨value, read, clean⟩⟩ whole
      · rfl
  · rintro ⟨json, schema, declared, invalid⟩
    obtain ⟨issues, some, refused⟩ := judgeJson_refused arrived invalid
    refine ⟨issues, some, ?_⟩
    have found : operation.responseSchemaForStatus arrived.status = Option.some schema := declared
    rw [judgeResponse, found]
    dsimp only
    exact (if_pos json).trans refused

/-- The proxy finds nothing wrong with a problem. -/
theorem not_breaks_problemResponse (operation : OperationSpec) (method : String)
    (problem : ProblemDetails) :
    ¬ Breaks reading operation method (problemResponse problem) := by
  intro broken
  have json : headerIsJson [("content-type", some "application/problem+json")] = true :=
    broken.json
  exact absurd json (by decide)

end Judged

/-! ## The proxy and the mock -/

namespace HttpFallback

variable (libraries : Libraries) (reading : RequestLibraries) (rules : HeaderRules)
  (mock : HttpFallback) (upstream : Upstream) (added : Headers)

/-- A request by way of a proxy of the same document, whose upstream is the mock. -/
def behindProxy (scenarios : Option ScenarioRuntime) (request : RawRequest) :
    Option ScenarioRuntime × Served :=
  let proxy := { mock with proxied := true }
  let fronting := upstream.answering added fun got =>
    (mock.serve libraries reading rules upstream scenarios got).2
  (match (proxy.handle libraries reading none request).2,
      upstream.received added (upstream.forwarded request) with
    | .forwarded, some got => (mock.serve libraries reading rules upstream scenarios got).1
    | _, _ => scenarios,
    (proxy.serve libraries reading rules fronting none request).2)

/-- The answer to an accepted request breaks the document. -/
def Withheld (request : RawRequest) (served : Served) : Prop :=
  ∃ operation accepted answer, mock.accept libraries reading request = .ok (operation, accepted) ∧
    served = .rendered answer ∧ Breaks reading operation.toOperationSpec request.method answer

/-- How the proxy hands on what the mock serves, if it is plain. -/
structure HandsOn (request : RawRequest) (served got : Served) : Prop where
  same : served.Plain → ¬ mock.Withheld libraries reading request served →
    got.sent request.method = served.sent request.method
  /-- Only mocked responses are held back. -/
  broken : served.Plain → mock.Withheld libraries reading request served →
    (∃ mocked, served = .rendered (buildMockResponse rules mocked)) ∧
      ∃ issues, issues ≠ [] ∧ got = .rendered (errorResponse 502 issues)

variable {mock upstream added}

/-- An accepted request is answered by the handler. -/
theorem serve_of_accept (alone : mock.proxied = false) {scenarios : Option ScenarioRuntime}
    {request : RawRequest} {operation : DeclaredOperation} {accepted : HttpRequest}
    (passed : mock.accept libraries reading request = .ok (operation, accepted)) :
    mock.serve libraries reading rules upstream scenarios request =
      ((fallbackHandler libraries mock.server scenarios accepted).1,
        .rendered (renderResponse rules
          (fallbackHandler libraries mock.server scenarios accepted).2)) := by
  unfold serve
  rw [passed, alone]
  rfl

/-- Only a mocked response breaks the document. -/
theorem mocked_of_breaks {operation : OperationSpec} {method : String} {response : HttpResponse}
    (broken : Breaks reading operation method (renderResponse rules response)) :
    ∃ mocked, response = .mocked mocked := by
  cases response with
  | mocked mocked => exact ⟨mocked, rfl⟩
  | unmocked error => exact absurd broken (not_breaks_problemResponse operation _ error.problem)
  | refused failure => exact absurd broken (not_breaks_problemResponse operation _ failure.problem)

/-- What is passed on arrives as what it was passed on from. -/
theorem sent_passed (method : String) (answer : HttpAnswer) :
    (ProxyReply.passed answer.status answer.wireHeaders (answer.delivered method)).served.sent
        method = (Served.rendered answer).sent method := by
  have kept : (if carriesBody method answer.status then answer.delivered method else []) =
      if carriesBody method answer.status then answer.bytes else [] := by
    unfold HttpAnswer.delivered
    split <;> rfl
  exact congrArg (fun body => (⟨answer.status, answer.wireHeaders, .ok body⟩ : UpstreamResponse))
    kept

variable (unaltered : mock.ReadsHandedOn added) (alone : mock.proxied = false)
  (whole : upstream.base = upstream.origin)

include unaltered alone whole

/-- The answer of the mock reaches the proxy. -/
theorem arrives_answering (scenarios : Option ScenarioRuntime) {request : RawRequest}
    (plain : request.isPlain = true) {answer : HttpAnswer}
    (answered : (mock.serve libraries reading rules upstream scenarios request).2 =
      .rendered answer) (sendable : (Served.rendered answer).Plain) :
    Arrives (upstream.answering added fun got =>
      (mock.serve libraries reading rules upstream scenarios got).2) request
        ((Served.rendered answer).sent request.method) (answer.delivered request.method) := by
  refine ⟨?_, rfl⟩
  rw [Upstream.forwarded_answering, Upstream.answering]
  dsimp only
  rw [upstream.received_forwarded added whole plain]
  dsimp only
  rw [serve_arriving libraries reading rules unaltered alone, answered, if_pos sendable]
  rfl

omit unaltered alone whole in
/-- A request that the document rejects is rejected by the proxy. -/
theorem behindProxy_of_error {scenarios : Option ScenarioRuntime} {request : RawRequest}
    {rejection : Rejection} (refused : mock.accept libraries reading request = .error rejection) :
    mock.behindProxy libraries reading rules upstream added scenarios request =
      (scenarios, .rendered (problemResponse rejection.details)) := by
  have proxied : ({ mock with proxied := true } : HttpFallback).accept libraries reading request =
      .error rejection := refused
  unfold behindProxy handle serve
  dsimp only
  rw [proxied]

/-- The mock behind the proxy moves as it does alone. -/
theorem state_behindProxy {scenarios : Option ScenarioRuntime} {request : RawRequest}
    (plain : request.isPlain = true) {operation : DeclaredOperation} {accepted : HttpRequest}
    (passed : mock.accept libraries reading request = .ok (operation, accepted)) :
    (mock.behindProxy libraries reading rules upstream added scenarios request).1 =
      (mock.serve libraries reading rules upstream scenarios request).1 := by
  have proxied : ({ mock with proxied := true } : HttpFallback).accept libraries reading request =
      .ok (operation, accepted) := passed
  unfold behindProxy handle
  dsimp only
  rw [proxied]
  dsimp only
  rw [if_pos rfl, upstream.received_forwarded added whole plain]
  dsimp only
  rw [serve_arriving libraries reading rules unaltered alone]

/-- The proxy judges what arrives of the answer. -/
theorem behindProxy_of_answered {scenarios : Option ScenarioRuntime} {request : RawRequest}
    (plain : request.isPlain = true) {operation : DeclaredOperation} {accepted : HttpRequest}
    (passed : mock.accept libraries reading request = .ok (operation, accepted))
    {answer : HttpAnswer}
    (answered : (mock.serve libraries reading rules upstream scenarios request).2 =
      .rendered answer) (sendable : (Served.rendered answer).Plain) :
    (mock.behindProxy libraries reading rules upstream added scenarios request).2 =
      (judgeResponse reading operation.toOperationSpec
        ((Served.rendered answer).sent request.method) (answer.delivered request.method)).served := by
  have proxied : ({ mock with proxied := true } : HttpFallback).accept libraries reading request =
      .ok (operation, accepted) := passed
  have arrives := arrives_answering libraries reading rules unaltered alone whole scenarios
    plain answered sendable
  rw [← proxyRequest_of_arrives reading operation.toOperationSpec arrives]
  unfold behindProxy
  dsimp only
  generalize upstream.answering added _ = fronting
  unfold serve
  rw [proxied]
  rfl

/-- One request by way of the proxy. -/
theorem behindProxy_handsOn (scenarios : Option ScenarioRuntime) {request : RawRequest}
    (plain : request.isPlain = true) :
    (mock.behindProxy libraries reading rules upstream added scenarios request).1 =
        (mock.serve libraries reading rules upstream scenarios request).1 ∧
      mock.HandsOn libraries reading rules request
        (mock.serve libraries reading rules upstream scenarios request).2
        (mock.behindProxy libraries reading rules upstream added scenarios request).2 := by
  cases passed : mock.accept libraries reading request with
  | error rejection =>
      have direct : mock.serve libraries reading rules upstream scenarios request =
          (scenarios, .rendered (problemResponse rejection.details)) := by
        rw [serve, passed]
      rw [direct, behindProxy_of_error libraries reading rules passed]
      refine ⟨rfl, ⟨fun _ _ => rfl, ?_⟩⟩
      rintro _ ⟨operation, accepted, answer, impossible, _⟩
      exact nomatch passed.symm.trans impossible
  | ok found =>
      obtain ⟨operation, accepted⟩ := found
      obtain ⟨response, answered⟩ : ∃ response,
          (mock.serve libraries reading rules upstream scenarios request).2 =
            .rendered (renderResponse rules response) :=
        ⟨_, by rw [serve_of_accept libraries reading rules alone passed]⟩
      have through := behindProxy_of_answered libraries reading rules unaltered alone whole plain
        passed answered
      obtain ⟨kept, broken⟩ := judgeResponse_sent reading operation.toOperationSpec
        request.method (renderResponse rules response)
      refine ⟨state_behindProxy libraries reading rules unaltered alone whole plain passed, ?_⟩
      rw [answered]
      constructor
      · intro sendable unwithheld
        have unbroken : ¬ Breaks reading operation.toOperationSpec request.method
            (renderResponse rules response) :=
          fun breaks => unwithheld ⟨operation, accepted, _, passed, rfl, breaks⟩
        rw [through sendable, kept unbroken]
        exact sent_passed request.method (renderResponse rules response)
      · rintro sendable ⟨_, _, answer, other, same, breaks⟩
        obtain ⟨rfl, rfl⟩ := Prod.mk.inj (Except.ok.inj (passed.symm.trans other))
        obtain rfl := Served.rendered.inj same
        obtain ⟨mocked, mocks⟩ := mocked_of_breaks reading rules breaks
        obtain ⟨issues, some, refused⟩ := broken breaks
        rw [through sendable, refused]
        exact ⟨⟨mocked, by rw [mocks, renderResponse]⟩, issues, some, rfl⟩

end HttpFallback

/-- Successes are declared by their range, errors by default. -/
def listPets : DeclaredOperation where
  method := "GET"
  pathTemplate := "/pets"
  responses := [
    ⟨"2XX", [⟨"application/json", some (.object [("required", .array [.string "name"])]),
      some (.object [("name", .string "Rex")]), ∅⟩], ∅⟩,
    ⟨"default", [⟨"application/json", some (.object [("required", .array [.string "error"])]),
      none, ∅⟩], ∅⟩]
  parameters := []
  requestBodySchema := none
  requestBodyRequired := false
  requestBodyMediaTypes := []

/-- Libraries that read one text and check for one required member. -/
def petReading : RequestLibraries where
  fromSlice bytes :=
    if bytes = Utf8.encode "\x7b\"name\":\"Rex\"\x7d".toList then
      .ok (.object [("name", .string "Rex")])
    else .error "expected value"
  formPairs _ := []
  parseFloat _ := none
  validateInstance schema value :=
    match schema.get "required" with
    | some (.array [.string name]) =>
        if (value.get name).isSome then .ok []
        else .ok [⟨"", "/required", "required", "\"" ++ name ++ "\" is a required property"⟩]
    | _ => .ok []

def petMock : HttpFallback := ⟨42#64, some [listPets], 1024, false⟩

end SpecMock.Runtime
