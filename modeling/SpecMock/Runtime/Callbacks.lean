import SpecMock.Core.RefResolver
import SpecMock.Library.Interleaving
import SpecMock.Library.TemplatePieces
import SpecMock.Runtime.OpenApiDocument
import SpecMock.Runtime.UpstreamGuards
import SpecMock.Runtime.WireAnswers

/-!
# Callbacks

An operation that was answered with a mocked response calls back: the URL of
each declared callback is filled from the body of the request, what is no URL
to call is skipped, and each of the others is called by a task of its own.  A
URL is filled in one pass over the pieces of its expression, so nothing in the
body is read as an expression.
-/

namespace SpecMock.Runtime

open SpecMock.Library SpecMock.Core

/-- What stands for a token: the value in the body that it points to, or the token as it is. -/
def tokenText (requestBody : Option Value) (token : List Char) : List Char :=
  let pointed := (Text.stripPrefix "$request.body#" (String.ofList token)).bind fun pointerPath =>
    requestBody.bind fun body => resolvePointer body pointerPath
  match pointed with
  | some value => (value.asStr.getD value.toText).toList
  | none => Template.braced token

def resolveUrlChars (requestBody : Option Value) :
    Nat → List Char → List Char → Option (List Char)
  | 0, result, remaining => some (result ++ remaining)
  | fuel + 1, result, remaining =>
      match remaining.dropWhile fun char => char != '{' with
      | [] => some (result ++ remaining)
      | _ :: afterOpen =>
          let result := result ++ remaining.takeWhile fun char => char != '{'
          match afterOpen.dropWhile fun char => char != '}' with
          | [] => none
          | _ :: rest =>
              let token := afterOpen.takeWhile fun char => char != '}'
              resolveUrlChars requestBody fuel (result ++ tokenText requestBody token) rest

/-- The URL of an expression; an expression that is not closed has none, nor has an empty one. -/
def resolveCallbackUrl (expression : String) (requestBody : Option Value) : Option String :=
  match resolveUrlChars requestBody expression.toList.length [] expression.toList with
  | none | some [] => none
  | some url => some (String.ofList url)

/-- The last brace that is opened is closed. -/
def isClosed (pieces : List Template.Piece) : Bool :=
  pieces.all fun piece =>
    match piece with
    | .tail _ => false
    | _ => true

/-- A text is cut at the first occurrence of a sign. -/
theorem cut_append_cons {text : List Char} {sign : Char} (plain : sign ∉ text)
    (rest : List Char) :
    (text ++ sign :: rest).dropWhile (fun char => char != sign) = sign :: rest ∧
      (text ++ sign :: rest).takeWhile (fun char => char != sign) = text := by
  have differs : ∀ char ∈ text, (char != sign) = true := fun char member =>
    bne_iff_ne.mpr fun same => plain (same ▸ member)
  constructor
  · rw [List.dropWhile_append_of_pos differs, List.dropWhile_cons_of_neg (by simp)]
  · rw [List.takeWhile_append_of_pos differs, List.takeWhile_cons_of_neg (by simp),
      List.append_nil]

theorem dropWhile_of_not_mem {text : List Char} {sign : Char} (plain : sign ∉ text) :
    text.dropWhile (fun char => char != sign) = [] := by
  rw [List.dropWhile_eq_nil_iff]
  exact fun _ member => bne_iff_ne.mpr fun same => plain (same ▸ member)

/-- The loop fills the pieces, and gives up on a tail. -/
theorem resolveUrlChars_eq (requestBody : Option Value) {remaining : List Char}
    {pieces : List Template.Piece} (cut : Template.Tokenises remaining pieces) (fuel : Nat)
    (enough : remaining.length ≤ fuel) (result : List Char) :
    resolveUrlChars requestBody fuel result remaining =
      if isClosed pieces then
        some (result ++ Template.fillPieces (tokenText requestBody) pieces)
      else none := by
  induction cut generalizing fuel result with
  | @literal text plain =>
      cases fuel with
      | zero => simp [resolveUrlChars, isClosed, Template.fillPieces, Template.Piece.fill]
      | succ fuel =>
          rw [resolveUrlChars, dropWhile_of_not_mem plain]
          simp [isClosed, Template.fillPieces, Template.Piece.fill]
  | @tail text rest plain unclosed =>
      cases fuel with
      | zero => simp at enough
      | succ fuel =>
          obtain ⟨dropped, taken⟩ := cut_append_cons plain rest
          rw [resolveUrlChars, dropped]
          dsimp only
          rw [dropWhile_of_not_mem unclosed]
          rfl
  | @token text name rest pieces plain undivided further ih =>
      cases fuel with
      | zero => simp at enough
      | succ fuel =>
          obtain ⟨dropped, taken⟩ := cut_append_cons plain (name ++ '}' :: rest)
          obtain ⟨behind, inside⟩ := cut_append_cons undivided rest
          have left : rest.length ≤ fuel := by
            simp only [List.length_append, List.length_cons] at enough
            omega
          rw [resolveUrlChars, dropped]
          dsimp only
          rw [behind, taken]
          dsimp only
          rw [inside, ih fuel left]
          have same : isClosed (.literal text :: .token name :: pieces) = isClosed pieces := rfl
          rw [same]
          simp [Template.fillPieces, Template.Piece.fill]

/--
There is one way to cut an expression into pieces, and it has a URL exactly if
it is closed: its pieces in one pass, each token replaced by what it points to
in the body, unless that leaves nothing.
-/
theorem resolveCallbackUrl_eq_some_iff {expression : String} {requestBody : Option Value}
    {pieces : List Template.Piece} (cut : Template.Tokenises expression.toList pieces)
    {url : String} :
    resolveCallbackUrl expression requestBody = some url ↔
      isClosed pieces = true ∧ url ≠ "" ∧
        url = String.ofList (Template.fillPieces (tokenText requestBody) pieces) := by
  rw [resolveCallbackUrl, resolveUrlChars_eq requestBody cut _ (Nat.le_refl _), List.nil_append]
  by_cases closed : isClosed pieces = true
  · rw [if_pos closed]
    cases filled : Template.fillPieces (tokenText requestBody) pieces with
    | nil =>
        constructor
        · exact nofun
        · rintro ⟨_, nonempty, rfl⟩
          exact absurd rfl nonempty
    | cons char rest =>
        constructor
        · rintro ⟨⟩
          exact ⟨closed, by simp, rfl⟩
        · rintro ⟨_, _, rfl⟩
          rfl
  · rw [if_neg closed]
    constructor
    · exact nofun
    · exact fun ⟨also, _⟩ => absurd also closed

/-- A request that is sent to a callback, with a JSON body or with none. -/
structure CallbackRequest where
  method : String
  url : String
  body : Option Value

/-- The operation that a request is routed to, with its callbacks. -/
def matchLoaded (operations : List LoadedOperation) (method path : String) :
    Option (LoadedOperation × PathParams) :=
  let declared := operations.map LoadedOperation.toDeclaredOperation
  match matchRoute (buildRouter (declared.map DeclaredOperation.toOperationSpec)) method path with
  | none => none
  | some found => (operations[found.operationIndex]?).map fun operation =>
      (operation, found.pathParams)

/-- The task of a callback, before and after its request is sent. -/
inductive CallbackTask where
  | spawned (url method : String) (schema : Option Value)
  | done

section Sending

variable (libraries : Libraries) (urls : UrlLibraries) (reading : RequestLibraries)

def fireCallback (seed : BitVec 64) (url method : String) (schema : Option Value) :
    CallbackRequest :=
  ⟨method, url, schema.bind fun schema =>
    (Faker.generateJsonValue libraries.random schema seed).toOption⟩

/-- The task that is spawned for a callback; one without a URL to call has none. -/
def spawnCallback (requestBody : Option Value) (callback : CallbackSpec) : Option CallbackTask :=
  (resolveCallbackUrl callback.callbackUrlExpression requestBody).bind fun url =>
    if isValidCallbackUrl urls url then
      some (.spawned url callback.method callback.requestBodySchema)
    else none

namespace CallbackTask

/-- A task that is scheduled adds its request to those that were sent. -/
def next (seed : BitVec 64) : CallbackTask → List CallbackRequest →
    Option (CallbackTask × List CallbackRequest)
  | spawned url method schema, sent =>
      some (done, sent ++ [fireCallback libraries seed url method schema])
  | done, _ => none

/-- The request that a task has still to send. -/
def request (seed : BitVec 64) : CallbackTask → Option CallbackRequest
  | spawned url method schema => some (fireCallback libraries seed url method schema)
  | done => none

end CallbackTask

namespace HttpFallback

/-- The handler for the operations of a document. -/
def loading (fallback : HttpFallback) (operations : List LoadedOperation) : HttpFallback :=
  { fallback with openapi := some (operations.map LoadedOperation.toDeclaredOperation) }

/-- The tasks of a request's callbacks, spawned once its mocked response is built. -/
def callbacks (fallback : HttpFallback) (operations : List LoadedOperation)
    (scenarios : Option ScenarioRuntime) (request : RawRequest) : List CallbackTask :=
  let loaded := fallback.loading operations
  match (loaded.handle libraries reading scenarios request).2,
    loaded.accept libraries reading request with
  | .answered (.mocked _), .ok (_, accepted) =>
      match matchLoaded operations request.method request.path with
      | none => []
      | some (operation, _) => operation.callbacks.filterMap (spawnCallback urls accepted.json)
  | _, _ => []

end HttpFallback

end Sending

/--
A callback is called: its URL is its expression in one pass, and it is an HTTP
URL whose host is no address that the guard takes for private.
-/
structure Calls (libraries : Libraries) (urls : UrlLibraries) (seed : BitVec 64)
    (requestBody : Option Value) (callback : CallbackSpec) (sent : CallbackRequest) : Prop where
  method : sent.method = callback.method
  body : sent.body = callback.requestBodySchema.bind fun schema =>
    (Faker.generateJsonValue libraries.random schema seed).toOption
  filled : ∃ pieces, Template.Tokenises callback.callbackUrlExpression.toList pieces ∧
    isClosed pieces = true ∧ sent.url ≠ "" ∧
      sent.url = String.ofList (Template.fillPieces (tokenText requestBody) pieces)
  valid : ∃ parsed, urls.parseUrl sent.url = .ok parsed ∧ parsed.isHttp = true ∧
    parsed.isPrivate urls = false

section Sent

variable {libraries : Libraries} {urls : UrlLibraries} {reading : RequestLibraries}
  {seed : BitVec 64} {requestBody : Option Value} {callback : CallbackSpec}
  {sent : CallbackRequest}

theorem isValidCallbackUrl_iff {url : String} :
    isValidCallbackUrl urls url = true ↔
      ∃ parsed, urls.parseUrl url = .ok parsed ∧ parsed.isHttp = true ∧
        parsed.isPrivate urls = false := by
  unfold isValidCallbackUrl
  cases urls.parseUrl url with
  | error message => simp
  | ok parsed => simp

/-- The task of a callback is there to send what the callback calls for. -/
theorem request_of_spawnCallback :
    (spawnCallback urls requestBody callback).bind (CallbackTask.request libraries seed) =
        some sent ↔
      Calls libraries urls seed requestBody callback sent := by
  obtain ⟨pieces, cut⟩ := Template.exists_tokenises callback.callbackUrlExpression.toList
  unfold spawnCallback
  constructor
  · intro fired
    obtain ⟨task, spawned, fired⟩ := Option.bind_eq_some_iff.mp fired
    obtain ⟨url, resolved, spawned⟩ := Option.bind_eq_some_iff.mp spawned
    split at spawned
    next allowed =>
      cases spawned
      cases fired
      have filled := (resolveCallbackUrl_eq_some_iff cut).mp resolved
      exact ⟨rfl, rfl, ⟨pieces, cut, filled⟩, isValidCallbackUrl_iff.mp allowed⟩
    next => cases spawned
  · rintro ⟨method, body, ⟨others, also, filled⟩, valid⟩
    have resolved := (resolveCallbackUrl_eq_some_iff also).mpr filled
    have allowed := isValidCallbackUrl_iff.mpr valid
    have request : fireCallback libraries seed sent.url callback.method
        callback.requestBodySchema = sent := by
      unfold fireCallback
      rw [← method, ← body]
    rw [resolved, Option.bind_some, if_pos allowed, Option.bind_some, CallbackTask.request,
      request]

/-- A step takes a request from those that are still to be sent. -/
theorem sent_step {pool last : Pool (List CallbackRequest) CallbackTask} {index : Nat}
    (stepped : pool.step (CallbackTask.next libraries seed) index = some last) :
    (last.shared ++ last.collect (CallbackTask.request libraries seed)).Perm
      (pool.shared ++ pool.collect (CallbackTask.request libraries seed)) := by
  obtain ⟨task, after, shared, located, moved, rfl⟩ := Pool.step_cases stepped
  have exchanged := Pool.collect_set located shared after (CallbackTask.request libraries seed)
  cases task with
  | done => cases moved
  | spawned url method schema =>
      cases moved
      rw [CallbackTask.request, CallbackTask.request, Option.toList_some, Option.toList_none,
        List.append_nil] at exchanged
      rw [List.append_assoc]
      exact (List.perm_append_comm.trans exchanged).append_left _

/-- What was sent and what is still to be sent are together the requests of the tasks. -/
theorem sent_run {tasks : List CallbackTask} {last : Pool (List CallbackRequest) CallbackTask}
    (run : Pool.FreeRun (CallbackTask.next libraries seed) ⟨[], tasks⟩ last) :
    (last.shared ++ last.collect (CallbackTask.request libraries seed)).Perm
      (tasks.filterMap (CallbackTask.request libraries seed)) := by
  refine run.preserves (fun pool =>
    (pool.shared ++ pool.collect (CallbackTask.request libraries seed)).Perm
      (tasks.filterMap (CallbackTask.request libraries seed))) ?_ (.refl _)
  intro pool last index held _ stepped
  exact (sent_step stepped).trans held

/-- Where no task can move, all are done. -/
theorem collect_of_finished {pool : Pool (List CallbackRequest) CallbackTask}
    (finished : ∀ index, pool.step (CallbackTask.next libraries seed) index = none) :
    pool.collect (CallbackTask.request libraries seed) = [] := by
  refine List.filterMap_eq_nil_iff.mpr fun task member => ?_
  obtain ⟨index, located⟩ := List.mem_iff_getElem?.mp member
  cases task with
  | done => rfl
  | spawned url method schema =>
      have stuck := finished index
      unfold Pool.step at stuck
      rw [located] at stuck
      cases stuck

/-- What stands in front of the first brace of an expression stands in front of the URL. -/
theorem Calls.front (calls : Calls libraries urls seed requestBody callback sent) :
    (callback.callbackUrlExpression.toList.takeWhile fun char => char != '{') <+:
      sent.url.toList := by
  obtain ⟨pieces, cut, _, _, url⟩ := calls.filled
  rw [url, String.toList_ofList]
  rcases cut.shape with ⟨plain, rfl⟩ | ⟨text, rest, plain, _, shape, rfl⟩ |
    ⟨text, name, rest, behind, plain, _, _, shape, rfl⟩
  · have filled : Template.fillPieces (tokenText requestBody)
        [.literal callback.callbackUrlExpression.toList] =
          callback.callbackUrlExpression.toList := List.append_nil _
    rw [filled]
    exact List.takeWhile_prefix _
  · rw [shape, (cut_append_cons plain rest).2]
    exact List.prefix_append text _
  · rw [shape, (cut_append_cons plain _).2]
    exact List.prefix_append text _

/-- A request that passes is routed to one of the operations. -/
theorem matchDeclared_of_accept {fallback : HttpFallback} {request : RawRequest}
    {declared : DeclaredOperation} {accepted : HttpRequest} {operations : List DeclaredOperation}
    (document : fallback.openapi = some operations)
    (passed : fallback.accept libraries reading request = .ok (declared, accepted)) :
    ∃ params, HttpFallback.matchDeclared operations request.method request.path =
      some (declared, params) := by
  unfold HttpFallback.accept at passed
  rw [document] at passed
  split at passed
  · cases passed
  dsimp only at passed
  cases routed : HttpFallback.matchDeclared operations request.method request.path with
  | none =>
      rw [routed] at passed
      cases passed
  | some found =>
      obtain ⟨operation, params⟩ := found
      rw [routed] at passed
      dsimp only at passed
      split at passed
      · cases passed
      split at passed
      · cases passed
      split at passed
      · cases passed
        exact ⟨params, rfl⟩
      · cases passed

theorem matchLoaded_of_matchDeclared {operations : List LoadedOperation} {method path : String}
    {declared : DeclaredOperation} {params : PathParams}
    (found : HttpFallback.matchDeclared (operations.map LoadedOperation.toDeclaredOperation)
      method path = some (declared, params)) :
    ∃ operation, matchLoaded operations method path = some (operation, params) ∧
      declared = operation.toDeclaredOperation := by
  unfold HttpFallback.matchDeclared at found
  unfold matchLoaded
  dsimp only
  cases routed : matchRoute (buildRouter ((operations.map
      LoadedOperation.toDeclaredOperation).map DeclaredOperation.toOperationSpec)) method path with
  | none =>
      rw [routed] at found
      cases found
  | some route =>
      rw [routed] at found
      obtain ⟨other, indexed, same⟩ := Option.map_eq_some_iff.mp found
      rw [List.getElem?_map] at indexed
      obtain ⟨operation, held, rfl⟩ := Option.map_eq_some_iff.mp indexed
      cases same
      dsimp only
      rw [held]
      exact ⟨operation, rfl, rfl⟩

/--
A request calls back only if it was answered with a mocked response.  Then each
callback of its operation whose URL is filled to one that may be called has one
request, and the others have none.  In every run of the tasks what has been
sent are some of these requests, none twice, in whatever order, and all of them
once no task has anything left to do.  Whatever the body says, a URL starts
with what stands in front of the first brace of its expression.
-/
theorem callbacks_sent (libraries : Libraries) (urls : UrlLibraries) (reading : RequestLibraries)
    (fallback : HttpFallback) (operations : List LoadedOperation)
    (scenarios : Option ScenarioRuntime) (request : RawRequest) :
    let loaded := fallback.loading operations
    let seed := loaded.server.seedOf request.method request.path
    let tasks := fallback.callbacks libraries urls reading operations scenarios request
    (tasks ≠ [] → ∃ mock,
      (loaded.handle libraries reading scenarios request).2 = .answered (.mocked mock)) ∧
    ∀ mock declared accepted, loaded.accept libraries reading request = .ok (declared, accepted) →
      (loaded.handle libraries reading scenarios request).2 = .answered (.mocked mock) →
      ∃ operation params, matchLoaded operations request.method request.path =
          some (operation, params) ∧ declared = operation.toDeclaredOperation ∧
        ∃ called : CallbackSpec → Option CallbackRequest,
          (∀ callback sent, called callback = some sent ↔
            Calls libraries urls seed accepted.json callback sent) ∧
          (∀ callback sent, called callback = some sent →
            (callback.callbackUrlExpression.toList.takeWhile fun char => char != '{') <+:
              sent.url.toList) ∧
          ∀ last, Pool.FreeRun (CallbackTask.next libraries seed) ⟨[], tasks⟩ last →
            last.shared.Subperm (operation.callbacks.filterMap called) ∧
              ((∀ index, last.step (CallbackTask.next libraries seed) index = none) →
                last.shared.Perm (operation.callbacks.filterMap called)) := by
  intro loaded seed tasks
  constructor
  · intro some
    unfold tasks HttpFallback.callbacks at some
    dsimp only at some
    split at some
    next mock _ _ _ handled passed => exact ⟨_, handled⟩
    · exact absurd rfl some
  · intro mock declared accepted passed handled
    have document : loaded.openapi =
      some (operations.map LoadedOperation.toDeclaredOperation) := rfl
    obtain ⟨params, routed⟩ := matchDeclared_of_accept document passed
    obtain ⟨operation, found, same⟩ := matchLoaded_of_matchDeclared routed
    have spawned : tasks = operation.callbacks.filterMap (spawnCallback urls accepted.json) := by
      unfold tasks HttpFallback.callbacks
      dsimp only
      rw [handled, passed]
      dsimp only
      rw [found]
    refine ⟨operation, params, found, same, fun callback =>
      (spawnCallback urls accepted.json callback).bind (CallbackTask.request libraries seed),
      fun callback sent => request_of_spawnCallback,
      fun callback sent called => (request_of_spawnCallback.mp called).front,
      fun last run => ?_⟩
    have all := sent_run run
    rw [spawned, List.filterMap_filterMap] at all
    constructor
    · exact (List.sublist_append_left _ _).subperm.trans all.subperm
    · intro finished
      rwa [collect_of_finished finished, List.append_nil] at all

end Sent

/-- Who signs up is announced at two addresses of the document; two callbacks have no URL. -/
def announcedSignUp : LoadedOperation where
  method := "POST"
  pathTemplate := "/users"
  responses := [⟨"201", [], ∅⟩]
  parameters := []
  requestBodySchema := some (.bool true)
  requestBodyRequired := true
  requestBodyMediaTypes := []
  operationId := none
  callbacks :=
    [⟨"http://hooks.test/\x7b$request.body#/name\x7d/new", "POST", none⟩,
      ⟨"\x7b$request.body#/name\x7d", "POST", none⟩, ⟨"http://hooks.test/\x7bname", "POST", none⟩,
      ⟨"http://hooks.test/log", "PUT", none⟩]

/-- Libraries that read one name from every body. -/
def nameReading : RequestLibraries where
  fromSlice _ := .ok (.object [("name", .string "\x7bada\x7d")])
  formPairs _ := []
  parseFloat _ := none
  validateInstance _ _ := .ok []

/-- URLs of one host. -/
def hookUrls : UrlLibraries where
  parseUrl url :=
    if (Text.stripPrefix "http://hooks.test/" url).isSome then .ok ⟨"http", some "hooks.test"⟩
    else .error "relative URL without a base"
  parseIp _ := none
  pathExists _ := false

/-- The second task may run first; what it sends is what its callback calls for. -/
theorem callbacks_sent_signUp :
    let request : RawRequest := ⟨"POST", "/users", none,
      [("content-type", some "application/json")], [0x7b, 0x7d]⟩
    let loaded := signUpFallback.loading [announcedSignUp]
    let seed := loaded.server.seedOf "POST" "/users"
    let tasks := signUpFallback.callbacks sampleLibraries hookUrls nameReading [announcedSignUp]
      none request
    ∃ operation params body last,
      matchLoaded [announcedSignUp] "POST" "/users" = some (operation, params) ∧
      Pool.FreeRun (CallbackTask.next sampleLibraries seed) ⟨[], tasks⟩ last ∧
      last.shared.map CallbackRequest.url =
        ["http://hooks.test/log", "http://hooks.test/\x7bada\x7d/new"] ∧
      ∀ sent ∈ last.shared, ∃ callback ∈ operation.callbacks,
        Calls sampleLibraries hookUrls seed body callback sent := by
  intro request loaded seed tasks
  obtain ⟨answered, all⟩ := callbacks_sent sampleLibraries hookUrls nameReading signUpFallback
    [announcedSignUp] none request
  have two : tasks.length = 2 := by decide
  obtain ⟨mock, handled⟩ := answered fun none => by
    have empty : tasks.length = 0 := congrArg List.length none
    rw [two] at empty
    cases empty
  have passes : (loaded.accept sampleLibraries nameReading request).toOption.isSome = true := by
    decide
  cases passed : loaded.accept sampleLibraries nameReading request with
  | error refusal =>
      rw [passed] at passes
      cases passes
  | ok pair =>
      obtain ⟨operation, params, found, _, called, calls, _, runs⟩ :=
        all mock pair.1 pair.2 passed handled
      have followed : ((⟨[], tasks⟩ : Pool _ _).follow (CallbackTask.next sampleLibraries seed)
          (fun _ _ => True) [1, 0]).any (fun last => last.shared.map CallbackRequest.url ==
            ["http://hooks.test/log", "http://hooks.test/\x7bada\x7d/new"]) = true := by decide
      obtain ⟨last, run, sent⟩ := Pool.exists_run_of_follow [1, 0] followed
      refine ⟨operation, params, pair.2.json, last, found, run, eq_of_beq sent,
        fun sent member => ?_⟩
      obtain ⟨callback, among, calling⟩ :=
        List.mem_filterMap.mp ((runs last run).1.subset member)
      exact ⟨callback, among, (calls callback sent).mp calling⟩

end SpecMock.Runtime
