import SpecMock.Library.Tokens
import SpecMock.Runtime.Accepted
import SpecMock.Runtime.ProblemDetails
import SpecMock.Runtime.Proxy

/-!
# Answers on the wire

A request is answered with a mocked response, with the response of the upstream
or with a problem.  A problem states the status it is sent with, its text tells
which problem it is, and a failure of the scenarios is read back from it.  What
the generator complains about is sent without the paths of files.
-/

namespace SpecMock.Runtime

open SpecMock.Library SpecMock.Core

/-- The titles of a few statuses are written out where their problems are made. -/
theorem ProblemDetails.titles (detail : String) :
    ∀ problem ∈ [ProblemDetails.notFound detail, .unsupportedMediaType detail,
      .notAcceptable detail, .payloadTooLarge detail],
      problem.title = titleForStatus problem.status := by
  simp [ProblemDetails.notFound, ProblemDetails.unsupportedMediaType, ProblemDetails.notAcceptable,
    ProblemDetails.payloadTooLarge, titleForStatus]

def problemResponse (problem : ProblemDetails) : HttpAnswer where
  status := if 100 ≤ problem.status ∧ problem.status ≤ 999 then problem.status else 500
  headers := [("content-type", "application/problem+json")]
  body := problem.toValue.toText

def errorResponse (status : Nat) (issues : List ValidationIssue) : HttpAnswer :=
  problemResponse (.validationError status issues)

/-- A token that starts with a slash and has another one. -/
def isPathLike (token : String) : Bool :=
  match token.toList with
  | '/' :: rest => rest.contains '/'
  | _ => false

/-- Replace tokens that look like absolute paths. -/
def sanitizeErrorMessage (message : String) : String :=
  Text.joined ' ' ((Text.splitWhitespace message).map fun token =>
    if isPathLike token then "[redacted]" else token)

def RuntimeError.toText : RuntimeError → String
  | .parse message => "parse error: " ++ message
  | .notFound message => "not found: " ++ message
  | .notAcceptable message => "not acceptable: " ++ message

/-- The problem of a response that could not be mocked. -/
def RuntimeError.problem : RuntimeError → ProblemDetails
  | .notFound message => .notFound message
  | .notAcceptable message => .notAcceptable message
  | error => .validationError 500 [⟨"/response", "#/responses", "response",
      sanitizeErrorMessage error.toText⟩]

/-- The problem of a request that does not pass. -/
def Rejection.details : Rejection → ProblemDetails
  | .problem status detail =>
      if status = 413 then .payloadTooLarge detail
      else if status = 415 then .unsupportedMediaType detail
      else .notFound detail
  | .invalid issues => .validationError 400 issues

def renderResponse (rules : HeaderRules) : HttpResponse → HttpAnswer
  | .mocked mock => buildMockResponse rules mock
  | .unmocked error => problemResponse error.problem
  | .refused failure => problemResponse failure.problem

/-- An answer of the server's own, or that of the upstream. -/
inductive Served where
  | rendered (answer : HttpAnswer)
  | relayed (status : Nat) (headers : Headers) (body : List UInt8)

def ProxyReply.served : ProxyReply → Served
  | .refused status issues => .rendered (errorResponse status issues)
  | .passed status headers body => .relayed status headers body

namespace HttpFallback

variable (libraries : Libraries) (reading : RequestLibraries) (rules : HeaderRules)
  (fallback : HttpFallback)

/-- Answer a request; the upstream is asked only in proxy mode. -/
def serve (upstream : Upstream) (scenarios : Option ScenarioRuntime) (request : RawRequest) :
    Option ScenarioRuntime × Served :=
  match fallback.accept libraries reading request with
  | .error rejection => (scenarios, .rendered (problemResponse rejection.details))
  | .ok (operation, accepted) =>
      if fallback.proxied then
        (scenarios, (proxyRequest reading upstream request operation.toOperationSpec).served)
      else
        let handled := fallbackHandler libraries fallback.server scenarios accepted
        (handled.1, .rendered (renderResponse rules handled.2))

end HttpFallback

/-- The tokens of a redacted message are those of the message, with the paths replaced. -/
theorem splitWhitespace_sanitizeErrorMessage (message : String) :
    Text.splitWhitespace (sanitizeErrorMessage message) =
      (Text.splitWhitespace message).map fun token =>
        if isPathLike token then "[redacted]" else token := by
  refine Text.splitWhitespace_joined fun token member => ?_
  obtain ⟨original, listed, rfl⟩ := List.mem_map.mp member
  split
  · have plain : "[redacted]".toList.all (fun char => !Text.isWhiteSpace char) = true := by decide
    exact ⟨by decide, by simpa using plain⟩
  · exact Text.isToken_of_mem listed

/--
A redacted message has no token that looks like an absolute path and keeps every
other token in its place, and redacting it again changes nothing.
-/
theorem redacted_messages (message : String) :
    (∀ token ∈ Text.splitWhitespace (sanitizeErrorMessage message), isPathLike token = false) ∧
    (∀ (index : Nat) token, (Text.splitWhitespace message)[index]? = some token →
      isPathLike token = false →
        (Text.splitWhitespace (sanitizeErrorMessage message))[index]? = some token) ∧
    sanitizeErrorMessage (sanitizeErrorMessage message) = sanitizeErrorMessage message := by
  have tokens := splitWhitespace_sanitizeErrorMessage message
  have plain : ∀ token ∈ Text.splitWhitespace (sanitizeErrorMessage message),
      isPathLike token = false := by
    intro token member
    rw [tokens] at member
    obtain ⟨original, _, rfl⟩ := List.mem_map.mp member
    split
    · decide
    next other => exact Bool.eq_false_of_not_eq_true other
  refine ⟨plain, fun index token listed other => ?_, ?_⟩
  · rw [tokens, List.getElem?_map, listed, Option.map_some, if_neg (by simp [other])]
  · have kept : (Text.splitWhitespace (sanitizeErrorMessage message)).map
        (fun token => if isPathLike token then "[redacted]" else token) =
          Text.splitWhitespace (sanitizeErrorMessage message) := by
      refine (List.map_congr_left fun token member => ?_).trans (List.map_id _)
      exact if_neg (by simp [plain token member])
    rw [sanitizeErrorMessage, kept, tokens, sanitizeErrorMessage]

/-- The answer is a problem that a client can read, and there is only one that it can be. -/
structure Reported (answer : HttpAnswer) (problem : ProblemDetails) : Prop where
  contentType : answer.headers = [("content-type", "application/problem+json")]
  status : answer.status = problem.status
  title : problem.title = titleForStatus problem.status
  body : answer.body = problem.toValue.toText
  read : ProblemDetails.fromValue problem.toValue = some problem
  only : ∀ other : ProblemDetails, other.Sendable → other.toValue.toText = answer.body →
    other = problem

/-- The statuses of problems. -/
def problemStatuses : List Nat := [400, 404, 406, 409, 413, 415, 429, 500, 502]

theorem reported_of_sendable {problem : ProblemDetails} (sendable : problem.Sendable)
    (listed : problem.status ∈ problemStatuses)
    (title : problem.title = titleForStatus problem.status) :
    Reported (problemResponse problem) problem := by
  have inside : ∀ status ∈ problemStatuses, 100 ≤ status ∧ status ≤ 999 := by decide
  constructor
  case contentType => rfl
  case status => exact if_pos (inside _ listed)
  case title => exact title
  case body => rfl
  case read => exact ProblemDetails.fromValue_of_extends sendable.free sendable.small
  case only => exact fun other sent same => ProblemDetails.eq_of_toText sent sendable same

/-- A problem of the server: it can be sent, and its title is that of its status. -/
structure Proper (problem : ProblemDetails) : Prop where
  sendable : problem.Sendable
  listed : problem.status ∈ problemStatuses
  title : problem.title = titleForStatus problem.status

theorem Proper.reported {problem : ProblemDetails} (proper : Proper problem) :
    Reported (problemResponse problem) problem :=
  reported_of_sendable proper.sendable proper.listed proper.title

theorem proper_of_plain {problem : ProblemDetails} (listed : problem.status ∈ problemStatuses)
    (title : problem.title = titleForStatus problem.status) (plain : problem.extensions = ∅) :
    Proper problem := by
  have small : ∀ status ∈ problemStatuses, status < 2 ^ 16 := by decide
  exact ⟨ProblemDetails.sendable_of_plain (small _ listed) plain, listed, title⟩

theorem proper_validationError {status : Nat} (listed : status ∈ problemStatuses)
    (issues : List ValidationIssue) : Proper (.validationError status issues) :=
  proper_of_plain listed rfl rfl

theorem proper_notFound (detail : String) : Proper (.notFound detail) :=
  proper_of_plain (by simp [ProblemDetails.notFound, problemStatuses])
    (ProblemDetails.titles detail _ (by simp)) rfl

theorem proper_notAcceptable (detail : String) : Proper (.notAcceptable detail) :=
  proper_of_plain (by simp [ProblemDetails.notAcceptable, problemStatuses])
    (ProblemDetails.titles detail _ (by simp)) rfl

theorem proper_payloadTooLarge (detail : String) : Proper (.payloadTooLarge detail) :=
  proper_of_plain (by simp [ProblemDetails.payloadTooLarge, problemStatuses])
    (ProblemDetails.titles detail _ (by simp)) rfl

theorem proper_unsupportedMediaType (detail : String) : Proper (.unsupportedMediaType detail) :=
  proper_of_plain (by simp [ProblemDetails.unsupportedMediaType, problemStatuses])
    (ProblemDetails.titles detail _ (by simp)) rfl

theorem Rejection.proper_details (rejection : Rejection) : Proper rejection.details := by
  cases rejection with
  | problem status detail =>
      dsimp only [details]
      split
      · exact proper_payloadTooLarge detail
      · split
        · exact proper_unsupportedMediaType detail
        · exact proper_notFound detail
  | invalid issues => exact proper_validationError (by decide) issues

theorem RuntimeError.proper_problem (error : RuntimeError) : Proper error.problem := by
  cases error with
  | parse message => exact proper_validationError (by decide) _
  | notFound message => exact proper_notFound message
  | notAcceptable message => exact proper_notAcceptable message

theorem StatefulFailure.proper_problem (failure : StatefulFailure) : Proper failure.problem := by
  have listed : ∀ status ∈ [404, 409, 429, 500], status ∈ problemStatuses := by decide
  exact ⟨failure.problem_sendable, listed _ failure.status_mem, rfl⟩

/-- The proxy refuses as a bad gateway only. -/
theorem proxyRequest_refused {reading : RequestLibraries} {upstream : Upstream}
    {request : RawRequest} {operation : OperationSpec} {status : Nat}
    {issues : List ValidationIssue}
    (refused : proxyRequest reading upstream request operation = .refused status issues) :
    status = 502 := by
  unfold proxyRequest at refused
  split at refused
  · cases refused
    rfl
  · split at refused
    · cases refused
      rfl
    · unfold judgeResponse at refused
      split at refused
      · cases refused
      · split at refused
        · unfold judgeJson at refused
          split at refused
          · cases refused
            rfl
          · split at refused
            · cases refused
              rfl
            · cases refused
            · cases refused
              rfl
        · cases refused

/-- What the handler answers is rendered. -/
theorem serve_of_answered {libraries : Libraries} {reading : RequestLibraries}
    {fallback : HttpFallback} {scenarios : Option ScenarioRuntime} {request : RawRequest}
    {response : HttpResponse} (rules : HeaderRules) (upstream : Upstream)
    (answered : (fallback.handle libraries reading scenarios request).2 = .answered response) :
    (fallback.serve libraries reading rules upstream scenarios request).2 =
      .rendered (renderResponse rules response) := by
  unfold HttpFallback.handle at answered
  unfold HttpFallback.serve
  cases accepted : fallback.accept libraries reading request with
  | error rejection =>
      rw [accepted] at answered
      cases answered
  | ok passed =>
      rw [accepted] at answered
      dsimp only at answered ⊢
      split at answered
      · cases answered
      next unproxied =>
        rw [if_neg unproxied, ← HttpReply.answered.inj answered]

/--
Whatever request arrives in whatever state, the answer that the server renders
is a mocked response or a problem.  The problem states the status it is sent
with and can be read, its text is that of no other problem, and if the
scenarios refused the request a client reads their failure from it, up to the
scenarios that are listed as declared.
-/
theorem answers_reported (libraries : Libraries) (reading : RequestLibraries)
    (rules : HeaderRules) (fallback : HttpFallback) (upstream : Upstream)
    (scenarios : Option ScenarioRuntime) (request : RawRequest) {answer : HttpAnswer}
    (rendered : (fallback.serve libraries reading rules upstream scenarios request).2 =
      .rendered answer) :
    (∃ mock, (fallback.handle libraries reading scenarios request).2 =
        .answered (.mocked mock) ∧ answer = buildMockResponse rules mock) ∨
      ∃ problem, Reported answer problem ∧ problem.status ∈ problemStatuses ∧
        ∀ failure, (fallback.handle libraries reading scenarios request).2 =
            .answered (.refused failure) →
          StatefulFailure.ofReport problem.status problem.extensions.entries =
            some failure.withoutListing := by
  unfold HttpFallback.serve at rendered
  unfold HttpFallback.handle
  cases accepted : fallback.accept libraries reading request with
  | error rejection =>
      rw [accepted] at rendered
      cases rendered
      have proper := rejection.proper_details
      exact .inr ⟨_, proper.reported, proper.listed, nofun⟩
  | ok passed =>
      obtain ⟨operation, passed⟩ := passed
      rw [accepted] at rendered
      dsimp only at rendered ⊢
      by_cases proxied : fallback.proxied = true
      · rw [if_pos proxied] at rendered ⊢
        cases replied : proxyRequest reading upstream request operation.toOperationSpec with
        | refused status issues =>
            rw [replied] at rendered
            cases rendered
            obtain rfl := proxyRequest_refused replied
            have proper := proper_validationError (by decide : 502 ∈ problemStatuses) issues
            exact .inr ⟨_, proper.reported, proper.listed, nofun⟩
        | passed status headers body =>
            rw [replied] at rendered
            cases rendered
      · rw [if_neg proxied] at rendered ⊢
        dsimp only at rendered ⊢
        generalize (fallbackHandler libraries fallback.server scenarios passed).2 = response
          at rendered ⊢
        obtain rfl := Served.rendered.inj rendered
        cases response with
        | mocked mock => exact .inl ⟨mock, rfl, rfl⟩
        | unmocked error =>
            have proper := error.proper_problem
            exact .inr ⟨error.problem, proper.reported, proper.listed, nofun⟩
        | refused failure =>
            have proper := failure.proper_problem
            refine .inr ⟨failure.problem, proper.reported, proper.listed, fun other refused => ?_⟩
            obtain rfl := HttpResponse.refused.inj (HttpReply.answered.inj refused)
            exact failure.ofReport_problem

/-- Users are read without a body. -/
def readMember : DeclaredOperation where
  method := "GET"
  pathTemplate := "/users/\x7bid\x7d"
  responses := [⟨"200", [], ∅⟩]
  parameters := []
  requestBodySchema := none
  requestBodyRequired := false
  requestBodyMediaTypes := []

def signUpFallback : HttpFallback := ⟨42#64, some [readMember], 1024, false⟩

/-- Libraries that read nothing and find nothing invalid. -/
def silentReading : RequestLibraries where
  fromSlice _ := .error "expected value"
  formPairs _ := []
  parseFloat _ := none
  validateInstance _ _ := .ok []

/-- Reading a user before signing up. -/
def tooEarly : StatefulFailure := .illegalOperation "signUp" defaultSession "new" "readUser"

theorem answers_reported_tooEarly :
    ∃ problem, Reported (problemResponse tooEarly.problem) problem ∧ problem.status = 409 ∧
      StatefulFailure.ofReport problem.status problem.extensions.entries = some tooEarly := by
  let request : RawRequest := ⟨"GET", "/users/ada", none, [], []⟩
  have refused : (signUpFallback.handle sampleLibraries silentReading
      (some (ScenarioRuntime.new signUpSidecar 8 8)) request).2 =
        .answered (.refused tooEarly) := by
    decide
  let rules : HeaderRules := ⟨fun _ => true, fun _ => true⟩
  let upstream : Upstream := ⟨"", none, none, fun _ => .error ""⟩
  have rendered := serve_of_answered rules upstream refused
  rw [renderResponse] at rendered
  rcases answers_reported sampleLibraries silentReading rules signUpFallback upstream _ request
    rendered with ⟨mock, mocked, _⟩ | ⟨problem, reported, _, read⟩
  · rw [refused] at mocked
    cases mocked
  · refine ⟨problem, reported, ?_, read tooEarly refused⟩
    rw [← reported.status]
    rfl

end SpecMock.Runtime
