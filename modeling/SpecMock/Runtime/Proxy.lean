import SpecMock.Runtime.RequestBodies
import Mathlib.Data.List.Infix

/-!
# Proxied requests

In proxy mode a request that passes is handed to an upstream.  Its response is
passed on, unless it is JSON and violates the schema that the operation
declares for its status.
-/

namespace SpecMock.Runtime

open SpecMock.Library SpecMock.Core

/-- The schema of the first JSON media type, else of the first media type. -/
def ResponseSpec.jsonSchema (response : ResponseSpec) : Option Value :=
  ((response.content.find? fun entry => isJsonMediaType entry.mediaType).or
    response.content.head?).bind MediaTypeSpec.schema

/-- The response declared for a status selector. -/
def OperationSpec.responseFor (operation : OperationSpec) (selector : String) :
    Option ResponseSpec :=
  operation.responses.find? fun response => response.status == selector

/-- The schema for the exact code, else the default one. -/
def OperationSpec.responseSchemaForStatus (operation : OperationSpec) (status : Nat) :
    Option Value :=
  match (operation.responseFor (toString status)).bind ResponseSpec.jsonSchema with
  | some exact => some exact
  | none => (operation.responseFor "default").bind ResponseSpec.jsonSchema

structure UpstreamRequest where
  method : String
  url : String
  headers : Headers
  body : List UInt8

structure UpstreamResponse where
  status : Nat
  headers : Headers
  /-- The bytes of the body, or why it cannot be read. -/
  body : Except String (List UInt8)

structure Upstream where
  url : String
  host : Option String
  port : Option Nat
  send : UpstreamRequest → Except String UpstreamResponse

inductive ProxyReply where
  /-- A problem with its issues. -/
  | refused (status : Nat) (issues : List ValidationIssue)
  | passed (status : Nat) (headers : Headers) (body : List UInt8)

/-- Headers that are not handed on. -/
def unforwardedHeaders : List String :=
  ["host", "content-length", "authorization", "cookie", "proxy-authorization"]

/-- The host of the upstream, with its port if it has one. -/
def Upstream.hostHeader (upstream : Upstream) : Headers :=
  match upstream.host with
  | none => []
  | some host => [("host", some (match upstream.port with
      | none => host
      | some port => host ++ ":" ++ toString port))]

/-- The request as the upstream gets it. -/
def Upstream.forwarded (upstream : Upstream) (request : RawRequest) : UpstreamRequest where
  method := request.method
  url := String.ofList (upstream.url.toList.rdropWhile fun char => char == '/') ++ request.path ++
    (match request.query with
    | none => ""
    | some query => "?" ++ query)
  headers := (request.headers.filter fun header =>
    decide (asciiLowercase header.1 ∉ unforwardedHeaders)) ++ upstream.hostHeader
  body := request.body

section Proxy

variable (libraries : RequestLibraries)

/-- A JSON response is passed on if it is valid under its schema. -/
def judgeJson (schema : Value) (response : UpstreamResponse) (bytes : List UInt8) : ProxyReply :=
  match libraries.fromSlice bytes with
  | .error error => .refused 502 [⟨"/response/body", "#/responses", "json",
      "upstream response is not valid json: " ++ error⟩]
  | .ok json =>
      match libraries.validateInstance schema json with
      | .error error => .refused 502 [⟨"/response", "#/responses", "schema", error⟩]
      | .ok [] => .passed response.status response.headers bytes
      | .ok issues => .refused 502 issues

/-- A response whose body was read. -/
def judgeResponse (operation : OperationSpec) (response : UpstreamResponse) (bytes : List UInt8) :
    ProxyReply :=
  match operation.responseSchemaForStatus response.status with
  | none => .passed response.status response.headers bytes
  | some schema =>
      if headerIsJson response.headers then judgeJson libraries schema response bytes
      else .passed response.status response.headers bytes

def proxyRequest (upstream : Upstream) (request : RawRequest) (operation : OperationSpec) :
    ProxyReply :=
  match upstream.send (upstream.forwarded request) with
  | .error error =>
      .refused 502 [⟨"/proxy", "#", "proxy", "upstream request failed: " ++ error⟩]
  | .ok response =>
      match response.body with
      | .error error => .refused 502 [⟨"/response/body", "#", "proxy",
          "failed to read upstream response body: " ++ error⟩]
      | .ok bytes => judgeResponse libraries operation response bytes

/-- A response that arrives whole. -/
def Arrives (upstream : Upstream) (request : RawRequest) (response : UpstreamResponse)
    (bytes : List UInt8) : Prop :=
  upstream.send (upstream.forwarded request) = .ok response ∧ response.body = .ok bytes

/-- The reply to a response that arrives is the judgement on it. -/
theorem proxyRequest_of_arrives {upstream : Upstream} {request : RawRequest}
    {response : UpstreamResponse} {bytes : List UInt8} (operation : OperationSpec)
    (arrives : Arrives upstream request response bytes) :
    proxyRequest libraries upstream request operation =
      judgeResponse libraries operation response bytes := by
  simp only [proxyRequest, arrives.1, arrives.2]

end Proxy

/-- The media type of a header value is JSON. -/
def IsJsonType (value : String) : Prop := normalizeMediaType value = "application/json"

instance (value : String) : Decidable (IsJsonType value) :=
  inferInstanceAs (Decidable (normalizeMediaType value = "application/json"))

/-- A `Content-Type` counts as JSON exactly by its media type. -/
structure JsonByType (value : String) : Prop where
  classified : ∀ headers : Headers, headers.get "content-type" = some value →
    (headerIsJson headers = true ↔ IsJsonType value)
  /-- Exactly the JSON bodies of requests are parsed. -/
  parsed : ∀ (libraries : RequestLibraries) (headers : Headers) (bytes : List UInt8),
    headers.get "content-type" = some value → bytes ≠ [] →
      parseOptionalJsonBody libraries headers bytes true =
        if IsJsonType value then
          match libraries.fromSlice bytes with
          | .ok value => .ok (some value)
          | .error error =>
              .error ⟨"/body", "#/requestBody", "json", "invalid json request body: " ++ error⟩
        else .ok none
  /-- Exactly the JSON bodies of responses are judged. -/
  proxied : ∀ (libraries : RequestLibraries) (upstream : Upstream) (request : RawRequest)
    (operation : OperationSpec) (response : UpstreamResponse) (bytes : List UInt8) (schema : Value),
    Arrives upstream request response bytes →
      response.headers.get "content-type" = some value →
        operation.responseSchemaForStatus response.status = some schema →
          proxyRequest libraries upstream request operation =
            if IsJsonType value then judgeJson libraries schema response bytes
            else .passed response.status response.headers bytes

/-- If JSON is not the media type, neither the type nor a parameter has it as a part. -/
def NamesJsonOnlyAsType (value : String) : Prop :=
  IsJsonType value ∨ ∀ piece ∈ Text.pieces ';' (asciiLowercase value),
    ¬ "application/json".toList <:+: piece.toList

theorem containsText_iff {part text : String} :
    containsText part text = true ↔ part.toList <:+: text.toList := by
  unfold containsText
  rw [List.any_eq_true, List.infix_iff_prefix_suffix]
  constructor
  · rintro ⟨rest, tail, start⟩
    exact ⟨rest, List.isPrefixOf_iff_prefix.mp start, (List.mem_tails _ _).mp tail⟩
  · rintro ⟨rest, start, tail⟩
    exact ⟨rest, (List.mem_tails _ _).mpr tail, List.isPrefixOf_iff_prefix.mpr start⟩

theorem headerIsJson_iff {headers : Headers} {value : String}
    (given : headers.get "content-type" = some value) :
    headerIsJson headers = true ↔ ∃ piece ∈ Text.pieces ';' (asciiLowercase value),
      "application/json".toList <:+: piece.toList := by
  rw [headerIsJson, given, Option.any_some, containsText_iff]
  exact Text.infix_iff_pieces (by decide)

theorem asciiLowercase_infix {part text : String} (inside : part.toList <:+: text.toList) :
    (asciiLowercase part).toList <:+: (asciiLowercase text).toList := by
  rw [asciiLowercase, asciiLowercase, String.toList_ofList, String.toList_ofList]
  exact inside.map Char.toLower

/-- The media type of a header value is a part of its text. -/
theorem normalizeMediaType_infix (value : String) :
    (normalizeMediaType value).toList <:+: (asciiLowercase value).toList := by
  refine asciiLowercase_infix ?_
  have first := Text.headD_pieces_prefix ';' value value
  exact (Text.trimEnds_infix Text.isWhiteSpace _).trans first.isInfix

/-- The substring test and the media type agree if JSON is named nowhere else. -/
theorem headerIsJson_iff_isJsonType {headers : Headers} {value : String}
    (given : headers.get "content-type" = some value) (only : NamesJsonOnlyAsType value) :
    headerIsJson headers = true ↔ IsJsonType value := by
  rw [headerIsJson_iff given]
  constructor
  · rintro ⟨piece, member, inside⟩
    exact only.resolve_right fun outside => outside piece member inside
  · intro json
    have inside := normalizeMediaType_infix value
    rw [json] at inside
    exact (Text.infix_iff_pieces (by decide)).mp inside

/--
Exactly the JSON bodies are parsed and judged if and only if the text of the
JSON media type occurs in the header value only as its media type.
-/
theorem json_by_type_iff (value : String) : JsonByType value ↔ NamesJsonOnlyAsType value := by
  constructor
  · intro byType
    have given : Headers.get [("content-type", some value)] "content-type" = some value := by
      simp [Headers.get]
    by_cases json : IsJsonType value
    · exact .inl json
    · refine .inr fun piece member inside => json ?_
      exact (byType.classified _ given).mp ((headerIsJson_iff given).mpr ⟨piece, member, inside⟩)
  · intro only
    constructor
    · intro headers given
      exact headerIsJson_iff_isJsonType given only
    · intro libraries headers bytes given nonempty
      have agrees := headerIsJson_iff_isJsonType given only
      rw [parseOptionalJsonBody, if_neg (by simp [nonempty])]
      by_cases json : IsJsonType value
      · refine (if_neg (by simp [agrees.mpr json])).trans ?_
        exact (if_pos json).symm
      · rw [if_pos (Bool.eq_false_of_not_eq_true fun found => json (agrees.mp found)),
          if_neg json]
    · intro libraries upstream request operation response bytes schema arrives given declared
      have agrees := headerIsJson_iff_isJsonType given only
      rw [proxyRequest_of_arrives libraries operation arrives, judgeResponse, declared]
      by_cases json : IsJsonType value
      · simp only [agrees.mpr json, if_true, if_pos json]
      · have other := Bool.eq_false_of_not_eq_true fun found => json (agrees.mp found)
        simp only [other, Bool.false_eq_true, if_false, if_neg json]

/-- A sequence of JSON texts has a type of its own, but counts as JSON. -/
theorem sequence_counts_as_json :
    mediaTypeIsAccepted ["application/json"] "application/json-seq" = false ∧
      ¬ JsonByType "application/json-seq" := by
  refine ⟨by decide, ?_⟩
  intro byType
  have wrong := (byType.classified [("content-type", some "application/json-seq")] rfl).mp
    (by decide)
  exact absurd wrong (by decide)

end SpecMock.Runtime
