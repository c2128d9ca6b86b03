import SpecMock.Runtime.AsyncApi
import SpecMock.Runtime.Media

/-!
# Requests on the wire

The handler takes in the body of a request, matches an operation, checks the
media type, parses the body if the operation has a JSON schema for it, and
validates parameters and body.  Only a request that passes is answered.
-/

namespace SpecMock.Runtime

open SpecMock.Library SpecMock.Core

/-- What the server takes from libraries to read a request. -/
structure RequestLibraries where
  /-- The JSON value of a body. -/
  fromSlice : List UInt8 → Except String Value
  /-- The pairs of a form-encoded query, decoded. -/
  formPairs : String → List (String × String)
  /-- A floating point number, as a JSON value. -/
  parseFloat : String → Option Value
  /-- The issues of an instance, or why the schema does not compile. -/
  validateInstance : Value → Value → Except String (List ValidationIssue)

inductive ParameterIn where
  | path
  | query
  | header
  deriving DecidableEq

structure ParameterSpec where
  name : String
  location : ParameterIn
  required : Bool
  schema : Value

/-- An operation with what it declares about its requests. -/
structure DeclaredOperation extends OperationSpec where
  parameters : List ParameterSpec
  /-- Schema of the body for `application/json`. -/
  requestBodySchema : Option Value
  requestBodyRequired : Bool
  /-- Every media type of the body. -/
  requestBodyMediaTypes : List String

/-- A request as it arrives. -/
structure RawRequest where
  method : String
  path : String
  query : Option String
  headers : Headers
  body : List UInt8

/-- What the fallback handler uses of the runtime. -/
structure HttpFallback where
  /-- Deterministic seed of the generator. -/
  seed : BitVec 64
  /-- The operations of the document, if there is one. -/
  openapi : Option (List DeclaredOperation)
  maxBodySize : Nat
  /-- The mode is proxy and there is an upstream. -/
  proxied : Bool

/-- What precedes an ending, if the text has it. -/
def stripSuffix (ending text : String) : Option String :=
  if ending.toList <:+ text.toList then
    some (String.ofList (text.toList.take (text.toList.length - ending.toList.length)))
  else none

def singleMediaTypeMatches (declared actual : String) : Bool :=
  if declared = actual ∨ declared = "*/*" then true
  else
    match stripSuffix "/*" declared with
    | some start => (Text.stripPrefix start actual).any fun rest => rest.toList.contains '/'
    | none =>
        -- A generic JSON request satisfies a structured-syntax declaration.
        actual == "application/json" && (Text.stripPrefix "application/" declared).isSome &&
          endsWith "+json" declared

def mediaTypeIsAccepted (declared : List String) (actual : String) : Bool :=
  let actual := normalizeMediaType actual
  if actual = "" then false
  else declared.any fun candidate => singleMediaTypeMatches (normalizeMediaType candidate) actual

/-- One text contains another. -/
def containsText (part text : String) : Bool :=
  text.toList.tails.any fun rest => part.toList.isPrefixOf rest

def headerIsJson (headers : Headers) : Bool :=
  (headers.get "content-type").any fun value =>
    containsText "application/json" (asciiLowercase value)

def parseOptionalJsonBody (libraries : RequestLibraries) (headers : Headers) (bytes : List UInt8)
    (shouldParse : Bool) : Except ValidationIssue (Option Value) :=
  if shouldParse = false ∨ bytes = [] then .ok none
  else if headerIsJson headers = false then .ok none
  else
    match libraries.fromSlice bytes with
    | .ok value => .ok (some value)
    | .error error =>
        .error ⟨"/body", "#/requestBody", "json", "invalid json request body: " ++ error⟩

/-- The values of a query parameter, in their order. -/
def queryValues (libraries : RequestLibraries) (query : Option String) (name : String) :
    List String :=
  match query with
  | none => []
  | some raw => (libraries.formPairs raw).filterMap fun pair =>
      if pair.1 = name then some pair.2 else none

/-- The first type that a schema names. -/
def inferredType (schema : Value) : String :=
  ((schema.get "type").bind fun declared =>
    declared.asStr.or (declared.asArray.bind fun types => types.findSome? Value.asStr)).getD
      "string"

def schemaTypeIsArray (schema : Value) : Bool :=
  match schema.get "type" with
  | some (.string text) => text == "array"
  | some (.array types) => types.any fun entry => entry.asStr == some "array"
  | _ => false

/-- `str::parse::<i64>`: an optional sign, then digits, within sixty-four bits. -/
def parseI64 (text : String) : Option Int :=
  let magnitude := fun (digits : List Char) (bound : Nat) =>
    if digits = [] then none else (decimalValue digits).filter fun value => decide (value ≤ bound)
  match text.toList with
  | '-' :: digits => (magnitude digits (2 ^ 63)).map fun value => -(value : Int)
  | '+' :: digits => (magnitude digits (2 ^ 63 - 1)).map fun value => (value : Int)
  | digits => (magnitude digits (2 ^ 63 - 1)).map fun value => (value : Int)

/-- The text of a parameter as a value of its type, or as it is. -/
def parseParameterValue (libraries : RequestLibraries) (raw : String) (schema : Value) : Value :=
  let parsed : Option Value := match inferredType schema with
    | "integer" => (parseI64 raw).map fun value => .number (.int value)
    | "number" => libraries.parseFloat raw
    | "boolean" =>
        if raw = "true" then some (.bool true)
        else if raw = "false" then some (.bool false)
        else none
    | _ => none
  parsed.getD (.string raw)

section Validation

variable (libraries : RequestLibraries)

/-- The issues of an instance; a schema that does not compile is an issue of its own. -/
def instanceIssues (schema value : Value) (instancePointer schemaPointer : String) :
    List ValidationIssue :=
  match libraries.validateInstance schema value with
  | .ok issues => issues
  | .error error => [⟨instancePointer, schemaPointer, "schema", error⟩]

namespace ParameterSpec

variable (parameter : ParameterSpec)

def missingIssues : List ValidationIssue :=
  if parameter.required then
    [⟨"/" ++ parameter.name, "#/parameters", "required",
      "missing required parameter '" ++ parameter.name ++ "'"⟩]
  else []

def valueIssues (value : Value) : List ValidationIssue :=
  instanceIssues libraries parameter.schema value ("/" ++ parameter.name) "#/parameters"

/-- The issues of a single text of a parameter. -/
def textIssues (raw : String) : List ValidationIssue :=
  parameter.valueIssues libraries (parseParameterValue libraries raw parameter.schema)

def issues (pathParams : PathParams) (query : Option String) (headers : Headers) :
    List ValidationIssue :=
  match parameter.location with
  | .path =>
      match pathParams.lookup parameter.name with
      | none => parameter.missingIssues
      | some raw => parameter.textIssues libraries raw
  | .query =>
      match queryValues libraries query parameter.name with
      | [] => parameter.missingIssues
      | first :: others =>
          if schemaTypeIsArray parameter.schema then
            let itemsSchema := (parameter.schema.get "items").getD (.object [])
            parameter.valueIssues libraries (.array ((first :: others).map fun raw =>
              parseParameterValue libraries raw itemsSchema))
          else parameter.textIssues libraries first
  | .header =>
      match headers.get (asciiLowercase parameter.name) with
      | none => parameter.missingIssues
      | some raw => parameter.textIssues libraries raw

end ParameterSpec

/-- The issues of a request; `bodyPresent` holds for every body that is not empty. -/
def DeclaredOperation.validateRequest (operation : DeclaredOperation) (pathParams : PathParams)
    (query : Option String) (headers : Headers) (bodyJson : Option Value) (bodyPresent : Bool) :
    List ValidationIssue :=
  (operation.parameters.flatMap fun parameter =>
      parameter.issues libraries pathParams query headers) ++
    (if operation.requestBodyRequired && !bodyPresent then
      [⟨"/body", "#/requestBody", "required", "missing required request body"⟩]
    else []) ++
    (match operation.requestBodySchema, bodyJson with
    | some schema, some body => instanceIssues libraries schema body "/body" "#/requestBody"
    | _, _ => [])

end Validation

/-- Why a request is not answered from the mock. -/
inductive Rejection where
  | problem (status : Nat) (detail : String)
  | invalid (issues : List ValidationIssue)
  deriving DecidableEq

inductive HttpReply where
  | rejected (rejection : Rejection)
  /-- Handed to the upstream. -/
  | forwarded
  | answered (response : HttpResponse)
  deriving DecidableEq

namespace HttpFallback

variable (libraries : Libraries) (reading : RequestLibraries) (fallback : HttpFallback)

/-- The mock behind the checks. -/
def server : HttpServer :=
  ⟨fallback.seed, .of ((fallback.openapi.getD []).map DeclaredOperation.toOperationSpec)⟩

/-- The operation that a request is routed to, with the path parameters. -/
def matchDeclared (operations : List DeclaredOperation) (method path : String) :
    Option (DeclaredOperation × PathParams) :=
  match matchRoute (buildRouter (operations.map DeclaredOperation.toOperationSpec)) method path with
  | none => none
  | some found => (operations[found.operationIndex]?).map fun operation =>
      (operation, found.pathParams)

/-- Everything up to the validation of a request. -/
def accept (request : RawRequest) : Except Rejection (DeclaredOperation × HttpRequest) :=
  if fallback.maxBodySize < request.body.length then
    .error (.problem 413 ("request body exceeds maximum size of " ++
      toString fallback.maxBodySize ++ " bytes"))
  else
    match fallback.openapi with
    | none => .error (.problem 404 "no OpenAPI runtime configured")
    | some operations =>
        match matchDeclared operations request.method request.path with
        | none => .error (.problem 404 "operation not found")
        | some (operation, pathParams) =>
            let contentType := (request.headers.get "content-type").getD ""
            if request.body ≠ [] ∧ operation.requestBodyMediaTypes ≠ [] ∧
                mediaTypeIsAccepted operation.requestBodyMediaTypes contentType = false then
              .error (.problem 415 ("content-type '" ++ contentType ++
                "' is not declared for this operation; expected one of: " ++
                ", ".intercalate operation.requestBodyMediaTypes))
            else
              match parseOptionalJsonBody reading request.headers request.body
                  operation.requestBodySchema.isSome with
              | .error issue => .error (.invalid [issue])
              | .ok json =>
                  match operation.validateRequest reading pathParams request.query request.headers
                      json (!request.body.isEmpty) with
                  | [] =>
                      .ok (operation, ⟨request.method, request.path,
                        PreferDirectives.fromHeaders libraries.qualities request.headers, json⟩)
                  | issues => .error (.invalid issues)

def handle (scenarios : Option ScenarioRuntime) (request : RawRequest) :
    Option ScenarioRuntime × HttpReply :=
  match fallback.accept libraries reading request with
  | .error rejection => (scenarios, .rejected rejection)
  | .ok (_, accepted) =>
      if fallback.proxied then (scenarios, .forwarded)
      else
        let handled := fallbackHandler libraries fallback.server scenarios accepted
        (handled.1, .answered handled.2)

end HttpFallback

/--
The body is read as JSON: it is not empty, the operation has a JSON schema for
it and the media type is JSON.
-/
structure ReadsBody (operation : DeclaredOperation) (request : RawRequest) : Prop where
  schema : operation.requestBodySchema.isSome = true
  nonempty : request.body ≠ []
  json : headerIsJson request.headers = true

/-- A body that is read is parsed whole, any other is absent. -/
theorem parseOptionalJsonBody_eq_ok {libraries : RequestLibraries} {request : RawRequest}
    {operation : DeclaredOperation} {json : Option Value}
    (parsed : parseOptionalJsonBody libraries request.headers request.body
      operation.requestBodySchema.isSome = .ok json) :
    (ReadsBody operation request ∧ ∃ body, json = some body ∧
      libraries.fromSlice request.body = .ok body) ∨
    (¬ ReadsBody operation request ∧ json = none) := by
  unfold parseOptionalJsonBody at parsed
  split at parsed
  next unread =>
    refine .inr ⟨fun reads => ?_, (Except.ok.inj parsed).symm⟩
    rcases unread with schemaless | empty
    · rw [reads.schema] at schemaless
      cases schemaless
    · exact reads.nonempty empty
  next readable =>
    obtain ⟨schema, nonempty⟩ := not_or.mp readable
    split at parsed
    next other =>
      refine .inr ⟨fun reads => ?_, (Except.ok.inj parsed).symm⟩
      rw [reads.json] at other
      cases other
    next isJson =>
      refine .inl ⟨⟨Bool.eq_true_of_not_eq_false schema, nonempty, by simpa using isJson⟩, ?_⟩
      cases read : libraries.fromSlice request.body with
      | error error =>
          rw [read] at parsed
          cases parsed
      | ok body =>
          rw [read] at parsed
          exact ⟨body, (Except.ok.inj parsed).symm, rfl⟩

namespace HttpFallback

/-- A request that passes is routed as the mock routes it, with its body parsed or absent. -/
structure Accepted (libraries : Libraries) (reading : RequestLibraries) (fallback : HttpFallback)
    (request : RawRequest) (operation : DeclaredOperation) (accepted : HttpRequest) : Prop where
  routed : ∃ params, fallback.server.openapi.matchOperation request.method request.path =
    some ⟨operation.toOperationSpec, params⟩
  method : accepted.method = request.method
  path : accepted.path = request.path
  prefer : accepted.prefer = PreferDirectives.fromHeaders libraries.qualities request.headers
  body : (ReadsBody operation request ∧ ∃ body, accepted.json = some body ∧
      reading.fromSlice request.body = .ok body) ∨
    (¬ ReadsBody operation request ∧ accepted.json = none)

theorem matchOperation_of_matchDeclared {operations : List DeclaredOperation}
    {method path : String} {operation : DeclaredOperation} {params : PathParams}
    (found : matchDeclared operations method path = some (operation, params)) :
    (OpenApiRuntime.of (operations.map DeclaredOperation.toOperationSpec)).matchOperation method
      path = some ⟨operation.toOperationSpec, params⟩ := by
  unfold matchDeclared at found
  unfold OpenApiRuntime.matchOperation OpenApiRuntime.of
  split at found
  · cases found
  next route routed =>
    obtain ⟨declared, indexed, same⟩ := Option.map_eq_some_iff.mp found
    cases same
    simp [routed, indexed]

theorem accepted_of_accept {libraries : Libraries} {reading : RequestLibraries}
    {fallback : HttpFallback} {request : RawRequest} {operation : DeclaredOperation}
    {accepted : HttpRequest}
    (passed : fallback.accept libraries reading request = .ok (operation, accepted)) :
    Accepted libraries reading fallback request operation accepted := by
  unfold accept at passed
  split at passed
  · cases passed
  split at passed
  · cases passed
  next operations document =>
    split at passed
    · cases passed
    next found params routed =>
      dsimp only at passed
      split at passed
      · cases passed
      split at passed
      · cases passed
      next json parsed =>
        split at passed
        · cases passed
          refine ⟨⟨params, ?_⟩, rfl, rfl, rfl, parseOptionalJsonBody_eq_ok parsed⟩
          rw [server, document, Option.getD_some]
          exact matchOperation_of_matchDeclared routed
        · cases passed

end HttpFallback

end SpecMock.Runtime
