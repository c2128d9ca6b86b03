import SpecMock.Runtime.Directives
import SpecMock.Runtime.Handler
import SpecMock.Runtime.MockMessages

/-!
# gRPC calls

The gRPC server routes a call by its path, decodes the one message it carries
and mocks a message of the method's output type.  A unary call is then resolved
against the scenarios, by the JSON forms of both messages, and the resolution
is turned into a message or a gRPC status.
-/

namespace SpecMock.Runtime

open SpecMock.Library SpecMock.Core

/-- What the server takes from its protobuf library, and from random numbers. -/
structure Protobuf where
  Descriptor : Type
  reflection : Grpc.Reflection Descriptor
  decode : Descriptor → List UInt8 → Except String reflection.DynamicMessage
  encode : reflection.DynamicMessage → List UInt8
  /-- The JSON form of a message, null if it has none. -/
  toValue : reflection.DynamicMessage → Value
  /-- The message of a type that a JSON document describes. -/
  deserialize : Descriptor → Value → Except String reflection.DynamicMessage
  Rng : Type
  Float : Type
  random : Randomness Rng Float

abbrev Protobuf.Message (protobuf : Protobuf) : Type := protobuf.reflection.DynamicMessage

/-- A mocked message of a type for a seed. -/
def Protobuf.generateDynamicMessage (protobuf : Protobuf) (descriptor : protobuf.Descriptor)
    (seed : BitVec 64) : Except String protobuf.Message :=
  (Grpc.generateDynamicMessage protobuf.reflection protobuf.random descriptor seed 0).outcome

/-- Messages with one string field of number one; a message type is known by its field. -/
def stringMessages : Protobuf where
  Descriptor := String
  reflection :=
    { fields _ := [⟨1, .string, .optional, false, false, false, none⟩]
      DynamicMessage := String × String
      new field := (field, "")
      trySetField message _ value := match value with
        | .single (.string text) => .ok (message.1, text)
        | _ => .error "invalid type"
      descriptor := Prod.fst
      hasField message number := number == 1 && message.2 != "" }
  decode field
    | [] => .ok (field, "")
    | 10 :: length :: bytes =>
        if length.toNat = bytes.length then
          .ok (field, String.ofList (bytes.map fun byte => Char.ofNat byte.toNat))
        else .error "buffer underflow"
    | _ => .error "invalid tag"
  encode message :=
    let bytes := message.2.toList.flatMap String.utf8EncodeChar
    if bytes = [] then [] else 10 :: UInt8.ofNat bytes.length :: bytes
  toValue message := .object [(message.1, .string message.2)]
  deserialize field
    | .object members =>
        match members.find? fun member => member.1 != field, members with
        | some member, _ => .error ("unrecognized field name '" ++ member.1 ++ "'")
        | none, [] => .ok (field, "")
        | none, [(_, .string text)] => .ok (field, text)
        | none, _ => .error "expected a string"
    | _ => .error "expected a message"
  Rng := Unit
  Float := Unit
  random := .fixed 0

namespace StatefulFailure

/-- A human-readable explanation naming the fix where one exists. -/
def detail : StatefulFailure → String
  | .unknownScenario requested available =>
      if available = [] then
        "no scenarios are declared, so '" ++ requested ++ "' cannot be resolved"
      else
        "unknown scenario '" ++ requested ++ "'; declared scenarios: " ++
          ", ".intercalate available
  | .illegalOperation scenario session state operation =>
      "operation '" ++ operation ++ "' is not legal in state '" ++ state ++ "' of scenario '" ++
        scenario ++ "' (session '" ++ session ++ "')"
  | .resourceNotFound key => "no resource exists at " ++ key
  | .resourceExists key => "a resource already exists at " ++ key
  | .sessionCapExceeded limit =>
      "live session cap of " ++ toString limit ++ " reached; raise --max-sessions"
  | .storeCapExceeded limit =>
      "store entry cap of " ++ toString limit ++ " reached; raise --max-store-entries"

/-- Structured extension members naming the scenario context. -/
def extensions : StatefulFailure → List (String × Value)
  | .illegalOperation scenario session state operation =>
      [("scenario", .string scenario), ("session", .string session), ("state", .string state),
        ("operation", .string operation)]
  | .unknownScenario requested _ => [("scenario", .string requested)]
  | .resourceNotFound key | .resourceExists key => [("resource", .string key)]
  | .sessionCapExceeded limit | .storeCapExceeded limit => [("limit", .number (.int limit))]

end StatefulFailure

/-- The structured detail payload of one violation. -/
def violation (instancePointer keyword message : String) : Value :=
  .object [("errors", .array [.object
    [("instance_pointer", .string instancePointer), ("keyword", .string keyword),
      ("message", .string message), ("schema_pointer", .string "#")]])]

/-- A failure as the structured detail payload that clients read. -/
def failureJson (failure : StatefulFailure) : Value :=
  .object (failure.extensions.foldl (fun payload extension =>
    SortedEntries.insert extension.1 extension.2 payload)
      (members (violation "/" "scenario" failure.detail)))

/-- The gRPC status code for an HTTP status, or for a status code as it is. -/
def grpcCodeFor (status : Nat) : Nat :=
  if status ≤ 16 then status
  else if status = 400 ∨ status = 422 then 3
  else if status = 401 then 16
  else if status = 403 then 7
  else if status = 404 then 5
  else if status = 409 then 6
  else if status = 429 then 8
  else if status = 501 then 12
  else if status = 503 then 14
  else if status = 504 then 4
  else 13

inductive GrpcResponse where
  /-- A status without a message. -/
  | failed (code : Nat) (message : String) (details : Option Value)
  /-- Framed messages, followed by status zero. -/
  | success (frames : List (List UInt8))
  deriving DecidableEq

/-- The value of the `grpc-status` trailer. -/
def GrpcResponse.status : GrpcResponse → Nat
  | .failed code _ _ => code
  | .success _ => 0

/-- A number of four bytes, the most significant one first. -/
def bigEndian (first second third fourth : UInt8) : Nat :=
  ((first.toNat * 256 + second.toNat) * 256 + third.toNat) * 256 + fourth.toNat

/-- The payload of the first frame. -/
def decodeGrpcUnaryFrame : List UInt8 → Except String (List UInt8)
  | flag :: first :: second :: third :: fourth :: rest =>
      if flag ≠ 0 then .error "compressed grpc payload is not supported"
      else
        let length := bigEndian first second third fourth
        if rest.length < length then .error "grpc frame length mismatch"
        else .ok (rest.take length)
  | _ => .error "grpc frame too short"

/-- The payload with the flag and the length in front, which is taken modulo `2 ^ 32`. -/
def encodeGrpcUnaryFrame (payload : List UInt8) : List UInt8 :=
  let length := payload.length
  [0, UInt8.ofNat (length / 2 ^ 24), UInt8.ofNat (length / 2 ^ 16), UInt8.ofNat (length / 2 ^ 8),
    UInt8.ofNat length] ++ payload

def isGrpcContentType (headers : Headers) : Bool :=
  (headers.get "content-type").any fun value =>
    (Text.stripPrefix "application/grpc" (asciiLowercase value)).isSome

structure MethodDescriptor (protobuf : Protobuf) where
  input : protobuf.Descriptor
  output : protobuf.Descriptor
  clientStreaming : Bool
  serverStreaming : Bool

structure GrpcServer (protobuf : Protobuf) where
  /-- Methods by their paths. -/
  methods : FiniteMap String (MethodDescriptor protobuf)
  seed : BitVec 64

structure GrpcRequest where
  headers : Headers
  path : String
  /-- Absent when reading the body failed. -/
  body : Option (List UInt8)

/-- A unary call with its decoded and its mocked message, before the scenarios. -/
structure UnaryCall (protobuf : Protobuf) where
  method : MethodDescriptor protobuf
  request : protobuf.Message
  response : protobuf.Message

variable {protobuf : Protobuf}

/-- The frame of a message. -/
def frameOf (message : protobuf.Message) : List UInt8 :=
  encodeGrpcUnaryFrame (protobuf.encode message)

def generationFailed (error : String) : GrpcResponse :=
  .failed 13 "failed to generate protobuf response" (some (violation "/response" "faker" error))

/-- Number of mocked messages of a server-streaming method. -/
def streamingCount : Nat := 3

/-- The frames of consecutive seeds, or the first failure to mock a message. -/
def streamingFrames (output : protobuf.Descriptor) (baseSeed : BitVec 64) :
    List Nat → Except String (List (List UInt8))
  | [] => .ok []
  | index :: rest =>
      match protobuf.generateDynamicMessage output (baseSeed + BitVec.ofNat 64 index) with
      | .error error => .error error
      | .ok message =>
          match streamingFrames output baseSeed rest with
          | .error error => .error error
          | .ok frames => .ok (frameOf message :: frames)

def buildStreamingResponse (method : MethodDescriptor protobuf) (baseSeed : BitVec 64) :
    GrpcResponse :=
  match streamingFrames method.output baseSeed (List.range streamingCount) with
  | .error error => generationFailed error
  | .ok frames => .success frames

namespace GrpcServer

variable (server : GrpcServer protobuf)

/-- The unary call that a request makes, or the answer to what is none. -/
def prepare (request : GrpcRequest) : Except GrpcResponse (UnaryCall protobuf) :=
  if isGrpcContentType request.headers = false then
    .error (.failed 3 "content-type must be application/grpc" none)
  else
    match server.methods.lookup request.path with
    | none => .error (.failed 12 "method not found" none)
    | some method =>
        if method.clientStreaming then
          .error (.failed 12
            "client streaming methods are not supported in this runtime" none)
        else
          match request.body with
          | none => .error (.failed 3 "failed to read grpc request body"
              (some (violation "/body" "grpc" "body read failure")))
          | some bytes =>
              match decodeGrpcUnaryFrame bytes with
              | .error message => .error (.failed 3 message
                  (some (violation "/body" "grpc_frame" message)))
              | .ok payload =>
                  match protobuf.decode method.input payload with
                  | .error error => .error (.failed 3 "protobuf request decode failed"
                      (some (violation "/body" "protobuf" error)))
                  | .ok decoded =>
                      let seed := deterministicHash server.seed request.path
                      if method.serverStreaming then
                        .error (buildStreamingResponse method seed)
                      else
                        match protobuf.generateDynamicMessage method.output seed with
                        | .error error => .error (generationFailed error)
                        | .ok response => .ok ⟨method, decoded, response⟩

end GrpcServer

namespace GrpcServer

/-- The request calls the method with a message that can be read. -/
structure Calls (server : GrpcServer protobuf) (request : GrpcRequest)
    (method : MethodDescriptor protobuf) : Prop where
  typed : isGrpcContentType request.headers = true
  found : server.methods.lookup request.path = some method
  single : method.clientStreaming = false
  decoded : ∃ bytes payload message, request.body = some bytes ∧
    decodeGrpcUnaryFrame bytes = .ok payload ∧ protobuf.decode method.input payload = .ok message

variable {server : GrpcServer protobuf} {request : GrpcRequest}
  {method : MethodDescriptor protobuf}

theorem prepare_of_stream (calls : server.Calls request method)
    (streams : method.serverStreaming = true) :
    server.prepare request =
      .error (buildStreamingResponse method (deterministicHash server.seed request.path)) := by
  obtain ⟨typed, found, single, bytes, payload, message, body, framed, read⟩ := calls
  simp [prepare, typed, found, single, body, framed, read, streams]

theorem prepare_of_error {error : String} (calls : server.Calls request method)
    (unary : method.serverStreaming = false)
    (failed : protobuf.generateDynamicMessage method.output
      (deterministicHash server.seed request.path) = .error error) :
    server.prepare request = .error (generationFailed error) := by
  obtain ⟨typed, found, single, bytes, payload, message, body, framed, read⟩ := calls
  simp [prepare, typed, found, single, body, framed, read, unary, failed]

theorem prepare_of_ok {response : protobuf.Message} (calls : server.Calls request method)
    (unary : method.serverStreaming = false)
    (made : protobuf.generateDynamicMessage method.output
      (deterministicHash server.seed request.path) = .ok response) :
    ∃ message, server.prepare request = .ok ⟨method, message, response⟩ := by
  obtain ⟨typed, found, single, bytes, payload, message, body, framed, read⟩ := calls
  exact ⟨message, by simp [prepare, typed, found, single, body, framed, read, unary, made]⟩

/-- What calls no method is refused with another code than a missing mock. -/
theorem prepare_of_uncalled (uncalled : ∀ method, ¬ server.Calls request method) :
    ∃ code message details, server.prepare request = .error (.failed code message details) ∧
      code ≠ 13 := by
  unfold prepare
  split
  · exact ⟨3, _, _, rfl, by decide⟩
  next untyped =>
    have typed : isGrpcContentType request.headers = true := by simpa using untyped
    split
    · exact ⟨12, _, _, rfl, by decide⟩
    next method found =>
      split
      · exact ⟨12, _, _, rfl, by decide⟩
      next streams =>
        have single : method.clientStreaming = false := by simpa using streams
        split
        · exact ⟨3, _, _, rfl, by decide⟩
        next bytes body =>
          split
          · exact ⟨3, _, _, rfl, by decide⟩
          next payload framed =>
            split
            · exact ⟨3, _, _, rfl, by decide⟩
            next message read =>
              exact absurd ⟨typed, found, single, bytes, payload, message, body, framed, read⟩
                (uncalled method)

/-- The reply to a unary call is mocked for the output of its method. -/
theorem prepare_response {call : UnaryCall protobuf} (prepared : server.prepare request = .ok call) :
    ∃ seed, protobuf.generateDynamicMessage call.method.output seed = .ok call.response := by
  by_cases called : ∃ method, server.Calls request method
  · obtain ⟨method, calls⟩ := called
    cases kind : method.serverStreaming with
    | true => cases (prepare_of_stream calls kind).symm.trans prepared
    | false =>
        cases made : protobuf.generateDynamicMessage method.output
            (deterministicHash server.seed request.path) with
        | error error => cases (prepare_of_error calls kind made).symm.trans prepared
        | ok response =>
            obtain ⟨message, same⟩ := prepare_of_ok calls kind made
            cases same.symm.trans prepared
            exact ⟨_, made⟩
  · obtain ⟨_, _, _, refused, _⟩ :=
      prepare_of_uncalled fun method calls => called ⟨method, calls⟩
    cases refused.symm.trans prepared

end GrpcServer

/-- The answer to a unary call after its resolution. -/
def grpcAnswer (call : UnaryCall protobuf) : Resolution → GrpcResponse
  | .failed failure =>
      .failed (grpcCodeFor failure.status) failure.detail (some (failureJson failure))
  | .body value | .forced _ (some value) =>
      match protobuf.deserialize call.method.output value with
      | .ok message => .success [frameOf message]
      | .error error =>
          .failed 13 ("failed to build stored response message: " ++ error) none
  | .forced status none =>
      .failed (grpcCodeFor status) ("scenario declared status " ++ toString status) none
  | .ungoverned | .empty => .success [frameOf call.response]

/-- What a unary call asks of the scenarios. -/
def UnaryCall.resolution (call : UnaryCall protobuf) (request : GrpcRequest) : Request where
  scenario := (grpcDirectives request.headers).scenario
  session := (grpcDirectives request.headers).session
  method := "unary"
  pathTemplate := request.path
  params := ∅
  request := some (protobuf.toValue call.request)
  response := protobuf.toValue call.response
  preferCode := false
  validated := true
  createValue := .response

/-- Answer a request; without scenarios the mocked message is served as it is. -/
def GrpcServer.call (server : GrpcServer protobuf) (scenarios : Option ScenarioRuntime)
    (request : GrpcRequest) : Option ScenarioRuntime × GrpcResponse :=
  match server.prepare request with
  | .error response => (scenarios, response)
  | .ok call =>
      match scenarios with
      | none => (none, .success [frameOf call.response])
      | some runtime =>
          let directives := grpcDirectives request.headers
          let resolved := runtime.resolveGrpc directives.scenario directives.session request.path
            (protobuf.toValue call.request) (protobuf.toValue call.response)
          (some resolved.1, grpcAnswer call resolved.2)

/-- A unary call is resolved, and its resolution decides the answer. -/
theorem GrpcServer.call_of_prepare {server : GrpcServer protobuf} {request : GrpcRequest}
    {call : UnaryCall protobuf} (prepared : server.prepare request = .ok call)
    (runtime : ScenarioRuntime) :
    server.call (some runtime) request =
      (some (runtime.resolveWith (call.resolution request)).1,
        grpcAnswer call (runtime.resolveWith (call.resolution request)).2) := by
  simp only [GrpcServer.call, prepared]
  rfl

/-- Widgets are created until the stock is closed, and may be discarded then. -/
def stock : ScenarioEntry where
  name := "stock"
  initialState := "open"
  seed := []
  states := OrderedMap.collect
    [("open", OrderedMap.collect [("createWidget", ⟨some "closed", ∅⟩)]),
      ("closed", OrderedMap.collect [("discardWidget", ⟨none, ∅⟩)])]

/-- An action on the widget that a message names by its `id`. -/
def widgetStore (action : StoreAction) : StoreSpec :=
  ⟨"widgets", action, none, some ⟨.request, "/id"⟩⟩

def widgetSidecar : ValidatedSidecar where
  sidecar := ⟨1, OrderedMap.collect
    [("createWidget", ⟨⟨"unary", "/widgets.Widgets/Create"⟩, some (widgetStore .create), ∅⟩),
      ("discardWidget", ⟨⟨"unary", "/widgets.Widgets/Discard"⟩, some (widgetStore .delete), ∅⟩)],
    [stock]⟩
  supported := rfl
  valid := by decide

/-- The service that creates widgets, with a message of the type `output`. -/
def widgetServer (output : String) : GrpcServer stringMessages where
  methods := (∅ : FiniteMap _ _).insert "/widgets.Widgets/Create" ⟨"id", output, false, false⟩
  seed := 0

/-- A call that creates a widget under the identifier `a`. -/
def createWidget : GrpcRequest where
  headers := [("content-type", some "application/grpc")]
  path := "/widgets.Widgets/Create"
  body := some [0, 0, 0, 0, 3, 10, 1, 97]

example : ((widgetServer "id").call (some (ScenarioRuntime.new widgetSidecar 8 8)) createWidget).2 =
    .success [[0, 0, 0, 0, 3, 10, 1, 97]] := by decide

end SpecMock.Runtime
