import SpecMock.Runtime.GrpcCall
import SpecMock.Runtime.MessageNesting

/-!
# Mocked answers of the gRPC server

The server mocks the output of the called method with the hash of the path, and
a server stream mocks it for consecutive seeds.  Whether a call has a mock is a
matter of its method alone: it has none where the output leads too deep, and
then the scenarios never learn of it.
-/

namespace SpecMock.Runtime

open SpecMock.Library SpecMock.Core Grpc

/-- The messages of the type lead deeper than they are mocked. -/
def Protobuf.TooDeep (protobuf : Protobuf) (output : protobuf.Descriptor) : Prop :=
  protobuf.reflection.Descends (maxMessageDepth + 1) output

/-- The message has the type, and of every group one field at most. -/
def Protobuf.Mocks (protobuf : Protobuf) (output : protobuf.Descriptor)
    (message : protobuf.Message) : Prop :=
  protobuf.reflection.descriptor message = output ∧ protobuf.reflection.OneofsSingle message

/-- The answer to a call whose output leads too deep. -/
def depthReached : GrpcResponse :=
  generationFailed "maximum protobuf message recursion depth reached"

variable {protobuf : Protobuf}

section Messages

variable (lawful : protobuf.reflection.Lawful) {output : protobuf.Descriptor}
  (inhabited : protobuf.reflection.EnumsInhabited output)

include lawful inhabited

theorem generateDynamicMessage_of_deep (deep : protobuf.TooDeep output) (seed : BitVec 64) :
    protobuf.generateDynamicMessage output seed =
      .error "maximum protobuf message recursion depth reached" :=
  Reflection.generateLevels_error lawful protobuf.random inhabited deep seed 0

theorem exists_mock_of_shallow (shallow : ¬ protobuf.TooDeep output) (seed : BitVec 64) :
    ∃ message, protobuf.generateDynamicMessage output seed = .ok message ∧
      protobuf.Mocks output message :=
  Reflection.generateLevels_ok lawful protobuf.random
    ((Reflection.completes_iff inhabited).mpr shallow) seed 0

/-- A stream of a shallow output has a mock for every seed. -/
theorem streamingFrames_of_shallow (shallow : ¬ protobuf.TooDeep output) (baseSeed : BitVec 64)
    (indices : List Nat) :
    ∃ messages : List protobuf.Message, messages.length = indices.length ∧
      (∀ message ∈ messages, protobuf.Mocks output message) ∧
      streamingFrames output baseSeed indices = .ok (messages.map frameOf) := by
  induction indices with
  | nil => exact ⟨[], rfl, nofun, rfl⟩
  | cons index rest ih =>
      obtain ⟨messages, length, mocks, framed⟩ := ih
      obtain ⟨message, made, mock⟩ := exists_mock_of_shallow lawful inhabited shallow
        (baseSeed + BitVec.ofNat 64 index)
      refine ⟨message :: messages, congrArg Nat.succ length,
        List.forall_mem_cons.mpr ⟨mock, mocks⟩, ?_⟩
      rw [streamingFrames, made, framed]
      rfl

/-- A stream of an output that leads too deep fails with its first message. -/
theorem buildStreamingResponse_of_deep {method : MethodDescriptor protobuf}
    (same : method.output = output) (deep : protobuf.TooDeep output) (baseSeed : BitVec 64) :
    buildStreamingResponse method baseSeed = depthReached := by
  subst same
  rw [buildStreamingResponse, show List.range streamingCount = [0, 1, 2] from rfl, streamingFrames,
    generateDynamicMessage_of_deep lawful inhabited deep]
  rfl

end Messages

namespace GrpcServer

/-- The request calls a method whose output leads too deep. -/
def CallsTooDeep (server : GrpcServer protobuf) (request : GrpcRequest) : Prop :=
  ∃ method, server.Calls request method ∧ protobuf.TooDeep method.output

variable {server : GrpcServer protobuf} {request : GrpcRequest}
  {method : MethodDescriptor protobuf}

theorem Calls.unique {other : MethodDescriptor protobuf} (calls : server.Calls request method)
    (calls' : server.Calls request other) : method = other :=
  Option.some.inj (calls.found.symm.trans calls'.found)

end GrpcServer

theorem head_append {text : String} {char : Char} (first : text.toList.head? = some char)
    (rest : String) : (text ++ rest).toList.head? = some char := by
  rw [String.toList_append, List.head?_append, first, Option.some_or]

/-- No failure of the scenarios is told in the words of a missing mock. -/
theorem StatefulFailure.detail_ne (failure : StatefulFailure) :
    failure.detail ≠ "failed to generate protobuf response" := by
  have begins : ∃ char, failure.detail.toList.head? = some char ∧ char ≠ 'f' := by
    unfold detail
    cases failure with
    | unknownScenario requested available =>
        dsimp only
        by_cases none : available = []
        · rw [if_pos none]
          exact ⟨'n', head_append (head_append (by decide) _) _, by decide⟩
        · rw [if_neg none]
          exact ⟨'u', head_append (head_append (head_append (by decide) _) _) _, by decide⟩
    | illegalOperation scenario session state operation =>
        refine ⟨'o', ?_, by decide⟩
        iterate 8 refine head_append ?_ _
        decide
    | resourceNotFound key => exact ⟨'n', head_append (by decide) _, by decide⟩
    | resourceExists key => exact ⟨'a', head_append (by decide) _, by decide⟩
    | sessionCapExceeded limit => exact ⟨'l', head_append (head_append (by decide) _) _, by decide⟩
    | storeCapExceeded limit => exact ⟨'s', head_append (head_append (by decide) _) _, by decide⟩
  obtain ⟨char, first, other⟩ := begins
  intro same
  rw [same] at first
  exact other (Option.some.inj (first.symm.trans (by decide)))

/-- The scenarios never answer that there is no mock. -/
theorem grpcAnswer_ne_generationFailed (call : UnaryCall protobuf) (resolution : Resolution)
    (error : String) : grpcAnswer call resolution ≠ generationFailed error := by
  intro same
  unfold grpcAnswer generationFailed at same
  split at same
  next failure => exact failure.detail_ne (GrpcResponse.failed.inj same).2.1
  iterate 2
    split at same
    · cases same
    · exact nomatch (GrpcResponse.failed.inj same).2.2
  · exact nomatch (GrpcResponse.failed.inj same).2.2
  all_goals cases same

namespace GrpcServer

/-- What is known of the mock in the answer to a request. -/
structure AnswersMocked (server : GrpcServer protobuf) (request : GrpcRequest)
    (answer : GrpcResponse) : Prop where
  refused : server.CallsTooDeep request → answer = depthReached
  /-- No mock is missing elsewhere. -/
  excused : ∀ error, answer = generationFailed error → server.CallsTooDeep request
  streamed : ∀ method, server.Calls request method → method.serverStreaming = true →
    ¬ protobuf.TooDeep method.output → ∃ messages : List protobuf.Message,
      messages.length = streamingCount ∧
        (∀ message ∈ messages, protobuf.Mocks method.output message) ∧
          answer = .success (messages.map frameOf)

section Answers

variable {server : GrpcServer protobuf} {request : GrpcRequest}
  (lawful : protobuf.reflection.Lawful)
  (inhabited : ∀ path method, server.methods.lookup path = some method →
    protobuf.reflection.EnumsInhabited method.output)

include lawful inhabited

/-- A call of an output that leads too deep is answered without the scenarios. -/
theorem call_of_deep (deep : server.CallsTooDeep request) (scenarios : Option ScenarioRuntime) :
    server.call scenarios request = (scenarios, depthReached) := by
  obtain ⟨method, calls, deep⟩ := deep
  have whole := inhabited _ _ calls.found
  have prepared : server.prepare request = .error depthReached := by
    cases kind : method.serverStreaming with
    | true =>
        rw [prepare_of_stream calls kind, buildStreamingResponse_of_deep lawful whole rfl deep]
    | false =>
        exact prepare_of_error calls kind (generateDynamicMessage_of_deep lawful whole deep _)
  rw [call, prepared]

/-- In whatever state, a mock is missing exactly in the answers to calls that lead too deep. -/
theorem answersMocked_call (scenarios : Option ScenarioRuntime) :
    server.AnswersMocked request (server.call scenarios request).2 := by
  refine ⟨fun deep => by rw [call_of_deep lawful inhabited deep], fun error failed => ?_, ?_⟩
  · by_contra shallow
    by_cases called : ∃ method, server.Calls request method
    · obtain ⟨method, calls⟩ := called
      have whole := inhabited _ _ calls.found
      have bounded : ¬ protobuf.TooDeep method.output := fun deep => shallow ⟨method, calls, deep⟩
      cases kind : method.serverStreaming with
      | true =>
          obtain ⟨messages, -, -, framed⟩ := streamingFrames_of_shallow lawful whole bounded
            (deterministicHash server.seed request.path) (List.range streamingCount)
          rw [call, prepare_of_stream calls kind, buildStreamingResponse, framed] at failed
          cases failed
      | false =>
          obtain ⟨response, made, -⟩ := exists_mock_of_shallow lawful whole bounded
            (deterministicHash server.seed request.path)
          obtain ⟨message, prepared⟩ := prepare_of_ok calls kind made
          cases scenarios with
          | none =>
              rw [call, prepared] at failed
              cases failed
          | some runtime =>
              rw [call_of_prepare prepared] at failed
              exact grpcAnswer_ne_generationFailed _ _ error failed
    · obtain ⟨code, message, details, prepared, other⟩ :=
        prepare_of_uncalled fun method calls => called ⟨method, calls⟩
      rw [call, prepared] at failed
      exact other (GrpcResponse.failed.inj failed).1
  · intro method calls streams shallow
    obtain ⟨messages, length, mocks, framed⟩ := streamingFrames_of_shallow lawful
      (inhabited _ _ calls.found) shallow (deterministicHash server.seed request.path)
      (List.range streamingCount)
    refine ⟨messages, length.trans List.length_range, mocks, ?_⟩
    rw [call, prepare_of_stream calls streams, buildStreamingResponse, framed]

open Classical in
/--
In every run of calls, a mock is missing exactly in the answers to calls whose
output leads too deep; a stream of any other output has all its mocks.  Such
calls leave the scenarios as they are, so the other answers are those of a run
without them.
-/
theorem mocks_missing_iff (scenarios : Option ScenarioRuntime) (requests : List GrpcRequest) :
    let shallow := requests.filter fun request => ¬ server.CallsTooDeep request
    (∀ event ∈ trace server.call scenarios requests, server.AnswersMocked event.1 event.2) ∧
      stateAfter server.call scenarios requests = stateAfter server.call scenarios shallow ∧
        (answers server.call scenarios requests).filter (· ≠ depthReached) =
          answers server.call scenarios shallow := by
  intro shallow
  constructor
  · intro event member
    obtain ⟨before, _, _, answered⟩ := exists_of_mem_trace member
    rw [answered]
    exact answersMocked_call lawful inhabited _
  · have acts : ∀ state (request other : GrpcRequest),
        Option.guard (fun request => ¬ server.CallsTooDeep request) request = some other →
          (server.call state request).1 = (server.call state other).1 ∧
            Option.guard (fun answer => answer ≠ depthReached) (server.call state request).2 =
              some (server.call state other).2 := by
      intro state request other kept
      obtain ⟨rfl, shallow⟩ := Option.guard_eq_some_iff.mp kept
      refine ⟨rfl, Option.guard_eq_some_iff.mpr ⟨rfl, decide_eq_true fun missing => ?_⟩⟩
      exact of_decide_eq_true shallow
        ((answersMocked_call lawful inhabited state).excused _ missing)
    have idles : ∀ state (request : GrpcRequest),
        Option.guard (fun request => ¬ server.CallsTooDeep request) request = none →
          (server.call state request).1 = state ∧
            Option.guard (fun answer => answer ≠ depthReached) (server.call state request).2 =
              none := by
      intro state request dropped
      have deep : server.CallsTooDeep request := by simpa using dropped
      rw [call_of_deep lawful inhabited deep]
      exact ⟨rfl, Option.guard_eq_none_iff.mpr (decide_eq_false fun other => other rfl)⟩
    have erased := stateAfter_erased acts idles scenarios requests
    rw [List.filterMap_eq_filter, List.filterMap_eq_filter] at erased
    exact erased

end Answers

end GrpcServer

/-- Threads of comments, of which empty ones are read, and written those of texts. -/
def commentMessages : Protobuf where
  Descriptor := CommentType
  reflection := records threadedFields
  decode descriptor bytes :=
    if bytes = [] then .ok ((records threadedFields).new descriptor)
    else .error "invalid wire type"
  encode message := message.values.flatMap fun
    | (number, .single (.string text)) =>
        let bytes := text.toList.flatMap String.utf8EncodeChar
        UInt8.ofNat (number.toNat * 8 + 2) :: UInt8.ofNat bytes.length :: bytes
    | _ => []
  toValue _ := .null
  deserialize _ _ := .error "expected a message"
  Rng := Unit
  Float := Unit
  random := .fixed 0

/-- The service that gives a thread of comments, and streams authors. -/
def commentServer : GrpcServer commentMessages where
  methods := ((∅ : FiniteMap _ _).insert "/comments.Comments/Thread"
    ⟨.author, .comment, false, false⟩).insert "/comments.Comments/Authors"
      ⟨.author, .author, false, true⟩
  seed := 42

/-- A call of the service with an empty message. -/
def commentRequest (path : String) : GrpcRequest where
  headers := [("content-type", some "application/grpc")]
  path := path
  body := some [0, 0, 0, 0, 0]

theorem decoded_commentRequest (descriptor : CommentType) :
    ∃ bytes payload message, (commentRequest "").body = some bytes ∧
      decodeGrpcUnaryFrame bytes = .ok payload ∧
        commentMessages.decode descriptor payload = .ok message :=
  ⟨_, [], _, rfl, by decide, rfl⟩

/-- Authors have a text and no messages. -/
theorem author_shallow : ¬ commentMessages.TooDeep .author := by
  rintro ⟨field, taken, -, inner, nested, -⟩
  have fields : (records threadedFields).mockFields .author = [optionalField 1 .string none] := rfl
  obtain rfl := List.mem_singleton.mp (fields ▸ taken)
  cases nested

/-- Every comment of a thread has one below it. -/
theorem thread_tooDeep : commentMessages.TooDeep .comment :=
  threadedFields_deep (maxMessageDepth + 1)

/-- A thread has no mock, and authors are streamed behind it all the same. -/
theorem mocks_missing_iff_comments :
    let thread := commentRequest "/comments.Comments/Thread"
    let authors := commentRequest "/comments.Comments/Authors"
    ∃ messages : List commentMessages.Message, messages.length = 3 ∧
      answers commentServer.call none [thread, authors] =
        [depthReached, .success (messages.map frameOf)] := by
  intro thread authors
  have inhabited : ∀ path method, commentServer.methods.lookup path = some method →
      commentMessages.reflection.EnumsInhabited method.output :=
    fun _ method _ => enumsInhabited_of_none threadedFields_enums method.output
  obtain ⟨each, -⟩ := GrpcServer.mocks_missing_iff threadedFields_lawful inhabited none
    [thread, authors]
  obtain ⟨first, rest⟩ := List.forall_mem_cons.mp each
  have second := List.forall_mem_singleton.mp rest
  have deep : commentServer.CallsTooDeep thread :=
    ⟨⟨.author, .comment, false, false⟩,
      ⟨by decide, by rfl, rfl, decoded_commentRequest .author⟩, thread_tooDeep⟩
  have streams : commentServer.Calls authors ⟨.author, .author, false, true⟩ :=
    ⟨by decide, by rfl, rfl, decoded_commentRequest .author⟩
  obtain ⟨messages, three, -, streamed⟩ := second.streamed _ streams rfl author_shallow
  have refused := first.refused deep
  dsimp only at refused streamed
  refine ⟨messages, three, ?_⟩
  rw [answers_cons, answers_cons, refused, streamed]
  rfl

end SpecMock.Runtime
