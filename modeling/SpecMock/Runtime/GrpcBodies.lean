import SpecMock.Library.Machine
import SpecMock.Runtime.GrpcFrames
import SpecMock.Runtime.GrpcOutcomes
import SpecMock.Runtime.GrpcTrailers

/-!
# Bodies of gRPC responses

A response is a body that yields its data frames one by one, then its trailers,
then nothing.  What a client puts together from the frames is read as the
messages of the response, and the trailers tell it the status.
-/

namespace SpecMock.Runtime

open SpecMock.Library SpecMock.Core

inductive BodyFrame where
  | data (bytes : List UInt8)
  | trailers (headers : Trailers)
  deriving DecidableEq

structure GrpcBody where
  dataFrames : List (List UInt8)
  trailers : Option Trailers
  index : Nat

namespace GrpcBody

/-- Yield the next frame. -/
def pollFrame (body : GrpcBody) (_ : Unit) : GrpcBody × Option BodyFrame :=
  match body.dataFrames[body.index]? with
  | some frame => ({ body with index := body.index + 1 }, some (.data frame))
  | none =>
      match body.trailers with
      | some trailers => ({ body with trailers := none }, some (.trailers trailers))
      | none => (body, none)

/-- The frames that are still to come. -/
def remaining (body : GrpcBody) : List BodyFrame :=
  (body.dataFrames.drop body.index).map .data ++ body.trailers.toList.map .trailers

end GrpcBody

/-- The body that a response is sent with. -/
def GrpcResponse.body (encoding : StatusEncoding) (rules : HeaderRules) :
    GrpcResponse → GrpcBody
  | .success frames => ⟨frames, some [("grpc-status", "0")], 0⟩
  | .failed code message details =>
      ⟨[], some (errorTrailers encoding rules code message details), 0⟩

namespace GrpcBody

/-- A poll yields the first of the frames that are still to come. -/
theorem pollFrame_eq (body : GrpcBody) :
    (body.pollFrame ()).2 = body.remaining.head? ∧
      (body.pollFrame ()).1.remaining = body.remaining.tail := by
  obtain ⟨dataFrames, trailers, index⟩ := body
  unfold pollFrame remaining
  dsimp only
  cases next : dataFrames[index]? with
  | some frame =>
      have rest := List.drop_eq_getElem?_toList_append (l := dataFrames) (i := index)
      rw [next] at rest
      simp [rest]
  | none =>
      have done : dataFrames.drop index = [] :=
        List.drop_eq_nil_of_le (List.getElem?_eq_none_iff.mp next)
      cases trailers with
      | some trailers => simp [done]
      | none => simp [done]

/-- However often a body is polled, it yields its frames in order and nothing behind them. -/
theorem answers_pollFrame (body : GrpcBody) (polls : Nat) :
    answers pollFrame body (List.replicate polls ()) =
      (body.remaining.map some ++ List.replicate polls none).take polls := by
  induction polls generalizing body with
  | zero => rfl
  | succ polls ih =>
      obtain ⟨first, rest⟩ := body.pollFrame_eq
      rw [List.replicate_succ, answers_cons, ih, first, rest]
      cases body.remaining with
      | nil => simp [List.replicate_succ]
      | cons frame frames =>
          have enough : polls ≤ polls + 1 + frames.length := by omega
          simp [List.take_append, enough]

end GrpcBody

/-- The messages in the bytes of all data frames. -/
def readMessages : Nat → List UInt8 → Option (List (List UInt8))
  | _, [] => some []
  | 0, _ :: _ => none
  | fuel + 1, bytes =>
      match decodeGrpcUnaryFrame bytes with
      | .error _ => none
      | .ok payload =>
          (readMessages fuel (bytes.drop (5 + payload.length))).map fun rest => payload :: rest

theorem length_encodeGrpcUnaryFrame (payload : List UInt8) :
    (encodeGrpcUnaryFrame payload).length = 5 + payload.length := by
  simp [encodeGrpcUnaryFrame]
  omega

theorem readMessages_of_ok {fuel : Nat} {bytes payload : List UInt8}
    (decoded : decodeGrpcUnaryFrame bytes = .ok payload) :
    readMessages (fuel + 1) bytes =
      (readMessages fuel (bytes.drop (5 + payload.length))).map fun rest => payload :: rest := by
  cases bytes with
  | nil => cases decoded
  | cons byte bytes => simp only [readMessages, decoded]

/-- Frames one after the other are read as what they were made of. -/
theorem readMessages_flatten {payloads : List (List UInt8)} {fuel : Nat}
    (enough : payloads.length ≤ fuel) (small : ∀ payload ∈ payloads, payload.length < 2 ^ 32) :
    readMessages fuel (payloads.map encodeGrpcUnaryFrame).flatten = some payloads := by
  induction payloads generalizing fuel with
  | nil => cases fuel <;> rfl
  | cons payload rest ih =>
      obtain ⟨fits, later⟩ := List.forall_mem_cons.mp small
      have decoded := decodeGrpcUnaryFrame_eq_ok_iff_frame.mpr
        ⟨fits, (rest.map encodeGrpcUnaryFrame).flatten, rfl⟩
      cases fuel with
      | zero => cases enough
      | succ fuel =>
          rw [List.map_cons, List.flatten_cons, readMessages_of_ok decoded,
            List.drop_left' (length_encodeGrpcUnaryFrame payload),
            ih (Nat.le_of_succ_le_succ enough) later]
          rfl

/-- There are no more messages than bytes. -/
theorem length_le_flatten (payloads : List (List UInt8)) :
    payloads.length ≤ (payloads.map encodeGrpcUnaryFrame).flatten.length := by
  induction payloads with
  | nil => exact Nat.le_refl 0
  | cons payload rest ih =>
      rw [List.map_cons, List.flatten_cons, List.length_append, List.length_cons,
        length_encodeGrpcUnaryFrame]
      omega

/-- The data of what was polled from a body. -/
def receivedBytes (polled : List (Option BodyFrame)) : List UInt8 :=
  polled.flatMap fun
    | some (.data bytes) => bytes
    | _ => []

theorem receivedBytes_nothing (count : Nat) :
    receivedBytes (List.replicate count none) = [] := by
  induction count with
  | zero => rfl
  | succ count ih => exact ih

theorem receivedBytes_data (frames : List (List UInt8)) (rest : List (Option BodyFrame)) :
    receivedBytes (frames.map (fun frame => some (.data frame)) ++ rest) =
      frames.flatten ++ receivedBytes rest := by
  induction frames with
  | nil => rfl
  | cons frame frames ih =>
      rw [List.flatten_cons, List.append_assoc, ← ih]
      rfl

/-- All data of a body is received once it is polled until it yields its trailers. -/
theorem receivedBytes_of_enough {frames : List (List UInt8)} {trailers : Trailers} {polls : Nat}
    (enough : frames.length < polls) :
    receivedBytes ((frames.map (fun frame => some (BodyFrame.data frame)) ++
      some (BodyFrame.trailers trailers) :: List.replicate polls none).take polls) =
        frames.flatten := by
  obtain ⟨more, rfl⟩ := Nat.exists_eq_add_of_lt enough
  have room : frames.length + more + 1 - frames.length = more + 1 := by omega
  rw [List.take_append, List.length_map, List.take_of_length_le (by simp; omega),
    receivedBytes_data, room, List.take_succ_cons, List.take_replicate]
  have rest : receivedBytes (some (BodyFrame.trailers trailers) ::
      List.replicate (min more (frames.length + more + 1)) none) = [] := receivedBytes_nothing _
  rw [rest, List.append_nil]

section Calls

variable {protobuf : Protobuf}

/-- The frames of a streaming response are those of messages. -/
theorem exists_messages_of_streamingFrames {output : protobuf.Descriptor} {seed : BitVec 64}
    {indices : List Nat} {frames : List (List UInt8)}
    (streamed : streamingFrames output seed indices = .ok frames) :
    ∃ messages : List protobuf.Message, frames = messages.map frameOf := by
  induction indices generalizing frames with
  | nil =>
      cases streamed
      exact ⟨[], rfl⟩
  | cons index rest ih =>
      unfold streamingFrames at streamed
      split at streamed
      · cases streamed
      next message _ =>
        split at streamed
        · cases streamed
        next others produced =>
          cases streamed
          obtain ⟨messages, rfl⟩ := ih produced
          exact ⟨message :: messages, rfl⟩

/-- Whatever answers a request before the scenarios, its frames are those of messages. -/
theorem exists_messages_of_prepare {server : GrpcServer protobuf} {request : GrpcRequest}
    {frames : List (List UInt8)} (prepared : server.prepare request = .error (.success frames)) :
    ∃ messages : List protobuf.Message, frames = messages.map frameOf := by
  by_cases called : ∃ method, server.Calls request method
  · obtain ⟨method, calls⟩ := called
    cases kind : method.serverStreaming with
    | true =>
        have streamed := Except.error.inj
          ((GrpcServer.prepare_of_stream calls kind).symm.trans prepared)
        unfold buildStreamingResponse at streamed
        split at streamed
        · cases streamed
        next produced =>
          cases streamed
          exact exists_messages_of_streamingFrames produced
    | false =>
        cases made : protobuf.generateDynamicMessage method.output
            (deterministicHash server.seed request.path) with
        | error error => cases (GrpcServer.prepare_of_error calls kind made).symm.trans prepared
        | ok response =>
            obtain ⟨message, same⟩ := GrpcServer.prepare_of_ok calls kind made
            cases same.symm.trans prepared
  · obtain ⟨_, _, _, refused, _⟩ :=
      GrpcServer.prepare_of_uncalled fun method calls => called ⟨method, calls⟩
    cases refused.symm.trans prepared

/-- The frames of every successful call are those of messages. -/
theorem exists_messages_of_call {server : GrpcServer protobuf} {request : GrpcRequest}
    {scenarios : Option ScenarioRuntime} {frames : List (List UInt8)}
    (answered : (server.call scenarios request).2 = .success frames) :
    ∃ messages : List protobuf.Message, frames = messages.map frameOf := by
  cases prepared : server.prepare request with
  | error response =>
      simp only [GrpcServer.call, prepared] at answered
      subst answered
      exact exists_messages_of_prepare prepared
  | ok call =>
      cases scenarios with
      | none =>
          simp only [GrpcServer.call, prepared] at answered
          cases answered
          exact ⟨[call.response], rfl⟩
      | some runtime =>
          rw [GrpcServer.call_of_prepare prepared] at answered
          dsimp only at answered
          unfold grpcAnswer at answered
          split at answered
          · cases answered
          iterate 2
            split at answered
            next message _ =>
              cases answered
              exact ⟨[message], rfl⟩
            · cases answered
          · cases answered
          iterate 2
            cases answered
            exact ⟨[call.response], rfl⟩

end Calls

/-- The status of a response is among its trailers. -/
theorem GrpcResponse.body_eq {rules : HeaderRules} (takes : rules.TakesAscii)
    (encoding : StatusEncoding) (response : GrpcResponse) :
    ∃ frames trailers, response.body encoding rules = ⟨frames, some trailers, 0⟩ ∧
      trailers.lookup "grpc-status" = some (toString response.status) ∧
        (response = .success frames ∨
          frames = [] ∧ ∃ code message details, response = .failed code message details) := by
  cases response with
  | success frames =>
      have zero : List.lookup "grpc-status" [("grpc-status", "0")] = some (toString 0) := by decide
      exact ⟨frames, _, rfl, zero, .inl rfl⟩
  | failed code message details =>
      refine ⟨[], _, rfl, ?_, .inr ⟨rfl, code, message, details, rfl⟩⟩
      rw [errorTrailers_eq takes]
      rfl

section Delivery

variable {protobuf : Protobuf}

/--
Whatever is called in whatever state, the body of the answer yields the frames
of messages, then trailers with the status of the call, and then nothing.  A
failed call yields no messages; and from the data a client reads the messages
again, unless one is too long for a frame.
-/
theorem calls_delivered {rules : HeaderRules} (takes : rules.TakesAscii)
    (encoding : StatusEncoding) (server : GrpcServer protobuf)
    (scenarios : Option ScenarioRuntime) (request : GrpcRequest) :
    let response := (server.call scenarios request).2
    ∃ (messages : List protobuf.Message) (trailers : Trailers),
      (response = .success (messages.map frameOf) ∨
        messages = [] ∧ ∃ code message details, response = .failed code message details) ∧
      trailers.lookup "grpc-status" = some (toString response.status) ∧
      ∀ polls,
        let polled := answers GrpcBody.pollFrame (response.body encoding rules)
          (List.replicate polls ())
        polled = (messages.map (fun message => some (BodyFrame.data (frameOf message))) ++
          some (BodyFrame.trailers trailers) :: List.replicate polls none).take polls ∧
        (messages.length < polls →
          (∀ message ∈ messages, (protobuf.encode message).length < 2 ^ 32) →
            readMessages (receivedBytes polled).length (receivedBytes polled) =
              some (messages.map protobuf.encode)) := by
  intro response
  obtain ⟨frames, trailers, sent, status, kind⟩ := response.body_eq takes encoding
  have made : ∃ messages : List protobuf.Message, frames = messages.map frameOf ∧
      (response = .success (messages.map frameOf) ∨
        messages = [] ∧ ∃ code message details, response = .failed code message details) := by
    rcases kind with success | ⟨rfl, failed⟩
    · obtain ⟨messages, rfl⟩ := exists_messages_of_call success
      exact ⟨messages, rfl, .inl success⟩
    · exact ⟨[], rfl, .inr ⟨rfl, failed⟩⟩
  obtain ⟨messages, rfl, outcome⟩ := made
  refine ⟨messages, trailers, outcome, status, fun polls => ?_⟩
  have order := GrpcBody.answers_pollFrame ⟨messages.map frameOf, some trailers, 0⟩ polls
  have remaining : (GrpcBody.remaining ⟨messages.map frameOf, some trailers, 0⟩).map some ++
      List.replicate polls none =
      (messages.map frameOf).map (fun frame => some (BodyFrame.data frame)) ++
        some (BodyFrame.trailers trailers) :: List.replicate polls none := by
    simp [GrpcBody.remaining]
  rw [remaining] at order
  rw [sent, order]
  refine ⟨by rw [List.map_map]; rfl, fun enough small => ?_⟩
  have framed : messages.map frameOf = (messages.map protobuf.encode).map encodeGrpcUnaryFrame := by
    rw [List.map_map]
    rfl
  rw [receivedBytes_of_enough (by rwa [List.length_map]), framed]
  refine readMessages_flatten (length_le_flatten _) fun payload member => ?_
  obtain ⟨message, inside, rfl⟩ := List.mem_map.mp member
  exact small message inside

/--
A call that the scenarios refuse is answered with trailers alone, and they tell
the client which failure there was: the code and the characters of the message
that can be sent always, and, unless the text of the details is no header value,
the failure itself up to the scenarios that are listed as declared.
-/
theorem failures_delivered {rules : HeaderRules} (takes : rules.TakesAscii)
    (encoding : StatusEncoding) {server : GrpcServer protobuf} {runtime : ScenarioRuntime}
    {request : GrpcRequest} {call : UnaryCall protobuf} {failure : StatefulFailure}
    (prepared : server.prepare request = .ok call)
    (refused : (runtime.resolveWith (call.resolution request)).2 = .failed failure) :
    ∃ trailers, (server.call (some runtime) request).2.body encoding rules =
        ⟨[], some trailers, 0⟩ ∧ Reports encoding rules failure trailers := by
  rw [GrpcServer.call_of_prepare prepared, refused]
  exact ⟨_, rfl, reports_errorTrailers takes failure⟩

end Delivery

theorem calls_delivered_widgets :
    let runtime := ScenarioRuntime.new widgetSidecar 8 8
    let response := ((widgetServer "id").call (some runtime) createWidget).2
    let polled := answers GrpcBody.pollFrame (response.body widgetEncoding textRules)
      (List.replicate 2 ())
    readMessages (receivedBytes polled).length (receivedBytes polled) = some [[10, 1, 97]] := by
  intro runtime response polled
  have success : response = .success [[0, 0, 0, 0, 3, 10, 1, 97]] := by decide
  obtain ⟨messages, trailers, outcome, _, received⟩ := calls_delivered textRules_takesAscii
    widgetEncoding (widgetServer "id") (some runtime) createWidget
  change response = _ ∨ messages = [] ∧ ∃ code message details, response = _ at outcome
  rw [success] at outcome
  rcases outcome with frames | ⟨_, _, _, _, failed⟩
  case inr => cases failed
  have framed := (GrpcResponse.success.inj frames).symm
  have payloads : messages.map stringMessages.encode = [[10, 1, 97]] := by
    have dropped := congrArg (List.map (List.drop 5)) framed
    rw [List.map_map] at dropped
    exact dropped
  have one : messages.length = 1 := by
    have counted := congrArg List.length framed
    rwa [List.length_map] at counted
  have small : ∀ message ∈ messages, (stringMessages.encode message).length < 2 ^ 32 := by
    intro message member
    have listed := List.mem_map_of_mem (f := stringMessages.encode) member
    rw [payloads, List.mem_singleton] at listed
    rw [listed]
    decide
  rw [← payloads]
  exact (received 2).2 (by omega) small

/-- The second of two creations comes too late. -/
def soldOut : StatefulFailure :=
  .illegalOperation "stock" defaultSession "closed" "createWidget"

theorem failures_delivered_soldOut :
    ∃ runtime trailers,
      ((widgetServer "id").call (some runtime) createWidget).2.body widgetEncoding textRules =
        ⟨[], some trailers, 0⟩ ∧ Reports widgetEncoding textRules soldOut trailers := by
  let first := ScenarioRuntime.new widgetSidecar 8 8
  have refused : ((first.resolveWith (widgetCall.resolution createWidget)).1.resolveWith
      (widgetCall.resolution createWidget)).2 = .failed soldOut := by decide
  exact ⟨_, failures_delivered textRules_takesAscii widgetEncoding widgetCall_prepared refused⟩

end SpecMock.Runtime
