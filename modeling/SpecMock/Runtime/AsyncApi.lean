import SpecMock.Runtime.GrpcCall

/-!
# Messages of an AsyncAPI document

A message names its channel in an envelope or is routed to the one channel
whose publish schema it satisfies.  It is answered with the example of the
channel, or with a payload generated from its subscribe schema; a scenario may
then answer from its store instead.
-/

namespace SpecMock.Runtime

open SpecMock.Library SpecMock.Core

structure ValidationIssue where
  instancePointer : String
  schemaPointer : String
  keyword : String
  message : String
  deriving DecidableEq

/-- What the server takes from its JSON libraries. -/
structure JsonLibraries where
  fromStr : String → Except String Value
  /-- The issues of an instance, or why the schema does not compile. -/
  validateInstance : Value → Value → Except String (List ValidationIssue)

/-- Outgoing events of a channel. -/
inductive WsOutcome where
  | error (errors : List ValidationIssue)
  | mock (channel : String) (payload : Value)
  deriving DecidableEq

structure ChannelSpec where
  publishSchema : Option Value
  subscribeSchema : Option Value
  subscribeExample : Option Value

structure AsyncApiRuntime where
  channels : FiniteMap String ChannelSpec

structure ResolvedIncomingMessage where
  channelName : String
  payload : Value

/-- A message that names its channel, with the payload next to the name. -/
def parseExplicitEnvelope (raw : Value) : Option ResolvedIncomingMessage :=
  match raw with
  | .object _ =>
      (((raw.get "channel").or (raw.get "topic")).bind Value.asStr).map fun channelName =>
        ⟨channelName, (((raw.get "payload").or (raw.get "data")).or (raw.get "message")).getD
          (.object [])⟩
  | _ => none

section Messages

variable (json : JsonLibraries) (libraries : Libraries) (asyncapi : AsyncApiRuntime)

/-- A channel takes a message if its publish schema has no issue with it, or if it has none. -/
def ChannelSpec.takes (channel : ChannelSpec) (raw : Value) : Bool :=
  match channel.publishSchema with
  | none => true
  | some schema =>
      match json.validateInstance schema raw with
      | .ok issues => issues.isEmpty
      | .error _ => false

namespace AsyncApiRuntime

def matchedChannels (raw : Value) : List String :=
  (asyncapi.channels.entries.filter fun entry => entry.2.takes json raw).map Sigma.fst

def resolveChannelAndPayload (raw : Value) :
    Except (List ValidationIssue) ResolvedIncomingMessage :=
  match parseExplicitEnvelope raw with
  | some explicit => .ok explicit
  | none =>
      match asyncapi.matchedChannels json raw with
      | [channelName] => .ok ⟨channelName, raw⟩
      | [] => .error [⟨"/", "#/channels", "routing",
          "unable to route websocket message to any channel"⟩]
      | several => .error [⟨"/", "#/channels", "routing",
          "ambiguous websocket message, matched multiple channels: " ++
            ", ".intercalate several⟩]

/-- What a channel publishes in answer to a message it has accepted. -/
def published (channelName : String) (channel : ChannelSpec) (seed : BitVec 64) : WsOutcome :=
  match channel.subscribeExample, channel.subscribeSchema with
  | some payload, _ => .mock channelName payload
  | none, some schema =>
      match Faker.generateJsonValue libraries.random schema
          (deterministicHash seed channelName) with
      | .ok payload => .mock channelName payload
      | .error error => .error [⟨"/payload", "#", "faker", error⟩]
  | none, none => .mock channelName (.object [])

/-- Answer one incoming message. -/
def handleMessage (text : String) (seed : BitVec 64) : WsOutcome :=
  match json.fromStr text with
  | .error error => .error [⟨"/", "#", "json", "invalid websocket json message: " ++ error⟩]
  | .ok raw =>
      match asyncapi.resolveChannelAndPayload json raw with
      | .error errors => .error errors
      | .ok resolved =>
          match asyncapi.channels.lookup resolved.channelName with
          | none => .error [⟨"/channel", "#/channels", "enum",
              "unknown channel '" ++ resolved.channelName ++ "'"⟩]
          | some channel =>
              match channel.publishSchema with
              | none => published libraries resolved.channelName channel seed
              | some schema =>
                  match json.validateInstance schema resolved.payload with
                  | .error error => .error [⟨"/payload", "#", "schema", error⟩]
                  | .ok [] => published libraries resolved.channelName channel seed
                  | .ok issues => .error issues

/-- A message to a pinned channel travels in an envelope, unless it is no JSON. -/
def handlePinned (pinnedChannel : Option String) (text : String) (seed : BitVec 64) : WsOutcome :=
  match pinnedChannel, json.fromStr text with
  | some channel, .ok payload =>
      asyncapi.handleMessage json libraries
        (Value.object [("channel", .string channel), ("payload", payload)]).toText seed
  | _, _ => asyncapi.handleMessage json libraries text seed

end AsyncApiRuntime

end Messages

/-- The payload a scenario may replace: that of a mocked reply on a pinned channel. -/
def WsOutcome.replaceable : WsOutcome → Option String → Option (String × Value)
  | .mock _ payload, some channel => some (channel, payload)
  | _, _ => none

/-- The reply on a channel after its resolution. -/
def wsAnswer (channel : String) (outcome : WsOutcome) : Resolution → WsOutcome
  | .body value | .forced _ (some value) => .mock channel value
  | .failed failure => .error [⟨"/", "#", "scenario", failure.detail⟩]
  | .ungoverned | .empty | .forced _ none => outcome

/-- Let a scenario answer from its store, or inject a failure. -/
def applyScenario (scenarios : Option ScenarioRuntime) (outcome : WsOutcome)
    (scenarioName : Option String) (session : String) (pinnedChannel : Option String)
    (incoming : Option Value) : Option ScenarioRuntime × WsOutcome :=
  match scenarios, scenarioName, outcome.replaceable pinnedChannel with
  | some runtime, some scenario, some (channel, payload) =>
      let resolved := runtime.resolveChannel scenario session channel incoming payload
      (some resolved.1, wsAnswer channel outcome resolved.2)
  | _, _, _ => (scenarios, outcome)

end SpecMock.Runtime
