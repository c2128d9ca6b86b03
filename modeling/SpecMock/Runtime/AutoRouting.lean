import SpecMock.Core.SchemaMeaning
import SpecMock.Runtime.AsyncApi

/-!
# Routing by publish schema

A message without an envelope should go to the one channel whose publish schema
accepts it.  Channels without a publish schema take every message, too, and
make a message that a single schema accepts ambiguous.
-/

namespace SpecMock.Runtime

open SpecMock.Library SpecMock.Core

section Routing

variable (json : JsonLibraries) (libraries : Libraries) (asyncapi : AsyncApiRuntime)

/-- The channel has a publish schema, and it has no issue with the message. -/
def ChannelSpec.accepts (channel : ChannelSpec) (raw : Value) : Bool :=
  match channel.publishSchema with
  | none => false
  | some _ => channel.takes json raw

namespace AsyncApiRuntime

/-- The channels whose publish schema accepts a message. -/
def acceptingChannels (raw : Value) : List String :=
  (asyncapi.channels.entries.filter fun entry => entry.2.accepts json raw).map Sigma.fst

/-- The channels without a publish schema. -/
def schemalessChannels : List String :=
  (asyncapi.channels.entries.filter fun entry => entry.2.publishSchema.isNone).map Sigma.fst

/-- Messages are routed by the publish schemas alone. -/
structure RoutesBySchema (text : String) (raw : Value) (seed : BitVec 64) : Prop where
  single : ∀ channelName channel, asyncapi.acceptingChannels json raw = [channelName] →
    asyncapi.channels.lookup channelName = some channel →
      asyncapi.handleMessage json libraries text seed =
        published libraries channelName channel seed
  several : 2 ≤ (asyncapi.acceptingChannels json raw).length →
    ∃ message, asyncapi.handleMessage json libraries text seed =
      .error [⟨"/", "#/channels", "routing", message⟩]
  rejected : ∀ channelName channel, asyncapi.channels.lookup channelName = some channel →
    channel.publishSchema ≠ none → channel.accepts json raw = false →
      ∀ payload, asyncapi.resolveChannelAndPayload json raw ≠ .ok ⟨channelName, payload⟩

end AsyncApiRuntime

end Routing

variable {json : JsonLibraries} {libraries : Libraries} {asyncapi : AsyncApiRuntime}
  {text : String} {raw : Value} {seed : BitVec 64}

theorem ChannelSpec.takes_eq (channel : ChannelSpec) (raw : Value) :
    channel.takes json raw = (channel.accepts json raw || channel.publishSchema.isNone) := by
  unfold accepts
  cases given : channel.publishSchema with
  | none => simp [takes, given]
  | some schema => simp

theorem ChannelSpec.accepts_of_schema {channel : ChannelSpec}
    (schema : channel.publishSchema ≠ none) (raw : Value) :
    channel.accepts json raw = channel.takes json raw := by
  unfold accepts
  cases given : channel.publishSchema with
  | none => exact absurd given schema
  | some _ => rfl

theorem ChannelSpec.exists_of_accepts {channel : ChannelSpec}
    (accepted : channel.accepts json raw = true) :
    ∃ schema, channel.publishSchema = some schema ∧ json.validateInstance schema raw = .ok [] := by
  unfold accepts takes at accepted
  cases given : channel.publishSchema with
  | none => simp [given] at accepted
  | some schema =>
      refine ⟨schema, rfl, ?_⟩
      simp only [given] at accepted
      cases validated : json.validateInstance schema raw with
      | error error => simp [validated] at accepted
      | ok issues =>
          simp only [validated, List.isEmpty_iff] at accepted
          rw [accepted]

namespace AsyncApiRuntime

/-- Every channel that matches accepts the message or has no schema, and none does both. -/
theorem length_matchedChannels :
    (asyncapi.matchedChannels json raw).length =
      (asyncapi.acceptingChannels json raw).length + asyncapi.schemalessChannels.length := by
  simp only [matchedChannels, acceptingChannels, schemalessChannels, List.length_map]
  induction asyncapi.channels.entries with
  | nil => rfl
  | cons entry rest ih =>
      have apart : entry.2.publishSchema.isNone = true → entry.2.accepts json raw = false := by
        intro schemaless
        simp [ChannelSpec.accepts, Option.isNone_iff_eq_none.mp schemaless]
      rw [List.filter_cons, List.filter_cons, List.filter_cons, entry.2.takes_eq raw]
      cases accepted : entry.2.accepts json raw with
      | true =>
          have schema : entry.2.publishSchema.isNone = false := by
            rw [← Bool.not_eq_true]
            intro schemaless
            rw [apart schemaless] at accepted
            cases accepted
          simp [schema, ih]
          omega
      | false =>
          cases entry.2.publishSchema.isNone with
          | true => simp [ih]; omega
          | false => simp [ih]

/-- Where every channel has a schema, the channels that match are those that accept. -/
theorem matchedChannels_of_schemas (schemas : asyncapi.schemalessChannels = []) :
    asyncapi.matchedChannels json raw = asyncapi.acceptingChannels json raw := by
  refine congrArg (List.map Sigma.fst) (List.filter_congr fun entry listed => ?_)
  rw [entry.2.takes_eq raw]
  have given : entry.2.publishSchema.isNone = false := by
    rw [← Bool.not_eq_true]
    intro schemaless
    have member : entry.1 ∈ asyncapi.schemalessChannels :=
      List.mem_map_of_mem (List.mem_filter.mpr ⟨listed, schemaless⟩)
    rw [schemas] at member
    cases member
  rw [given, Bool.or_false]

theorem mem_matchedChannels_iff {channelName : String} :
    channelName ∈ asyncapi.matchedChannels json raw ↔
      ∃ channel, asyncapi.channels.lookup channelName = some channel ∧
        channel.takes json raw = true := by
  constructor
  · intro matched
    obtain ⟨⟨name, channel⟩, listed, rfl⟩ := List.mem_map.mp matched
    obtain ⟨entry, takes⟩ := List.mem_filter.mp listed
    exact ⟨channel, AList.mem_lookup_iff.mpr entry, takes⟩
  · rintro ⟨channel, found, takes⟩
    exact List.mem_map_of_mem (List.mem_filter.mpr ⟨AList.mem_lookup_iff.mp found, takes⟩)

theorem exists_of_mem_acceptingChannels {channelName : String}
    (accepting : channelName ∈ asyncapi.acceptingChannels json raw) :
    ∃ channel, asyncapi.channels.lookup channelName = some channel ∧
      channel.accepts json raw = true := by
  obtain ⟨⟨name, channel⟩, listed, rfl⟩ := List.mem_map.mp accepting
  obtain ⟨entry, accepts⟩ := List.mem_filter.mp listed
  exact ⟨channel, AList.mem_lookup_iff.mpr entry, accepts⟩

theorem resolveChannelAndPayload_of_single (implicit : parseExplicitEnvelope raw = none)
    {channelName : String} (matched : asyncapi.matchedChannels json raw = [channelName]) :
    asyncapi.resolveChannelAndPayload json raw = .ok ⟨channelName, raw⟩ := by
  simp only [resolveChannelAndPayload, implicit, matched]

theorem resolveChannelAndPayload_of_several (implicit : parseExplicitEnvelope raw = none)
    (several : 2 ≤ (asyncapi.matchedChannels json raw).length) :
    ∃ message, asyncapi.resolveChannelAndPayload json raw =
      .error [⟨"/", "#/channels", "routing", message⟩] := by
  match matched : asyncapi.matchedChannels json raw with
  | [] | [_] => simp [matched] at several
  | first :: second :: rest =>
      exact ⟨"ambiguous websocket message, matched multiple channels: " ++
        ", ".intercalate (first :: second :: rest), by
          simp only [resolveChannelAndPayload, implicit, matched]⟩

/-- A message that is not in an envelope goes to a channel that matches it. -/
theorem mem_matchedChannels_of_resolve (implicit : parseExplicitEnvelope raw = none)
    {resolved : ResolvedIncomingMessage}
    (routed : asyncapi.resolveChannelAndPayload json raw = .ok resolved) :
    resolved.channelName ∈ asyncapi.matchedChannels json raw := by
  simp only [resolveChannelAndPayload, implicit] at routed
  split at routed
  next channelName matched =>
    cases routed
    rw [matched]
    exact List.mem_cons_self
  next => cases routed
  next => cases routed

theorem handleMessage_of_several (parsed : json.fromStr text = .ok raw)
    (implicit : parseExplicitEnvelope raw = none)
    (several : 2 ≤ (asyncapi.matchedChannels json raw).length) :
    ∃ message, asyncapi.handleMessage json libraries text seed =
      .error [⟨"/", "#/channels", "routing", message⟩] := by
  obtain ⟨message, refused⟩ := resolveChannelAndPayload_of_several implicit several
  exact ⟨message, by simp only [handleMessage, parsed, refused]⟩

/-- A channel answers the message that its schema accepts. -/
theorem handleMessage_of_accepts (parsed : json.fromStr text = .ok raw)
    (implicit : parseExplicitEnvelope raw = none) {channelName : String}
    (matched : asyncapi.matchedChannels json raw = [channelName]) {channel : ChannelSpec}
    (found : asyncapi.channels.lookup channelName = some channel)
    (accepted : channel.accepts json raw = true) :
    asyncapi.handleMessage json libraries text seed =
      published libraries channelName channel seed := by
  obtain ⟨schema, given, validated⟩ := channel.exists_of_accepts accepted
  have resolved := resolveChannelAndPayload_of_single implicit matched
  simp only [handleMessage, parsed, resolved, found, given, validated]

/-- What a channel publishes is no routing error. -/
theorem published_ne_routing (channelName : String) (channel : ChannelSpec) (message : String) :
    published libraries channelName channel seed ≠
      .error [⟨"/", "#/channels", "routing", message⟩] := by
  unfold published
  split
  · simp
  · split
    · simp
    · simp
  · simp

/--
Messages are routed by the publish schemas alone, unless a single schema
accepts the message and some channel has no schema.
-/
theorem routesBySchema_iff (parsed : json.fromStr text = .ok raw)
    (implicit : parseExplicitEnvelope raw = none) :
    asyncapi.RoutesBySchema json libraries text raw seed ↔
      ((asyncapi.acceptingChannels json raw).length = 1 → asyncapi.schemalessChannels = []) := by
  constructor
  · rintro ⟨single, -, -⟩ one
    by_contra schemaless
    obtain ⟨channelName, accepting⟩ := List.length_eq_one_iff.mp one
    have both : 2 ≤ (asyncapi.matchedChannels json raw).length := by
      have others := List.length_pos_iff.mpr schemaless
      rw [length_matchedChannels]
      omega
    obtain ⟨channel, found, -⟩ := exists_of_mem_acceptingChannels
      (show channelName ∈ asyncapi.acceptingChannels json raw by simp [accepting])
    obtain ⟨message, refused⟩ : ∃ message, asyncapi.handleMessage json libraries text seed = _ :=
      handleMessage_of_several parsed implicit both
    exact published_ne_routing channelName channel message
      ((single channelName channel accepting found).symm.trans refused)
  · intro schemas
    refine ⟨?_, ?_, ?_⟩
    · intro channelName channel accepting found
      have matched : asyncapi.matchedChannels json raw = [channelName] := by
        rw [matchedChannels_of_schemas (schemas (by simp [accepting])), accepting]
      obtain ⟨other, same, accepted⟩ := exists_of_mem_acceptingChannels
        (show channelName ∈ asyncapi.acceptingChannels json raw by simp [accepting])
      cases found.symm.trans same
      exact handleMessage_of_accepts parsed implicit matched found accepted
    · intro several
      refine handleMessage_of_several parsed implicit ?_
      rw [length_matchedChannels]
      omega
    · intro channelName channel found schema rejects payload routed
      obtain ⟨other, same, takes⟩ := mem_matchedChannels_iff.mp
        (mem_matchedChannels_of_resolve implicit routed)
      cases found.symm.trans same
      rw [← channel.accepts_of_schema schema raw, rejects] at takes
      cases takes

end AsyncApiRuntime

/-- A message to the chat. -/
def chatMessage : Value := .object [("text", .string "hi")]

/-- The JSON of one message, and schemas with their plain meaning. -/
def chatLibraries : JsonLibraries where
  fromStr text := if text = chatMessage.toText then .ok chatMessage else .error "expected value"
  validateInstance schema raw :=
    if Schema.valid .integers .jsonSchema schema raw then .ok []
    else .ok [⟨"/", "#", "validation", "the instance is not valid"⟩]

/-- A channel that is sent objects which have a member. -/
def sendChannel (required : String) : ChannelSpec where
  publishSchema := some (.object [("required", .array [.string required]),
    ("type", .string "object")])
  subscribeSchema := none
  subscribeExample := none

def receiveChannel : ChannelSpec := ⟨none, none, some (.string "welcome")⟩

/-- A channel for texts beside another channel. -/
def chatWith (other : ChannelSpec) : AsyncApiRuntime where
  channels := ((∅ : FiniteMap String ChannelSpec).insert "other" other).insert "chat.send"
    (sendChannel "text")

/-- Of two channels with schemas, the message goes to the one that accepts it. -/
theorem chat_routed :
    (chatWith (sendChannel "id")).RoutesBySchema chatLibraries sampleLibraries chatMessage.toText
      chatMessage 0 :=
  (AsyncApiRuntime.routesBySchema_iff (by decide) (by decide)).mpr fun _ => by decide

/-- A channel that only publishes makes the message ambiguous. -/
theorem chat_ambiguous :
    (chatWith receiveChannel).acceptingChannels chatLibraries chatMessage = ["chat.send"] ∧
      (∃ message, (chatWith receiveChannel).handleMessage chatLibraries sampleLibraries
        chatMessage.toText 0 = .error [⟨"/", "#/channels", "routing", message⟩]) ∧
      ¬ (chatWith receiveChannel).RoutesBySchema chatLibraries sampleLibraries chatMessage.toText
        chatMessage 0 := by
  refine ⟨by decide, ⟨"ambiguous websocket message, matched multiple channels: chat.send, other",
    by decide⟩, ?_⟩
  rintro ⟨single, -, -⟩
  have routed := single "chat.send" (sendChannel "text") (by decide) rfl
  exact absurd routed (by decide)

end SpecMock.Runtime
