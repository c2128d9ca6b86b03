import Mathlib.Data.List.Induction
import SpecMock.Core.RefResolver
import SpecMock.Runtime.AsyncApi

/-!
# Loading an AsyncAPI document

In version 3 an operation refers to its channel.  When the references are
resolved, the channel itself stands in the place of the reference, and its name
is recovered by comparing it with the channels of the document, in their order.
Of two equal channels it is always the first that is found.  Floats are compared
as numbers, so that the two zeros make equal channels of different documents.
-/

namespace SpecMock.Runtime

open SpecMock.Library SpecMock.Core

/-- The schema and the example of what a channel of version 2 publishes. -/
def extractSubscribePayload (channelNode : Value) : Option Value × Option Value :=
  match (channelNode.get "subscribe").bind fun subscribe => subscribe.get "message" with
  | none => (none, none)
  | some message =>
      (message.get "payload", (message.get "example").or
        (((message.get "examples").bind Value.asArray).bind List.head?))

def extractMessagePayloadSchema (channelNode : Value) (opName : String) : Option Value :=
  ((channelNode.get opName).bind fun operation => operation.get "message").bind
    fun message => message.get "payload"

/-- The payload schema and the example of the first message of an operation of version 3. -/
def extractV3OperationMessages (opNode : Value) : Option Value × Option Value :=
  let firstMessage := ((opNode.get "messages").bind Value.asArray).bind List.head?
  (firstMessage.bind fun message => message.get "payload",
    ((((firstMessage.bind fun message => message.get "examples").bind Value.asArray).bind
      List.head?).bind fun first => first.get "payload"))

/-- Store the messages of an operation by its action; other actions store nothing. -/
def ChannelSpec.accept (spec : ChannelSpec) (action : Option String)
    (messages : Option Value × Option Value) : ChannelSpec :=
  if action = some "send" then { spec with publishSchema := messages.1 }
  else if action = some "receive" then
    { spec with subscribeSchema := messages.1, subscribeExample := messages.2 }
  else spec

/-- The name of the first channel that equals the value. -/
def recoverName (channelsMap : List (String × Value)) (channel : Value) : Option String :=
  (channelsMap.find? fun entry => decide (entry.2.Equals channel)).map Prod.fst

/-- Store the messages of an operation with the channel it is found to use. -/
def applyOperation (channelsMap : List (String × Value))
    (channelSpecs : FiniteMap String ChannelSpec) (opNode : Value) :
    FiniteMap String ChannelSpec :=
  match (opNode.get "channel").bind (recoverName channelsMap) with
  | none => channelSpecs
  | some channelName =>
      match channelSpecs.lookup channelName with
      | none => channelSpecs
      | some spec =>
          channelSpecs.insert channelName
            (spec.accept ((opNode.get "action").bind Value.asStr)
              (extractV3OperationMessages opNode))

/-- A spec without messages for every declared channel. -/
def initialSpecs (channelsMap : List (String × Value)) : FiniteMap String ChannelSpec :=
  channelsMap.foldl (fun specs entry => specs.insert entry.1 ⟨none, none, none⟩) ∅

namespace AsyncApiRuntime

def fromV2 (root : Value) : Except RuntimeError AsyncApiRuntime :=
  match (root.get "channels").bind Value.asObject with
  | none => .error (.parse "asyncapi missing channels object")
  | some channelMap =>
      .ok ⟨channelMap.foldl (fun channels entry => channels.insert entry.1
        { publishSchema := extractMessagePayloadSchema entry.2 "publish"
          subscribeSchema := (extractSubscribePayload entry.2).1
          subscribeExample := (extractSubscribePayload entry.2).2 }) ∅⟩

def fromV3 (root : Value) : Except RuntimeError AsyncApiRuntime :=
  match (root.get "channels").bind Value.asObject with
  | none => .error (.parse "asyncapi v3 missing channels")
  | some channelsMap =>
      -- A document may declare channels only.
      let ops := ((root.get "operations").bind Value.asObject).getD []
      .ok ⟨(ops.map Prod.snd).foldl (applyOperation channelsMap) (initialSpecs channelsMap)⟩

def fromDocument (root : Value) : Except RuntimeError AsyncApiRuntime :=
  let version := ((root.get "asyncapi").bind Value.asStr).getD "2.0.0"
  if (Text.stripPrefix "3." version).isSome then fromV3 root else fromV2 root

variable {Path : Type} (files : Files Path)

/-- The resolver for a document; `here` is the path `.`. -/
def resolverFor (here path : Path) : RefResolver Path :=
  RefResolver.new files ((files.parent path).getD here)

/-- Load a document with all its references resolved. -/
def fromPath (here path : Path) : Except RuntimeError AsyncApiRuntime :=
  match ((resolverFor files here path).answer files (.resolve path)).2 with
  | .error error => .error (.parse error)
  | .ok resolved => fromDocument resolved

end AsyncApiRuntime

inductive Action where
  | send
  | receive
  deriving DecidableEq

def Action.text : Action → String
  | .send => "send"
  | .receive => "receive"

/-- The schema, and for what is received the example, that a channel holds for an action. -/
def ChannelSpec.carried (spec : ChannelSpec) : Action → Option Value × Option Value
  | .send => (spec.publishSchema, none)
  | .receive => (spec.subscribeSchema, spec.subscribeExample)

/-- An operation: the channel it names, and itself with its references unfolded. -/
structure AnnouncedOperation where
  channel : String
  node : Value

namespace AnnouncedOperation

def Does (operation : AnnouncedOperation) (action : Action) : Prop :=
  (operation.node.get "action").bind Value.asStr = some action.text

instance (operation : AnnouncedOperation) (action : Action) : Decidable (operation.Does action) :=
  inferInstanceAs (Decidable (_ = _))

/-- The operation holds a channel that equals the value. -/
def On (operation : AnnouncedOperation) (value : Value) : Prop :=
  ∃ channel ∈ operation.node.get "channel", channel.Equals value

instance (operation : AnnouncedOperation) (value : Value) : Decidable (operation.On value) :=
  inferInstanceAs (Decidable (∃ channel ∈ operation.node.get "channel", channel.Equals value))

/-- What the operation carries for its action. -/
def carried (operation : AnnouncedOperation) : Action → Option Value × Option Value
  | .send => ((extractV3OperationMessages operation.node).1, none)
  | .receive => extractV3OperationMessages operation.node

end AnnouncedOperation

/-- The channels of a document, unfolded, and its operations, in the order of their names. -/
structure Announcement where
  channels : List (String × Value)
  operations : List AnnouncedOperation
  distinct : (channels.map Prod.fst).Nodup

namespace Announcement

variable (announcement : Announcement)

/--
Every operation finds what it carries at the channel it names, and a channel
holds nothing but what an operation that names it carries.
-/
structure Lands (runtime : AsyncApiRuntime) : Prop where
  named : ∀ operation ∈ announcement.operations, ∀ action, operation.Does action →
    ∃ spec, runtime.channels.lookup operation.channel = some spec ∧
      spec.carried action = operation.carried action
  nowhereElse : ∀ channel spec, runtime.channels.lookup channel = some spec → ∀ action,
    spec.carried action ≠ (none, none) → ∃ operation ∈ announcement.operations,
      operation.Does action ∧ operation.channel = channel ∧
        operation.carried action = spec.carried action

/-- An earlier channel is equal. -/
def Preceded (channel : String) : Prop :=
  ∃ earlier value later, announcement.channels = earlier ++ (channel, value) :: later ∧
    ∃ other ∈ earlier, other.2.Equals value

/-- The last operation with the action on a channel that equals the value. -/
def lastOn (action : Action) (value : Value) : Option AnnouncedOperation :=
  (announcement.operations.filter fun operation =>
    decide (operation.Does action ∧ operation.On value)).getLast?

/--
An operation on a channel that equals an earlier one carries nothing, and every
other operation carries the same as the last with its action on an equal channel.
-/
structure Discernible : Prop where
  preceded : ∀ operation ∈ announcement.operations, ∀ action, operation.Does action →
    announcement.Preceded operation.channel → operation.carried action = (none, none)
  last : ∀ operation ∈ announcement.operations, ∀ action, operation.Does action →
    ¬ announcement.Preceded operation.channel → ∀ value last,
      operation.node.get "channel" = some value → announcement.lastOn action value = some last →
        last.carried action = operation.carried action

end Announcement

theorem recoverName_eq_some {channelsMap : List (String × Value)} {channel : Value}
    {name : String} :
    recoverName channelsMap channel = some name ↔
      ∃ earlier value later, channelsMap = earlier ++ (name, value) :: later ∧
        value.Equals channel ∧ ∀ other ∈ earlier, ¬ other.2.Equals channel := by
  unfold recoverName
  rw [Option.map_eq_some_iff]
  simp only [List.find?_eq_some_iff_append]
  constructor
  · rintro ⟨⟨name, value⟩, ⟨same, earlier, later, split, before⟩, rfl⟩
    exact ⟨earlier, value, later, split, of_decide_eq_true same, by simpa using before⟩
  · rintro ⟨earlier, value, later, split, same, before⟩
    exact ⟨(name, value), ⟨decide_eq_true same, earlier, later, split, by simpa using before⟩, rfl⟩

/-- There is one place for an entry whose name occurs once. -/
theorem split_unique {entries earlier later earlier' later' : List (String × Value)}
    {name : String} {value value' : Value} (distinct : (entries.map Prod.fst).Nodup)
    (split : entries = earlier ++ (name, value) :: later)
    (split' : entries = earlier' ++ (name, value') :: later') :
    earlier = earlier' ∧ value = value' := by
  subst split
  induction earlier generalizing earlier' with
  | nil =>
      cases earlier' with
      | nil =>
          cases split'
          exact ⟨rfl, rfl⟩
      | cons first rest =>
          rw [List.nil_append, List.cons_append, List.cons.injEq] at split'
          obtain ⟨rfl, rfl⟩ := split'
          simp at distinct
  | cons first rest ih =>
      cases earlier' with
      | nil =>
          rw [List.nil_append, List.cons_append, List.cons.injEq] at split'
          obtain ⟨rfl, rfl⟩ := split'
          simp at distinct
      | cons other rest' =>
          rw [List.cons_append, List.cons_append, List.cons.injEq] at split'
          obtain ⟨rfl, split'⟩ := split'
          have distinct := (List.nodup_cons.mp distinct).2
          obtain ⟨same, equal⟩ := ih distinct split'
          exact ⟨congrArg _ same, equal⟩

namespace Announcement

variable {announcement : Announcement}

/-- The name of a channel is recovered from an equal value unless an earlier channel is equal. -/
theorem recoverName_eq_iff {channel : String} {value held : Value}
    (declared : (channel, value) ∈ announcement.channels) (equals : value.Equals held) :
    recoverName announcement.channels held = some channel ↔
      ¬ announcement.Preceded channel := by
  rw [recoverName_eq_some]
  constructor
  · rintro ⟨earlier, own, later, split, equal, before⟩ ⟨earlier', own', later', split', other,
      member, same⟩
    obtain ⟨rfl, rfl⟩ := split_unique announcement.distinct split split'
    exact before other member (same.trans equal)
  · intro free
    obtain ⟨earlier, later, split⟩ := List.append_of_mem declared
    exact ⟨earlier, value, later, split, equals, fun other member same =>
      free ⟨earlier, value, later, split, other, member, same.trans equals.symm⟩⟩

end Announcement

theorem lookup_initialSpecs {channelsMap : List (String × Value)} {name : String}
    {spec : ChannelSpec} :
    (initialSpecs channelsMap).lookup name = some spec ↔
      name ∈ channelsMap.map Prod.fst ∧ spec = ⟨none, none, none⟩ := by
  unfold initialSpecs
  induction channelsMap using List.reverseRecOn with
  | nil => simp
  | append_singleton earlier last ih =>
      rw [List.foldl_append, List.foldl_cons, List.foldl_nil, FiniteMap.lookup_insert_eq,
        List.map_append, List.mem_append, List.map_cons, List.map_nil, List.mem_singleton]
      by_cases here : name = last.1
      · rw [if_pos here, Option.some.injEq]
        constructor
        · exact fun same => ⟨.inr here, same.symm⟩
        · exact fun found => found.2.symm
      · rw [if_neg here, ih]
        simp [here]

/-- Accepting messages changes what is held for the action, and nothing for the other one. -/
theorem ChannelSpec.carried_accept (spec : ChannelSpec) (operation : AnnouncedOperation)
    (action : Action) :
    (spec.accept ((operation.node.get "action").bind Value.asStr)
        (extractV3OperationMessages operation.node)).carried action =
      if operation.Does action then operation.carried action else spec.carried action := by
  unfold accept
  by_cases does : operation.Does action
  · rw [if_pos does]
    unfold AnnouncedOperation.Does at does
    rw [does]
    cases action with
    | send => rfl
    | receive => rfl
  · rw [if_neg does]
    unfold AnnouncedOperation.Does at does
    cases action with
    | send =>
        change ¬ _ = some "send" at does
        rw [if_neg does]
        split
        · rfl
        · rfl
    | receive =>
        change ¬ _ = some "receive" at does
        rw [if_neg does]
        split
        · rfl
        · rfl

namespace Announcement

variable {announcement : Announcement}

/-- The specs that the operations of a document leave. -/
def specs (announcement : Announcement) : FiniteMap String ChannelSpec :=
  (announcement.operations.map AnnouncedOperation.node).foldl
    (applyOperation announcement.channels) (initialSpecs announcement.channels)

/-- Where the messages of an operation are stored. -/
def landing (channels : List (String × Value)) (operation : AnnouncedOperation) : Option String :=
  (operation.node.get "channel").bind (recoverName channels)

/-- The last of the operations with the action that land on the channel. -/
def lastLanding (channels : List (String × Value)) (operations : List AnnouncedOperation)
    (action : Action) (name : String) : Option AnnouncedOperation :=
  (operations.filter fun operation =>
    decide (operation.Does action ∧ landing channels operation = some name)).getLast?

/-- An operation changes the spec of the channel it lands on, and no other. -/
theorem lookup_applyOperation (channels : List (String × Value))
    (reached : FiniteMap String ChannelSpec) (operation : AnnouncedOperation) (name : String) :
    (applyOperation channels reached operation.node).lookup name =
      if landing channels operation = some name then
        (reached.lookup name).map fun spec =>
          spec.accept ((operation.node.get "action").bind Value.asStr)
            (extractV3OperationMessages operation.node)
      else reached.lookup name := by
  unfold applyOperation landing
  cases (operation.node.get "channel").bind (recoverName channels) with
  | none => rfl
  | some other =>
      dsimp only
      by_cases here : other = name
      · subst here
        rw [if_pos rfl]
        cases found : reached.lookup other with
        | none => exact found
        | some spec => exact (FiniteMap.lookup_insert_eq _ _ _ _).trans (if_pos rfl)
      · rw [if_neg fun same => here (Option.some.inj same)]
        cases reached.lookup other with
        | none => rfl
        | some spec =>
            exact (FiniteMap.lookup_insert_eq _ _ _ _).trans (if_neg (Ne.symm here))

theorem lastLanding_append (channels : List (String × Value)) (earlier : List AnnouncedOperation)
    (last : AnnouncedOperation) (action : Action) (name : String) :
    lastLanding channels (earlier ++ [last]) action name =
      if last.Does action ∧ landing channels last = some name then some last
      else lastLanding channels earlier action name := by
  unfold lastLanding
  rw [List.filter_append, List.filter_singleton]
  by_cases lands : last.Does action ∧ landing channels last = some name
  · simp [lands]
  · simp [lands]

/-- A channel holds what the last operation that lands on it carries. -/
theorem carried_of_foldl {channels : List (String × Value)} (operations : List AnnouncedOperation)
    {name : String} (declared : name ∈ channels.map Prod.fst) :
    ∃ spec, ((operations.map AnnouncedOperation.node).foldl (applyOperation channels)
        (initialSpecs channels)).lookup name = some spec ∧
      ∀ action, spec.carried action =
        ((lastLanding channels operations action name).map (·.carried action)).getD
          (none, none) := by
  induction operations using List.reverseRecOn with
  | nil =>
      refine ⟨_, lookup_initialSpecs.mpr ⟨declared, rfl⟩, fun action => ?_⟩
      cases action with
      | send => rfl
      | receive => rfl
  | append_singleton earlier last ih =>
      obtain ⟨spec, found, carries⟩ := ih
      rw [List.map_append, List.foldl_append, List.map_cons, List.map_nil, List.foldl_cons,
        List.foldl_nil, lookup_applyOperation, found]
      by_cases lands : landing channels last = some name
      · rw [if_pos lands]
        refine ⟨_, rfl, fun action => ?_⟩
        rw [ChannelSpec.carried_accept, lastLanding_append]
        by_cases does : last.Does action
        · rw [if_pos does, if_pos ⟨does, lands⟩]
          rfl
        · rw [if_neg does, if_neg fun both => does both.1]
          exact carries action
      · rw [if_neg lands]
        refine ⟨spec, rfl, fun action => ?_⟩
        rw [lastLanding_append, if_neg fun both => lands both.2]
        exact carries action

theorem declared_of_lookup {channels : List (String × Value)}
    (operations : List AnnouncedOperation) {name : String} {spec : ChannelSpec}
    (found : ((operations.map AnnouncedOperation.node).foldl (applyOperation channels)
      (initialSpecs channels)).lookup name = some spec) : name ∈ channels.map Prod.fst := by
  induction operations using List.reverseRecOn generalizing spec with
  | nil => exact (lookup_initialSpecs.mp found).1
  | append_singleton earlier last ih =>
      rw [List.map_append, List.foldl_append, List.map_cons, List.map_nil, List.foldl_cons,
        List.foldl_nil, lookup_applyOperation] at found
      split at found
      · obtain ⟨before, held, _⟩ := Option.map_eq_some_iff.mp found
        exact ih held
      · exact ih found

/-- Every operation is on a channel of the document. -/
def Connected (announcement : Announcement) : Prop :=
  ∀ operation ∈ announcement.operations, ∃ value,
    (operation.channel, value) ∈ announcement.channels ∧
      operation.node.get "channel" = some value

theorem landing_eq_iff {operation : AnnouncedOperation} {channel : String} {value : Value}
    (declared : (channel, value) ∈ announcement.channels)
    (free : ¬ announcement.Preceded channel) :
    landing announcement.channels operation = some channel ↔ operation.On value := by
  unfold landing AnnouncedOperation.On
  rw [Option.bind_eq_some_iff]
  constructor
  · rintro ⟨held, found, lands⟩
    obtain ⟨earlier, own, later, split, equal, _⟩ := recoverName_eq_some.mp lands
    obtain ⟨earlier', later', split'⟩ := List.append_of_mem declared
    obtain ⟨_, rfl⟩ := split_unique announcement.distinct split split'
    exact ⟨held, found, equal.symm⟩
  · rintro ⟨held, found, equals⟩
    exact ⟨held, found, (recoverName_eq_iff declared equals.symm).mpr free⟩

/-- No operation lands on a channel that an earlier channel equals. -/
theorem landing_ne_of_preceded {channel : String} (preceded : announcement.Preceded channel)
    (operation : AnnouncedOperation) :
    landing announcement.channels operation ≠ some channel := by
  intro lands
  obtain ⟨held, _, recovered⟩ := Option.bind_eq_some_iff.mp lands
  obtain ⟨earlier, value, later, split, equals, _⟩ := recoverName_eq_some.mp recovered
  have declared : (channel, value) ∈ announcement.channels := by simp [split]
  exact (recoverName_eq_iff declared equals).mp recovered preceded

theorem lastLanding_of_free {channel : String} {value : Value}
    (declared : (channel, value) ∈ announcement.channels)
    (free : ¬ announcement.Preceded channel) (action : Action) :
    lastLanding announcement.channels announcement.operations action channel =
      announcement.lastOn action value := by
  unfold lastLanding lastOn
  simp only [landing_eq_iff declared free]

theorem lastLanding_of_preceded {channel : String} (preceded : announcement.Preceded channel)
    (action : Action) :
    lastLanding announcement.channels announcement.operations action channel = none := by
  unfold lastLanding
  simp [landing_ne_of_preceded preceded]

/-- An operation with the action on the channel is not later than the last one. -/
theorem exists_lastOn {operation : AnnouncedOperation} {action : Action} {value : Value}
    (member : operation ∈ announcement.operations) (does : operation.Does action)
    (on : operation.On value) : ∃ last, announcement.lastOn action value = some last := by
  unfold lastOn
  rw [← Option.isSome_iff_exists, List.getLast?_isSome]
  refine List.ne_nil_of_mem (List.mem_filter.mpr ⟨member, ?_⟩)
  exact decide_eq_true ⟨does, on⟩

theorem of_lastOn {last : AnnouncedOperation} {action : Action} {value : Value}
    (found : announcement.lastOn action value = some last) :
    last ∈ announcement.operations ∧ last.Does action ∧ last.On value := by
  obtain ⟨member, here⟩ := List.mem_filter.mp (List.mem_of_getLast? found)
  exact ⟨member, of_decide_eq_true here⟩

/-- The specs are those the operations name exactly if they can be told apart. -/
theorem lands_iff (connected : announcement.Connected) :
    announcement.Lands ⟨announcement.specs⟩ ↔ announcement.Discernible := by
  have holds : ∀ channel value, (channel, value) ∈ announcement.channels →
      ∃ spec, announcement.specs.lookup channel = some spec ∧ ∀ action, spec.carried action =
        ((lastLanding announcement.channels announcement.operations action channel).map
          (·.carried action)).getD (none, none) := fun channel value declared =>
    carried_of_foldl _ (List.mem_map_of_mem declared)
  constructor
  · intro lands
    constructor
    case preceded =>
      intro operation member action does preceded
      obtain ⟨value, declared, _⟩ := connected operation member
      obtain ⟨spec, found, carries⟩ := holds _ _ declared
      obtain ⟨spec', found', same⟩ := lands.named operation member action does
      obtain rfl := Option.some.inj (found.symm.trans found')
      rw [← same, carries, lastLanding_of_preceded preceded]
      rfl
    case last =>
      intro operation member action does free value last placed lastly
      obtain ⟨value', declared, placed'⟩ := connected operation member
      obtain rfl := Option.some.inj (placed.symm.trans placed')
      obtain ⟨spec, found, carries⟩ := holds _ _ declared
      obtain ⟨spec', found', same⟩ := lands.named operation member action does
      obtain rfl := Option.some.inj (found.symm.trans found')
      rw [← same, carries, lastLanding_of_free declared free, lastly]
      rfl
  · intro discernible
    constructor
    case named =>
      intro operation member action does
      obtain ⟨value, declared, placed⟩ := connected operation member
      obtain ⟨spec, found, carries⟩ := holds _ _ declared
      refine ⟨spec, found, ?_⟩
      rw [carries]
      by_cases preceded : announcement.Preceded operation.channel
      · rw [lastLanding_of_preceded preceded,
          discernible.preceded operation member action does preceded]
        rfl
      · obtain ⟨last, lastly⟩ := exists_lastOn member does ⟨value, placed, rfl⟩
        rw [lastLanding_of_free declared preceded, lastly]
        exact discernible.last operation member action does preceded value last placed lastly
    case nowhereElse =>
      intro channel spec found action something
      obtain ⟨⟨name, value⟩, declared, same⟩ := List.mem_map.mp (declared_of_lookup _ found)
      obtain rfl : name = channel := same
      obtain ⟨spec', found', carries⟩ := holds _ _ declared
      obtain rfl := Option.some.inj (found.symm.trans found')
      by_cases preceded : announcement.Preceded name
      · rw [carries, lastLanding_of_preceded preceded] at something
        exact absurd rfl something
      · rw [carries, lastLanding_of_free declared preceded] at something ⊢
        cases lastly : announcement.lastOn action value with
        | none =>
            rw [lastly] at something
            exact absurd rfl something
        | some last =>
            rw [lastly] at something
            obtain ⟨member, does, held, placed, equals⟩ := of_lastOn lastly
            refine ⟨last, member, does, ?_, rfl⟩
            obtain ⟨value', declared', placed'⟩ := connected last member
            obtain rfl : held = value' := Option.some.inj (placed.symm.trans placed')
            have first : ¬ announcement.Preceded last.channel := fun later =>
              something (discernible.preceded last member action does later)
            exact Option.some.inj (((recoverName_eq_iff declared' rfl).mpr first).symm.trans
              ((recoverName_eq_iff declared equals.symm).mpr preceded))

end Announcement

end SpecMock.Runtime
