import SpecMock.Core.RefUnfolding
import SpecMock.Runtime.AsyncApiDocument

/-!
# References to channels

A document whose operations refer to their channels unfolds to one in which
every operation holds the channel it names.  What is loaded from the unfolded
document is therefore what its channels and operations announce.
-/

namespace SpecMock.Runtime

open SpecMock.Library SpecMock.Core

section Meaning

variable {Path : Type} (files : Files Path) (allowedRoots : List Path)

/-- A reference within a document, to one of the channels. -/
def AddressesChannel (reference channel : String) : Prop :=
  ∃ pointer, splitRef reference = ("", pointer) ∧
    (Text.pieces '/' ((Text.stripPrefix "/" pointer).getD pointer)).map unescapeSegment =
      ["channels", channel]

/-- An operation names a channel by a reference, itself or where it is written out. -/
inductive NamesChannel (rootDoc : Value) (base : Path) : Value → String → Prop where
  | here {members : List (String × Value)} {reference channel : String}
      (plain : members.lookup "$ref" = none)
      (written : members.lookup "channel" = some (.object [("$ref", .string reference)]))
      (addressed : AddressesChannel reference channel) :
      NamesChannel rootDoc base (.object members) channel
  | elsewhere {members : List (String × Value)} {reference channel : String} {node : Value}
      (written : members.lookup "$ref" = some (.string reference))
      (names : Names files allowedRoots rootDoc base reference rootDoc base node)
      (there : NamesChannel rootDoc base node channel) :
      NamesChannel rootDoc base (.object members) channel

/-- The member of a document is an object of its own. -/
def HoldsObject (rootDoc : Value) (key : String) (members : List (String × Value)) : Prop :=
  rootDoc.get key = some (.object members) ∧ members.lookup "$ref" = none

/-- A member of the operations announces an operation. -/
structure Announces (rootDoc : Value) (base : Path) (member : String × Value)
    (operation : AnnouncedOperation) : Prop where
  names : NamesChannel files allowedRoots rootDoc base member.2 operation.channel
  unfolds : ∃ hops, Unfolds files allowedRoots hops rootDoc base member.2 operation.node

/-- A document of version 3 whose operations name their channels by references. -/
structure MeantBy (rootDoc : Value) (base : Path) (announcement : Announcement) : Prop where
  plain : rootDoc.Lacks "$ref"
  version : ∃ text, rootDoc.get "asyncapi" = some (.string text) ∧
    (Text.stripPrefix "3." text).isSome = true
  channels : ∃ members, HoldsObject rootDoc "channels" members ∧
    List.Forall₂ (KeptMember fun value result =>
      ∃ hops, Unfolds files allowedRoots hops rootDoc base value result)
      members announcement.channels
  operations : (rootDoc.get "operations" = none ∧ announcement.operations = []) ∨
    ∃ members, HoldsObject rootDoc "operations" members ∧
      List.Forall₂ (Announces files allowedRoots rootDoc base) members announcement.operations

end Meaning

section Unfolding

variable {Path : Type} {files : Files Path} {allowedRoots : List Path} {hops : Nat}
  {rootDoc value result : Value} {base : Path}

/-- The members of an unfolded object are those of the object, unfolded. -/
theorem get_of_unfolds (plain : value.Lacks "$ref")
    (unfolds : Unfolds files allowedRoots hops rootDoc base value result) (key : String) :
    result.get key = (value.get key).map (meaningOf files allowedRoots rootDoc base) ∧
      ∀ member, value.get key = some member → Unfolds files allowedRoots hops rootDoc base member
        (meaningOf files allowedRoots rootDoc base member) := by
  obtain ⟨members, rfl, missing⟩ := plain
  obtain ⟨rfl, each⟩ := (unfolds_object_iff missing).mp unfolds
  refine ⟨SortedEntries.lookup_mapValues _ key members, fun member found => ?_⟩
  exact each (key, member) (SortedEntries.mem_of_lookup found)

/-- A member that is an object of its own is unfolded member by member. -/
theorem HoldsObject.get_of_unfolds {key : String} {members : List (String × Value)}
    (holds : HoldsObject rootDoc key members) (plain : rootDoc.Lacks "$ref")
    (unfolds : Unfolds files allowedRoots hops rootDoc base rootDoc result) :
    result.get key = some (.object (SortedEntries.mapValues
        (meaningOf files allowedRoots rootDoc base) members)) := by
  obtain ⟨found, each⟩ := Runtime.get_of_unfolds plain unfolds key
  have meaning := ((unfolds_object_iff holds.2).mp (each _ holds.1)).1
  rw [found, holds.1, Option.map_some, meaning]

/-- The pointer to a channel addresses the node of that name. -/
theorem resolvePointer_channel {pointer channel : String} {members : List (String × Value)}
    (segments : (Text.pieces '/' ((Text.stripPrefix "/" pointer).getD pointer)).map
      unescapeSegment = ["channels", channel])
    (holds : HoldsObject rootDoc "channels" members) :
    resolvePointer rootDoc pointer = members.lookup channel := by
  have inside : ¬ (pointer = "" ∨ pointer = "/") := by
    rintro (rfl | rfl)
    · have whole : (Text.pieces '/' ((Text.stripPrefix "/" "").getD "")).map
        unescapeSegment = [""] := by decide
      rw [whole] at segments
      simp at segments
    · have whole : (Text.pieces '/' ((Text.stripPrefix "/" "/").getD "/")).map
        unescapeSegment = [""] := by decide
      rw [whole] at segments
      simp at segments
  rw [resolvePointer, if_neg inside, segments]
  have found := holds.1
  cases rootDoc with
  | object root =>
      change root.lookup "channels" = _ at found
      simp only [descend, found]
      cases members.lookup channel with
      | none => rfl
      | some declared => rfl
  | _ => cases found

/-- A reference to a channel names the node of that name. -/
theorem AddressesChannel.lookup {reference channel : String} {members : List (String × Value)}
    {document node : Value} {directory : Path} (addresses : AddressesChannel reference channel)
    (holds : HoldsObject rootDoc "channels" members)
    (names : Names files allowedRoots rootDoc base reference document directory node) :
    document = rootDoc ∧ directory = base ∧ members.lookup channel = some node := by
  obtain ⟨pointer, split, segments⟩ := addresses
  cases names with
  | inFile _ parts elsewhere =>
      rw [split, Prod.mk.injEq] at parts
      exact absurd parts.1.symm elsewhere
  | @inDocument pointer' _ _ parts addressed =>
      rw [split, Prod.mk.injEq] at parts
      obtain rfl : pointer = pointer' := parts.2
      rw [resolvePointer_channel segments holds] at addressed
      exact ⟨rfl, rfl, addressed⟩

/-- The unfolding of an operation holds the unfolding of the channel it names. -/
theorem NamesChannel.get_channel {node : Value} {channel : String}
    {members : List (String × Value)}
    (names : NamesChannel files allowedRoots rootDoc base node channel)
    (holds : HoldsObject rootDoc "channels" members)
    (unfolds : Unfolds files allowedRoots hops rootDoc base node value) :
    ∃ declared target, members.lookup channel = some declared ∧
      (∃ hops, Unfolds files allowedRoots hops rootDoc base declared target) ∧
      value.get "channel" = some target := by
  induction names generalizing hops value with
  | @here own reference channel plain written addressed =>
      obtain ⟨found, each⟩ := get_of_unfolds ⟨own, rfl, plain⟩ unfolds "channel"
      have inside := each _ written
      have referred : [("$ref", Value.string reference)].lookup "$ref" = some (.string reference) :=
        rfl
      obtain ⟨_, less, document, directory, declared, same, rfl, named⟩ :=
        inside.names_of_written referred
      obtain rfl := Value.string.inj same
      obtain ⟨rfl, rfl, held⟩ := addressed.lookup holds named
      obtain ⟨target, unfolded, meant, _⟩ := (unfolds_reference_iff referred named).mp inside
      refine ⟨declared, target, held, ⟨less, unfolded⟩, ?_⟩
      change value.get "channel" = (own.lookup "channel").map _ at found
      rw [found, written, Option.map_some, meant]
      cases target with
      | object members => rfl
      | _ => rfl
  | @elsewhere own reference channel node written named there ih =>
      obtain ⟨_, less, _, _, _, _, rfl, _⟩ := unfolds.names_of_written written
      obtain ⟨target, unfolded, rfl, _⟩ := (unfolds_reference_iff written named).mp unfolds
      obtain ⟨declared, placed, held, meant, found⟩ := ih unfolded
      refine ⟨declared, placed, held, meant, ?_⟩
      cases target with
      | object held =>
          change held.lookup "channel" = some placed at found
          change List.lookup "channel" (SortedEntries.addMissing held _) = some placed
          rw [SortedEntries.lookup_addMissing, found, Option.some_or]
      | _ => cases found

/-- Kept members are the members with their meanings. -/
theorem eq_mapValues_of_kept {members results : List (String × Value)}
    (each : List.Forall₂ (KeptMember fun value result =>
      ∃ hops, Unfolds files allowedRoots hops rootDoc base value result) members results) :
    results = SortedEntries.mapValues (meaningOf files allowedRoots rootDoc base) members := by
  induction each with
  | nil => rfl
  | cons first _ ih =>
      obtain ⟨name, hops, unfolds⟩ := first
      rw [ih]
      exact List.cons_eq_cons.mpr ⟨Prod.ext name unfolds.meaning_eq.symm, rfl⟩

theorem map_node_eq {members : List (String × Value)} {operations : List AnnouncedOperation}
    (each : List.Forall₂ (Announces files allowedRoots rootDoc base) members operations) :
    (SortedEntries.mapValues (meaningOf files allowedRoots rootDoc base) members).map Prod.snd =
      operations.map AnnouncedOperation.node := by
  induction each with
  | nil => rfl
  | cons first _ ih =>
      obtain ⟨hops, unfolds⟩ := first.unfolds
      exact List.cons_eq_cons.mpr ⟨unfolds.meaning_eq, ih⟩

namespace MeantBy

variable {announcement : Announcement}

theorem connected (meant : MeantBy files allowedRoots rootDoc base announcement) :
    announcement.Connected := by
  intro operation member
  obtain ⟨declared, holds, kept⟩ := meant.channels
  rcases meant.operations with ⟨_, none⟩ | ⟨members, _, each⟩
  · rw [none] at member
    cases member
  · obtain ⟨entry, _, announces⟩ := exists_of_mem_right each member
    obtain ⟨hops, unfolds⟩ := announces.unfolds
    obtain ⟨channelNode, target, held, ⟨hops', meaning⟩, placed⟩ :=
      announces.names.get_channel holds unfolds
    refine ⟨target, ?_, placed⟩
    rw [eq_mapValues_of_kept kept]
    refine List.mem_map.mpr ⟨_, SortedEntries.mem_of_lookup held, ?_⟩
    rw [meaning.meaning_eq]

/-- The resolved document is loaded as version 3, with the channels and operations it means. -/
theorem fromDocument_eq (meant : MeantBy files allowedRoots rootDoc base announcement)
    (unfolds : Unfolds files allowedRoots hops rootDoc base rootDoc result) :
    AsyncApiRuntime.fromDocument result = .ok ⟨announcement.specs⟩ := by
  obtain ⟨version, written, third⟩ := meant.version
  obtain ⟨members, holds, kept⟩ := meant.channels
  have stated : result.get "asyncapi" = some (.string version) := by
    obtain ⟨found, each⟩ := get_of_unfolds meant.plain unfolds "asyncapi"
    rw [found, written, Option.map_some]
    have scalar : Unfolds files allowedRoots hops rootDoc base (.string version)
      (.string version) := .scalar trivial
    rw [scalar.meaning_eq]
  have channels : (result.get "channels").bind Value.asObject = some announcement.channels := by
    rw [holds.get_of_unfolds meant.plain unfolds, eq_mapValues_of_kept kept]
    rfl
  have operations : (((result.get "operations").bind Value.asObject).getD []).map Prod.snd =
      announcement.operations.map AnnouncedOperation.node := by
    rcases meant.operations with ⟨absent, none⟩ | ⟨members, holds, each⟩
    · rw [(get_of_unfolds meant.plain unfolds "operations").1, absent, none]
      rfl
    · rw [holds.get_of_unfolds meant.plain unfolds, ← map_node_eq each]
      rfl
  unfold AsyncApiRuntime.fromDocument
  rw [stated]
  change (if (Text.stripPrefix "3." version).isSome = true then _ else _) = _
  rw [if_pos third, AsyncApiRuntime.fromV3, channels]
  dsimp only
  rw [operations]
  rfl

/-- The runtime of the unfolded document is right exactly if its channels can be told apart. -/
theorem lands_iff (meant : MeantBy files allowedRoots rootDoc base announcement)
    {resolver : RefResolver Path} (roots : resolver.allowedRoots = allowedRoots)
    {request : RefResolver.Request Path}
    (opened : resolver.start files request = .ok (rootDoc, base))
    (unfolding : resolver.IsUnfolding files request result) {runtime : AsyncApiRuntime}
    (loaded : AsyncApiRuntime.fromDocument result = .ok runtime) :
    announcement.Lands runtime ↔ announcement.Discernible := by
  subst roots
  obtain ⟨rootDoc', base', opened', unfolds⟩ := unfolding
  cases opened.symm.trans opened'
  obtain ⟨hops, unfolded⟩ := (unfolds result).mpr rfl
  rw [meant.fromDocument_eq unfolded] at loaded
  cases loaded
  exact Announcement.lands_iff meant.connected

end MeantBy

end Unfolding

/--
A document of version 3 is loaded so that the messages of its operations are
with the channels they name, exactly if its channels can be told apart as far
as its operations need it: where loading a file is a fixed function, and through
the cache of the resolver, if it finds no document of another file there.
-/
theorem operations_land_iff {Path : Type} {files : Files Path} {here path base : Path}
    {rootDoc : Value} {announcement : Announcement}
    (opened : (AsyncApiRuntime.resolverFor files here path).start files (.resolve path) =
      .ok (rootDoc, base))
    (meant : MeantBy files (AsyncApiRuntime.resolverFor files here path).allowedRoots rootDoc base
      announcement)
    (runtime : AsyncApiRuntime) :
    (∀ document,
      (AsyncApiRuntime.resolverFor files here path).answerFixed files (.resolve path) =
        .ok document →
      AsyncApiRuntime.fromDocument document = .ok runtime →
        (announcement.Lands runtime ↔ announcement.Discernible)) ∧
    ((AsyncApiRuntime.resolverFor files here path).AccessesFaithfully files (.resolve path) →
      AsyncApiRuntime.fromPath files here path = .ok runtime →
        (announcement.Lands runtime ↔ announcement.Discernible)) := by
  constructor
  · intro document resolved loaded
    exact meant.lands_iff rfl opened (RefResolver.isUnfolding_of_answerFixed resolved) loaded
  · intro faithful loaded
    unfold AsyncApiRuntime.fromPath at loaded
    split at loaded
    · cases loaded
    next resolved answered =>
      rw [RefResolver.answer_of_accessesFaithfully faithful] at answered
      exact meant.lands_iff rfl opened (RefResolver.isUnfolding_of_answerFixed answered) loaded

theorem replaceEscape_of_not_mem {code char : Char} {chars : List Char} (plain : '~' ∉ chars) :
    replaceEscape code char chars = chars := by
  induction chars with
  | nil => rfl
  | cons first rest ih =>
      have other : first ≠ '~' := fun same => plain (same ▸ List.mem_cons_self)
      rw [replaceEscape, ih fun member => plain (List.mem_cons_of_mem _ member)]
      exact fun _ _ same => absurd same other

/-- A name without slashes and tildes is addressed as it stands. -/
theorem addressesChannel_of_plain {channel : String} (noSlash : '/' ∉ channel.toList)
    (noTilde : '~' ∉ channel.toList) : AddressesChannel ("#/channels/" ++ channel) channel := by
  refine ⟨"/channels/" ++ channel, ?_, ?_⟩
  · have chars : ("#/channels/" ++ channel).toList = '#' :: ("/channels/" ++ channel).toList := by
      rw [String.toList_append, String.toList_append]
      rfl
    unfold splitRef Text.splitOnce
    rw [chars]
    change (_, String.ofList ("/channels/" ++ channel).toList) = ("", "/channels/" ++ channel)
    rw [String.ofList_toList]
    rfl
  · have chars : ("/channels/" ++ channel).toList =
        '/' :: (Text.joined '/' ["channels", channel]).toList := by
      simp [Text.joined]
    have path : (Text.stripPrefix "/" ("/channels/" ++ channel)).getD ("/channels/" ++ channel) =
        Text.joined '/' ["channels", channel] := by
      unfold Text.stripPrefix
      rw [chars, if_pos ⟨_, rfl⟩]
      exact String.ofList_toList
    have parts : Text.pieces '/' (Text.joined '/' ["channels", channel]) =
        ["channels", channel] := by
      refine Text.pieces_joined (List.forall_mem_cons.mpr ⟨by decide, ?_⟩) (List.cons_ne_nil _ _)
      simpa using noSlash
    have first : unescapeSegment "channels" = "channels" := by decide
    rw [path, parts, List.map_cons, List.map_cons, List.map_nil, first, unescapeSegment,
      replaceEscape_of_not_mem noTilde, replaceEscape_of_not_mem noTilde, String.ofList_toList]

/-- An operation that sends strings, with what stands for its channel. -/
def greeting (channel : Value) : List (String × Value) :=
  [("action", .string "send"), ("channel", channel),
    ("messages", .array [.object [("payload", .object [("type", .string "string")])]])]

/-- A document with two channels, and one operation on the second. -/
def twoChannels (first : Value) : Value :=
  .object [("asyncapi", .string "3.0.0"),
    ("channels", .object [("a", first), ("b", .object [])]),
    ("operations", .object [("greet", .object
      (greeting (.object [("$ref", .string "#/channels/b")])))])]

def greet : AnnouncedOperation where
  channel := "b"
  node := .object (greeting (.object []))

def twoAnnounced (first : Value) : Announcement where
  channels := [("a", first), ("b", .object [])]
  operations := [greet]
  distinct := by simp

/-- The document as the file `/d/a.json`. -/
def twoFiles (first : Value) : Files String := directoryOf [("/d/a.json", twoChannels first)]

theorem meantBy_twoChannels {first : Value} (settled : first.Settled) (allowedRoots : List String) :
    MeantBy (twoFiles first) allowedRoots (twoChannels first) "/d" (twoAnnounced first) := by
  have empty : (Value.object []).Settled := .object rfl (by simp)
  have payload : (Value.object [("type", .string "string")]).Settled :=
    .object rfl (List.forall_mem_singleton.mpr (.scalar trivial))
  have messages :
      (Value.array [.object [("payload", .object [("type", .string "string")])]]).Settled :=
    .array (List.forall_mem_singleton.mpr
      (.object rfl (List.forall_mem_singleton.mpr payload)))
  have holds : HoldsObject (twoChannels first) "channels" [("a", first), ("b", .object [])] :=
    ⟨rfl, rfl⟩
  constructor
  case plain => exact ⟨_, rfl, rfl⟩
  case version => exact ⟨"3.0.0", rfl, by decide⟩
  case channels =>
    exact ⟨_, holds, .cons ⟨rfl, 0, settled.unfolds 0⟩ (.cons ⟨rfl, 0, empty.unfolds 0⟩ .nil)⟩
  case operations =>
    refine .inr ⟨[("greet", .object (greeting (.object [("$ref", .string "#/channels/b")])))],
      ⟨rfl, rfl⟩, .cons ⟨.here rfl rfl ?_, 1, ?_⟩ .nil⟩
    · have plain : '/' ∉ "b".toList ∧ '~' ∉ "b".toList := by decide
      exact addressesChannel_of_plain plain.1 plain.2
    · have reference : Unfolds (twoFiles first) allowedRoots 1 (twoChannels first) "/d"
          (.object [("$ref", .string "#/channels/b")]) (.object []) := by
        have names : Names (twoFiles first) allowedRoots (twoChannels first) "/d" "#/channels/b"
            (twoChannels first) "/d" (.object []) := by
          have segments : (Text.pieces '/' ((Text.stripPrefix "/" "/channels/b").getD
              "/channels/b")).map unescapeSegment = ["channels", "b"] := by decide
          refine .inDocument (by decide) (show _ = ("", "/channels/b") by decide) ?_
          exact resolvePointer_channel segments holds
        refine (unfolds_reference_iff rfl names).mpr ⟨.object [], empty.unfolds 0, rfl, ?_⟩
        intro key sibling found
        cases found
      have action : Unfolds (twoFiles first) allowedRoots 1 (twoChannels first) "/d"
        (.string "send") (.string "send") := .scalar trivial
      exact unfolds_of_members rfl (.cons ⟨rfl, action⟩
        (.cons ⟨rfl, reference⟩ (.cons ⟨rfl, messages.unfolds 1⟩ .nil)))

theorem start_twoChannels (first : Value) :
    (AsyncApiRuntime.resolverFor (twoFiles first) "." "/d/a.json").start (twoFiles first)
      (.resolve "/d/a.json") = .ok (twoChannels first, "/d") := by
  rfl

/-- The document is loaded with the specs of its operations. -/
theorem fromPath_twoChannels {first resolved : Value} (settled : first.Settled)
    (answered : ((AsyncApiRuntime.resolverFor (twoFiles first) "." "/d/a.json").answer
      (twoFiles first) (.resolve "/d/a.json")).2 = .ok resolved) :
    AsyncApiRuntime.fromPath (twoFiles first) "." "/d/a.json" =
      .ok ⟨(twoAnnounced first).specs⟩ := by
  unfold AsyncApiRuntime.fromPath
  rw [answered]
  obtain ⟨rootDoc, base, opened, unfolds⟩ :=
    RefResolver.isUnfolding_of_answer (keysFaithful_directoryOf _)
      (AsyncApiRuntime.resolverFor (twoFiles first) "." "/d/a.json") [] (.resolve "/d/a.json")
      answered
  cases (start_twoChannels first).symm.trans opened
  obtain ⟨hops, unfolded⟩ := (unfolds resolved).mpr rfl
  exact (meantBy_twoChannels settled _).fromDocument_eq unfolded

/-- The document with its reference resolved. -/
def twoResolved (first : Value) : Value :=
  .object [("asyncapi", .string "3.0.0"),
    ("channels", .object [("a", first), ("b", .object [])]),
    ("operations", .object [("greet", greet.node)])]

/-- A channel that is not empty. -/
def rooms : Value := .object [("address", .string "rooms")]

theorem operations_land_iff_rooms :
    ∃ runtime, AsyncApiRuntime.fromPath (twoFiles rooms) "." "/d/a.json" = .ok runtime ∧
      (twoAnnounced rooms).Lands runtime := by
  have settled : rooms.Settled := .object rfl (List.forall_mem_singleton.mpr (.scalar trivial))
  have answered : ((AsyncApiRuntime.resolverFor (twoFiles rooms) "." "/d/a.json").answer
      (twoFiles rooms) (.resolve "/d/a.json")).2 = .ok (twoResolved rooms) := by decide
  have loaded := fromPath_twoChannels settled answered
  have lands := operations_land_iff (start_twoChannels rooms) (meantBy_twoChannels settled _)
    ⟨(twoAnnounced rooms).specs⟩
  have faithful : (AsyncApiRuntime.resolverFor (twoFiles rooms) "." "/d/a.json").AccessesFaithfully
      (twoFiles rooms) (.resolve "/d/a.json") :=
    RefResolver.faithfulAccesses_of_coherent (keysFaithful_directoryOf _)
      (fun _ held => held.evict _) RefResolver.coherent_empty _
  refine ⟨_, loaded, (lands.2 faithful loaded).mpr ?_⟩
  constructor
  case preceded =>
    rintro operation member action _ ⟨earlier, value, later, split, other, inside, same⟩
    rw [List.mem_singleton.mp member] at split
    have known : (twoAnnounced rooms).channels =
        [("a", rooms)] ++ ("b", .object []) :: [] := rfl
    obtain ⟨rfl, rfl⟩ := split_unique (twoAnnounced rooms).distinct known split
    rw [List.mem_singleton.mp inside] at same
    cases same
  case last =>
    intro operation member action _ _ value last _ lastly
    rw [List.mem_singleton.mp member, List.mem_singleton.mp (Announcement.of_lastOn lastly).1]

/-- Of two equal channels the first gets the schema of the operation on the second. -/
theorem equal_channels_confused :
    ∃ runtime, AsyncApiRuntime.fromPath (twoFiles (.object [])) "." "/d/a.json" = .ok runtime ∧
      MeantBy (twoFiles (.object [])) ["/d"] (twoChannels (.object [])) "/d"
        (twoAnnounced (.object [])) ∧
      (runtime.channels.lookup "b").map ChannelSpec.publishSchema = some none ∧
      ¬ (twoAnnounced (.object [])).Lands runtime := by
  have settled : (Value.object []).Settled := .object rfl (by simp)
  have answered : ((AsyncApiRuntime.resolverFor (twoFiles (.object [])) "." "/d/a.json").answer
      (twoFiles (.object [])) (.resolve "/d/a.json")).2 = .ok (twoResolved (.object [])) := by
    decide
  have missing : ((twoAnnounced (.object [])).specs.lookup "b").map ChannelSpec.publishSchema =
      some none := by decide
  refine ⟨_, fromPath_twoChannels settled answered, meantBy_twoChannels settled _, missing, ?_⟩
  intro lands
  obtain ⟨spec, found, carries⟩ := lands.named greet (List.mem_singleton.mpr rfl) .send rfl
  change (twoAnnounced (.object [])).specs.lookup "b" = some spec at found
  rw [found, Option.map_some, Option.some.injEq] at missing
  have carried : spec.publishSchema = (extractV3OperationMessages greet.node).1 :=
    congrArg Prod.fst carries
  rw [missing] at carried
  cases carried

end SpecMock.Runtime
