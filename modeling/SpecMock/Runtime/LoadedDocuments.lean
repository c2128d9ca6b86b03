import SpecMock.Core.RefIdempotent
import SpecMock.Runtime.AsyncApiDocument
import SpecMock.Runtime.OpenApiDocument

/-!
# Documents loaded from files

A document is read from a file, its references are resolved, and operations or
channels are read from what comes out.  Nothing that they keep has a reference
left: not the schemas as they are normalised, not the examples, and not what
the callbacks send.
-/

namespace SpecMock.Runtime

open SpecMock.Library SpecMock.Core

/-- `from_path`: resolve the references of a file, then read the operations. -/
def openApiFromPath {Path : Type} (files : Core.Files Path) (here path : Path) :
    Except RuntimeError (List LoadedOperation) :=
  match ((AsyncApiRuntime.resolverFor files here path).answer files (.resolve path)).2 with
  | .error error => .error (.parse error)
  | .ok resolved => loadDocument resolved

/-! ## Parts of what has no reference -/

section Parts

variable {value part : Value} {members : List (String × Value)} {key : String}

theorem settled_of_mem (settled : (Value.object members).Settled) {member : String × Value}
    (inside : member ∈ members) : member.2.Settled := by
  cases settled with
  | scalar plain => cases plain
  | object _ each => exact each member inside

theorem settled_of_lookup (settled : (Value.object members).Settled)
    (found : members.lookup key = some part) : part.Settled :=
  settled_of_mem settled (SortedEntries.mem_of_lookup found)

theorem settled_of_get (settled : value.Settled) (found : value.get key = some part) :
    part.Settled := by
  cases value with
  | object members => exact settled_of_lookup settled found
  | _ => cases found

theorem settled_of_asObject (settled : value.Settled) (read : value.asObject = some members) :
    (Value.object members).Settled := by
  rw [asObject_eq_some.mp read] at settled
  exact settled

theorem settled_of_asArray {items : List Value} (settled : value.Settled)
    (read : value.asArray = some items) : ∀ item ∈ items, item.Settled := by
  cases value with
  | array items =>
      cases read
      cases settled with
      | scalar plain => cases plain
      | array each => exact each
  | _ => cases read

/-- An object that is looked up among settled members. -/
theorem settled_of_lookup_asObject {inside : List (String × Value)}
    (settled : (Value.object members).Settled)
    (found : (members.lookup key).bind Value.asObject = some inside) :
    (Value.object inside).Settled := by
  obtain ⟨node, located, read⟩ := Option.bind_eq_some_iff.mp found
  exact settled_of_asObject (settled_of_lookup settled located) read

end Parts

/-! ## Normalised schemas -/

/-- Changing what stands under the keys brings no reference in by itself. -/
theorem settled_map {members : List (String × Value)} {change : String × Value → Value}
    (settled : (Value.object members).Settled)
    (each : ∀ member ∈ members, (change member).Settled) :
    (Value.object (members.map fun member => (member.1, change member))).Settled := by
  cases settled with
  | scalar plain => cases plain
  | object plain _ =>
      refine .object ?_ fun member inside => ?_
      · rw [List.lookup_eq_none_iff] at plain ⊢
        intro member inside
        obtain ⟨original, there, rfl⟩ := List.mem_map.mp inside
        exact plain original there
      · obtain ⟨original, there, rfl⟩ := List.mem_map.mp inside
        exact each original there

theorem settled_filter {members : List (String × Value)} (settled : (Value.object members).Settled)
    (test : String × Value → Bool) : (Value.object (members.filter test)).Settled := by
  cases settled with
  | scalar plain => cases plain
  | object plain each =>
      refine .object ?_ fun member inside => each member (List.mem_filter.mp inside).1
      rw [List.lookup_eq_none_iff] at plain ⊢
      exact fun member inside => plain member (List.mem_filter.mp inside).1

theorem settled_withNull {declared : Value} (settled : declared.Settled) :
    (withNull declared).Settled := by
  have null : (Value.string "null").Settled := .scalar trivial
  cases declared with
  | string name =>
      refine .array fun item member => ?_
      rcases List.mem_cons.mp member with rfl | last
      · exact settled
      · rw [List.mem_singleton.mp last]
        exact null
  | array types =>
      simp only [withNull]
      split
      · exact settled
      · refine .array fun item member => ?_
        rcases List.mem_append.mp member with listed | added
        · exact settled_of_asArray settled rfl item listed
        · rw [List.mem_singleton.mp added]
          exact null
  | _ => exact settled

theorem settled_consumeNullable {members : List (String × Value)}
    (settled : (Value.object members).Settled) :
    (Value.object (consumeNullable members)).Settled := by
  unfold consumeNullable
  split
  · refine settled_filter (settled_map settled fun member inside => ?_) _
    split
    · exact settled_withNull (settled_of_mem settled inside)
    · exact settled_of_mem settled inside
  · exact settled

/-- The rewriting of a keyword's argument is that of the schemas it holds. -/
theorem settled_normalizeArgument {useNullableTransform : Bool} {argument : Value}
    (keyword : String) (settled : argument.Settled)
    (whole : (normalizeSchema useNullableTransform argument).Settled)
    (inObject : ∀ members, argument = .object members →
      ∀ member ∈ members, (normalizeSchema useNullableTransform member.2).Settled)
    (inArray : ∀ items, argument = .array items →
      ∀ item ∈ items, (normalizeSchema useNullableTransform item).Settled) :
    (normalizeArgument useNullableTransform keyword argument).Settled := by
  have schemasOf : ∀ schemas, argument = .object schemas → (Value.object (schemas.map fun entry =>
      (entry.1, normalizeSchema useNullableTransform entry.2))).Settled := by
    rintro schemas rfl
    exact settled_map settled (inObject schemas rfl)
  have itemsOf : ∀ items, argument = .array items →
      (Value.array (items.map (normalizeSchema useNullableTransform))).Settled := by
    rintro items rfl
    refine .array fun item inside => ?_
    obtain ⟨original, there, rfl⟩ := List.mem_map.mp inside
    exact inArray items rfl original there
  unfold normalizeArgument
  split
  iterate 3
    split
    · exact schemasOf _ rfl
    · exact settled
  iterate 3 exact whole
  iterate 3
    split
    · exact itemsOf _ rfl
    · exact settled
  exact settled

/-- Normalising a schema brings no reference in. -/
theorem settled_normalizeSchema (useNullableTransform : Bool) {schema : Value}
    (settled : schema.Settled) : (normalizeSchema useNullableTransform schema).Settled := by
  suffices deep : schema.Settled → (normalizeSchema useNullableTransform schema).Settled ∧
      (∀ members, schema = .object members →
        ∀ member ∈ members, (normalizeSchema useNullableTransform member.2).Settled) ∧
      ∀ items, schema = .array items →
        ∀ item ∈ items, (normalizeSchema useNullableTransform item).Settled from
    (deep settled).1
  clear settled
  induction schema using Value.nestedInduction with
  | scalar value noArray noObject =>
      intro settled
      refine ⟨?_, fun members same => absurd same (noObject members),
        fun items same => absurd same (noArray items)⟩
      cases value with
      | object members => exact absurd rfl (noObject members)
      | _ => exact settled
  | array items each =>
      intro settled
      refine ⟨settled, nofun, fun others same item member => ?_⟩
      cases same
      cases settled with
      | scalar plain => cases plain
      | array settledItems => exact (each item member (settledItems item member)).1
  | object members each =>
      intro settled
      have inside : ∀ member ∈ members,
          (normalizeSchema useNullableTransform member.2).Settled := fun member there =>
        (each member there (settled_of_mem settled there)).1
      refine ⟨?_, fun others same => by cases same; exact inside, nofun⟩
      have nested : (Value.object (normalizeMembers useNullableTransform members)).Settled := by
        rw [normalizeMembers_eq]
        refine settled_map settled fun member there => ?_
        have part := settled_of_mem settled there
        obtain ⟨whole, inObject, inArray⟩ := each member there part
        exact settled_normalizeArgument member.1 part whole inObject inArray
      unfold normalizeSchema
      dsimp only
      split
      · exact settled_consumeNullable nested
      · exact nested

/-! ## Operations -/

/-- What a media type of a response keeps. -/
structure MediaTypeSpec.Settled (entry : MediaTypeSpec) : Prop where
  schema : ∀ schema ∈ entry.schema, schema.Settled
  exampleValue : ∀ body ∈ entry.exampleValue, body.Settled
  namedExamples : ∀ named ∈ entry.namedExamples.entries, named.2.Settled

structure ResponseHeaderSpec.Settled (header : ResponseHeaderSpec) : Prop where
  schema : ∀ schema ∈ header.schema, schema.Settled
  exampleValue : ∀ value ∈ header.exampleValue, value.Settled

structure ResponseSpec.Settled (response : ResponseSpec) : Prop where
  content : ∀ entry ∈ response.content, entry.Settled
  headers : ∀ header ∈ response.headers.entries, header.2.Settled

/-- No value that the operation keeps has a reference at any depth. -/
structure LoadedOperation.Settled (operation : LoadedOperation) : Prop where
  parameters : ∀ parameter ∈ operation.parameters, parameter.schema.Settled
  requestBody : ∀ schema ∈ operation.requestBodySchema, schema.Settled
  responses : ∀ response ∈ operation.responses, response.Settled
  callbacks : ∀ callback ∈ operation.callbacks, ∀ schema ∈ callback.requestBodySchema,
    schema.Settled

section Reading

variable {version : String} {node : List (String × Value)}

theorem settled_declaredSchema (settled : (Value.object node).Settled) :
    ∀ schema ∈ declaredSchema version node, schema.Settled := by
  intro schema member
  obtain ⟨members, found, rfl⟩ := Option.map_eq_some_iff.mp member
  exact settled_normalizeSchema _ (settled_of_lookup_asObject settled found)

theorem settled_parseParameters {parametersNode : Option Value}
    (settled : ∀ node ∈ parametersNode, node.Settled) :
    ∀ parameter ∈ parseParameters parametersNode version, parameter.schema.Settled := by
  intro parameter member
  unfold parseParameters at member
  split at member
  · cases member
  next nodes found =>
    obtain ⟨node, listed, parsed⟩ := List.mem_filterMap.mp member
    obtain ⟨parameterObject, read, parsed⟩ := Option.bind_eq_some_iff.mp parsed
    obtain ⟨name, _, parsed⟩ := Option.bind_eq_some_iff.mp parsed
    obtain ⟨location, _, rfl⟩ := Option.map_eq_some_iff.mp parsed
    obtain ⟨array, given, items⟩ := Option.bind_eq_some_iff.mp found
    have inside := settled_of_asObject
      (settled_of_asArray (settled array given) items node listed) read
    dsimp only
    cases declared : declaredSchema version parameterObject with
    | some schema => exact settled_declaredSchema inside schema declared
    | none => exact settled_normalizeSchema _ (.object rfl (by simp))

theorem settled_parseRequestBody (settled : (Value.object node).Settled) :
    ∀ schema ∈ (parseRequestBody node version).schema, schema.Settled := by
  unfold parseRequestBody
  split
  · nofun
  next requestBody found =>
    have body := settled_of_lookup_asObject settled found
    split
    · nofun
    next content found =>
      intro schema member
      obtain ⟨media, located, declared⟩ := Option.bind_eq_some_iff.mp member
      exact settled_declaredSchema
        (settled_of_lookup_asObject (settled_of_lookup_asObject body found) located) schema declared

/-- The examples of an object, wherever they are declared. -/
theorem settled_examples {examples : List (String × Value)}
    (settled : (Value.object examples).Settled) :
    ∀ named ∈ (OrderedMap.collect (examples.map fun entry =>
      (entry.1, (entry.2.get "value").getD entry.2))).entries, named.2.Settled := by
  intro named member
  obtain ⟨entry, listed, rfl⟩ := List.mem_map.mp (SortedEntries.mem_of_mem_collect member)
  have whole := settled_of_mem settled listed
  dsimp only
  cases held : entry.2.get "value" with
  | none => exact whole
  | some value => exact settled_of_get whole held

theorem settled_getD_lookup (settled : (Value.object node).Settled) (key : String) :
    (Value.object (((node.lookup key).bind Value.asObject).getD [])).Settled := by
  cases found : (node.lookup key).bind Value.asObject with
  | none => exact .object rfl (by simp)
  | some inside => exact settled_of_lookup_asObject settled found

theorem settled_parseMediaTypes (settled : (Value.object node).Settled) :
    ∀ entry ∈ parseMediaTypes node version, entry.Settled := by
  intro entry member
  obtain ⟨declared, listed, parsed⟩ := List.mem_filterMap.mp member
  obtain ⟨media, read, rfl⟩ := Option.map_eq_some_iff.mp parsed
  have inside := settled_of_asObject (settled_of_mem settled listed) read
  have named := settled_examples (settled_getD_lookup inside "examples")
  refine ⟨settled_declaredSchema inside, fun body given => ?_, named⟩
  rcases Option.or_eq_some_iff.mp given with direct | ⟨_, first⟩
  · exact settled_of_lookup inside direct
  · obtain ⟨entry, head, rfl⟩ := Option.map_eq_some_iff.mp first
    exact named entry (List.mem_of_mem_head? head)

theorem settled_headerExample (settled : (Value.object node).Settled) :
    ∀ value ∈ headerExample node, value.Settled := by
  intro value given
  rcases Option.or_eq_some_iff.mp given with direct | ⟨_, first⟩
  · exact settled_of_lookup settled direct
  · obtain ⟨examples, found, first⟩ := Option.bind_eq_some_iff.mp first
    obtain ⟨entry, head, held⟩ := Option.bind_eq_some_iff.mp first
    exact settled_of_get (settled_of_mem (settled_of_lookup_asObject settled found)
      (List.mem_of_mem_head? head)) held

theorem settled_parseResponseHeaders (settled : (Value.object node).Settled) :
    ∀ header ∈ (parseResponseHeaders node version).entries, header.2.Settled := by
  intro header member
  obtain ⟨entry, listed, parsed⟩ :=
    List.mem_filterMap.mp (SortedEntries.mem_of_mem_collect member)
  obtain ⟨headerObject, read, rfl⟩ := Option.map_eq_some_iff.mp parsed
  have inside := settled_of_asObject
    (settled_of_mem (settled_getD_lookup settled "headers") listed) read
  exact ⟨settled_declaredSchema inside, settled_headerExample inside⟩

theorem settled_parseResponses (settled : (Value.object node).Settled) :
    ∀ response ∈ parseResponses node version, response.Settled := by
  intro response member
  unfold parseResponses at member
  split at member
  · cases member
  next responsesNode found =>
    obtain ⟨entry, listed, parsed⟩ := List.mem_filterMap.mp member
    obtain ⟨responseObject, read, rfl⟩ := Option.map_eq_some_iff.mp parsed
    have inside := settled_of_asObject
      (settled_of_mem (settled_of_lookup_asObject settled found) listed) read
    refine ⟨fun media sorted => ?_, settled_parseResponseHeaders inside⟩
    exact settled_parseMediaTypes (settled_getD_lookup inside "content") media
      ((List.mem_insertionSort _).mp sorted)

theorem settled_callbackSchema (settled : (Value.object node).Settled) :
    ∀ schema ∈ callbackSchema node version, schema.Settled := by
  intro schema member
  obtain ⟨content, found, member⟩ := Option.bind_eq_some_iff.mp member
  obtain ⟨requestBody, located, found⟩ := Option.bind_eq_some_iff.mp found
  obtain ⟨contentNode, held, read⟩ := Option.bind_eq_some_iff.mp found
  obtain ⟨media, given, declared⟩ := Option.bind_eq_some_iff.mp member
  have inside := settled_of_asObject (settled_of_get (settled_of_lookup settled located) held) read
  exact settled_declaredSchema (settled_of_lookup_asObject inside given) schema declared

theorem settled_parseCallbacks (settled : (Value.object node).Settled) :
    ∀ callback ∈ parseCallbacks node version, ∀ schema ∈ callback.requestBodySchema,
      schema.Settled := by
  intro callback member
  unfold parseCallbacks at member
  split at member
  · cases member
  next callbacksNode found =>
    obtain ⟨named, listed, member⟩ := List.mem_flatMap.mp member
    obtain ⟨entry, declared, member⟩ := List.mem_flatMap.mp member
    cases read : entry.2.asObject with
    | none => simp [read] at member
    | some pathItem =>
        rw [read] at member
        obtain ⟨methodName, _, parsed⟩ := List.mem_filterMap.mp member
        obtain ⟨cbOperation, located, rfl⟩ := Option.map_eq_some_iff.mp parsed
        have outer := settled_of_mem (settled_of_lookup_asObject settled found) listed
        have expressions : (Value.object (named.2.asObject.getD [])).Settled := by
          cases form : named.2.asObject with
          | none => exact .object rfl (by simp)
          | some inside => exact settled_of_asObject outer form
        have item := settled_of_asObject (settled_of_mem expressions declared) read
        exact settled_callbackSchema (settled_of_lookup_asObject item located)

end Reading

/-- The operations of a document without references have none. -/
theorem settled_loadDocument {root : Value} {operations : List LoadedOperation}
    (settled : root.Settled) (loaded : loadDocument root = .ok operations) :
    ∀ operation ∈ operations, operation.Settled := by
  obtain ⟨version, paths, _, found, rfl⟩ := of_loadDocument loaded
  intro operation member
  obtain ⟨entry, listed, rfl⟩ := List.mem_map.mp member
  obtain ⟨path, declared, listed⟩ := List.mem_flatMap.mp listed
  have inPaths := settled_of_mem (settled_of_get settled found) declared
  cases read : path.2.asObject with
  | none => simp [read] at listed
  | some pathObject =>
      rw [read] at listed
      obtain ⟨methodName, _, parsed⟩ := List.mem_filterMap.mp listed
      obtain ⟨operationObject, located, rfl⟩ := Option.map_eq_some_iff.mp parsed
      have item := settled_of_asObject inPaths read
      have inside := settled_of_lookup_asObject item located
      have parameters : ∀ {node : List (String × Value)}, (Value.object node).Settled →
          ∀ parameter ∈ parseParameters (node.lookup "parameters") version,
            parameter.schema.Settled := fun settled =>
        settled_parseParameters fun _ given => settled_of_lookup settled given
      refine ⟨fun parameter given => ?_, settled_parseRequestBody inside,
        settled_parseResponses inside, settled_parseCallbacks inside⟩
      rcases mem_of_mem_effectiveParameters given with inherited | own
      · exact parameters item parameter inherited
      · exact parameters inside parameter own

/-! ## Channels -/

/-- What a channel keeps. -/
structure ChannelSpec.Settled (spec : ChannelSpec) : Prop where
  publishSchema : ∀ schema ∈ spec.publishSchema, schema.Settled
  subscribeSchema : ∀ schema ∈ spec.subscribeSchema, schema.Settled
  subscribeExample : ∀ body ∈ spec.subscribeExample, body.Settled

/-- Every channel of the runtime. -/
def AsyncApiRuntime.Settled (runtime : AsyncApiRuntime) : Prop :=
  ∀ channelName spec, runtime.channels.lookup channelName = some spec → spec.Settled

section Channels

variable {node : Value}

theorem settled_of_get_bind (settled : node.Settled) {outer inner : String} {part : Value}
    (found : ((node.get outer).bind fun within => within.get inner) = some part) :
    part.Settled := by
  obtain ⟨within, located, held⟩ := Option.bind_eq_some_iff.mp found
  exact settled_of_get (settled_of_get settled located) held

/-- The first of the values that a member lists. -/
theorem settled_of_head (settled : node.Settled) {key : String} {first : Value}
    (found : ((node.get key).bind Value.asArray).bind List.head? = some first) :
    first.Settled := by
  obtain ⟨items, listed, head⟩ := Option.bind_eq_some_iff.mp found
  obtain ⟨array, located, read⟩ := Option.bind_eq_some_iff.mp listed
  exact settled_of_asArray (settled_of_get settled located) read first
    (List.mem_of_mem_head? head)

theorem settled_extractSubscribePayload (settled : node.Settled) :
    (∀ schema ∈ (extractSubscribePayload node).1, schema.Settled) ∧
      ∀ body ∈ (extractSubscribePayload node).2, body.Settled := by
  unfold extractSubscribePayload
  split
  · exact ⟨nofun, nofun⟩
  next message found =>
    have inside := settled_of_get_bind settled found
    refine ⟨fun schema held => settled_of_get inside held, fun body given => ?_⟩
    rcases Option.or_eq_some_iff.mp given with direct | ⟨_, first⟩
    · exact settled_of_get inside direct
    · exact settled_of_head inside first

theorem settled_extractMessagePayloadSchema (settled : node.Settled) (opName : String) :
    ∀ schema ∈ extractMessagePayloadSchema node opName, schema.Settled := by
  intro schema given
  obtain ⟨message, found, held⟩ := Option.bind_eq_some_iff.mp given
  exact settled_of_get (settled_of_get_bind settled found) held

theorem settled_extractV3OperationMessages (settled : node.Settled) :
    (∀ schema ∈ (extractV3OperationMessages node).1, schema.Settled) ∧
      ∀ body ∈ (extractV3OperationMessages node).2, body.Settled := by
  have message : ∀ message,
      ((node.get "messages").bind Value.asArray).bind List.head? = some message →
        message.Settled := fun _ found => settled_of_head settled found
  unfold extractV3OperationMessages
  refine ⟨fun schema given => ?_, fun body given => ?_⟩
  · obtain ⟨first, found, held⟩ := Option.bind_eq_some_iff.mp given
    exact settled_of_get (message first found) held
  · obtain ⟨sample, head, held⟩ := Option.bind_eq_some_iff.mp given
    obtain ⟨items, listed, isFirst⟩ := Option.bind_eq_some_iff.mp head
    obtain ⟨array, located, read⟩ := Option.bind_eq_some_iff.mp listed
    obtain ⟨first, found, within⟩ := Option.bind_eq_some_iff.mp located
    have inside := settled_of_get (message first found) within
    exact settled_of_get (settled_of_asArray inside read sample
      (List.mem_of_mem_head? isFirst)) held

theorem ChannelSpec.Settled.accept {spec : ChannelSpec} (settled : spec.Settled)
    (action : Option String) {messages : Option Value × Option Value}
    (schemas : ∀ schema ∈ messages.1, schema.Settled)
    (examples : ∀ body ∈ messages.2, body.Settled) : (spec.accept action messages).Settled := by
  unfold ChannelSpec.accept
  split
  · exact { settled with publishSchema := schemas }
  · split
    · exact { settled with subscribeSchema := schemas, subscribeExample := examples }
    · exact settled

/-- A channel is stored with what is settled. -/
theorem AsyncApiRuntime.Settled.insert {channels : FiniteMap String ChannelSpec}
    (settled : AsyncApiRuntime.Settled ⟨channels⟩) (name : String) {spec : ChannelSpec}
    (inside : spec.Settled) : AsyncApiRuntime.Settled ⟨channels.insert name spec⟩ := by
  intro channelName stored found
  rw [FiniteMap.lookup_insert_eq] at found
  split at found
  · cases found
    exact inside
  · exact settled channelName stored found

theorem AsyncApiRuntime.settled_empty : AsyncApiRuntime.Settled ⟨∅⟩ := by
  intro channelName spec found
  cases found

theorem settled_fromV2 {root : Value} {runtime : AsyncApiRuntime} (settled : root.Settled)
    (loaded : AsyncApiRuntime.fromV2 root = .ok runtime) : runtime.Settled := by
  unfold AsyncApiRuntime.fromV2 at loaded
  split at loaded
  · cases loaded
  next channelMap found =>
    cases loaded
    obtain ⟨declared, located, read⟩ := Option.bind_eq_some_iff.mp found
    have each : ∀ entry ∈ channelMap, entry.2.Settled := fun entry member =>
      settled_of_mem (settled_of_asObject (settled_of_get settled located) read) member
    refine List.foldlRecOn (motive := fun channels => AsyncApiRuntime.Settled ⟨channels⟩)
      channelMap _ AsyncApiRuntime.settled_empty
      fun channels reached entry member => reached.insert _ ?_
    have whole := each entry member
    exact {
      publishSchema := settled_extractMessagePayloadSchema whole "publish"
      subscribeSchema := (settled_extractSubscribePayload whole).1
      subscribeExample := (settled_extractSubscribePayload whole).2 }

theorem settled_applyOperation {channelsMap : List (String × Value)}
    {channels : FiniteMap String ChannelSpec} (reached : AsyncApiRuntime.Settled ⟨channels⟩)
    (settled : node.Settled) :
    AsyncApiRuntime.Settled ⟨applyOperation channelsMap channels node⟩ := by
  unfold applyOperation
  split
  · exact reached
  · split
    · exact reached
    next spec found =>
      obtain ⟨schemas, examples⟩ := settled_extractV3OperationMessages settled
      exact reached.insert _ ((reached _ spec found).accept _ schemas examples)

theorem settled_fromV3 {root : Value} {runtime : AsyncApiRuntime} (settled : root.Settled)
    (loaded : AsyncApiRuntime.fromV3 root = .ok runtime) : runtime.Settled := by
  unfold AsyncApiRuntime.fromV3 at loaded
  split at loaded
  · cases loaded
  next channelsMap found =>
    cases loaded
    have initially : AsyncApiRuntime.Settled ⟨initialSpecs channelsMap⟩ := by
      intro channelName spec held
      obtain ⟨_, rfl⟩ := lookup_initialSpecs.mp held
      exact ⟨nofun, nofun, nofun⟩
    refine List.foldlRecOn (motive := fun channels => AsyncApiRuntime.Settled ⟨channels⟩)
      _ _ initially fun channels reached opNode member => ?_
    obtain ⟨entry, listed, rfl⟩ := List.mem_map.mp member
    refine settled_applyOperation reached ?_
    cases operations : (root.get "operations").bind Value.asObject with
    | none => simp [operations] at listed
    | some ops =>
        rw [operations] at listed
        obtain ⟨declared, located, read⟩ := Option.bind_eq_some_iff.mp operations
        exact settled_of_mem (settled_of_asObject (settled_of_get settled located) read) listed

/-- The channels of a document without references have none. -/
theorem settled_fromDocument {root : Value} {runtime : AsyncApiRuntime} (settled : root.Settled)
    (loaded : AsyncApiRuntime.fromDocument root = .ok runtime) : runtime.Settled := by
  unfold AsyncApiRuntime.fromDocument at loaded
  dsimp only at loaded
  split at loaded
  · exact settled_fromV3 settled loaded
  · exact settled_fromV2 settled loaded

end Channels

/-! ## From a file -/

section Loading

variable {Path : Type} {files : Core.Files Path} {here path : Path}

/-- What a resolver answers with has no reference at any depth. -/
theorem settled_of_answer {resolver : RefResolver Path} {request : RefResolver.Request Path}
    {result : Value} (resolved : (resolver.answer files request).2 = .ok result) :
    result.Settled := by
  obtain ⟨rootDoc, base, _, resolved⟩ := RefResolver.start_of_resolveFrom resolved
  exact (ensures_fits _ _ _ _ _ result _ (Prod.ext resolved rfl)).settled

/--
Whatever files a document is loaded from, and however its references run, no
operation of an OpenAPI document and no channel of an AsyncAPI document keeps a
value with a reference at any depth.
-/
theorem loaded_documents_settled (files : Core.Files Path) (here path : Path) :
    (∀ operations, openApiFromPath files here path = .ok operations →
      ∀ operation ∈ operations, operation.Settled) ∧
    ∀ runtime, AsyncApiRuntime.fromPath files here path = .ok runtime → runtime.Settled := by
  constructor
  · intro operations loaded
    unfold openApiFromPath at loaded
    split at loaded
    · cases loaded
    next resolved answered => exact settled_loadDocument (settled_of_answer answered) loaded
  · intro runtime loaded
    unfold AsyncApiRuntime.fromPath at loaded
    split at loaded
    · cases loaded
    next resolved answered => exact settled_fromDocument (settled_of_answer answered) loaded

/-- A document whose only response has the schema of a component. -/
def petsDocument : Value :=
  .object [("components", .object [("schemas", .object [
      ("Pet", .object [("nullable", .bool true), ("type", .string "object")])])]),
    ("openapi", .string "3.0.3"),
    ("paths", .object [("/pets", .object [("get", .object [("responses", .object [("200", .object [
      ("content", .object [("application/json", .object [("schema", .object [
        ("$ref", .string "#/components/schemas/Pet")])])])])])])])])]

theorem loaded_documents_settled_pets :
    ∃ operations,
      openApiFromPath (directoryOf [("/d/a.json", petsDocument)]) "." "/d/a.json" =
        .ok operations ∧
      (operations.flatMap fun operation => operation.responses.flatMap fun response =>
        response.content.map MediaTypeSpec.schema) =
          [some (.object [("type", .array [.string "object", .string "null"])])] ∧
      ∀ operation ∈ operations, operation.Settled := by
  have loaded : ((openApiFromPath (directoryOf [("/d/a.json", petsDocument)]) "."
      "/d/a.json").toOption.map fun operations => operations.flatMap fun operation =>
        operation.responses.flatMap fun response => response.content.map MediaTypeSpec.schema) =
      some [some (.object [("type", .array [.string "object", .string "null"])])] := by
    decide
  cases read : openApiFromPath (directoryOf [("/d/a.json", petsDocument)]) "." "/d/a.json" with
  | error error =>
      rw [read] at loaded
      cases loaded
  | ok operations =>
      rw [read] at loaded
      exact ⟨operations, rfl, Option.some.inj loaded,
        (loaded_documents_settled (directoryOf [("/d/a.json", petsDocument)]) "."
          "/d/a.json").1 operations read⟩

end Loading

end SpecMock.Runtime
