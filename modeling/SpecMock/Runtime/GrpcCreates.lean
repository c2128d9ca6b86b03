import SpecMock.Core.MessageTypes
import SpecMock.Runtime.GrpcOutcomes

/-!
# Resources created over gRPC

A create over gRPC files the mocked reply, after writing the identifier into
its JSON form at the pointer that the request was read with.  Whether the reply
has a field there is only found out when the message is built from the stored
document, and by then the store and the state have changed.
-/

namespace SpecMock.Runtime

open SpecMock.Library SpecMock.Core

/-- The path that an identifier is written at; the empty pointer leaves the document alone. -/
def alignedPath (pointer : String) : List String :=
  if pointer = "" then [] else pointerSegments pointer

theorem alignIdentifier_eq (value : Value) (pointer identifier : String) :
    alignIdentifier value pointer identifier =
      alignAt identifier value (alignedPath pointer) := by
  unfold alignIdentifier alignedPath
  split
  · rfl
  · rfl

section Types

variable {D : Type} (types : MessageTypes D) (identifier : String)

/--
A document of the kind may have the identifier at the path: every segment is a
field that may stand beside the members there, the last one a field for a text.
-/
def pathFits : FieldKind D → Value → List String → Bool
  | kind, value, [] => types.fits value kind
  | .plain admits, value, segment :: rest => admits (alignAt identifier value (segment :: rest))
  | .message descriptor, value, segment :: rest =>
      types.together descriptor
        ((members (alignAt identifier value (segment :: rest))).map Prod.fst) &&
      match types.fieldOf descriptor segment with
      | none => false
      | some kind =>
          match rest with
          | [] => types.fits (.string identifier) kind
          | _ => pathFits kind (((members value).lookup segment).getD (.object [])) rest

/-- The members of a document that fits its message type fit. -/
theorem fitsMembers_members {value : Value} {descriptor : D}
    (fit : types.fits value (.message descriptor) = true) :
    types.fitsMembers descriptor (members value) = true := by
  cases value with
  | object members =>
      rw [MessageTypes.fits, Bool.and_eq_true] at fit
      exact fit.2
  | null | bool | number | string | array => rfl

/-- A document with the identifier written into it fits exactly if the path does. -/
theorem fits_alignAt (kind : FieldKind D) (value : Value) (path : List String)
    (fit : ∀ descriptor, kind = .message descriptor →
      types.fitsMembers descriptor (members value) = true) :
    types.fits (alignAt identifier value path) kind =
      pathFits types identifier kind value path := by
  induction path generalizing kind value with
  | nil => simp only [alignAt, pathFits]
  | cons segment rest ih =>
      cases kind with
      | plain admits => simp only [MessageTypes.fits, pathFits]
      | message descriptor =>
          have inside := fit descriptor rfl
          have written : ∀ new, alignAt identifier value (segment :: rest) =
              .object (SortedEntries.insert segment new (members value)) →
              types.fits (alignAt identifier value (segment :: rest)) (.message descriptor) =
                (types.together descriptor
                    ((members (alignAt identifier value (segment :: rest))).map Prod.fst) &&
                  types.fitsMember descriptor segment new) := by
            intro new aligned
            rw [aligned, MessageTypes.fits, types.fitsMembers_insert inside]
            rfl
          cases rest with
          | nil => exact written (.string identifier) rfl
          | cons next others =>
              rw [written _ rfl, pathFits]
              refine congrArg _ ?_
              cases known : types.fieldOf descriptor segment with
              | none => simp only [MessageTypes.fitsMember, known]
              | some child =>
                  simp only [MessageTypes.fitsMember, known]
                  apply ih
                  rintro inner rfl
                  cases held : (members value).lookup segment with
                  | none => rfl
                  | some document =>
                      have member := SortedEntries.mem_of_lookup held
                      have whole := types.fitsMembers_iff.mp inside _ member
                      rw [MessageTypes.fitsMember, known] at whole
                      exact fitsMembers_members types whole

end Types

/-- The JSON mapping of messages, as the library documents it. -/
structure JsonMapping (protobuf : Protobuf) where
  types : MessageTypes protobuf.Descriptor
  /-- A document describes a message of a type exactly if it fits the type. -/
  deserializes : ∀ descriptor value, (protobuf.deserialize descriptor value).isOk =
    types.fits value (.message descriptor)
  /-- The members of a mocked message are fields of its type. -/
  mocked : ∀ descriptor seed message,
    protobuf.generateDynamicMessage descriptor seed = .ok message →
      types.fitsMembers descriptor (members (protobuf.toValue message)) = true

variable {protobuf : Protobuf}

namespace ScenarioRuntime

/-- The request files a resource under an identifier that is free. -/
structure Creates (runtime : ScenarioRuntime) (request : Request) (entry : ScenarioEntry)
    (operation : ResolvedOperation) (inst : Instance) (spec : StoreSpec) (source : KeySource)
    (id : String) : Prop where
  admitted : runtime.Admitted request entry operation inst
  stored : operation.store = some spec
  creating : spec.action = .create
  sourced : spec.keyFrom = some source
  identified : resolveCreateKey spec request.request request.response = some id
  room : inst.store.count < inst.store.limit
  free : inst.store.read ⟨bindNamespace spec.resource request.params, id⟩ = none

section Filing

variable {runtime : ScenarioRuntime} {request : Request} {entry : ScenarioEntry}
  {operation : ResolvedOperation} {inst : Instance} {spec : StoreSpec} {source : KeySource}
  {id : String}

/-- The reply is filed with its identifier aligned. -/
theorem Creates.filed (creates : runtime.Creates request entry operation inst spec source id)
    (replies : request.createValue = .response) :
    ∃ after, storeOutcome inst.store operation request =
        (after, .body (alignIdentifier request.response source.pointer id)) ∧
      after.read ⟨bindNamespace spec.resource request.params, id⟩ =
        some (alignIdentifier request.response source.pointer id) := by
  obtain ⟨_, stored, creating, sourced, identified, room, free⟩ := creates
  have value : createdValue spec request.request request.response request.createValue id =
      alignIdentifier request.response source.pointer id := by
    simp only [createdValue, replies, sourced]
  simp only [storeOutcome, stored, applyStore, creating, identified, value]
  rcases inst.store.create_cases ⟨bindNamespace spec.resource request.params, id⟩
      (alignIdentifier request.response source.pointer id) with
    ⟨full, _⟩ | ⟨_, present, _⟩ | ⟨_, _, after, created, filed, _⟩
  · omega
  · rw [free] at present
    cases present
  · rw [created]
    refine ⟨after, rfl, ?_⟩
    rw [Store.read, filed, FiniteMap.lookup_insert_eq, if_pos rfl]

/-- The resource is in the session after the request, whatever the answer. -/
theorem Creates.kept (creates : runtime.Creates request entry operation inst spec source id)
    (replies : request.createValue = .response) (validated : request.validated = true) :
    ∃ later, (runtime.resolveWith request).1.view (runtime.pairOf request) = some later ∧
      later.store.read ⟨bindNamespace spec.resource request.params, id⟩ =
        some (alignIdentifier request.response source.pointer id) := by
  obtain ⟨after, outcome, read⟩ := creates.filed replies
  refine ⟨_, creates.admitted.gives.resolved.2, ?_⟩
  rw [attendInstance, if_neg (by simp [creates.admitted.legal]), if_neg (by simp [validated]),
    serve_instance, outcome]
  exact read

/-- Filing a resource changes what the session holds. -/
theorem Creates.changed (creates : runtime.Creates request entry operation inst spec source id)
    (replies : request.createValue = .response) (validated : request.validated = true) :
    (runtime.resolveWith request).1.view (runtime.pairOf request) ≠
      runtime.view (runtime.pairOf request) := by
  obtain ⟨later, live, read⟩ := creates.kept replies validated
  intro same
  have held := creates.admitted.gives.held
  rw [← same, live, Option.getD_some] at held
  rw [held, creates.free] at read
  cases read

/-- The answer to a request that files a resource under no override. -/
theorem Creates.resolved (creates : runtime.Creates request entry operation inst spec source id)
    (replies : request.createValue = .response) (validated : request.validated = true)
    (unchosen : chosenOverride (ScenarioEntry.machine entry) inst.state operation = none) :
    (runtime.resolveWith request).2 =
      .body (alignIdentifier request.response source.pointer id) := by
  obtain ⟨after, outcome, _⟩ := creates.filed replies
  rw [creates.admitted.resolved validated, finalOutcome_of_unchosen _ unchosen, outcome]

end Filing

/-- What a unary call files can be read, and a call that fails for it files nothing. -/
structure FilesReadable (runtime : ScenarioRuntime) (call : UnaryCall protobuf)
    (request : Request) (result : Option ScenarioRuntime × GrpcResponse) : Prop where
  readable : ∀ entry operation inst spec source id,
    runtime.Creates request entry operation inst spec source id →
      call.decodes (alignIdentifier request.response source.pointer id) = true
  answered : ∀ entry operation inst spec source id,
    runtime.Creates request entry operation inst spec source id →
      chosenOverride (ScenarioEntry.machine entry) inst.state operation = none →
      result.2.status = 0
  unchanged : ∀ entry operation inst spec source id,
    runtime.Creates request entry operation inst spec source id →
      call.decodes (alignIdentifier request.response source.pointer id) = false →
      result.2.status = 13 → ∀ after, result.1 = some after →
      after.view (runtime.pairOf request) = runtime.view (runtime.pairOf request)

/-- The pointer of a create leads to a field of the reply that takes the identifier. -/
def PointerFits (runtime : ScenarioRuntime) (mapping : JsonMapping protobuf)
    (call : UnaryCall protobuf) (request : Request) : Prop :=
  ∀ entry operation inst spec source id,
    runtime.Creates request entry operation inst spec source id →
      pathFits mapping.types id (.message call.method.output) (protobuf.toValue call.response)
        (alignedPath source.pointer) = true

/--
In every state that calls can lead to, what a unary call files can be read
exactly if the pointer of the create leads to a field of the reply that takes
the identifier.  Where it does not, the call fails and the resource is filed.
-/
theorem grpc_creates_readable_iff (mapping : JsonMapping protobuf) (sidecar : ValidatedSidecar)
    (maxSessions maxStoreEntries : Nat) (calls : List Call) (server : GrpcServer protobuf)
    (request : GrpcRequest) (call : UnaryCall protobuf)
    (prepared : server.prepare request = .ok call) :
    let runtime := stateAfter exec (new sidecar maxSessions maxStoreEntries) calls
    let asked := call.resolution request
    let result := server.call (some runtime) request
    (runtime.FilesReadable call asked result ↔ runtime.PointerFits mapping call asked) ∧
    ∀ entry operation inst spec source id,
      runtime.Creates asked entry operation inst spec source id →
      pathFits mapping.types id (.message call.method.output) (protobuf.toValue call.response)
        (alignedPath source.pointer) = false →
      chosenOverride (ScenarioEntry.machine entry) inst.state operation = none →
      result.2.status = 13 ∧ ∃ after later, result.1 = some after ∧
        after.view (runtime.pairOf asked) = some later ∧
        later.store.read ⟨bindNamespace spec.resource asked.params, id⟩ =
          some (alignIdentifier asked.response source.pointer id) ∧
        after.view (runtime.pairOf asked) ≠ runtime.view (runtime.pairOf asked) := by
  intro runtime asked result
  have called : result = (some (runtime.resolveWith asked).1,
      grpcAnswer call (runtime.resolveWith asked).2) := GrpcServer.call_of_prepare prepared runtime
  obtain ⟨seed, generated⟩ := GrpcServer.prepare_response prepared
  have decodes : ∀ source : KeySource, ∀ id,
      call.decodes (alignIdentifier asked.response source.pointer id) =
        pathFits mapping.types id (.message call.method.output) (protobuf.toValue call.response)
          (alignedPath source.pointer) := by
    intro source id
    rw [UnaryCall.decodes, mapping.deserializes, alignIdentifier_eq, fits_alignAt]
    · rfl
    · rintro _ ⟨⟩
      exact mapping.mocked _ _ _ generated
  have status : ∀ {entry operation inst spec source id},
      runtime.Creates asked entry operation inst spec source id →
      chosenOverride (ScenarioEntry.machine entry) inst.state operation = none →
      result.2.status =
        if call.decodes (alignIdentifier asked.response source.pointer id) then 0 else 13 := by
    intro entry operation inst spec source id creates unchosen
    rw [called, creates.resolved rfl rfl unchosen, (status_body call 0 _).2]
  refine ⟨⟨?_, ?_⟩, ?_⟩
  · intro readable entry operation inst spec source id creates
    rw [← decodes]
    exact readable.readable _ _ _ _ _ _ creates
  · intro fits
    constructor
    · intro entry operation inst spec source id creates
      rw [decodes]
      exact fits _ _ _ _ _ _ creates
    · intro entry operation inst spec source id creates unchosen
      rw [status creates unchosen, decodes, fits _ _ _ _ _ _ creates]
      rfl
    · intro entry operation inst spec source id creates undecoded
      rw [decodes, fits _ _ _ _ _ _ creates] at undecoded
      cases undecoded
  · intro entry operation inst spec source id creates misfit unchosen
    obtain ⟨later, live, read⟩ := creates.kept rfl rfl
    rw [status creates unchosen, decodes, misfit, called]
    exact ⟨rfl, _, later, rfl, live, read, creates.changed rfl rfl⟩

end ScenarioRuntime

def isText : Value → Bool
  | .string _ => true
  | _ => false

/-- The types of messages with one string field. -/
def stringTypes : MessageTypes String where
  fieldOf field name := if name = field then some (.plain isText) else none
  together _ names := decide names.Nodup
  bare _ _ := false

theorem fitsMember_stringTypes (field name : String) (value : Value) :
    stringTypes.fitsMember field name value = (decide (name = field) && isText value) := by
  by_cases same : name = field
  · simp [MessageTypes.fitsMember, stringTypes, MessageTypes.fits, same]
  · simp [MessageTypes.fitsMember, stringTypes, same]

theorem deserialize_stringMessages (field : String) (value : Value) :
    (stringMessages.deserialize field value).isOk = stringTypes.fits value (.message field) := by
  cases value with
  | null | bool | number | string | array => rfl
  | object members =>
      match members with
      | [] => rfl
      | [(name, value)] =>
          have fit : stringTypes.fits (.object [(name, value)]) (.message field) =
              (decide (name = field) && isText value) := by
            rw [← fitsMember_stringTypes, MessageTypes.fits]
            simp [stringTypes, MessageTypes.fitsMembers, MessageTypes.fitsMember]
          rw [fit]
          by_cases same : name = field
          · cases value <;> simp [stringMessages, isText, same, Except.isOk, Except.toBool]
          · have odd : (name != field) = true := bne_iff_ne.mpr same
            simp [stringMessages, same, odd, Except.isOk, Except.toBool]
      | (first, value) :: (second, other) :: rest =>
          have refused : (stringMessages.deserialize field
              (.object ((first, value) :: (second, other) :: rest))).isOk = false := by
            simp only [stringMessages]
            split <;> simp_all [Except.isOk, Except.toBool]
          rw [refused, eq_comm, Bool.eq_false_iff]
          intro fit
          rw [MessageTypes.fits, Bool.and_eq_true, MessageTypes.fitsMembers_iff] at fit
          obtain ⟨distinct, each⟩ := fit
          have one := each (first, value) (by simp)
          have two := each (second, other) (by simp)
          rw [fitsMember_stringTypes, Bool.and_eq_true, decide_eq_true_eq] at one two
          have apart : (((first, value) :: (second, other) :: rest).map Prod.fst).Nodup :=
            of_decide_eq_true distinct
          have same : first = second := one.1.trans two.1.symm
          simp [same] at apart

theorem fitsMembers_stringTypes (field text : String) :
    stringTypes.fitsMembers field [(field, .string text)] = true := by
  rw [MessageTypes.fitsMembers_iff]
  intro member inside
  obtain rfl := List.mem_singleton.mp inside
  rw [fitsMember_stringTypes]
  simp [isText]

/-- The JSON mapping of messages with one string field. -/
def stringMapping : JsonMapping stringMessages where
  types := stringTypes
  deserializes := deserialize_stringMessages
  mocked := by
    rintro field seed message made
    obtain rfl : (field, _) = message := Except.ok.inj made
    exact fitsMembers_stringTypes field _

/-- A widget whose messages have an identifier is created and can be read. -/
theorem grpc_creates_readable_widget :
    let runtime := ScenarioRuntime.new widgetSidecar 8 8
    let result := (widgetServer "id").call (some runtime) createWidget
    runtime.FilesReadable widgetCall (widgetCall.resolution createWidget) result ∧
      result.2 = .success [[0, 0, 0, 0, 3, 10, 1, 97]] := by
  intro runtime result
  refine ⟨?_, by decide⟩
  apply (ScenarioRuntime.grpc_creates_readable_iff stringMapping widgetSidecar 8 8 []
    (widgetServer "id") createWidget widgetCall widgetCall_prepared).1.mpr
  intro entry operation inst spec source id creates
  have stored : (⟨"createWidget", some (widgetStore .create), ∅⟩ : ResolvedOperation) = operation :=
    Option.some.inj (Eq.trans (by rfl) creates.admitted.gives.catalogued)
  obtain rfl : widgetStore .create = spec :=
    Option.some.inj (Eq.trans (by rw [← stored]) creates.stored)
  obtain rfl : ⟨.request, "/id"⟩ = source := Option.some.inj creates.sourced
  obtain rfl : "a" = id := Option.some.inj (Eq.trans (by rfl) creates.identified)
  decide

/-- The call that creates a widget, answered with a message that has a name only. -/
def nameCall : UnaryCall stringMessages where
  method := ⟨"id", "name", false, false⟩
  request := ("id", "a")
  response := ("name",
    "mock-" ++ toString (deterministicHash 0 "/widgets.Widgets/Create" ^^^ 1#64).toNat)

/-- A widget without an identifier is filed, though the call fails. -/
theorem unreadable_widget_filed :
    (¬ ∀ (protobuf : Protobuf), JsonMapping protobuf → ∀ (sidecar : ValidatedSidecar)
        (maxSessions maxStoreEntries : Nat) (calls : List Call) (server : GrpcServer protobuf)
        (request : GrpcRequest) (call : UnaryCall protobuf), server.prepare request = .ok call →
      let runtime := stateAfter ScenarioRuntime.exec
        (ScenarioRuntime.new sidecar maxSessions maxStoreEntries) calls
      runtime.FilesReadable call (call.resolution request) (server.call (some runtime) request)) ∧
    let result := (widgetServer "name").call (some (ScenarioRuntime.new widgetSidecar 8 8))
      createWidget
    result.2 = .failed 13
        "failed to build stored response message: unrecognized field name 'id'" none ∧
      (result.1.bind fun after => after.view ("stock", "__default__")).map
          (fun inst => (inst.state, inst.store.read ⟨"widgets", "a"⟩)) =
        some (⟨"closed"⟩, some (.object
          [("id", .string "a"), ("name", .string nameCall.response.2)])) := by
  have failed : ((widgetServer "name").call (some (ScenarioRuntime.new widgetSidecar 8 8))
      createWidget).2 = .failed 13
        "failed to build stored response message: unrecognized field name 'id'" none := by decide
  refine ⟨?_, failed, by decide⟩
  intro readable
  have prepared : (widgetServer "name").prepare createWidget = .ok nameCall := by rfl
  have creates : (ScenarioRuntime.new widgetSidecar 8 8).Creates
      (nameCall.resolution createWidget) stock ⟨"createWidget", some (widgetStore .create), ∅⟩
      (Instance.new "stock" ⟨"open"⟩ [] 8) (widgetStore .create) ⟨.request, "/id"⟩ "a" := by
    constructor
    · exact ⟨⟨rfl, rfl, rfl, _, rfl⟩, by decide⟩
    · rfl
    · rfl
    · rfl
    · rfl
    · decide
    · rfl
  have promised := (readable stringMessages stringMapping widgetSidecar 8 8 [] (widgetServer "name")
    createWidget nameCall prepared).answered _ _ _ _ _ _ creates (by decide)
  have status := congrArg GrpcResponse.status failed
  exact absurd (status.symm.trans promised) (by decide)

end SpecMock.Runtime
