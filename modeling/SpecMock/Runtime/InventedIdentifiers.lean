import SpecMock.Runtime.Handler
import SpecMock.Runtime.Accepted

/-!
# Identifiers invented by the mock

A create may take its identifier from the mocked response.  The response of a
request is generated from a seed that only depends on the method and the path,
so a second request with the same directives invents the same identifier and is
refused.
-/

namespace SpecMock.Runtime

open SpecMock.Library SpecMock.Core ScenarioRuntime

/-- A create that takes its identifier from the response. -/
structure InventingCreate (server : HttpServer) (runtime : ScenarioRuntime) (path : String)
    extends CataloguedCreate server runtime path where
  inResponse : source.location = .response

namespace InventingCreate

variable {server : HttpServer} {runtime : ScenarioRuntime} {path : String}

/-- The identifier in the response that is generated for a request. -/
def invents (libraries : Libraries) (create : InventingCreate server runtime path)
    (request : HttpRequest) : Option String :=
  match server.mockFor libraries create.matched request with
  | .error _ => none
  | .ok mock => pointerValue (mock.body.getD .null) create.source.pointer

/-- The key a create addresses comes from the response alone. -/
theorem storeKeyOf_eq (create : InventingCreate server runtime path) (json : Option Value)
    (response : Value) :
    storeKeyOf create.spec create.matched.pathParams json response =
      (pointerValue response create.source.pointer).map fun id => ⟨create.ns, id⟩ := by
  simp [storeKeyOf, create.creating, resolveCreateKey, create.sourced, create.inResponse,
    CataloguedCreate.ns]

end InventingCreate

/-- A resource is stored under a key of a session. -/
def StoredIn (scenarios : Option ScenarioRuntime) (pair : String × String) (key : StoreKey) :
    Prop :=
  ∃ runtime inst, scenarios = some runtime ∧ runtime.view pair = some inst ∧
    (inst.store.read key).isSome = true

section Post

variable {libraries : Libraries} {server : HttpServer} {start runtime entered : ScenarioRuntime}
  {path : String} {pair : String × String} {entry : ScenarioEntry} {inst : Instance}
  {request : HttpRequest}

/-- What a post has filed, and the instance it leaves. -/
structure Files (libraries : Libraries) (create : InventingCreate server start path)
    (runtime : ScenarioRuntime) (pair : String × String) (machine : Scenario) (inst : Instance)
    (request : HttpRequest) (id : String) (after : ScenarioRuntime) (left : Instance) : Prop where
  invented : create.invents libraries request = some id
  unused : inst.store.read ⟨create.ns, id⟩ = none
  handled : ∃ response, fallbackHandler libraries server (some runtime) request =
    (some after, response) ∧ response.succeeded = true
  setup : runtime.SameSetup after
  live : after.view pair = some left
  moved : left.state = machine.stateAfter inst.state create.operation.name
  filed : ∃ value, left.store.entries = inst.store.entries.insert ⟨create.ns, id⟩ value
  counted : left.store.limit = inst.store.limit ∧ left.store.count = inst.store.count + 1

/-- A legal post with room in the store files a new identifier, or fails. -/
theorem post_cases (libraries : Libraries) (create : InventingCreate server start path)
    (same : start.SameSetup runtime) (posts : Asks start pair "POST" path request)
    (known : start.entryOf pair.1 = some entry)
    (given : runtime.instanceOf (ScenarioEntry.machine entry) pair.2 = (entered, .ok inst))
    (legal : (ScenarioEntry.machine entry).allows inst.state create.operation.name = true)
    (room : inst.store.count < inst.store.limit) :
    (∃ id after left, Files libraries create runtime pair (ScenarioEntry.machine entry) inst
      request id after left) ∨
    ((fallbackHandler libraries server (some runtime) request).2.succeeded = false ∧
      ∀ id, create.invents libraries request = some id →
        inst.store.read ⟨create.ns, id⟩ ≠ none) := by
  cases mocked : server.mockFor libraries create.matched request with
  | error error =>
      have routed : server.openapi.matchOperation request.method request.path =
          some create.matched := by
        rw [posts.method, posts.path]
        exact create.routed
      refine .inr ⟨by rw [fallbackHandler_of_error routed mocked]; rfl, fun id invented => ?_⟩
      simp [InventingCreate.invents, mocked] at invented
  | ok mock =>
      obtain ⟨after, result, handled, setup, live, applied⟩ := posts.handled same create.routed
        mocked known create.catalogued create.stored given legal
      have keyed := create.storeKeyOf_eq request.json (mock.body.getD .null)
      have invents : create.invents libraries request =
          pointerValue (mock.body.getD .null) create.source.pointer := by
        simp [InventingCreate.invents, mocked]
      rw [← invents] at keyed
      have answered := finalOutcome_succeeded mock (ScenarioEntry.machine entry) inst.state
        create.operation
      cases applied with
      | created _ addressed _ absent filed counted =>
          obtain ⟨id, invented, rfl⟩ := Option.map_eq_some_iff.mp (keyed.symm.trans addressed)
          exact .inl ⟨id, after, _, invented, absent, ⟨_, handled, answered _⟩, setup, live, rfl,
            ⟨_, filed⟩, counted⟩
      | full _ _ full => exact absurd room (Nat.not_lt.mpr full)
      | taken _ addressed present =>
          refine .inr ⟨by rw [handled]; exact answered (.failed _), fun id invented => ?_⟩
          rw [invented] at keyed
          cases keyed.symm.trans addressed
          exact Option.isSome_iff_ne_none.mp present
      | unaddressed _ missing =>
          refine .inr ⟨by rw [handled]; exact answered (.failed _), fun id invented => ?_⟩
          rw [invented] at keyed
          cases keyed.symm.trans missing
      | listed action | found action | updated action | deleted action =>
          cases action.symm.trans create.creating
      | absent keyed =>
          rcases keyed with action | action | action <;> cases action.symm.trans create.creating

/-- A stored resource is still there after a post. -/
theorem Files.retains {create : InventingCreate server start path} {id : String}
    {machine : Scenario} {after : ScenarioRuntime} {left : Instance}
    (files : Files libraries create runtime pair machine inst request id after left)
    {key : StoreKey} (stored : (inst.store.read key).isSome = true) :
    (left.store.read key).isSome = true := by
  obtain ⟨value, entries⟩ := files.filed
  rw [Store.read, entries, FiniteMap.lookup_insert_eq]
  split
  · rfl
  · exact stored

theorem Files.stores {create : InventingCreate server start path} {id : String}
    {machine : Scenario} {after : ScenarioRuntime} {left : Instance}
    (files : Files libraries create runtime pair machine inst request id after left) :
    (left.store.read ⟨create.ns, id⟩).isSome = true := by
  obtain ⟨value, entries⟩ := files.filed
  rw [Store.read, entries, FiniteMap.lookup_insert_eq, if_pos rfl]
  rfl

/-- Another identifier is unused after a post exactly when it was before. -/
theorem Files.unused_iff {create : InventingCreate server start path} {id other : String}
    {machine : Scenario} {after : ScenarioRuntime} {left : Instance}
    (files : Files libraries create runtime pair machine inst request id after left) :
    left.store.read ⟨create.ns, other⟩ = none ↔
      other ≠ id ∧ inst.store.read ⟨create.ns, other⟩ = none := by
  obtain ⟨value, entries⟩ := files.filed
  rw [Store.read, entries, FiniteMap.lookup_insert_eq]
  by_cases same : other = id
  · simp [same]
  · simp [same, Store.read]

end Post

section Runs

variable {libraries : Libraries} {server : HttpServer} {start : ScenarioRuntime}
  {path : String} {pair : String × String} {entry : ScenarioEntry}

/-- The requests invent identifiers that are new to the store and all different. -/
structure InventsNew (libraries : Libraries) (create : InventingCreate server start path)
    (store : Store) (requests : List HttpRequest) (ids : List String) : Prop where
  invented : requests.map (create.invents libraries) = ids.map some
  distinct : ids.Nodup
  unused : ∀ id ∈ ids, store.read ⟨create.ns, id⟩ = none

/-- After a post that files, the others invent new identifiers that differ from its own. -/
theorem Files.inventsNew_iff {create : InventingCreate server start path}
    {runtime after : ScenarioRuntime} {machine : Scenario} {inst left : Instance}
    {request : HttpRequest} {id : String}
    (files : Files libraries create runtime pair machine inst request id after left)
    {rest : List HttpRequest} {ids : List String} :
    InventsNew libraries create inst.store (request :: rest) ids ↔
      ∃ others, ids = id :: others ∧ InventsNew libraries create left.store rest others := by
  constructor
  · rintro ⟨invented, distinct, unused⟩
    cases ids with
    | nil => cases invented
    | cons first others =>
        simp only [List.map_cons, List.cons.injEq, files.invented, Option.some.injEq] at invented
        obtain ⟨rfl, invented⟩ := invented
        obtain ⟨fresh, distinct⟩ := List.nodup_cons.mp distinct
        obtain ⟨_, unused⟩ := List.forall_mem_cons.mp unused
        refine ⟨others, rfl, invented, distinct, fun other member => ?_⟩
        refine files.unused_iff.mpr ⟨?_, unused other member⟩
        rintro rfl
        exact fresh member
  · rintro ⟨others, rfl, news⟩
    refine ⟨?_, ?_, ?_⟩
    · simp [files.invented, news.invented]
    · refine List.nodup_cons.mpr ⟨fun member => ?_, news.distinct⟩
      exact (files.unused_iff.mp (news.unused id member)).1 rfl
    · refine List.forall_mem_cons.mpr ⟨files.unused, fun other member => ?_⟩
      exact (files.unused_iff.mp (news.unused other member)).2

/-- Every request succeeds, and the resources are filed under different identifiers. -/
structure AllFiled (libraries : Libraries) (server : HttpServer) (ns : String)
    (pair : String × String) (runtime : ScenarioRuntime) (store : Store)
    (requests : List HttpRequest) : Prop where
  succeeded : ∀ response ∈ answers (fallbackHandler libraries server) (some runtime) requests,
    response.succeeded = true
  filed : ∃ ids : List String, ids.length = requests.length ∧ ids.Nodup ∧
    ∀ id ∈ ids, store.read ⟨ns, id⟩ = none ∧
      StoredIn (stateAfter (fallbackHandler libraries server) (some runtime) requests) pair ⟨ns, id⟩

/--
A run of posts of a self-looping create either files a new identifier with
every post, or one of the posts fails because its identifier is not new.
-/
theorem posts_cases (libraries : Libraries) (create : InventingCreate server start path)
    (known : start.entryOf pair.1 = some entry) {requests : List HttpRequest}
    (posts : ∀ request ∈ requests, Asks start pair "POST" path request)
    {runtime entered : ScenarioRuntime} {inst : Instance} (same : start.SameSetup runtime)
    (given : runtime.instanceOf (ScenarioEntry.machine entry) pair.2 = (entered, .ok inst))
    (legal : (ScenarioEntry.machine entry).allows inst.state create.operation.name = true)
    (loops : (ScenarioEntry.machine entry).stateAfter inst.state create.operation.name =
      inst.state)
    (room : inst.store.count + requests.length ≤ inst.store.limit) :
    (∃ ids, InventsNew libraries create inst.store requests ids ∧
      (∀ response ∈ answers (fallbackHandler libraries server) (some runtime) requests,
        response.succeeded = true) ∧
      (∀ id ∈ ids, StoredIn (stateAfter (fallbackHandler libraries server) (some runtime) requests)
        pair ⟨create.ns, id⟩) ∧
      ∀ key, StoredIn (some runtime) pair key →
        StoredIn (stateAfter (fallbackHandler libraries server) (some runtime) requests) pair key) ∨
    ((∃ response ∈ answers (fallbackHandler libraries server) (some runtime) requests,
        response.succeeded = false) ∧
      ∀ ids, ¬ InventsNew libraries create inst.store requests ids) := by
  induction requests generalizing runtime entered inst with
  | nil =>
      refine .inl ⟨[], ⟨rfl, List.nodup_nil, by simp⟩, ?_, by simp, fun _ stored => stored⟩
      intro response member
      cases member
  | cons request rest ih =>
      obtain ⟨first, others⟩ := List.forall_mem_cons.mp posts
      simp only [List.length_cons] at room
      rcases post_cases libraries create same first known given legal (by omega) with
        ⟨id, after, left, files⟩ | ⟨failed, used⟩
      · obtain ⟨response, handled, succeeded⟩ := files.handled
        have setup := same.trans files.setup
        have givenAfter := given_of_view (setup.entryOf_eq pair.1 ▸ known) files.live
        have stays : left.state = inst.state := files.moved.trans loops
        have onward := ih others setup givenAfter (stays ▸ legal) (by rw [stays, loops])
          (by rw [files.counted.1, files.counted.2]; omega)
        rw [answers_cons, stateAfter_cons, handled]
        rcases onward with ⟨ids, news, succeed, stored, kept⟩ | ⟨⟨bad, member, failed⟩, stale⟩
        · have storedHere : StoredIn (some after) pair ⟨create.ns, id⟩ :=
            ⟨after, left, rfl, files.live, files.stores⟩
          refine .inl ⟨id :: ids, files.inventsNew_iff.mpr ⟨ids, rfl, news⟩, ?_, ?_, ?_⟩
          · exact List.forall_mem_cons.mpr ⟨succeeded, succeed⟩
          · exact List.forall_mem_cons.mpr ⟨kept _ storedHere, stored⟩
          · rintro key ⟨_, live, ⟨⟩, held, present⟩
            have is : live = inst := by
              have again := given_of_view (same.entryOf_eq pair.1 ▸ known) held
              cases again.symm.trans given
              rfl
            subst is
            exact kept key ⟨after, left, rfl, files.live, files.retains present⟩
        · refine .inr ⟨⟨bad, List.mem_cons_of_mem _ member, failed⟩, fun ids news => ?_⟩
          obtain ⟨others, rfl, later⟩ := files.inventsNew_iff.mp news
          exact stale others later
      · refine .inr ⟨⟨_, List.mem_cons_self, failed⟩, fun ids news => ?_⟩
        cases ids with
        | nil => cases news.invented
        | cons id ids =>
            have invented := (List.cons.inj news.invented).1
            exact used id invented (news.unused id List.mem_cons_self)

/-- Requests with the same directives invent the same identifier. -/
theorem invents_congr (libraries : Libraries) (create : InventingCreate server start path)
    {request other : HttpRequest} (posts : Asks start pair "POST" path request)
    (also : Asks start pair "POST" path other)
    (alike : request.prefer = other.prefer) :
    create.invents libraries request = create.invents libraries other := by
  unfold InventingCreate.invents HttpServer.mockFor
  rw [posts.method, also.method, posts.path, also.path, alike]

/--
A run of posts of a self-looping create succeeds, and files as many resources
under different identifiers, exactly when the identifiers invented for the
requests are new and all different.  For requests with the same directives that
is never the case from the second one on.
-/
theorem invented_identifiers_filed_iff (libraries : Libraries)
    (create : InventingCreate server start path) (known : start.entryOf pair.1 = some entry)
    {requests : List HttpRequest}
    (posts : ∀ request ∈ requests, Asks start pair "POST" path request)
    {entered : ScenarioRuntime} {inst : Instance}
    (given : start.instanceOf (ScenarioEntry.machine entry) pair.2 = (entered, .ok inst))
    (legal : (ScenarioEntry.machine entry).allows inst.state create.operation.name = true)
    (loops : (ScenarioEntry.machine entry).stateAfter inst.state create.operation.name =
      inst.state)
    (room : inst.store.count + requests.length ≤ inst.store.limit) :
    (AllFiled libraries server create.ns pair start inst.store requests ↔
      ∃ ids, InventsNew libraries create inst.store requests ids) ∧
    ((∀ request ∈ requests, ∀ other ∈ requests, request.prefer = other.prefer) →
      (AllFiled libraries server create.ns pair start inst.store requests ↔
        requests = [] ∨ ∃ request id, requests = [request] ∧
          create.invents libraries request = some id ∧
          inst.store.read ⟨create.ns, id⟩ = none)) := by
  have exact : AllFiled libraries server create.ns pair start inst.store requests ↔
      ∃ ids, InventsNew libraries create inst.store requests ids := by
    rcases posts_cases libraries create known posts (SameSetup.refl start) given legal loops
        room with
      ⟨ids, news, succeed, stored, _⟩ | ⟨⟨response, member, failed⟩, stale⟩
    · have length : ids.length = requests.length := by
        simpa using (congrArg List.length news.invented).symm
      exact iff_of_true ⟨succeed, ids, length, news.distinct, fun id member =>
        ⟨news.unused id member, stored id member⟩⟩ ⟨ids, news⟩
    · refine iff_of_false (fun filed => ?_) fun ⟨ids, news⟩ => stale ids news
      rw [filed.succeeded response member] at failed
      cases failed
  refine ⟨exact, fun alike => exact.trans ⟨?_, ?_⟩⟩
  · rintro ⟨ids, invented, distinct, unused⟩
    match requests, ids with
    | [], _ => exact .inl rfl
    | [request], ids =>
        obtain ⟨id, rfl, same⟩ := List.map_eq_singleton_iff.mp invented.symm
        exact .inr ⟨request, id, rfl, same.symm, unused id List.mem_cons_self⟩
    | first :: second :: rest, ids =>
        have one := invents_congr libraries create
          (posts first (by simp)) (posts second (by simp)) (alike first (by simp) second (by simp))
        match ids with
        | [] | [_] => simp at invented
        | id :: other :: ids =>
            simp only [List.map_cons, List.cons.injEq] at invented
            have same : id = other :=
              Option.some.inj (invented.1.symm.trans (one.trans invented.2.1))
            simp [same] at distinct
  · rintro (rfl | ⟨request, id, rfl, invented, unused⟩)
    · exact ⟨[], rfl, List.nodup_nil, by simp⟩
    · exact ⟨[id], by simp [invented], by simp, by simpa using unused⟩

end Runs

/-- The catalogue entry of the sample: the identifier is the email of the response. -/
def addSubscriberStore : StoreSpec := ⟨"/subscribers", .create, none, some ⟨.response, "/email"⟩⟩

/-- Subscribers are added any number of times. -/
def subscriberSidecar : ValidatedSidecar where
  sidecar :=
    { version := 1
      operations := OrderedMap.collect
        [("addSubscriber", ⟨⟨"POST", "/subscribers"⟩, some addSubscriberStore, ∅⟩)]
      scenarios :=
        [{ name := "newsletter"
           initialState := "open"
           seed := []
           states := OrderedMap.collect
            [("open", OrderedMap.collect [("addSubscriber", ⟨none, ∅⟩)])] }] }
  supported := rfl
  valid := by decide

/-- A subscriber has an email address, which may be any. -/
def subscriberSchema : Value :=
  .object
    [("properties", .object
      [("email", .object [("format", .string "email"), ("type", .string "string")])]),
      ("required", .array [.string "email"]), ("type", .string "object")]

def addSubscriber : OperationSpec where
  method := "POST"
  pathTemplate := "/subscribers"
  responses := [⟨"201", [⟨"application/json", some subscriberSchema, none, ∅⟩], ∅⟩]

def subscriberServer : HttpServer := ⟨42#64, .of [addSubscriber]⟩

def subscriberScenarios : ScenarioRuntime := ScenarioRuntime.new subscriberSidecar 8 8

def addSubscriberRequest : HttpRequest := ⟨"POST", "/subscribers", .none, none⟩

/--
The create is legal with a self-loop and the store has room for both requests,
but the second one is given the address of the first and refused.
-/
theorem second_subscriber_refused :
    let machine := ScenarioEntry.machine ⟨"newsletter", "open", [],
      OrderedMap.collect [("open", OrderedMap.collect [("addSubscriber", ⟨none, ∅⟩)])]⟩
    let store := Store.new 8
    let requests := [addSubscriberRequest, addSubscriberRequest]
    subscriberScenarios.machine "newsletter" = some machine ∧
      machine.allows ⟨"open"⟩ "addSubscriber" = true ∧
      machine.stateAfter ⟨"open"⟩ "addSubscriber" = ⟨"open"⟩ ∧
      store.count + requests.length ≤ store.limit ∧
      (answers (fallbackHandler sampleLibraries subscriberServer) (some subscriberScenarios)
        requests)[1]? = some (.refused (.resourceExists "/subscribers/mock@example.com")) ∧
      ¬ AllFiled sampleLibraries subscriberServer "/subscribers" ("newsletter", defaultSession)
        subscriberScenarios store requests := by
  intro machine store requests
  have refused : (answers (fallbackHandler sampleLibraries subscriberServer)
      (some subscriberScenarios) requests)[1]? =
        some (.refused (.resourceExists "/subscribers/mock@example.com")) := by
    decide
  refine ⟨rfl, by decide, by decide, by decide, refused, fun filed => ?_⟩
  have failed := filed.succeeded _ (List.mem_of_getElem? refused)
  cases failed

/-- The create of the sample. -/
def subscriberCreate : InventingCreate subscriberServer subscriberScenarios "/subscribers" where
  matched := ⟨addSubscriber, ∅⟩
  routed := rfl
  operation := ⟨"addSubscriber", some addSubscriberStore, ∅⟩
  catalogued := rfl
  spec := addSubscriberStore
  stored := rfl
  creating := rfl
  source := ⟨.response, "/email"⟩
  sourced := rfl
  inResponse := rfl

theorem invented_identifiers_filed_iff_subscriber :
    AllFiled sampleLibraries subscriberServer "/subscribers" ("newsletter", defaultSession)
      subscriberScenarios (Store.new 8) [addSubscriberRequest] := by
  have posts : ∀ request ∈ [addSubscriberRequest], Asks subscriberScenarios
      ("newsletter", defaultSession) "POST" "/subscribers" request := by
    intro request member
    rw [List.mem_singleton] at member
    subst member
    exact ⟨rfl, rfl, ⟨rfl, rfl⟩, rfl⟩
  have fresh := invented_identifiers_filed_iff sampleLibraries subscriberCreate rfl posts rfl
    (by decide) (by decide) (by decide)
  exact fresh.1.mpr ⟨["mock@example.com"], by decide, by decide, by decide⟩

end SpecMock.Runtime
