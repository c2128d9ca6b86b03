import SpecMock.Runtime.RequestBodies

/-!
# What an update stores

An update puts the body of its request in the place of the resource it finds.
A body that is not read as JSON is absent, and an absent body is stored as
null.  So a request without a readable body leaves the store as it is exactly
when it finds no resource, or null.
-/

namespace SpecMock.Runtime

open SpecMock.Library SpecMock.Core

/-- An update replaces the resource it addresses, if there is one, and no other. -/
theorem read_applyStore_of_update {spec : StoreSpec} (updating : spec.action = .update)
    (store : Store) (params : PathParams) (request : Option Value) (response : Value)
    (createValue : CreateValue) (key : StoreKey) :
    (applyStore store spec params request response createValue).1.read key =
      if storeKeyOf spec params request response = some key ∧ (store.read key).isSome = true then
        some (request.getD .null)
      else store.read key := by
  have applied := applyStore_applies store spec params request response createValue
  generalize applyStore store spec params request response createValue = result at applied ⊢
  cases applied with
  | listed action | created action | full action | taken action | found action | deleted action =>
      cases updating.symm.trans action
  | unaddressed keyed missing => simp [missing]
  | @absent other keyed addressed absent =>
      rw [if_neg]
      rintro ⟨same, present⟩
      obtain rfl : other = key := Option.some.inj (addressed.symm.trans same)
      rw [absent] at present
      cases present
  | @updated other action addressed present =>
      rw [addressed, Store.read, FiniteMap.lookup_insert_eq]
      by_cases same : key = other
      · subst same
        simp [present]
      · have apart : ¬ (some other = some key ∧ (store.read key).isSome = true) :=
          fun both => same (Option.some.inj both.1).symm
        rw [if_neg same, if_neg apart]
        rfl

namespace ScenarioRuntime

variable {runtime : ScenarioRuntime} {request : Request}

/-- What a request finds under a key of a session, in its instance or in a fresh one. -/
def storedFor (runtime : ScenarioRuntime) (pair : String × String) (key : StoreKey) :
    Option Value :=
  match runtime.view pair with
  | some inst => inst.store.read key
  | none => (runtime.entryOf pair.1).bind fun entry =>
      (runtime.freshInstance entry).store.read key

/-- A session that was not touched has the same resources. -/
theorem storedFor_congr {after : ScenarioRuntime} (same : runtime.SameSetup after)
    {pair : String × String} (untouched : after.view pair = runtime.view pair) (key : StoreKey) :
    after.storedFor pair key = runtime.storedFor pair key := by
  have fresh : after.freshInstance = runtime.freshInstance := by
    rw [same]
    rfl
  unfold storedFor
  rw [untouched, same.entryOf_eq, fresh]

/-- A request finds what its instance holds. -/
theorem storedFor_of_gives {entry : ScenarioEntry} {operation : ResolvedOperation}
    {inst : Instance} (gives : runtime.Gives request entry operation inst) (key : StoreKey) :
    runtime.storedFor (runtime.pairOf request) key = inst.store.read key := by
  have held := gives.held
  have known : runtime.entryOf (runtime.pairOf request).1 = some entry := gives.known
  unfold storedFor
  cases live : runtime.view (runtime.pairOf request) with
  | some other =>
      rw [live, Option.getD_some] at held
      rw [held]
  | none =>
      rw [live, Option.getD_none] at held
      rw [known, Option.bind_some, held]

/-- A legal request to a live or fresh instance addresses a resource of it. -/
inductive FindsResource (runtime : ScenarioRuntime) (request : Request) (spec : StoreSpec)
    (key : StoreKey) (value : Value) : Prop where
  | intro {entry : ScenarioEntry} {operation : ResolvedOperation} {inst : Instance}
      (gives : runtime.Gives request entry operation inst)
      (stored : operation.store = some spec)
      (legal : (ScenarioEntry.machine entry).allows inst.state operation.name = true)
      (addressed : storeKeyOf spec request.params request.request request.response = some key)
      (held : inst.store.read key = some value)

theorem FindsResource.storedFor_eq {spec : StoreSpec} {key : StoreKey} {value : Value}
    (finds : runtime.FindsResource request spec key value) :
    runtime.storedFor (runtime.pairOf request) key = some value := by
  obtain ⟨gives, _, _, _, held⟩ := finds
  rw [storedFor_of_gives gives, held]

/-- What a validated request for a stored operation does to the store of its instance. -/
theorem store_attendInstance (machine : Scenario) {operation : ResolvedOperation}
    {spec : StoreSpec} (stored : operation.store = some spec) (validated : request.validated = true)
    (session : String) (inst : Instance) :
    (attendInstance machine operation request session inst).1.store =
      if machine.allows inst.state operation.name = true then
        (applyStore inst.store spec request.params request.request request.response
          request.createValue).1
      else inst.store := by
  unfold attendInstance
  cases machine.allows inst.state operation.name with
  | false => rfl
  | true =>
      simp only [validated, Bool.true_eq_false, if_false, if_true]
      rw [serve_instance]
      simp only [storeOutcome, stored]

/-- A request leaves what is stored for other sessions as it is. -/
theorem storedFor_elsewhere {pair : String × String} (elsewhere : pair ≠ runtime.pairOf request)
    (key : StoreKey) :
    (runtime.resolveWith request).1.storedFor pair key = runtime.storedFor pair key := by
  refine storedFor_congr (runtime.resolveWith_sameSetup request) ?_ key
  rcases runtime.resolveWith_cases request with ⟨_, resolved⟩ | ⟨_, sessions, resolved, updated⟩
  · rw [resolved]
  · rw [resolved]
    exact (congrFun updated pair).trans (Function.update_of_ne elsewhere _ _)

section Given

variable {entry : ScenarioEntry} {operation : ResolvedOperation} {inst : Instance}
  {spec : StoreSpec}

/-- A request that is given an instance finds what that instance holds, if it is legal there. -/
theorem findsResource_iff (gives : runtime.Gives request entry operation inst)
    (stored : operation.store = some spec) {key : StoreKey} :
    (∃ value, runtime.FindsResource request spec key value) ↔
      (ScenarioEntry.machine entry).allows inst.state operation.name = true ∧
        storeKeyOf spec request.params request.request request.response = some key ∧
        (inst.store.read key).isSome = true := by
  constructor
  · rintro ⟨value, other, _, legal, addressed, held⟩
    obtain ⟨rfl, rfl, rfl⟩ := gives.unique other
    exact ⟨legal, addressed, by rw [held]; rfl⟩
  · rintro ⟨legal, addressed, present⟩
    obtain ⟨value, held⟩ := Option.isSome_iff_exists.mp present
    exact ⟨value, gives, stored, legal, addressed, held⟩

/-- What is stored for the session once its instance has attended to an update. -/
theorem storedFor_given (gives : runtime.Gives request entry operation inst)
    (stored : operation.store = some spec) (updating : spec.action = .update)
    (validated : request.validated = true) (key : StoreKey) :
    (runtime.resolveWith request).1.storedFor (runtime.pairOf request) key =
      if (ScenarioEntry.machine entry).allows inst.state operation.name = true ∧
          storeKeyOf spec request.params request.request request.response = some key ∧
          (inst.store.read key).isSome = true then
        some (request.request.getD .null)
      else runtime.storedFor (runtime.pairOf request) key := by
  obtain ⟨_, live⟩ := gives.resolved
  have after : (runtime.resolveWith request).1.storedFor (runtime.pairOf request) key =
      (attendInstance (ScenarioEntry.machine entry) operation request
        (request.session.getD defaultSession) inst).1.store.read key := by
    unfold storedFor
    rw [live]
  rw [after, store_attendInstance _ stored validated, storedFor_of_gives gives, ite_and]
  split
  next legal => exact read_applyStore_of_update updating _ _ _ _ _ _
  next => rfl

end Given

/-- A validated update replaces the resource it finds by its body, and changes nothing else. -/
theorem storedFor_resolveWith {spec : StoreSpec} (updating : spec.action = .update)
    (declared : ∀ operation, runtime.operationOf request = some operation →
      operation.store = some spec)
    (validated : request.validated = true) (pair : String × String) (key : StoreKey) :
    (∃ value, pair = runtime.pairOf request ∧ runtime.FindsResource request spec key value ∧
      (runtime.resolveWith request).1.storedFor pair key = some (request.request.getD .null)) ∨
    ((∀ value, pair = runtime.pairOf request → ¬ runtime.FindsResource request spec key value) ∧
      (runtime.resolveWith request).1.storedFor pair key = runtime.storedFor pair key) := by
  by_cases elsewhere : pair ≠ runtime.pairOf request
  · exact .inr ⟨fun _ same => absurd same elsewhere, storedFor_elsewhere elsewhere key⟩
  obtain rfl : pair = runtime.pairOf request := not_not.mp elsewhere
  by_cases given : ∃ entry operation inst, runtime.Gives request entry operation inst
  · obtain ⟨entry, operation, inst, gives⟩ := given
    have stored := declared operation gives.catalogued
    rw [storedFor_given gives stored updating validated]
    split
    next reached =>
      obtain ⟨value, finds⟩ := (findsResource_iff gives stored).mpr reached
      exact .inl ⟨value, rfl, finds, rfl⟩
    next missed =>
      refine .inr ⟨fun value _ finds => ?_, rfl⟩
      exact missed ((findsResource_iff gives stored).mp ⟨value, finds⟩)
  · -- Without an instance the request passes by or is refused for the cap.
    refine .inr ⟨fun _ _ finds => ?_, ?_⟩
    · obtain ⟨gives, _⟩ := finds
      exact given ⟨_, _, _, gives⟩
    · rcases runtime.gives_cases request with ⟨_, resolved⟩ | resolved | gives
      · rw [resolved]
      · rw [resolved]
      · exact absurd gives given

end ScenarioRuntime

/-- A catalogued update that requests of a method to a path are routed to. -/
structure CataloguedUpdate (server : HttpServer) (runtime : ScenarioRuntime)
    (method path : String) where
  matched : MatchedOperation
  routed : server.openapi.matchOperation method path = some matched
  operation : ResolvedOperation
  catalogued : runtime.catalogued method matched = some operation
  spec : StoreSpec
  stored : operation.store = some spec
  updating : spec.action = .update

/-- What is stored for a session, once the handler is done. -/
def storedAfter (scenarios : Option ScenarioRuntime) (pair : String × String) (key : StoreKey) :
    Option Value :=
  scenarios.bind fun runtime => runtime.storedFor pair key

section Handler

variable {libraries : Libraries} {reading : RequestLibraries} {fallback : HttpFallback}
  {scenarios : ScenarioRuntime} {method path : String} {request : RawRequest}
  {operation : DeclaredOperation} {accepted : HttpRequest}

/-- The mock answers a request for an update, which finds a resource in its session. -/
inductive UpdateFinds (libraries : Libraries) (fallback : HttpFallback)
    (scenarios : ScenarioRuntime)
    (update : CataloguedUpdate fallback.server scenarios method path) (accepted : HttpRequest) :
    String × String → StoreKey → Value → Prop where
  | intro {mock : MockHttpResponse} {key : StoreKey} {value : Value}
      (unproxied : fallback.proxied = false)
      (mocked : fallback.server.mockFor libraries update.matched accepted = .ok mock)
      (finds : scenarios.FindsResource (accepted.resolution update.matched mock) update.spec key
        value) :
      UpdateFinds libraries fallback scenarios update accepted
        (scenarios.sessionOf accepted.prefer) key value

/-- The resource that an update finds was stored before. -/
theorem UpdateFinds.storedFor_eq
    {update : CataloguedUpdate fallback.server scenarios method path} {pair : String × String}
    {key : StoreKey} {value : Value}
    (finds : UpdateFinds libraries fallback scenarios update accepted pair key value) :
    scenarios.storedFor pair key = some value := by
  cases finds with
  | intro _ _ finds => exact finds.storedFor_eq

/-- A request for an update replaces the resource it finds by its body, or by null without one. -/
theorem storedAfter_handle
    (passed : fallback.accept libraries reading request = .ok (operation, accepted))
    (update : CataloguedUpdate fallback.server scenarios request.method request.path)
    (pair : String × String) (key : StoreKey) :
    let after := (fallback.handle libraries reading (some scenarios) request).1
    (∃ value, UpdateFinds libraries fallback scenarios update accepted pair key value ∧
      storedAfter after pair key = some (accepted.json.getD .null)) ∨
    ((∀ value, ¬ UpdateFinds libraries fallback scenarios update accepted pair key value) ∧
      storedAfter after pair key = scenarios.storedFor pair key) := by
  have taken := HttpFallback.accepted_of_accept passed
  have routed : fallback.server.openapi.matchOperation accepted.method accepted.path =
      some update.matched := by
    rw [taken.method, taken.path]
    exact update.routed
  simp only [HttpFallback.handle, passed]
  by_cases proxied : fallback.proxied = true
  · rw [if_pos proxied]
    refine .inr ⟨?_, rfl⟩
    rintro value ⟨unproxied, _, _⟩
    cases unproxied.symm.trans proxied
  rw [if_neg proxied]
  cases mocked : fallback.server.mockFor libraries update.matched accepted with
  | error error =>
      rw [fallbackHandler_of_error routed mocked]
      refine .inr ⟨?_, rfl⟩
      rintro value ⟨_, other, _⟩
      cases other.symm.trans mocked
  | ok mock =>
      let asked := accepted.resolution update.matched mock
      have handled : (fallbackHandler libraries fallback.server (some scenarios) accepted).1 =
          some (scenarios.resolveWith asked).1 := by
        simp only [fallbackHandler, routed, mocked]
        rfl
      have declared : ∀ resolved, scenarios.operationOf asked = some resolved →
          resolved.store = some update.spec := by
        intro resolved found
        have catalogued : scenarios.catalogued accepted.method update.matched =
            some update.operation :=
          (congrArg (scenarios.catalogued · update.matched) taken.method).trans update.catalogued
        cases catalogued.symm.trans found
        exact update.stored
      rw [handled]
      rcases ScenarioRuntime.storedFor_resolveWith update.updating declared rfl pair key with
        ⟨value, rfl, finds, replaced⟩ | ⟨nothing, kept⟩
      · exact .inl ⟨value, .intro (Bool.eq_false_of_not_eq_true proxied) mocked finds, replaced⟩
      · refine .inr ⟨?_, kept⟩
        rintro value ⟨_, other, finds⟩
        cases other.symm.trans mocked
        exact nothing value rfl finds

/--
An update whose body is read replaces the resource it finds by exactly that
body, and changes no other; one whose body is not read changes nothing.
-/
structure ReplacesByBody (libraries : Libraries) (reading : RequestLibraries)
    (fallback : HttpFallback) (scenarios : ScenarioRuntime) (request : RawRequest)
    (update : CataloguedUpdate fallback.server scenarios request.method request.path)
    (operation : DeclaredOperation) (accepted : HttpRequest) : Prop where
  replaced : ReadsBody operation request → ∃ body, reading.fromSlice request.body = .ok body ∧
    ∀ pair key value, UpdateFinds libraries fallback scenarios update accepted pair key value →
      storedAfter (fallback.handle libraries reading (some scenarios) request).1 pair key =
        some body
  others : ∀ pair key,
    (∀ value, ¬ UpdateFinds libraries fallback scenarios update accepted pair key value) →
      storedAfter (fallback.handle libraries reading (some scenarios) request).1 pair key =
        scenarios.storedFor pair key
  kept : ¬ ReadsBody operation request → ∀ pair key,
    storedAfter (fallback.handle libraries reading (some scenarios) request).1 pair key =
      scenarios.storedFor pair key

/--
A request for an update that passes validation keeps to its body if and only if
the body is read as JSON, or the update finds no stored resource but null.
-/
theorem update_bodies_iff
    (passed : fallback.accept libraries reading request = .ok (operation, accepted))
    (update : CataloguedUpdate fallback.server scenarios request.method request.path) :
    ReplacesByBody libraries reading fallback scenarios request update operation accepted ↔
      ReadsBody operation request ∨
        ∀ pair key value,
          UpdateFinds libraries fallback scenarios update accepted pair key value →
            value = .null := by
  have handled := storedAfter_handle passed update
  have found : ∀ pair key value,
      UpdateFinds libraries fallback scenarios update accepted pair key value →
        storedAfter (fallback.handle libraries reading (some scenarios) request).1 pair key =
          some (accepted.json.getD .null) := by
    intro pair key value finds
    rcases handled pair key with ⟨_, _, replaced⟩ | ⟨nothing, _⟩
    · exact replaced
    · exact absurd finds (nothing value)
  have others : ∀ pair key,
      (∀ value, ¬ UpdateFinds libraries fallback scenarios update accepted pair key value) →
        storedAfter (fallback.handle libraries reading (some scenarios) request).1 pair key =
          scenarios.storedFor pair key := by
    intro pair key nothing
    rcases handled pair key with ⟨value, finds, _⟩ | ⟨_, kept⟩
    · exact absurd finds (nothing value)
    · exact kept
  rcases (HttpFallback.accepted_of_accept passed).body with
    ⟨reads, body, json, parsed⟩ | ⟨unread, json⟩
  · refine iff_of_true ⟨fun _ => ⟨body, parsed, ?_⟩, others, fun unread => absurd reads unread⟩
      (.inl reads)
    intro pair key value finds
    rw [found pair key value finds, json]
    rfl
  · constructor
    · intro replaces
      refine .inr fun pair key value finds => ?_
      have kept := replaces.kept unread pair key
      rw [found pair key value finds, finds.storedFor_eq, json] at kept
      exact (Option.some.inj kept).symm
    · rintro (reads | harmless)
      · exact absurd reads unread
      refine ⟨fun reads => absurd reads unread, others, fun _ pair key => ?_⟩
      rcases handled pair key with ⟨value, finds, replaced⟩ | ⟨_, kept⟩
      · rw [replaced, finds.storedFor_eq, harmless pair key value finds, json]
        rfl
      · exact kept

end Handler

/-- A user who is there from the start, and may be replaced. -/
def profileSidecar : ValidatedSidecar where
  sidecar :=
    { version := 1
      operations := OrderedMap.collect
        [("putUser", ⟨⟨"PUT", "/users/{id}"⟩, some ⟨"/users", .update, some "id", none⟩, ∅⟩)]
      scenarios := [⟨"profiles", "open", [⟨"/users", [.object [("id", .string "ada")]]⟩],
        OrderedMap.collect [("open", OrderedMap.collect [("putUser", ⟨none, ∅⟩)])]⟩] }
  supported := rfl
  valid := by decide

def profileScenarios : ScenarioRuntime := ScenarioRuntime.new profileSidecar 8 8

/-- The update of a user, whose body may be left out. -/
def replaceUser : DeclaredOperation where
  method := "PUT"
  pathTemplate := "/users/{id}"
  responses := [⟨"200", [], ∅⟩]
  parameters := []
  requestBodySchema := some (.object [])
  requestBodyRequired := false
  requestBodyMediaTypes := ["application/json"]

def profileFallback : HttpFallback := ⟨42#64, some [replaceUser], 1024, false⟩

/-- Libraries that read an empty object and take every instance for valid. -/
def objectReading : RequestLibraries where
  fromSlice bytes := if bytes = [0x7b, 0x7d] then .ok (.object []) else .error "expected value"
  formPairs _ := []
  parseFloat _ := none
  validateInstance _ _ := .ok []

def replaceAda (headers : Headers) (body : List UInt8) : RawRequest :=
  ⟨"PUT", "/users/ada", none, headers, body⟩

def profileUpdate :
    CataloguedUpdate profileFallback.server profileScenarios "PUT" "/users/ada" where
  matched := ⟨replaceUser.toOperationSpec, (∅ : PathParams).insert "id" "ada"⟩
  routed := by rfl
  operation := ⟨"putUser", some ⟨"/users", .update, some "id", none⟩, ∅⟩
  catalogued := by rfl
  spec := ⟨"/users", .update, some "id", none⟩
  stored := rfl
  updating := rfl

/-- A body that is read takes the place of the user. -/
theorem read_body_replaces :
    ReplacesByBody sampleLibraries objectReading profileFallback profileScenarios
      (replaceAda [("content-type", some "application/json")] [0x7b, 0x7d]) profileUpdate
      replaceUser ⟨"PUT", "/users/ada", .none, some (.object [])⟩ := by
  have passed : profileFallback.accept sampleLibraries objectReading
      (replaceAda [("content-type", some "application/json")] [0x7b, 0x7d]) =
        .ok (replaceUser, ⟨"PUT", "/users/ada", .none, some (.object [])⟩) := rfl
  exact (update_bodies_iff passed profileUpdate).mpr
    (.inl ⟨rfl, by simp [replaceAda], by decide⟩)

/-- An empty body replaces the user by null. -/
theorem empty_body_erases :
    (∃ accepted, profileFallback.accept sampleLibraries objectReading (replaceAda [] []) =
      .ok (replaceUser, accepted)) ∧ ¬ ReadsBody replaceUser (replaceAda [] []) ∧
    profileScenarios.storedFor ("profiles", defaultSession) ⟨"/users", "ada"⟩ =
      some (.object [("id", .string "ada")]) ∧
    storedAfter (profileFallback.handle sampleLibraries objectReading (some profileScenarios)
      (replaceAda [] [])).1 ("profiles", defaultSession) ⟨"/users", "ada"⟩ = some .null ∧
    ∀ accepted, ¬ ReplacesByBody sampleLibraries objectReading profileFallback profileScenarios
      (replaceAda [] []) profileUpdate replaceUser accepted := by
  have unread : ¬ ReadsBody replaceUser (replaceAda [] []) := fun reads => reads.nonempty rfl
  have before : profileScenarios.storedFor ("profiles", defaultSession) ⟨"/users", "ada"⟩ =
      some (.object [("id", .string "ada")]) := by decide
  have after : storedAfter (profileFallback.handle sampleLibraries objectReading
      (some profileScenarios) (replaceAda [] [])).1 ("profiles", defaultSession) ⟨"/users", "ada"⟩ =
        some .null := by rfl
  refine ⟨⟨_, rfl⟩, unread, before, after, fun accepted replaces => ?_⟩
  have kept := replaces.kept unread ("profiles", defaultSession) ⟨"/users", "ada"⟩
  rw [before, after] at kept
  cases kept

end SpecMock.Runtime
