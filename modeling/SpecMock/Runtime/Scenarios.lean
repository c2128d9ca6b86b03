import SpecMock.Runtime.Addressing

/-!
# Scenario execution

An instance pairs the current state of a scenario with a store.  A request
reaches one through a scenario name and a session key; the operation it is
catalogued under is checked against the current state, acts on the store and
moves the state.
-/

namespace SpecMock.Runtime

open SpecMock.Library SpecMock.Core

/-- Session key used when a request supplies none. -/
def defaultSession : String := "__default__"

/-- A failure that is not a schema violation. -/
inductive StatefulFailure where
  | unknownScenario (requested : String) (available : List String)
  | illegalOperation (scenario session state operation : String)
  | resourceNotFound (key : String)
  | resourceExists (key : String)
  | sessionCapExceeded (limit : Nat)
  | storeCapExceeded (limit : Nat)
  deriving DecidableEq

/-- What the handler should do with a governed request. -/
inductive Resolution where
  /-- No scenario governs this request. -/
  | ungoverned
  | body (value : Value)
  /-- Serve no body, for a delete. -/
  | empty
  | forced (status : Nat) (body : Option Value)
  | failed (failure : StatefulFailure)
  deriving DecidableEq

/-- One isolated run of a scenario. -/
structure Instance where
  scenario : String
  initial : State
  state : State
  store : Store
  seed : List SeedEntry

/-- Derive a seed item's identifier, preferring an `id` field. -/
def seedIdentifier (item : Value) (index : Nat) : String :=
  match item.get "id" with
  | some (.string text) => text
  | some other => other.toText
  | none => toString index

/-- File the items of one seed entry; an item that cannot be filed is skipped. -/
def seedItems (resource : String) : Nat → List Value → Store → Store
  | _, [], store => store
  | index, item :: rest, store =>
      seedItems resource (index + 1) rest
        (store.create ⟨resource, seedIdentifier item index⟩ item).1

def applySeed (seed : List SeedEntry) (store : Store) : Store :=
  seed.foldl (fun store entry => seedItems entry.resource 0 entry.items store) store

namespace Instance

def new (scenario : String) (initial : State) (seed : List SeedEntry) (storeLimit : Nat) :
    Instance :=
  { scenario, initial, state := initial, store := applySeed seed (Store.new storeLimit), seed }

/-- Back to the initial state, with the store emptied and seeded again. -/
def reset (inst : Instance) : Instance :=
  { inst with state := inst.initial, store := applySeed inst.seed inst.store.clear.1 }

end Instance

/-- What a create puts in the store. -/
inductive CreateValue where
  /-- Whatever `keyFrom` points at. -/
  | followKeySource
  /-- Always the generated response. -/
  | response
  deriving DecidableEq

def mapStoreError (error : StoreError) (key : StoreKey) : StatefulFailure :=
  match error with
  | .notFound _ => .resourceNotFound key.toText
  | .alreadyExists _ => .resourceExists key.toText
  | .capacityExceeded limit => .storeCapExceeded limit

/-- The value a create files under `id`. -/
def createdValue (spec : StoreSpec) (request : Option Value) (response : Value)
    (createValue : CreateValue) (id : String) : Value :=
  match createValue, spec.keyFrom with
  | .followKeySource, some ⟨.request, _⟩ => request.getD .null
  -- The stored response has to agree with the key it is filed under.
  | .response, some source => alignIdentifier response source.pointer id
  | _, _ => response

def applyStore (store : Store) (spec : StoreSpec) (params : PathParams) (request : Option Value)
    (response : Value) (createValue : CreateValue) :
    Store × Except StatefulFailure Resolution :=
  let ns := bindNamespace spec.resource params
  match spec.action with
  | .list => (store, .ok (.body (.array (store.list ns))))
  | .create =>
      match resolveCreateKey spec request response with
      | none => (store, .error (.resourceNotFound ns))
      | some id =>
          let key : StoreKey := ⟨ns, id⟩
          let value := createdValue spec request response createValue id
          match store.create key value with
          | (after, .ok ()) => (after, .ok (.body value))
          | (after, .error error) => (after, .error (mapStoreError error key))
  | .read =>
      match resolveKey spec params request response with
      | none => (store, .error (.resourceNotFound ns))
      | some id =>
          let key : StoreKey := ⟨ns, id⟩
          match store.read key with
          | some value => (store, .ok (.body value))
          | none => (store, .error (.resourceNotFound key.toText))
  | .update =>
      match resolveKey spec params request response with
      | none => (store, .error (.resourceNotFound ns))
      | some id =>
          let key : StoreKey := ⟨ns, id⟩
          let value := request.getD .null
          match store.update key value with
          | (after, .ok ()) => (after, .ok (.body value))
          | (after, .error error) => (after, .error (mapStoreError error key))
  | .delete =>
      match resolveKey spec params request response with
      | none => (store, .error (.resourceNotFound ns))
      | some id =>
          let key : StoreKey := ⟨ns, id⟩
          match store.delete key with
          | (after, .ok ()) => (after, .ok .empty)
          | (after, .error error) => (after, .error (mapStoreError error key))

/-- Value of a list of decimal digits, none if a character is not one. -/
def decimalValue : List Char → Option Nat :=
  List.foldl (fun value char => value.bind fun before =>
    if char.isDigit then some (10 * before + (char.toNat - '0'.toNat)) else none) (some 0)

/-- `str::parse::<u16>`: an optional plus sign, then digits, within sixteen bits. -/
def parseU16 (text : String) : Option Nat :=
  let digits := match text.toList with
    | '+' :: rest => rest
    | other => other
  if digits = [] then none else (decimalValue digits).filter fun value => decide (value < 2 ^ 16)

/-- Pin the status of an outcome; a body the override lacks is kept. -/
def applyOverride (declaredStatus : String) (spec : ResponseOverride) (outcome : Resolution) :
    Resolution :=
  let status := (parseU16 declaredStatus).getD 500
  match outcome with
  | .body value => .forced status (spec.body.or (some value))
  | _ => .forced status spec.body

/-- An entry of the catalogue, as requests find it. -/
structure ResolvedOperation where
  /-- Catalogue name, which is the machine's operation key. -/
  name : String
  store : Option StoreSpec
  responses : OrderedMap String ResponseOverride

structure ScenarioRuntime where
  sidecar : ValidatedSidecar
  /-- Catalogue keyed by request signature. -/
  byRequest : FiniteMap String ResolvedOperation
  /-- Live instances, keyed by scenario and session. -/
  sessions : FiniteMap (String × String) Instance
  maxSessions : Nat
  maxStoreEntries : Nat

def asciiLowercase (text : String) : String := String.ofList (text.toList.map Char.toLower)

/-- The method in lower case, a blank and the path: the key of the catalogue. -/
def requestKey (method pathTemplate : String) : String :=
  asciiLowercase method ++ " " ++ pathTemplate

/-- The entries of the catalogue in their order, later ones overwriting. -/
def indexOperations (operations : List (String × OperationEntry)) :
    FiniteMap String ResolvedOperation :=
  operations.foldl (fun index operation =>
    let entry := operation.2
    index.insert (requestKey entry.matcher.method entry.matcher.path)
      ⟨operation.1, entry.store, entry.responses⟩) ∅

/-- A step of the sidecar as a transition of the machine. -/
def StepEntry.transition (step : StepEntry) : Transition :=
  let moved := match step.target with
    | none => Transition.stay
    | some target => Transition.toState ⟨target⟩
  { moved with responses := step.responses }

/-- The machine of a scenario of the sidecar. -/
def ScenarioEntry.machine (entry : ScenarioEntry) : Scenario where
  name := entry.name
  initial := ⟨entry.initialState⟩
  states := OrderedMap.collect (entry.states.entries.map fun declared =>
    (⟨declared.1⟩, OrderedMap.collect (declared.2.entries.map fun step =>
      (step.1, StepEntry.transition step.2))))

/-- The data of one request, as the protocol adapters hand it over. -/
structure Request where
  scenario : Option String
  session : Option String
  method : String
  pathTemplate : String
  params : PathParams
  request : Option Value
  response : Value
  preferCode : Bool
  validated : Bool
  createValue : CreateValue

namespace ScenarioRuntime

def new (sidecar : ValidatedSidecar) (maxSessions maxStoreEntries : Nat) : ScenarioRuntime :=
  { sidecar, byRequest := indexOperations sidecar.sidecar.operations.entries, sessions := ∅,
    maxSessions, maxStoreEntries }

def defaultScenarioName (runtime : ScenarioRuntime) : Option String :=
  runtime.sidecar.defaultScenario.map ScenarioEntry.name

def sessionCount (runtime : ScenarioRuntime) : Nat := FiniteMap.size runtime.sessions

/-- The machine of a named scenario, rebuilt for every request. -/
def machine (runtime : ScenarioRuntime) (name : String) : Option Scenario :=
  (runtime.sidecar.scenario name).map ScenarioEntry.machine

/-- The live instance of a session, or a fresh one within the cap. -/
def instanceOf (runtime : ScenarioRuntime) (machine : Scenario) (session : String) :
    ScenarioRuntime × Except StatefulFailure Instance :=
  match runtime.sessions.lookup (machine.name, session) with
  | some existing => (runtime, .ok existing)
  | none =>
      if FiniteMap.size runtime.sessions ≥ runtime.maxSessions then
        (runtime, .error (.sessionCapExceeded runtime.maxSessions))
      else
        match runtime.sidecar.scenario machine.name with
        | none =>
            (runtime, .error (.unknownScenario machine.name runtime.sidecar.scenarioNames))
        | some entry =>
            let fresh := Instance.new machine.name machine.initial entry.seed
              runtime.maxStoreEntries
            ({ runtime with sessions := runtime.sessions.insert (machine.name, session) fresh },
              .ok fresh)

/-- The response overrides a scenario declares for one operation in one state. -/
def stepResponses (machine : Scenario) (state : State) (operation : String) :
    OrderedMap String ResponseOverride :=
  match machine.transition state operation with
  | none => ∅
  | some transition => transition.responses

/-- The override of an operation: the first of its state, else of its own. -/
def chosenOverride (machine : Scenario) (state : State) (operation : ResolvedOperation) :
    Option (String × ResponseOverride) :=
  (stepResponses machine state operation.name).entries.head?.or operation.responses.entries.head?

/-- A store result as an outcome. -/
def outcomeOf : Except StatefulFailure Resolution → Resolution
  | .error failure => .failed failure
  | .ok outcome => outcome

/-- The store's part of a resolution, before any override. -/
def storeOutcome (store : Store) (operation : ResolvedOperation) (request : Request) :
    Store × Resolution :=
  match operation.store with
  | none => (store, .ungoverned)
  | some spec =>
      let result := applyStore store spec request.params request.request request.response
        request.createValue
      (result.1, outcomeOf result.2)

/-- An override pins the status, and cannot mask a store failure. -/
def finalOutcome (machine : Scenario) (state : State) (operation : ResolvedOperation)
    (outcome : Resolution) : Resolution :=
  match outcome with
  | .failed _ | .forced _ _ => outcome
  | _ =>
      match chosenOverride machine state operation with
      | none => outcome
      | some (declaredStatus, spec) => applyOverride declaredStatus spec outcome

/-- What a legal, validated request does to its instance, and its answer. -/
def serve (machine : Scenario) (inst : Instance) (operation : ResolvedOperation)
    (request : Request) : Instance × Resolution :=
  let state := inst.state
  let stored := storeOutcome inst.store operation request
  let outcome := finalOutcome machine state operation stored.2
  -- A failed store operation is still a valid request, so the machine advances either way.
  match machine.nextState state operation.name with
  | some next => ({ inst with store := stored.1, state := next }, outcome)
  | none => ({ inst with store := stored.1 }, outcome)

def resolveWith (runtime : ScenarioRuntime) (request : Request) : ScenarioRuntime × Resolution :=
  -- A preferred code bypasses the machine entirely.
  if request.preferCode then (runtime, .ungoverned)
  else
    let name := (request.scenario.or runtime.defaultScenarioName).getD ""
    match runtime.machine name with
    | none =>
        match request.scenario with
        | some requested =>
            (runtime, .failed (.unknownScenario requested runtime.sidecar.scenarioNames))
        | none => (runtime, .ungoverned)
    | some machine =>
        match runtime.byRequest.lookup (requestKey request.method request.pathTemplate) with
        | none => (runtime, .ungoverned)
        | some operation =>
            let session := request.session.getD defaultSession
            match runtime.instanceOf machine session with
            | (runtime, .error failure) => (runtime, .failed failure)
            | (runtime, .ok inst) =>
                if machine.allows inst.state operation.name = false then
                  (runtime, .failed
                    (.illegalOperation machine.name session inst.state.name operation.name))
                else if request.validated = false then (runtime, .ungoverned)
                else
                  let served := serve machine inst operation request
                  ({ runtime with
                      sessions := runtime.sessions.insert (machine.name, session) served.1 },
                    served.2)

def resolve (runtime : ScenarioRuntime) (scenario session : Option String)
    (method pathTemplate : String) (params : PathParams) (request : Option Value)
    (response : Value) (preferCode validated : Bool) : ScenarioRuntime × Resolution :=
  runtime.resolveWith
    { scenario, session, method, pathTemplate, params, request, response, preferCode, validated,
      createValue := .followKeySource }

/-- Resolve a message that arrived on a channel. -/
def resolveChannel (runtime : ScenarioRuntime) (scenario session channel : String)
    (incoming : Option Value) (generated : Value) : ScenarioRuntime × Resolution :=
  runtime.resolve (some scenario) (some session) "channel" channel ∅ incoming generated false true

/-- Resolve a unary call; the store holds what the client will see. -/
def resolveGrpc (runtime : ScenarioRuntime) (scenario session : Option String)
    (methodPath : String) (request response : Value) : ScenarioRuntime × Resolution :=
  runtime.resolveWith
    { scenario, session, method := "unary", pathTemplate := methodPath, params := ∅,
      request := some request, response, preferCode := false, validated := true,
      createValue := .response }

/-- Drop one instance. -/
def release (runtime : ScenarioRuntime) (scenario session : String) : ScenarioRuntime × Bool :=
  ({ runtime with sessions := runtime.sessions.erase (scenario, session) },
    (runtime.sessions.lookup (scenario, session)).isSome)

/-- Reset every live instance. -/
def resetAll (runtime : ScenarioRuntime) : ScenarioRuntime × Nat :=
  ({ runtime with sessions := FiniteMap.mapValues Instance.reset runtime.sessions },
    FiniteMap.size runtime.sessions)

end ScenarioRuntime

end SpecMock.Runtime
