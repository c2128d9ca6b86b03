import SpecMock.Core.Scenario
import SpecMock.Core.Store

/-!
# The scenario sidecar

The sidecar names operations of the mocked API and declares the scenarios over
them.  Validation happens when it is loaded: a document that passes has no
dangling reference to a state or an operation.
-/

namespace SpecMock.Core

open SpecMock.Library

/-- The only sidecar schema version this build understands. -/
def supportedVersion : Nat := 1

/-- Prefix reserved for the mock's own control endpoints. -/
def controlPrefix : String := "/_specmock"

/-- Why a sidecar was rejected. -/
inductive SidecarError where
  | malformed (text : String)
  | unsupportedVersion (found : String)
  | unknownTransitionTarget (scenario state target : String)
  | unknownOperation (scenario state operation : String)
  | duplicateScenario (name : String)
  | unknownInitialState (scenario initial : String)
  | missingKey (operation : String) (action : StoreAction)
  | badKeyPointer (operation pointer : String)
  deriving DecidableEq

/-- Which part of an exchange holds a created resource's identifier. -/
inductive KeyLocation where
  | request
  | response
  deriving DecidableEq

/-- Where a created resource's identifier is read from. -/
structure KeySource where
  location : KeyLocation
  pointer : String
  deriving DecidableEq

/-- A store interaction declared by an operation. -/
structure StoreSpec where
  /-- Collection path template, which is the key namespace once bound. -/
  resource : String
  action : StoreAction
  /-- Path parameter holding the identifier. -/
  key : Option String
  keyFrom : Option KeySource
  deriving DecidableEq

structure OperationMatch where
  method : String
  path : String
  deriving DecidableEq

/-- One entry in the operation catalogue. -/
structure OperationEntry where
  matcher : OperationMatch
  store : Option StoreSpec
  responses : OrderedMap String ResponseOverride
  deriving DecidableEq

/-- Resources a scenario starts with. -/
structure SeedEntry where
  resource : String
  items : List Value
  deriving DecidableEq

/-- What an operation does in one state. -/
structure StepEntry where
  target : Option String
  responses : OrderedMap String ResponseOverride
  deriving DecidableEq

/-- A scenario as written in the sidecar. -/
structure ScenarioEntry where
  name : String
  initialState : String
  seed : List SeedEntry
  states : OrderedMap String (OrderedMap String StepEntry)
  deriving DecidableEq

structure Sidecar where
  version : Nat
  operations : OrderedMap String OperationEntry
  scenarios : List ScenarioEntry
  deriving DecidableEq

/-- A JSON pointer is either empty or rooted at a slash. -/
def isValidPointer (pointer : String) : Bool :=
  match pointer.toList with
  | [] => true
  | char :: _ => char == '/'

/-- The path lies beneath the mock's own control endpoints. -/
def isReserved (path : String) : Bool := controlPrefix.toList.isPrefixOf path.toList

def validateOperation (name : String) (entry : OperationEntry) : Except SidecarError Unit :=
  match entry.store with
  | none => .ok ()
  | some store =>
      match store.keyFrom.filter fun source => !isValidPointer source.pointer with
      | some source => .error (.badKeyPointer name source.pointer)
      | none =>
          -- A list addresses a whole namespace, so it needs no identifier.
          if store.action ≠ .list ∧ store.key = none ∧ store.keyFrom = none then
            .error (.missingKey name store.action)
          else .ok ()

/-- The checks on one entry of the catalogue. -/
def validateEntry (name : String) (entry : OperationEntry) : Except SidecarError Unit :=
  match validateOperation name entry with
  | .error error => .error error
  | .ok () =>
      if isReserved entry.matcher.path then
        .error (.unknownOperation "-" "-"
          (name ++ " declares '" ++ entry.matcher.path ++ "', which is reserved"))
      else .ok ()

/-- The checks on one operation of one state. -/
def validateStep (sidecar : Sidecar) (scenario : ScenarioEntry) (state operation : String)
    (step : StepEntry) : Except SidecarError Unit :=
  if sidecar.operations.containsKey operation = false then
    .error (.unknownOperation scenario.name state operation)
  else
    match step.target with
    | none => .ok ()
    | some target =>
        if scenario.states.containsKey target = false then
          .error (.unknownTransitionTarget scenario.name state target)
        else .ok ()

/-- The first error of a list of checks. -/
def checkAll {α : Type} (check : α → Except SidecarError Unit) : List α → Except SidecarError Unit
  | [] => .ok ()
  | item :: rest =>
      match check item with
      | .error error => .error error
      | .ok () => checkAll check rest

def validateStates (sidecar : Sidecar) (scenario : ScenarioEntry) : Except SidecarError Unit :=
  checkAll (fun declared => checkAll (fun step =>
    validateStep sidecar scenario declared.1 step.1 step.2) declared.2.entries)
    scenario.states.entries

/-- The checks on the scenarios, given the names already seen. -/
def validateScenarios (sidecar : Sidecar) :
    List String → List ScenarioEntry → Except SidecarError Unit
  | _, [] => .ok ()
  | seen, scenario :: rest =>
      if scenario.name ∈ seen then .error (.duplicateScenario scenario.name)
      else if scenario.states.containsKey scenario.initialState = false then
        .error (.unknownInitialState scenario.name scenario.initialState)
      else
        match validateStates sidecar scenario with
        | .error error => .error error
        | .ok () => validateScenarios sidecar (scenario.name :: seen) rest

def validate (sidecar : Sidecar) : Except SidecarError Unit :=
  match checkAll (fun entry => validateEntry entry.1 entry.2) sidecar.operations.entries with
  | .error error => .error error
  | .ok () => validateScenarios sidecar [] sidecar.scenarios

/-- A sidecar that parsed and passed validation. -/
structure ValidatedSidecar where
  sidecar : Sidecar
  supported : sidecar.version = supportedVersion
  valid : validate sidecar = .ok ()

namespace ValidatedSidecar

/-- Look up a scenario by name. -/
def scenario (validated : ValidatedSidecar) (name : String) : Option ScenarioEntry :=
  validated.sidecar.scenarios.find? fun scenario => decide (scenario.name = name)

/-- The scenario used when a request names none. -/
def defaultScenario (validated : ValidatedSidecar) : Option ScenarioEntry :=
  validated.sidecar.scenarios.head?

/-- Declared scenario names, for error messages. -/
def scenarioNames (validated : ValidatedSidecar) : List String :=
  validated.sidecar.scenarios.map ScenarioEntry.name

end ValidatedSidecar

/-- Parse and validate a resolved document, given the reader of its shape. -/
def parse (fromValue : Value → Except String Sidecar) (value : Value) :
    Except SidecarError ValidatedSidecar :=
  match fromValue value with
  | .error text => .error (.malformed text)
  | .ok sidecar =>
      if supported : sidecar.version = supportedVersion then
        match valid : validate sidecar with
        | .error error => .error error
        | .ok () => .ok ⟨sidecar, supported, valid⟩
      else .error (.unsupportedVersion (toString sidecar.version))

/-- An entry of the catalogue that can be addressed and routed. -/
structure OperationEntry.WellFormed (entry : OperationEntry) : Prop where
  pointer : ∀ {store source}, entry.store = some store → store.keyFrom = some source →
    isValidPointer source.pointer = true
  keyed : ∀ {store}, entry.store = some store → store.action ≠ .list →
    store.key ≠ none ∨ store.keyFrom ≠ none
  routable : isReserved entry.matcher.path = false

/-- A scenario without dangling references. -/
structure ScenarioEntry.WellFormed (sidecar : Sidecar) (scenario : ScenarioEntry) : Prop where
  initial : scenario.states.containsKey scenario.initialState = true
  operation : ∀ {state operations operation step}, (state, operations) ∈ scenario.states.entries →
    (operation, step) ∈ operations.entries → sidecar.operations.containsKey operation = true
  target : ∀ {state operations operation step target},
    (state, operations) ∈ scenario.states.entries → (operation, step) ∈ operations.entries →
    step.target = some target → scenario.states.containsKey target = true

structure Sidecar.WellFormed (sidecar : Sidecar) : Prop where
  operations : ∀ {name entry}, (name, entry) ∈ sidecar.operations.entries → entry.WellFormed
  scenarios : ∀ scenario ∈ sidecar.scenarios, scenario.WellFormed sidecar
  names : (sidecar.scenarios.map ScenarioEntry.name).Nodup

theorem checkAll_eq_ok {α : Type} (check : α → Except SidecarError Unit) (items : List α) :
    checkAll check items = .ok () ↔ ∀ item ∈ items, check item = .ok () := by
  induction items with
  | nil => simp [checkAll]
  | cons item rest ih =>
      rw [List.forall_mem_cons]
      unfold checkAll
      cases checked : check item with
      | error error => simp
      | ok => simp [ih]

theorem validateOperation_eq_ok (name : String) (entry : OperationEntry) :
    validateOperation name entry = .ok () ↔
      (∀ store source, entry.store = some store → store.keyFrom = some source →
        isValidPointer source.pointer = true) ∧
      ∀ store, entry.store = some store → store.action ≠ .list →
        store.key ≠ none ∨ store.keyFrom ≠ none := by
  unfold validateOperation
  cases entry.store with
  | none => simp
  | some store =>
      cases found : store.keyFrom with
      | none =>
          have unsourced : ∀ other source, some store = some other →
              other.keyFrom = some source → isValidPointer source.pointer = true := by
            rintro other source ⟨⟩ sourced
            rw [found] at sourced
            cases sourced
          rw [and_iff_right unsourced]
          simp [found]
      | some source =>
          cases pointer : isValidPointer source.pointer with
          | false => simp [Option.filter, pointer, found]
          | true =>
              simp only [Option.filter, pointer, found]
              refine iff_of_true (by simp) ⟨?_, by simp [found]⟩
              rintro other another ⟨⟩ sourced
              cases found.symm.trans sourced
              exact pointer

theorem validateEntry_eq_ok {name : String} {entry : OperationEntry} :
    validateEntry name entry = .ok () ↔ entry.WellFormed := by
  have operation := validateOperation_eq_ok name entry
  unfold validateEntry
  cases validated : validateOperation name entry with
  | error error =>
      rw [validated] at operation
      apply iff_of_false (by simp)
      intro wellFormed
      have accepted := operation.mpr ⟨fun _ _ => wellFormed.pointer, fun _ => wellFormed.keyed⟩
      cases accepted
  | ok =>
      obtain ⟨pointer, keyed⟩ := operation.mp validated
      cases reserved : isReserved entry.matcher.path with
      | true =>
          apply iff_of_false (by simp)
          intro wellFormed
          rw [wellFormed.routable] at reserved
          cases reserved
      | false => exact iff_of_true (by simp) ⟨pointer _ _, keyed _, reserved⟩

theorem validateStep_eq_ok {sidecar : Sidecar} {scenario : ScenarioEntry}
    {state operation : String} {step : StepEntry} :
    validateStep sidecar scenario state operation step = .ok () ↔
      sidecar.operations.containsKey operation = true ∧
      ∀ target, step.target = some target → scenario.states.containsKey target = true := by
  unfold validateStep
  cases sidecar.operations.containsKey operation with
  | false => simp
  | true =>
      cases step.target with
      | none => simp
      | some target => cases scenario.states.containsKey target <;> simp

theorem validateStates_eq_ok (sidecar : Sidecar) (scenario : ScenarioEntry) :
    validateStates sidecar scenario = .ok () ↔
      ∀ state operations operation step, (state, operations) ∈ scenario.states.entries →
        (operation, step) ∈ operations.entries →
        sidecar.operations.containsKey operation = true ∧
        ∀ target, step.target = some target → scenario.states.containsKey target = true := by
  simp only [validateStates, checkAll_eq_ok, validateStep_eq_ok, Prod.forall]
  exact ⟨fun checked _ _ _ _ declared named => checked _ _ declared _ _ named,
    fun wellFormed _ _ declared _ _ named => wellFormed _ _ _ _ declared named⟩

theorem validateScenarios_eq_ok (sidecar : Sidecar) (seen : List String)
    (scenarios : List ScenarioEntry) :
    validateScenarios sidecar seen scenarios = .ok () ↔
      (∀ scenario ∈ scenarios, scenario.WellFormed sidecar ∧ scenario.name ∉ seen) ∧
      (scenarios.map ScenarioEntry.name).Nodup := by
  induction scenarios generalizing seen with
  | nil => simp [validateScenarios]
  | cons scenario rest ih =>
      unfold validateScenarios
      by_cases repeated : scenario.name ∈ seen
      · rw [if_pos repeated]
        exact iff_of_false (by simp) fun accepted =>
          (accepted.1 scenario List.mem_cons_self).2 repeated
      rw [if_neg repeated]
      cases initial : scenario.states.containsKey scenario.initialState with
      | false =>
          apply iff_of_false (by simp)
          intro accepted
          rw [(accepted.1 scenario List.mem_cons_self).1.initial] at initial
          cases initial
      | true =>
          have states := validateStates_eq_ok sidecar scenario
          simp only [Bool.true_eq_false, if_false]
          cases validated : validateStates sidecar scenario with
          | error error =>
              rw [validated] at states
              apply iff_of_false (by simp)
              intro accepted
              have wellFormed := (accepted.1 scenario List.mem_cons_self).1
              have clean := states.mpr fun _ _ _ _ declared named =>
                ⟨wellFormed.operation declared named,
                  fun _ => wellFormed.target declared named⟩
              cases clean
          | ok =>
              have checked := states.mp validated
              have wellFormed : scenario.WellFormed sidecar :=
                ⟨initial, fun declared named => (checked _ _ _ _ declared named).1,
                  fun declared named => (checked _ _ _ _ declared named).2 _⟩
              rw [List.forall_mem_cons, List.map_cons, List.nodup_cons]
              simp only [ih, List.mem_cons, not_or, List.mem_map, not_exists, not_and]
              constructor
              · rintro ⟨others, distinct⟩
                exact ⟨⟨⟨wellFormed, repeated⟩, fun other member =>
                  ⟨(others other member).1, (others other member).2.2⟩⟩,
                  fun other member => (others other member).2.1, distinct⟩
              · rintro ⟨⟨_, others⟩, different, distinct⟩
                exact ⟨fun other member => ⟨(others other member).1,
                  different other member, (others other member).2⟩, distinct⟩

/-- Validation accepts exactly the well formed sidecars. -/
theorem validate_eq_ok {sidecar : Sidecar} :
    validate sidecar = .ok () ↔ sidecar.WellFormed := by
  have operations := checkAll_eq_ok
    (fun entry : String × OperationEntry => validateEntry entry.1 entry.2)
    sidecar.operations.entries
  simp only [validateEntry_eq_ok, Prod.forall] at operations
  have scenarios := validateScenarios_eq_ok sidecar [] sidecar.scenarios
  simp only [List.not_mem_nil, not_false_eq_true, and_true] at scenarios
  unfold validate
  cases validated : checkAll (fun entry => validateEntry entry.1 entry.2)
      sidecar.operations.entries with
  | error error =>
      apply iff_of_false (by simp)
      intro wellFormed
      rw [validated] at operations
      have clean := operations.mpr fun _ _ => wellFormed.operations
      cases clean
  | ok =>
      rw [validated] at operations
      constructor
      · intro accepted
        exact ⟨operations.mp rfl _ _, (scenarios.mp accepted).1, (scenarios.mp accepted).2⟩
      · intro wellFormed
        exact scenarios.mpr ⟨wellFormed.scenarios, wellFormed.names⟩

theorem ValidatedSidecar.wellFormed (validated : ValidatedSidecar) :
    validated.sidecar.WellFormed :=
  validate_eq_ok.mp validated.valid

theorem ValidatedSidecar.scenario_mem {validated : ValidatedSidecar} {name : String}
    {entry : ScenarioEntry} (found : validated.scenario name = some entry) :
    entry ∈ validated.sidecar.scenarios ∧ entry.name = name :=
  ⟨List.mem_of_find?_eq_some found, by simpa using List.find?_some found⟩

end SpecMock.Core
