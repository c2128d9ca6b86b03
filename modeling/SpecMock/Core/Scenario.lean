import SpecMock.Core.Json
import Mathlib.Order.Lattice
import Mathlib.Data.List.Induction

/-!
# Scenarios

A scenario is a finite state machine: a starting state, the states it can
occupy, and the operations legal in each together with where each leads.
-/

namespace SpecMock.Core

open SpecMock.Library

/-- A declared response override, keyed by status code or `default`. -/
structure ResponseOverride where
  body : Option Value
  deriving DecidableEq

/-- A named position within a scenario. -/
structure State where
  name : String
  deriving DecidableEq

theorem State.name_injective : Function.Injective State.name := by
  rintro ⟨left⟩ ⟨right⟩ same
  exact congrArg State.mk same

/-- States are ordered by their names. -/
instance : LinearOrder State := LinearOrder.lift' State.name State.name_injective

/-- The move an operation makes from one state to another, none meaning to stay. -/
structure Transition where
  target : Option State
  responses : OrderedMap String ResponseOverride
  deriving DecidableEq

namespace Transition

def toState (target : State) : Transition := ⟨some target, ∅⟩

def stay : Transition := ⟨none, ∅⟩

end Transition

structure Scenario where
  name : String
  initial : State
  /-- State to the operations legal there, mapped to the transition each makes. -/
  states : OrderedMap State (OrderedMap String Transition)

namespace Scenario

/-- Whether `operation` may fire while in `state`. -/
def allows (scenario : Scenario) (state : State) (operation : String) : Bool :=
  match scenario.states.get state with
  | none => false
  | some operations => operations.containsKey operation

/-- The transition `operation` makes from `state`, if it is legal there. -/
def transition (scenario : Scenario) (state : State) (operation : String) : Option Transition :=
  match scenario.states.get state with
  | none => none
  | some operations => operations.get operation

/-- The state `operation` leads to from `state`, if it moves at all. -/
def nextState (scenario : Scenario) (state : State) (operation : String) : Option State :=
  match scenario.transition state operation with
  | none => none
  | some transition => transition.target

/-- Where an instance is after an accepted operation. -/
def stateAfter (scenario : Scenario) (state : State) (operation : String) : State :=
  (scenario.nextState state operation).getD state

theorem allows_eq_isSome (scenario : Scenario) (state : State) (operation : String) :
    scenario.allows state operation = (scenario.transition state operation).isSome := by
  unfold allows transition
  cases scenario.states.get state <;> rfl

/-- Only a legal operation has a next state. -/
theorem allows_of_nextState {scenario : Scenario} {state next : State} {operation : String}
    (moves : scenario.nextState state operation = some next) :
    scenario.allows state operation = true := by
  rw [allows_eq_isSome]
  unfold nextState at moves
  cases found : scenario.transition state operation with
  | none => simp [found] at moves
  | some transition => rfl

/-- Every operation declared in any state, in sorted order. -/
def operations (scenario : Scenario) : List String :=
  (OrderedMap.collect (scenario.states.entries.flatMap fun declared =>
    declared.2.entries.map fun step => (step.1, ()))).keys

/-- The operations of a scenario are those that some state declares. -/
theorem mem_operations {scenario : Scenario} {operation : String} :
    operation ∈ scenario.operations ↔ ∃ state, scenario.allows state operation = true := by
  unfold operations OrderedMap.keys OrderedMap.collect
  rw [SortedEntries.mem_keys_collect]
  constructor
  · intro member
    obtain ⟨pair, inside, rfl⟩ := List.mem_map.mp member
    obtain ⟨⟨state, steps⟩, declared, step⟩ := List.mem_flatMap.mp inside
    obtain ⟨⟨name, transition⟩, stepped, rfl⟩ := List.mem_map.mp step
    refine ⟨state, ?_⟩
    rw [allows, OrderedMap.get_of_mem declared]
    exact OrderedMap.containsKey_iff.mpr ⟨transition, stepped⟩
  · rintro ⟨state, legal⟩
    unfold allows at legal
    cases found : scenario.states.get state with
    | none => simp [found] at legal
    | some steps =>
        rw [found] at legal
        obtain ⟨transition, stepped⟩ := OrderedMap.containsKey_iff.mp legal
        refine List.mem_map.mpr ⟨(operation, ()), ?_, rfl⟩
        exact List.mem_flatMap.mpr ⟨(state, steps), OrderedMap.get_mem found,
          List.mem_map.mpr ⟨(operation, transition), stepped, rfl⟩⟩

/-- A state the scenario declares. -/
def Declares (scenario : Scenario) (state : State) : Prop :=
  scenario.states.containsKey state = true

instance (scenario : Scenario) (state : State) : Decidable (scenario.Declares state) :=
  inferInstanceAs (Decidable (_ = true))

/-- The initial state and every target are declared states. -/
structure Closed (scenario : Scenario) : Prop where
  initial : scenario.Declares scenario.initial
  target : ∀ {state next operation},
    scenario.nextState state operation = some next → scenario.Declares next

theorem Closed.stateAfter {scenario : Scenario} (closed : scenario.Closed) {state : State}
    (declared : scenario.Declares state) (operation : String) :
    scenario.Declares (scenario.stateAfter state operation) := by
  unfold Scenario.stateAfter
  cases moves : scenario.nextState state operation with
  | none => exact declared
  | some next => exact closed.target moves

/-- Where an instance is after a list of accepted operations. -/
def fold (scenario : Scenario) (operations : List String) : State :=
  operations.foldl scenario.stateAfter scenario.initial

theorem fold_append (scenario : Scenario) (operations : List String) (operation : String) :
    scenario.fold (operations ++ [operation]) =
      scenario.stateAfter (scenario.fold operations) operation := by
  simp [fold]

theorem Closed.fold {scenario : Scenario} (closed : scenario.Closed) (operations : List String) :
    scenario.Declares (scenario.fold operations) := by
  induction operations using List.reverseRecOn with
  | nil => exact closed.initial
  | append_singleton before operation ih =>
      rw [fold_append]
      exact closed.stateAfter ih operation

/-- Fire operations one after the other, each in a state that declares it. -/
def walk (scenario : Scenario) : State → List String → Option State
  | state, [] => some state
  | state, operation :: rest =>
      if scenario.allows state operation then
        scenario.walk (scenario.stateAfter state operation) rest
      else none

theorem walk_append (scenario : Scenario) (state : State) (before after : List String) :
    scenario.walk state (before ++ after) =
      (scenario.walk state before).bind fun middle => scenario.walk middle after := by
  induction before generalizing state with
  | nil => rfl
  | cons operation rest ih =>
      simp only [List.cons_append, walk, ih]
      split
      · rfl
      · rfl

/-- A walk extended by an operation declared where it ends. -/
theorem walk_snoc {scenario : Scenario} {start finish : State} {operations : List String}
    {operation : String} (walked : scenario.walk start operations = some finish)
    (legal : scenario.allows finish operation = true) :
    scenario.walk start (operations ++ [operation]) =
      some (scenario.stateAfter finish operation) := by
  rw [walk_append, walked]
  simp [walk, legal]

/-- Declared transitions lead from one state to the other. -/
def Reaches (scenario : Scenario) (start finish : State) : Prop :=
  ∃ operations, scenario.walk start operations = some finish

/-- Once the operation has fired, no state that declares it can be reached. -/
def FiresOnce (scenario : Scenario) (operation : String) : Prop :=
  ∀ state later, scenario.allows state operation = true →
    scenario.Reaches (scenario.stateAfter state operation) later →
    scenario.allows later operation = false

/-- An operation of a walk was declared where it fired, and the walk went on from there. -/
theorem reaches_of_mem_walk {scenario : Scenario} {start finish : State}
    {operations : List String} {operation : String}
    (walked : scenario.walk start operations = some finish) (member : operation ∈ operations) :
    ∃ state, scenario.allows state operation = true ∧
      scenario.Reaches (scenario.stateAfter state operation) finish := by
  obtain ⟨before, after, rfl⟩ := List.append_of_mem member
  rw [walk_append, Option.bind_eq_some_iff] at walked
  obtain ⟨middle, _, onward⟩ := walked
  rw [walk] at onward
  split at onward
  next legal => exact ⟨middle, legal, after, onward⟩
  next => cases onward

theorem FiresOnce.count_le_one {scenario : Scenario} {operation : String}
    (once : scenario.FiresOnce operation) {start finish : State} {operations : List String}
    (walked : scenario.walk start operations = some finish) :
    operations.count operation ≤ 1 := by
  induction operations using List.reverseRecOn generalizing finish with
  | nil => simp
  | append_singleton before last ih =>
      rw [walk_append, Option.bind_eq_some_iff] at walked
      obtain ⟨middle, walkedBefore, fired⟩ := walked
      have fewer := ih walkedBefore
      rw [List.count_append]
      by_cases same : last = operation
      · subst same
        have absent : last ∉ before := by
          intro member
          obtain ⟨state, legal, reached⟩ := reaches_of_mem_walk walkedBefore member
          have illegal := once state middle legal reached
          simp [walk, illegal] at fired
        rw [List.count_eq_zero_of_not_mem absent]
        simp
      · simpa [List.count_singleton, same] using fewer

end Scenario

end SpecMock.Core
