import SpecMock.Core.Scenario
import SpecMock.Library.WorkList

/-!
# States that no transition reaches

A scenario is searched from its initial state with a work list.  The declared
states the search does not visit are reported as unreachable; they are exactly
those that no sequence of declared transitions leads to.
-/

namespace SpecMock.Core

open SpecMock.Library

namespace Scenario

/-- The targets of the operations declared in a state, in the order of the operations. -/
def targets (scenario : Scenario) (state : State) : List State :=
  match scenario.states.get state with
  | none => []
  | some operations => operations.entries.filterMap fun step => step.2.target

theorem targets_of_undeclared {scenario : Scenario} {state : State}
    (undeclared : ¬ scenario.Declares state) : scenario.targets state = [] := by
  unfold Declares OrderedMap.containsKey at undeclared
  unfold targets
  cases found : scenario.states.get state with
  | none => rfl
  | some operations => simp [found] at undeclared

/-- The scenario as the graph that the work list searches. -/
def targetGraph (scenario : Scenario) : TargetGraph State where
  nodes := scenario.states.keys.toFinset
  targets := scenario.targets
  outside := by
    intro state outside
    apply targets_of_undeclared
    exact fun declared => outside (List.mem_toFinset.mpr (OrderedMap.mem_keys.mpr declared))

/-- The declared states that the work list never visits, in the order of the states. -/
def unreachableStates (scenario : Scenario) : List State :=
  let reachable := scenario.targetGraph.explore ⟨∅, [scenario.initial]⟩
  scenario.states.keys.filter fun state => decide (state ∉ reachable)

/-- Some operation moves from one state to the other. -/
def MovesTo (scenario : Scenario) (state next : State) : Prop :=
  ∃ operation, scenario.nextState state operation = some next

/-- The work list follows the target relation of the scenario. -/
theorem targetGraph_leads (scenario : Scenario) :
    scenario.targetGraph.Leads = scenario.MovesTo := by
  funext state next
  apply propext
  change next ∈ scenario.targets state ↔ ∃ operation, scenario.nextState state operation = some next
  simp only [targets, nextState, transition]
  cases scenario.states.get state with
  | none => simp
  | some operations =>
      simp only [List.mem_filterMap]
      constructor
      · rintro ⟨⟨operation, transition⟩, member, moved⟩
        refine ⟨operation, ?_⟩
        rw [OrderedMap.get_of_mem member]
        exact moved
      · rintro ⟨operation, moved⟩
        cases found : operations.get operation with
        | none => simp [found] at moved
        | some transition =>
            refine ⟨(operation, transition), OrderedMap.get_mem found, ?_⟩
            simpa [found] using moved

/-- What the target relation reaches is where the walks of the scenario end. -/
theorem reaches_iff {scenario : Scenario} {start finish : State} :
    scenario.Reaches start finish ↔ Relation.ReflTransGen scenario.MovesTo start finish := by
  constructor
  · rintro ⟨operations, walked⟩
    induction operations generalizing start with
    | nil => exact Option.some.inj walked ▸ .refl
    | cons operation rest ih =>
        rw [walk] at walked
        split at walked
        next legal =>
          have onward := ih walked
          cases moved : scenario.nextState start operation with
          | none => simpa [stateAfter, moved] using onward
          | some next =>
              rw [stateAfter, moved] at onward
              exact .head ⟨operation, moved⟩ onward
        next => cases walked
  · intro reached
    induction reached with
    | refl => exact ⟨[], rfl⟩
    | tail _ moves ih =>
        obtain ⟨operations, walked⟩ := ih
        obtain ⟨operation, moved⟩ := moves
        refine ⟨operations ++ [operation], ?_⟩
        rw [walk_snoc walked (allows_of_nextState moved), stateAfter, moved]
        rfl

/-- The states the work list visits are those that walks from the initial state end in. -/
theorem mem_explore_targetGraph {scenario : Scenario} {state : State} :
    state ∈ scenario.targetGraph.explore ⟨∅, [scenario.initial]⟩ ↔
      Relation.ReflTransGen scenario.MovesTo scenario.initial state := by
  rw [TargetGraph.mem_explore, targetGraph_leads]

theorem mem_unreachableStates {scenario : Scenario} {state : State} :
    state ∈ scenario.unreachableStates ↔
      scenario.Declares state ∧
        ¬ Relation.ReflTransGen scenario.MovesTo scenario.initial state := by
  unfold unreachableStates
  simp only [List.mem_filter, decide_eq_true_eq]
  rw [OrderedMap.mem_keys, mem_explore_targetGraph]
  rfl

theorem unreachableStates_sorted (scenario : Scenario) :
    scenario.unreachableStates.Pairwise (· < ·) :=
  scenario.states.keys_sorted.filter _

/-- The moves declared in the states of a scenario. -/
def moveCount (scenario : Scenario) : Nat :=
  (scenario.states.entries.flatMap fun declared =>
    declared.2.entries.filterMap fun step => step.2.target).length

theorem work_targetGraph (scenario : Scenario) :
    scenario.targetGraph.work ⟨∅, [scenario.initial]⟩ = 1 + scenario.moveCount := by
  rw [TargetGraph.work_initial]
  change 1 + ∑ state ∈ scenario.states.keys.toFinset, (scenario.targets state).length = _
  rw [List.sum_toFinset _ scenario.states.keys_nodup, OrderedMap.keys, List.map_map, moveCount,
    List.length_flatMap]
  apply congrArg (1 + List.sum ·)
  apply List.map_congr_left
  rintro ⟨state, operations⟩ member
  simp only [Function.comp_apply, targets, OrderedMap.get_of_mem member]

/--
The work list is empty after at most one round more than there are declared
moves, and the states reported then are exactly the declared ones that the
initial state does not lead to, each once and in increasing order.
-/
theorem unreachableStates_exact (scenario : Scenario) :
    (∃ count reachable, count ≤ 1 + scenario.moveCount ∧
      scenario.targetGraph.rounds count ⟨∅, [scenario.initial]⟩ = some ⟨reachable, []⟩ ∧
      scenario.unreachableStates =
        scenario.states.keys.filter fun state => decide (state ∉ reachable)) ∧
    (∀ state, state ∈ scenario.unreachableStates ↔
      scenario.Declares state ∧
        ¬ Relation.ReflTransGen scenario.MovesTo scenario.initial state) ∧
    scenario.unreachableStates.Pairwise (· < ·) := by
  refine ⟨?_, fun state => mem_unreachableStates, scenario.unreachableStates_sorted⟩
  obtain ⟨count, within, ended⟩ :=
    scenario.targetGraph.rounds_to_explore ⟨∅, [scenario.initial]⟩
  exact ⟨count, _, scenario.work_targetGraph ▸ within, ended, rfl⟩

end Scenario

end SpecMock.Core
