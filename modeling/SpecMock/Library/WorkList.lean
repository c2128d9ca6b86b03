import Mathlib.Algebra.BigOperators.Group.Finset.Basic
import Mathlib.Algebra.Order.BigOperators.Group.Finset
import Mathlib.Logic.Relation

/-!
# Work lists

A finite graph is searched from a start node with a stack of nodes still to
visit.  A node may stand on the stack several times, and a target need not be a
node of the graph.  Every round takes one unit off a measure of the stack and
the nodes not yet visited, so the search ends; what it has visited then are the
nodes that the start leads to.
-/

namespace SpecMock.Library

/-- Targets of the nodes of a finite set; what is not in it leads nowhere. -/
structure TargetGraph (α : Type) where
  nodes : Finset α
  targets : α → List α
  outside : ∀ node, node ∉ nodes → targets node = []

/-- The nodes visited so far and those still to visit, the next one first. -/
structure Search (α : Type) where
  visited : Finset α
  frontier : List α

namespace TargetGraph

variable {α : Type}

/-- One node leads to another. -/
def Leads (graph : TargetGraph α) (node next : α) : Prop := next ∈ graph.targets node

/-- Everything visited or stacked comes from the start, and no target is forgotten. -/
structure Follows (graph : TargetGraph α) (start : α) (search : Search α) : Prop where
  sound : ∀ node, node ∈ search.visited ∨ node ∈ search.frontier →
    Relation.ReflTransGen graph.Leads start node
  start : start ∈ search.visited ∨ start ∈ search.frontier
  targets : ∀ node ∈ search.visited, ∀ next, graph.Leads node next →
    next ∈ search.visited ∨ next ∈ search.frontier

theorem follows_initial (graph : TargetGraph α) (start : α) :
    graph.Follows start ⟨∅, [start]⟩ where
  sound := by
    rintro node (visited | stacked)
    · exact absurd visited (Finset.notMem_empty node)
    · exact List.mem_singleton.mp stacked ▸ .refl
  start := .inr (List.mem_singleton_self start)
  targets := fun node visited => absurd visited (Finset.notMem_empty node)

/-- With nothing left to visit, the visited nodes are those the start leads to. -/
theorem Follows.visited_iff {graph : TargetGraph α} {start : α} {visited : Finset α}
    (follows : graph.Follows start ⟨visited, []⟩) {node : α} :
    node ∈ visited ↔ Relation.ReflTransGen graph.Leads start node := by
  constructor
  · exact fun seen => follows.sound node (.inl seen)
  · intro reached
    induction reached with
    | refl => exact follows.start.resolve_right List.not_mem_nil
    | tail _ leads ih => exact (follows.targets _ ih _ leads).resolve_right List.not_mem_nil

variable [DecidableEq α]

/-- One round: a node visited before is dropped, else its targets are stacked in their order. -/
def step (graph : TargetGraph α) (search : Search α) : Option (Search α) :=
  match search.frontier with
  | [] => none
  | node :: rest =>
      if node ∈ search.visited then some { search with frontier := rest }
      else some ⟨insert node search.visited, (graph.targets node).reverse ++ rest⟩

/-- Stacked nodes, and the targets that nodes not yet visited may still add. -/
def work (graph : TargetGraph α) (search : Search α) : Nat :=
  search.frontier.length + ∑ node ∈ graph.nodes \ search.visited, (graph.targets node).length

/-- What a round can do, and to what. -/
theorem step_cases {graph : TargetGraph α} {search after : Search α}
    (stepped : graph.step search = some after) :
    ∃ node rest, search.frontier = node :: rest ∧
      (node ∈ search.visited ∧ after = ⟨search.visited, rest⟩ ∨
        node ∉ search.visited ∧
          after = ⟨insert node search.visited, (graph.targets node).reverse ++ rest⟩) := by
  unfold step at stepped
  cases stacked : search.frontier with
  | nil => simp [stacked] at stepped
  | cons node rest =>
      refine ⟨node, rest, rfl, ?_⟩
      simp only [stacked] at stepped
      split at stepped
      next before => exact .inl ⟨before, (Option.some.inj stepped).symm⟩
      next fresh => exact .inr ⟨fresh, (Option.some.inj stepped).symm⟩

theorem step_eq_none {graph : TargetGraph α} {search : Search α} :
    graph.step search = none ↔ search.frontier = [] := by
  unfold step
  cases search.frontier with
  | nil => simp
  | cons node rest => simp only [reduceCtorEq, iff_false]; split <;> simp

/-- The targets of a node are taken out of what may be added once it is visited. -/
theorem sum_targets_insert (graph : TargetGraph α) {visited : Finset α} {node : α}
    (fresh : node ∉ visited) :
    ∑ other ∈ graph.nodes \ visited, (graph.targets other).length =
      (graph.targets node).length +
        ∑ other ∈ graph.nodes \ insert node visited, (graph.targets other).length := by
  by_cases inside : node ∈ graph.nodes
  · have member : node ∈ graph.nodes \ visited := Finset.mem_sdiff.mpr ⟨inside, fresh⟩
    rw [Finset.sdiff_insert]
    exact (Finset.add_sum_erase _ (fun other => (graph.targets other).length) member).symm
  · have unchanged : graph.nodes \ insert node visited = graph.nodes \ visited := by
      rw [Finset.sdiff_insert, Finset.erase_eq_of_notMem]
      exact fun member => inside (Finset.mem_sdiff.mp member).1
    rw [unchanged, graph.outside node inside, List.length_nil, Nat.zero_add]

/-- Every round takes exactly one unit of work. -/
theorem work_step {graph : TargetGraph α} {search after : Search α}
    (stepped : graph.step search = some after) : graph.work search = graph.work after + 1 := by
  obtain ⟨node, rest, stacked, ⟨_, rfl⟩ | ⟨fresh, rfl⟩⟩ := step_cases stepped
  · simp only [work, stacked, List.length_cons]
    omega
  · simp only [work, stacked, List.length_cons, List.length_append, List.length_reverse,
      graph.sum_targets_insert fresh]
    omega

/-- Search until no node is left to visit. -/
def explore (graph : TargetGraph α) (search : Search α) : Finset α :=
  match _stepped : graph.step search with
  | none => search.visited
  | some after => graph.explore after
termination_by graph.work search
decreasing_by
  have spent := work_step _stepped
  omega

/-- The search after a number of rounds, none if it ended before. -/
def rounds (graph : TargetGraph α) : Nat → Search α → Option (Search α)
  | 0, search => some search
  | count + 1, search => (graph.step search).bind (graph.rounds count)

/-- The search ends within its work, and what it has visited then is the result. -/
theorem rounds_to_explore (graph : TargetGraph α) (search : Search α) :
    ∃ count ≤ graph.work search,
      graph.rounds count search = some ⟨graph.explore search, []⟩ := by
  induction search using @explore.induct α _ graph with
  | case1 search ended =>
      refine ⟨0, Nat.zero_le _, ?_⟩
      rw [explore, rounds]
      split
      next => rw [← step_eq_none.mp ended]
      next after stepped => rw [ended] at stepped; cases stepped
  | case2 search after stepped ih =>
      obtain ⟨count, within, reached⟩ := ih
      refine ⟨count + 1, ?_, ?_⟩
      · have spent := work_step stepped
        omega
      · rw [explore, rounds, stepped, Option.bind_some, reached]

theorem Follows.step {graph : TargetGraph α} {start : α} {search after : Search α}
    (follows : graph.Follows start search) (stepped : graph.step search = some after) :
    graph.Follows start after := by
  obtain ⟨visited, frontier⟩ := search
  obtain ⟨node, rest, stacked, ⟨before, rfl⟩ | ⟨fresh, rfl⟩⟩ := step_cases stepped
  · -- A node visited before leaves the stack and nothing else changes.
    dsimp only at stacked before
    subst stacked
    have kept : ∀ other, other ∈ visited ∨ other ∈ node :: rest →
        other ∈ visited ∨ other ∈ rest := by
      rintro other (seen | there)
      · exact .inl seen
      · rcases List.mem_cons.mp there with rfl | later
        · exact .inl before
        · exact .inr later
    exact
      { sound := fun other member =>
          follows.sound other (member.imp_right (List.mem_cons_of_mem node))
        start := kept start follows.start
        targets := fun other seen next leads => kept next (follows.targets other seen next leads) }
  · dsimp only at stacked fresh ⊢
    subst stacked
    have reached : Relation.ReflTransGen graph.Leads start node :=
      follows.sound node (.inr List.mem_cons_self)
    have kept : ∀ other, other ∈ visited ∨ other ∈ node :: rest →
        other ∈ insert node visited ∨ other ∈ (graph.targets node).reverse ++ rest := by
      rintro other (seen | there)
      · exact .inl (Finset.mem_insert_of_mem seen)
      · rcases List.mem_cons.mp there with rfl | later
        · exact .inl (Finset.mem_insert_self _ _)
        · exact .inr (List.mem_append_right _ later)
    refine ⟨?_, kept start follows.start, ?_⟩
    · rintro other (seen | there)
      · rcases Finset.mem_insert.mp seen with rfl | earlier
        · exact reached
        · exact follows.sound other (.inl earlier)
      · rcases List.mem_append.mp there with added | later
        · exact reached.tail (List.mem_reverse.mp added)
        · exact follows.sound other (.inr (List.mem_cons_of_mem node later))
    · intro other seen next leads
      rcases Finset.mem_insert.mp seen with rfl | earlier
      · exact .inr (List.mem_append_left _ (List.mem_reverse.mpr leads))
      · exact kept next (follows.targets other earlier next leads)

theorem Follows.rounds {graph : TargetGraph α} {start : α} {count : Nat}
    {search after : Search α} (follows : graph.Follows start search)
    (ran : graph.rounds count search = some after) : graph.Follows start after := by
  induction count generalizing search with
  | zero => exact Option.some.inj ran ▸ follows
  | succ count ih =>
      obtain ⟨middle, stepped, rest⟩ := Option.bind_eq_some_iff.mp ran
      exact ih (follows.step stepped) rest

/-- A search from a start node visits exactly what the start leads to. -/
theorem mem_explore {graph : TargetGraph α} {start node : α} :
    node ∈ graph.explore ⟨∅, [start]⟩ ↔ Relation.ReflTransGen graph.Leads start node := by
  obtain ⟨count, _, ran⟩ := graph.rounds_to_explore ⟨∅, [start]⟩
  exact ((graph.follows_initial start).rounds ran).visited_iff

/-- A search from a start node takes at most one round more than the graph has targets. -/
theorem work_initial (graph : TargetGraph α) (start : α) :
    graph.work ⟨∅, [start]⟩ = 1 + ∑ node ∈ graph.nodes, (graph.targets node).length := by
  simp [work]

end TargetGraph

end SpecMock.Library
