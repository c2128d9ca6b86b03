import Mathlib.Data.List.Basic

/-!
# Systems that move

A system takes one labelled move at a time; a move that cannot be taken in a
state gives none.  Besides its runs, this module has the two arguments used
about them: what every move keeps holds after every run, and a system in which
each internal move lowers a rank and one is possible until the work is done
comes to an end whatever has happened before.
-/

namespace SpecMock.Library

section Moves

variable {σ μ : Type}

/-- Take the moves of a list, if each can be taken where it stands. -/
def runMoves (step : σ → μ → Option σ) : σ → List μ → Option σ
  | state, [] => some state
  | state, move :: rest =>
      match step state move with
      | none => none
      | some next => runMoves step next rest

/-- Some moves lead from the one state to the other. -/
def Reaches (step : σ → μ → Option σ) (first last : σ) : Prop :=
  ∃ moves, runMoves step first moves = some last

variable {step : σ → μ → Option σ}

theorem runMoves_cons_eq_some {first last : σ} {move : μ} {rest : List μ} :
    runMoves step first (move :: rest) = some last ↔
      ∃ middle, step first move = some middle ∧ runMoves step middle rest = some last := by
  rw [runMoves]
  cases step first move <;> simp

/-- What every move keeps holds after every run. -/
theorem runMoves_invariant (invariant : σ → Prop)
    (kept : ∀ {state next : σ} {move : μ}, invariant state → step state move = some next →
      invariant next)
    {first last : σ} {moves : List μ} (initial : invariant first)
    (ran : runMoves step first moves = some last) : invariant last := by
  induction moves generalizing first with
  | nil =>
      cases ran
      exact initial
  | cons move rest ih =>
      obtain ⟨middle, stepped, later⟩ := runMoves_cons_eq_some.mp ran
      exact ih (kept initial stepped) later

theorem Reaches.invariant {invariant : σ → Prop} {first last : σ}
    (reaches : Reaches step first last) (initial : invariant first)
    (kept : ∀ {state next : σ} {move : μ}, invariant state → step state move = some next →
      invariant next) : invariant last :=
  reaches.elim fun _ ran => runMoves_invariant invariant kept initial ran

/--
Internal moves lower a rank wherever the invariant holds, and one of them is
possible until the state is finished.
-/
structure Progress (step : σ → μ → Option σ) (internal : μ → Prop)
    (invariant finished : σ → Prop) (rank : σ → Nat) : Prop where
  kept : ∀ {state next : σ} {move : μ}, invariant state → step state move = some next →
    invariant next
  falls : ∀ {state next : σ} {move : μ}, invariant state → internal move →
    step state move = some next → rank next < rank state
  moves : ∀ {state : σ}, invariant state → ¬ finished state →
    ∃ move, internal move ∧ (step state move).isSome = true

namespace Progress

variable {internal : μ → Prop} {invariant finished : σ → Prop} {rank : σ → Nat}

/-- A run of internal moves is no longer than the rank allows. -/
theorem length_le (progress : Progress step internal invariant finished rank)
    {first last : σ} {moves : List μ} (initial : invariant first)
    (inside : ∀ move ∈ moves, internal move) (ran : runMoves step first moves = some last) :
    moves.length + rank last ≤ rank first := by
  induction moves generalizing first with
  | nil =>
      cases ran
      simp
  | cons move rest ih =>
      obtain ⟨middle, stepped, later⟩ := runMoves_cons_eq_some.mp ran
      obtain ⟨here, others⟩ := List.forall_mem_cons.mp inside
      have below := progress.falls initial here stepped
      have remaining := ih (progress.kept initial stepped) others later
      rw [List.length_cons]
      omega

/-- Where no internal move is left, the work is finished. -/
theorem finished_of_stuck (progress : Progress step internal invariant finished rank)
    {state : σ} (holds : invariant state)
    (stuck : ∀ move, internal move → step state move = none) : finished state := by
  by_contra unfinished
  obtain ⟨move, inside, possible⟩ := progress.moves holds unfinished
  rw [stuck move inside] at possible
  cases possible

end Progress

end Moves

end SpecMock.Library
