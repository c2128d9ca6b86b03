import Mathlib.Data.List.Basic

/-!
# Machines that answer calls

A machine takes one call at a time, answers it and moves to its next state.
This module has its finite runs, the trace of calls with their answers, and the
inductions used about them: what every call keeps holds after every run, also
together with a history read off the trace; a machine whose calls are matched
one by one by those of another gives the same answers over every run; and a
part of the state that only some calls concern is run by these calls alone.
-/

namespace SpecMock.Library

section Runs

variable {σ ι ρ : Type}

/-- State and answers after the calls of a list. -/
def runCalls (exec : σ → ι → σ × ρ) : σ → List ι → σ × List ρ
  | state, [] => (state, [])
  | state, call :: rest =>
      let result := exec state call
      let others := runCalls exec result.1 rest
      (others.1, result.2 :: others.2)

/-- State after the calls of a list. -/
abbrev stateAfter (exec : σ → ι → σ × ρ) (state : σ) (calls : List ι) : σ :=
  (runCalls exec state calls).1

/-- Answers to the calls of a list. -/
abbrev answers (exec : σ → ι → σ × ρ) (state : σ) (calls : List ι) : List ρ :=
  (runCalls exec state calls).2

variable {exec : σ → ι → σ × ρ}

@[simp]
theorem stateAfter_nil (state : σ) : stateAfter exec state [] = state := rfl

@[simp]
theorem stateAfter_cons (state : σ) (call : ι) (rest : List ι) :
    stateAfter exec state (call :: rest) = stateAfter exec (exec state call).1 rest := rfl

theorem answers_cons (state : σ) (call : ι) (rest : List ι) :
    answers exec state (call :: rest) =
      (exec state call).2 :: answers exec (exec state call).1 rest := rfl

theorem stateAfter_append (state : σ) (before after : List ι) :
    stateAfter exec state (before ++ after) =
      stateAfter exec (stateAfter exec state before) after := by
  induction before generalizing state with
  | nil => rfl
  | cons call rest ih => exact ih _

/-- The calls of a run, each with its answer. -/
def trace (exec : σ → ι → σ × ρ) : σ → List ι → List (ι × ρ)
  | _, [] => []
  | state, call :: rest =>
      (call, (exec state call).2) :: trace exec (exec state call).1 rest

/-- An event of a run is a call with the answer that it gets where it is made. -/
theorem exists_of_mem_trace {state : σ} {calls : List ι} {event : ι × ρ}
    (member : event ∈ trace exec state calls) :
    ∃ before after, calls = before ++ event.1 :: after ∧
      event.2 = (exec (stateAfter exec state before) event.1).2 := by
  induction calls generalizing state with
  | nil => cases member
  | cons call rest ih =>
      rcases List.mem_cons.mp member with rfl | later
      · exact ⟨[], rest, rfl, rfl⟩
      · obtain ⟨before, after, rfl, answered⟩ := ih later
        exact ⟨call :: before, after, rfl, answered⟩

/-- The calls of a run, each with the state it is made in. -/
def visits (exec : σ → ι → σ × ρ) : σ → List ι → List (σ × ι)
  | _, [] => []
  | state, call :: rest => (state, call) :: visits exec (exec state call).1 rest

theorem visits_calls (state : σ) (calls : List ι) :
    (visits exec state calls).map Prod.snd = calls := by
  induction calls generalizing state with
  | nil => rfl
  | cons call rest ih => exact congrArg (call :: ·) (ih _)

/-- A visit divides its run into the calls before it and after it. -/
theorem split_of_mem_visits {state : σ} {calls : List ι} {visit : σ × ι}
    (member : visit ∈ visits exec state calls) :
    ∃ before after, calls = before ++ visit.2 :: after ∧
      visit.1 = stateAfter exec state before := by
  induction calls generalizing state with
  | nil => cases member
  | cons call rest ih =>
      rcases List.mem_cons.mp member with rfl | later
      · exact ⟨[], rest, rfl, rfl⟩
      · obtain ⟨before, after, rfl, reached⟩ := ih later
        exact ⟨call :: before, after, rfl, reached⟩

/-- What is required of the calls of a run alone. -/
theorem forall_visits_call {required : ι → Prop} {state : σ} {calls : List ι} :
    (∀ visit ∈ visits exec state calls, required visit.2) ↔ ∀ call ∈ calls, required call := by
  rw [← List.forall_mem_map (P := required), visits_calls]

/-- What every call keeps holds wherever a call of a run is made. -/
theorem visits_invariant (invariant : σ → Prop)
    (kept : ∀ state call, invariant state → invariant (exec state call).1)
    {state : σ} (initial : invariant state) (calls : List ι) :
    ∀ visit ∈ visits exec state calls, invariant visit.1 := by
  induction calls generalizing state with
  | nil => exact fun visit member => nomatch member
  | cons call rest ih => exact List.forall_mem_cons.mpr ⟨initial, ih (kept state call initial)⟩

/-- Two requirements that agree wherever the invariant holds agree on whole runs. -/
theorem forall_visits_congr (invariant : σ → Prop) (required demanded : σ → ι → Prop)
    (kept : ∀ state call, invariant state → invariant (exec state call).1)
    (same : ∀ state call, invariant state → (required state call ↔ demanded state call))
    {state : σ} (initial : invariant state) (calls : List ι) :
    (∀ visit ∈ visits exec state calls, required visit.1 visit.2) ↔
      ∀ visit ∈ visits exec state calls, demanded visit.1 visit.2 := by
  have holds := visits_invariant invariant kept initial calls
  constructor
  · intro met visit member
    exact (same _ _ (holds visit member)).mp (met visit member)
  · intro met visit member
    exact (same _ _ (holds visit member)).mpr (met visit member)

/-- What every call with a permitted answer keeps holds after a run of such calls. -/
theorem stateAfter_trace_invariant (invariant : σ → Prop) {permitted : ι × ρ → Prop}
    (kept : ∀ state call, invariant state → permitted (call, (exec state call).2) →
      invariant (exec state call).1)
    {state : σ} (initial : invariant state) {calls : List ι}
    (events : ∀ event ∈ trace exec state calls, permitted event) :
    invariant (stateAfter exec state calls) := by
  induction calls generalizing state with
  | nil => exact initial
  | cons call rest ih =>
      obtain ⟨here, later⟩ := List.forall_mem_cons.mp events
      exact ih (kept state call initial here) later

/-- What every call keeps, with a history of the trace, holds after every run. -/
theorem stateAfter_history {γ : Type} (invariant : σ → γ → Prop) {record : γ → ι × ρ → γ}
    (kept : ∀ state history call, invariant state history →
      invariant (exec state call).1 (record history (call, (exec state call).2)))
    {state : σ} {history : γ} (initial : invariant state history) (calls : List ι) :
    invariant (stateAfter exec state calls) ((trace exec state calls).foldl record history) := by
  induction calls generalizing state history with
  | nil => exact initial
  | cons call rest ih => exact ih (kept state history call initial)

/-- What every call keeps holds after every run. -/
theorem stateAfter_invariant (invariant : σ → Prop)
    (kept : ∀ state call, invariant state → invariant (exec state call).1)
    {state : σ} (initial : invariant state) (calls : List ι) :
    invariant (stateAfter exec state calls) := by
  induction calls generalizing state with
  | nil => exact initial
  | cons call rest ih => exact ih (kept state call initial)

end Runs

section Simulation

variable {σ τ ι ρ : Type} {exec : σ → ι → σ × ρ} {model : τ → ι → τ × ρ}

/--
Two machines in related states that answer every permitted call alike and stay
related answer every run of such calls alike and end related.
-/
theorem simulation_on {related : σ → τ → Prop} {permitted : ι → Prop}
    (matched : ∀ state shadow call, permitted call → related state shadow →
      (exec state call).2 = (model shadow call).2 ∧
        related (exec state call).1 (model shadow call).1)
    {state : σ} {shadow : τ} (initial : related state shadow) {calls : List ι}
    (allowed : ∀ call ∈ calls, permitted call) :
    answers exec state calls = answers model shadow calls ∧
      related (stateAfter exec state calls) (stateAfter model shadow calls) := by
  induction calls generalizing state shadow with
  | nil => exact ⟨rfl, initial⟩
  | cons call rest ih =>
      obtain ⟨here, later⟩ := List.forall_mem_cons.mp allowed
      obtain ⟨sameAnswer, stillRelated⟩ := matched state shadow call here initial
      obtain ⟨sameAnswers, finallyRelated⟩ := ih stillRelated later
      exact ⟨congrArg₂ List.cons sameAnswer sameAnswers, finallyRelated⟩

/-- Machines that answer every call alike and stay related. -/
theorem simulation {related : σ → τ → Prop}
    (matched : ∀ state shadow call, related state shadow →
      (exec state call).2 = (model shadow call).2 ∧
        related (exec state call).1 (model shadow call).1)
    {state : σ} {shadow : τ} (initial : related state shadow) (calls : List ι) :
    answers exec state calls = answers model shadow calls ∧
      related (stateAfter exec state calls) (stateAfter model shadow calls) :=
  simulation_on (fun state shadow call _ => matched state shadow call) initial
    fun _ _ => trivial

end Simulation

section Shadow

variable {σ ι ρ τ : Type} {exec : σ → ι → σ × ρ} {shadow : σ → ι → σ × τ}

/--
A machine that moves as another one does on every permitted call, and answers
it as the other answer allows, does so over every run of such calls.
-/
theorem run_shadowed {told : ι → ρ → τ → Prop} {permitted : ι → Prop}
    (follows : ∀ state call, permitted call → (shadow state call).1 = (exec state call).1 ∧
      told call (exec state call).2 (shadow state call).2)
    (state : σ) {calls : List ι} (allowed : ∀ call ∈ calls, permitted call) :
    stateAfter shadow state calls = stateAfter exec state calls ∧
      List.Forall₂ (fun event answer => told event.1 event.2 answer) (trace exec state calls)
        (answers shadow state calls) := by
  induction calls generalizing state with
  | nil => exact ⟨rfl, .nil⟩
  | cons call rest ih =>
      obtain ⟨here, later⟩ := List.forall_mem_cons.mp allowed
      obtain ⟨moved, answered⟩ := follows state call here
      obtain ⟨ends, others⟩ := ih (exec state call).1 later
      rw [stateAfter_cons, answers_cons, moved]
      exact ⟨ends, .cons answered others⟩

end Shadow

section Projection

variable {σ τ ι ρ : Type} {exec : σ → ι → σ × ρ} {part : τ → ι → τ × ρ}

/--
If the calls that concern a part of the state are answered from that part
alone, and the other calls leave it as it is, then a run does to the part, and
answers to the calls that concern it, what these calls do without the others.
-/
theorem projection (view : σ → τ) {concerns : ι → Bool} {invariant : σ → Prop}
    {permitted : ι × ρ → Prop}
    (kept : ∀ state call, invariant state → invariant (exec state call).1)
    (inside : ∀ state call, invariant state → concerns call = true →
      permitted (call, (exec state call).2) →
      (view (exec state call).1, (exec state call).2) = part (view state) call)
    (outside : ∀ state call, invariant state → concerns call = false →
      permitted (call, (exec state call).2) → view (exec state call).1 = view state)
    {state : σ} (initial : invariant state) {calls : List ι}
    (events : ∀ event ∈ trace exec state calls, permitted event) :
    view (stateAfter exec state calls) =
        stateAfter part (view state) (calls.filter concerns) ∧
      (trace exec state calls).filter (fun event => concerns event.1) =
        trace part (view state) (calls.filter concerns) := by
  induction calls generalizing state with
  | nil => exact ⟨rfl, rfl⟩
  | cons call rest ih =>
      obtain ⟨here, later⟩ := List.forall_mem_cons.mp events
      obtain ⟨sameView, sameAnswers⟩ := ih (kept state call initial) later
      cases concerned : concerns call with
      | true =>
          have stepped := inside state call initial concerned here
          have stepView := congrArg Prod.fst stepped
          have stepAnswer := congrArg Prod.snd stepped
          dsimp only at stepView stepAnswer
          rw [List.filter_cons_of_pos concerned]
          constructor
          · rw [stateAfter_cons, stateAfter_cons, sameView, stepView]
          · rw [trace, trace, List.filter_cons_of_pos (by simpa using concerned), sameAnswers,
              stepView, stepAnswer]
      | false =>
          have skipped : ¬ concerns call = true := by simp [concerned]
          have unchanged := outside state call initial concerned here
          rw [List.filter_cons_of_neg skipped]
          constructor
          · rw [stateAfter_cons, sameView, unchanged]
          · rw [trace, List.filter_cons_of_neg (by simpa using concerned), sameAnswers, unchanged]

end Projection

section Erasure

variable {σ ι κ ρ τ : Type} {exec : σ → ι → σ × ρ} {inner : σ → κ → σ × τ}

/-- Calls that come to calls of another machine, or to nothing, are run by that machine. -/
theorem stateAfter_erased {effect : ι → Option κ} {told : ρ → Option τ}
    (acts : ∀ state call other, effect call = some other →
      (exec state call).1 = (inner state other).1 ∧
        told (exec state call).2 = some (inner state other).2)
    (idles : ∀ state call, effect call = none →
      (exec state call).1 = state ∧ told (exec state call).2 = none)
    (state : σ) (calls : List ι) :
    stateAfter exec state calls = stateAfter inner state (calls.filterMap effect) ∧
      (answers exec state calls).filterMap told =
        answers inner state (calls.filterMap effect) := by
  induction calls generalizing state with
  | nil => exact ⟨rfl, rfl⟩
  | cons call rest ih =>
      obtain ⟨later, told'⟩ := ih (exec state call).1
      rw [stateAfter_cons, answers_cons]
      cases comes : effect call with
      | some other =>
          obtain ⟨moved, answered⟩ := acts state call other comes
          rw [List.filterMap_cons_some comes, List.filterMap_cons_some answered, later, told',
            moved]
          exact ⟨rfl, rfl⟩
      | none =>
          obtain ⟨still, silent⟩ := idles state call comes
          rw [List.filterMap_cons_none comes, List.filterMap_cons_none silent, later, told', still]
          exact ⟨rfl, rfl⟩

end Erasure

end SpecMock.Library
