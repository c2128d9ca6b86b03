import Mathlib.Data.List.Basic

/-!
# Interleaved calls

A pool holds one shared state and finitely many calls in progress.  Each call
is a sequential program given by its next atomic step: from the call's own
position and the shared state to the position after the step and the new
shared state, or `none` once the call has returned.  A run takes the steps of
the calls in an arbitrary order.
-/

namespace SpecMock.Library

/-- One shared state and the calls working on it. -/
structure Pool (σ τ : Type) where
  shared : σ
  calls : List τ
  deriving DecidableEq

namespace Pool

variable {σ τ : Type}

/-- One atomic step of call number `index`. -/
def step (next : τ → σ → Option (τ × σ)) (pool : Pool σ τ) (index : Nat) :
    Option (Pool σ τ) :=
  match pool.calls[index]? with
  | none => none
  | some call =>
      match next call pool.shared with
      | none => none
      | some (after, shared) => some ⟨shared, pool.calls.set index after⟩

/-- A step names the call that moved, where it stood and where it went. -/
theorem step_cases {next : τ → σ → Option (τ × σ)} {pool last : Pool σ τ}
    {index : Nat} (stepped : pool.step next index = some last) :
    ∃ call after shared, pool.calls[index]? = some call ∧
      next call pool.shared = some (after, shared) ∧
      last = ⟨shared, pool.calls.set index after⟩ := by
  unfold step at stepped
  cases located : pool.calls[index]? with
  | none => simp [located] at stepped
  | some call =>
      cases moved : next call pool.shared with
      | none => simp [located, moved] at stepped
      | some result =>
          obtain ⟨after, shared⟩ := result
          simp only [located, moved, Option.some.injEq] at stepped
          exact ⟨call, after, shared, rfl, moved, stepped.symm⟩

/--
Take the steps of a schedule, one call number after the other, as long as each
is permitted where it is taken.
-/
def follow (next : τ → σ → Option (τ × σ)) (allowed : Pool σ τ → Nat → Prop)
    [∀ pool index, Decidable (allowed pool index)] :
    Pool σ τ → List Nat → Option (Pool σ τ)
  | pool, [] => some pool
  | pool, index :: rest =>
      if allowed pool index then
        match pool.step next index with
        | none => none
        | some middle => follow next allowed middle rest
      else none

/--
Runs in which every step is permitted in the pool where it is taken.  The runs
of all interleavings are those with `allowed` constantly true.
-/
inductive Run (next : τ → σ → Option (τ × σ)) (allowed : Pool σ τ → Nat → Prop) :
    Pool σ τ → Pool σ τ → Prop where
  | refl (pool : Pool σ τ) : Run next allowed pool pool
  | tail {first middle last : Pool σ τ} {index : Nat}
      (before : Run next allowed first middle)
      (permitted : allowed middle index)
      (stepped : middle.step next index = some last) :
      Run next allowed first last

/-- Runs without any restriction on their steps. -/
abbrev FreeRun (next : τ → σ → Option (τ × σ)) : Pool σ τ → Pool σ τ → Prop :=
  Run next fun _ _ => True

namespace Run

variable {next : τ → σ → Option (τ × σ)} {allowed : Pool σ τ → Nat → Prop}

/-- What holds at the start and is kept by every permitted step holds at the end. -/
theorem preserves (invariant : Pool σ τ → Prop)
    (kept : ∀ {pool last : Pool σ τ} {index : Nat}, invariant pool →
      allowed pool index → pool.step next index = some last → invariant last)
    {first last : Pool σ τ} (run : Run next allowed first last)
    (initial : invariant first) : invariant last := by
  induction run with
  | refl => exact initial
  | tail before permitted stepped ih => exact kept ih permitted stepped

theorem trans {first middle last : Pool σ τ}
    (before : Run next allowed first middle)
    (after : Run next allowed middle last) : Run next allowed first last := by
  induction after with
  | refl => exact before
  | tail _ permitted stepped ih => exact ih.tail permitted stepped

/-- A permitted run is in particular an interleaving. -/
theorem free {first last : Pool σ τ} (run : Run next allowed first last) :
    FreeRun next first last := by
  induction run with
  | refl => exact .refl _
  | tail _ _ stepped ih => exact ih.tail trivial stepped

/-- A run is empty or starts with a step. -/
theorem head_cases {first last : Pool σ τ} (run : Run next allowed first last) :
    first = last ∨ ∃ index middle, first.step next index = some middle ∧
      Run next allowed middle last := by
  induction run with
  | refl => exact .inl rfl
  | tail _ permitted stepped ih =>
      rcases ih with rfl | ⟨index, middle, moved, rest⟩
      · exact .inr ⟨_, _, stepped, .refl _⟩
      · exact .inr ⟨index, middle, moved, rest.tail permitted stepped⟩

end Run

/-- Following a schedule is one of the runs. -/
theorem run_of_follow {next : τ → σ → Option (τ × σ)} {allowed : Pool σ τ → Nat → Prop}
    [∀ pool index, Decidable (allowed pool index)] {pool last : Pool σ τ}
    (schedule : List Nat) (followed : pool.follow next allowed schedule = some last) :
    Run next allowed pool last := by
  induction schedule generalizing pool with
  | nil =>
      cases followed
      exact .refl _
  | cons index rest ih =>
      unfold follow at followed
      split at followed
      next permitted =>
        cases stepped : pool.step next index with
        | none => simp [stepped] at followed
        | some middle =>
            rw [stepped] at followed
            exact ((Run.refl pool).tail permitted stepped).trans (ih followed)
      next => cases followed

/-- A schedule that can be followed to its end reaches the pool it computes. -/
theorem exists_run_of_follow {next : τ → σ → Option (τ × σ)} {allowed : Pool σ τ → Nat → Prop}
    [∀ pool index, Decidable (allowed pool index)] {pool : Pool σ τ} {goal : Pool σ τ → Bool}
    (schedule : List Nat) (followed : (pool.follow next allowed schedule).any goal = true) :
    ∃ last, Run next allowed pool last ∧ goal last = true := by
  obtain ⟨last, reached, meets⟩ := (Option.any_eq_true _ _).mp followed
  exact ⟨last, run_of_follow schedule reached, meets⟩

/-- A call that can move does, and the others stand still. -/
theorem exists_run_of_next {next : τ → σ → Option (τ × σ)} {pool : Pool σ τ} {index : Nat}
    {call after : τ} {shared : σ} (located : pool.calls[index]? = some call)
    (moved : next call pool.shared = some (after, shared)) :
    ∃ last, FreeRun next pool last ∧ last.shared = shared ∧ last.calls[index]? = some after ∧
      ∀ (place : Nat) (other : τ), place ≠ index → pool.calls[place]? = some other →
        last.calls[place]? = some other := by
  have stepped : pool.step next index = some ⟨shared, pool.calls.set index after⟩ := by
    simp only [step, located, moved]
  refine ⟨_, (Run.refl pool).tail trivial stepped, rfl, ?_, fun place other apart elsewhere => ?_⟩
  · exact List.getElem?_set_self (List.getElem?_eq_some_iff.mp located).1
  · exact (List.getElem?_set_ne apart.symm).trans elsewhere

/-- Steps of a pool with a single call are steps of that call. -/
theorem step_singleton {next : τ → σ → Option (τ × σ)} {shared : σ} {call : τ}
    {last : Pool σ τ} {index : Nat} (stepped : step next ⟨shared, [call]⟩ index = some last) :
    ∃ after result, next call shared = some (after, result) ∧ last = ⟨result, [after]⟩ := by
  obtain ⟨other, after, result, located, moved, rfl⟩ := step_cases stepped
  cases index with
  | zero =>
      cases located
      exact ⟨after, result, moved, rfl⟩
  | succ index => simp at located

/-- What holds of the position reached and of all other calls holds of every call. -/
theorem forall_calls_set {calls : List τ} {index : Nat} {after : τ} {holds : τ → Prop}
    (reached : holds after)
    (others : ∀ place call, place ≠ index → calls[place]? = some call → holds call) :
    ∀ call ∈ calls.set index after, holds call := by
  intro call member
  obtain ⟨place, located⟩ := List.mem_iff_getElem?.mp member
  rw [List.getElem?_set] at located
  split at located
  · split at located
    · cases located
      exact reached
    · cases located
  next other => exact others place call (fun same => other same.symm) located

/-- What a step keeps of the call that moved, it keeps of all calls. -/
theorem map_calls_set {α : Type} {calls : List τ} {index : Nat} {call after : τ} {kept : τ → α}
    (located : calls[index]? = some call) (same : kept after = kept call) :
    (calls.set index after).map kept = calls.map kept := by
  induction calls generalizing index with
  | nil => rfl
  | cons first rest ih =>
      cases index with
      | zero =>
          cases located
          rw [List.set_cons_zero, List.map_cons, List.map_cons, same]
      | succ index => rw [List.set_cons_succ, List.map_cons, List.map_cons, ih located]

/-- A call that runs alone stays alone. -/
theorem Run.singleton {next : τ → σ → Option (τ × σ)} {shared : σ} {call : τ}
    {last : Pool σ τ} (run : FreeRun next ⟨shared, [call]⟩ last) :
    ∃ result after, last = ⟨result, [after]⟩ := by
  induction run with
  | refl => exact ⟨shared, call, rfl⟩
  | tail _ _ stepped ih =>
      obtain ⟨result, after, rfl⟩ := ih
      obtain ⟨position, shared', _, rfl⟩ := step_singleton stepped
      exact ⟨shared', position, rfl⟩

/--
A call alone has one run: a run to a pool where it is finished passes through
every other pool it can reach.
-/
theorem Run.reaches_finished {next : τ → σ → Option (τ × σ)} {shared : σ} {call : τ}
    {middle last : Pool σ τ} (run : FreeRun next ⟨shared, [call]⟩ middle)
    (finishing : FreeRun next ⟨shared, [call]⟩ last)
    (finished : ∀ index, last.step next index = none) : FreeRun next middle last := by
  induction run with
  | refl => exact finishing
  | @tail middle after index before _ stepped ih =>
      obtain ⟨result, position, rfl⟩ := before.singleton
      rcases ih.head_cases with rfl | ⟨other, ahead, moved, rest⟩
      · rw [finished index] at stepped
        cases stepped
      · obtain ⟨_, _, moves, rfl⟩ := step_singleton stepped
        obtain ⟨_, _, moves', rfl⟩ := step_singleton moved
        rw [moves] at moves'
        cases moves'
        exact rest

/-- The step of one call among others. -/
theorem step_beside {next : τ → σ → Option (τ × σ)} {shared result : σ} {call after : τ}
    (before rest : List τ) (moved : next call shared = some (after, result)) :
    step next ⟨shared, before ++ call :: rest⟩ before.length =
      some ⟨result, before ++ after :: rest⟩ := by
  simp [step, moved]

/-- What a call does alone, it can do beside others that stand still. -/
theorem Run.beside {next : τ → σ → Option (τ × σ)} {shared result : σ} {call after : τ}
    (before rest : List τ) (run : FreeRun next ⟨shared, [call]⟩ ⟨result, [after]⟩) :
    FreeRun next ⟨shared, before ++ call :: rest⟩ ⟨result, before ++ after :: rest⟩ := by
  generalize reached : (⟨result, [after]⟩ : Pool σ τ) = last at run
  induction run generalizing result after with
  | refl =>
      cases reached
      exact .refl _
  | tail earlier _ stepped ih =>
      obtain ⟨middle, position, rfl⟩ := earlier.singleton
      obtain ⟨_, _, moved, same⟩ := step_singleton stepped
      cases reached.trans same
      exact (ih rfl).tail trivial (step_beside before rest moved)

/-- What a call does alone, it can do at its place in a pool. -/
theorem Run.placed {next : τ → σ → Option (τ × σ)} {pool : Pool σ τ} {result : σ}
    {call after : τ} {index : Nat} (located : pool.calls[index]? = some call)
    (run : FreeRun next ⟨pool.shared, [call]⟩ ⟨result, [after]⟩) :
    FreeRun next pool ⟨result, pool.calls.set index after⟩ := by
  obtain ⟨shared, calls⟩ := pool
  obtain ⟨inside, rfl⟩ := List.getElem?_eq_some_iff.mp located
  have others := run.beside (calls.take index) (calls.drop (index + 1))
  rw [List.getElem_cons_drop, List.take_append_drop] at others
  rwa [List.set_eq_take_append_cons_drop, if_pos inside]

/-- The finished pools a call alone can reach are one. -/
theorem Run.finished_unique {next : τ → σ → Option (τ × σ)} {shared : σ} {call : τ}
    {first last : Pool σ τ} (run : FreeRun next ⟨shared, [call]⟩ first)
    (other : FreeRun next ⟨shared, [call]⟩ last)
    (stopped : ∀ index, first.step next index = none)
    (finished : ∀ index, last.step next index = none) : first = last := by
  rcases (run.reaches_finished other finished).head_cases with same | ⟨_, _, moved, _⟩
  · exact same
  · rw [stopped] at moved
    cases moved

/-- Number of calls whose position satisfies `test`. -/
def occurs (pool : Pool σ τ) (test : τ → Bool) : Nat := pool.calls.countP test

/-- Every call has returned. -/
def Quiescent (returned : τ → Bool) (pool : Pool σ τ) : Prop :=
  ∀ call ∈ pool.calls, returned call = true

instance (returned : τ → Bool) (pool : Pool σ τ) : Decidable (pool.Quiescent returned) :=
  inferInstanceAs (Decidable (∀ call ∈ pool.calls, returned call = true))

/-- A step changes a count only by the position left and the position reached. -/
theorem occurs_set {pool : Pool σ τ} {index : Nat} {call : τ}
    (located : pool.calls[index]? = some call) (shared : σ) (after : τ)
    (test : τ → Bool) :
    occurs ⟨shared, pool.calls.set index after⟩ test + (if test call then 1 else 0) =
      pool.occurs test + (if test after then 1 else 0) := by
  obtain ⟨inside, rfl⟩ := List.getElem?_eq_some_iff.mp located
  have member : pool.calls[index] ∈ pool.calls := List.getElem_mem inside
  have counted : (if test pool.calls[index] then 1 else 0) ≤ pool.calls.countP test := by
    split
    next passes => exact List.countP_pos_iff.mpr ⟨_, member, passes⟩
    next => exact Nat.zero_le _
  simp only [occurs, List.countP_set inside]
  omega

/-- A call found at a position is counted there. -/
theorem occurs_pos {pool : Pool σ τ} {index : Nat} {call : τ} {test : τ → Bool}
    (located : pool.calls[index]? = some call) (passes : test call = true) :
    0 < pool.occurs test :=
  List.countP_pos_iff.mpr ⟨call, List.mem_of_getElem? located, passes⟩

/-- Positions of unfinished calls do not occur in a quiescent pool. -/
theorem Quiescent.occurs_eq_zero {returned test : τ → Bool} {pool : Pool σ τ}
    (quiet : pool.Quiescent returned)
    (unfinished : ∀ call, test call = true → returned call = false) :
    pool.occurs test = 0 := by
  apply List.countP_eq_zero.mpr
  intro call member passes
  have finished := quiet call member
  rw [unfinished call passes] at finished
  cases finished

/-- The total weight of the positions. -/
def total (pool : Pool σ τ) (weight : τ → Nat) : Nat :=
  pool.calls.foldr (fun call rest => weight call + rest) 0

/-- A step exchanges the weight of the position left for that of the position reached. -/
theorem total_set {pool : Pool σ τ} {index : Nat} {call : τ}
    (located : pool.calls[index]? = some call) (shared : σ) (after : τ) (weight : τ → Nat) :
    total ⟨shared, pool.calls.set index after⟩ weight + weight call =
      pool.total weight + weight after := by
  obtain ⟨initial, calls⟩ := pool
  change calls[index]? = some call at located
  unfold total
  dsimp only
  induction calls generalizing index with
  | nil => cases located
  | cons first rest ih =>
      cases index with
      | zero =>
          cases located
          rw [List.set_cons_zero, List.foldr_cons, List.foldr_cons]
          omega
      | succ index =>
          have others := ih located
          rw [List.set_cons_succ, List.foldr_cons, List.foldr_cons]
          omega

/-- The pool is one step later. -/
def Later (next : τ → σ → Option (τ × σ)) (after before : Pool σ τ) : Prop :=
  ∃ index, before.step next index = some after

/-- If every step lowers a rank, all runs end. -/
theorem wellFounded_later {α : Type} {next : τ → σ → Option (τ × σ)} {below : α → α → Prop}
    (ends : WellFounded below) (rank : Pool σ τ → α)
    (falls : ∀ {before after : Pool σ τ} {index : Nat}, before.step next index = some after →
      below (rank after) (rank before)) : WellFounded (Later next) :=
  Subrelation.wf (fun later => falls later.choose_spec) (InvImage.wf rank ends)

/-- What the calls of a pool contribute, in the order of the calls. -/
def collect {α : Type} (pool : Pool σ τ) (contributes : τ → Option α) : List α :=
  pool.calls.filterMap contributes

/-- A step exchanges the contribution of the position left for that of the position reached. -/
theorem collect_set {α : Type} {pool : Pool σ τ} {index : Nat} {call : τ}
    (located : pool.calls[index]? = some call) (shared : σ) (after : τ)
    (contributes : τ → Option α) :
    (collect ⟨shared, pool.calls.set index after⟩ contributes ++ (contributes call).toList).Perm
      (pool.collect contributes ++ (contributes after).toList) := by
  obtain ⟨inside, rfl⟩ := List.getElem?_eq_some_iff.mp located
  obtain ⟨before, rest, split, place⟩ : ∃ before rest, pool.calls =
      before ++ pool.calls[index] :: rest ∧ before.length = index :=
    ⟨pool.calls.take index, pool.calls.drop (index + 1), by simp, by simp; omega⟩
  have changed : pool.calls.set index after = before ++ after :: rest := by
    rw [split, List.set_append_right _ _ (by omega), place, Nat.sub_self]
    rfl
  unfold collect
  rw [changed]
  nth_rewrite 2 [split]
  simp only [List.filterMap_append, List.filterMap_cons]
  generalize pool.calls[index] = call
  generalize before.filterMap contributes = front
  generalize rest.filterMap contributes = back
  have moved : ∀ item, (front ++ item :: back).Perm (front ++ back ++ [item]) := fun item =>
    List.perm_middle.trans (List.perm_append_singleton item (front ++ back)).symm
  cases contributes call with
  | none =>
      cases contributes after with
      | none => exact .refl _
      | some gained => simpa using moved gained
  | some lost =>
      cases contributes after with
      | none => simpa using (moved lost).symm
      | some gained =>
          have swapped : (front ++ back ++ [gained] ++ [lost]).Perm
              (front ++ back ++ [lost] ++ [gained]) := by
            simp only [List.append_assoc]
            exact ((List.Perm.swap lost gained []).append_left back).append_left front
          exact (((moved gained).append_right [lost]).trans swapped).trans
            ((moved lost).append_right [gained]).symm

end Pool

end SpecMock.Library
