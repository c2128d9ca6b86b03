import SpecMock.Library.Interleaving
import Mathlib.Data.List.Nodup

/-!
# Calls that take effect at one moment

An atomic call is invoked, takes effect on the state in a single step at some
later moment, and responds with the reply of that step.  A run of atomic calls
has a log of the effects in their order: each call has at most one effect, the
reply it responds with is that of its effect, and a call that has responded
before another was invoked stands before it in the log.  A pool of calls that
take many steps is linearizable if every step of a call is matched by one of an
atomic call.
-/

namespace SpecMock.Library

/-- Where an atomic call stands. -/
inductive AtomicCall (ι ρ : Type) where
  | idle (op : ι)
  | pending (op : ι)
  | answered (op : ι) (reply : ρ)
  | returned (op : ι) (reply : ρ)
  deriving DecidableEq

namespace AtomicCall

variable {ι ρ : Type}

/-- The operation of a call that has been invoked and has not responded. -/
def inProgress : AtomicCall ι ρ → Option ι
  | .pending op | .answered op _ => some op
  | .idle _ | .returned _ _ => none

/-- Operation and reply of a call that has taken effect. -/
def effect : AtomicCall ι ρ → Option (ι × ρ)
  | .answered op reply | .returned op reply => some (op, reply)
  | .idle _ | .pending _ => none

end AtomicCall

/-- The effect of one call of a pool. -/
structure Effect (ι ρ : Type) where
  index : Nat
  op : ι
  reply : ρ
  deriving DecidableEq

/-- A state and the atomic calls working on it. -/
abbrev AtomicPool (α ι ρ : Type) := Pool α (AtomicCall ι ρ)

/-- Number of calls in progress with one of the operations that count. -/
def AtomicPool.busy {α ι ρ : Type} (counts : ι → Bool) (pool : AtomicPool α ι ρ) : Nat :=
  pool.occurs fun call => call.inProgress.any counts

/-- A narrower test that one call fails is passed by fewer calls. -/
theorem Pool.occurs_lt {σ τ : Type} {pool : Pool σ τ} {index : Nat} {call : τ}
    (located : pool.calls[index]? = some call) {test wider : τ → Bool}
    (implied : ∀ call ∈ pool.calls, test call = true → wider call = true)
    (passes : wider call = true) (fails : test call = false) :
    pool.occurs test < pool.occurs wider := by
  obtain ⟨before, rest, split⟩ := List.append_of_mem (List.mem_of_getElem? located)
  rw [split] at implied
  have front : before.countP test ≤ before.countP wider :=
    List.countP_mono_left fun other member => implied other (by simp [member])
  have back : rest.countP test ≤ rest.countP wider :=
    List.countP_mono_left fun other member => implied other (by simp [member])
  simp only [occurs, split, List.countP_append, List.countP_cons, passes, fails, if_true,
    Bool.false_eq_true, if_false]
  omega

section Runs

variable {α ι ρ : Type}

/--
Runs of atomic calls with the log of their effects.  What an operation may do
is given by a relation of the number of calls in progress, the state before,
the operation, the reply and the state after.
-/
inductive AtomicRun (spec : Nat → α → ι → ρ → α → Prop) (counts : ι → Bool)
    (first : AtomicPool α ι ρ) : List (Effect ι ρ) → AtomicPool α ι ρ → Prop where
  | refl : AtomicRun spec counts first [] first
  | invoke {log : List (Effect ι ρ)} {pool : AtomicPool α ι ρ} {index : Nat} {op : ι}
      (before : AtomicRun spec counts first log pool)
      (located : pool.calls[index]? = some (.idle op)) :
      AtomicRun spec counts first log ⟨pool.shared, pool.calls.set index (.pending op)⟩
  | effect {log : List (Effect ι ρ)} {pool : AtomicPool α ι ρ} {index : Nat} {op : ι} {reply : ρ}
      {after : α} (before : AtomicRun spec counts first log pool)
      (located : pool.calls[index]? = some (.pending op))
      (meets : spec (pool.busy counts) pool.shared op reply after) :
      AtomicRun spec counts first (log ++ [⟨index, op, reply⟩])
        ⟨after, pool.calls.set index (.answered op reply)⟩
  | respond {log : List (Effect ι ρ)} {pool : AtomicPool α ι ρ} {index : Nat} {op : ι} {reply : ρ}
      (before : AtomicRun spec counts first log pool)
      (located : pool.calls[index]? = some (.answered op reply)) :
      AtomicRun spec counts first log ⟨pool.shared, pool.calls.set index (.returned op reply)⟩

/-- The effects of a log, one after the other, lead from the one state to the other. -/
inductive Replays (legal : α → ι → ρ → α → Prop) : α → List (Effect ι ρ) → α → Prop where
  | nil (state : α) : Replays legal state [] state
  | snoc {first middle last : α} {log : List (Effect ι ρ)} {entry : Effect ι ρ}
      (before : Replays legal first log middle)
      (meets : legal middle entry.op entry.reply last) :
      Replays legal first (log ++ [entry]) last

/-- A log has the effect of every call that has taken effect, once, and no other. -/
structure Accounts (log : List (Effect ι ρ)) (pool : AtomicPool α ι ρ) : Prop where
  nodup : (log.map Effect.index).Nodup
  mem_iff : ∀ entry, entry ∈ log ↔
    (pool.calls[entry.index]?.bind AtomicCall.effect) = some (entry.op, entry.reply)

variable {spec : Nat → α → ι → ρ → α → Prop} {counts : ι → Bool}

namespace AtomicRun

variable {first pool last : AtomicPool α ι ρ} {log later : List (Effect ι ρ)}

/-- The log of a run is a sequential history. -/
theorem replays (run : AtomicRun spec counts first log last) :
    Replays (fun state op reply after => ∃ busy, spec busy state op reply after)
      first.shared log last.shared := by
  induction run with
  | refl => exact .nil _
  | invoke _ _ ih => exact ih
  | effect _ _ meets ih => exact .snoc ih ⟨_, meets⟩
  | respond _ _ ih => exact ih

theorem trans (run : AtomicRun spec counts first log pool)
    (rest : AtomicRun spec counts pool later last) :
    AtomicRun spec counts first (log ++ later) last := by
  induction rest with
  | refl => simpa using run
  | invoke _ located ih => exact ih.invoke located
  | effect _ located meets ih =>
      rw [← List.append_assoc]
      exact ih.effect located meets
  | respond _ located ih => exact ih.respond located

end AtomicRun

/-- A call that moves without taking effect changes nothing of what is accounted for. -/
theorem Accounts.set_silent {log : List (Effect ι ρ)} {pool : AtomicPool α ι ρ} {index : Nat}
    {call after : AtomicCall ι ρ} (accounts : Accounts log pool)
    (located : pool.calls[index]? = some call) (same : after.effect = call.effect) :
    Accounts log (⟨pool.shared, pool.calls.set index after⟩ : AtomicPool α ι ρ) where
  nodup := accounts.nodup
  mem_iff entry := by
    rw [accounts.mem_iff entry, List.getElem?_set]
    by_cases here : index = entry.index
    · subst here
      obtain ⟨inside, _⟩ := List.getElem?_eq_some_iff.mp located
      rw [if_pos rfl, if_pos inside, located, Option.bind_some, Option.bind_some, same]
    · rw [if_neg here]

theorem Accounts.set_effect {log : List (Effect ι ρ)} {pool : AtomicPool α ι ρ} {index : Nat}
    {op : ι} {reply : ρ} (accounts : Accounts log pool) (after : α)
    (located : pool.calls[index]? = some (.pending op)) :
    Accounts (log ++ [⟨index, op, reply⟩])
      (⟨after, pool.calls.set index (.answered op reply)⟩ : AtomicPool α ι ρ) := by
  have fresh : index ∉ log.map Effect.index := by
    intro member
    obtain ⟨entry, logged, rfl⟩ := List.mem_map.mp member
    have settled := (accounts.mem_iff entry).mp logged
    simp [located, AtomicCall.effect] at settled
  constructor
  · rw [List.map_append, List.map_singleton]
    exact accounts.nodup.append (List.nodup_singleton index) (by simpa using fresh)
  · intro entry
    rw [List.mem_append, List.mem_singleton, accounts.mem_iff entry, List.getElem?_set]
    obtain ⟨place, other, answer⟩ := entry
    by_cases here : index = place
    · subst here
      obtain ⟨inside, _⟩ := List.getElem?_eq_some_iff.mp located
      simp only [if_true, inside, located, Option.bind_some, AtomicCall.effect, reduceCtorEq,
        false_or, Effect.mk.injEq, true_and, Option.some.injEq, Prod.mk.injEq]
      exact and_congr eq_comm eq_comm
    · have other : place ≠ index := fun same => here same.symm
      simp [here, other]

/-- A call that has responded is accounted for where one that is idle is not. -/
theorem Accounts.precedes {log : List (Effect ι ρ)} {pool : AtomicPool α ι ρ}
    (accounts : Accounts log pool) {earlier later : Nat} {op other : ι} {reply : ρ}
    (responded : pool.calls[earlier]? = some (.returned op reply))
    (idle : pool.calls[later]? = some (.idle other)) :
    ⟨earlier, op, reply⟩ ∈ log ∧ later ∉ log.map Effect.index := by
  constructor
  · rw [accounts.mem_iff, responded]
    rfl
  · intro member
    obtain ⟨entry, logged, rfl⟩ := List.mem_map.mp member
    have settled := (accounts.mem_iff entry).mp logged
    rw [idle] at settled
    cases settled

namespace AtomicRun

variable {first pool last : AtomicPool α ι ρ} {log later : List (Effect ι ρ)}

/-- In a run that starts with idle calls the log accounts for all effects. -/
theorem accounts (run : AtomicRun spec counts first log last)
    (idle : ∀ call ∈ first.calls, call.effect = none) : Accounts log last := by
  induction run with
  | refl =>
      refine ⟨List.nodup_nil, fun entry => ?_⟩
      cases located : first.calls[entry.index]? with
      | none => simp
      | some call => simp [idle call (List.mem_of_getElem? located)]
  | invoke _ located ih => exact ih.set_silent located rfl
  | effect _ located _ ih => exact ih.set_effect _ located
  | respond _ located ih => exact ih.set_silent located rfl

end AtomicRun

end Runs

section Simulation

variable {σ τ α ι ρ : Type}

/-- What a step of a call may do when looked at as an atomic call. -/
inductive AtomicMove (legal : α → ι → ρ → α → Prop) :
    α → AtomicCall ι ρ → AtomicCall ι ρ → α → Prop where
  | stay (state : α) (call : AtomicCall ι ρ) : AtomicMove legal state call call state
  | invoke (state : α) (op : ι) : AtomicMove legal state (.idle op) (.pending op) state
  | effect {state after : α} {op : ι} {reply : ρ} (meets : legal state op reply after) :
      AtomicMove legal state (.pending op) (.answered op reply) after
  | respond (state : α) (op : ι) (reply : ρ) :
      AtomicMove legal state (.answered op reply) (.returned op reply) state
  | finish {state after : α} {op : ι} {reply : ρ} (meets : legal state op reply after) :
      AtomicMove legal state (.pending op) (.returned op reply) after

/-- A pool looked at as one of atomic calls. -/
def Pool.atomic (state : σ → α) (view : τ → AtomicCall ι ρ) (pool : Pool σ τ) :
    AtomicPool α ι ρ :=
  ⟨state pool.shared, pool.calls.map view⟩

/-- Every step of a call is one of an atomic call. -/
structure Linearizes (next : τ → σ → Option (τ × σ)) (state : σ → α)
    (view : τ → AtomicCall ι ρ) (spec : Nat → α → ι → ρ → α → Prop) (counts : ι → Bool)
    (invariant : Pool σ τ → Prop) : Prop where
  kept : ∀ {pool last : Pool σ τ} {index : Nat}, invariant pool →
    pool.step next index = some last → invariant last
  matched : ∀ {pool : Pool σ τ} {index : Nat} {call after : τ} {shared : σ}, invariant pool →
    pool.calls[index]? = some call → next call pool.shared = some (after, shared) →
    AtomicMove (spec ((pool.atomic state view).busy counts)) (state pool.shared)
      (view call) (view after) (state shared)

variable {next : τ → σ → Option (τ × σ)} {state : σ → α} {view : τ → AtomicCall ι ρ}
  {spec : Nat → α → ι → ρ → α → Prop} {counts : ι → Bool} {invariant : Pool σ τ → Prop}

/-- A move of an atomic call prolongs a run. -/
theorem AtomicRun.move {first pool : AtomicPool α ι ρ} {log : List (Effect ι ρ)} {index : Nat}
    {call after : AtomicCall ι ρ} {shared : α} (run : AtomicRun spec counts first log pool)
    (located : pool.calls[index]? = some call)
    (moved : AtomicMove (spec (pool.busy counts)) pool.shared call after shared) :
    ∃ more, AtomicRun spec counts first more ⟨shared, pool.calls.set index after⟩ := by
  obtain ⟨inside, same⟩ := List.getElem?_eq_some_iff.mp located
  cases moved with
  | stay =>
      refine ⟨log, ?_⟩
      rw [← same, List.set_getElem_self]
      exact run
  | invoke => exact ⟨log, run.invoke located⟩
  | effect meets => exact ⟨_, run.effect located meets⟩
  | respond => exact ⟨log, run.respond located⟩
  | finish meets =>
      have responded := (run.effect located meets).respond (List.getElem?_set_self inside)
      rw [List.set_set] at responded
      exact ⟨_, responded⟩

/-- The runs of a pool that linearizes are runs of atomic calls. -/
theorem Linearizes.run (linearizes : Linearizes next state view spec counts invariant)
    {first last : Pool σ τ} (run : Pool.FreeRun next first last) (initial : invariant first) :
    ∃ log, AtomicRun spec counts (first.atomic state view) log (last.atomic state view) := by
  suffices reached : invariant last ∧
      ∃ log, AtomicRun spec counts (first.atomic state view) log (last.atomic state view) from
    reached.2
  induction run with
  | refl => exact ⟨initial, [], .refl⟩
  | tail _ _ stepped ih =>
      obtain ⟨holds, log, before⟩ := ih
      obtain ⟨call, after, shared, located, moved, rfl⟩ := Pool.step_cases stepped
      have viewed : (Pool.atomic state view _).calls[_]? = some (view call) :=
        (List.getElem?_map).trans (congrArg (Option.map view) located)
      have prolonged := before.move viewed (linearizes.matched holds located moved)
      exact ⟨linearizes.kept holds stepped, by
        simpa only [Pool.atomic, List.map_set] using prolonged⟩

end Simulation

end SpecMock.Library
