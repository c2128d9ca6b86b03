import Mathlib.Control.Monad.Basic
import Mathlib.Data.List.Basic

/-!
# Computations with a log

A computation may fail and writes a log, which a failure leaves as it is.  A
fold whose steps succeed or fail by their items alone succeeds if all items do,
and logs what the items log up to the first that fails.
-/

namespace SpecMock.Library

/-- The outcome of a computation, with the log it has written. -/
structure Logged (ω ε α : Type) where
  outcome : Except ε α
  log : List ω

namespace Logged

variable {ω ε α β : Type}

def succeed (value : α) : Logged ω ε α := ⟨.ok value, []⟩

def fail (failure : ε) : Logged ω ε α := ⟨.error failure, []⟩

/-- Write an entry. -/
def note (entry : ω) : Logged ω ε Unit := ⟨.ok (), [entry]⟩

/-- An outcome without a log. -/
def ofExcept (outcome : Except ε α) : Logged ω ε α := ⟨outcome, []⟩

def andThen (first : Logged ω ε α) (next : α → Logged ω ε β) : Logged ω ε β :=
  match first.outcome with
  | .ok value => ⟨(next value).outcome, first.log ++ (next value).log⟩
  | .error failure => ⟨.error failure, first.log⟩

instance : Monad (Logged ω ε) where
  pure := succeed
  bind := andThen

theorem bind_eq_of_ok {first : Logged ω ε α} {next : α → Logged ω ε β} {value : α}
    (begun : first.outcome = .ok value) :
    first >>= next = ⟨(next value).outcome, first.log ++ (next value).log⟩ := by
  change andThen first next = _
  rw [andThen, begun]

theorem bind_eq_of_error {first : Logged ω ε α} {next : α → Logged ω ε β} {failure : ε}
    (failed : first.outcome = .error failure) : first >>= next = ⟨.error failure, first.log⟩ := by
  change andThen first next = _
  rw [andThen, failed]

theorem note_bind (entry : ω) (next : Unit → Logged ω ε β) :
    note entry >>= next = ⟨(next ()).outcome, entry :: (next ()).log⟩ := rfl

/--
What the steps of a fold do, by their items.  From a state of the invariant a
sound item is worked through, another one fails, and the log is that of the item.
-/
structure Steps (step : β → α → Logged ω ε β) (invariant : List α → β → Prop)
    (sound : α → Prop) (fails : ε → Prop) (logs : α → List ω) (items : List α) : Prop where
  works : ∀ done item left value, items = done ++ item :: left → invariant done value →
    sound item → ∃ next, (step value item).outcome = .ok next ∧ invariant (done ++ [item]) next
  stops : ∀ done item left value, items = done ++ item :: left → invariant done value →
    ¬ sound item → ∃ failure, (step value item).outcome = .error failure ∧ fails failure
  writes : ∀ done item left value, items = done ++ item :: left → invariant done value →
    (step value item).log = logs item

namespace Steps

variable {step : β → α → Logged ω ε β} {invariant : List α → β → Prop} {sound : α → Prop}
  {fails : ε → Prop} {logs : α → List ω} {items : List α}

/-- The rest of a fold, of which some items are done. -/
theorem foldlM_ok_onward (steps : Steps step invariant sound fails logs items) {left : List α} :
    ∀ {done : List α} {value : β}, items = done ++ left → invariant done value →
      (∀ item ∈ left, sound item) →
        ∃ result, (left.foldlM step value).outcome = .ok result ∧ invariant items result := by
  induction left with
  | nil =>
      intro done value split holds _
      rw [List.append_nil] at split
      exact ⟨value, rfl, split ▸ holds⟩
  | cons item rest ih =>
      intro done value split holds all
      obtain ⟨first, others⟩ := List.forall_mem_cons.mp all
      obtain ⟨next, worked, kept⟩ := steps.works done item rest value split holds first
      obtain ⟨result, ended, final⟩ := ih (by rw [split]; simp) kept others
      rw [List.foldlM_cons, bind_eq_of_ok worked]
      exact ⟨result, ended, final⟩

theorem foldlM_error_onward (steps : Steps step invariant sound fails logs items)
    {left : List α} :
    ∀ {done : List α} {value : β}, items = done ++ left → invariant done value →
      (∃ item ∈ left, ¬ sound item) →
        ∃ failure, (left.foldlM step value).outcome = .error failure ∧ fails failure := by
  induction left with
  | nil =>
      rintro done value - - ⟨item, member, -⟩
      cases member
  | cons item rest ih =>
      intro done value split holds unsound
      by_cases first : sound item
      · obtain ⟨next, worked, kept⟩ := steps.works done item rest value split holds first
        obtain ⟨other, member, bad⟩ := unsound
        rcases List.mem_cons.mp member with rfl | later
        · exact absurd first bad
        · obtain ⟨failure, ended, caused⟩ := ih (by rw [split]; simp) kept ⟨other, later, bad⟩
          rw [List.foldlM_cons, bind_eq_of_ok worked]
          exact ⟨failure, ended, caused⟩
      · obtain ⟨failure, stopped, caused⟩ := steps.stops done item rest value split holds first
        rw [List.foldlM_cons, bind_eq_of_error stopped]
        exact ⟨failure, rfl, caused⟩

theorem mem_log_foldlM_onward (steps : Steps step invariant sound fails logs items)
    {left : List α} {entry : ω} :
    ∀ {done : List α} {value : β}, items = done ++ left → invariant done value →
      (entry ∈ (left.foldlM step value).log ↔
        ∃ before item after, left = before ++ item :: after ∧
          (∀ earlier ∈ before, sound earlier) ∧ entry ∈ logs item) := by
  induction left with
  | nil =>
      intro done value _ _
      exact iff_of_false List.not_mem_nil (by simp)
  | cons item rest ih =>
      intro done value split holds
      have written := steps.writes done item rest value split holds
      rw [List.foldlM_cons]
      by_cases first : sound item
      · obtain ⟨next, worked, kept⟩ := steps.works done item rest value split holds first
        rw [bind_eq_of_ok worked, List.mem_append, written, ih (by rw [split]; simp) kept]
        constructor
        · rintro (here | ⟨before, other, after, rfl, all, found⟩)
          · exact ⟨[], item, rest, rfl, by simp, here⟩
          · exact ⟨item :: before, other, after, rfl, List.forall_mem_cons.mpr ⟨first, all⟩, found⟩
        · rintro ⟨before, other, after, parts, all, found⟩
          cases before with
          | nil =>
              cases parts
              exact .inl found
          | cons _ before =>
              cases parts
              exact .inr ⟨before, other, after, rfl, (List.forall_mem_cons.mp all).2, found⟩
      · obtain ⟨failure, stopped, -⟩ := steps.stops done item rest value split holds first
        rw [bind_eq_of_error stopped, written]
        constructor
        · exact fun here => ⟨[], item, rest, rfl, by simp, here⟩
        · rintro ⟨before, other, after, parts, all, found⟩
          cases before with
          | nil =>
              cases parts
              exact found
          | cons _ before =>
              cases parts
              exact absurd (List.forall_mem_cons.mp all).1 first

variable {start : β} (steps : Steps step invariant sound fails logs items)
  (begins : invariant [] start)

include steps begins

/-- The fold succeeds if all its items are sound. -/
theorem foldlM_ok (all : ∀ item ∈ items, sound item) :
    ∃ result, (items.foldlM step start).outcome = .ok result ∧ invariant items result :=
  steps.foldlM_ok_onward rfl begins all

/-- The fold fails at the first item that is not sound. -/
theorem foldlM_error (unsound : ∃ item ∈ items, ¬ sound item) :
    ∃ failure, (items.foldlM step start).outcome = .error failure ∧ fails failure :=
  steps.foldlM_error_onward rfl begins unsound

/-- The log has the entries of the items, up to the first one that is not sound. -/
theorem mem_log_foldlM {entry : ω} : entry ∈ (items.foldlM step start).log ↔
    ∃ before item after, items = before ++ item :: after ∧
      (∀ earlier ∈ before, sound earlier) ∧ entry ∈ logs item :=
  steps.mem_log_foldlM_onward rfl begins

end Steps

end Logged

end SpecMock.Library
