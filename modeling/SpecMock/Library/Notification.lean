import Mathlib.Data.List.Basic

/-!
# Notifications with one stored permit

A notifier wakes one of the tasks that wait for it, in the order in which they
began to wait; a notification that finds no task waiting is stored, at most one
of them.  A task waits by polling: the first poll takes the stored permit or
registers the task, a later one tells whether it has been notified since.  A
task that gives up waiting hands a notification it has been given on.
-/

namespace SpecMock.Library

/-- A permit is only stored while no task waits. -/
structure Notifier (ι : Type) where
  permit : Bool
  waiting : List ι
  notified : List ι
  latched : permit = true → waiting = []
  deriving DecidableEq

namespace Notifier

variable {ι : Type}

/-- Nobody waits and nothing is stored. -/
def new : Notifier ι := ⟨false, [], [], fun _ => rfl⟩

/-- Wake the task that has waited longest, or store the permit. -/
def notifyOne (notifier : Notifier ι) : Notifier ι :=
  match waits : notifier.waiting with
  | [] => { notifier with permit := true, latched := fun _ => waits }
  | first :: rest =>
      { permit := notifier.permit
        waiting := rest
        notified := first :: notifier.notified
        latched := fun stored => by
          rw [notifier.latched stored] at waits
          cases waits }

/-- A notification has been given and not been received. -/
def pending (notifier : Notifier ι) : Bool := notifier.permit || !notifier.notified.isEmpty

theorem pending_iff {notifier : Notifier ι} :
    notifier.pending = true ↔ notifier.permit = true ∨ notifier.notified ≠ [] := by
  simp [pending]

@[simp] theorem pending_new : (new : Notifier ι).pending = false := rfl

/-- Whoever waits, a notification is not lost. -/
@[simp]
theorem pending_notifyOne (notifier : Notifier ι) : notifier.notifyOne.pending = true := by
  unfold notifyOne
  split <;> simp [pending]

variable [DecidableEq ι]

/-- Ask for a notification: whether there is one for the task, and the notifier after it. -/
def poll (notifier : Notifier ι) (task : ι) : Bool × Notifier ι :=
  if task ∈ notifier.notified then
    (true, { notifier with notified := notifier.notified.erase task })
  else if task ∈ notifier.waiting then (false, notifier)
  else if stored : notifier.permit = true then
    (true, { notifier with permit := false, latched := fun impossible => nomatch impossible })
  else
    (false, { notifier with
      waiting := notifier.waiting ++ [task]
      latched := fun impossible => absurd impossible stored })

/-- Give up waiting; a notification received and not asked for goes to the next task. -/
def cancel (notifier : Notifier ι) (task : ι) : Notifier ι :=
  if task ∈ notifier.notified then
    notifyOne { notifier with notified := notifier.notified.erase task }
  else
    { notifier with
      waiting := notifier.waiting.erase task
      latched := fun stored => by rw [notifier.latched stored]; rfl }

/-- Without a notification there is none to receive, and asking makes none. -/
theorem poll_of_not_pending {notifier : Notifier ι} (silent : notifier.pending = false)
    (task : ι) :
    (notifier.poll task).1 = false ∧ (notifier.poll task).2.pending = false := by
  obtain ⟨unstored, empty⟩ : notifier.permit = false ∧ notifier.notified = [] := by
    simpa [pending] using silent
  unfold poll
  by_cases waits : task ∈ notifier.waiting
  · simp [unstored, empty, waits, pending]
  · simp [unstored, empty, waits, pending]

theorem pending_cancel {notifier : Notifier ι} (task : ι) :
    (notifier.cancel task).pending = notifier.pending := by
  unfold cancel
  split
  next given =>
    rw [pending_notifyOne]
    exact (pending_iff.mpr (.inr (List.ne_nil_of_mem given))).symm
  next => rfl

/-- A notifier waited for by one task answers that task with every notification given. -/
theorem poll_of_pending [Subsingleton ι] {notifier : Notifier ι} (given : notifier.pending = true)
    (task : ι) : (notifier.poll task).1 = true := by
  unfold poll
  by_cases received : task ∈ notifier.notified
  · rw [if_pos received]
  · have nobody : notifier.notified = [] :=
      List.eq_nil_iff_forall_not_mem.mpr fun other member =>
        received (Subsingleton.elim other task ▸ member)
    have stored : notifier.permit = true := (pending_iff.mp given).resolve_right fun some =>
      some nobody
    simp [nobody, notifier.latched stored, stored]

/-- A poll without an answer leaves the task waiting. -/
theorem waiting_of_poll {notifier : Notifier ι} {task : ι}
    (silent : (notifier.poll task).1 = false) : task ∈ (notifier.poll task).2.waiting := by
  unfold poll at silent ⊢
  by_cases received : task ∈ notifier.notified
  · simp [received] at silent
  by_cases waits : task ∈ notifier.waiting
  · simp [received, waits]
  by_cases stored : notifier.permit = true
  · simp [received, waits, stored] at silent
  · simp [received, waits, stored]

end Notifier

end SpecMock.Library
