import SpecMock.Library.Notification
import SpecMock.Library.Transition
import Mathlib.Tactic.Common

/-!
# Starting and stopping the server

A started server has a handle and two or three tasks: the HTTP server, the
gRPC accept loop where a proto file is configured, and a relay that waits for
the handle's one-shot signal and then notifies each server through a notifier
of its own.  The tasks, the handle and the clients move in an arbitrary order.
-/

namespace SpecMock.Runtime

open SpecMock.Library

/-- The tasks a handle joins, in the order in which they are pushed. -/
inductive Task where
  | http
  | grpc
  | relay
  deriving DecidableEq

/-- The handle: in use, joining what is left of its tasks, or gone. -/
inductive RunningServer where
  | running
  | joining (remaining : List Task)
  | returned
  | dropped
  | absent
  deriving DecidableEq

/-- The relay waits for the signal, then notifies the one server and the other. -/
inductive RelayTask where
  | awaiting
  | toHttp
  | toGrpc
  | done
  deriving DecidableEq

/-- After its notification the HTTP server accepts no more and waits for its connections. -/
inductive HttpTask where
  | serving
  | draining
  | done
  deriving DecidableEq

/-- The gRPC accept loop leaves its connections to themselves. -/
inductive GrpcTask where
  | accepting
  | done
  deriving DecidableEq

/-- Everything the tasks of one server share, and where each of them stands. -/
structure Process where
  handle : RunningServer
  requested : Bool
  aborted : Bool
  relay : Option RelayTask
  http : HttpTask
  grpc : Option GrpcTask
  httpShutdown : Notifier Unit
  grpcShutdown : Notifier Unit
  connections : Nat
  backlog : List Bool
  served : Nat
  deriving DecidableEq

/-- What can happen next; the last three are up to the clients. -/
inductive Move where
  | shutdown
  | drop
  | abandon
  | join
  | relay
  | http
  | grpcNotified
  | grpcAccept
  | cancel (task : Task)
  | closeHttp
  | connectHttp
  | connectGrpc (sound : Bool)
  deriving DecidableEq

/-- Everything but the arrival of a client. -/
def Move.internal : Move → Bool
  | .connectHttp | .connectGrpc _ => false
  | _ => true

namespace Process

/-- The HTTP server as spawned, before anything else of the process is there. -/
def spawned : Process :=
  { handle := .absent, requested := false, aborted := false, relay := none, http := .serving,
    grpc := none, httpShutdown := .new, grpcShutdown := .new, connections := 0, backlog := [],
    served := 0 }

/-- What `start` answers, and what it leaves running. -/
def start {ε : Type} (http : Except ε Unit) (grpc : Option (Except ε Unit)) :
    Except ε Unit × Option Process :=
  match http, grpc with
  | .error error, _ => (.error error, none)
  -- The handle of the HTTP task goes with the early return, the task stays.
  | .ok (), some (.error error) => (.error error, some spawned)
  | .ok (), some (.ok ()) =>
      (.ok (), some { spawned with
        handle := .running, relay := some .awaiting, grpc := some .accepting })
  | .ok (), none => (.ok (), some { spawned with handle := .running, relay := some .awaiting })

/-- The tasks of a process. -/
def tasks (process : Process) : List Task :=
  .http :: (if process.grpc.isSome then [.grpc] else []) ++
    (if process.relay.isSome then [.relay] else [])

/-- Whether a task has come to its end. -/
def finished (process : Process) : Task → Bool
  | .http => decide (process.http = .done)
  | .grpc => decide (process.grpc ≠ some .accepting)
  | .relay => decide (process.relay = none ∨ process.relay = some .done)

/-- Drop a task at the point where it waits. -/
def cancelled (process : Process) : Task → Process
  | .http => { process with http := .done }
  | .grpc => { process with grpc := some .done, grpcShutdown := process.grpcShutdown.cancel () }
  | .relay => { process with relay := some .done }

/-- One move, where it is possible. -/
def step (process : Process) : Move → Option Process
  | .shutdown =>
      if process.handle = .running then
        some { process with requested := true, handle := .joining process.tasks }
      else none
  | .drop =>
      if process.handle = .running then
        some { process with requested := true, aborted := true, handle := .dropped }
      else none
  | .abandon =>
      -- The future of `shutdown` is dropped: what it has drained is detached, not aborted.
      match process.handle with
      | .joining _ => some { process with handle := .dropped }
      | _ => none
  | .join =>
      match process.handle with
      | .joining (task :: rest) =>
          if process.finished task then some { process with handle := .joining rest } else none
      | .joining [] => some { process with handle := .returned }
      | _ => none
  | .relay =>
      match process.relay with
      | some .awaiting =>
          if process.requested then some { process with relay := some .toHttp } else none
      | some .toHttp =>
          some { process with
            relay := some .toGrpc, httpShutdown := process.httpShutdown.notifyOne }
      | some .toGrpc =>
          some { process with
            relay := some .done, grpcShutdown := process.grpcShutdown.notifyOne }
      | _ => none
  | .http =>
      match process.http with
      | .serving =>
          let polled := process.httpShutdown.poll ()
          if polled.1 then some { process with http := .draining, httpShutdown := polled.2 }
          -- A task that waits already is not woken without a notification.
          else if () ∈ process.httpShutdown.waiting then none
          else some { process with httpShutdown := polled.2 }
      | .draining => if process.connections = 0 then some { process with http := .done } else none
      | .done => none
  | .grpcNotified =>
      match process.grpc with
      | some .accepting =>
          let polled := process.grpcShutdown.poll ()
          if polled.1 then
            some { process with grpc := some .done, grpcShutdown := polled.2 }
          else if () ∈ process.grpcShutdown.waiting then none
          else some { process with grpcShutdown := polled.2 }
      | _ => none
  | .grpcAccept =>
      match process.grpc, process.backlog with
      | some .accepting, sound :: rest =>
          -- The other branch of the select is dropped, and made anew in the next round.
          some { process with
            backlog := rest
            served := process.served + (if sound then 1 else 0)
            grpcShutdown := process.grpcShutdown.cancel () }
      | _, _ => none
  | .cancel task =>
      if process.aborted ∧ process.finished task = false then some (process.cancelled task)
      else none
  | .closeHttp =>
      match process.connections with
      | 0 => none
      | rest + 1 => some { process with connections := rest }
  | .connectHttp =>
      if process.http = .serving then
        some { process with connections := process.connections + 1 }
      else none
  | .connectGrpc sound =>
      if process.grpc = some .accepting then
        some { process with backlog := process.backlog ++ [sound] }
      else none

/-- Everything a move can do, with what it found. -/
inductive Moves : Process → Move → Process → Prop where
  | shutdown {process : Process} (held : process.handle = .running) :
      Moves process .shutdown
        { process with requested := true, handle := .joining process.tasks }
  | drop {process : Process} (held : process.handle = .running) :
      Moves process .drop
        { process with requested := true, aborted := true, handle := .dropped }
  | abandon {process : Process} {remaining : List Task}
      (held : process.handle = .joining remaining) :
      Moves process .abandon { process with handle := .dropped }
  | join {process : Process} {task : Task} {rest : List Task}
      (held : process.handle = .joining (task :: rest)) (ended : process.finished task = true) :
      Moves process .join { process with handle := .joining rest }
  | returns {process : Process} (held : process.handle = .joining []) :
      Moves process .join { process with handle := .returned }
  | signalled {process : Process} (waits : process.relay = some .awaiting)
      (requested : process.requested = true) :
      Moves process .relay { process with relay := some .toHttp }
  | notifyHttp {process : Process} (next : process.relay = some .toHttp) :
      Moves process .relay { process with
        relay := some .toGrpc, httpShutdown := process.httpShutdown.notifyOne }
  | notifyGrpc {process : Process} (next : process.relay = some .toGrpc) :
      Moves process .relay { process with
        relay := some .done, grpcShutdown := process.grpcShutdown.notifyOne }
  | httpStops {process : Process} (serves : process.http = .serving)
      (notified : (process.httpShutdown.poll ()).1 = true) :
      Moves process .http { process with
        http := .draining, httpShutdown := (process.httpShutdown.poll ()).2 }
  | httpWaits {process : Process} (serves : process.http = .serving)
      (silent : (process.httpShutdown.poll ()).1 = false)
      (fresh : () ∉ process.httpShutdown.waiting) :
      Moves process .http { process with httpShutdown := (process.httpShutdown.poll ()).2 }
  | drained {process : Process} (drains : process.http = .draining)
      (empty : process.connections = 0) : Moves process .http { process with http := .done }
  | grpcStops {process : Process} (accepts : process.grpc = some .accepting)
      (notified : (process.grpcShutdown.poll ()).1 = true) :
      Moves process .grpcNotified { process with
        grpc := some .done, grpcShutdown := (process.grpcShutdown.poll ()).2 }
  | grpcWaits {process : Process} (accepts : process.grpc = some .accepting)
      (silent : (process.grpcShutdown.poll ()).1 = false)
      (fresh : () ∉ process.grpcShutdown.waiting) :
      Moves process .grpcNotified { process with
        grpcShutdown := (process.grpcShutdown.poll ()).2 }
  | accepts {process : Process} {sound : Bool} {rest : List Bool}
      (accepts : process.grpc = some .accepting) (queued : process.backlog = sound :: rest) :
      Moves process .grpcAccept { process with
        backlog := rest
        served := process.served + (if sound then 1 else 0)
        grpcShutdown := process.grpcShutdown.cancel () }
  | cancel {process : Process} {task : Task} (aborted : process.aborted = true)
      (unfinished : process.finished task = false) :
      Moves process (.cancel task) (process.cancelled task)
  | closeHttp {process : Process} {rest : Nat} (held : process.connections = rest + 1) :
      Moves process .closeHttp { process with connections := rest }
  | connectHttp {process : Process} (serves : process.http = .serving) :
      Moves process .connectHttp { process with connections := process.connections + 1 }
  | connectGrpc {process : Process} {sound : Bool} (accepts : process.grpc = some .accepting) :
      Moves process (.connectGrpc sound) { process with backlog := process.backlog ++ [sound] }

theorem moves_of_step {process next : Process} {move : Move}
    (stepped : process.step move = some next) : Moves process move next := by
  cases move with
  | shutdown =>
      dsimp only [step] at stepped
      split at stepped
      next held => cases stepped; exact .shutdown held
      next => cases stepped
  | drop =>
      dsimp only [step] at stepped
      split at stepped
      next held => cases stepped; exact .drop held
      next => cases stepped
  | abandon =>
      dsimp only [step] at stepped
      split at stepped
      next remaining held => cases stepped; exact .abandon held
      next => cases stepped
  | join =>
      dsimp only [step] at stepped
      split at stepped
      next task rest held =>
        split at stepped
        next ended => cases stepped; exact .join held ended
        next => cases stepped
      next held => cases stepped; exact .returns held
      next => cases stepped
  | relay =>
      dsimp only [step] at stepped
      split at stepped
      next waits =>
        split at stepped
        next requested => cases stepped; exact .signalled waits requested
        next => cases stepped
      next next => cases stepped; exact .notifyHttp next
      next next => cases stepped; exact .notifyGrpc next
      next => cases stepped
  | http =>
      dsimp only [step] at stepped
      split at stepped
      next serves =>
        split at stepped
        next notified => cases stepped; exact .httpStops serves notified
        next silent =>
          split at stepped
          next => cases stepped
          next fresh => cases stepped; exact .httpWaits serves (by simpa using silent) fresh
      next drains =>
        split at stepped
        next empty => cases stepped; exact .drained drains empty
        next => cases stepped
      next => cases stepped
  | grpcNotified =>
      dsimp only [step] at stepped
      split at stepped
      next accepts =>
        split at stepped
        next notified => cases stepped; exact .grpcStops accepts notified
        next silent =>
          split at stepped
          next => cases stepped
          next fresh => cases stepped; exact .grpcWaits accepts (by simpa using silent) fresh
      next => cases stepped
  | grpcAccept =>
      dsimp only [step] at stepped
      split at stepped
      next sound rest accepts queued => cases stepped; exact .accepts accepts queued
      next => cases stepped
  | cancel task =>
      dsimp only [step] at stepped
      split at stepped
      next permitted => cases stepped; exact .cancel permitted.1 permitted.2
      next => cases stepped
  | closeHttp =>
      dsimp only [step] at stepped
      split at stepped
      next => cases stepped
      next rest held => cases stepped; exact .closeHttp held
  | connectHttp =>
      dsimp only [step] at stepped
      split at stepped
      next serves => cases stepped; exact .connectHttp serves
      next => cases stepped
  | connectGrpc sound =>
      dsimp only [step] at stepped
      split at stepped
      next accepts => cases stepped; exact .connectGrpc accepts
      next => cases stepped

/-! ## What every move keeps -/

/-- The process as long as nobody has asked it to stop. -/
structure Untouched (process : Process) : Prop where
  handle : process.handle = .running ∧ process.relay = some .awaiting ∨
    process.handle = .absent ∧ process.relay = none
  http : process.http = .serving
  grpc : process.grpc ≠ some .done
  httpSilent : process.httpShutdown.pending = false
  grpcSilent : process.grpcShutdown.pending = false
  aborted : process.aborted = false

/-- The handle waits for a task no more: it has been joined, or was not there to join. -/
def Joined (process : Process) (task : Task) : Prop :=
  process.handle = .returned ∨ ∃ remaining, process.handle = .joining remaining ∧ task ∉ remaining

/-- A signal given is on its way, and tasks end for no other reason. -/
structure Coherent (process : Process) : Prop where
  untouched : process.requested = false → process.Untouched
  relay : process.requested = true → process.relay ≠ none
  handle : process.requested = true → process.handle ≠ .running ∧ process.handle ≠ .absent
  http : process.aborted = false → process.relay = some .toGrpc ∨ process.relay = some .done →
    process.http = .serving → process.httpShutdown.pending = true
  grpc : process.aborted = false → process.relay = some .done →
    process.grpc = some .accepting → process.grpcShutdown.pending = true
  joined : ∀ task, process.Joined task → process.finished task = true
  drained : process.aborted = false → process.http = .done → process.connections = 0
  dropped : process.aborted = true → process.handle = .dropped
  few : ∀ remaining, process.handle = .joining remaining → remaining.length ≤ 3

theorem not_joined_of_dropped {process : Process} (dropped : process.handle = .dropped)
    (task : Task) : ¬ process.Joined task := by
  simp [Joined, dropped]

theorem not_joined_of_untouched {process : Process} (untouched : process.Untouched)
    (task : Task) : ¬ process.Joined task := by
  rcases untouched.handle with ⟨held, _⟩ | ⟨held, _⟩ <;> simp [Joined, held]

/-- The tasks of a process that are not its own have nothing to finish. -/
theorem finished_of_not_mem_tasks {process : Process} {task : Task}
    (missing : task ∉ process.tasks) : process.finished task = true := by
  cases task with
  | http => simp [tasks] at missing
  | grpc =>
      cases spawned : process.grpc with
      | none => simp [finished, spawned]
      | some state => simp [tasks, spawned] at missing
  | relay =>
      cases spawned : process.relay with
      | none => simp [finished, spawned]
      | some state => simp [tasks, spawned] at missing

theorem length_tasks_le (process : Process) : process.tasks.length ≤ 3 := by
  unfold tasks
  split <;> split <;> simp

theorem coherent_start {ε : Type} (http : Except ε Unit) (grpc : Option (Except ε Unit))
    {process : Process} (left : (start http grpc).2 = some process) : process.Coherent := by
  have shape : process.requested = false ∧ process.aborted = false ∧ process.Untouched := by
    unfold start at left
    split at left <;> cases left
    · exact ⟨rfl, rfl, .inr ⟨rfl, rfl⟩, rfl, by simp [spawned], rfl, rfl, rfl⟩
    · exact ⟨rfl, rfl, .inl ⟨rfl, rfl⟩, rfl, by simp, rfl, rfl, rfl⟩
    · exact ⟨rfl, rfl, .inl ⟨rfl, rfl⟩, rfl, by simp [spawned], rfl, rfl, rfl⟩
  obtain ⟨requested, aborted, untouched⟩ := shape
  exact {
    untouched := fun _ => untouched
    relay := by simp [requested]
    handle := by simp [requested]
    http := fun _ passed => by
      rcases untouched.handle with ⟨_, state⟩ | ⟨_, state⟩ <;> simp [state] at passed
    grpc := fun _ passed => by
      rcases untouched.handle with ⟨_, state⟩ | ⟨_, state⟩ <;> simp [state] at passed
    joined := fun task joined => absurd joined (not_joined_of_untouched untouched task)
    drained := fun _ ended => by simp [untouched.http] at ended
    dropped := by simp [aborted]
    few := fun remaining held => by
      rcases untouched.handle with ⟨other, _⟩ | ⟨other, _⟩ <;> simp [held] at other }

/-- A task that has ended does not come back. -/
theorem finished_of_moves {process next : Process} {move : Move}
    (moved : Moves process move next) {task : Task} (ended : process.finished task = true) :
    next.finished task = true := by
  cases moved with
  | signalled waits _ =>
      cases task with
      | http => exact ended
      | grpc => exact ended
      | relay => simp [finished, waits] at ended
  | notifyHttp turn =>
      cases task with
      | http => exact ended
      | grpc => exact ended
      | relay => simp [finished, turn] at ended
  | notifyGrpc _ =>
      cases task with
      | http => exact ended
      | grpc => exact ended
      | relay => simp [finished]
  | httpStops serves _ =>
      cases task with
      | http => simp [finished, serves] at ended
      | grpc => exact ended
      | relay => exact ended
  | drained _ _ =>
      cases task with
      | http => simp [finished]
      | grpc => exact ended
      | relay => exact ended
  | grpcStops _ _ =>
      cases task with
      | http => exact ended
      | grpc => simp [finished]
      | relay => exact ended
  | @cancel other _ _ => cases other <;> cases task <;> simp_all [finished, cancelled]
  | _ => exact ended

theorem requested_of_moves {process next : Process} {move : Move}
    (moved : Moves process move next) (asked : process.requested = true) :
    next.requested = true := by
  cases moved with
  | shutdown _ => rfl
  | drop _ => rfl
  | @cancel task _ _ => cases task <;> exact asked
  | _ => exact asked

/-- Without a handle there is nobody to ask for a shutdown. -/
theorem absent_of_moves {process next : Process} {move : Move}
    (moved : Moves process move next) (absent : process.handle = .absent) :
    next.handle = .absent := by
  cases moved with
  | shutdown held => exact nomatch held.symm.trans absent
  | drop held => exact nomatch held.symm.trans absent
  | abandon held => exact nomatch held.symm.trans absent
  | join held _ => exact nomatch held.symm.trans absent
  | returns held => exact nomatch held.symm.trans absent
  | @cancel task _ _ => cases task <;> exact absent
  | _ => exact absent

/-- Nothing has ended of what has not been asked to. -/
theorem Untouched.finished {process : Process} (untouched : process.Untouched) :
    ∀ task ∈ process.tasks, process.finished task = false := by
  intro task member
  cases task with
  | http => simp [Process.finished, untouched.http]
  | grpc =>
      match spawned : process.grpc with
      | none => simp [tasks, spawned] at member
      | some .accepting => simp [Process.finished, spawned]
      | some .done => exact absurd spawned untouched.grpc
  | relay =>
      rcases untouched.handle with ⟨_, waits⟩ | ⟨_, missing⟩
      · simp [Process.finished, waits]
      · simp [tasks, missing] at member

/-- Without being asked, nothing stops. -/
theorem Untouched.next {process next : Process} {move : Move} (untouched : process.Untouched)
    (moved : Moves process move next) (unasked : next.requested = false) : next.Untouched := by
  have held : process.handle ≠ .returned ∧ process.handle ≠ .dropped ∧
      ∀ remaining, process.handle ≠ .joining remaining := by
    rcases untouched.handle with ⟨held, _⟩ | ⟨held, _⟩ <;> simp [held]
  have waits : process.relay ≠ some .toHttp ∧ process.relay ≠ some .toGrpc := by
    rcases untouched.handle with ⟨_, waits⟩ | ⟨_, waits⟩ <;> simp [waits]
  cases moved with
  | shutdown _ => cases unasked
  | drop _ => cases unasked
  | abandon joining => exact absurd joining (held.2.2 _)
  | join joining _ => exact absurd joining (held.2.2 _)
  | returns joining => exact absurd joining (held.2.2 _)
  | signalled _ asked => exact nomatch asked.symm.trans unasked
  | notifyHttp turn => exact absurd turn waits.1
  | notifyGrpc turn => exact absurd turn waits.2
  | httpStops _ notified =>
      exact nomatch notified.symm.trans (Notifier.poll_of_not_pending untouched.httpSilent ()).1
  | httpWaits _ _ _ =>
      exact { untouched with
        httpSilent := (Notifier.poll_of_not_pending untouched.httpSilent ()).2 }
  | drained drains _ => exact nomatch drains.symm.trans untouched.http
  | grpcStops _ notified =>
      exact nomatch notified.symm.trans (Notifier.poll_of_not_pending untouched.grpcSilent ()).1
  | grpcWaits _ _ _ =>
      exact { untouched with
        grpcSilent := (Notifier.poll_of_not_pending untouched.grpcSilent ()).2 }
  | accepts _ _ =>
      exact { untouched with
        grpcSilent := (Notifier.pending_cancel ()).trans untouched.grpcSilent }
  | cancel aborted _ => exact nomatch aborted.symm.trans untouched.aborted
  | closeHttp _ => exact { untouched with }
  | connectHttp _ => exact { untouched with }
  | connectGrpc _ => exact { untouched with }

theorem Coherent.next {process next : Process} {move : Move} (coherent : process.Coherent)
    (moved : Moves process move next) : next.Coherent := by
  have untouched : next.requested = false → next.Untouched := fun unasked =>
    (coherent.untouched (by
      by_contra asked
      exact nomatch (requested_of_moves moved (by simpa using asked)).symm.trans unasked)).next
        moved unasked
  have joined : ∀ task, process.Joined task → next.finished task = true := fun task waited =>
    finished_of_moves moved (coherent.joined task waited)
  have spawned : process.handle = .running → process.relay ≠ none ∧
      process.aborted = false := fun held => by
    have before := coherent.untouched (by
      by_contra asked
      exact (coherent.handle (by simpa using asked)).1 held)
    rcases before.handle with ⟨_, waits⟩ | ⟨absent, _⟩
    · exact ⟨by simp [waits], before.aborted⟩
    · simp [held] at absent
  cases moved with
  | shutdown held =>
      exact { coherent with
        untouched := untouched
        relay := fun _ => (spawned held).1
        handle := fun _ => by simp
        joined := fun task waited => by
          obtain impossible | ⟨remaining, same, missing⟩ := waited
          · simp at impossible
          · cases same
            exact finished_of_not_mem_tasks missing
        dropped := fun aborted => nomatch aborted.symm.trans (spawned held).2
        few := fun remaining same => by
          cases same
          exact process.length_tasks_le }
  | drop held =>
      exact { coherent with
        untouched := untouched
        relay := fun _ => (spawned held).1
        handle := fun _ => by simp
        http := fun impossible => nomatch impossible
        grpc := fun impossible => nomatch impossible
        joined := fun task waited => absurd waited (not_joined_of_dropped rfl task)
        drained := fun impossible => nomatch impossible
        dropped := fun _ => rfl
        few := fun _ impossible => nomatch impossible }
  | abandon held =>
      exact { coherent with
        untouched := untouched
        handle := fun _ => by simp
        joined := fun task waited => absurd waited (not_joined_of_dropped rfl task)
        dropped := fun _ => rfl
        few := fun _ impossible => nomatch impossible }
  | @join task rest held ended =>
      exact { coherent with
        untouched := untouched
        handle := fun _ => by simp
        joined := fun other waited => by
          obtain impossible | ⟨remaining, same, missing⟩ := waited
          · simp at impossible
          · cases same
            by_cases last : other = task
            · rw [last]
              exact ended
            · exact joined other (.inr ⟨_, held, by simp [last, missing]⟩)
        dropped := fun aborted => nomatch held.symm.trans (coherent.dropped aborted)
        few := fun remaining same => by
          cases same
          exact Nat.le_of_succ_le (coherent.few _ held) }
  | returns held =>
      exact { coherent with
        untouched := untouched
        handle := fun _ => by simp
        joined := fun task _ => joined task (.inr ⟨[], held, by simp⟩)
        dropped := fun aborted => nomatch held.symm.trans (coherent.dropped aborted)
        few := fun _ impossible => nomatch impossible }
  | signalled waits requested =>
      exact { coherent with
        untouched := untouched
        relay := fun _ => by simp
        http := fun _ passed => by simp at passed
        grpc := fun _ passed => by simp at passed
        joined := joined }
  | notifyHttp turn =>
      exact { coherent with
        untouched := untouched
        relay := fun _ => by simp
        http := fun _ _ _ => Notifier.pending_notifyOne _
        grpc := fun _ passed => by simp at passed
        joined := joined }
  | notifyGrpc turn =>
      exact { coherent with
        untouched := untouched
        relay := fun _ => by simp
        http := fun live _ serves => coherent.http live (.inl turn) serves
        grpc := fun _ _ _ => Notifier.pending_notifyOne _
        joined := joined }
  | httpStops serves notified =>
      exact { coherent with
        untouched := untouched
        http := fun _ _ impossible => nomatch impossible
        joined := joined
        drained := fun _ impossible => nomatch impossible }
  | httpWaits serves silent fresh =>
      exact { coherent with
        untouched := untouched
        http := fun live passed _ =>
          Bool.noConfusion <| silent.symm.trans
            (Notifier.poll_of_pending (coherent.http live passed serves) ()) }
  | drained drains empty =>
      exact { coherent with
        untouched := untouched
        http := fun _ _ impossible => nomatch impossible
        joined := joined
        drained := fun _ _ => empty }
  | grpcStops accepts notified =>
      exact { coherent with
        untouched := untouched
        grpc := fun _ _ impossible => nomatch impossible
        joined := joined }
  | grpcWaits accepts silent fresh =>
      exact { coherent with
        untouched := untouched
        grpc := fun live passed _ =>
          Bool.noConfusion <| silent.symm.trans
            (Notifier.poll_of_pending (coherent.grpc live passed accepts) ()) }
  | accepts accepts queued =>
      exact { coherent with
        untouched := untouched
        grpc := fun live passed accepts =>
          (Notifier.pending_cancel ()).trans (coherent.grpc live passed accepts) }
  | @cancel task aborted unfinished =>
      have dropped := coherent.dropped aborted
      cases task with
      | http =>
          exact { coherent with
            untouched := untouched
            http := fun live => nomatch aborted.symm.trans live
            joined := joined
            drained := fun live => nomatch aborted.symm.trans live }
      | grpc =>
          exact { coherent with
            untouched := untouched
            grpc := fun live => nomatch aborted.symm.trans live
            joined := joined }
      | relay =>
          exact { coherent with
            untouched := untouched
            relay := fun _ => by simp [cancelled]
            http := fun live => nomatch aborted.symm.trans live
            grpc := fun live => nomatch aborted.symm.trans live
            joined := joined }
  | closeHttp held =>
      exact { coherent with
        untouched := untouched
        drained := fun live ended => by simp [coherent.drained live ended] at held }
  | connectHttp serves =>
      exact { coherent with
        untouched := untouched
        drained := fun _ ended => nomatch serves.symm.trans ended }
  | connectGrpc accepts => exact { coherent with untouched := untouched }

/-- Every process that a start leaves behind is coherent, whatever has happened since. -/
theorem coherent_of_reaches {ε : Type} {http : Except ε Unit} {grpc : Option (Except ε Unit)}
    {first process : Process} (left : (start http grpc).2 = some first)
    (reaches : Reaches step first process) : process.Coherent :=
  reaches.invariant (coherent_start http grpc left) fun coherent stepped =>
    coherent.next (moves_of_step stepped)

/-! ## Coming to an end -/

/-- The moves a task needs at most until it waits or goes on. -/
def patience (notifier : Notifier Unit) : Nat := if () ∈ notifier.waiting then 1 else 2

/-- Bounds the moves left if no more clients arrive. -/
def rank (process : Process) : Nat :=
  (match process.handle with
    | .running => 10
    | .joining remaining => remaining.length + 1
    | _ => 0) +
  (match process.relay with
    | some .awaiting => 6
    | some .toHttp => 4
    | some .toGrpc => 2
    | _ => 0) +
  (match process.http with
    | .serving => patience process.httpShutdown + 1
    | .draining => 1
    | .done => 0) +
  (match process.grpc with
    | some .accepting => patience process.grpcShutdown
    | _ => 0) +
  process.connections + 2 * process.backlog.length

/--
Nothing is left to do: the tasks have ended, the handle has returned or was
dropped, and no HTTP connection is open.
-/
structure Settled (process : Process) : Prop where
  finished : ∀ task, process.finished task = true
  released : process.handle = .returned ∨ process.handle = .dropped
  closed : process.connections = 0

theorem patience_pos (notifier : Notifier Unit) : 0 < patience notifier := by
  unfold patience
  split <;> omega

theorem patience_le (notifier other : Notifier Unit) :
    patience notifier ≤ patience other + 1 := by
  unfold patience
  split <;> split <;> omega

/-- A poll without an answer makes a task that was not waiting wait. -/
theorem patience_poll {notifier : Notifier Unit} (silent : (notifier.poll ()).1 = false)
    (fresh : () ∉ notifier.waiting) :
    patience (notifier.poll ()).2 < patience notifier := by
  simp [patience, fresh, Notifier.waiting_of_poll silent]

theorem patience_le_two (notifier : Notifier Unit) : patience notifier ≤ 2 := by
  unfold patience
  split <;> omega

theorem rank_of_moves {process next : Process} {move : Move} (internal : move.internal = true)
    (moved : Moves process move next) : next.rank < process.rank := by
  cases moved with
  | shutdown held =>
      have few := process.length_tasks_le
      simp only [rank, held]
      omega
  | drop held =>
      simp only [rank, held]
      omega
  | abandon held =>
      simp only [rank, held]
      omega
  | join held _ =>
      simp only [rank, held, List.length_cons]
      omega
  | returns held =>
      simp only [rank, held, List.length_nil]
      omega
  | signalled waits _ =>
      simp only [rank, waits]
      omega
  | notifyHttp turn =>
      have more := patience_le process.httpShutdown.notifyOne process.httpShutdown
      simp only [rank, turn]
      cases process.http <;> dsimp only <;> omega
  | notifyGrpc turn =>
      have more := patience_le process.grpcShutdown.notifyOne process.grpcShutdown
      simp only [rank, turn]
      rcases process.grpc with _ | _ | _ <;> dsimp only <;> omega
  | httpStops serves _ =>
      have positive := patience_pos process.httpShutdown
      simp only [rank, serves]
      omega
  | httpWaits serves silent fresh =>
      have less := patience_poll silent fresh
      simp only [rank, serves]
      omega
  | drained drains _ =>
      simp only [rank, drains]
      omega
  | grpcStops accepts _ =>
      have positive := patience_pos process.grpcShutdown
      simp only [rank, accepts]
      omega
  | grpcWaits accepts silent fresh =>
      have less := patience_poll silent fresh
      simp only [rank, accepts]
      omega
  | accepts accepts queued =>
      have more := patience_le (process.grpcShutdown.cancel ()) process.grpcShutdown
      simp only [rank, accepts, queued, List.length_cons]
      omega
  | @cancel task _ unfinished =>
      cases task with
      | http =>
          have ahead : process.http ≠ .done := by simpa [finished] using unfinished
          simp only [rank, cancelled]
          cases state : process.http with
          | serving =>
              dsimp only
              omega
          | draining =>
              dsimp only
              omega
          | done => exact absurd state ahead
      | grpc =>
          have accepts : process.grpc = some .accepting := by simpa [finished] using unfinished
          have positive := patience_pos process.grpcShutdown
          simp only [rank, cancelled, accepts]
          omega
      | relay =>
          have ahead : process.relay ≠ none ∧ process.relay ≠ some .done := by
            simpa [finished] using unfinished
          simp only [rank, cancelled]
          match state : process.relay with
          | none => exact absurd state ahead.1
          | some .awaiting =>
              dsimp only
              omega
          | some .toHttp =>
              dsimp only
              omega
          | some .toGrpc =>
              dsimp only
              omega
          | some .done => exact absurd state ahead.2
  | closeHttp held =>
      simp only [rank, held]
      omega
  | connectHttp _ => cases internal
  | connectGrpc _ => cases internal

/-- The tasks themselves need few moves. -/
theorem Coherent.rank_le {process : Process} (coherent : process.Coherent)
    (asked : process.requested = true) :
    process.rank ≤ 15 + process.connections + 2 * process.backlog.length := by
  have httpPatience := patience_le_two process.httpShutdown
  have grpcPatience := patience_le_two process.grpcShutdown
  have handle : (match process.handle with
      | .running => 10
      | .joining remaining => remaining.length + 1
      | _ => 0) ≤ 4 := by
    cases held : process.handle with
    | running => exact absurd held (coherent.handle asked).1
    | joining remaining => exact Nat.succ_le_succ (coherent.few remaining held)
    | _ => exact Nat.zero_le 4
  unfold rank
  generalize (match process.handle with
      | .running => 10
      | .joining remaining => remaining.length + 1
      | _ => 0) = handleRank at handle ⊢
  rcases process.relay with _ | _ | _ | _ | _ <;> rcases process.grpc with _ | _ | _ <;>
    cases process.http <;> dsimp only <;> omega

/-- A server that has been notified stops, or is cancelled. -/
theorem exists_step_of_serving {process : Process} (coherent : process.Coherent)
    (relayed : process.relay = some .done) (serves : process.http = .serving) :
    ∃ move, move.internal = true ∧ (process.step move).isSome = true := by
  cases aborted : process.aborted with
  | true =>
      exact ⟨.cancel .http, rfl, by simp [step, aborted, finished, serves]⟩
  | false =>
      have notified := Notifier.poll_of_pending (coherent.http aborted (.inr relayed) serves) ()
      exact ⟨.http, rfl, by simp [step, serves, notified]⟩

theorem exists_step_of_accepting {process : Process} (coherent : process.Coherent)
    (relayed : process.relay = some .done) (accepts : process.grpc = some .accepting) :
    ∃ move, move.internal = true ∧ (process.step move).isSome = true := by
  cases aborted : process.aborted with
  | true =>
      exact ⟨.cancel .grpc, rfl, by simp [step, aborted, finished, accepts]⟩
  | false =>
      have notified := Notifier.poll_of_pending (coherent.grpc aborted relayed accepts) ()
      exact ⟨.grpcNotified, rfl, by simp [step, accepts, notified]⟩

/-- A handle whose tasks have ended lets go of them. -/
theorem exists_step_of_finished {process : Process} (coherent : process.Coherent)
    (asked : process.requested = true) (ended : ∀ task, process.finished task = true)
    (closed : process.connections = 0) (unsettled : ¬ process.Settled) :
    ∃ move, move.internal = true ∧ (process.step move).isSome = true := by
  cases held : process.handle with
  | running => exact absurd held (coherent.handle asked).1
  | absent => exact absurd held (coherent.handle asked).2
  | returned => exact absurd ⟨ended, .inl held, closed⟩ unsettled
  | dropped => exact absurd ⟨ended, .inr held, closed⟩ unsettled
  | joining remaining =>
      cases remaining with
      | nil => exact ⟨.join, rfl, by simp [step, held]⟩
      | cons task rest =>
          exact ⟨.join, rfl, by simp [step, held, ended task]⟩

/-- A process asked to stop can go on until it is settled. -/
theorem exists_step {process : Process} (coherent : process.Coherent)
    (asked : process.requested = true) (unsettled : ¬ process.Settled) :
    ∃ move, move.internal = true ∧ (process.step move).isSome = true := by
  by_cases closed : process.connections = 0
  case neg =>
    obtain ⟨rest, held⟩ := Nat.exists_eq_succ_of_ne_zero closed
    exact ⟨.closeHttp, rfl, by simp [step, held]⟩
  match relayed : process.relay with
  | none => exact absurd relayed (coherent.relay asked)
  | some .awaiting => exact ⟨.relay, rfl, by simp [step, relayed, asked]⟩
  | some .toHttp => exact ⟨.relay, rfl, by simp [step, relayed]⟩
  | some .toGrpc => exact ⟨.relay, rfl, by simp [step, relayed]⟩
  | some .done =>
      cases http : process.http with
      | serving => exact exists_step_of_serving coherent relayed http
      | draining => exact ⟨.http, rfl, by simp [step, http, closed]⟩
      | done =>
          by_cases accepts : process.grpc = some .accepting
          · exact exists_step_of_accepting coherent relayed accepts
          · refine exists_step_of_finished coherent asked (fun task => ?_) closed unsettled
            cases task with
            | http => simp [finished, http]
            | grpc => simpa [finished] using accepts
            | relay => simp [finished, relayed]

/-- Once asked to stop, a process comes to its end. -/
theorem progress_of_requested :
    Progress step (fun move => move.internal = true)
      (fun process => process.Coherent ∧ process.requested = true) Settled rank where
  kept := fun holds stepped =>
    have moved := moves_of_step stepped
    ⟨holds.1.next moved, requested_of_moves moved holds.2⟩
  falls := fun _ internal stepped => rank_of_moves internal (moves_of_step stepped)
  moves := fun holds unsettled => exists_step holds.1 holds.2 unsettled

/--
Until a shutdown has been asked for no task ends, and when `shutdown` has
returned all of them have, with no HTTP connection left.
-/
theorem tasks_end_with_shutdown {ε : Type} (http : Except ε Unit) (grpc : Option (Except ε Unit))
    {first process : Process} (left : (start http grpc).2 = some first)
    (reaches : Reaches step first process) :
    (process.requested = false → ∀ task ∈ process.tasks, process.finished task = false) ∧
      (process.handle = .returned →
        (∀ task, process.finished task = true) ∧ process.connections = 0) := by
  have coherent := coherent_of_reaches left reaches
  constructor
  · intro unasked
    exact (coherent.untouched unasked).finished
  · intro returned
    have ended : ∀ task, process.finished task = true := fun task =>
      coherent.joined task (.inl returned)
    have live : process.aborted = false := by
      by_contra aborted
      have dropped := coherent.dropped (by simpa using aborted)
      exact nomatch returned.symm.trans dropped
    exact ⟨ended, coherent.drained live (by simpa [finished] using ended .http)⟩

/-- A client comes and goes, and the handle joins its tasks. -/
def orderlyStop : List Move :=
  [.connectHttp, .shutdown, .relay, .relay, .http, .closeHttp, .http, .relay, .join, .join, .join]

theorem tasks_end_with_shutdown_joined :
    ∃ first last, (start (ε := Unit) (.ok ()) none).2 = some first ∧
      runMoves step first orderlyStop = some last ∧
      last.handle = .returned ∧ last.connections = 0 :=
  ⟨_, _, rfl, rfl, rfl,
    ((tasks_end_with_shutdown (ε := Unit) (.ok ()) none rfl ⟨orderlyStop, rfl⟩).2 rfl).2⟩

/--
After a shutdown has been asked for, whatever the tasks and the clients have
done before, the moves left are bounded as long as no more clients arrive, and
where none is left all tasks have ended, the handle has let go of them and no
HTTP connection is open.
-/
theorem shutdown_settles {ε : Type} (http : Except ε Unit) (grpc : Option (Except ε Unit))
    {first process : Process} (left : (start http grpc).2 = some first)
    (reaches : Reaches step first process) (asked : process.requested = true)
    {moves : List Move} {last : Process} (inside : ∀ move ∈ moves, move.internal = true)
    (ran : runMoves step process moves = some last) :
    moves.length ≤ 15 + process.connections + 2 * process.backlog.length ∧
      ((∀ move, move.internal = true → last.step move = none) → last.Settled) := by
  have coherent := coherent_of_reaches left reaches
  have bounded := progress_of_requested.length_le ⟨coherent, asked⟩ inside ran
  have few := coherent.rank_le asked
  have holds := runMoves_invariant _ progress_of_requested.kept ⟨coherent, asked⟩ ran
  exact ⟨by omega, progress_of_requested.finished_of_stuck holds⟩

/-- A gRPC client arrives while the accept loop waits, and the handle is dropped. -/
def droppedHandle : List Move := [.grpcNotified, .connectGrpc true, .drop]

/-- The client is still accepted, and the relay overtakes one of the aborted tasks. -/
def abortedTasks : List Move :=
  [.grpcAccept, .relay, .cancel .http, .relay, .relay, .grpcNotified]

theorem shutdown_settles_dropped :
    ∃ first process last, (start (ε := Unit) (.ok ()) (some (.ok ()))).2 = some first ∧
      runMoves step first droppedHandle = some process ∧
      runMoves step process abortedTasks = some last ∧ last.Settled := by
  refine ⟨_, _, _, rfl, rfl, rfl,
    (shutdown_settles (ε := Unit) (.ok ()) (some (.ok ())) rfl ⟨droppedHandle, rfl⟩ rfl
      ?_ (rfl : runMoves step _ abortedTasks = _)).2 ?_⟩
  · simp [abortedTasks, Move.internal]
  · intro move internal
    cases move with
    | cancel task => cases task <;> rfl
    | connectHttp => cases internal
    | connectGrpc sound => cases internal
    | _ => rfl

/--
A start that fails on the gRPC side leaves the HTTP server it has spawned
serving: nothing that happens afterwards ends it.
-/
theorem failed_start_serves_on {ε : Type} (error : ε) :
    start (.ok ()) (some (.error error)) = (.error error, some spawned) ∧
      ∀ process, Reaches step spawned process →
        process.http = .serving ∧ (process.step .connectHttp).isSome = true := by
  refine ⟨rfl, fun process reaches => ?_⟩
  obtain ⟨moves, ran⟩ := reaches
  have holds : process.Coherent ∧ process.handle = .absent :=
    runMoves_invariant (fun process => process.Coherent ∧ process.handle = .absent)
      (fun holds stepped => ⟨holds.1.next (moves_of_step stepped),
        absent_of_moves (moves_of_step stepped) holds.2⟩)
      ⟨coherent_start (ε := ε) (.ok ()) (some (.error error)) rfl, rfl⟩ ran
  have serves : process.http = .serving := by
    have unasked : process.requested = false := by
      by_contra asked
      exact (holds.1.handle (by simpa using asked)).2 holds.2
    exact (holds.1.untouched unasked).http
  exact ⟨serves, by simp [step, serves]⟩

end Process

end SpecMock.Runtime
