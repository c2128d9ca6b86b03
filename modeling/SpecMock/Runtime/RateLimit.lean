import Mathlib.Data.List.Chain
import SpecMock.Library.Spacing
import SpecMock.Runtime.WebSockets

/-!
# The rate limit of a connection

The limiter counts messages in windows: a window lasts until a message arrives
a second or more after its start, and that message starts the next one.  A
window admits a hundred messages, wherever in it they arrive, so that the end of
one window and the start of the next may together admit more within a second.
-/

namespace SpecMock.Runtime

open SpecMock.Library

/-- A second in nanoseconds. -/
def second : Nat := 10 ^ 9

namespace RateLimiter

/-- The limiter after messages have arrived. -/
def after (limiter : RateLimiter) (arrivals : List Nat) : RateLimiter :=
  arrivals.foldl (fun limiter now => (limiter.checkAndUpdate now).1) limiter

/-- The times of the messages that are accepted. -/
def accepted (limiter : RateLimiter) : List Nat → List Nat
  | [] => []
  | now :: rest =>
      if (limiter.checkAndUpdate now).2 then now :: accepted (limiter.checkAndUpdate now).1 rest
      else accepted (limiter.checkAndUpdate now).1 rest

/--
Of the messages of a connection no more than a hundred are accepted within a
second, and one is refused only behind a hundred that were accepted in the
second before.
-/
structure Limits (start : Nat) (arrivals : List Nat) : Prop where
  bounded : ∀ since,
    (eventsWithin second since (accepted (.new start) arrivals)).length ≤ maxWsMessagesPerSecond
  refused : ∀ before now rest, arrivals = before ++ now :: rest →
    (((RateLimiter.new start).after before).checkAndUpdate now).2 = false →
      maxWsMessagesPerSecond ≤ ((accepted (.new start) before).filter fun time =>
        decide (now < time + second ∧ time ≤ now)).length

/-- The arrivals by windows, from one on that has started and holds some already. -/
def windowsFrom (start : Nat) (current : List Nat) : List Nat → List (List Nat)
  | [] => [current]
  | now :: rest =>
      if now - start ≥ second then current :: windowsFrom now [now] rest
      else windowsFrom start (current ++ [now]) rest

/-- The arrivals of a window that are accepted. -/
def admitted (window : List Nat) : List Nat := window.take maxWsMessagesPerSecond

/--
Where a window has `n` accepted messages, a message of the next window comes a
second or more after the one of this window that is `100 - n` places further.
-/
def WindowsApart (window next : List Nat) : Prop :=
  ∀ index first later, (admitted window)[index]? = some first →
    (admitted next)[index + maxWsMessagesPerSecond - (admitted window).length]? = some later →
      first + second ≤ later

theorem length_admitted (window : List Nat) :
    (admitted window).length = min maxWsMessagesPerSecond window.length := List.length_take

/-- A limiter in the middle of a window. -/
def within (start : Nat) (current : List Nat) : RateLimiter :=
  ⟨(admitted current).length, start⟩

theorem checkAndUpdate_of_elapsed {limiter : RateLimiter} {now : Nat}
    (elapsed : second ≤ now - limiter.windowStart) :
    limiter.checkAndUpdate now = (⟨1, now⟩, true) :=
  if_pos elapsed

theorem checkAndUpdate_of_full {limiter : RateLimiter} {now : Nat}
    (inside : ¬ second ≤ now - limiter.windowStart)
    (full : maxWsMessagesPerSecond ≤ limiter.messageCount) :
    limiter.checkAndUpdate now = (limiter, false) :=
  (if_neg inside).trans (if_pos full)

theorem checkAndUpdate_of_room {limiter : RateLimiter} {now : Nat}
    (inside : ¬ second ≤ now - limiter.windowStart)
    (room : ¬ maxWsMessagesPerSecond ≤ limiter.messageCount) :
    limiter.checkAndUpdate now =
      ({ limiter with messageCount := limiter.messageCount + 1 }, true) :=
  (if_neg inside).trans (if_neg room)

theorem admitted_append_of_full {current : List Nat} (now : Nat)
    (full : maxWsMessagesPerSecond ≤ (admitted current).length) :
    admitted (current ++ [now]) = admitted current := by
  rw [length_admitted] at full
  exact List.take_append_of_le_length (by omega)

theorem admitted_append_of_room {current : List Nat} (now : Nat)
    (room : ¬ maxWsMessagesPerSecond ≤ (admitted current).length) :
    admitted (current ++ [now]) = admitted current ++ [now] := by
  rw [length_admitted] at room
  rw [admitted, admitted, List.take_of_length_le (by simp; omega),
    List.take_of_length_le (by omega)]

/-- The first hundred messages of every window are accepted. -/
theorem admitted_append_accepted (start : Nat) (current arrivals : List Nat) :
    admitted current ++ accepted (within start current) arrivals =
      ((windowsFrom start current arrivals).map admitted).flatten := by
  induction arrivals generalizing start current with
  | nil => simp [windowsFrom, accepted]
  | cons now rest ih =>
      by_cases elapsed : now - start ≥ second
      · rw [windowsFrom, if_pos elapsed, List.map_cons, List.flatten_cons, ← ih, accepted,
          checkAndUpdate_of_elapsed elapsed]
        rfl
      · rw [windowsFrom, if_neg elapsed, ← ih, accepted]
        by_cases full : maxWsMessagesPerSecond ≤ (admitted current).length
        · rw [checkAndUpdate_of_full elapsed full, within, within,
            admitted_append_of_full now full]
          rfl
        · rw [checkAndUpdate_of_room elapsed full, within, within,
            admitted_append_of_room now full, List.append_assoc, List.length_append]
          rfl

theorem flatten_windowsFrom (start : Nat) (current arrivals : List Nat) :
    (windowsFrom start current arrivals).flatten = current ++ arrivals := by
  induction arrivals generalizing start current with
  | nil => simp [windowsFrom]
  | cons now rest ih =>
      rw [windowsFrom]
      split
      · rw [List.flatten_cons, ih, List.singleton_append]
      · rw [ih, List.append_assoc, List.singleton_append]

/-- Later windows begin a second or more after the start of a window. -/
theorem le_of_mem_tail_windowsFrom {start : Nat} {current arrivals : List Nat}
    (ordered : arrivals.Pairwise (· ≤ ·)) :
    ∀ time ∈ (windowsFrom start current arrivals).tail.flatten, start + second ≤ time := by
  induction arrivals generalizing start current with
  | nil => simp [windowsFrom]
  | cons now rest ih =>
      obtain ⟨first, others⟩ := List.pairwise_cons.mp ordered
      rw [windowsFrom]
      split
      next elapsed =>
        rw [List.tail_cons, flatten_windowsFrom]
        intro time member
        have later : now ≤ time := by
          rcases List.mem_cons.mp member with rfl | behind
          · exact Nat.le_refl _
          · exact first time behind
        have positive : 0 < second := by decide
        omega
      next => exact ih others

/-- What is not in the next window comes a second later. -/
theorem separated_windowsFrom {start : Nat} {current arrivals : List Nat}
    (ordered : (current ++ arrivals).Pairwise (· ≤ ·)) :
    Spaced.Separated second ((windowsFrom start current arrivals).map admitted) := by
  induction arrivals generalizing start current with
  | nil => exact trivial
  | cons now rest ih =>
      have split := List.pairwise_append.mp ordered
      rw [windowsFrom]
      split
      next elapsed =>
        have others := @ih now [now] split.2.1
        have far := @le_of_mem_tail_windowsFrom now [now] rest (List.pairwise_cons.mp split.2.1).2
        cases later : windowsFrom now [now] rest with
        | nil => exact trivial
        | cons next more =>
            rw [later] at others far
            refine ⟨fun time member time' behind => ?_, others⟩
            have before := split.2.2 time (List.mem_of_mem_take member) now List.mem_cons_self
            have inside : time' ∈ more.flatten := by
              obtain ⟨window, listed, held⟩ := List.mem_flatten.mp behind
              obtain ⟨whole, counted, rfl⟩ := List.mem_map.mp listed
              exact List.mem_flatten.mpr ⟨whole, counted, List.mem_of_mem_take held⟩
            have after := far time' inside
            omega
      next =>
        refine ih ?_
        rwa [List.append_assoc, List.singleton_append]

theorem accepted_sublist (limiter : RateLimiter) (arrivals : List Nat) :
    (accepted limiter arrivals).Sublist arrivals := by
  induction arrivals generalizing limiter with
  | nil => exact List.Sublist.slnil
  | cons now rest ih =>
      rw [accepted]
      split
      · exact (ih _).cons_cons now
      · exact (ih _).cons now

theorem accepted_new (start : Nat) (arrivals : List Nat) :
    accepted (.new start) arrivals = ((windowsFrom start [] arrivals).map admitted).flatten :=
  admitted_append_accepted start [] arrivals

/-- The bound holds in every second when neighbouring windows are apart, and only then. -/
theorem bounded_iff {start : Nat} {arrivals : List Nat} (ordered : arrivals.Pairwise (· ≤ ·)) :
    (∀ since, (eventsWithin second since (accepted (.new start) arrivals)).length ≤
      maxWsMessagesPerSecond) ↔ (windowsFrom start [] arrivals).IsChain WindowsApart := by
  have short : ∀ block ∈ (windowsFrom start [] arrivals).map admitted,
      block.length ≤ maxWsMessagesPerSecond := by
    intro block listed
    obtain ⟨window, -, rfl⟩ := List.mem_map.mp listed
    exact List.length_take_le _ _
  have separated := @separated_windowsFrom start [] arrivals ordered
  have apart : (fun window next =>
      Spaced maxWsMessagesPerSecond second (admitted window ++ admitted next)) = WindowsApart := by
    funext window next
    exact propext (Spaced.append_iff (List.length_take_le _ _) (List.length_take_le _ _))
  rw [Spaced.iff_length_eventsWithin (ordered.sublist (accepted_sublist _ _)), accepted_new,
    Spaced.flatten_iff separated short, List.isChain_map, apart]

/-- What is counted has been accepted since the window started. -/
def Counted (limiter : RateLimiter) (history : List Nat) : Prop :=
  limiter.messageCount ≤
    (history.filter fun time => decide (limiter.windowStart ≤ time)).length

theorem Counted.step {limiter : RateLimiter} {history : List Nat}
    (counted : limiter.Counted history) {now : Nat} (begun : limiter.windowStart ≤ now) :
    (limiter.checkAndUpdate now).1.windowStart ≤ now ∧
      (limiter.checkAndUpdate now).1.Counted
        (history ++ if (limiter.checkAndUpdate now).2 then [now] else []) := by
  by_cases elapsed : second ≤ now - limiter.windowStart
  · rw [checkAndUpdate_of_elapsed elapsed]
    exact ⟨Nat.le_refl now, by simp [Counted]⟩
  · by_cases full : maxWsMessagesPerSecond ≤ limiter.messageCount
    · rw [checkAndUpdate_of_full elapsed full]
      exact ⟨begun, by simpa using counted⟩
    · rw [checkAndUpdate_of_room elapsed full]
      refine ⟨begun, ?_⟩
      rw [Counted] at counted ⊢
      simp [begun, counted]

theorem Counted.run {limiter : RateLimiter} {history arrivals : List Nat}
    (counted : limiter.Counted history) (ordered : arrivals.Pairwise (· ≤ ·))
    (begun : ∀ time ∈ arrivals, limiter.windowStart ≤ time) :
    (limiter.after arrivals).Counted (history ++ accepted limiter arrivals) := by
  induction arrivals generalizing limiter history with
  | nil => simpa [after, accepted] using counted
  | cons now rest ih =>
      obtain ⟨first, others⟩ := List.pairwise_cons.mp ordered
      obtain ⟨start, next⟩ := counted.step (begun now List.mem_cons_self)
      have run := ih next others fun time member => start.trans (first time member)
      have joined : history ++ accepted limiter (now :: rest) =
          (history ++ if (limiter.checkAndUpdate now).2 then [now] else []) ++
            accepted (limiter.checkAndUpdate now).1 rest := by
        rw [accepted]
        split
        · simp
        · simp
      rwa [joined]

theorem of_refused {limiter : RateLimiter} {now : Nat}
    (refused : (limiter.checkAndUpdate now).2 = false) :
    now < limiter.windowStart + second ∧ maxWsMessagesPerSecond ≤ limiter.messageCount := by
  by_cases elapsed : second ≤ now - limiter.windowStart
  · rw [checkAndUpdate_of_elapsed elapsed] at refused
    cases refused
  · by_cases full : maxWsMessagesPerSecond ≤ limiter.messageCount
    · exact ⟨by omega, full⟩
    · rw [checkAndUpdate_of_room elapsed full] at refused
      cases refused

/-- A message is refused behind a hundred that were accepted in the second before it. -/
theorem refused_of_run {start : Nat} {arrivals : List Nat}
    (ordered : (start :: arrivals).Pairwise (· ≤ ·)) {before rest : List Nat} {now : Nat}
    (split : arrivals = before ++ now :: rest)
    (refused : (((RateLimiter.new start).after before).checkAndUpdate now).2 = false) :
    maxWsMessagesPerSecond ≤ ((accepted (.new start) before).filter fun time =>
      decide (now < time + second ∧ time ≤ now)).length := by
  obtain ⟨begun, whole⟩ := List.pairwise_cons.mp ordered
  rw [split] at whole begun
  have parts := List.pairwise_append.mp whole
  have initial : (RateLimiter.new start).Counted [] := Nat.le_refl 0
  have counted := initial.run parts.1 fun time member => begun time (List.mem_append_left _ member)
  obtain ⟨recent, full⟩ := of_refused refused
  refine full.trans (counted.trans ?_)
  rw [List.nil_append, ← List.countP_eq_length_filter, ← List.countP_eq_length_filter]
  refine List.countP_mono_left fun time member since => decide_eq_true ⟨?_, ?_⟩
  · have later := of_decide_eq_true since
    omega
  · exact parts.2.2 time ((accepted_sublist _ _).mem member) now List.mem_cons_self

/--
The limiter keeps its limit on the arrivals whose windows are apart, and on no
others: a refusal is always justified, and only the messages of two
neighbouring windows can exceed the limit together.
-/
theorem limits_iff {start : Nat} {arrivals : List Nat}
    (ordered : (start :: arrivals).Pairwise (· ≤ ·)) :
    Limits start arrivals ↔ (windowsFrom start [] arrivals).IsChain WindowsApart := by
  have increasing := (List.pairwise_cons.mp ordered).2
  rw [← bounded_iff increasing]
  constructor
  · exact Limits.bounded
  · intro bounded
    exact ⟨bounded, fun before now rest split refused => refused_of_run ordered split refused⟩

/-- A few messages in each of two windows stay under the limit. -/
theorem limits_fewMessages : Limits 0 [0, 5, 10 ^ 9 + 3] :=
  (limits_iff (by decide)).mpr (.cons_cons (fun index first later found reached => by
    simp [admitted, maxWsMessagesPerSecond] at reached) (.singleton _))

/-- A hundred messages at the end of a window and one at the start of the next. -/
def burstAtReset : List Nat := List.replicate 100 (10 ^ 9 - 1) ++ [10 ^ 9]

theorem burstAtReset_not_limited : burstAtReset.Pairwise (· ≤ ·) ∧ ¬ Limits 0 burstAtReset := by
  refine ⟨by decide, fun limits => ?_⟩
  have counted :
      (eventsWithin second (10 ^ 9 - 1) (accepted (.new 0) burstAtReset)).length = 101 := by
    decide
  have bounded := limits.bounded (10 ^ 9 - 1)
  rw [counted] at bounded
  exact absurd bounded (by decide)

end RateLimiter

end SpecMock.Runtime
