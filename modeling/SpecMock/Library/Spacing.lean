import Mathlib.Data.List.NodupEquivFin

/-!
# Spacing of events

Events at increasing points in time.  No interval of a width holds more than a
limit of them just when every event and the one that many places later are a
width apart.  Of events in consecutive blocks, whose blocks after the next are
always that far apart, only neighbouring blocks have to be compared.
-/

namespace SpecMock.Library

/-- The events in a half-open interval. -/
def eventsWithin (width start : Nat) (times : List Nat) : List Nat :=
  times.filter fun time => decide (start ≤ time ∧ time < start + width)

/-- An event and the one `limit` places later are a width apart. -/
def Spaced (limit width : Nat) (times : List Nat) : Prop :=
  ∀ index first later, times[index]? = some first → times[index + limit]? = some later →
    first + width ≤ later

namespace Spaced

variable {limit width : Nat} {times : List Nat}

/-- In order, an event is no later than one behind it. -/
theorem le_of_getElem? (ordered : times.Pairwise (· ≤ ·)) {index later first second : Nat}
    (behind : index ≤ later) (found : times[index]? = some first)
    (next : times[later]? = some second) : first ≤ second := by
  obtain ⟨inside, rfl⟩ := List.getElem?_eq_some_iff.mp found
  obtain ⟨far, rfl⟩ := List.getElem?_eq_some_iff.mp next
  rcases Nat.eq_or_lt_of_le behind with rfl | before
  · exact Nat.le_refl _
  · exact List.pairwise_iff_getElem.mp ordered index later inside far before

/-- Events in a row that all lie in an interval. -/
theorem lt_length_eventsWithin (ordered : times.Pairwise (· ≤ ·)) {index first later : Nat}
    (found : times[index]? = some first) (next : times[index + limit]? = some later)
    (close : later < first + width) : limit < (eventsWithin width first times).length := by
  obtain ⟨far, -⟩ := List.getElem?_eq_some_iff.mp next
  have row : (times.drop index).take (limit + 1) =
      eventsWithin width first ((times.drop index).take (limit + 1)) := by
    refine (List.filter_eq_self.mpr fun time member => ?_).symm
    obtain ⟨place, reached⟩ := List.getElem?_of_mem member
    rw [List.getElem?_take] at reached
    split at reached
    next inside =>
      rw [List.getElem?_drop] at reached
      have above := le_of_getElem? ordered (Nat.le_add_right index place) found reached
      have before : index + place ≤ index + limit := by omega
      have below := le_of_getElem? ordered before reached next
      exact decide_eq_true ⟨above, by omega⟩
    next => cases reached
  have length : ((times.drop index).take (limit + 1)).length = limit + 1 := by
    rw [List.length_take, List.length_drop]
    omega
  have sub : ((times.drop index).take (limit + 1)).Sublist times :=
    (List.take_sublist _ _).trans (List.drop_sublist _ _)
  have counted := (sub.filter fun time => decide (first ≤ time ∧ time < first + width)).length_le
  rw [show List.filter _ _ = _ from row.symm, length] at counted
  exact counted

/-- No interval holds more than the limit, exactly when the events are spaced. -/
theorem iff_length_eventsWithin (ordered : times.Pairwise (· ≤ ·)) :
    (∀ start, (eventsWithin width start times).length ≤ limit) ↔ Spaced limit width times := by
  constructor
  · intro bounded index first later found next
    by_contra close
    have more : limit < (eventsWithin width first times).length :=
      lt_length_eventsWithin ordered found next (by omega)
    exact absurd (bounded first) (by omega)
  · intro spaced start
    by_contra exceeded
    obtain ⟨place, embedded⟩ :=
      List.sublist_iff_exists_orderEmbedding_getElem?_eq.mp (List.filter_sublist (l := times)
        (p := fun time => decide (start ≤ time ∧ time < start + width)))
    have within : ∀ index < (eventsWithin width start times).length, ∃ time,
        times[place index]? = some time ∧ start ≤ time ∧ time < start + width := by
      intro index inside
      refine ⟨(eventsWithin width start times)[index], ?_, ?_⟩
      · rw [← embedded index]
        exact List.getElem?_eq_getElem inside
      · exact of_decide_eq_true (List.mem_filter.mp (List.getElem_mem inside)).2
    obtain ⟨first, found, above, -⟩ := within 0 (by omega)
    obtain ⟨last, reached, -, below⟩ := within limit (by omega)
    have apart : place 0 + limit ≤ place limit := by
      have grows : ∀ steps, place 0 + steps ≤ place steps := by
        intro steps
        induction steps with
        | zero => exact Nat.le_refl _
        | succ steps ih =>
            have next := place.lt_iff_lt.mpr (show steps < steps + 1 by omega)
            omega
      exact grows limit
    obtain ⟨far, -⟩ := List.getElem?_eq_some_iff.mp reached
    have inside : place 0 + limit < times.length := by omega
    have next : times[place 0 + limit]? = some times[place 0 + limit] :=
      List.getElem?_eq_getElem inside
    have distance := spaced _ _ _ found next
    have order := le_of_getElem? ordered apart next reached
    omega

theorem nil : Spaced limit width [] := by
  intro index first later found
  simp at found

theorem of_length_le (short : times.length ≤ limit) : Spaced limit width times := by
  intro index first later found next
  obtain ⟨far, -⟩ := List.getElem?_eq_some_iff.mp next
  omega

theorem of_append_left {more : List Nat} (spaced : Spaced limit width (times ++ more)) :
    Spaced limit width times := by
  intro index first later found next
  refine spaced index first later ?_ ?_
  · rw [List.getElem?_append_left (List.getElem?_eq_some_iff.mp found).1, found]
  · rw [List.getElem?_append_left (List.getElem?_eq_some_iff.mp next).1, next]

theorem of_append_right {before : List Nat} (spaced : Spaced limit width (before ++ times)) :
    Spaced limit width times := by
  intro index first later found next
  refine spaced (before.length + index) first later ?_ ?_
  · rw [List.getElem?_append_right (by omega), Nat.add_sub_cancel_left, found]
  · rw [List.getElem?_append_right (by omega),
      show before.length + index + limit - before.length = index + limit by omega, next]

/-- A block and what stands far behind it do not have to be compared. -/
theorem append_append {block next rest : List Nat}
    (apart : ∀ time ∈ block, ∀ later ∈ rest, time + width ≤ later) :
    Spaced limit width (block ++ (next ++ rest)) ↔
      Spaced limit width (block ++ next) ∧ Spaced limit width (next ++ rest) := by
  constructor
  · intro spaced
    refine ⟨?_, of_append_right spaced⟩
    rw [← List.append_assoc] at spaced
    exact of_append_left spaced
  · rintro ⟨neighbours, others⟩ index first later found reached
    by_cases inside : index < block.length
    · have first_mem : first ∈ block := by
        rw [List.getElem?_append_left inside] at found
        exact List.mem_of_getElem? found
      rw [← List.append_assoc] at reached
      by_cases close : index + limit < (block ++ next).length
      · refine neighbours index first later ?_ ?_
        · rw [List.getElem?_append_left inside] at found ⊢
          exact found
        · rwa [List.getElem?_append_left close] at reached
      · rw [List.getElem?_append_right (by omega)] at reached
        exact apart first first_mem later (List.mem_of_getElem? reached)
    · rw [List.getElem?_append_right (by omega)] at found reached
      refine others (index - block.length) first later found ?_
      rwa [show index - block.length + limit = index + limit - block.length by omega]

/-- The blocks behind the next one are a width away. -/
def Separated (width : Nat) : List (List Nat) → Prop
  | block :: next :: rest =>
      (∀ time ∈ block, ∀ later ∈ rest.flatten, time + width ≤ later) ∧
        Separated width (next :: rest)
  | _ => True

/-- Of separated short blocks, only neighbours have to be compared. -/
theorem flatten_iff {blocks : List (List Nat)} (separated : Separated width blocks)
    (short : ∀ block ∈ blocks, block.length ≤ limit) :
    Spaced limit width blocks.flatten ↔
      blocks.IsChain fun block next => Spaced limit width (block ++ next) := by
  induction blocks with
  | nil => exact iff_of_true nil .nil
  | cons block rest ih =>
      cases rest with
      | nil =>
          refine iff_of_true ?_ (.singleton _)
          rw [List.flatten_cons, List.flatten_nil, List.append_nil]
          exact of_length_le (short block List.mem_cons_self)
      | cons next rest =>
          obtain ⟨apart, others⟩ := separated
          rw [List.isChain_cons_cons, ← ih others (List.forall_mem_cons.mp short).2,
            List.flatten_cons, List.flatten_cons, append_append apart]

/-- Two short blocks, compared place by place. -/
theorem append_iff {block next : List Nat} (shortBlock : block.length ≤ limit)
    (shortNext : next.length ≤ limit) :
    Spaced limit width (block ++ next) ↔ ∀ index first later, block[index]? = some first →
      next[index + limit - block.length]? = some later → first + width ≤ later := by
  constructor
  · intro spaced index first later found reached
    have inside := (List.getElem?_eq_some_iff.mp found).1
    refine spaced index first later ?_ ?_
    · rw [List.getElem?_append_left inside, found]
    · rw [List.getElem?_append_right (by omega), reached]
  · intro compared index first later found reached
    have far := (List.getElem?_eq_some_iff.mp reached).1
    rw [List.length_append] at far
    rw [List.getElem?_append_left (by omega)] at found
    rw [List.getElem?_append_right (by omega)] at reached
    exact compared index first later found reached

end Spaced

end SpecMock.Library
