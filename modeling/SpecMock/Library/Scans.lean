import SpecMock.Library.Machine

/-!
# Scans of a machine that moves

A scan reads the keys of a list one by one, and before each read the machine may
take calls of others.  What a scan finds under a key was there at some moment
of these calls, and a key that is there through all of them is found.
-/

namespace SpecMock.Library

section Scans

variable {σ ι ρ κ α : Type}

/-- Read keys one by one, each after the calls that stand before it. -/
def scan (exec : σ → ι → σ × ρ) (read : σ → κ → Option α) :
    σ → List (List ι × κ) → σ × List (κ × α)
  | state, [] => (state, [])
  | state, (calls, key) :: rest =>
      let moved := stateAfter exec state calls
      let others := scan exec read moved rest
      (others.1, ((read moved key).map fun value => (key, value)).toList ++ others.2)

/-- The calls that others make during a scan. -/
def scanCalls (reads : List (List ι × κ)) : List ι := reads.flatMap Prod.fst

variable {exec : σ → ι → σ × ρ} {read : σ → κ → Option α}

theorem scan_state (state : σ) (reads : List (List ι × κ)) :
    (scan exec read state reads).1 = stateAfter exec state (scanCalls reads) := by
  induction reads generalizing state with
  | nil => rfl
  | cons first rest ih =>
      obtain ⟨calls, key⟩ := first
      rw [scanCalls, List.flatMap_cons, stateAfter_append]
      exact ih _

/-- The keys that are found are among those that are read, in their order. -/
theorem scan_keys_sublist (state : σ) (reads : List (List ι × κ)) :
    ((scan exec read state reads).2.map Prod.fst).Sublist (reads.map Prod.snd) := by
  induction reads generalizing state with
  | nil => exact .slnil
  | cons first rest ih =>
      obtain ⟨calls, key⟩ := first
      rw [scan, List.map_append, List.map_cons]
      cases read (stateAfter exec state calls) key with
      | none => exact (ih _).cons key
      | some value => exact (ih _).cons_cons key

/-- Whatever is found was there at some moment. -/
theorem exists_of_mem_scan {state : σ} {reads : List (List ι × κ)} {found : κ × α}
    (member : found ∈ (scan exec read state reads).2) :
    ∃ before after, scanCalls reads = before ++ after ∧
      read (stateAfter exec state before) found.1 = some found.2 := by
  induction reads generalizing state with
  | nil => cases member
  | cons first rest ih =>
      obtain ⟨calls, key⟩ := first
      rcases List.mem_append.mp member with here | later
      · obtain ⟨value, there, rfl⟩ := Option.map_eq_some_iff.mp (Option.mem_toList.mp here)
        exact ⟨calls, scanCalls rest, rfl, there⟩
      · obtain ⟨before, after, split, there⟩ := ih later
        refine ⟨calls ++ before, after, ?_, ?_⟩
        · rw [List.append_assoc, ← split]
          rfl
        · rw [stateAfter_append]
          exact there

/-- What is there at every moment of the calls of the others is found. -/
theorem exists_mem_scan {key : κ} {reads : List (List ι × κ)} {state : σ}
    (there : ∀ before after, scanCalls reads = before ++ after →
      (read (stateAfter exec state before) key).isSome = true)
    (listed : key ∈ reads.map Prod.snd) :
    ∃ value, (key, value) ∈ (scan exec read state reads).2 := by
  induction reads generalizing state with
  | nil => cases listed
  | cons first rest ih =>
      obtain ⟨calls, other⟩ := first
      rcases List.mem_cons.mp listed with rfl | behind
      · obtain ⟨value, found⟩ := Option.isSome_iff_exists.mp (there calls (scanCalls rest) rfl)
        refine ⟨value, List.mem_append_left _ ?_⟩
        rw [found]
        exact List.mem_singleton_self _
      · have later : ∀ before after, scanCalls rest = before ++ after →
            (read (stateAfter exec (stateAfter exec state calls) before) key).isSome = true := by
          intro before after split
          rw [← stateAfter_append]
          refine there (calls ++ before) after ?_
          rw [List.append_assoc, ← split]
          rfl
        obtain ⟨value, member⟩ := ih later behind
        exact ⟨value, List.mem_append_right _ member⟩

/-- When nobody interferes, a scan is a lookup of every key in one state. -/
theorem scan_quiet {reads : List (List ι × κ)} (quiet : scanCalls reads = []) (state : σ) :
    (scan exec read state reads).2 =
      (reads.map Prod.snd).filterMap fun key => (read state key).map fun value => (key, value) := by
  induction reads with
  | nil => rfl
  | cons first rest ih =>
      obtain ⟨calls, key⟩ := first
      obtain ⟨rfl, still⟩ := List.append_eq_nil_iff.mp quiet
      rw [scan, stateAfter_nil, ih still, List.map_cons, List.filterMap_cons]
      cases read state key with
      | none => rfl
      | some value => rfl

end Scans

end SpecMock.Library
