import SpecMock.Core.Reachability
import SpecMock.Runtime.Accepted

/-!
# Warnings about a sidecar

Loading a sidecar reports the dead states of every scenario and the operations
of the catalogue that go unused.  The loop over the scenarios reports both: a
dead state belongs to its scenario, but an operation is reported once for every
scenario that leaves it out, whatever the other scenarios do with it.
-/

namespace SpecMock.Runtime

open SpecMock.Library SpecMock.Core

/-- Non-fatal observations worth reporting. -/
inductive SidecarWarning where
  /-- A declared state no transition can reach. -/
  | unreachableState (scenario state : String)
  /-- An operation no scenario references. -/
  | unusedOperation (operation : String)
  deriving DecidableEq

/-- The operations that the states of a scenario name. -/
def usedOperations (scenario : ScenarioEntry) : List String :=
  scenario.states.entries.flatMap fun declared => declared.2.keys

/-- What the loop reports about one scenario. -/
def scenarioWarnings (catalogue : List String) (scenario : ScenarioEntry) :
    List SidecarWarning :=
  let used := usedOperations scenario
  let machine := ScenarioEntry.machine scenario
  (machine.unreachableStates.map fun state => .unreachableState scenario.name state.name) ++
    (catalogue.filter fun operation => decide (operation ∉ used)).map .unusedOperation

def collectWarnings (sidecar : Sidecar) : List SidecarWarning :=
  sidecar.scenarios.flatMap (scenarioWarnings sidecar.operations.keys)

/-- Some state of the scenario declares the operation. -/
def References (scenario : ScenarioEntry) (operation : String) : Prop :=
  ∃ declared ∈ scenario.states.entries, declared.2.containsKey operation = true

/-- A declared state where no sequence of declared transitions from the initial state ends. -/
def DeadState (scenario : ScenarioEntry) (state : String) : Prop :=
  scenario.states.containsKey state = true ∧
    ¬ (ScenarioEntry.machine scenario).Reaches ⟨scenario.initialState⟩ ⟨state⟩

theorem mem_usedOperations {scenario : ScenarioEntry} {operation : String} :
    operation ∈ usedOperations scenario ↔ References scenario operation := by
  unfold usedOperations References
  simp only [List.mem_flatMap, OrderedMap.mem_keys]

theorem ScenarioEntry.declares_machine {scenario : ScenarioEntry} {state : String} :
    (ScenarioEntry.machine scenario).Declares ⟨state⟩ ↔
      scenario.states.containsKey state = true := by
  unfold Scenario.Declares OrderedMap.containsKey
  rw [ScenarioEntry.states_get_machine]
  simp

theorem unreachableState_mem {catalogue : List String} {scenario : ScenarioEntry}
    {name state : String} :
    .unreachableState name state ∈ scenarioWarnings catalogue scenario ↔
      scenario.name = name ∧ DeadState scenario state := by
  have dead : ⟨state⟩ ∈ (ScenarioEntry.machine scenario).unreachableStates ↔
      DeadState scenario state := by
    rw [Scenario.mem_unreachableStates, ← Scenario.reaches_iff,
      ScenarioEntry.declares_machine]
    rfl
  rw [← dead]
  unfold scenarioWarnings
  constructor
  · intro member
    rcases List.mem_append.mp member with reported | other
    · obtain ⟨found, inside, same⟩ := List.mem_map.mp reported
      cases same
      exact ⟨rfl, inside⟩
    · obtain ⟨operation, _, clash⟩ := List.mem_map.mp other
      cases clash
  · rintro ⟨rfl, inside⟩
    exact List.mem_append_left _ (List.mem_map.mpr ⟨_, inside, rfl⟩)

theorem unusedOperation_mem {catalogue : List String} {scenario : ScenarioEntry}
    {operation : String} :
    .unusedOperation operation ∈ scenarioWarnings catalogue scenario ↔
      operation ∈ catalogue ∧ ¬ References scenario operation := by
  rw [← mem_usedOperations]
  unfold scenarioWarnings
  constructor
  · intro member
    rcases List.mem_append.mp member with other | reported
    · obtain ⟨state, _, clash⟩ := List.mem_map.mp other
      cases clash
    · obtain ⟨found, inside, same⟩ := List.mem_map.mp reported
      cases same
      simpa using inside
  · intro unused
    exact List.mem_append_right _ (List.mem_map.mpr ⟨operation, by simpa using unused, rfl⟩)

/-- No scenario reports anything twice. -/
theorem scenarioWarnings_nodup {catalogue : List String} (distinct : catalogue.Nodup)
    (scenario : ScenarioEntry) : (scenarioWarnings catalogue scenario).Nodup := by
  have states : (ScenarioEntry.machine scenario).unreachableStates.Nodup :=
    (ScenarioEntry.machine scenario).unreachableStates_sorted.imp fun below => ne_of_lt below
  refine List.Nodup.append (states.map ?_) ((distinct.filter _).map ?_) ?_
  · intro left right same
    exact State.name_injective (SidecarWarning.unreachableState.inj same).2
  · exact fun left right same => SidecarWarning.unusedOperation.inj same
  · intro warning reported unused
    obtain ⟨state, _, rfl⟩ := List.mem_map.mp reported
    obtain ⟨operation, _, clash⟩ := List.mem_map.mp unused
    cases clash

/-- When no list repeats an item, it stands in their concatenation once for each list with it. -/
theorem count_flatMap_of_nodup {α β : Type} [DecidableEq β] {lists : α → List β} {items : List α}
    (distinct : ∀ item ∈ items, (lists item).Nodup) (wanted : β) :
    (items.flatMap lists).count wanted = items.countP fun item => decide (wanted ∈ lists item) := by
  induction items with
  | nil => rfl
  | cons item rest ih =>
      obtain ⟨here, later⟩ := List.forall_mem_cons.mp distinct
      rw [List.flatMap_cons, List.count_append, ih later, List.countP_cons]
      by_cases member : wanted ∈ lists item
      · rw [List.count_eq_one_of_mem here member]
        simp [member, Nat.add_comm]
      · rw [List.count_eq_zero_of_not_mem member]
        simp [member]

theorem count_collectWarnings (sidecar : Sidecar) (warning : SidecarWarning) :
    (collectWarnings sidecar).count warning =
      sidecar.scenarios.countP fun scenario =>
        decide (warning ∈ scenarioWarnings sidecar.operations.keys scenario) :=
  count_flatMap_of_nodup (fun scenario _ =>
    scenarioWarnings_nodup sidecar.operations.keys_nodup scenario) warning

theorem mem_collectWarnings {sidecar : Sidecar} {warning : SidecarWarning} :
    warning ∈ collectWarnings sidecar ↔
      ∃ scenario ∈ sidecar.scenarios,
        warning ∈ scenarioWarnings sidecar.operations.keys scenario :=
  List.mem_flatMap

/-- In a sidecar with distinct scenario names a dead state is reported exactly once. -/
theorem count_unreachableState {sidecar : Sidecar}
    (names : (sidecar.scenarios.map ScenarioEntry.name).Nodup) {scenario : ScenarioEntry}
    (declared : scenario ∈ sidecar.scenarios) {state : String}
    (dead : DeadState scenario state) :
    (collectWarnings sidecar).count (.unreachableState scenario.name state) = 1 := by
  rw [count_collectWarnings]
  apply Nat.le_antisymm
  · -- At most one scenario has the name.
    have once : (sidecar.scenarios.map ScenarioEntry.name).count scenario.name ≤ 1 :=
      List.nodup_iff_count_le_one.mp names scenario.name
    rw [List.count, List.countP_map] at once
    refine le_trans (List.countP_mono_left ?_) once
    intro other _ reported
    have named := (unreachableState_mem.mp (of_decide_eq_true reported)).1
    simpa using named
  · exact List.countP_pos_iff.mpr
      ⟨scenario, declared, decide_eq_true (unreachableState_mem.mpr ⟨rfl, dead⟩)⟩

/-- An operation of the catalogue is reported once for every scenario without it. -/
theorem count_unusedOperation {sidecar : Sidecar} {operation : String}
    (known : operation ∈ sidecar.operations.keys) :
    (collectWarnings sidecar).count (.unusedOperation operation) =
      sidecar.scenarios.countP fun scenario =>
        decide (operation ∉ usedOperations scenario) := by
  rw [count_collectWarnings]
  apply List.countP_congr
  intro scenario _
  rw [decide_eq_true_iff, decide_eq_true_iff, unusedOperation_mem, mem_usedOperations]
  exact and_iff_right known

/-- Every warning is about what it says, and is given once. -/
structure WarningsExact (sidecar : Sidecar) : Prop where
  unused : ∀ operation ∈ sidecar.operations.keys,
    (∀ scenario ∈ sidecar.scenarios, ¬ References scenario operation) →
    (collectWarnings sidecar).count (.unusedOperation operation) = 1
  referenced : ∀ operation, .unusedOperation operation ∈ collectWarnings sidecar →
    operation ∈ sidecar.operations.keys ∧
      ∀ scenario ∈ sidecar.scenarios, ¬ References scenario operation
  dead : ∀ scenario ∈ sidecar.scenarios, ∀ state, DeadState scenario state →
    (collectWarnings sidecar).count (.unreachableState scenario.name state) = 1
  live : ∀ name state, .unreachableState name state ∈ collectWarnings sidecar →
    ∃ scenario ∈ sidecar.scenarios, scenario.name = name ∧ DeadState scenario state

/-- Every scenario uses the whole catalogue, or there is just one scenario. -/
def UsesAgree (sidecar : Sidecar) : Prop :=
  sidecar.operations.keys = [] ∨ sidecar.scenarios.length = 1 ∨
    sidecar.scenarios ≠ [] ∧ ∀ scenario ∈ sidecar.scenarios,
      ∀ operation ∈ sidecar.operations.keys, References scenario operation

/--
What exactness asks of the catalogue: an operation that no scenario uses needs
a single scenario to report it, and one left out by some is left out by all.
-/
theorem warningsExact_iff_operations (validated : ValidatedSidecar) :
    WarningsExact validated.sidecar ↔
      ∀ operation ∈ validated.sidecar.operations.keys,
        ((∀ scenario ∈ validated.sidecar.scenarios, ¬ References scenario operation) →
          validated.sidecar.scenarios.length = 1) ∧
        ∀ scenario ∈ validated.sidecar.scenarios, ¬ References scenario operation →
          ∀ other ∈ validated.sidecar.scenarios, ¬ References other operation := by
  have wellFormed := validate_eq_ok.mp validated.valid
  have everywhere : ∀ operation ∈ validated.sidecar.operations.keys,
      (∀ scenario ∈ validated.sidecar.scenarios, ¬ References scenario operation) →
      (collectWarnings validated.sidecar).count (.unusedOperation operation) =
        validated.sidecar.scenarios.length := by
    intro operation known unused
    rw [count_unusedOperation known, List.countP_eq_length]
    intro scenario declared
    exact decide_eq_true fun named =>
      unused scenario declared (mem_usedOperations.mp named)
  constructor
  · intro exact operation known
    refine ⟨fun unused => ?_, fun scenario declared unnamed => ?_⟩
    · rw [← everywhere operation known unused]
      exact exact.unused operation known unused
    · have reported := mem_collectWarnings.mpr
        ⟨scenario, declared, unusedOperation_mem.mpr ⟨known, unnamed⟩⟩
      exact (exact.referenced operation reported).2
  · intro operations
    refine ⟨?_, ?_, ?_, ?_⟩
    · intro operation known unused
      rw [everywhere operation known unused]
      exact (operations operation known).1 unused
    · intro operation reported
      obtain ⟨scenario, declared, member⟩ := mem_collectWarnings.mp reported
      obtain ⟨known, unnamed⟩ := unusedOperation_mem.mp member
      exact ⟨known, (operations operation known).2 scenario declared unnamed⟩
    · exact fun scenario declared state dead =>
        count_unreachableState wellFormed.names declared dead
    · intro name state reported
      obtain ⟨scenario, declared, member⟩ := mem_collectWarnings.mp reported
      exact ⟨scenario, declared, unreachableState_mem.mp member⟩

/--
The warnings of an accepted sidecar are exact if and only if it has a single
scenario, or has scenarios that all use every operation of its catalogue, or
has no catalogue.
-/
theorem warningsExact_iff (validated : ValidatedSidecar) :
    WarningsExact validated.sidecar ↔ UsesAgree validated.sidecar := by
  rw [warningsExact_iff_operations]
  constructor
  · intro operations
    by_cases agree : UsesAgree validated.sidecar
    · exact agree
    exfalso
    obtain ⟨catalogued, several, apart⟩ :
        validated.sidecar.operations.keys ≠ [] ∧ validated.sidecar.scenarios.length ≠ 1 ∧
          ¬ (validated.sidecar.scenarios ≠ [] ∧ ∀ scenario ∈ validated.sidecar.scenarios,
            ∀ operation ∈ validated.sidecar.operations.keys, References scenario operation) := by
      simpa only [UsesAgree, not_or] using agree
    by_cases unused : ∃ operation ∈ validated.sidecar.operations.keys,
        ∃ scenario ∈ validated.sidecar.scenarios, ¬ References scenario operation
    · obtain ⟨operation, known, scenario, declared, unnamed⟩ := unused
      obtain ⟨single, spread⟩ := operations operation known
      exact several (single (spread scenario declared unnamed))
    · -- Every scenario uses everything, so there is none.
      have none : validated.sidecar.scenarios = [] := by
        by_contra some
        refine apart ⟨some, fun scenario declared operation known => ?_⟩
        by_contra unnamed
        exact unused ⟨operation, known, scenario, declared, unnamed⟩
      obtain ⟨operation, known⟩ := List.exists_mem_of_ne_nil _ catalogued
      refine several ((operations operation known).1 ?_)
      simp [none]
  · rintro (empty | single | ⟨some, whole⟩) operation known
    · simp [empty] at known
    · obtain ⟨only, alone⟩ := List.length_eq_one_iff.mp single
      refine ⟨fun _ => single, fun scenario declared unnamed other also => ?_⟩
      rw [alone, List.mem_singleton] at declared also
      rw [also, ← declared]
      exact unnamed
    · refine ⟨fun unused => ?_, fun scenario declared unnamed => ?_⟩
      · obtain ⟨scenario, declared⟩ := List.exists_mem_of_ne_nil _ some
        exact absurd (whole scenario declared operation known) (unused scenario declared)
      · exact absurd (whole scenario declared operation known) unnamed

/-- Two scenarios that divide the catalogue between them. -/
def dividedSidecar : Sidecar where
  version := 1
  operations := OrderedMap.collect
    [("createUser", ⟨⟨"POST", "/users"⟩, none, ∅⟩), ("listUsers", ⟨⟨"GET", "/users"⟩, none, ∅⟩)]
  scenarios :=
    [⟨"signUp", "open", [], OrderedMap.collect
        [("open", OrderedMap.collect [("createUser", ⟨none, ∅⟩)])]⟩,
      ⟨"browse", "open", [], OrderedMap.collect
        [("open", OrderedMap.collect [("listUsers", ⟨none, ∅⟩)])]⟩]

def validatedDivided : ValidatedSidecar where
  sidecar := dividedSidecar
  supported := rfl
  valid := by decide

/-- Each of two scenarios reports the operation that the other one uses. -/
theorem divided_catalogue_reported : ¬ WarningsExact validatedDivided.sidecar := by
  intro exact
  have reported : .unusedOperation "createUser" ∈ collectWarnings validatedDivided.sidecar :=
    mem_collectWarnings.mpr ⟨_, List.mem_cons_of_mem _ List.mem_cons_self,
      unusedOperation_mem.mpr ⟨by decide, by
        rw [← mem_usedOperations]
        decide⟩⟩
  refine (exact.referenced _ reported).2 _ List.mem_cons_self ?_
  rw [← mem_usedOperations]
  decide

end SpecMock.Runtime
