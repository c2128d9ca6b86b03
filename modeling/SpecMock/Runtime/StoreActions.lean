import SpecMock.Runtime.Scenarios

/-!
# What a request does to a store

The store part of a request in one relation: the key it addresses, what it
finds there, the store it leaves and the answer it gives.
-/

namespace SpecMock.Runtime

open SpecMock.Library SpecMock.Core

/-- The key a store action addresses, none for a listing or an absent identifier. -/
def storeKeyOf (spec : StoreSpec) (params : PathParams) (request : Option Value)
    (response : Value) : Option StoreKey :=
  let id := match spec.action with
    | .list => none
    | .create => resolveCreateKey spec request response
    | .read | .update | .delete => resolveKey spec params request response
  id.map fun id => ⟨bindNamespace spec.resource params, id⟩

/-- Everything a store action can do, with what it found. -/
inductive Applies (store : Store) (spec : StoreSpec) (params : PathParams)
    (request : Option Value) (response : Value) (createValue : CreateValue) :
    Store × Except StatefulFailure Resolution → Prop where
  | listed (listing : spec.action = .list) :
      Applies store spec params request response createValue
        (store, .ok (.body (.array (store.list (bindNamespace spec.resource params)))))
  | unaddressed (keyed : spec.action ≠ .list)
      (missing : storeKeyOf spec params request response = none) :
      Applies store spec params request response createValue
        (store, .error (.resourceNotFound (bindNamespace spec.resource params)))
  | created {key : StoreKey} {after : Store} (creating : spec.action = .create)
      (addressed : storeKeyOf spec params request response = some key)
      (room : store.count < store.limit) (absent : store.read key = none)
      (filed : after.entries = store.entries.insert key
        (createdValue spec request response createValue key.id))
      (counted : after.limit = store.limit ∧ after.count = store.count + 1) :
      Applies store spec params request response createValue
        (after, .ok (.body (createdValue spec request response createValue key.id)))
  | full {key : StoreKey} (creating : spec.action = .create)
      (addressed : storeKeyOf spec params request response = some key)
      (full : store.limit ≤ store.count) :
      Applies store spec params request response createValue
        (store, .error (.storeCapExceeded store.limit))
  | taken {key : StoreKey} (creating : spec.action = .create)
      (addressed : storeKeyOf spec params request response = some key)
      (present : (store.read key).isSome = true) :
      Applies store spec params request response createValue
        (store, .error (.resourceExists key.toText))
  | found {key : StoreKey} {value : Value} (reading : spec.action = .read)
      (addressed : storeKeyOf spec params request response = some key)
      (present : store.read key = some value) :
      Applies store spec params request response createValue (store, .ok (.body value))
  | absent {key : StoreKey}
      (keyed : spec.action = .read ∨ spec.action = .update ∨ spec.action = .delete)
      (addressed : storeKeyOf spec params request response = some key)
      (absent : store.read key = none) :
      Applies store spec params request response createValue
        (store, .error (.resourceNotFound key.toText))
  | updated {key : StoreKey} (updating : spec.action = .update)
      (addressed : storeKeyOf spec params request response = some key)
      (present : (store.read key).isSome = true) :
      Applies store spec params request response createValue
        ({ store with entries := store.entries.insert key (request.getD .null) },
          .ok (.body (request.getD .null)))
  | deleted {key : StoreKey} {after : Store} (deleting : spec.action = .delete)
      (addressed : storeKeyOf spec params request response = some key)
      (present : (store.read key).isSome = true)
      (removed : after.entries = store.entries.erase key) :
      Applies store spec params request response createValue (after, .ok .empty)

section Addressing

variable {spec : StoreSpec} {params : PathParams} {request : Option Value} {response : Value}

theorem storeKeyOf_of_create (creating : spec.action = .create) :
    storeKeyOf spec params request response =
      (resolveCreateKey spec request response).map
        (StoreKey.mk (bindNamespace spec.resource params)) := by
  simp only [storeKeyOf, creating]

theorem storeKeyOf_of_keyed
    (keyed : spec.action = .read ∨ spec.action = .update ∨ spec.action = .delete) :
    storeKeyOf spec params request response =
      (resolveKey spec params request response).map
        (StoreKey.mk (bindNamespace spec.resource params)) := by
  rcases keyed with action | action | action <;> simp only [storeKeyOf, action]

/-- An action that should address a resource, and does not, finds nothing. -/
theorem applyStore_of_unaddressed (keyed : spec.action ≠ .list)
    (missing : storeKeyOf spec params request response = none) (store : Store)
    (createValue : CreateValue) :
    applyStore store spec params request response createValue =
      (store, .error (.resourceNotFound (bindNamespace spec.resource params))) := by
  have created (creating : spec.action = .create) :
      resolveCreateKey spec request response = none := by
    rwa [storeKeyOf_of_create creating, Option.map_eq_none_iff] at missing
  have named (action : spec.action = .read ∨ spec.action = .update ∨ spec.action = .delete) :
      resolveKey spec params request response = none := by
    rwa [storeKeyOf_of_keyed action, Option.map_eq_none_iff] at missing
  cases action : spec.action with
  | list => exact absurd action keyed
  | create => simp only [applyStore, action, created action]
  | read => simp only [applyStore, action, named (.inl action)]
  | update => simp only [applyStore, action, named (.inr (.inl action))]
  | delete => simp only [applyStore, action, named (.inr (.inr action))]

end Addressing

theorem applyStore_applies (store : Store) (spec : StoreSpec) (params : PathParams)
    (request : Option Value) (response : Value) (createValue : CreateValue) :
    Applies store spec params request response createValue
      (applyStore store spec params request response createValue) := by
  by_cases listing : spec.action = .list
  · simp only [applyStore, listing]
    exact .listed listing
  cases addressed : storeKeyOf spec params request response with
  | none =>
      rw [applyStore_of_unaddressed listing addressed]
      exact .unaddressed listing addressed
  | some key =>
      cases action : spec.action with
      | list => exact absurd action listing
      | create =>
          have keyed := (storeKeyOf_of_create action).symm.trans addressed
          obtain ⟨id, resolved, rfl⟩ := Option.map_eq_some_iff.mp keyed
          simp only [applyStore, action, resolved]
          rcases store.create_cases ⟨bindNamespace spec.resource params, id⟩
              (createdValue spec request response createValue id) with
            ⟨full, created⟩ | ⟨_, present, created⟩ |
            ⟨room, absent, after, created, filed, _, counted⟩
          · rw [created]
            exact .full action addressed full
          · rw [created]
            exact .taken action addressed present
          · rw [created]
            exact .created action addressed room absent filed counted
      | read =>
          have keyed := (storeKeyOf_of_keyed (.inl action)).symm.trans addressed
          obtain ⟨id, resolved, rfl⟩ := Option.map_eq_some_iff.mp keyed
          simp only [applyStore, action, resolved]
          cases held : store.read ⟨bindNamespace spec.resource params, id⟩ with
          | none => exact .absent (.inl action) addressed held
          | some value => exact .found action addressed held
      | update =>
          have keyed := (storeKeyOf_of_keyed (.inr (.inl action))).symm.trans addressed
          obtain ⟨id, resolved, rfl⟩ := Option.map_eq_some_iff.mp keyed
          simp only [applyStore, action, resolved]
          rcases store.update_cases ⟨bindNamespace spec.resource params, id⟩
              (request.getD .null) with ⟨absent, updated⟩ | ⟨present, updated⟩
          · rw [updated]
            exact .absent (.inr (.inl action)) addressed absent
          · rw [updated]
            exact .updated action addressed present
      | delete =>
          have keyed := (storeKeyOf_of_keyed (.inr (.inr action))).symm.trans addressed
          obtain ⟨id, resolved, rfl⟩ := Option.map_eq_some_iff.mp keyed
          simp only [applyStore, action, resolved]
          rcases store.delete_cases ⟨bindNamespace spec.resource params, id⟩ with
            ⟨absent, deleted⟩ | ⟨present, after, deleted, removed, _⟩
          · rw [deleted]
            exact .absent (.inr (.inr action)) addressed absent
          · rw [deleted]
            exact .deleted action addressed present removed

/-- No store action changes the capacity. -/
theorem limit_applyStore (store : Store) (spec : StoreSpec) (params : PathParams)
    (request : Option Value) (response : Value) (createValue : CreateValue) :
    (applyStore store spec params request response createValue).1.limit = store.limit := by
  unfold applyStore
  cases spec.action with
  | list => rfl
  | create =>
      dsimp only
      cases resolveCreateKey spec request response with
      | none => rfl
      | some id =>
          dsimp only
          rw [← store.limit_create ⟨bindNamespace spec.resource params, id⟩
            (createdValue spec request response createValue id)]
          split <;> rename_i applied <;> rw [applied]
  | read =>
      dsimp only
      cases resolveKey spec params request response with
      | none => rfl
      | some id =>
          dsimp only
          split <;> rfl
  | update =>
      dsimp only
      cases resolveKey spec params request response with
      | none => rfl
      | some id =>
          dsimp only
          rw [← store.limit_update ⟨bindNamespace spec.resource params, id⟩ (request.getD .null)]
          split <;> rename_i applied <;> rw [applied]
  | delete =>
      dsimp only
      cases resolveKey spec params request response with
      | none => rfl
      | some id =>
          dsimp only
          rw [← store.limit_delete ⟨bindNamespace spec.resource params, id⟩]
          split <;> rename_i applied <;> rw [applied]

/-- The answer of a request that no instance accepted. -/
def Resolution.refused : Resolution → Bool
  | .failed (.illegalOperation _ _ _ _) | .failed (.sessionCapExceeded _)
  | .failed (.unknownScenario _ _) => true
  | _ => false

/-- The operation is not legal in the current state. -/
def Resolution.illegal : Resolution → Bool
  | .failed (.illegalOperation _ _ _ _) => true
  | _ => false

/-- The answer is a failure of any kind. -/
def Resolution.isFailed : Resolution → Bool
  | .failed _ => true
  | _ => false

theorem Resolution.refused_of_illegal {answer : Resolution} (illegal : answer.illegal = true) :
    answer.refused = true := by
  cases answer with
  | failed failure => cases failure <;> first | rfl | cases illegal
  | _ => cases illegal

/-- The store's own failures are not refusals. -/
theorem Applies.not_refused {store : Store} {spec : StoreSpec} {params : PathParams}
    {request : Option Value} {response : Value} {createValue : CreateValue}
    {result : Store × Except StatefulFailure Resolution}
    (applied : Applies store spec params request response createValue result) :
    (ScenarioRuntime.outcomeOf result.2).refused = false := by
  cases applied <;> rfl

namespace ScenarioRuntime

theorem isFailed_finalOutcome (machine : Scenario) (state : State)
    (operation : ResolvedOperation) (outcome : Resolution) :
    (finalOutcome machine state operation outcome).isFailed = outcome.isFailed := by
  have overridden : ∀ status spec, (applyOverride status spec outcome).isFailed = false := by
    intro status spec
    cases outcome <;> rfl
  cases outcome with
  | failed | forced => rfl
  | ungoverned | body | empty =>
      simp only [finalOutcome]
      split
      · rfl
      · exact overridden _ _

theorem limit_storeOutcome (store : Store) (operation : ResolvedOperation) (request : Request) :
    (storeOutcome store operation request).1.limit = store.limit := by
  unfold storeOutcome
  split
  · rfl
  · exact limit_applyStore _ _ _ _ _ _

/-- A store action either performs or leaves the store as it was. -/
theorem storeOutcome_cases (store : Store) (operation : ResolvedOperation) (request : Request) :
    (operation.store = none ∧ storeOutcome store operation request = (store, .ungoverned)) ∨
    (∃ failure, storeOutcome store operation request = (store, .failed failure)) ∨
    ∃ spec after outcome, operation.store = some spec ∧
      storeOutcome store operation request = (after, outcome) ∧ outcome.isFailed = false ∧
      Applies store spec request.params request.request request.response request.createValue
        (after, .ok outcome) := by
  unfold storeOutcome
  cases operation.store with
  | none => exact .inl ⟨rfl, rfl⟩
  | some spec =>
      have applied := applyStore_applies store spec request.params request.request
        request.response request.createValue
      revert applied
      dsimp only
      rcases applyStore store spec request.params request.request request.response
        request.createValue with ⟨after, failure | outcome⟩
      · intro applied
        have same : after = store := by cases applied <;> rfl
        exact .inr (.inl ⟨failure, by rw [same]; rfl⟩)
      · intro applied
        refine .inr (.inr ⟨spec, after, outcome, rfl, rfl, ?_, applied⟩)
        cases applied <;> rfl

section Serve

variable (machine : Scenario) (inst : Instance) (operation : ResolvedOperation)
  (request : Request)

theorem storeOutcome_not_refused (store : Store) :
    (storeOutcome store operation request).2.refused = false := by
  unfold storeOutcome
  cases operation.store with
  | none => rfl
  | some spec => exact (applyStore_applies _ _ _ _ _ _).not_refused

theorem applyOverride_not_refused (status : String) (spec : ResponseOverride)
    (outcome : Resolution) : (applyOverride status spec outcome).refused = false := by
  cases outcome <;> rfl

theorem finalOutcome_not_refused {outcome : Resolution} (state : State)
    (accepted : outcome.refused = false) :
    (finalOutcome machine state operation outcome).refused = false := by
  unfold finalOutcome
  split
  · exact accepted
  · exact accepted
  · split
    · exact accepted
    · exact applyOverride_not_refused _ _ _

/-- Serving a request changes the store and moves the state. -/
theorem serve_instance :
    (serve machine inst operation request).1 =
      { inst with
        store := (storeOutcome inst.store operation request).1
        state := machine.stateAfter inst.state operation.name } := by
  simp only [serve, Scenario.stateAfter]
  cases machine.nextState inst.state operation.name <;> rfl

theorem serve_answer :
    (serve machine inst operation request).2 =
      finalOutcome machine inst.state operation (storeOutcome inst.store operation request).2 := by
  simp only [serve]
  cases machine.nextState inst.state operation.name <;> rfl

theorem serve_not_refused : (serve machine inst operation request).2.refused = false := by
  rw [serve_answer]
  exact finalOutcome_not_refused machine operation inst.state
    (storeOutcome_not_refused operation request inst.store)

end Serve

end ScenarioRuntime

end SpecMock.Runtime
