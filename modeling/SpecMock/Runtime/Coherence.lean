import SpecMock.Runtime.Isolation

/-!
# A read after a create

A resource that a create has filed in a session is what a later read of its key
in that session is answered with, until an update or a delete of the key, a
reset, or the release of the session.  A session that has not filed a key,
neither from its seed nor by a create, has no resource there.
-/

namespace SpecMock.Runtime

open SpecMock.Library SpecMock.Core

namespace ScenarioRuntime

/-! ## What an event does to the store of a session -/

/-- The store action an event has performed in the session of `pair`, with its request. -/
def performs (runtime : ScenarioRuntime) (pair : String × String) (event : Call × Reply) :
    Option (StoreSpec × Request) :=
  match event.1.request?, event.2 with
  | some request, .resolution answer =>
      if request.preferCode = false ∧ request.validated = true ∧ runtime.pairOf request = pair ∧
          (runtime.entryOf pair.1).isSome = true ∧ answer.isFailed = false then
        (runtime.operationOf request).bind fun operation =>
          operation.store.map fun spec => (spec, request)
      else none
  | _, _ => none

/-- The key a request addresses under a store action. -/
def addressedKey (spec : StoreSpec) (request : Request) : Option StoreKey :=
  storeKeyOf spec request.params request.request request.response

/-- The resource an event has created in the session of `pair`. -/
def filedBy (runtime : ScenarioRuntime) (pair : String × String) (event : Call × Reply) :
    Option (StoreKey × Value) :=
  match runtime.performs pair event with
  | some (spec, request) =>
      if spec.action = .create then
        (addressedKey spec request).map fun key =>
          (key, createdValue spec request.request request.response request.createValue key.id)
      else none
  | none => none

/-- The key an event has updated or deleted in the session of `pair`. -/
def changedBy (runtime : ScenarioRuntime) (pair : String × String) (event : Call × Reply) :
    Option StoreKey :=
  match runtime.performs pair event with
  | some (spec, request) =>
      if spec.action = .update ∨ spec.action = .delete then addressedKey spec request else none
  | none => none

section Attend

variable {start : ScenarioRuntime} {call : Call} {request : Request}

theorem performs_of_passesBy (made : call.request? = some request)
    (passes : start.PassesBy request) (answer : Reply) :
    start.performs (start.pairOf request) (call, answer) = none := by
  unfold performs
  cases answer with
  | released | reset => cases call.request? <;> rfl
  | resolution answer =>
      rcases passes with prefers | unknown | uncatalogued
      · simp [made, prefers]
      · simp [made, pairOf, unknown]
      · simp [made, uncatalogued]

theorem performs_of_reaches (made : call.request? = some request) {entry : ScenarioEntry}
    {operation : ResolvedOperation} (honest : request.preferCode = false)
    (known : start.entryOf (start.scenarioOf request) = some entry)
    (catalogued : start.operationOf request = some operation) (answer : Resolution) :
    start.performs (start.pairOf request) (call, .resolution answer) =
      if request.validated = true ∧ answer.isFailed = false then
        operation.store.map fun spec => (spec, request)
      else none := by
  have isKnown : (start.entryOf (start.pairOf request).1).isSome = true := by
    simp only [pairOf, known, Option.isSome_some]
  simp only [performs, made, honest, isKnown, catalogued, true_and, Option.bind_some]

/--
A request that reaches an instance performs the store action of its operation
there, or performs nothing and leaves the store as it was.
-/
theorem attendInstance_performs (made : call.request? = some request) {entry : ScenarioEntry}
    {operation : ResolvedOperation} (honest : request.preferCode = false)
    (known : start.entryOf (start.scenarioOf request) = some entry)
    (catalogued : start.operationOf request = some operation) (inst : Instance) :
    let attended := attendInstance (ScenarioEntry.machine entry) operation request
      (request.session.getD defaultSession) inst
    let performed := start.performs (start.pairOf request) (call, .resolution attended.2)
    attended.1.seed = inst.seed ∧
      ((attended.1.store = inst.store ∧ performed = none) ∨
        ∃ spec outcome, performed = some (spec, request) ∧
          Applies inst.store spec request.params request.request request.response
            request.createValue (attended.1.store, .ok outcome)) := by
  dsimp only
  rw [performs_of_reaches made honest known catalogued]
  unfold attendInstance
  split
  · exact ⟨rfl, .inl ⟨rfl, by simp [Resolution.isFailed]⟩⟩
  · split
    next invalid => exact ⟨rfl, .inl ⟨rfl, by simp [invalid]⟩⟩
    next valid =>
      have isValid : request.validated = true := by simpa using valid
      rw [serve_instance, serve_answer, isFailed_finalOutcome]
      rcases storeOutcome_cases inst.store operation request with
        ⟨storeless, outcome⟩ | ⟨failure, outcome⟩ |
        ⟨spec, after, result, stored, outcome, succeeded, applied⟩
      · rw [outcome]
        exact ⟨rfl, .inl ⟨rfl, by simp [storeless]⟩⟩
      · rw [outcome]
        exact ⟨rfl, .inl ⟨rfl, by simp [Resolution.isFailed]⟩⟩
      · rw [outcome]
        exact ⟨rfl, .inr ⟨spec, result, by simp [isValid, succeeded, stored], applied⟩⟩

end Attend

section Applies

variable {store after : Store} {spec : StoreSpec} {request : Request} {outcome : Resolution}
  {key : StoreKey}

/-- A create stores the value it files at its key. -/
theorem applies_filed
    (applied : Applies store spec request.params request.request request.response
      request.createValue (after, .ok outcome))
    (creating : spec.action = .create) (addressed : addressedKey spec request = some key) :
    after.read key = some
      (createdValue spec request.request request.response request.createValue key.id) := by
  cases applied with
  | created _ addressed' _ _ entries =>
      cases addressed'.symm.trans addressed
      rw [Store.read, entries, FiniteMap.lookup_insert_eq, if_pos rfl]
  | listed listing => cases listing.symm.trans creating
  | found reading => cases reading.symm.trans creating
  | updated updating => cases updating.symm.trans creating
  | deleted deleting => cases deleting.symm.trans creating

/-- A stored resource stays unless its key is updated or deleted. -/
theorem applies_retained {value : Value}
    (applied : Applies store spec request.params request.request request.response
      request.createValue (after, .ok outcome))
    (stored : store.read key = some value)
    (unchanged : spec.action = .update ∨ spec.action = .delete →
      addressedKey spec request ≠ some key) : after.read key = some value := by
  cases applied with
  | listed | found => exact stored
  | created _ _ _ absent entries =>
      rw [Store.read, entries, FiniteMap.lookup_insert_eq, if_neg]
      · exact stored
      · rintro rfl
        cases absent.symm.trans stored
  | updated updating addressed =>
      rw [Store.read, FiniteMap.lookup_insert_eq, if_neg]
      · exact stored
      · rintro rfl
        exact unchanged (.inl updating) addressed
  | deleted deleting addressed _ entries =>
      rw [Store.read, entries, FiniteMap.lookup_erase_eq, if_neg]
      · exact stored
      · rintro rfl
        exact unchanged (.inr deleting) addressed

/-- A store action stores nothing at a key but what it creates there. -/
theorem applies_stored
    (applied : Applies store spec request.params request.request request.response
      request.createValue (after, .ok outcome))
    (stored : (after.read key).isSome = true) :
    (store.read key).isSome = true ∨
      spec.action = .create ∧ addressedKey spec request = some key := by
  cases applied with
  | listed | found => exact .inl stored
  | @created filed _ creating addressed _ _ entries _ =>
      rw [Store.read, entries, FiniteMap.lookup_insert_eq] at stored
      by_cases same : key = filed
      · exact .inr ⟨creating, same ▸ addressed⟩
      · rw [if_neg same] at stored
        exact .inl stored
  | @updated changed _ _ present =>
      rw [Store.read, FiniteMap.lookup_insert_eq] at stored
      by_cases same : key = changed
      · exact .inl (same ▸ present)
      · rw [if_neg same] at stored
        exact .inl stored
  | deleted _ _ _ entries =>
      rw [Store.read, entries, FiniteMap.lookup_erase_eq] at stored
      split at stored
      · cases stored
      · exact .inl stored

end Applies

section Step

variable {start state : ScenarioRuntime}

/-- A call performs nothing in a session it is not about. -/
theorem performs_of_other {pair : String × String} {call : Call} (answer : Reply)
    (other : ∀ request, call.request? = some request → start.pairOf request ≠ pair) :
    start.performs pair (call, answer) = none := by
  unfold performs
  cases made : call.request? with
  | none => rfl
  | some request =>
      cases answer with
      | released | reset => rfl
      | resolution answer => simp [other request made]

/--
Everything a call that does not drop a session can do to it: leave it as it is,
or leave an instance that differs from the one before, or a fresh one, by the
store action performed.
-/
theorem session_step (same : start.SameSetup state) (pair : String × String) {call : Call}
    (kept : ¬ Drops pair call) :
    let event := (call, (state.exec call).2)
    ((state.exec call).1.view pair = state.view pair ∧ start.performs pair event = none) ∨
    ∃ entry after, start.entryOf pair.1 = some entry ∧
      (state.exec call).1.view pair = some after ∧
      let inst := (state.view pair).getD (start.freshInstance entry)
      after.seed = inst.seed ∧
        ((after.store = inst.store ∧ start.performs pair event = none) ∨
          ∃ spec request outcome, start.performs pair event = some (spec, request) ∧
            Applies inst.store spec request.params request.request request.response
              request.createValue (after.store, .ok outcome)) := by
  intro event
  cases made : call.request? with
  | none =>
      refine .inl ⟨?_, performs_of_other _ (by simp [made])⟩
      exact view_exec_of_elsewhere (by simp [made]) kept
  | some request =>
      by_cases concerned : start.pairOf request = pair
      · subst concerned
        rcases start.passesBy_or_reaches request with
          passes | ⟨honest, entry, operation, known, catalogued⟩
        · refine .inl ⟨?_, performs_of_passesBy made passes _⟩
          rcases state.exec_request_cases made with ⟨_, executed⟩ | ⟨_, _, updated⟩
          · rw [executed]
          · rw [updated, same.attend_eq, same.pairOf_eq, attend_of_passesBy passes,
              Function.update_self]
        · rcases state.exec_request_cases made with ⟨_, executed⟩ | ⟨_, answered, updated⟩
          · refine .inl ⟨by rw [executed], ?_⟩
            simp only [event, executed]
            rw [performs_of_reaches made honest known catalogued]
            simp [Resolution.isFailed]
          · rw [same.attend_eq, same.pairOf_eq, attend_of_reaches honest known catalogued]
              at answered updated
            refine .inr ⟨entry, _, known, by rw [updated, Function.update_self], ?_⟩
            obtain ⟨seeded, effect⟩ := attendInstance_performs made honest known catalogued
              ((state.view (start.pairOf request)).getD (start.freshInstance entry))
            refine ⟨seeded, ?_⟩
            simp only [event, answered]
            rcases effect with unperformed | ⟨spec, outcome, performed, applied⟩
            · exact .inl unperformed
            · exact .inr ⟨spec, request, outcome, performed, applied⟩
      · have other : ∀ made', call.request? = some made' → start.pairOf made' ≠ pair := by
          intro made' same'
          cases made.symm.trans same'
          exact concerned
        refine .inl ⟨?_, performs_of_other _ other⟩
        refine view_exec_of_elsewhere ?_ kept
        intro made' same'
        rw [same.pairOf_eq]
        exact other made' same'

variable {pair : String × String} {key : StoreKey} {call : Call}

theorem performs_of_drops (drops : Drops pair call) (answer : Reply) :
    start.performs pair (call, answer) = none := by
  rcases drops with rfl | rfl
  · rfl
  · rfl

/-- What it takes for an event to file a resource. -/
theorem filedBy_eq_some {value : Value} {event : Call × Reply}
    (filed : start.filedBy pair event = some (key, value)) :
    ∃ spec request, start.performs pair event = some (spec, request) ∧ spec.action = .create ∧
      addressedKey spec request = some key ∧
      value = createdValue spec request.request request.response request.createValue key.id := by
  unfold filedBy at filed
  cases performed : start.performs pair event with
  | none => simp [performed] at filed
  | some action =>
      obtain ⟨spec, request⟩ := action
      simp only [performed] at filed
      split at filed
      next creating =>
        obtain ⟨addressed, found, same⟩ := Option.map_eq_some_iff.mp filed
        obtain ⟨rfl, rfl⟩ := Prod.mk.inj same
        exact ⟨spec, request, rfl, creating, found, rfl⟩
      next => cases filed

/-- A resource that a create files is stored in the session. -/
theorem read_of_filed (same : start.SameSetup state) {value : Value}
    (filed : start.filedBy pair (call, (state.exec call).2) = some (key, value)) :
    ∃ inst, (state.exec call).1.view pair = some inst ∧ inst.store.read key = some value := by
  obtain ⟨spec, request, performed, creating, addressed, rfl⟩ := filedBy_eq_some filed
  have kept : ¬ Drops pair call := by
    intro drops
    rw [performs_of_drops drops] at performed
    cases performed
  rcases session_step same pair kept with
    ⟨_, unperformed⟩ | ⟨entry, after, _, view, _, ⟨_, unperformed⟩ |
      ⟨spec', request', outcome, performed', applied⟩⟩
  · cases unperformed.symm.trans performed
  · cases unperformed.symm.trans performed
  · cases performed'.symm.trans performed
    exact ⟨after, view, applies_filed applied creating addressed⟩

/-- A stored resource stays until its key is updated or deleted or the session dropped. -/
theorem read_of_unchanged (same : start.SameSetup state) {inst : Instance} {value : Value}
    (live : state.view pair = some inst) (stored : inst.store.read key = some value)
    (kept : ¬ Drops pair call)
    (unchanged : start.changedBy pair (call, (state.exec call).2) ≠ some key) :
    ∃ after, (state.exec call).1.view pair = some after ∧ after.store.read key = some value := by
  rcases session_step same pair kept with
    ⟨view, _⟩ | ⟨entry, after, _, view, _, effect⟩
  · exact ⟨inst, view.trans live, stored⟩
  refine ⟨after, view, ?_⟩
  rw [live, Option.getD_some] at effect
  rcases effect with ⟨store, _⟩ | ⟨spec, request, outcome, performed, applied⟩
  · rw [store, stored]
  refine applies_retained applied stored fun changing addressed => unchanged ?_
  simp [changedBy, performed, changing, addressed]

/-- A stored resource stays over a run that never updates or deletes it or drops the session. -/
theorem read_of_untouched (same : start.SameSetup state) {value : Value}
    (filed : ∃ inst, state.view pair = some inst ∧ inst.store.read key = some value)
    {calls : List Call}
    (untouched : ∀ event ∈ trace exec state calls,
      ¬ Drops pair event.1 ∧ start.changedBy pair event ≠ some key) :
    start.SameSetup (stateAfter exec state calls) ∧
      ∃ inst, (stateAfter exec state calls).view pair = some inst ∧
        inst.store.read key = some value := by
  refine stateAfter_trace_invariant
    (fun state : ScenarioRuntime => start.SameSetup state ∧
      ∃ inst, state.view pair = some inst ∧ inst.store.read key = some value)
    ?_ ⟨same, filed⟩ untouched
  rintro state call ⟨setup, inst, live, stored⟩ ⟨kept, unchanged⟩
  exact ⟨setup.trans (state.exec_sameSetup call),
    read_of_unchanged setup live stored kept unchanged⟩

end Step

/-! ## Where the keys of a session come from -/

/-- The keys under which seed items are filed. -/
def seedItemKeys (resource : String) : Nat → List Value → List StoreKey
  | _, [] => []
  | index, item :: rest =>
      ⟨resource, seedIdentifier item index⟩ :: seedItemKeys resource (index + 1) rest

def seedKeys (seed : List SeedEntry) : List StoreKey :=
  seed.flatMap fun entry => seedItemKeys entry.resource 0 entry.items

/-- The keys filed by creates since the session of `pair` was opened or last reset. -/
def recordFiled (runtime : ScenarioRuntime) (pair : String × String) (history : List StoreKey)
    (event : Call × Reply) : List StoreKey :=
  if Drops pair event.1 then []
  else history ++ ((runtime.filedBy pair event).map Prod.fst).toList

def filedSince (runtime : ScenarioRuntime) (calls : List Call) (pair : String × String) :
    List StoreKey :=
  (trace exec runtime calls).foldl (runtime.recordFiled pair) []

theorem read_create {store : Store} {filed key : StoreKey} {value : Value}
    (stored : ((store.create filed value).1.read key).isSome = true) :
    key = filed ∨ (store.read key).isSome = true := by
  rcases store.create_cases filed value with
    ⟨_, created⟩ | ⟨_, _, created⟩ | ⟨_, _, after, created, entries, _⟩
  · exact .inr (by simpa [created] using stored)
  · exact .inr (by simpa [created] using stored)
  · rw [created, Store.read, entries, FiniteMap.lookup_insert_eq] at stored
    split at stored
    next same => exact .inl same
    next => exact .inr stored

theorem read_seedItems {resource : String} {index : Nat} {items : List Value} {store : Store}
    {key : StoreKey} (stored : ((seedItems resource index items store).read key).isSome = true) :
    key ∈ seedItemKeys resource index items ∨ (store.read key).isSome = true := by
  induction items generalizing index store with
  | nil => exact .inr stored
  | cons item rest ih =>
      rcases ih stored with member | earlier
      · exact .inl (List.mem_cons_of_mem _ member)
      · rcases read_create earlier with rfl | before
        · exact .inl List.mem_cons_self
        · exact .inr before

theorem read_applySeed {seed : List SeedEntry} {store : Store} {key : StoreKey}
    (stored : ((applySeed seed store).read key).isSome = true) :
    key ∈ seedKeys seed ∨ (store.read key).isSome = true := by
  unfold applySeed at stored
  induction seed generalizing store with
  | nil => exact .inr stored
  | cons entry rest ih =>
      rcases ih stored with member | earlier
      · exact .inl (List.mem_append_right _ member)
      · exact (read_seedItems earlier).imp_left (List.mem_append_left _)

/-- Every key stored in the session of `pair` comes from its seed or its history. -/
def Accounts (runtime : ScenarioRuntime) (pair : String × String) (held : Option Instance)
    (history : List StoreKey) : Prop :=
  ∀ inst, held = some inst →
    (∃ entry, runtime.entryOf pair.1 = some entry ∧ inst.seed = entry.seed) ∧
      ∀ key, (inst.store.read key).isSome = true → key ∈ seedKeys inst.seed ∨ key ∈ history

theorem accounts_fresh (runtime : ScenarioRuntime) (entry : ScenarioEntry) {key : StoreKey}
    (stored : ((runtime.freshInstance entry).store.read key).isSome = true) :
    key ∈ seedKeys (runtime.freshInstance entry).seed :=
  (read_applySeed stored).resolve_right (by simp)

theorem accounts_exec (start state : ScenarioRuntime) (pair : String × String)
    (history : List StoreKey) (call : Call)
    (before : start.SameSetup state ∧ start.Accounts pair (state.view pair) history) :
    start.SameSetup (state.exec call).1 ∧
      start.Accounts pair ((state.exec call).1.view pair)
        (start.recordFiled pair history (call, (state.exec call).2)) := by
  obtain ⟨same, accounts⟩ := before
  refine ⟨same.trans (state.exec_sameSetup call), ?_⟩
  by_cases drops : Drops pair call
  · rw [recordFiled, if_pos drops]
    rcases drops with rfl | rfl
    · rw [view_release, Function.update_self]
      intro inst live
      cases live
    · rw [view_resetAll]
      intro inst live
      obtain ⟨earlier, held, rfl⟩ := Option.map_eq_some_iff.mp live
      obtain ⟨known, _⟩ := accounts earlier held
      refine ⟨known, fun key stored => .inl ?_⟩
      apply (read_applySeed stored).resolve_right
      intro cleared
      simp [Store.clear, Store.read] at cleared
  rw [recordFiled, if_neg drops]
  intro inst live
  rcases session_step same pair drops with
    ⟨view, _⟩ | ⟨entry, after, known, view, seeded, effect⟩
  · obtain ⟨seed, keys⟩ := accounts inst (view.symm.trans live)
    exact ⟨seed, fun key stored => (keys key stored).imp_right (List.mem_append_left _)⟩
  obtain rfl : after = inst := Option.some.inj (view.symm.trans live)
  have earlier : (∃ declared, start.entryOf pair.1 = some declared ∧
        ((state.view pair).getD (start.freshInstance entry)).seed = declared.seed) ∧
      ∀ key, (((state.view pair).getD (start.freshInstance entry)).store.read key).isSome = true →
        key ∈ seedKeys ((state.view pair).getD (start.freshInstance entry)).seed ∨
          key ∈ history := by
    cases held : state.view pair with
    | none =>
        exact ⟨⟨entry, known, rfl⟩, fun key stored => .inl (start.accounts_fresh entry stored)⟩
    | some inst => exact accounts inst held
  generalize (state.view pair).getD (start.freshInstance entry) = inst at seeded effect earlier
  obtain ⟨seed, keys⟩ := earlier
  rw [seeded]
  refine ⟨seed, fun key stored => ?_⟩
  rcases effect with ⟨store, _⟩ | ⟨spec, request, outcome, performed, applied⟩
  · rw [store] at stored
    exact (keys key stored).imp_right (List.mem_append_left _)
  · rcases applies_stored applied stored with before | ⟨creating, addressed⟩
    · exact (keys key before).imp_right (List.mem_append_left _)
    · refine .inr (List.mem_append_right _ ?_)
      simp [filedBy, performed, creating, addressed]

theorem accounts_run (start : ScenarioRuntime) (fresh : ∀ pair, start.view pair = none)
    (calls : List Call) (pair : String × String) :
    start.Accounts pair ((stateAfter exec start calls).view pair)
      (start.filedSince calls pair) := by
  have initial : start.SameSetup start ∧ start.Accounts pair (start.view pair) [] := by
    refine ⟨SameSetup.refl start, fun inst live => ?_⟩
    rw [fresh] at live
    cases live
  exact (stateAfter_history
    (fun state history => start.SameSetup state ∧ start.Accounts pair (state.view pair) history)
    (fun state history call => accounts_exec start state pair history call) initial calls).2

/-! ## Reads -/

/-- A legal, validated read of `key` in the live session of `pair`. -/
structure LegalRead (runtime : ScenarioRuntime) (pair : String × String) (key : StoreKey)
    (call : Call) (machine : Scenario) (operation : ResolvedOperation) (inst : Instance) :
    Prop where
  known : runtime.machine pair.1 = some machine
  live : runtime.view pair = some inst
  legal : machine.allows inst.state operation.name = true
  read : ∃ request spec, call.request? = some request ∧ request.preferCode = false ∧
    request.validated = true ∧ runtime.pairOf request = pair ∧
    runtime.operationOf request = some operation ∧ operation.store = some spec ∧
    spec.action = .read ∧ addressedKey spec request = some key

/-- What the store holds at a key, as the outcome of a read. -/
def readOutcome (store : Store) (key : StoreKey) : Resolution :=
  match store.read key with
  | some value => .body value
  | none => .failed (.resourceNotFound key.toText)

/-- A legal read is answered from the store, with the override of its operation. -/
theorem LegalRead.answer {runtime : ScenarioRuntime} {pair : String × String} {key : StoreKey}
    {call : Call} {machine : Scenario} {operation : ResolvedOperation} {inst : Instance}
    (legalRead : runtime.LegalRead pair key call machine operation inst) :
    (runtime.exec call).2 = .resolution
      (finalOutcome machine inst.state operation (readOutcome inst.store key)) := by
  obtain ⟨known, live, legal, request, spec, made, honest, valid, rfl, catalogued, stored, reading,
    addressed⟩ := legalRead
  rw [machine_eq] at known
  obtain ⟨entry, found, rfl⟩ := Option.map_eq_some_iff.mp known
  have outcome : (storeOutcome inst.store operation request).2 = readOutcome inst.store key := by
    have applied := applyStore_applies inst.store spec request.params request.request
      request.response request.createValue
    simp only [storeOutcome, stored]
    revert applied
    generalize applyStore inst.store spec request.params request.request request.response
      request.createValue = result
    intro applied
    cases applied with
    | listed listing => cases listing.symm.trans reading
    | unaddressed _ missing => cases missing.symm.trans addressed
    | created creating | full creating | taken creating => cases creating.symm.trans reading
    | found _ addressed' present =>
        cases addressed'.symm.trans addressed
        simp [readOutcome, present, outcomeOf]
    | absent _ addressed' absent =>
        cases addressed'.symm.trans addressed
        simp [readOutcome, absent, outcomeOf]
    | updated updating => cases updating.symm.trans reading
    | deleted deleting => cases deleting.symm.trans reading
  rcases runtime.exec_request_cases made with ⟨capped, _⟩ | ⟨_, answered, _⟩
  · cases live.symm.trans capped.dormant
  · rw [answered, live, attend_of_reaches honest found catalogued]
    simp only [Option.getD_some, attendInstance, legal, valid, Bool.true_eq_false, if_false]
    rw [serve_answer, outcome]

/-- The chosen override, if there is one, declares no body. -/
def BodilessOverride (machine : Scenario) (state : State) (operation : ResolvedOperation) : Prop :=
  ∀ status spec, chosenOverride machine state operation = some (status, spec) → spec.body = none

theorem finalOutcome_body {machine : Scenario} {state : State} {operation : ResolvedOperation}
    (bodiless : BodilessOverride machine state operation) (value : Value) :
    finalOutcome machine state operation (.body value) = .body value ∨
      ∃ status,
        finalOutcome machine state operation (.body value) = .forced status (some value) := by
  cases chosen : chosenOverride machine state operation with
  | none => exact .inl (by simp [finalOutcome, chosen])
  | some entry =>
      obtain ⟨status, spec⟩ := entry
      refine .inr ⟨(parseU16 status).getD 500, ?_⟩
      simp [finalOutcome, chosen, applyOverride, bodiless status spec chosen]

/-! ## Creates -/

theorem performs_eq_some {runtime : ScenarioRuntime} {pair : String × String}
    {event : Call × Reply} {spec : StoreSpec} {request : Request}
    (performed : runtime.performs pair event = some (spec, request)) :
    event.1.request? = some request ∧
      ∃ operation, runtime.operationOf request = some operation ∧ operation.store = some spec := by
  unfold performs at performed
  split at performed
  next made answered =>
    split at performed
    next =>
      obtain ⟨operation, catalogued, stored⟩ := Option.bind_eq_some_iff.mp performed
      obtain ⟨_, found, same⟩ := Option.map_eq_some_iff.mp stored
      cases same
      exact ⟨made, operation, catalogued, found⟩
    next => cases performed
  next => cases performed

/-- The value a create files is identified by the key it is filed under. -/
theorem pointerValue_createdValue {spec : StoreSpec} {source : KeySource}
    {request : Option Value} {response : Value} {id : String} (createValue : CreateValue)
    (sourced : spec.keyFrom = some source) (rooted : source.pointer ≠ "")
    (resolved : resolveCreateKey spec request response = some id) :
    pointerValue (createdValue spec request response createValue id) source.pointer = some id := by
  obtain ⟨location, pointer⟩ := source
  unfold resolveCreateKey at resolved
  rw [sourced] at resolved
  cases createValue with
  | response =>
      simp only [createdValue, sourced]
      exact pointerValue_alignIdentifier response id rooted
  | followKeySource =>
      cases location with
      | response => simpa only [createdValue, sourced] using resolved
      | request =>
          cases request with
          | none => cases resolved
          | some body => simpa only [createdValue, sourced, Option.getD_some] using resolved

/--
A create that files a resource files a value identified by its key; a legal
read of the key in the same session is answered with that value, whatever was
called in between, as long as the key was not updated or deleted nor the
session dropped; and in a session that has not filed the key itself, the read
finds no resource.
-/
theorem create_then_read (sidecar : ValidatedSidecar) (maxSessions maxStoreEntries : Nat)
    (before between : List Call) (create : Call) (pair : String × String) (key : StoreKey)
    (value : Value) :
    let start := new sidecar maxSessions maxStoreEntries
    let created := stateAfter exec start before
    let opened := (created.exec create).1
    let runtime := stateAfter exec opened between
    start.filedBy pair (create, (created.exec create).2) = some (key, value) →
    (∀ request operation spec source, create.request? = some request →
      start.operationOf request = some operation → operation.store = some spec →
      spec.keyFrom = some source → source.pointer ≠ "" →
      pointerValue value source.pointer = some key.id) ∧
    ((∀ event ∈ trace exec opened between,
        ¬ Drops pair event.1 ∧ start.changedBy pair event ≠ some key) →
      ∀ read machine operation inst, runtime.LegalRead pair key read machine operation inst →
      BodilessOverride machine inst.state operation →
      (runtime.exec read).2 = .resolution (.body value) ∨
        ∃ status, (runtime.exec read).2 = .resolution (.forced status (some value))) ∧
    (∀ other read machine operation inst,
      runtime.LegalRead other key read machine operation inst →
      key ∉ seedKeys inst.seed → key ∉ start.filedSince (before ++ create :: between) other →
      (runtime.exec read).2 = .resolution (.failed (.resourceNotFound key.toText))) := by
  intro start created opened runtime filed
  have same : start.SameSetup created := start.stateAfter_sameSetup before
  refine ⟨?_, ?_, ?_⟩
  · intro request operation spec source made catalogued stored sourced rooted
    obtain ⟨spec', request', performed, creating, addressed, rfl⟩ := filedBy_eq_some filed
    obtain ⟨made', operation', catalogued', stored'⟩ := performs_eq_some performed
    cases made.symm.trans made'
    cases catalogued.symm.trans catalogued'
    cases stored.symm.trans stored'
    simp only [addressedKey, storeKeyOf, creating, Option.map_eq_some_iff] at addressed
    obtain ⟨id, resolved, rfl⟩ := addressed
    exact pointerValue_createdValue request.createValue sourced rooted resolved
  · intro untouched read machine operation inst legalRead bodiless
    obtain ⟨_, held, live, stored⟩ := read_of_untouched
      (same.trans (created.exec_sameSetup create)) (read_of_filed same filed) untouched
    cases live.symm.trans legalRead.live
    rw [legalRead.answer, readOutcome, stored]
    rcases finalOutcome_body bodiless value with body | ⟨status, forced⟩
    · exact .inl (congrArg Reply.resolution body)
    · exact .inr ⟨status, congrArg Reply.resolution forced⟩
  · intro other read machine operation inst legalRead unseeded unfiled
    have accounts := start.accounts_run (view_new sidecar maxSessions maxStoreEntries)
      (before ++ create :: between) other
    rw [stateAfter_append] at accounts
    obtain ⟨_, keys⟩ := accounts inst legalRead.live
    have absent : inst.store.read key = none := by
      by_contra present
      rcases keys key (Option.isSome_iff_ne_none.mpr present) with seeded | filed
      · exact unseeded seeded
      · exact unfiled filed
    rw [legalRead.answer, readOutcome, absent]
    rfl

end ScenarioRuntime

/-- A user is read in a session. -/
def readUserRequest (session : Option String) (id : String) : Call :=
  .resolve none session "GET" "/users/\x7bid\x7d" ((∅ : PathParams).insert "id" id) none .null
    false true

/-- A user signed up in one session is found there and not in another. -/
theorem create_then_read_signUp :
    let start := ScenarioRuntime.new signUpSidecar 8 8
    let runtime := stateAfter ScenarioRuntime.exec start
      [signUpRequest none "ada", signUpRequest (some "b") "bob"]
    let ada := Value.object [("id", .string "ada")]
    ((runtime.exec (readUserRequest none "ada")).2 = .resolution (.body ada) ∨
      ∃ status, (runtime.exec (readUserRequest none "ada")).2 =
        .resolution (.forced status (some ada))) ∧
    (runtime.exec (readUserRequest (some "b") "ada")).2 =
      .resolution (.failed (.resourceNotFound "/users/ada")) := by
  intro start runtime ada
  have coherent := ScenarioRuntime.create_then_read signUpSidecar 8 8 []
    [signUpRequest (some "b") "bob"] (signUpRequest none "ada") ("signUp", defaultSession)
    ⟨"/users", "ada"⟩ ada (by decide)
  have live : ∀ session ∈ [defaultSession, "b"],
      (runtime.view ("signUp", session)).map (fun inst => (inst.state, inst.seed)) =
        some (⟨"member"⟩, []) := by
    decide
  have legal : (ScenarioEntry.machine signUp).allows ⟨"member"⟩ "readUser" = true := by decide
  obtain ⟨inst, held, same⟩ := Option.map_eq_some_iff.mp (live defaultSession (by simp))
  obtain ⟨other, otherHeld, otherSame⟩ := Option.map_eq_some_iff.mp (live "b" (by simp))
  obtain ⟨state, _⟩ := Prod.mk.inj same
  obtain ⟨otherState, otherSeed⟩ := Prod.mk.inj otherSame
  constructor
  · refine coherent.2.1 (by decide) (readUserRequest none "ada") (ScenarioEntry.machine signUp)
      ⟨"readUser", _, _⟩ inst ⟨rfl, held, state ▸ legal, _, _, rfl, rfl, rfl, rfl, rfl, rfl, rfl,
        by decide⟩ ?_
    rw [state]
    intro status spec chosen
    have unchosen : none = some (status, spec) := chosen
    cases unchosen
  · refine coherent.2.2 ("signUp", "b") (readUserRequest (some "b") "ada")
      (ScenarioEntry.machine signUp) ⟨"readUser", _, _⟩ other
      ⟨rfl, otherHeld, otherState ▸ legal, _, _, rfl, rfl, rfl, rfl, rfl, rfl, rfl, by decide⟩
      ?_ (by decide)
    rw [otherSeed]
    exact List.not_mem_nil

end SpecMock.Runtime
