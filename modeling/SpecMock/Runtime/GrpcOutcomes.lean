import SpecMock.Runtime.GrpcCall
import SpecMock.Runtime.Accepted

/-!
# Outcomes as gRPC statuses

What the scenarios decide about a unary call reaches the client as a gRPC
status.  A key of `responses` is such a status, an illegal operation is a failed
precondition, a missing resource is not found, and only a create whose
identifier is taken finds a resource that already exists.  The translation goes
through HTTP statuses, where an illegal operation and a taken identifier are
one, and an override that comes with a body is answered without its status.
-/

namespace SpecMock.Runtime

open SpecMock.Library SpecMock.Core

namespace ScenarioRuntime

/-! ## What decides a call -/

/-- The request is given an instance in whose state its operation is legal. -/
structure Admitted (runtime : ScenarioRuntime) (request : Request) (entry : ScenarioEntry)
    (operation : ResolvedOperation) (inst : Instance) : Prop where
  gives : runtime.Gives request entry operation inst
  legal : (ScenarioEntry.machine entry).allows inst.state operation.name = true

/-- The request creates a resource at an identifier that is taken. -/
def Taken (store : Store) (operation : ResolvedOperation) (request : Request) : Prop :=
  ∃ spec key, operation.store = some spec ∧ spec.action = .create ∧
    storeKeyOf spec request.params request.request request.response = some key ∧
    (store.read key).isSome = true

/-- An override is chosen for the outcome of the store, which has not failed. -/
structure Overrides (machine : Scenario) (inst : Instance) (operation : ResolvedOperation)
    (request : Request) (key : String) (spec : ResponseOverride) : Prop where
  succeeded : (storeOutcome inst.store operation request).2.isFailed = false
  chosen : chosenOverride machine inst.state operation = some (key, spec)

/-- The body that an override is answered with: its own, else the store's. -/
def overriddenBody (spec : ResponseOverride) : Resolution → Option Value
  | .body value => spec.body.or (some value)
  | _ => spec.body

theorem applyOverride_eq (key : String) (spec : ResponseOverride) (outcome : Resolution) :
    applyOverride key spec outcome =
      .forced ((parseU16 key).getD 500) (overriddenBody spec outcome) := by
  cases outcome <;> rfl

section Store

variable {store : Store} {operation : ResolvedOperation} {request : Request}

/-- A create at a taken identifier fails, for the identifier unless the store is full. -/
theorem storeOutcome_of_taken (taken : Taken store operation request) :
    (store.limit ≤ store.count ∧
      (storeOutcome store operation request).2 = .failed (.storeCapExceeded store.limit)) ∨
    (store.count < store.limit ∧
      ∃ key, (storeOutcome store operation request).2 = .failed (.resourceExists key)) := by
  obtain ⟨spec, key, stored, creating, addressed, present⟩ := taken
  simp only [storeKeyOf, creating, Option.map_eq_some_iff] at addressed
  obtain ⟨id, resolved, rfl⟩ := addressed
  simp only [storeOutcome, stored, applyStore, creating, resolved]
  rcases store.create_cases ⟨bindNamespace spec.resource request.params, id⟩
      (createdValue spec request.request request.response request.createValue id) with
    ⟨full, created⟩ | ⟨room, _, created⟩ | ⟨_, absent, _⟩
  · rw [created]
    exact .inl ⟨full, rfl⟩
  · rw [created]
    exact .inr ⟨room, _, rfl⟩
  · rw [absent] at present
    cases present

/-- Only a taken identifier is reported as an existing resource. -/
theorem taken_of_storeOutcome {key : String}
    (failed : (storeOutcome store operation request).2 = .failed (.resourceExists key)) :
    Taken store operation request := by
  unfold storeOutcome at failed
  cases stored : operation.store with
  | none =>
      rw [stored] at failed
      cases failed
  | some spec =>
      rw [stored] at failed
      have applied := applyStore_applies store spec request.params request.request
        request.response request.createValue
      revert failed applied
      dsimp only
      generalize applyStore store spec request.params request.request request.response
        request.createValue = result
      intro failed applied
      cases applied with
      | taken creating addressed present =>
          exact ⟨spec, _, stored, creating, addressed, present⟩
      | listed | unaddressed | created | full | found | absent | updated | deleted => cases failed

/-- What a store action that succeeds provides. -/
theorem storeOutcome_provides
    (succeeded : (storeOutcome store operation request).2.isFailed = false) :
    (storeOutcome store operation request).2 = .ungoverned ∨
      (storeOutcome store operation request).2 = .empty ∨
      ∃ value, (storeOutcome store operation request).2 = .body value := by
  rcases storeOutcome_cases store operation request with
    ⟨_, plain⟩ | ⟨failure, failed⟩ | ⟨spec, after, outcome, _, provided, _, applied⟩
  · exact .inl (congrArg Prod.snd plain)
  · rw [failed] at succeeded
    cases succeeded
  · rw [provided]
    cases applied with
    | listed | created | found | updated => exact .inr (.inr ⟨_, rfl⟩)
    | deleted => exact .inr (.inl rfl)

/-- A create that succeeds does not find its identifier taken. -/
theorem not_taken_of_succeeded
    (succeeded : (storeOutcome store operation request).2.isFailed = false) :
    ¬ Taken store operation request := by
  intro taken
  rcases storeOutcome_of_taken taken with ⟨_, full⟩ | ⟨_, key, present⟩
  · rw [full] at succeeded
    cases succeeded
  · rw [present] at succeeded
    cases succeeded

/-- An override replaces everything that the store provides but its body. -/
theorem finalOutcome_of_overrides {machine : Scenario} {inst : Instance} {key : String}
    {spec : ResponseOverride} (overrides : Overrides machine inst operation request key spec) :
    finalOutcome machine inst.state operation (storeOutcome inst.store operation request).2 =
      .forced ((parseU16 key).getD 500)
        (overriddenBody spec (storeOutcome inst.store operation request).2) := by
  rw [← applyOverride_eq]
  rcases storeOutcome_provides overrides.succeeded with provided | provided | ⟨value, provided⟩ <;>
    rw [provided] <;> simp only [finalOutcome, overrides.chosen]

/-- Without an override, what the store provides is the outcome. -/
theorem finalOutcome_of_unchosen {machine : Scenario} {state : State} (outcome : Resolution)
    (unchosen : chosenOverride machine state operation = none) :
    finalOutcome machine state operation outcome = outcome := by
  cases outcome <;> simp only [finalOutcome, unchosen]

end Store

/-! ## The promised statuses -/

/-- The status of a call says what the scenarios decided about it. -/
structure MapsOutcome (runtime : ScenarioRuntime) (request : Request)
    (response : GrpcResponse) : Prop where
  pinned : ∀ entry operation inst key spec code, runtime.Admitted request entry operation inst →
    Overrides (ScenarioEntry.machine entry) inst operation request key spec →
    parseU16 key = some code → 1 ≤ code → code ≤ 16 → response.status = code
  illegal : (runtime.resolveWith request).2.illegal = true → response.status = 9
  missing : ∀ key, (runtime.resolveWith request).2 = .failed (.resourceNotFound key) →
    response.status = 5
  taken : response.status = 6 ↔
    ∃ entry operation inst, runtime.Admitted request entry operation inst ∧
      (Taken inst.store operation request ∨
        ∃ key spec, Overrides (ScenarioEntry.machine entry) inst operation request key spec ∧
          parseU16 key = some 6)

/-- No override with a body, no illegal operation and no full store comes in between. -/
structure StatusKept (decodes : Value → Bool) (machine : Scenario) (inst : Instance)
    (operation : ResolvedOperation) (request : Request) : Prop where
  legal : machine.allows inst.state operation.name = true
  pinned : ∀ key spec code, Overrides machine inst operation request key spec →
    parseU16 key = some code → 1 ≤ code → code ≤ 16 →
    ∀ value ∈ overriddenBody spec (storeOutcome inst.store operation request).2,
      code = 13 ∧ decodes value = false
  conflict : ∀ key spec, Overrides machine inst operation request key spec →
    parseU16 key = some 409 →
    (overriddenBody spec (storeOutcome inst.store operation request).2).isSome = true
  roomy : Taken inst.store operation request → inst.store.count < inst.store.limit

end ScenarioRuntime

/-! ## The status of an answer -/

section Status

variable {protobuf : Protobuf} (call : UnaryCall protobuf)

/-- A JSON document describes a message of the type that the call is answered with. -/
def UnaryCall.decodes (value : Value) : Bool :=
  (protobuf.deserialize call.method.output value).isOk

theorem status_forced_none (status : Nat) :
    (grpcAnswer call (.forced status none)).status = grpcCodeFor status := rfl

/-- A body is answered as a success if it decodes, whatever the status it comes with. -/
theorem status_body (status : Nat) (value : Value) :
    (grpcAnswer call (.forced status (some value))).status =
        (if call.decodes value then 0 else 13) ∧
      (grpcAnswer call (.body value)).status = if call.decodes value then 0 else 13 := by
  unfold grpcAnswer UnaryCall.decodes
  dsimp only
  cases protobuf.deserialize call.method.output value with
  | ok message => exact ⟨rfl, rfl⟩
  | error error => exact ⟨rfl, rfl⟩

theorem grpcCodeFor_small {code : Nat} (small : code ≤ 16) : grpcCodeFor code = code :=
  if_pos small

/-- Only the status 409 and the code itself are translated to an existing resource. -/
theorem grpcCodeFor_eq_six {status : Nat} : grpcCodeFor status = 6 ↔ status = 6 ∨ status = 409 := by
  unfold grpcCodeFor
  by_cases small : status ≤ 16
  · rw [if_pos small]
    omega
  · have differs : status ≠ 6 := by omega
    by_cases conflict : status = 409
    · simp [conflict]
    · simp [small, differs, conflict, ite_eq_iff]

end Status

namespace ScenarioRuntime

section Answer

variable {protobuf : Protobuf} {call : UnaryCall protobuf} {runtime : ScenarioRuntime}
  {request : Request} {entry : ScenarioEntry} {operation : ResolvedOperation} {inst : Instance}

theorem Admitted.unique (admitted : runtime.Admitted request entry operation inst)
    {entry' : ScenarioEntry} {operation' : ResolvedOperation} {inst' : Instance}
    (other : runtime.Gives request entry' operation' inst') :
    entry' = entry ∧ operation' = operation ∧ inst' = inst := by
  obtain ⟨rfl, rfl, rfl⟩ := admitted.gives.unique other
  exact ⟨rfl, rfl, rfl⟩

/-- The answer of an operation that is legal is that of the store, under the override. -/
theorem Admitted.resolved (admitted : runtime.Admitted request entry operation inst)
    (validated : request.validated = true) :
    (runtime.resolveWith request).2 =
      finalOutcome (ScenarioEntry.machine entry) inst.state operation
        (storeOutcome inst.store operation request).2 := by
  rw [admitted.gives.resolved.1, attendInstance, if_neg (by simp [admitted.legal]),
    if_neg (by simp [validated]), serve_answer]

/-- An operation has one override at most. -/
theorem Overrides.unique {key key' : String} {spec spec' : ResponseOverride}
    (overrides : Overrides (ScenarioEntry.machine entry) inst operation request key spec)
    (other : Overrides (ScenarioEntry.machine entry) inst operation request key' spec') :
    key' = key ∧ spec' = spec := by
  cases overrides.chosen.symm.trans other.chosen
  exact ⟨rfl, rfl⟩

/-- What is promised to a call is about the one operation that it is admitted for. -/
theorem Admitted.mapsOutcome_iff (admitted : runtime.Admitted request entry operation inst)
    {response : GrpcResponse} :
    runtime.MapsOutcome request response ↔
      (∀ key spec code,
        Overrides (ScenarioEntry.machine entry) inst operation request key spec →
        parseU16 key = some code → 1 ≤ code → code ≤ 16 → response.status = code) ∧
      ((runtime.resolveWith request).2.illegal = true → response.status = 9) ∧
      (∀ key, (runtime.resolveWith request).2 = .failed (.resourceNotFound key) →
        response.status = 5) ∧
      (response.status = 6 ↔ Taken inst.store operation request ∨
        ∃ key spec, Overrides (ScenarioEntry.machine entry) inst operation request key spec ∧
          parseU16 key = some 6) := by
  constructor
  · rintro ⟨pinned, illegal, missing, taken⟩
    refine ⟨fun key spec code => pinned entry operation inst key spec code admitted, illegal,
      missing, taken.trans ?_⟩
    constructor
    · rintro ⟨entry', operation', inst', admitted', promised⟩
      obtain ⟨rfl, rfl, rfl⟩ := admitted.unique admitted'.gives
      exact promised
    · intro promised
      exact ⟨entry, operation, inst, admitted, promised⟩
  · rintro ⟨pinned, illegal, missing, taken⟩
    refine ⟨?_, illegal, missing, taken.trans ?_⟩
    · intro entry' operation' inst' key spec code admitted'
      obtain ⟨rfl, rfl, rfl⟩ := admitted.unique admitted'.gives
      exact pinned key spec code
    · constructor
      · intro promised
        exact ⟨entry, operation, inst, admitted, promised⟩
      · rintro ⟨entry', operation', inst', admitted', promised⟩
        obtain ⟨rfl, rfl, rfl⟩ := admitted.unique admitted'.gives
        exact promised

/-- A call that reaches no instance is answered as promised. -/
theorem mapsOutcome_of_not_gives
    (ungiven : ∀ entry operation inst, ¬ runtime.Gives request entry operation inst) :
    runtime.MapsOutcome request (grpcAnswer call (runtime.resolveWith request).2) := by
  have answered : (grpcAnswer call (runtime.resolveWith request).2).status ≠ 6 ∧
      (runtime.resolveWith request).2.illegal = false ∧
      ∀ key, (runtime.resolveWith request).2 ≠ .failed (.resourceNotFound key) := by
    rcases runtime.gives_cases request with ⟨_, passed⟩ | capped | ⟨entry, operation, inst, gives⟩
    · rw [passed]
      dsimp only [unattended]
      split
      · refine ⟨?_, rfl, nofun⟩
        simp [grpcAnswer, GrpcResponse.status, StatefulFailure.status, grpcCodeFor]
      · refine ⟨?_, rfl, nofun⟩
        simp [grpcAnswer, GrpcResponse.status]
    · rw [capped]
      refine ⟨?_, rfl, nofun⟩
      simp [grpcAnswer, GrpcResponse.status, StatefulFailure.status, grpcCodeFor]
    · exact absurd gives (ungiven entry operation inst)
  obtain ⟨status, legal, present⟩ := answered
  constructor
  · exact fun entry operation inst _ _ _ admitted => absurd admitted.gives (ungiven _ _ _)
  · intro illegal
    exact absurd (illegal.symm.trans legal) (by simp)
  · exact fun key missing => absurd missing (present key)
  · refine iff_of_false status ?_
    rintro ⟨entry, operation, inst, admitted, _⟩
    exact ungiven entry operation inst admitted.gives

/-- A refused operation is answered as a resource that exists. -/
theorem not_mapsOutcome_of_illegal (gives : runtime.Gives request entry operation inst)
    (illegal : (ScenarioEntry.machine entry).allows inst.state operation.name = false) :
    ¬ runtime.MapsOutcome request (grpcAnswer call (runtime.resolveWith request).2) := by
  have answered : (runtime.resolveWith request).2 = .failed (.illegalOperation entry.name
      (request.session.getD defaultSession) inst.state.name operation.name) := by
    rw [gives.resolved.1, attendInstance, if_pos illegal]
    rfl
  intro mapped
  have status := mapped.illegal (by rw [answered]; rfl)
  rw [answered] at status
  exact absurd status (by simp [grpcAnswer, GrpcResponse.status, StatefulFailure.status,
    grpcCodeFor])

/-- The status that a store failure is answered with. -/
theorem status_of_storeOutcome_failed {failure : StatefulFailure}
    (failed : (storeOutcome inst.store operation request).2 = .failed failure) :
    (∃ key, failure = .resourceNotFound key ∧ grpcCodeFor failure.status = 5) ∨
    (∃ key, failure = .resourceExists key ∧ grpcCodeFor failure.status = 6) ∨
    ∃ limit, failure = .storeCapExceeded limit ∧ grpcCodeFor failure.status = 13 := by
  have accepted := storeOutcome_not_refused operation request inst.store
  rw [failed] at accepted
  cases failure with
  | resourceNotFound key => exact .inl ⟨key, rfl, rfl⟩
  | resourceExists key => exact .inr (.inl ⟨key, rfl, rfl⟩)
  | storeCapExceeded limit => exact .inr (.inr ⟨limit, rfl, rfl⟩)
  | unknownScenario | illegalOperation | sessionCapExceeded => cases accepted

/-- A store failure is answered as promised unless a full store hides a taken identifier. -/
theorem mapsOutcome_iff_of_failed (admitted : runtime.Admitted request entry operation inst)
    (validated : request.validated = true) {failure : StatefulFailure}
    (failed : (storeOutcome inst.store operation request).2 = .failed failure) :
    runtime.MapsOutcome request (grpcAnswer call (runtime.resolveWith request).2) ↔
      StatusKept call.decodes (ScenarioEntry.machine entry) inst operation request := by
  have resolved := admitted.resolved validated
  rw [failed] at resolved
  have unchosen : ∀ {key spec}, ¬ Overrides (ScenarioEntry.machine entry) inst operation request
      key spec := by
    intro key spec overrides
    have succeeded := overrides.succeeded
    rw [failed] at succeeded
    cases succeeded
  have status := status_of_storeOutcome_failed failed
  rw [admitted.mapsOutcome_iff, resolved]
  constructor
  · rintro ⟨-, -, -, promised⟩
    refine ⟨admitted.legal, fun _ _ _ overrides => absurd overrides unchosen,
      fun _ _ overrides => absurd overrides unchosen, ?_⟩
    intro taken
    have six := promised.mpr (.inl taken)
    rcases storeOutcome_of_taken taken with ⟨_, full⟩ | ⟨room, _⟩
    · cases failed.symm.trans full
      cases six
    · exact room
  · intro kept
    refine ⟨fun _ _ _ overrides => absurd overrides unchosen, ?_, ?_, ?_⟩
    · intro illegal
      rcases status with ⟨key, rfl, _⟩ | ⟨key, rfl, _⟩ | ⟨limit, rfl, _⟩ <;> cases illegal
    · intro key missing
      cases missing
      rfl
    · change grpcCodeFor failure.status = 6 ↔ _
      constructor
      · intro six
        rcases status with ⟨key, rfl, five⟩ | ⟨key, rfl, _⟩ | ⟨limit, rfl, internal⟩
        · exact absurd (five.symm.trans six) (by decide)
        · exact .inl (taken_of_storeOutcome failed)
        · exact absurd (internal.symm.trans six) (by decide)
      · rintro (taken | ⟨key, spec, overrides, _⟩)
        · rcases storeOutcome_of_taken taken with ⟨full, _⟩ | ⟨_, key, exists_⟩
          · exact absurd (kept.roomy taken) (by omega)
          · cases failed.symm.trans exists_
            rfl
        · exact absurd overrides unchosen

/-- Without an override, what the store provides is answered as promised. -/
theorem mapsOutcome_of_unchosen (admitted : runtime.Admitted request entry operation inst)
    (validated : request.validated = true)
    (succeeded : (storeOutcome inst.store operation request).2.isFailed = false)
    (unchosen : chosenOverride (ScenarioEntry.machine entry) inst.state operation = none) :
    runtime.MapsOutcome request (grpcAnswer call (runtime.resolveWith request).2) ∧
      StatusKept call.decodes (ScenarioEntry.machine entry) inst operation request := by
  have resolved := admitted.resolved validated
  rw [finalOutcome_of_unchosen _ unchosen] at resolved
  have untaken := not_taken_of_succeeded succeeded
  have plain : ∀ {key spec},
      ¬ Overrides (ScenarioEntry.machine entry) inst operation request key spec :=
    fun overrides => by cases unchosen.symm.trans overrides.chosen
  have status : (grpcAnswer call (runtime.resolveWith request).2).status ≠ 6 := by
    rw [resolved]
    rcases storeOutcome_provides succeeded with provided | provided | ⟨value, provided⟩
    · simp [provided, grpcAnswer, GrpcResponse.status]
    · simp [provided, grpcAnswer, GrpcResponse.status]
    · rw [provided, (status_body call 0 value).2]
      split <;> decide
  refine ⟨admitted.mapsOutcome_iff.mpr ⟨?_, ?_, ?_, ?_⟩,
    ⟨admitted.legal, fun _ _ _ overrides => absurd overrides plain,
      fun _ _ overrides => absurd overrides plain, fun taken => absurd taken untaken⟩⟩
  · intro key spec code overrides
    exact absurd overrides plain
  · intro illegal
    rw [resolved] at illegal
    have refused := Resolution.refused_of_illegal illegal
    rw [storeOutcome_not_refused] at refused
    cases refused
  · intro key missing
    rw [← resolved, missing] at succeeded
    cases succeeded
  · refine iff_of_false status ?_
    rintro (taken | ⟨key, spec, overrides, _⟩)
    · exact untaken taken
    · exact plain overrides

/-- The answer under an override is promised to be six only if it has the key six. -/
theorem promised_six_iff {key : String} {spec : ResponseOverride}
    (overrides : Overrides (ScenarioEntry.machine entry) inst operation request key spec) :
    (Taken inst.store operation request ∨
        ∃ key spec, Overrides (ScenarioEntry.machine entry) inst operation request key spec ∧
          parseU16 key = some 6) ↔
      parseU16 key = some 6 := by
  constructor
  · rintro (taken | ⟨key', spec', other, parsed⟩)
    · exact absurd taken (not_taken_of_succeeded overrides.succeeded)
    · obtain ⟨rfl, rfl⟩ := overrides.unique other
      exact parsed
  · intro parsed
    exact .inr ⟨key, spec, overrides, parsed⟩

/-- Under an override, the answer is as promised unless a body comes with the status. -/
theorem mapsOutcome_iff_of_overrides (admitted : runtime.Admitted request entry operation inst)
    (validated : request.validated = true) {key : String} {spec : ResponseOverride}
    (overrides : Overrides (ScenarioEntry.machine entry) inst operation request key spec) :
    runtime.MapsOutcome request (grpcAnswer call (runtime.resolveWith request).2) ↔
      StatusKept call.decodes (ScenarioEntry.machine entry) inst operation request := by
  have resolved := admitted.resolved validated
  rw [finalOutcome_of_overrides overrides] at resolved
  have untaken := not_taken_of_succeeded overrides.succeeded
  rw [admitted.mapsOutcome_iff, promised_six_iff overrides, resolved]
  constructor
  · rintro ⟨pinned, -, -, promised⟩
    refine ⟨admitted.legal, ?_, ?_, fun taken => absurd taken untaken⟩
    · intro key' spec' code other parsed positive small value member
      obtain ⟨rfl, rfl⟩ := overrides.unique other
      have status := pinned _ _ code overrides parsed positive small
      rw [Option.mem_def.mp member, (status_body call _ value).1] at status
      split at status
      · omega
      next undecoded => exact ⟨status.symm, Bool.eq_false_iff.mpr undecoded⟩
    · intro key' spec' other parsed
      obtain ⟨rfl, rfl⟩ := overrides.unique other
      rw [Option.isSome_iff_ne_none]
      intro bodiless
      rw [bodiless, parsed] at promised
      cases promised.mp rfl
  · intro kept
    refine ⟨?_, ?_, ?_, ?_⟩
    · intro key' spec' code other parsed positive small
      obtain ⟨rfl, rfl⟩ := overrides.unique other
      cases body : overriddenBody spec' (storeOutcome inst.store operation request).2 with
      | none =>
          rw [parsed]
          exact grpcCodeFor_small small
      | some value =>
          obtain ⟨rfl, undecoded⟩ := kept.pinned _ _ _ other parsed positive small value body
          rw [(status_body call _ value).1, undecoded]
          rfl
    · intro illegal
      cases illegal
    · intro key' missing
      cases missing
    · cases body : overriddenBody spec (storeOutcome inst.store operation request).2 with
      | none =>
          rw [status_forced_none, grpcCodeFor_eq_six]
          cases parsed : parseU16 key with
          | none => exact iff_of_false (by decide) (by simp)
          | some code =>
              rw [Option.getD_some, Option.some.injEq]
              refine or_iff_left ?_
              rintro rfl
              have present := kept.conflict _ _ overrides parsed
              rw [body] at present
              cases present
      | some value =>
          refine iff_of_false ?_ ?_
          · rw [(status_body call _ value).1]
            split <;> decide
          · intro parsed
            have thirteen := (kept.pinned _ _ _ overrides parsed (by decide) (by decide) value
              body).1
            exact absurd thirteen (by decide)

/-- A unary call ends with the promised status exactly if nothing comes in between. -/
theorem mapsOutcome_iff (runtime : ScenarioRuntime) (call : UnaryCall protobuf)
    (validated : request.validated = true) :
    runtime.MapsOutcome request (grpcAnswer call (runtime.resolveWith request).2) ↔
      ∀ entry operation inst, runtime.Gives request entry operation inst →
        StatusKept call.decodes (ScenarioEntry.machine entry) inst operation request := by
  by_cases given : ∃ entry operation inst, runtime.Gives request entry operation inst
  · obtain ⟨entry, operation, inst, gives⟩ := given
    have alone : (∀ entry operation inst, runtime.Gives request entry operation inst →
          StatusKept call.decodes (ScenarioEntry.machine entry) inst operation request) ↔
        StatusKept call.decodes (ScenarioEntry.machine entry) inst operation request := by
      constructor
      · exact fun kept => kept entry operation inst gives
      · intro kept entry' operation' inst' other
        obtain ⟨rfl, rfl, rfl⟩ := gives.unique other
        exact kept
    rw [alone]
    cases legal : (ScenarioEntry.machine entry).allows inst.state operation.name with
    | false =>
        refine iff_of_false (not_mapsOutcome_of_illegal gives legal) ?_
        intro kept
        exact absurd (kept.legal.symm.trans legal) (by simp)
    | true =>
        have admitted : runtime.Admitted request entry operation inst := ⟨gives, legal⟩
        cases failed : (storeOutcome inst.store operation request).2.isFailed with
        | true =>
            cases outcome : (storeOutcome inst.store operation request).2 with
            | failed failure => exact mapsOutcome_iff_of_failed admitted validated outcome
            | ungoverned | body | empty | forced =>
                rw [outcome] at failed
                cases failed
        | false =>
            cases chosen : chosenOverride (ScenarioEntry.machine entry) inst.state operation with
            | none =>
                exact And.elim iff_of_true
                  (mapsOutcome_of_unchosen admitted validated failed chosen)
            | some override =>
                exact mapsOutcome_iff_of_overrides admitted validated ⟨failed, chosen⟩
  · have ungiven : ∀ entry operation inst, ¬ runtime.Gives request entry operation inst :=
      fun entry operation inst gives => given ⟨entry, operation, inst, gives⟩
    refine iff_of_true (mapsOutcome_of_not_gives ungiven) ?_
    exact fun entry operation inst gives => absurd gives (ungiven entry operation inst)

/--
In every state that calls can lead to, a unary call ends with the status that
its outcome is promised exactly if its operation is legal, no override with a
body pins its status, none has the key 409 without a body, and no full store
hides a taken identifier.
-/
theorem grpc_outcome_iff (sidecar : ValidatedSidecar) (maxSessions maxStoreEntries : Nat)
    (calls : List Call) (server : GrpcServer protobuf) (request : GrpcRequest)
    (call : UnaryCall protobuf) (prepared : server.prepare request = .ok call) :
    let runtime := stateAfter exec (new sidecar maxSessions maxStoreEntries) calls
    runtime.MapsOutcome (call.resolution request) (server.call (some runtime) request).2 ↔
      ∀ entry operation inst, runtime.Gives (call.resolution request) entry operation inst →
        StatusKept call.decodes (ScenarioEntry.machine entry) inst operation
          (call.resolution request) := by
  intro runtime
  rw [GrpcServer.call_of_prepare prepared]
  exact mapsOutcome_iff runtime call rfl

end Answer

end ScenarioRuntime

/-! ## Creating widgets -/

/-- The call that creates a widget, after decoding. -/
def widgetCall : UnaryCall stringMessages where
  method := ⟨"id", "id", false, false⟩
  request := ("id", "a")
  response := ("id",
    "mock-" ++ toString (deterministicHash 0 "/widgets.Widgets/Create" ^^^ 1#64).toNat)

theorem widgetCall_prepared : (widgetServer "id").prepare createWidget = .ok widgetCall := by rfl

/-- The first widget is created, with status zero. -/
theorem grpc_outcome_iff_widget :
    let runtime := ScenarioRuntime.new widgetSidecar 8 8
    (widgetServer "id").prepare createWidget = .ok widgetCall ∧
    runtime.MapsOutcome (widgetCall.resolution createWidget)
      ((widgetServer "id").call (some runtime) createWidget).2 ∧
    ((widgetServer "id").call (some runtime) createWidget).2.status = 0 := by
  intro runtime
  refine ⟨widgetCall_prepared, ?_, by decide⟩
  apply (ScenarioRuntime.grpc_outcome_iff widgetSidecar 8 8 [] (widgetServer "id") createWidget
    widgetCall widgetCall_prepared).mpr
  let creation : ResolvedOperation := ⟨"createWidget", some (widgetStore .create), ∅⟩
  intro entry operation inst gives
  obtain rfl : stock = entry := Option.some.inj (Eq.trans (by rfl) gives.known)
  obtain rfl : creation = operation := Option.some.inj (Eq.trans (by rfl) gives.catalogued)
  obtain rfl : Instance.new "stock" ⟨"open"⟩ [] 8 = inst := gives.held
  have unchosen : ∀ {key spec}, ¬ ScenarioRuntime.Overrides (ScenarioEntry.machine stock)
      (Instance.new "stock" ⟨"open"⟩ [] 8) creation (widgetCall.resolution createWidget)
      key spec := by
    intro key spec overrides
    have plain : ScenarioRuntime.chosenOverride (ScenarioEntry.machine stock) ⟨"open"⟩ creation =
        none := by decide
    cases plain.symm.trans overrides.chosen
  constructor
  · decide
  · exact fun _ _ _ overrides => absurd overrides unchosen
  · exact fun _ _ overrides => absurd overrides unchosen
  · intro _
    decide

/-- Another widget has been created, which closes the stock. -/
def otherWidget : Call :=
  .resolveGrpc none none "/widgets.Widgets/Create" (.object [("id", .string "b")]) (.object [])

/-- A widget is refused as one that exists, though its identifier is new. -/
theorem illegal_create_already_exists :
    (¬ ∀ (protobuf : Protobuf) (sidecar : ValidatedSidecar) (maxSessions maxStoreEntries : Nat)
        (calls : List Call) (server : GrpcServer protobuf) (request : GrpcRequest)
        (call : UnaryCall protobuf), server.prepare request = .ok call →
      let runtime := stateAfter ScenarioRuntime.exec
        (ScenarioRuntime.new sidecar maxSessions maxStoreEntries) calls
      runtime.MapsOutcome (call.resolution request) (server.call (some runtime) request).2) ∧
    let runtime := stateAfter ScenarioRuntime.exec (ScenarioRuntime.new widgetSidecar 8 8)
      [otherWidget]
    (runtime.resolveWith (widgetCall.resolution createWidget)).2 =
        .failed (.illegalOperation "stock" "__default__" "closed" "createWidget") ∧
      ((widgetServer "id").call (some runtime) createWidget).2.status = 6 := by
  have refused : ((stateAfter ScenarioRuntime.exec (ScenarioRuntime.new widgetSidecar 8 8)
      [otherWidget]).resolveWith (widgetCall.resolution createWidget)).2 =
        .failed (.illegalOperation "stock" "__default__" "closed" "createWidget") := by decide
  have status : ((widgetServer "id").call (some (stateAfter ScenarioRuntime.exec
      (ScenarioRuntime.new widgetSidecar 8 8) [otherWidget])) createWidget).2.status = 6 := by
    decide
  refine ⟨?_, refused, status⟩
  intro mapped
  have promised := (mapped stringMessages widgetSidecar 8 8 [otherWidget] (widgetServer "id")
    createWidget widgetCall widgetCall_prepared).illegal (by rw [refused]; rfl)
  exact absurd (status.symm.trans promised) (by decide)

end SpecMock.Runtime
