import SpecMock.Runtime.Accepted

/-!
# Resetting

Resetting puts every live instance where its scenario starts a session.  The
sessions that were live before answer every later request as those of a new
runtime do, which are created by their first requests.
-/

namespace SpecMock.Runtime

open SpecMock.Library SpecMock.Core

theorem limit_seedItems (resource : String) (index : Nat) (items : List Value) (store : Store) :
    (seedItems resource index items store).limit = store.limit := by
  induction items generalizing index store with
  | nil => rfl
  | cons item rest ih =>
      rw [seedItems, ih, Store.limit_create]

theorem limit_applySeed (seed : List SeedEntry) (store : Store) :
    (applySeed seed store).limit = store.limit := by
  unfold applySeed
  induction seed generalizing store with
  | nil => rfl
  | cons entry rest ih => rw [List.foldl_cons, ih, limit_seedItems]

namespace Instance

/-- Clearing a store leaves nothing but its capacity. -/
theorem reset_eq_new (inst : Instance) :
    inst.reset = new inst.scenario inst.initial inst.seed inst.store.limit := rfl

/-- What an instance is reset to depends on its scenario and its capacity only. -/
theorem reset_congr {inst other : Instance} (scenario : other.scenario = inst.scenario)
    (initial : other.initial = inst.initial) (seed : other.seed = inst.seed)
    (limit : other.store.limit = inst.store.limit) : other.reset = inst.reset := by
  rw [reset_eq_new, reset_eq_new, scenario, initial, seed, limit]

/-- A new instance is as good as reset. -/
theorem reset_new (scenario : String) (initial : State) (seed : List SeedEntry)
    (storeLimit : Nat) :
    (new scenario initial seed storeLimit).reset = new scenario initial seed storeLimit := by
  rw [reset_eq_new]
  unfold new
  rw [limit_applySeed]
  rfl

end Instance

namespace ScenarioRuntime

theorem reset_freshInstance (runtime : ScenarioRuntime) (entry : ScenarioEntry) :
    (runtime.freshInstance entry).reset = runtime.freshInstance entry :=
  Instance.reset_new _ _ _ _

/-- Attending a request does not change what the instance is reset to. -/
theorem reset_attendInstance (machine : Scenario) (operation : ResolvedOperation)
    (request : Request) (session : String) (inst : Instance) :
    (attendInstance machine operation request session inst).1.reset = inst.reset := by
  unfold attendInstance
  split
  · rfl
  · split
    · rfl
    · rw [serve_instance]
      exact Instance.reset_congr rfl rfl rfl (limit_storeOutcome _ _ _)

/-- Every live session is reset to what its scenario starts a session with. -/
def Restorable (start runtime : ScenarioRuntime) : Prop :=
  ∀ pair inst, runtime.view pair = some inst →
    ∃ entry, start.entryOf pair.1 = some entry ∧ inst.reset = start.freshInstance entry

/-- The number of live sessions is within the cap. -/
def WithinCap (runtime : ScenarioRuntime) : Prop :=
  FiniteMap.size runtime.sessions ≤ runtime.maxSessions

theorem restorable_exec {start state : ScenarioRuntime} (same : start.SameSetup state)
    (restorable : start.Restorable state) (call : Call) :
    start.Restorable (state.exec call).1 := by
  intro pair inst live
  cases made : call.request? with
  | some request =>
      rcases state.exec_request_cases made with ⟨_, executed⟩ | ⟨_, _, updated⟩
      · rw [executed] at live
        exact restorable pair inst live
      by_cases concerned : pair = state.pairOf request
      · subst concerned
        rw [updated, Function.update_self] at live
        rcases state.passesBy_or_reaches request with
          passes | ⟨honest, entry, operation, known, catalogued⟩
        · rw [attend_of_passesBy passes] at live
          exact restorable _ inst live
        rw [attend_of_reaches honest known catalogued] at live
        cases live
        refine ⟨entry, (same.entryOf_eq _).symm.trans known, ?_⟩
        rw [reset_attendInstance]
        cases held : state.view (state.pairOf request) with
        | some inst =>
            obtain ⟨other, found, restored⟩ := restorable _ inst held
            obtain rfl : entry = other :=
              Option.some.inj (((same.entryOf_eq _).symm.trans known).symm.trans found)
            exact restored
        | none =>
            rw [Option.getD_none, reset_freshInstance, same]
            rfl
      · rw [updated, Function.update_of_ne concerned] at live
        exact restorable pair inst live
  | none =>
      rcases Call.request?_eq_none.mp made with ⟨scenario, session, rfl⟩ | rfl
      · rw [view_release] at live
        by_cases concerned : pair = (scenario, session)
        · subst concerned
          rw [Function.update_self] at live
          cases live
        · rw [Function.update_of_ne concerned] at live
          exact restorable pair inst live
      · rw [view_resetAll] at live
        obtain ⟨before, held, rfl⟩ := Option.map_eq_some_iff.mp live
        obtain ⟨entry, known, restored⟩ := restorable pair before held
        refine ⟨entry, known, ?_⟩
        rw [restored, reset_freshInstance]

/-- The keys of the live instances, through what is seen of them. -/
theorem mem_sessions {runtime : ScenarioRuntime} {pair : String × String} :
    pair ∈ runtime.sessions ↔ (runtime.view pair).isSome = true :=
  AList.lookup_isSome.symm

/-- A request opens a session only below the cap. -/
theorem withinCap_exec {runtime : ScenarioRuntime} (within : runtime.WithinCap) (call : Call) :
    (runtime.exec call).1.WithinCap := by
  have setup := runtime.exec_sameSetup call
  have cap : (runtime.exec call).1.maxSessions = runtime.maxSessions := by
    rw [setup]
  unfold WithinCap at *
  rw [cap]
  cases made : call.request? with
  | some request =>
      rcases runtime.passesBy_or_reaches request with
        passes | ⟨honest, entry, operation, known, catalogued⟩
      · rw [exec_request runtime made, resolveWith_of_passesBy passes]
        exact within
      rcases runtime.exec_request_cases made with ⟨_, executed⟩ | ⟨uncapped, _, updated⟩
      · rw [executed]
        exact within
      have included : ∀ pair ∈ (runtime.exec call).1.sessions,
          pair = runtime.pairOf request ∨ pair ∈ runtime.sessions := by
        intro pair live
        rw [mem_sessions, updated] at live
        by_cases concerned : pair = runtime.pairOf request
        · exact .inl concerned
        · rw [Function.update_of_ne concerned] at live
          exact .inr (mem_sessions.mpr live)
      by_cases live : runtime.pairOf request ∈ runtime.sessions
      · refine Nat.le_trans (FiniteMap.size_le_of_subset ?_) within
        intro pair member
        rcases included pair member with rfl | there
        · exact live
        · exact there
      · have room : FiniteMap.size runtime.sessions < runtime.maxSessions := by
          by_contra full
          exact uncapped ⟨honest, by simp [known], by simp [catalogued],
            AList.lookup_eq_none.mpr live, Nat.le_of_not_lt full⟩
        exact Nat.le_trans (FiniteMap.size_le_of_keys _ included) room
  | none =>
      rcases Call.request?_eq_none.mp made with ⟨scenario, session, rfl⟩ | rfl
      · exact Nat.le_trans (FiniteMap.size_erase_le _ _) within
      · exact (FiniteMap.size_mapValues _ _).trans_le within

/--
A runtime that was reset, and one whose sessions start with their first
requests: what is live in the second is so in the first, and what is live in
the first alone is as a session starts.
-/
structure Renewed (start : ScenarioRuntime) (live : String × String → Prop)
    (reset renewed : ScenarioRuntime) : Prop where
  resetSetup : start.SameSetup reset
  renewedSetup : start.SameSetup renewed
  within : reset.WithinCap
  kept : ∀ pair, (reset.view pair).isSome = true ↔ live pair
  agrees : ∀ pair inst, renewed.view pair = some inst → reset.view pair = some inst
  fresh : ∀ pair inst, reset.view pair = some inst → renewed.view pair = none →
    ∃ entry, start.entryOf pair.1 = some entry ∧ inst = start.freshInstance entry

/-- The call is a request about a session that is live. -/
def RequestsLive (start : ScenarioRuntime) (live : String × String → Prop) (call : Call) : Prop :=
  ∃ request, call.request? = some request ∧ live (start.pairOf request)

section Renewal

variable {start reset renewed : ScenarioRuntime} {live : String × String → Prop}

/-- A session that could still be opened is not refused for the cap. -/
theorem Renewed.not_capped (related : Renewed start live reset renewed) {request : Request}
    (wanted : live (start.pairOf request)) : ¬ renewed.Capped request := by
  intro capped
  have dormant := capped.dormant
  rw [related.renewedSetup.pairOf_eq] at dormant
  have fewer : FiniteMap.size renewed.sessions < FiniteMap.size reset.sessions := by
    apply FiniteMap.size_lt_of_keys
    · intro pair member
      obtain ⟨inst, held⟩ := Option.isSome_iff_exists.mp (mem_sessions.mp member)
      exact mem_sessions.mpr (by rw [related.agrees pair inst held]; rfl)
    · exact mem_sessions.mpr ((related.kept _).mpr wanted)
    · exact AList.lookup_eq_none.mp dormant
  have full := capped.full
  have within := related.within
  have sameCap : reset.maxSessions = renewed.maxSessions := by
    rw [related.resetSetup, related.renewedSetup]
  unfold WithinCap at within
  omega

/-- A live session stays live when it is attended. -/
theorem attend_isSome (runtime : ScenarioRuntime) {held : Option Instance}
    (alive : held.isSome = true) (request : Request) :
    (runtime.attend held request).1.isSome = true := by
  rcases runtime.passesBy_or_reaches request with
    passes | ⟨honest, entry, operation, known, catalogued⟩
  · rwa [attend_of_passesBy passes]
  · rw [attend_of_reaches honest known catalogued]
    rfl

/-- The session of a request is attended alike, whether it was reset or starts anew. -/
theorem Renewed.attend_eq (related : Renewed start live reset renewed) {request : Request}
    (wanted : live (start.pairOf request)) :
    let pair := start.pairOf request
    (start.attend (reset.view pair) request).2 = (start.attend (renewed.view pair) request).2 ∧
      ((start.attend (reset.view pair) request).1 =
          (start.attend (renewed.view pair) request).1 ∨
        (start.attend (reset.view pair) request).1 = reset.view pair ∧
          (start.attend (renewed.view pair) request).1 = renewed.view pair) := by
  intro pair
  obtain ⟨inst, held⟩ := Option.isSome_iff_exists.mp ((related.kept pair).mpr wanted)
  cases started : renewed.view pair with
  | some other =>
      rw [related.agrees pair other started]
      exact ⟨rfl, .inl rfl⟩
  | none =>
      obtain ⟨entry, known, rfl⟩ := related.fresh pair inst held started
      rcases start.passesBy_or_reaches request with
        passes | ⟨honest, other, operation, known', catalogued⟩
      · rw [attend_of_passesBy passes, attend_of_passesBy passes]
        exact ⟨rfl, .inr ⟨rfl, rfl⟩⟩
      · obtain rfl : entry = other := Option.some.inj (known.symm.trans known')
        rw [attend_of_reaches honest known' catalogued, attend_of_reaches honest known' catalogued,
          held]
        exact ⟨rfl, .inl rfl⟩

/-- Both runtimes answer a request about a live session alike, and stay so. -/
theorem Renewed.exec (related : Renewed start live reset renewed) {call : Call}
    (requests : start.RequestsLive live call) :
    (reset.exec call).2 = (renewed.exec call).2 ∧
      Renewed start live (reset.exec call).1 (renewed.exec call).1 := by
  obtain ⟨request, made, wanted⟩ := requests
  have uncapped := related.not_capped wanted
  rcases reset.exec_request_cases made with ⟨capped, _⟩ | ⟨_, answered, updated⟩
  · have dormant := capped.dormant
    rw [related.resetSetup.pairOf_eq] at dormant
    have alive := (related.kept _).mpr wanted
    rw [view, dormant] at alive
    cases alive
  rcases renewed.exec_request_cases made with ⟨capped, _⟩ | ⟨_, answered', updated'⟩
  · exact absurd capped uncapped
  obtain ⟨sameAnswer, sameInstance⟩ := related.attend_eq wanted
  rw [related.resetSetup.pairOf_eq, related.resetSetup.attend_eq] at answered updated
  rw [related.renewedSetup.pairOf_eq, related.renewedSetup.attend_eq] at answered' updated'
  have alive := start.attend_isSome ((related.kept _).mpr wanted) request
  refine ⟨by rw [answered, answered', sameAnswer], ?_⟩
  refine ⟨related.resetSetup.trans (reset.exec_sameSetup call),
    related.renewedSetup.trans (renewed.exec_sameSetup call), withinCap_exec related.within call,
    fun pair => ?_, fun pair inst held => ?_, fun pair inst held dormant => ?_⟩
  all_goals
    by_cases concerned : pair = start.pairOf request
  · subst concerned
    rw [updated, Function.update_self]
    exact iff_of_true alive wanted
  · rw [updated, Function.update_of_ne concerned]
    exact related.kept pair
  · subst concerned
    rw [updated', Function.update_self] at held
    rw [updated, Function.update_self]
    rcases sameInstance with same | ⟨unchanged, unchanged'⟩
    · rw [same, held]
    · rw [unchanged'] at held
      rw [unchanged, related.agrees _ inst held]
  · rw [updated', Function.update_of_ne concerned] at held
    rw [updated, Function.update_of_ne concerned]
    exact related.agrees pair inst held
  · subst concerned
    rw [updated, Function.update_self] at held
    rw [updated', Function.update_self] at dormant
    rcases sameInstance with same | ⟨unchanged, unchanged'⟩
    · rw [same, dormant] at held
      cases held
    · rw [unchanged] at held
      rw [unchanged'] at dormant
      exact related.fresh _ inst held dormant
  · rw [updated, Function.update_of_ne concerned] at held
    rw [updated', Function.update_of_ne concerned] at dormant
    exact related.fresh pair inst held dormant

end Renewal

/--
After a reset of any reachable runtime the sessions that were live are live,
and each of them is a new instance of its scenario; and every later sequence of
requests to these sessions is answered as by a runtime that was just started,
whose sessions are created by these requests.
-/
theorem reset_equals_fresh (sidecar : ValidatedSidecar) (maxSessions maxStoreEntries : Nat)
    (calls : List Call) :
    let start := new sidecar maxSessions maxStoreEntries
    let runtime := stateAfter exec start calls
    let reset := runtime.resetAll.1
    (∀ pair, (reset.view pair).isSome = (runtime.view pair).isSome) ∧
    (∀ pair inst, reset.view pair = some inst →
      ∃ entry, start.entryOf pair.1 = some entry ∧
        inst = Instance.new entry.name ⟨entry.initialState⟩ entry.seed maxStoreEntries) ∧
    ∀ requests : List Call,
      (∀ call ∈ requests, ∃ request, call.request? = some request ∧
        (runtime.view (runtime.pairOf request)).isSome = true) →
      answers exec reset requests = answers exec start requests := by
  intro start runtime reset
  have same : start.SameSetup runtime := start.stateAfter_sameSetup calls
  have restorable : start.SameSetup runtime ∧ start.Restorable runtime :=
    stateAfter_invariant (fun state => start.SameSetup state ∧ start.Restorable state)
      (fun state call holds => ⟨holds.1.trans (state.exec_sameSetup call),
        restorable_exec holds.1 holds.2 call⟩)
      ⟨SameSetup.refl start, fun pair inst live => nomatch live⟩ calls
  have within : runtime.WithinCap :=
    stateAfter_invariant WithinCap (fun _ call holds => withinCap_exec holds call)
      (Nat.zero_le _) calls
  have seen : reset.view = fun pair => (runtime.view pair).map Instance.reset :=
    runtime.view_resetAll
  have live : ∀ pair, (reset.view pair).isSome = (runtime.view pair).isSome := by
    intro pair
    rw [seen, Option.isSome_map]
  have renewed : ∀ pair inst, reset.view pair = some inst →
      ∃ entry, start.entryOf pair.1 = some entry ∧ inst = start.freshInstance entry := by
    intro pair inst held
    rw [seen] at held
    obtain ⟨before, found, rfl⟩ := Option.map_eq_some_iff.mp held
    exact restorable.2 pair before found
  refine ⟨live, renewed, fun requests wanted => ?_⟩
  have initial : Renewed start (fun pair => (runtime.view pair).isSome = true) reset start :=
    ⟨same.trans (runtime.exec_sameSetup .resetAll), SameSetup.refl start,
      withinCap_exec within .resetAll, fun pair => by rw [live],
      fun pair inst held => (nomatch held), fun pair inst held _ => renewed pair inst held⟩
  refine (simulation_on (fun _ _ _ requested related => related.exec requested) initial ?_).1
  intro call member
  obtain ⟨request, made, alive⟩ := wanted call member
  rw [same.pairOf_eq] at alive
  exact ⟨request, made, alive⟩

end ScenarioRuntime

/-- Users who are there from the start are listed, with those who sign up. -/
def openUsers : ScenarioEntry where
  name := "users"
  initialState := "open"
  seed := [⟨"/users", [.object [("id", .string "root")], .object [("id", .string "ada")]]⟩]
  states := OrderedMap.collect
    [("open", OrderedMap.collect [("createUser", ⟨none, ∅⟩), ("listUsers", ⟨none, ∅⟩)])]

def openUsersSidecar : ValidatedSidecar where
  sidecar := ⟨1, OrderedMap.collect
    [("createUser", ⟨⟨"POST", "/users"⟩,
        some ⟨"/users", .create, none, some ⟨.request, "/id"⟩⟩, ∅⟩),
      ("listUsers", ⟨⟨"GET", "/users"⟩, some ⟨"/users", .list, none, none⟩, ∅⟩)], [openUsers]⟩
  supported := rfl
  valid := by decide

/-- A user who signed up before the reset is gone after it, and the seed is listed. -/
theorem reset_equals_fresh_signUp :
    let start := ScenarioRuntime.new openUsersSidecar 8 8
    let runtime := stateAfter ScenarioRuntime.exec start [signUpRequest none "bob"]
    let listing : Call := .resolve none none "GET" "/users" ∅ none .null false true
    let seeded := [Value.object [("id", .string "root")], .object [("id", .string "ada")]]
    answers ScenarioRuntime.exec runtime.resetAll.1 [listing] =
        [.resolution (.body (.array seeded))] ∧
      answers ScenarioRuntime.exec runtime [listing] =
        [.resolution (.body (.array (seeded ++ [.object [("id", .string "bob")]])))] := by
  intro start runtime listing seeded
  have fresh : answers ScenarioRuntime.exec start [listing] =
      [.resolution (.body (.array seeded))] := by decide
  have equal := (ScenarioRuntime.reset_equals_fresh openUsersSidecar 8 8
    [signUpRequest none "bob"]).2.2 [listing] fun call member => by
      obtain rfl := List.mem_singleton.mp member
      exact ⟨_, rfl, by decide⟩
  exact ⟨equal.trans fresh, by decide⟩

end SpecMock.Runtime
