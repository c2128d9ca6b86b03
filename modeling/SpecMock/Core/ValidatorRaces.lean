import SpecMock.Core.ValidatorCache
import Mathlib.Data.List.Dedup
import Mathlib.Order.WellFounded

/-!
# Races on the validator cache

A call whose insertion comes too late reads the cache a second time, and by
then a third call may have dropped the entry.  This takes a schema that two
calls compile and more compiling schemas than the cache holds; short of either,
the cache is transparent.
-/

namespace SpecMock.Core

open SpecMock.Library

variable {H V : Type} {library : ValidatorLibrary H V}
  {firstKey : Nat → FiniteMap UInt64 V → Option UInt64} {maxEntries : Nat}

/-! ## Every run ends -/

/-- The call may still insert its validator. -/
def CacheStage.mayInsert : CacheStage V → Bool
  | .read => true
  | .insert _ => true
  | _ => false

/-- The accesses a call makes before it inserts, removes a key or returns. -/
def CacheStage.distance (map : FiniteMap UInt64 V) : CacheStage V → Nat
  | .read => 1
  | .readAgain => 1
  | .trimLen _ => 2
  | .trimFirst _ => 1
  -- The key may have been removed by another call already.
  | .trimRemove _ key => if key ∈ map then 0 else 3
  | _ => 0

/-- The calls still to insert, the size of the cache, and the accesses to the next change. -/
def cacheRank (pool : Pool (ValidatorCache V) (CacheCall V)) : Nat × Nat × Nat :=
  (pool.occurs fun call => call.stage.mayInsert, pool.shared.validators.size,
    pool.total fun call => call.stage.distance pool.shared.validators)

theorem erase_of_absent {map : FiniteMap UInt64 V} {key : UInt64} (absent : key ∉ map) :
    map.erase key = map :=
  AList.ext (List.kerase_of_notMem_keys absent)

/-- An access ends the chance to insert, shrinks the map, or is one access less. -/
theorem CacheStage.Moves.falls {schema : Value} {stage after : CacheStage V}
    {map reached : FiniteMap UInt64 V}
    (moves : stage.Moves library maxEntries schema map after reached) :
    (stage.mayInsert = true ∧ after.mayInsert = false) ∨
      stage.mayInsert = after.mayInsert ∧
        (reached.size < map.size ∨ reached = map ∧ after.distance map < stage.distance map) := by
  cases moves with
  | hit => exact .inl ⟨rfl, rfl⟩
  | refuse => exact .inl ⟨rfl, rfl⟩
  | compile => exact .inr ⟨rfl, .inr ⟨rfl, Nat.zero_lt_one⟩⟩
  | insert => exact .inl ⟨rfl, rfl⟩
  | taken => exact .inl ⟨rfl, rfl⟩
  | again => exact .inr ⟨rfl, .inr ⟨rfl, Nat.zero_lt_one⟩⟩
  | lost => exact .inr ⟨rfl, .inr ⟨rfl, Nat.zero_lt_one⟩⟩
  | large => exact .inr ⟨rfl, .inr ⟨rfl, Nat.one_lt_two⟩⟩
  | small => exact .inr ⟨rfl, .inr ⟨rfl, Nat.zero_lt_two⟩⟩
  | first present =>
      refine .inr ⟨rfl, .inr ⟨rfl, ?_⟩⟩
      simp [distance, present]
  | empty => exact .inr ⟨rfl, .inr ⟨rfl, Nat.zero_lt_one⟩⟩
  | @remove _ _ key =>
      refine .inr ⟨rfl, ?_⟩
      by_cases present : key ∈ map
      · obtain ⟨held, found⟩ := Option.isSome_iff_exists.mp (AList.lookup_isSome.mpr present)
        have smaller := FiniteMap.size_erase_of_present found
        exact .inl (by omega)
      · refine .inr ⟨erase_of_absent present, ?_⟩
        simp [distance, present]

theorem wellFounded_cacheCalls (meets : MeetsFirst firstKey) :
    WellFounded (Pool.Later (CacheCall.next library firstKey maxEntries)) := by
  have order : WellFounded (Prod.Lex (· < ·) (Prod.Lex (· < ·) (· < ·)) :
      Nat × Nat × Nat → Nat × Nat × Nat → Prop) :=
    WellFounded.prod_lex Nat.lt_wfRel.wf (WellFounded.prod_lex Nat.lt_wfRel.wf Nat.lt_wfRel.wf)
  refine Pool.wellFounded_later order cacheRank ?_
  intro before last index stepped
  obtain ⟨call, after, shared, located, moved, rfl⟩ := Pool.step_cases stepped
  obtain ⟨_, moves⟩ := CacheCall.moves_of_next meets moved
  have inserting := Pool.occurs_set located shared after fun call => call.stage.mayInsert
  rcases moves.falls with ⟨could, cannot⟩ | ⟨alike, smaller | ⟨unchanged, nearer⟩⟩
  · apply Prod.Lex.left
    simp only [could, cannot, if_true, if_false, Bool.false_eq_true] at inserting
    omega
  · rw [alike] at inserting
    unfold cacheRank
    rw [Nat.add_right_cancel inserting]
    exact .right _ (.left _ _ smaller)
  · rw [alike] at inserting
    have accesses := Pool.total_set located shared after
      fun call => call.stage.distance before.shared.validators
    unfold cacheRank
    rw [Nat.add_right_cancel inserting, unchanged]
    refine .right _ (.right _ ?_)
    omega

/-! ## What the calls hold -/

/-- What a call holds or has returned comes of its own schema. -/
def CacheCall.Sound (library : ValidatorLibrary H V) (call : CacheCall V) : Prop :=
  match call.stage with
  | .read => True
  | .readAgain => ∃ compiled, library.compile call.schema = .ok compiled
  | .insert compiled => library.compile call.schema = .ok compiled
  | .trimLen compiled => library.compile call.schema = .ok compiled
  | .trimFirst compiled => library.compile call.schema = .ok compiled
  | .trimRemove compiled _ => library.compile call.schema = .ok compiled
  | .returned result => result = library.compile call.schema

/-- The calls are those for the schemas, and every validator comes of one of these. -/
structure Consistent (library : ValidatorLibrary H V) (schemas : List Value)
    (pool : Pool (ValidatorCache V) (CacheCall V)) : Prop where
  started : pool.calls.map CacheCall.schema = schemas
  cached : ∀ key validator, pool.shared.validators.lookup key = some validator →
    ∃ schema ∈ schemas, library.keyOf schema = key ∧ library.compile schema = .ok validator
  served : ∀ call ∈ pool.calls, call.Sound library

/-- Among the schemas the hash has no collision. -/
def ValidatorLibrary.Collisionless (library : ValidatorLibrary H V) (schemas : List Value) :
    Prop :=
  ∀ first ∈ schemas, ∀ second ∈ schemas, library.keyOf first = library.keyOf second →
    first = second

/-- A call that reads again finds the entry. -/
def CacheCall.Found (library : ValidatorLibrary H V) (map : FiniteMap UInt64 V)
    (call : CacheCall V) : Prop :=
  call.stage = .readAgain → library.keyOf call.schema ∈ map

variable {schemas : List Value}

theorem Consistent.schema_mem {pool : Pool (ValidatorCache V) (CacheCall V)}
    (consistent : Consistent library schemas pool) {call : CacheCall V}
    (member : call ∈ pool.calls) : call.schema ∈ schemas :=
  consistent.started ▸ List.mem_map_of_mem member

/-- What the cache holds for a schema comes of it. -/
theorem Consistent.compile_of_lookup (collisionless : library.Collisionless schemas)
    {pool : Pool (ValidatorCache V) (CacheCall V)}
    (consistent : Consistent library schemas pool) {schema : Value} (used : schema ∈ schemas)
    {validator : V}
    (found : pool.shared.validators.lookup (library.keyOf schema) = some validator) :
    library.compile schema = .ok validator := by
  obtain ⟨other, member, sameKey, compiled⟩ := consistent.cached _ _ found
  rw [← collisionless other member schema used sameKey]
  exact compiled

theorem cacheStart_schemas (schemas : List Value) :
    (cacheStart schemas : Pool (ValidatorCache V) (CacheCall V)).calls.map CacheCall.schema =
      schemas :=
  (List.map_map ..).trans (List.map_id _)

theorem Consistent.initial (library : ValidatorLibrary H V) (schemas : List Value) :
    Consistent library schemas (cacheStart schemas) where
  started := cacheStart_schemas schemas
  cached := by simp [cacheStart]
  served := by
    intro call member
    obtain ⟨schema, _, rfl⟩ := List.mem_map.mp member
    trivial

/-- An access adds no entry but the validator to insert. -/
theorem CacheStage.Moves.lookup {schema : Value} {stage after : CacheStage V}
    {map reached : FiniteMap UInt64 V}
    (moves : stage.Moves library maxEntries schema map after reached) {key : UInt64}
    {validator : V} (found : reached.lookup key = some validator) :
    map.lookup key = some validator ∨ key = library.keyOf schema ∧ stage = .insert validator := by
  cases moves with
  | insert =>
      rw [FiniteMap.lookup_insert_eq] at found
      split at found
      next same =>
        cases found
        exact .inr ⟨same, rfl⟩
      next => exact .inl found
  | remove =>
      rw [FiniteMap.lookup_erase_eq] at found
      split at found
      · cases found
      · exact .inl found
  | hit | refuse | compile | taken | again | lost | large | small | first | empty =>
      exact .inl found

/-- What holds of the entries and of the validator to insert holds of the entries afterwards. -/
theorem CacheStage.Moves.cached {schema : Value} {stage after : CacheStage V}
    {map reached : FiniteMap UInt64 V}
    (moves : stage.Moves library maxEntries schema map after reached) {holds : UInt64 → V → Prop}
    (cached : ∀ key validator, map.lookup key = some validator → holds key validator)
    (inserts : ∀ validator, stage = .insert validator → holds (library.keyOf schema) validator) :
    ∀ key validator, reached.lookup key = some validator → holds key validator := by
  intro key validator found
  rcases moves.lookup found with already | ⟨rfl, inserting⟩
  · exact cached key validator already
  · exact inserts validator inserting

/-- An access of a call that finds what it expects keeps the call sound. -/
theorem CacheStage.Moves.sound {schema : Value} {stage after : CacheStage V}
    {map reached : FiniteMap UInt64 V}
    (moves : stage.Moves library maxEntries schema map after reached)
    (own : ∀ validator, map.lookup (library.keyOf schema) = some validator →
      library.compile schema = .ok validator)
    (found : CacheCall.Found library map ⟨schema, stage⟩)
    (sound : CacheCall.Sound library ⟨schema, stage⟩) :
    CacheCall.Sound library ⟨schema, after⟩ := by
  cases moves with
  | hit cached => exact (own _ cached).symm
  | refuse fails => exact fails.symm
  | compile compiles => exact compiles
  | insert => exact sound
  | taken => exact ⟨_, sound⟩
  | again cached => exact (own _ cached).symm
  | lost absent => exact absurd (found rfl) absent
  | large => exact sound
  | small => exact Eq.symm sound
  | first => exact sound
  | empty => exact Eq.symm sound
  | remove => exact sound

theorem Consistent.step (collisionless : library.Collisionless schemas)
    (meets : MeetsFirst firstKey) {pool last : Pool (ValidatorCache V) (CacheCall V)}
    (consistent : Consistent library schemas pool)
    (found : ∀ call ∈ pool.calls, call.Found library pool.shared.validators) {index : Nat}
    (stepped : pool.step (CacheCall.next library firstKey maxEntries) index = some last) :
    Consistent library schemas last := by
  obtain ⟨call, after, shared, located, moved, rfl⟩ := Pool.step_cases stepped
  obtain ⟨same, moves⟩ := CacheCall.moves_of_next meets moved
  have member := List.mem_of_getElem? located
  have used := consistent.schema_mem member
  have sound := consistent.served call member
  have present := found call member
  refine ⟨(Pool.map_calls_set located same).trans consistent.started, ?_,
    Pool.forall_calls_set ?_ fun _ other _ elsewhere =>
      consistent.served other (List.mem_of_getElem? elsewhere)⟩
  · refine moves.cached consistent.cached fun validator inserting => ?_
    unfold CacheCall.Sound at sound
    rw [inserting] at sound
    exact ⟨call.schema, used, rfl, sound⟩
  · obtain ⟨schema, stage⟩ := call
    obtain ⟨_, later⟩ := after
    cases same
    exact moves.sound (fun _ => consistent.compile_of_lookup collisionless used) present sound

/-! ## Runs without a race -/

/-- A run that never misses an entry it needs is transparent. -/
theorem transparent_of_invariant (library : ValidatorLibrary H V) (maxEntries : Nat)
    (collisionless : library.Collisionless schemas)
    (safe : Pool (ValidatorCache V) (CacheCall V) → Prop)
    (initial : safe (cacheStart schemas))
    (finds : ∀ pool, safe pool → ∀ call ∈ pool.calls, call.Found library pool.shared.validators)
    (kept : ∀ firstKey, MeetsFirst firstKey → ∀ {pool last index}, safe pool →
      Consistent library schemas pool →
        pool.step (CacheCall.next library firstKey maxEntries) index = some last → safe last) :
    library.CacheTransparent maxEntries schemas := by
  intro firstKey meets pool run
  have holds : safe pool ∧ Consistent library schemas pool := by
    refine run.preserves (fun pool => safe pool ∧ Consistent library schemas pool) ?_
      ⟨initial, .initial library schemas⟩
    rintro before last index ⟨holds, consistent⟩ _ stepped
    exact ⟨kept firstKey meets holds consistent stepped,
      consistent.step collisionless meets (finds before holds) stepped⟩
  refine ⟨(wellFounded_cacheCalls meets).apply pool, holds.2.started, fun call member => ?_⟩
  refine ⟨CacheCall.isReturned_of_next, fun result returned => ?_⟩
  have sound := holds.2.served call member
  unfold CacheCall.Sound at sound
  rw [returned] at sound
  exact sound

def ValidatorLibrary.compiles (library : ValidatorLibrary H V) (schema : Value) : Bool :=
  (library.compile schema).isOk

/-- The schemas that compile, as often as they are used. -/
def ValidatorLibrary.compiling (library : ValidatorLibrary H V) (schemas : List Value) :
    List Value :=
  schemas.filter library.compiles

theorem compiles_of_eq_ok {schema : Value} {compiled : V}
    (compiles : library.compile schema = .ok compiled) : library.compiles schema = true := by
  unfold ValidatorLibrary.compiles
  rw [compiles]
  rfl

/-- The cache holds at most one entry for each schema that compiles. -/
theorem Consistent.size_le {pool : Pool (ValidatorCache V) (CacheCall V)}
    (consistent : Consistent library schemas pool) :
    pool.shared.validators.size ≤ (library.compiling schemas).dedup.length := by
  rw [← List.length_map library.keyOf]
  refine FiniteMap.size_le_length fun key held => ?_
  obtain ⟨validator, found⟩ := Option.isSome_iff_exists.mp (AList.lookup_isSome.mpr held)
  obtain ⟨schema, used, rfl, compiled⟩ := consistent.cached key validator found
  refine List.mem_map_of_mem (List.mem_dedup.mpr ?_)
  exact List.mem_filter.mpr ⟨used, compiles_of_eq_ok compiled⟩

/-- The call drops no entry, and finds the one it reads again. -/
def CacheCall.Untrimmed (library : ValidatorLibrary H V) (map : FiniteMap UInt64 V)
    (call : CacheCall V) : Prop :=
  match call.stage with
  | .trimFirst _ => False
  | .trimRemove _ _ => False
  | .readAgain => library.keyOf call.schema ∈ map
  | _ => True

theorem CacheCall.Untrimmed.mono {map reached : FiniteMap UInt64 V} {call : CacheCall V}
    (untrimmed : call.Untrimmed library map) (grows : ∀ key ∈ map, key ∈ reached) :
    call.Untrimmed library reached := by
  obtain ⟨schema, stage⟩ := call
  cases stage with
  | readAgain => exact grows _ untrimmed
  | trimFirst => exact untrimmed
  | trimRemove => exact untrimmed
  | read | insert | trimLen | returned => trivial

/-- A call that drops no entry leaves every entry, and none is dropped from a small cache. -/
theorem CacheStage.Moves.untrimmed {schema : Value} {stage after : CacheStage V}
    {map reached : FiniteMap UInt64 V}
    (moves : stage.Moves library maxEntries schema map after reached)
    (small : map.size ≤ max maxEntries 1)
    (untrimmed : CacheCall.Untrimmed library map ⟨schema, stage⟩) :
    (∀ key ∈ map, key ∈ reached) ∧ CacheCall.Untrimmed library reached ⟨schema, after⟩ := by
  cases moves with
  | insert => exact ⟨fun key held => (AList.mem_insert _).mpr (.inr held), trivial⟩
  | taken present => exact ⟨fun _ held => held, present⟩
  | large crowded => exact absurd crowded (Nat.not_lt.mpr small)
  | remove | first => cases untrimmed
  | hit | refuse | compile | again | lost | small | empty => exact ⟨fun _ held => held, trivial⟩

theorem transparent_of_fits (library : ValidatorLibrary H V) (maxEntries : Nat)
    (collisionless : library.Collisionless schemas)
    (fits : (library.compiling schemas).dedup.length ≤ max maxEntries 1) :
    library.CacheTransparent maxEntries schemas := by
  apply transparent_of_invariant library maxEntries collisionless
    fun pool => ∀ call ∈ pool.calls, call.Untrimmed library pool.shared.validators
  · intro call member
    obtain ⟨schema, _, rfl⟩ := List.mem_map.mp member
    trivial
  · intro pool safe call member again
    have untrimmed := safe call member
    unfold CacheCall.Untrimmed at untrimmed
    rw [again] at untrimmed
    exact untrimmed
  · intro firstKey meets pool last index safe consistent stepped
    obtain ⟨call, after, shared, located, moved, rfl⟩ := Pool.step_cases stepped
    obtain ⟨same, moves⟩ := CacheCall.moves_of_next meets moved
    obtain ⟨grows, untrimmed⟩ := moves.untrimmed (consistent.size_le.trans fits)
      (safe call (List.mem_of_getElem? located))
    refine Pool.forall_calls_set ?_ fun _ other _ elsewhere =>
      (safe other (List.mem_of_getElem? elsewhere)).mono grows
    rw [← same] at untrimmed
    exact untrimmed

/-- Two calls for one compiling schema are one, if no such schema is used twice. -/
theorem Consistent.place_unique (distinct : (library.compiling schemas).Nodup)
    {pool : Pool (ValidatorCache V) (CacheCall V)}
    (consistent : Consistent library schemas pool) {index place : Nat} {call other : CacheCall V}
    (located : pool.calls[index]? = some call) (elsewhere : pool.calls[place]? = some other)
    (same : other.schema = call.schema) (compiles : library.compiles call.schema = true) :
    place = index := by
  unfold ValidatorLibrary.compiling at distinct
  rw [← consistent.started, List.Nodup, List.pairwise_filter, List.pairwise_map,
    List.pairwise_iff_getElem] at distinct
  obtain ⟨inside, rfl⟩ := List.getElem?_eq_some_iff.mp located
  obtain ⟨there, rfl⟩ := List.getElem?_eq_some_iff.mp elsewhere
  have compiles' := same ▸ compiles
  rcases Nat.lt_trichotomy place index with before | equal | behind
  · exact absurd same (distinct place index there inside before compiles' compiles)
  · exact equal
  · exact absurd same.symm (distinct index place inside there behind compiles compiles')

/-- While the call may insert, nobody else has done so for its schema. -/
def CacheCall.Alone (library : ValidatorLibrary H V) (map : FiniteMap UInt64 V)
    (call : CacheCall V) : Prop :=
  match call.stage with
  | .read => library.compiles call.schema = true → library.keyOf call.schema ∉ map
  | .insert _ => library.keyOf call.schema ∉ map
  | .readAgain => False
  | _ => True

/-- A call stays alone if no other one inserts for its schema. -/
theorem CacheCall.Alone.mono {map reached : FiniteMap UInt64 V} {call : CacheCall V}
    (alone : call.Alone library map) (sound : call.Sound library)
    (kept : library.compiles call.schema = true → library.keyOf call.schema ∉ map →
      library.keyOf call.schema ∉ reached) : call.Alone library reached := by
  obtain ⟨schema, stage⟩ := call
  cases stage with
  | read => exact fun compiles => kept compiles (alone compiles)
  | insert => exact kept (compiles_of_eq_ok sound) alone
  | readAgain => exact alone
  | trimLen | trimFirst | trimRemove | returned => trivial

theorem CacheStage.Moves.alone {schema : Value} {stage after : CacheStage V}
    {map reached : FiniteMap UInt64 V}
    (moves : stage.Moves library maxEntries schema map after reached)
    (alone : CacheCall.Alone library map ⟨schema, stage⟩) :
    CacheCall.Alone library reached ⟨schema, after⟩ := by
  cases moves with
  | compile compiles => exact alone (compiles_of_eq_ok compiles)
  | taken present => exact absurd present alone
  | hit | refuse | insert | again | lost | large | small | first | empty | remove => trivial

theorem transparent_of_distinct (library : ValidatorLibrary H V) (maxEntries : Nat)
    (collisionless : library.Collisionless schemas)
    (distinct : (library.compiling schemas).Nodup) :
    library.CacheTransparent maxEntries schemas := by
  apply transparent_of_invariant library maxEntries collisionless
    fun pool => ∀ call ∈ pool.calls, call.Alone library pool.shared.validators
  · intro call member
    obtain ⟨schema, _, rfl⟩ := List.mem_map.mp member
    exact fun _ => AList.notMem_empty _
  · intro pool safe call member again
    have alone := safe call member
    unfold CacheCall.Alone at alone
    rw [again] at alone
    cases alone
  · intro firstKey meets pool last index safe consistent stepped
    obtain ⟨call, after, shared, located, moved, rfl⟩ := Pool.step_cases stepped
    obtain ⟨same, moves⟩ := CacheCall.moves_of_next meets moved
    have member := List.mem_of_getElem? located
    refine Pool.forall_calls_set ?_ fun place other apart elsewhere => ?_
    · have alone := moves.alone (safe call member)
      rw [← same] at alone
      exact alone
    · have held := List.mem_of_getElem? elsewhere
      refine (safe other held).mono (consistent.served other held) fun compiles absent present => ?_
      obtain ⟨validator, found⟩ := Option.isSome_iff_exists.mp (AList.lookup_isSome.mpr present)
      rcases moves.lookup found with already | ⟨sameKey, _⟩
      · exact absent (AList.lookup_isSome.mp (already ▸ rfl))
      · have sameSchema := collisionless other.schema (consistent.schema_mem held) call.schema
          (consistent.schema_mem member) sameKey
        exact apart (consistent.place_unique distinct located elsewhere sameSchema
          (sameSchema ▸ compiles))

/-! ## Runs into a race -/

/-- An iteration that meets one key first whenever the map has it. -/
def meetsKey (wanted : UInt64) (_iterations : Nat) (map : FiniteMap UInt64 V) : Option UInt64 :=
  if wanted ∈ map then some wanted else map.keys.head?

theorem meetsFirst_meetsKey (wanted : UInt64) :
    MeetsFirst (meetsKey wanted : Nat → FiniteMap UInt64 V → Option UInt64) where
  present := by
    intro _ map key met
    unfold meetsKey at met
    split at met
    next here =>
      cases met
      exact here
    next => exact AList.mem_keys.mpr (List.mem_of_mem_head? met)
  found := by
    intro _ map key held
    unfold meetsKey
    split
    · rfl
    · rw [List.isSome_head?]
      exact List.ne_nil_of_mem (AList.mem_keys.mp held)

section Race

variable {schema : Value} {compiled : V} {pool : Pool (ValidatorCache V) (CacheCall V)}
  {late early : Nat}

/-- A call alone at work compiles its schema and inserts the validator. -/
theorem exists_run_fills {place : Nat} (reading : pool.calls[place]? = some ⟨schema, .read⟩)
    (compiles : library.compile schema = .ok compiled)
    (absent : library.keyOf schema ∉ pool.shared.validators) :
    ∃ last, Pool.FreeRun (CacheCall.next library firstKey maxEntries) pool last ∧
      last.shared.validators = pool.shared.validators.insert (library.keyOf schema) compiled ∧
      last.calls[place]? = some ⟨schema, .trimLen compiled⟩ ∧
      ∀ (other : Nat) (call : CacheCall V), other ≠ place → pool.calls[other]? = some call →
        last.calls[other]? = some call := by
  have missed : CacheCall.next library firstKey maxEntries ⟨schema, .read⟩ pool.shared =
      some (⟨schema, .insert compiled⟩, pool.shared) := by
    simp only [CacheCall.next, AList.lookup_eq_none.mpr absent, compiles]
  obtain ⟨middle, begins, same, inserting, still⟩ := Pool.exists_run_of_next reading missed
  have fills : CacheCall.next library firstKey maxEntries ⟨schema, .insert compiled⟩
      middle.shared = some (⟨schema, .trimLen compiled⟩, { pool.shared with
        validators := pool.shared.validators.insert (library.keyOf schema) compiled }) := by
    simp only [CacheCall.next, same, if_neg absent]
  obtain ⟨last, ends, filled, trimming, rests⟩ := Pool.exists_run_of_next inserting fills
  refine ⟨last, begins.trans ends, congrArg ValidatorCache.validators filled, trimming, ?_⟩
  exact fun other call apart located => rests other call apart (still other call apart located)

/-- Calls at different places are not for one schema if they are for two. -/
theorem place_ne {calls : List (CacheCall V)} {place other : Nat} {call moved : CacheCall V}
    (located : calls[place]? = some moved) (elsewhere : calls[other]? = some call)
    (differs : call.schema ≠ moved.schema) : other ≠ place := by
  rintro rfl
  cases located.symm.trans elsewhere
  exact differs rfl

/-- Calls for different schemas insert them, and the others stand still. -/
theorem exists_run_inserts {others : List Value} (distinct : others.Nodup)
    (compile : ∀ other ∈ others, ∃ compiled, library.compile other = .ok compiled)
    (reading : ∀ other ∈ others, ∃ place : Nat, pool.calls[place]? = some ⟨other, .read⟩) :
    ∃ last, Pool.FreeRun (CacheCall.next library firstKey maxEntries) pool last ∧
      (∀ key ∈ pool.shared.validators, key ∈ last.shared.validators) ∧
      (∀ other ∈ others, library.keyOf other ∈ last.shared.validators) ∧
      ∀ (place : Nat) (call : CacheCall V), call.schema ∉ others →
        pool.calls[place]? = some call → last.calls[place]? = some call := by
  induction others generalizing pool with
  | nil => exact ⟨pool, .refl pool, fun _ held => held, by simp, fun _ _ _ located => located⟩
  | cons first rest ih =>
      obtain ⟨fresh, distinct⟩ := List.nodup_cons.mp distinct
      obtain ⟨⟨compiled, compiles⟩, compile⟩ := List.forall_mem_cons.mp compile
      obtain ⟨⟨place, reads⟩, reading⟩ := List.forall_mem_cons.mp reading
      by_cases present : library.keyOf first ∈ pool.shared.validators
      · obtain ⟨last, run, grows, inserted, still⟩ := ih distinct compile reading
        refine ⟨last, run, grows, List.forall_mem_cons.mpr ⟨grows _ present, inserted⟩, ?_⟩
        exact fun place call foreign => still place call fun member =>
          foreign (List.mem_cons_of_mem first member)
      · obtain ⟨middle, begins, filled, _, rests⟩ := exists_run_fills reads compiles present
        have onward : ∀ other ∈ rest, ∃ place : Nat,
            middle.calls[place]? = some ⟨other, .read⟩ := by
          intro other member
          obtain ⟨there, waiting⟩ := reading other member
          refine ⟨there, rests there _ (place_ne reads waiting ?_) waiting⟩
          rintro rfl
          exact fresh member
        obtain ⟨last, run, grows, inserted, still⟩ := ih distinct compile onward
        rw [filled] at grows
        refine ⟨last, begins.trans run, fun key held => ?_, List.forall_mem_cons.mpr ⟨?_, inserted⟩,
          fun other call foreign located => ?_⟩
        · exact grows key ((AList.mem_insert _).mpr (.inr held))
        · exact grows _ ((AList.mem_insert _).mpr (.inl rfl))
        · obtain ⟨differs, foreign⟩ := not_or.mp (mt List.mem_cons.mpr foreign)
          exact still other call foreign
            (rests other call (place_ne reads located differs) located)

/-- Of two calls for a schema, the one inserts it and the other comes too late. -/
theorem exists_run_late (apart : late ≠ early)
    (reads : pool.calls[late]? = some ⟨schema, .read⟩)
    (reading : pool.calls[early]? = some ⟨schema, .read⟩)
    (compiles : library.compile schema = .ok compiled)
    (absent : library.keyOf schema ∉ pool.shared.validators) :
    ∃ last, Pool.FreeRun (CacheCall.next library firstKey maxEntries) pool last ∧
      library.keyOf schema ∈ last.shared.validators ∧
      last.calls[late]? = some ⟨schema, .readAgain⟩ ∧
      last.calls[early]? = some ⟨schema, .trimLen compiled⟩ ∧
      ∀ (place : Nat) (call : CacheCall V), place ≠ late → place ≠ early →
        pool.calls[place]? = some call → last.calls[place]? = some call := by
  have missed : CacheCall.next library firstKey maxEntries ⟨schema, .read⟩ pool.shared =
      some (⟨schema, .insert compiled⟩, pool.shared) := by
    simp only [CacheCall.next, AList.lookup_eq_none.mpr absent, compiles]
  obtain ⟨first, begins, same, inserting, still⟩ := Pool.exists_run_of_next reads missed
  obtain ⟨second, fills, filled, trimming, rests⟩ := exists_run_fills
    (still early _ apart.symm reading) compiles (same ▸ absent)
  have present : library.keyOf schema ∈ second.shared.validators := by
    rw [filled]
    exact (AList.mem_insert _).mpr (.inl rfl)
  have taken : CacheCall.next library firstKey maxEntries ⟨schema, .insert compiled⟩
      second.shared = some (⟨schema, .readAgain⟩, second.shared) := by
    simp only [CacheCall.next, if_pos present]
  obtain ⟨last, ends, unchanged, waits, stays⟩ :=
    Pool.exists_run_of_next (rests late _ apart inserting) taken
  refine ⟨last, (begins.trans fills).trans ends, unchanged ▸ present, waits,
    stays early _ apart.symm trimming, fun place call notLate notEarly located => ?_⟩
  exact stays place call notLate (rests place call notEarly (still place call notLate located))

/-- The entry is dropped before the late call reads it again. -/
theorem exists_run_lost (apart : late ≠ early)
    (waits : pool.calls[late]? = some ⟨schema, .readAgain⟩)
    (trims : pool.calls[early]? = some ⟨schema, .trimLen compiled⟩)
    (present : library.keyOf schema ∈ pool.shared.validators)
    (crowded : max maxEntries 1 < pool.shared.validators.size) :
    ∃ last, Pool.FreeRun
        (CacheCall.next library (meetsKey (library.keyOf schema)) maxEntries) pool last ∧
      ⟨schema, .returned (.error insertionRace)⟩ ∈ last.calls := by
  have large : CacheCall.next library (meetsKey (library.keyOf schema)) maxEntries
      ⟨schema, .trimLen compiled⟩ pool.shared =
        some (⟨schema, .trimFirst compiled⟩, pool.shared) := by
    simp only [CacheCall.next, if_pos crowded]
  obtain ⟨first, begins, same, meeting, still⟩ := Pool.exists_run_of_next trims large
  have meets : CacheCall.next library (meetsKey (library.keyOf schema)) maxEntries
      ⟨schema, .trimFirst compiled⟩ first.shared =
        some (⟨schema, .trimRemove compiled (library.keyOf schema)⟩,
          { pool.shared with iterations := pool.shared.iterations + 1 }) := by
    simp only [CacheCall.next, meetsKey, same, if_pos present]
  obtain ⟨second, goesOn, counted, removing, rests⟩ := Pool.exists_run_of_next meeting meets
  have removes : CacheCall.next library (meetsKey (library.keyOf schema)) maxEntries
      ⟨schema, .trimRemove compiled (library.keyOf schema)⟩ second.shared =
        some (⟨schema, .trimLen compiled⟩, { second.shared with
          validators := second.shared.validators.erase (library.keyOf schema) }) := rfl
  obtain ⟨third, drops, dropped, _, stays⟩ := Pool.exists_run_of_next removing removes
  have missing : third.shared.validators.lookup (library.keyOf schema) = none := by
    rw [dropped]
    exact AList.lookup_erase _ _
  have lost : CacheCall.next library (meetsKey (library.keyOf schema)) maxEntries
      ⟨schema, .readAgain⟩ third.shared =
        some (⟨schema, .returned (.error insertionRace)⟩, third.shared) := by
    simp only [CacheCall.next, missing]
  have waiting := stays late _ apart (rests late _ apart (still late _ apart waits))
  obtain ⟨last, ends, _, returned, _⟩ := Pool.exists_run_of_next waiting lost
  exact ⟨last, ((begins.trans goesOn).trans drops).trans ends, List.mem_of_getElem? returned⟩

end Race

theorem exists_compile_of_mem {schema : Value} (member : schema ∈ library.compiling schemas) :
    schema ∈ schemas ∧ ∃ compiled, library.compile schema = .ok compiled := by
  obtain ⟨used, compiles⟩ := List.mem_filter.mp member
  refine ⟨used, ?_⟩
  unfold ValidatorLibrary.compiles at compiles
  cases outcome : library.compile schema with
  | error error =>
      rw [outcome] at compiles
      cases compiles
  | ok compiled => exact ⟨compiled, rfl⟩

/-- The calls of the start read first. -/
theorem cacheStart_getElem? {place : Nat} {schema : Value}
    (located : schemas[place]? = some schema) :
    (cacheStart schemas : Pool (ValidatorCache V) (CacheCall V)).calls[place]? =
      some ⟨schema, .read⟩ := by
  simp [cacheStart, located]

/-- A compiling schema that is used twice is used at two places. -/
theorem exists_two_places (repeated : ¬ (library.compiling schemas).Nodup) :
    ∃ (schema : Value) (late early : Nat), schema ∈ library.compiling schemas ∧ late ≠ early ∧
      schemas[late]? = some schema ∧ schemas[early]? = some schema := by
  by_contra single
  refine repeated ?_
  unfold ValidatorLibrary.compiling
  rw [List.Nodup, List.pairwise_filter, List.pairwise_iff_getElem]
  intro late early inside there before compiles _ same
  refine single ⟨schemas[late], late, early, ?_, Nat.ne_of_lt before, ?_, ?_⟩
  · exact List.mem_filter.mpr ⟨List.getElem_mem inside, compiles⟩
  · exact List.getElem?_eq_getElem inside
  · rw [same]
    exact List.getElem?_eq_getElem there

/-- Two calls for one schema and too many others can lose the entry between them. -/
theorem exists_race (collisionless : library.Collisionless schemas)
    (repeated : ¬ (library.compiling schemas).Nodup)
    (crowded : max maxEntries 1 < (library.compiling schemas).dedup.length) :
    ∃ wanted pool, Pool.FreeRun (CacheCall.next library (meetsKey wanted) maxEntries)
        (cacheStart schemas) pool ∧
      ∃ schema ∈ library.compiling schemas,
        ⟨schema, .returned (.error insertionRace)⟩ ∈ pool.calls := by
  obtain ⟨schema, late, early, member, apart, here, there⟩ := exists_two_places repeated
  obtain ⟨used, compiled, compiles⟩ := exists_compile_of_mem member
  obtain ⟨waiting, begins, present, waits, trims, still⟩ := exists_run_late apart
    (cacheStart_getElem? here) (cacheStart_getElem? there) compiles (AList.notMem_empty _)
  have distinct := List.nodup_dedup (library.compiling schemas)
  have others : ∀ other ∈ (library.compiling schemas).dedup.erase schema,
      other ≠ schema ∧ other ∈ library.compiling schemas := fun other inside =>
    (distinct.mem_erase_iff.mp inside).imp_right List.mem_dedup.mp
  have reading : ∀ other ∈ (library.compiling schemas).dedup.erase schema, ∃ place : Nat,
      waiting.calls[place]? = some ⟨other, .read⟩ := by
    intro other inside
    obtain ⟨differs, compiling⟩ := others other inside
    obtain ⟨place, located⟩ := List.mem_iff_getElem?.mp (exists_compile_of_mem compiling).1
    have starts := cacheStart_getElem? (V := V) located
    exact ⟨place, still place _ (place_ne (cacheStart_getElem? here) starts differs)
      (place_ne (cacheStart_getElem? there) starts differs) starts⟩
  obtain ⟨full, fills, grows, inserted, stays⟩ := exists_run_inserts (distinct.erase schema)
    (fun other inside => (exists_compile_of_mem (others other inside).2).2) reading
  have own : schema ∉ (library.compiling schemas).dedup.erase schema :=
    fun inside => (others schema inside).1 rfl
  have crowded : max maxEntries 1 < full.shared.validators.size := by
    refine crowded.trans_le ?_
    rw [← List.length_map library.keyOf]
    refine FiniteMap.length_le_size (distinct.map_on ?_) ?_
    · intro first inside second among
      exact collisionless first (exists_compile_of_mem (List.mem_dedup.mp inside)).1 second
        (exists_compile_of_mem (List.mem_dedup.mp among)).1
    · intro key held
      obtain ⟨other, inside, rfl⟩ := List.mem_map.mp held
      by_cases same : other = schema
      · rw [same]
        exact grows _ present
      · exact inserted other (distinct.mem_erase_iff.mpr ⟨same, inside⟩)
  obtain ⟨last, ends, lost⟩ := exists_run_lost apart (stays late _ own waits)
    (stays early _ own trims) (grows _ present) crowded
  exact ⟨_, last, (begins.trans fills).trans ends, schema, member, lost⟩

/--
The cache is transparent if and only if no compiling schema is used by two of
the calls, or the cache has room for all of them.
-/
theorem validator_cache_transparent_iff (library : ValidatorLibrary H V) (maxEntries : Nat)
    (schemas : List Value) (collisionless : library.Collisionless schemas) :
    library.CacheTransparent maxEntries schemas ↔
      (library.compiling schemas).Nodup ∨
        (library.compiling schemas).dedup.length ≤ max maxEntries 1 := by
  constructor
  · intro transparent
    by_contra racing
    obtain ⟨repeated, crowded⟩ := not_or.mp racing
    obtain ⟨wanted, pool, run, schema, member, lost⟩ :=
      exists_race collisionless repeated (Nat.lt_of_not_le crowded)
    obtain ⟨_, _, calls⟩ := transparent _ (meetsFirst_meetsKey wanted) pool run
    obtain ⟨_, compiled, compiles⟩ := exists_compile_of_mem member
    have returned := (calls _ lost).2 _ rfl
    rw [compiles] at returned
    cases returned
  · rintro (distinct | fits)
    · exact transparent_of_distinct library maxEntries collisionless distinct
    · exact transparent_of_fits library maxEntries collisionless fits

/-! ## The smallest race -/

/-- A hasher that tells the schemas `true` and `false` apart. -/
def countingHasher : Hasher UInt64 where
  new := 0
  writeU8 state byte := state * 8 + UInt64.ofNat byte
  writeUsize state size := state * 8 + UInt64.ofNat size
  hashText state text := state * 8 + UInt64.ofNat text.length
  finish state := state

/-- Every schema compiles to itself. -/
def plainLibrary : ValidatorLibrary UInt64 Value where
  hasher := countingHasher
  validatorFor := .ok

def racingSchemas : List Value := [.bool true, .bool true, .bool false]

theorem collisionless_racingSchemas : plainLibrary.Collisionless racingSchemas := by
  unfold ValidatorLibrary.Collisionless
  decide

theorem validator_cache_transparent_iff_racing :
    plainLibrary.CacheTransparent 2 racingSchemas ↔
      (plainLibrary.compiling racingSchemas).Nodup ∨
        (plainLibrary.compiling racingSchemas).dedup.length ≤ max 2 1 :=
  validator_cache_transparent_iff plainLibrary 2 racingSchemas collisionless_racingSchemas

/-- Some call has returned the error of a lost insertion. -/
def raceLost (pool : Pool (ValidatorCache Value) (CacheCall Value)) : Bool :=
  pool.calls.any fun call =>
    match call.stage with
    | .returned (.error text) => text == insertionRace
    | _ => false

/--
The first two calls miss, the second inserts and the first comes too late; the
third call inserts and drops the entry of the other two; and the first call
does not find it.
-/
theorem three_calls_race :
    plainLibrary.Collisionless racingSchemas ∧
      ¬ plainLibrary.CacheTransparent 1 racingSchemas := by
  refine ⟨collisionless_racingSchemas, fun transparent => ?_⟩
  let wanted := plainLibrary.keyOf (.bool true)
  obtain ⟨pool, run, lost⟩ : ∃ pool, Pool.FreeRun (CacheCall.next plainLibrary (meetsKey wanted) 1)
      (cacheStart racingSchemas) pool ∧ raceLost pool = true :=
    Pool.exists_run_of_follow [0, 1, 1, 0, 1, 2, 2, 2, 2, 2, 0] (by decide)
  obtain ⟨call, member, returned⟩ := List.any_eq_true.mp lost
  have served := (((transparent _ (meetsFirst_meetsKey wanted) pool run).2.2) call member).2
  split at returned
  next text stage =>
    cases served _ stage
  next => cases returned

end SpecMock.Core
