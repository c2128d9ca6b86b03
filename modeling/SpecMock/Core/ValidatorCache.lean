import SpecMock.Core.Json
import SpecMock.Library.FiniteMap
import SpecMock.Library.Interleaving

/-!
# The validator cache

Calls look a compiled schema up in one shared cache by the hash of the schema,
compile it on a miss, insert it, and drop entries while the cache is too large.
Every access to the cache is one atomic step, so that another call may come in
between.  Which key an iteration of the map meets first is not known: it is
given by a function of the iterations so far.
-/

namespace SpecMock.Core

open SpecMock.Library

/-- What the cache key uses of the standard hasher. -/
structure Hasher (H : Type) where
  new : H
  writeU8 : H → Nat → H
  writeUsize : H → Nat → H
  hashText : H → String → H
  finish : H → UInt64

section Hash

variable {H : Type} (hasher : Hasher H)

mutual

def hashJsonValue : Value → H → H
  | .null, state => hasher.writeU8 state 0
  | .bool flag, state => hasher.writeU8 (hasher.writeU8 state 1) flag.toNat
  | .number number, state =>
      hasher.hashText (hasher.writeU8 state 2) (Value.toText (.number number))
  | .string text, state => hasher.hashText (hasher.writeU8 state 3) text
  | .array items, state =>
      hashItems items (hasher.writeUsize (hasher.writeU8 state 4) items.length)
  | .object members, state =>
      hashMembers members (hasher.writeUsize (hasher.writeU8 state 5) members.length)

def hashItems : List Value → H → H
  | [], state => state
  | item :: rest, state => hashItems rest (hashJsonValue item state)

def hashMembers : List (String × Value) → H → H
  | [], state => state
  | (key, nested) :: rest, state =>
      hashMembers rest (hashJsonValue nested (hasher.hashText state key))

end

/-- Hash a schema into a stable cache key. -/
def hashValue (value : Value) : UInt64 :=
  hasher.finish (hashJsonValue hasher value hasher.new)

end Hash

structure CompileError where
  message : String
  schemaPath : String

/-- The libraries behind the cache: the hasher, and the compiler of schemas. -/
structure ValidatorLibrary (H V : Type) where
  hasher : Hasher H
  validatorFor : Value → Except CompileError V

/-- A schema compiled, or the text of the schema error. -/
def ValidatorLibrary.compile {H V : Type} (library : ValidatorLibrary H V) (schema : Value) :
    Except String V :=
  match library.validatorFor schema with
  | .ok compiled => .ok compiled
  | .error error => .error (error.message ++ " (schema_path=" ++ error.schemaPath ++ ")")

def insertionRace : String :=
  "validator cache insertion race: validator missing after duplicate insert"

/-- The shared cache, with the number of iterations that were made of it. -/
structure ValidatorCache (V : Type) where
  validators : FiniteMap UInt64 V
  iterations : Nat

/-- The access that a call makes next. -/
inductive CacheStage (V : Type) where
  | read
  | insert (compiled : V)
  | readAgain
  | trimLen (compiled : V)
  | trimFirst (compiled : V)
  | trimRemove (compiled : V) (key : UInt64)
  | returned (result : Except String V)

def CacheStage.isReturned {V : Type} : CacheStage V → Bool
  | .returned _ => true
  | _ => false

/-- A call of `get_or_compile_validator`. -/
structure CacheCall (V : Type) where
  schema : Value
  stage : CacheStage V

/-- The key an iteration meets first is one of the map, if it has any. -/
structure MeetsFirst {V : Type} (firstKey : Nat → FiniteMap UInt64 V → Option UInt64) :
    Prop where
  present : ∀ {iterations map key}, firstKey iterations map = some key → key ∈ map
  found : ∀ {iterations map key}, key ∈ map → (firstKey iterations map).isSome = true

section Calls

variable {H V : Type} (library : ValidatorLibrary H V)
  (firstKey : Nat → FiniteMap UInt64 V → Option UInt64) (maxEntries : Nat)

def ValidatorLibrary.keyOf (schema : Value) : UInt64 := hashValue library.hasher schema

/-- The next access of a call to the cache. -/
def CacheCall.next (call : CacheCall V) (cache : ValidatorCache V) :
    Option (CacheCall V × ValidatorCache V) :=
  let cacheKey := library.keyOf call.schema
  match call.stage with
  | .read =>
      match cache.validators.lookup cacheKey with
      | some cached => some (⟨call.schema, .returned (.ok cached)⟩, cache)
      | none =>
          match library.compile call.schema with
          | .error error => some (⟨call.schema, .returned (.error error)⟩, cache)
          | .ok compiled => some (⟨call.schema, .insert compiled⟩, cache)
  | .insert compiled =>
      if cacheKey ∈ cache.validators then some (⟨call.schema, .readAgain⟩, cache)
      else
        some (⟨call.schema, .trimLen compiled⟩,
          { cache with validators := cache.validators.insert cacheKey compiled })
  | .readAgain =>
      match cache.validators.lookup cacheKey with
      | some cached => some (⟨call.schema, .returned (.ok cached)⟩, cache)
      | none => some (⟨call.schema, .returned (.error insertionRace)⟩, cache)
  | .trimLen compiled =>
      if max maxEntries 1 < cache.validators.size then
        some (⟨call.schema, .trimFirst compiled⟩, cache)
      else some (⟨call.schema, .returned (.ok compiled)⟩, cache)
  | .trimFirst compiled =>
      let iterated := { cache with iterations := cache.iterations + 1 }
      match firstKey cache.iterations cache.validators with
      | some key => some (⟨call.schema, .trimRemove compiled key⟩, iterated)
      | none => some (⟨call.schema, .returned (.ok compiled)⟩, iterated)
  | .trimRemove compiled key =>
      some (⟨call.schema, .trimLen compiled⟩,
        { cache with validators := cache.validators.erase key })
  | .returned _ => none

/-- The calls for some schemas, about to start on an empty cache. -/
def cacheStart (schemas : List Value) : Pool (ValidatorCache V) (CacheCall V) :=
  ⟨⟨∅, 0⟩, schemas.map fun schema => ⟨schema, .read⟩⟩

/--
However the calls for the schemas interleave and whatever the iterations meet
first: the run ends, a call that cannot go on has returned, and a call returns
what compiling its own schema gives.
-/
def ValidatorLibrary.CacheTransparent (schemas : List Value) : Prop :=
  ∀ firstKey, MeetsFirst firstKey → ∀ pool,
    Pool.FreeRun (CacheCall.next library firstKey maxEntries) (cacheStart schemas) pool →
      Acc (Pool.Later (CacheCall.next library firstKey maxEntries)) pool ∧
      pool.calls.map CacheCall.schema = schemas ∧
      ∀ call ∈ pool.calls,
        ((call.next library firstKey maxEntries pool.shared).isNone = true →
          call.stage.isReturned = true) ∧
        ∀ result, call.stage = .returned result → result = library.compile call.schema

/-- Everything one access of a call for a schema can do to the map, with what it found. -/
inductive CacheStage.Moves (schema : Value) :
    CacheStage V → FiniteMap UInt64 V → CacheStage V → FiniteMap UInt64 V → Prop where
  | hit {map : FiniteMap UInt64 V} {cached : V}
      (found : map.lookup (library.keyOf schema) = some cached) :
      Moves schema .read map (.returned (.ok cached)) map
  | refuse {map : FiniteMap UInt64 V} {error : String}
      (fails : library.compile schema = .error error) :
      Moves schema .read map (.returned (.error error)) map
  | compile {map : FiniteMap UInt64 V} {compiled : V}
      (compiles : library.compile schema = .ok compiled) :
      Moves schema .read map (.insert compiled) map
  | insert {map : FiniteMap UInt64 V} {compiled : V} (absent : library.keyOf schema ∉ map) :
      Moves schema (.insert compiled) map (.trimLen compiled)
        (map.insert (library.keyOf schema) compiled)
  | taken {map : FiniteMap UInt64 V} {compiled : V} (present : library.keyOf schema ∈ map) :
      Moves schema (.insert compiled) map .readAgain map
  | again {map : FiniteMap UInt64 V} {cached : V}
      (found : map.lookup (library.keyOf schema) = some cached) :
      Moves schema .readAgain map (.returned (.ok cached)) map
  | lost {map : FiniteMap UInt64 V} (absent : library.keyOf schema ∉ map) :
      Moves schema .readAgain map (.returned (.error insertionRace)) map
  | large {map : FiniteMap UInt64 V} {compiled : V} (crowded : max maxEntries 1 < map.size) :
      Moves schema (.trimLen compiled) map (.trimFirst compiled) map
  | small {map : FiniteMap UInt64 V} {compiled : V} :
      Moves schema (.trimLen compiled) map (.returned (.ok compiled)) map
  | first {map : FiniteMap UInt64 V} {compiled : V} {key : UInt64} (present : key ∈ map) :
      Moves schema (.trimFirst compiled) map (.trimRemove compiled key) map
  | empty {map : FiniteMap UInt64 V} {compiled : V} :
      Moves schema (.trimFirst compiled) map (.returned (.ok compiled)) map
  | remove {map : FiniteMap UInt64 V} {compiled : V} {key : UInt64} :
      Moves schema (.trimRemove compiled key) map (.trimLen compiled) (map.erase key)

variable {library firstKey maxEntries}

theorem CacheCall.moves_of_next (meets : MeetsFirst firstKey) {call after : CacheCall V}
    {cache reached : ValidatorCache V}
    (moved : call.next library firstKey maxEntries cache = some (after, reached)) :
    after.schema = call.schema ∧
      call.stage.Moves library maxEntries call.schema cache.validators after.stage
        reached.validators := by
  obtain ⟨schema, stage⟩ := call
  cases stage with
  | read =>
      simp only [next] at moved
      cases found : cache.validators.lookup (library.keyOf schema) with
      | some cached =>
          rw [found] at moved
          cases moved
          exact ⟨rfl, .hit found⟩
      | none =>
          rw [found] at moved
          cases compiled : library.compile schema with
          | error error =>
              rw [compiled] at moved
              cases moved
              exact ⟨rfl, .refuse compiled⟩
          | ok validator =>
              rw [compiled] at moved
              cases moved
              exact ⟨rfl, .compile compiled⟩
  | insert compiled =>
      simp only [next] at moved
      split at moved
      next present =>
        cases moved
        exact ⟨rfl, .taken present⟩
      next absent =>
        cases moved
        exact ⟨rfl, .insert absent⟩
  | readAgain =>
      simp only [next] at moved
      cases found : cache.validators.lookup (library.keyOf schema) with
      | some cached =>
          rw [found] at moved
          cases moved
          exact ⟨rfl, .again found⟩
      | none =>
          rw [found] at moved
          cases moved
          exact ⟨rfl, .lost (AList.lookup_eq_none.mp found)⟩
  | trimLen compiled =>
      simp only [next] at moved
      split at moved
      next crowded =>
        cases moved
        exact ⟨rfl, .large crowded⟩
      next =>
        cases moved
        exact ⟨rfl, .small⟩
  | trimFirst compiled =>
      simp only [next] at moved
      cases met : firstKey cache.iterations cache.validators with
      | some key =>
          rw [met] at moved
          cases moved
          exact ⟨rfl, .first (meets.present met)⟩
      | none =>
          rw [met] at moved
          cases moved
          exact ⟨rfl, .empty⟩
  | trimRemove compiled key =>
      cases moved
      exact ⟨rfl, .remove⟩
  | returned result => cases moved

/-- Only a call that has returned cannot go on. -/
theorem CacheCall.isReturned_of_next {call : CacheCall V} {cache : ValidatorCache V}
    (stopped : (call.next library firstKey maxEntries cache).isNone = true) :
    call.stage.isReturned = true := by
  obtain ⟨schema, stage⟩ := call
  cases stage with
  | returned => rfl
  | read =>
      simp only [next] at stopped
      split at stopped
      · cases stopped
      · split at stopped <;> cases stopped
  | insert =>
      simp only [next] at stopped
      split at stopped <;> cases stopped
  | readAgain =>
      simp only [next] at stopped
      split at stopped <;> cases stopped
  | trimLen =>
      simp only [next] at stopped
      split at stopped <;> cases stopped
  | trimFirst =>
      simp only [next] at stopped
      split at stopped <;> cases stopped
  | trimRemove => cases stopped

end Calls

end SpecMock.Core
