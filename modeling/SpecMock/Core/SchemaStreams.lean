import SpecMock.Core.ValidatorRaces
import SpecMock.Library.LengthPrefix
import SpecMock.Library.SelfDelimiting
import SpecMock.Library.Text
import SpecMock.Library.Utf8

/-!
# What the cache key sees of a schema

The hasher takes in a stream of bytes: a tag for the kind of a value, texts
behind it with a byte that no text has, and lengths in front of what they count.
The streams of two schemas differ wherever the schemas do, so calls for
different schemas get hold of one validator only when the hash of their streams
collides.
-/

namespace SpecMock.Core

open SpecMock.Library SelfDelimiting

/-- The words of a machine: lengths below a limit, written with a fixed number of bytes. -/
structure MachineWords where
  limit : Nat
  width : Nat
  bytes : Nat → List UInt8
  length_bytes : ∀ length, (bytes length).length = width
  injective : ∀ {first second}, first < limit → second < limit → bytes first = bytes second →
    first = second

/-- Words of eight bytes, the least significant one first. -/
def words64 : MachineWords where
  limit := 256 ^ 8
  width := 8
  bytes length := (LengthPrefix.write 8 length).reverse
  length_bytes length := by simp
  injective := by
    intro first second small below same
    have numbers := congrArg LengthPrefix.read (List.reverse_injective same)
    rwa [LengthPrefix.read_write, LengthPrefix.read_write, Nat.mod_eq_of_lt small,
      Nat.mod_eq_of_lt below] at numbers

/-- A text is hashed as its bytes and a byte that is in no text. -/
def textStream (text : String) : List UInt8 := Utf8.encode text.toList ++ [255]

/-- The text of a number. -/
def numberText (number : Number) : String := Value.toText (.number number)

/-- The hasher that writes down what it is fed. -/
def recording (words : MachineWords) : Hasher (List UInt8) where
  new := []
  writeU8 written byte := written ++ [UInt8.ofNat byte]
  writeUsize written length := written ++ words.bytes length
  hashText written text := written ++ textStream text
  finish _ := 0

/-- The bytes that a hasher is fed for a value. -/
def hashStream (words : MachineWords) (value : Value) : List UInt8 :=
  hashJsonValue (recording words) value []

/-- A hasher that takes in bytes one after the other. -/
structure FedBytes {H : Type} (hasher : Hasher H) (words : MachineWords) (push : H → UInt8 → H) :
    Prop where
  writeU8 : ∀ state byte, hasher.writeU8 state byte = push state (UInt8.ofNat byte)
  writeUsize : ∀ state length,
    hasher.writeUsize state length = (words.bytes length).foldl push state
  hashText : ∀ state text, hasher.hashText state text = (textStream text).foldl push state

section Kinds

variable (words : MachineWords)

mutual

/-- A tag, and behind it what the value holds. -/
def streamOf : Value → List UInt8
  | .null => [0]
  | .bool flag => [1, UInt8.ofNat flag.toNat]
  | .number number => 2 :: textStream (numberText number)
  | .string text => 3 :: textStream text
  | .array items => 4 :: (words.bytes items.length ++ itemStreams items)
  | .object members => 5 :: (words.bytes members.length ++ memberStreams members)

def itemStreams : List Value → List UInt8
  | [] => []
  | item :: rest => streamOf item ++ itemStreams rest

def memberStreams : List (String × Value) → List UInt8
  | [] => []
  | (key, nested) :: rest => textStream key ++ (streamOf nested ++ memberStreams rest)

end

theorem itemStreams_eq (items : List Value) :
    itemStreams words items = items.flatMap (streamOf words) := by
  induction items with
  | nil => rfl
  | cons item rest ih => rw [itemStreams, ih, List.flatMap_cons]

theorem memberStreams_eq (members : List (String × Value)) : memberStreams words members =
    members.flatMap fun member => textStream member.1 ++ streamOf words member.2 := by
  induction members with
  | nil => rfl
  | cons member rest ih =>
      obtain ⟨key, nested⟩ := member
      rw [memberStreams, ih, List.flatMap_cons, List.append_assoc]

variable {words} {H : Type} {hasher : Hasher H} {push : H → UInt8 → H}

/-- Hashing a value feeds its stream to the hasher. -/
theorem FedBytes.hashJsonValue_eq (fed : FedBytes hasher words push) (value : Value) (state : H) :
    hashJsonValue hasher value state = (streamOf words value).foldl push state := by
  induction value using Value.nestedInduction generalizing state with
  | scalar value plain bare =>
      cases value with
      | null =>
          rw [hashJsonValue, fed.writeU8]
          rfl
      | bool flag =>
          rw [hashJsonValue, fed.writeU8, fed.writeU8]
          rfl
      | number number =>
          rw [hashJsonValue, fed.writeU8, fed.hashText]
          rfl
      | string text =>
          rw [hashJsonValue, fed.writeU8, fed.hashText]
          rfl
      | array items => exact absurd rfl (plain items)
      | object members => exact absurd rfl (bare members)
  | array items each =>
      have items_eq : ∀ (rest : List Value) (state : H), rest ⊆ items →
          hashItems hasher rest state = (itemStreams words rest).foldl push state := by
        intro rest
        induction rest with
        | nil => exact fun state _ => rfl
        | cons item rest ih =>
            intro state inside
            obtain ⟨member, others⟩ := List.cons_subset.mp inside
            rw [hashItems, itemStreams, List.foldl_append, each item member, ih _ others]
      rw [hashJsonValue, fed.writeU8, fed.writeUsize, items_eq items _ (List.Subset.refl items),
        streamOf, List.foldl_cons, List.foldl_append]
      rfl
  | object members each =>
      have members_eq : ∀ (rest : List (String × Value)) (state : H), rest ⊆ members →
          hashMembers hasher rest state = (memberStreams words rest).foldl push state := by
        intro rest
        induction rest with
        | nil => exact fun state _ => rfl
        | cons member rest ih =>
            intro state inside
            obtain ⟨listed, others⟩ := List.cons_subset.mp inside
            obtain ⟨key, nested⟩ := member
            rw [hashMembers, memberStreams, List.foldl_append, List.foldl_append, fed.hashText,
              each _ listed, ih _ others]
      rw [hashJsonValue, fed.writeU8, fed.writeUsize,
        members_eq members _ (List.Subset.refl members), streamOf, List.foldl_cons,
        List.foldl_append]
      rfl

theorem foldl_snoc (written bytes : List UInt8) :
    bytes.foldl (fun written byte => written ++ [byte]) written = written ++ bytes := by
  induction bytes generalizing written with
  | nil => exact (List.append_nil written).symm
  | cons byte rest ih =>
      rw [List.foldl_cons, ih, List.append_assoc]
      rfl

theorem recording_fed (words : MachineWords) :
    FedBytes (recording words) words fun written byte => written ++ [byte] where
  writeU8 _ _ := rfl
  writeUsize _ _ := (foldl_snoc _ _).symm
  hashText _ _ := (foldl_snoc _ _).symm

theorem hashStream_eq (words : MachineWords) (value : Value) :
    hashStream words value = streamOf words value := by
  rw [hashStream, (recording_fed words).hashJsonValue_eq, foldl_snoc, List.nil_append]

end Kinds

/-- The numbers are among the given ones, and containers have lengths below the limit. -/
inductive Hashable (numbers : Set Number) (limit : Nat) : Value → Prop where
  | null : Hashable numbers limit .null
  | bool (flag : Bool) : Hashable numbers limit (.bool flag)
  | number {number : Number} (known : number ∈ numbers) : Hashable numbers limit (.number number)
  | string (text : String) : Hashable numbers limit (.string text)
  | array {items : List Value} (short : items.length < limit)
      (each : ∀ item ∈ items, Hashable numbers limit item) : Hashable numbers limit (.array items)
  | object {members : List (String × Value)} (short : members.length < limit)
      (each : ∀ member ∈ members, Hashable numbers limit member.2) :
      Hashable numbers limit (.object members)

/-- Integers, and floats that are not written like one. -/
def renderedNumbers : Set Number :=
  {number | ∀ text, number = .float text → ∀ value : Int, text ≠ toString value}

/-- Rendered numbers are told apart by their texts. -/
theorem numberText_injOn : Set.InjOn numberText renderedNumbers := by
  intro first rendered second listed same
  cases first with
  | int value =>
      cases second with
      | int other => exact congrArg Number.int (Text.toString_int_injective same)
      | float text => exact absurd (Eq.symm same) (listed text rfl value)
  | float text =>
      cases second with
      | int other => exact absurd same (rendered text rfl other)
      | float other => exact congrArg Number.float same

theorem separated_textStream (text : String) : Separated (fun _ => True) textStream text := by
  refine separated_of_terminated (fun text member => ?_) fun other _ same => ?_
  · have small := Utf8.lt_of_mem_encode member
    exact absurd small (by decide)
  · exact Utf8.encode_injective same

theorem MachineWords.separated (words : MachineWords) {length : Nat}
    (short : length < words.limit) : Separated (· < words.limit) words.bytes length :=
  separated_of_width words.length_bytes fun _ other same => words.injective short other same

/-- The stream of a value is told apart from the streams of all others. -/
theorem separated_streamOf (words : MachineWords) {numbers : Set Number}
    (texts : Set.InjOn numberText numbers) {value : Value}
    (hashable : Hashable numbers words.limit value) :
    Separated (Hashable numbers words.limit) (streamOf words) value := by
  induction hashable with
  | null =>
      intro other rest more known same
      cases known with
      | null => exact ⟨rfl, (List.cons.inj same).2⟩
      | bool | number | string | array | object => simp [streamOf] at same
  | bool flag =>
      intro other rest more known same
      cases known with
      | bool held =>
          simp only [streamOf, List.cons_append, List.nil_append, List.cons.injEq, true_and] at same
          obtain ⟨flags, rests⟩ := same
          have equal : flag = held := by
            cases flag <;> cases held <;> first | rfl | cases flags
          exact ⟨congrArg _ equal, rests⟩
      | null | number | string | array | object => simp [streamOf] at same
  | @number number known =>
      intro other rest more listed same
      cases listed with
      | number member =>
          simp only [streamOf, List.cons_append, List.cons.injEq, true_and] at same
          obtain ⟨equal, rests⟩ := separated_textStream _ _ _ _ trivial same
          exact ⟨congrArg _ (texts known member equal), rests⟩
      | null | bool | string | array | object => simp [streamOf] at same
  | string text =>
      intro other rest more known same
      cases known with
      | string held =>
          simp only [streamOf, List.cons_append, List.cons.injEq, true_and] at same
          obtain ⟨rfl, rests⟩ := separated_textStream _ _ _ _ trivial same
          exact ⟨rfl, rests⟩
      | null | bool | number | array | object => simp [streamOf] at same
  | @array items short each ih =>
      intro other rest more known same
      cases known with
      | array few others =>
          simp only [streamOf, itemStreams_eq, List.cons_append, List.cons.injEq, true_and] at same
          obtain ⟨rfl, rests⟩ := separated_counted (words.separated short) ih _ _ _ ⟨few, others⟩
            same
          exact ⟨rfl, rests⟩
      | null | bool | number | string | object => simp [streamOf] at same
  | @object members short each ih =>
      intro other rest more known same
      cases known with
      | object few others =>
          simp only [streamOf, memberStreams_eq, List.cons_append, List.cons.injEq,
            true_and] at same
          have entries : ∀ member ∈ members, Separated _ _ member := fun member listed =>
            (separated_textStream member.1).pair (ih member listed)
          obtain ⟨rfl, rests⟩ := separated_counted (words.separated short) entries _ _ _
            ⟨few, fun member listed => ⟨trivial, others member listed⟩⟩ same
          exact ⟨rfl, rests⟩
      | null | bool | number | string | array => simp [streamOf] at same

section Cache

variable {H V : Type} {library : ValidatorLibrary H V} {maxEntries : Nat} {schemas : List Value}
  {firstKey : Nat → FiniteMap UInt64 V → Option UInt64}

/-- The validator was compiled for a schema of the run with the key. -/
def CompiledForKey (library : ValidatorLibrary H V) (schemas : List Value) (key : UInt64)
    (validator : V) : Prop :=
  ∃ schema ∈ schemas, library.keyOf schema = key ∧ library.compile schema = .ok validator

/-- What a call is to insert is its own validator, and what it returns is one of its key. -/
def CacheCall.KeepsKey (library : ValidatorLibrary H V) (schemas : List Value)
    (call : CacheCall V) : Prop :=
  match call.stage with
  | .read | .readAgain | .returned (.error _) => True
  | .insert compiled | .trimLen compiled | .trimFirst compiled | .trimRemove compiled _
  | .returned (.ok compiled) =>
      CompiledForKey library schemas (library.keyOf call.schema) compiled

/-- Every validator in the cache and in a call is of its key. -/
structure KeyedPool (library : ValidatorLibrary H V) (schemas : List Value)
    (pool : Pool (ValidatorCache V) (CacheCall V)) : Prop where
  started : pool.calls.map CacheCall.schema = schemas
  cached : ∀ key validator, pool.shared.validators.lookup key = some validator →
    CompiledForKey library schemas key validator
  held : ∀ call ∈ pool.calls, call.KeepsKey library schemas

theorem CacheStage.Moves.keepsKey {schema : Value} {stage after : CacheStage V}
    {map reached : FiniteMap UInt64 V}
    (moves : stage.Moves library maxEntries schema map after reached) (used : schema ∈ schemas)
    (cached : ∀ validator, map.lookup (library.keyOf schema) = some validator →
      CompiledForKey library schemas (library.keyOf schema) validator)
    (held : CacheCall.KeepsKey library schemas ⟨schema, stage⟩) :
    CacheCall.KeepsKey library schemas ⟨schema, after⟩ := by
  cases moves with
  | hit found => exact cached _ found
  | compile compiles => exact ⟨schema, used, rfl, compiles⟩
  | again found => exact cached _ found
  | refuse | taken | lost => trivial
  | insert | large | small | first | empty | remove => exact held

theorem KeyedPool.schema_mem {pool : Pool (ValidatorCache V) (CacheCall V)}
    (keyed : KeyedPool library schemas pool) {call : CacheCall V} (member : call ∈ pool.calls) :
    call.schema ∈ schemas :=
  keyed.started ▸ List.mem_map_of_mem member

theorem KeyedPool.step (meets : MeetsFirst firstKey)
    {pool last : Pool (ValidatorCache V) (CacheCall V)} (keyed : KeyedPool library schemas pool)
    {index : Nat}
    (stepped : pool.step (CacheCall.next library firstKey maxEntries) index = some last) :
    KeyedPool library schemas last := by
  obtain ⟨call, after, shared, located, moved, rfl⟩ := Pool.step_cases stepped
  obtain ⟨same, moves⟩ := CacheCall.moves_of_next meets moved
  have member := List.mem_of_getElem? located
  have used := keyed.schema_mem member
  have held := keyed.held call member
  refine ⟨(Pool.map_calls_set located same).trans keyed.started, ?_,
    Pool.forall_calls_set ?_ fun _ other _ elsewhere =>
      keyed.held other (List.mem_of_getElem? elsewhere)⟩
  · refine moves.cached keyed.cached fun validator inserting => ?_
    unfold CacheCall.KeepsKey at held
    rwa [inserting] at held
  · obtain ⟨schema, stage⟩ := call
    obtain ⟨_, later⟩ := after
    cases same
    exact moves.keepsKey used (keyed.cached _) held

theorem KeyedPool.initial (library : ValidatorLibrary H V) (schemas : List Value) :
    KeyedPool library schemas (cacheStart schemas) where
  started := cacheStart_schemas schemas
  cached := by simp [cacheStart]
  held := by
    intro call member
    obtain ⟨schema, _, rfl⟩ := List.mem_map.mp member
    trivial

theorem KeyedPool.of_run (meets : MeetsFirst firstKey)
    {pool : Pool (ValidatorCache V) (CacheCall V)}
    (run : Pool.FreeRun (CacheCall.next library firstKey maxEntries) (cacheStart schemas) pool) :
    KeyedPool library schemas pool :=
  run.preserves (KeyedPool library schemas) (fun keyed _ stepped => keyed.step meets stepped)
    (.initial library schemas)

/-- A returned validator was compiled for a schema of the same key. -/
theorem KeyedPool.returned {pool : Pool (ValidatorCache V) (CacheCall V)}
    (keyed : KeyedPool library schemas pool) {call : CacheCall V} (member : call ∈ pool.calls)
    {validator : V} (returned : call.stage = .returned (.ok validator)) :
    CompiledForKey library schemas (library.keyOf call.schema) validator := by
  have held := keyed.held call member
  unfold CacheCall.KeepsKey at held
  rwa [returned] at held

/-- The hash of a stream of bytes. -/
def Hasher.digest (hasher : Hasher H) (push : H → UInt8 → H) (bytes : List UInt8) : UInt64 :=
  hasher.finish (bytes.foldl push hasher.new)

theorem FedBytes.keyOf_eq {words : MachineWords} {push : H → UInt8 → H}
    (fed : FedBytes library.hasher words push) (schema : Value) :
    library.keyOf schema = library.hasher.digest push (hashStream words schema) := by
  rw [ValidatorLibrary.keyOf, hashValue, fed.hashJsonValue_eq, hashStream_eq]
  rfl

end Cache

/--
The stream of a value is no part of the stream of another one.  So, however the
calls for some schemas interleave, a call that gets a validator that was not
compiled for its schema gets that of a schema with another stream of the same
hash.
-/
theorem schemaStreams_apart (words : MachineWords) {numbers : Set Number}
    (texts : Set.InjOn numberText numbers) :
    (∀ value other, Hashable numbers words.limit value → Hashable numbers words.limit other →
      hashStream words value <+: hashStream words other → value = other) ∧
    ∀ {H V : Type} (library : ValidatorLibrary H V) (push : H → UInt8 → H),
      FedBytes library.hasher words push →
      ∀ schemas : List Value, (∀ schema ∈ schemas, Hashable numbers words.limit schema) →
      ∀ maxEntries firstKey, MeetsFirst firstKey → ∀ pool,
        Pool.FreeRun (CacheCall.next library firstKey maxEntries) (cacheStart schemas) pool →
        ∀ call ∈ pool.calls, ∀ validator, call.stage = .returned (.ok validator) →
          library.compile call.schema = .ok validator ∨
            ∃ other ∈ schemas, library.compile other = .ok validator ∧
              hashStream words other ≠ hashStream words call.schema ∧
              library.hasher.digest push (hashStream words other) =
                library.hasher.digest push (hashStream words call.schema) := by
  have apart : ∀ value other, Hashable numbers words.limit value →
      Hashable numbers words.limit other → hashStream words value <+: hashStream words other →
        value = other := by
    intro value other hashable known part
    rw [hashStream_eq, hashStream_eq] at part
    exact (separated_streamOf words texts hashable).eq_of_part known part
  refine ⟨apart, ?_⟩
  intro H V library push fed schemas hashable maxEntries firstKey meets pool run call member
    validator returned
  have keyed := KeyedPool.of_run meets run
  obtain ⟨other, used, sameKey, compiled⟩ := keyed.returned member returned
  have own := keyed.schema_mem member
  by_cases same : other = call.schema
  · exact .inl (same ▸ compiled)
  · refine .inr ⟨other, used, compiled, fun streams => same ?_, ?_⟩
    · exact apart other call.schema (hashable other used) (hashable _ own)
        (streams ▸ List.prefix_refl _)
    · rw [← fed.keyOf_eq, ← fed.keyOf_eq, sameKey]

/-- An array does not hide in one that goes on after its first item. -/
theorem nestedArrays_apart :
    ¬ hashStream words64 (.array [.array []]) <+:
      hashStream words64 (.array [.array [], .null]) := by
  have empty : Hashable renderedNumbers words64.limit (.array []) := .array (by decide) (by simp)
  have outer : Hashable renderedNumbers words64.limit (.array [.array []]) :=
    .array (by decide) (by simpa using empty)
  have longer : Hashable renderedNumbers words64.limit (.array [.array [], .null]) :=
    .array (by decide) (by simpa using ⟨empty, .null⟩)
  exact fun part =>
    absurd ((schemaStreams_apart words64 numberText_injOn).1 _ _ outer longer part) (by decide)

end SpecMock.Core
