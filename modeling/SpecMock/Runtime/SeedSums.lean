import SpecMock.Runtime.MessageNesting

/-!
# Sums of seeds

The seed of a nested message is that of its field plus one, so it leaves the
range of 64 bits where the seed of a message is the complement of the number of
a message field.  The seeds on the way there depend on the numbers of the fields
that are followed, and on nothing else.
-/

namespace SpecMock.Runtime.Grpc

open SpecMock.Library SpecMock.Core

variable {δ ρ φ : Type}

/-- The seed of the message that fields with these numbers lead to. -/
def seedAlong (seed : BitVec 64) (path : List (BitVec 32)) : BitVec 64 :=
  path.foldl (fun seed number => fieldSeed seed number + 1) seed

/-- Mocking a type follows message fields with these numbers; what comes before them completes. -/
def Reflection.Follows (reflection : Reflection δ) : Nat → δ → List (BitVec 32) → Prop
  | _, _, [] => True
  | 0, _, _ :: _ => False
  | levels + 1, descriptor, number :: rest =>
      ∃ before field after inner, reflection.mockFields descriptor = before ++ field :: after ∧
        (∀ earlier ∈ before, earlier.IsMocked →
          earlier.kind.Completes (reflection.Completes levels)) ∧
        field.IsMocked ∧ field.number = number ∧ field.kind = .message inner ∧
        reflection.Follows levels inner rest

theorem Reflection.follows_nil (reflection : Reflection δ) (levels : Nat) (descriptor : δ) :
    reflection.Follows levels descriptor [] := by
  cases levels <;> trivial

/-- The sum of the seed of a field is too large only at the complement of its number. -/
theorem fieldSeed_overflows_iff (seed : BitVec 64) (number : BitVec 32) :
    2 ^ 64 ≤ (fieldSeed seed number).toNat + 1 ↔ seed = ~~~ (number.setWidth 64) := by
  have largest : 2 ^ 64 ≤ (fieldSeed seed number).toNat + 1 ↔
      fieldSeed seed number = BitVec.allOnes 64 := by
    rw [← BitVec.toNat_inj, BitVec.toNat_allOnes]
    have bound := (fieldSeed seed number).isLt
    omega
  rw [largest, fieldSeed]
  constructor
  · intro same
    calc
      seed = seed ^^^ number.setWidth 64 ^^^ number.setWidth 64 := by
        rw [BitVec.xor_assoc, BitVec.xor_self, BitVec.xor_zero]
      _ = ~~~ (number.setWidth 64) := by rw [same, BitVec.allOnes_xor]
  · rintro rfl
    rw [← BitVec.allOnes_xor, BitVec.xor_assoc, BitVec.xor_self, BitVec.xor_zero]

/-- The number that is stored is the one that the seed gives. -/
def Scalar.Exact {μ : Type} (seed : BitVec 64) : Kind δ → Scalar μ → Prop
  | .int32, .i32 value | .sint32, .i32 value | .sfixed32, .i32 value =>
      value.toInt = (seed.toNat % 2048 : Nat)
  | .int64, .i64 value | .sint64, .i64 value | .sfixed64, .i64 value =>
      value.toInt = (seed.toNat % 1000000 : Nat)
  | .uint32, .u32 value | .fixed32, .u32 value => value.toNat = seed.toNat % 2048
  | .uint64, .u64 value | .fixed64, .u64 value => value.toNat = seed.toNat % 1000000
  | .float, .f32 hundredths | .double, .f64 hundredths => hundredths = seed.toNat % 10000
  | .enum numbers, .enumNumber number => number ∈ numbers
  | _, _ => True

theorem toNat_small (seed : BitVec 64) :
    ((seed % 2048).setWidth 32).toNat = seed.toNat % 2048 := by
  rw [BitVec.toNat_setWidth, BitVec.toNat_umod]
  have bound : seed.toNat % 2048 < 2048 := Nat.mod_lt _ (by decide)
  change seed.toNat % 2048 % 2 ^ 32 = _
  omega

theorem toInt_small (seed : BitVec 64) :
    ((seed % 2048).setWidth 32).toInt = (seed.toNat % 2048 : Nat) := by
  have bound : seed.toNat % 2048 < 2048 := Nat.mod_lt _ (by decide)
  rw [BitVec.toInt_eq_toNat_of_lt (by rw [toNat_small]; omega), toNat_small]

theorem toInt_million (seed : BitVec 64) :
    (seed % 1000000).toInt = (seed.toNat % 1000000 : Nat) := by
  have value : (seed % 1000000).toNat = seed.toNat % 1000000 := BitVec.toNat_umod
  have bound : seed.toNat % 1000000 < 1000000 := Nat.mod_lt _ (by decide)
  rw [BitVec.toInt_eq_toNat_of_lt (by rw [value]; omega), value]

/-- Every number that is drawn fits its type. -/
theorem scalarValueForField_exact {reflection : Reflection δ} {random : Randomness ρ φ}
    (draws : random.Lawful)
    {generate : δ → BitVec 64 → Nat → Mocking reflection.DynamicMessage} {kind : Kind δ}
    {seed : BitVec 64} {depth : Nat} {value : Scalar reflection.DynamicMessage}
    (made : (scalarValueForField reflection random generate kind seed depth).outcome = .ok value) :
    value.Exact seed kind := by
  cases kind with
  | int32 | sint32 | sfixed32 =>
      cases made
      exact toInt_small seed
  | int64 | sint64 | sfixed64 =>
      cases made
      exact toInt_million seed
  | uint32 | fixed32 =>
      cases made
      exact toNat_small seed
  | uint64 | fixed64 =>
      cases made
      exact BitVec.toNat_umod
  | float | double =>
      cases made
      exact BitVec.toNat_umod
  | enum numbers =>
      cases numbers with
      | nil => cases made
      | cons number rest =>
          cases made
          obtain ⟨above, below⟩ := draws 0 ((number :: rest).length - 1)
            (random.seedFromU64 seed) (by simp)
          have inside : (random.randomRange 0 ((number :: rest).length - 1)
              (random.seedFromU64 seed)).1.toNat < (number :: rest).length := by
            simp only [List.length_cons] at below ⊢
            omega
          change List.getD _ _ _ ∈ _
          rw [List.getD_eq_getElem?_getD, List.getElem?_eq_getElem inside]
          exact List.getElem_mem inside
  | bool | string | bytes =>
      cases made
      trivial
  | message descriptor =>
      cases value <;> trivial

section Sums

variable {reflection : Reflection δ} (lawful : reflection.Lawful) (random : Randomness ρ φ)

include lawful

/-- The sums of a message are those of its message fields, up to the first that fails. -/
theorem mem_log_generateLevels {levels : Nat} {descriptor : δ} {seed : BitVec 64}
    {depth sum : Nat} :
    sum ∈ (generateLevels reflection random (levels + 1) descriptor seed depth).log ↔
      ∃ before field after inner, reflection.mockFields descriptor = before ++ field :: after ∧
        (∀ earlier ∈ before, earlier.IsMocked →
          earlier.kind.Completes (reflection.Completes levels)) ∧
        field.IsMocked ∧ field.kind = .message inner ∧
        (sum = (fieldSeed seed field.number).toNat + 1 ∨ sum = depth + 1 ∨
          sum ∈ (generateLevels reflection random levels inner
            (fieldSeed seed field.number + 1) (depth + 1)).log) := by
  have mocks := Reflection.mocks_generateLevels lawful random levels
  rw [generateLevels, setMockFields_eq_foldlM]
  refine ((steps_setMockField random lawful mocks descriptor seed depth).mem_log_foldlM
    (Reflection.setSoFar_new lawful descriptor)).trans ?_
  constructor
  · rintro ⟨before, field, after, split, complete, logged⟩
    unfold fieldLog at logged
    split at logged
    next mocked =>
      cases nested : field.kind with
      | message inner =>
          rw [nested] at logged
          exact ⟨before, field, after, inner, split, complete, mocked, nested,
            by simpa [kindLog] using logged⟩
      | _ => simp [kindLog, nested] at logged
    next => cases logged
  · rintro ⟨before, field, after, inner, split, complete, mocked, nested, logged⟩
    refine ⟨before, field, after, split, complete, ?_⟩
    rw [fieldLog, if_pos mocked, nested]
    simpa [kindLog] using logged

/-- A sum is too large where the fields lead to a seed that is the complement of a number. -/
theorem overflows_iff {levels : Nat} {descriptor : δ} {seed : BitVec 64} {depth : Nat}
    (shallow : depth + levels < 2 ^ 64) :
    (∃ sum ∈ (generateLevels reflection random levels descriptor seed depth).log, 2 ^ 64 ≤ sum) ↔
      ∃ path number, reflection.Follows levels descriptor (path ++ [number]) ∧
        seedAlong seed path = ~~~ (number.setWidth 64) := by
  induction levels generalizing descriptor seed depth with
  | zero =>
      refine iff_of_false (fun ⟨_, logged, _⟩ => nomatch logged) ?_
      rintro ⟨path, number, follows, -⟩
      cases path with
      | nil => exact follows
      | cons => exact follows
  | succ levels ih =>
      constructor
      · rintro ⟨sum, logged, large⟩
        obtain ⟨before, field, after, inner, split, complete, mocked, nested, source⟩ :=
          (mem_log_generateLevels lawful random).mp logged
        rcases source with rfl | rfl | deeper
        · exact ⟨[], field.number, ⟨before, field, after, inner, split, complete, mocked, rfl,
            nested, reflection.follows_nil levels inner⟩,
            (fieldSeed_overflows_iff seed field.number).mp large⟩
        · omega
        · obtain ⟨path, number, follows, reached⟩ := (ih (by omega)).mp ⟨sum, deeper, large⟩
          exact ⟨field.number :: path, number, ⟨before, field, after, inner, split, complete,
            mocked, rfl, nested, follows⟩, reached⟩
      · rintro ⟨path, number, follows, reached⟩
        cases path with
        | nil =>
            obtain ⟨before, field, after, inner, split, complete, mocked, rfl, nested, -⟩ := follows
            refine ⟨_, (mem_log_generateLevels lawful random).mpr ⟨before, field, after, inner,
              split, complete, mocked, nested, .inl rfl⟩, ?_⟩
            exact (fieldSeed_overflows_iff seed field.number).mpr reached
        | cons first path =>
            obtain ⟨before, field, after, inner, split, complete, mocked, rfl, nested, further⟩ :=
              follows
            obtain ⟨sum, deeper, large⟩ := (@ih inner _ (depth + 1) (by omega)).mpr
              ⟨path, number, further, reached⟩
            exact ⟨sum, (mem_log_generateLevels lawful random).mpr ⟨before, field, after, inner,
              split, complete, mocked, nested, .inr (.inr deeper)⟩, large⟩

end Sums

/-- No sum leaves the range of its type, and every drawn number fits its own. -/
structure ArithmeticFits (reflection : Reflection δ) (random : Randomness ρ φ) (descriptor : δ)
    (seed : BitVec 64) : Prop where
  sums : ∀ sum ∈ (generateDynamicMessage reflection random descriptor seed 0).log,
    sum ≤ 2 ^ 64 - 1
  scalars : ∀ kind seed depth value, (scalarValueForField reflection random
    (generateDynamicMessage reflection random) kind seed depth).outcome = .ok value →
      value.Exact seed kind

/--
The arithmetic fits unless the fields that are followed lead to a message whose
seed is the complement of the number of a message field in it.
-/
theorem arithmetic_fits_iff {reflection : Reflection δ} (lawful : reflection.Lawful)
    {random : Randomness ρ φ} (draws : random.Lawful) (descriptor : δ) (seed : BitVec 64) :
    ArithmeticFits reflection random descriptor seed ↔
      ∀ path number, reflection.Follows (maxMessageDepth + 1) descriptor (path ++ [number]) →
        seedAlong seed path ≠ ~~~ (number.setWidth 64) := by
  have overflows : (∃ sum ∈ (generateDynamicMessage reflection random descriptor seed 0).log,
      2 ^ 64 ≤ sum) ↔ _ := overflows_iff lawful random (by decide)
  constructor
  · intro fits path number follows reached
    obtain ⟨sum, logged, large⟩ := overflows.mpr ⟨path, number, follows, reached⟩
    have small := fits.sums sum logged
    omega
  · intro apart
    refine ⟨fun sum logged => ?_, fun _ _ _ _ made => scalarValueForField_exact draws made⟩
    by_contra large
    obtain ⟨path, number, follows, reached⟩ := overflows.mp ⟨sum, logged, by omega⟩
    exact apart path number follows reached

/-- A path starts at a message field of the type. -/
theorem Reflection.Follows.head {reflection : Reflection δ} {levels : Nat} {descriptor : δ}
    {number : BitVec 32} {rest : List (BitVec 32)}
    (follows : reflection.Follows levels descriptor (number :: rest)) :
    ∃ field ∈ reflection.mockFields descriptor, ∃ inner below, field.number = number ∧
      field.kind = .message inner ∧ reflection.Follows below inner rest := by
  cases levels with
  | zero => exact follows.elim
  | succ levels =>
      obtain ⟨before, field, after, inner, split, -, -, same, nested, further⟩ := follows
      exact ⟨field, by simp [split], inner, levels, same, nested, further⟩

/-- Only the author of a comment is nested in it. -/
theorem quotedFields_follows {levels : Nat} {number : BitVec 32} {rest : List (BitVec 32)}
    (follows : (records quotedFields).Follows levels .comment (number :: rest)) :
    number = 1 ∧ rest = [] := by
  obtain ⟨field, taken, inner, below, rfl, nested, further⟩ := follows.head
  obtain ⟨-, number, rfl⟩ := quotedFields_nested taken nested
  cases rest with
  | nil => exact ⟨number, rfl⟩
  | cons next rest =>
      obtain ⟨deeper, taken, _, _, _, nested, -⟩ := further.head
      exact nomatch (quotedFields_nested taken nested).1

theorem comment_fits :
    ArithmeticFits (records quotedFields) (Randomness.fixed 0) .comment 7 :=
  (arithmetic_fits_iff quotedFields_lawful (Randomness.fixed_lawful 0) .comment 7).mpr
    fun path number follows => by
      cases path with
      | nil =>
          obtain ⟨rfl, -⟩ := quotedFields_follows follows
          decide
      | cons first path => exact absurd (quotedFields_follows follows).2 (by simp)

/-- At the complement of the number of the author's field the seed of the author is lost. -/
theorem comment_overflows :
    (generateDynamicMessage (records quotedFields) (Randomness.fixed 0) .comment (~~~ 1)
        0).log = [2 ^ 64, 1] ∧
      ¬ ArithmeticFits (records quotedFields) (Randomness.fixed 0) .comment (~~~ 1) := by
  have sums : (generateDynamicMessage (records quotedFields) (Randomness.fixed 0) .comment
      (~~~ 1) 0).log = [2 ^ 64, 1] := rfl
  refine ⟨sums, fun fits => ?_⟩
  have small := fits.sums (2 ^ 64) (by rw [sums]; exact List.mem_cons_self)
  exact absurd small (by decide)

end SpecMock.Runtime.Grpc
