import SpecMock.Core.RefUnfolding

/-!
# Resolving twice

No reference is left in a resolved document, and resolving it once more changes
nothing.  The resolved document may be larger than the original, but where a
part of it came about the walk had at least the depth left that the part takes.
-/

namespace SpecMock.Core

open SpecMock.Library

/-- A value without references that a walk can go through on its budget. -/
inductive Value.Fits : Nat → Value → Prop where
  | scalar {budget : Nat} {value : Value} (plain : value.IsScalar) : Fits (budget + 1) value
  | array {budget : Nat} {items : List Value} (each : ∀ item ∈ items, Fits budget item) :
      Fits (budget + 1) (.array items)
  | object {budget : Nat} {members : List (String × Value)}
      (plain : members.lookup "$ref" = none) (each : ∀ member ∈ members, Fits budget member.2) :
      Fits (budget + 1) (.object members)

namespace Value.Fits

theorem settled {budget : Nat} {value : Value} (fits : Fits budget value) : value.Settled := by
  induction fits with
  | scalar plain => exact .scalar plain
  | array _ ih => exact .array ih
  | object plain _ ih => exact .object plain ih

theorem mono {budget more : Nat} {value : Value} (fits : Fits budget value)
    (within : budget ≤ more) : Fits more value := by
  induction fits generalizing more with
  | scalar plain =>
      cases more with
      | zero => cases within
      | succ more => exact .scalar plain
  | array _ ih =>
      cases more with
      | zero => cases within
      | succ more =>
          exact .array fun item member => ih item member (Nat.le_of_succ_le_succ within)
  | object plain _ ih =>
      cases more with
      | zero => cases within
      | succ more =>
          exact .object plain fun member inside =>
            ih member inside (Nat.le_of_succ_le_succ within)

end Value.Fits

variable {Path σ : Type} {files : Files Path} {allowedRoots : List Path} {maxDepth : Nat}
  {fetch : Path → Attempt String σ Value}

/-- Whatever the documents and the cache are, a value that fits is left as it is. -/
theorem resolveValue_of_fits {budget : Nat} {value : Value} (fits : value.Fits budget)
    (rootDoc : Value) (base : Path) (state : σ) :
    resolveValue files allowedRoots maxDepth fetch budget rootDoc base value state =
      (.ok value, state) := by
  induction fits generalizing state with
  | @scalar _ value plain =>
      cases value with
      | array | object => cases plain
      | null | bool | number | string => rfl
  | @array budget items _ ih =>
      have each := Attempt.each_of_idle (fun item => item) ih state
      rw [List.map_id'] at each
      exact Attempt.bind_ok.mpr ⟨_, _, each, rfl⟩
  | @object budget members plain _ ih =>
      have idle : ∀ member ∈ members, ∀ state, (do
          let child ← resolveValue files allowedRoots maxDepth fetch budget rootDoc base member.2
          pure (member.1, child) : Attempt String σ (String × Value)) state =
            (.ok member, state) :=
        fun member inside state => Attempt.bind_ok.mpr ⟨_, _, ih member inside state, rfl⟩
      have each := Attempt.each_of_idle (fun member => member) idle state
      rw [List.map_id'] at each
      unfold resolveValue
      rw [plain]
      exact Attempt.bind_ok.mpr ⟨_, _, each, rfl⟩

/-- Members that keep their names do not come to have a reference. -/
theorem lookup_of_keptMembers {becomes : Value → Value → Prop}
    {members results : List (String × Value)} {key : String}
    (each : List.Forall₂ (KeptMember becomes) members results)
    (missing : members.lookup key = none) : results.lookup key = none := by
  induction each with
  | nil => exact missing
  | cons kept _ ih =>
      rw [SortedEntries.lookup_cons_eq] at missing ⊢
      rw [kept.name]
      split at missing
      · cases missing
      next differs =>
        rw [if_neg differs]
        exact ih missing

/-- A walk returns a value that it could go through again. -/
theorem ensures_fits (budget : Nat) (rootDoc : Value) (base : Path) (value : Value) :
    Attempt.Ensures (Value.Fits budget)
      (resolveValue files allowedRoots maxDepth fetch budget rootDoc base value) := by
  have invariant : WalkInvariant files allowedRoots maxDepth fetch
      (fun budget _ _ _ => Value.Fits budget) (fun _ _ _ _ _ => True) := by
    constructor
    case refers => exact fun _ _ _ _ _ _ _ _ _ => trivial
    case scalar => exact fun plain => .scalar plain
    case array =>
      intro budget rootDoc base items results each
      refine .array fun result inside => ?_
      obtain ⟨_, _, fits⟩ := exists_of_mem_right each inside
      exact fits
    case object =>
      intro budget rootDoc base members results plain each
      refine .object (lookup_of_keptMembers each plain) fun result inside => ?_
      obtain ⟨_, _, kept⟩ := exists_of_mem_right each inside
      exact kept.value
    case reference =>
      intro budget rootDoc base members reference resolved result _ _ fits
      exact fits.mono (Nat.le_succ budget)
  exact invariant.ensures budget rootDoc base value

/--
A resolved document has no reference at any depth, and any resolver with the
same maximum depth, whatever its files and its cache, returns it unchanged.
-/
theorem resolution_idempotent (files : Files Path) (resolver : RefResolver Path)
    (request : RefResolver.Request Path) {result : Value}
    (resolved : (resolver.answer files request).2 = .ok result) :
    result.Settled ∧ ∀ {Other : Type} (others : Files Other) (again : RefResolver Other),
      again.maxDepth = resolver.maxDepth →
        (again.answer others (.resolveValueTree result)).2 = .ok result := by
  have fits : result.Fits (resolver.maxDepth + 1) := by
    obtain ⟨rootDoc, base, _, resolved⟩ := RefResolver.start_of_resolveFrom resolved
    exact ensures_fits _ _ _ _ _ result _ (Prod.ext resolved rfl)
  refine ⟨fits.settled, fun others again same => ?_⟩
  rw [← same] at fits
  exact congrArg Prod.fst (resolveValue_of_fits fits result again.baseDir again.toExternalDocs)

theorem resolution_idempotent_pets :
    petResolved.Settled ∧
      ∀ {Other : Type} (others : Files Other) (again : RefResolver Other), again.maxDepth = 64 →
        (again.answer others (.resolveValueTree petResolved)).2 = .ok petResolved :=
  resolution_idempotent petFiles (RefResolver.new petFiles "/d")
    (.resolveValueTree petReference) (by decide)

end SpecMock.Core
