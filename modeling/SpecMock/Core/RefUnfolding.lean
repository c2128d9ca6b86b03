import SpecMock.Core.RefCache
import SpecMock.Core.RefInlining

/-!
# Resolution is unfolding

Whatever the resolver returns is the unfolding of the document it started from.
The induction is on the budget; at a reference the inlined value unfolds, by
the hypothesis, to what the reference does.
-/

namespace SpecMock.Core

open SpecMock.Library

variable {Path σ : Type} {files : Files Path} {allowedRoots : List Path} {maxDepth : Nat}
  {fetch : Path → Attempt String σ Value}

/--
What a reference is resolved to: a node of the same document as it stands, or a
node of a file that was walked there with the given outcome.
-/
inductive Inlines (files : Files Path) (allowedRoots : List Path)
    (walked : Value → Path → Value → Value → Prop) (rootDoc : Value) (base : Path)
    (reference : String) : Value → Prop where
  | inDocument {node : Value} (here : (splitRef reference).1 = "")
      (names : Names files allowedRoots rootDoc base reference rootDoc base node) :
      Inlines files allowedRoots walked rootDoc base reference node
  | inFile {document node resolved : Value} {directory : Path}
      (elsewhere : (splitRef reference).1 ≠ "")
      (names : Names files allowedRoots rootDoc base reference document directory node)
      (inside : walked document directory node resolved) :
      Inlines files allowedRoots walked rootDoc base reference resolved

theorem ensures_resolveRef {walked : Value → Path → Value → Value → Prop}
    (loads : ∀ canonical, Attempt.Ensures
      (fun document => loadFile files canonical = .ok document) (fetch canonical))
    {walk : Value → Path → Value → Attempt String σ Value}
    (inside : ∀ rootDoc base value, Attempt.Ensures (walked rootDoc base value)
      (walk rootDoc base value))
    (reference : String) (rootDoc : Value) (base : Path) :
    Attempt.Ensures (Inlines files allowedRoots walked rootDoc base reference)
      (resolveRef files allowedRoots fetch walk reference rootDoc base) := by
  unfold resolveRef
  split
  · exact Attempt.ensures_fail _
  next noUrl =>
    have noUrl : isUrl reference = false := by simpa using noUrl
    dsimp only
    split
    next here =>
      refine Attempt.ensures_demand _ fun node addressed => .inDocument here ?_
      exact .inDocument noUrl (Prod.ext here rfl) addressed
    next elsewhere =>
      split
      · exact Attempt.ensures_fail _
      next canonical located =>
        split
        next permitted =>
          refine (loads canonical).bind fun document loaded => ?_
          refine Attempt.Ensures.bind (Attempt.ensures_demand _ fun node addressed => addressed)
            fun node addressed => ?_
          intro state resolved last succeeded
          refine .inFile elsewhere ?_ (inside _ _ _ state resolved last succeeded)
          exact .inFile noUrl rfl elsewhere located permitted loaded addressed
        · exact Attempt.ensures_fail _

/-- What is walked again after inlining unfolds to what the reference does. -/
theorem unfolds_of_inlines {hops : Nat} {rootDoc resolved result : Value} {base : Path}
    {members : List (String × Value)} {reference : String}
    (written : members.lookup "$ref" = some (.string reference))
    (inlines : Inlines files allowedRoots (Unfolds files allowedRoots hops) rootDoc base reference
      resolved)
    (unfolds : Unfolds files allowedRoots hops rootDoc base
      (mergeSiblings resolved (siblings members)) result) :
    Unfolds files allowedRoots (hops + 1) rootDoc base (.object members) result := by
  cases inlines with
  | inDocument _ names => exact unfolds_of_inlined written names unfolds
  | inFile _ names unfolded =>
      obtain ⟨rfl, unfold⟩ := (unfolds_merged_settled unfolded.settled members).mp unfolds
      exact (unfolds_reference_iff written names).mpr
        ⟨resolved, unfolded, rfl, unfold.mono (Nat.le_succ hops)⟩

/-- The member keeps its name, and its value becomes a related one. -/
structure KeptMember (becomes : Value → Value → Prop) (member result : String × Value) : Prop where
  name : result.1 = member.1
  value : becomes member.2 result.2

/-- Resolving the values of members keeps their names. -/
theorem ensures_members (becomes : Value → Value → Prop) {work : Value → Attempt String σ Value}
    (each : ∀ value, Attempt.Ensures (becomes value) (work value))
    (members : List (String × Value)) :
    Attempt.Ensures (List.Forall₂ (KeptMember becomes) members)
      (Attempt.each (fun member => do
        let child ← work member.2
        pure (member.1, child)) members) := by
  refine Attempt.ensures_each _ members fun member => ?_
  exact (each member.2).bind fun child holds => Attempt.ensures_pure ⟨rfl, holds⟩

/-- The parts of an array or an object, put together. -/
theorem unfolds_of_each {hops : Nat} {rootDoc : Value} {base : Path} {items results : List Value}
    (each : List.Forall₂ (Unfolds files allowedRoots hops rootDoc base) items results) :
    Unfolds files allowedRoots hops rootDoc base (.array items) (.array results) := by
  rw [unfolds_array_iff]
  induction each with
  | nil => simp
  | cons first _ ih =>
      obtain ⟨same, others⟩ := ih
      rw [Value.array.injEq] at same
      rw [List.map_cons, first.meaning_eq, ← same]
      refine ⟨rfl, List.forall_mem_cons.mpr ⟨?_, others⟩⟩
      rw [first.meaning_eq]
      exact first

theorem unfolds_of_members {hops : Nat} {rootDoc : Value} {base : Path}
    {members results : List (String × Value)} (plain : members.lookup "$ref" = none)
    (each : List.Forall₂ (KeptMember (Unfolds files allowedRoots hops rootDoc base)) members
      results) :
    Unfolds files allowedRoots hops rootDoc base (.object members) (.object results) := by
  rw [unfolds_object_iff plain]
  clear plain
  induction each with
  | nil => simp [SortedEntries.mapValues]
  | @cons member result _ _ first _ ih =>
      obtain ⟨same, others⟩ := ih
      obtain ⟨key, unfolds⟩ := first
      rw [Value.object.injEq] at same
      refine ⟨?_, List.forall_mem_cons.mpr ⟨?_, others⟩⟩
      · rw [same, Value.object.injEq]
        exact List.cons_eq_cons.mpr ⟨Prod.ext key unfolds.meaning_eq.symm, rfl⟩
      · rw [unfolds.meaning_eq]
        exact unfolds

section Walk

variable (files allowedRoots maxDepth fetch)

/--
What holds of every value and what a walk with the given budget makes of it,
by the kinds of values.  What a reference is resolved to has a property of its
own before it is walked again.
-/
structure WalkInvariant (holds : Nat → Value → Path → Value → Value → Prop)
    (inlined : Nat → Value → Path → String → Value → Prop) : Prop where
  refers : ∀ budget,
    (∀ rootDoc base value, Attempt.Ensures (holds budget rootDoc base value)
      (resolveValue files allowedRoots maxDepth fetch budget rootDoc base value)) →
    ∀ reference rootDoc base, Attempt.Ensures (inlined budget rootDoc base reference)
      (resolveRef files allowedRoots fetch
        (resolveValue files allowedRoots maxDepth fetch budget) reference rootDoc base)
  scalar : ∀ {budget rootDoc base value}, Value.IsScalar value →
    holds (budget + 1) rootDoc base value value
  array : ∀ {budget rootDoc base items results},
    List.Forall₂ (holds budget rootDoc base) items results →
      holds (budget + 1) rootDoc base (.array items) (.array results)
  object : ∀ {budget rootDoc base members results}, members.lookup "$ref" = none →
    List.Forall₂ (KeptMember (holds budget rootDoc base)) members results →
      holds (budget + 1) rootDoc base (.object members) (.object results)
  reference : ∀ {budget rootDoc base members reference resolved result},
    members.lookup "$ref" = some (.string reference) →
    inlined budget rootDoc base reference resolved →
    holds budget rootDoc base (mergeSiblings resolved (siblings members)) result →
      holds (budget + 1) rootDoc base (.object members) result

variable {files allowedRoots maxDepth fetch}

theorem WalkInvariant.ensures {holds : Nat → Value → Path → Value → Value → Prop}
    {inlined : Nat → Value → Path → String → Value → Prop}
    (invariant : WalkInvariant files allowedRoots maxDepth fetch holds inlined)
    (budget : Nat) (rootDoc : Value) (base : Path) (value : Value) :
    Attempt.Ensures (holds budget rootDoc base value)
      (resolveValue files allowedRoots maxDepth fetch budget rootDoc base value) := by
  induction budget generalizing rootDoc base value with
  | zero => exact Attempt.ensures_fail _
  | succ budget ih =>
      cases value with
      | object members =>
          unfold resolveValue
          split
          next reference written =>
            refine (invariant.refers budget ih reference rootDoc base).bind
              fun resolved inlines => ?_
            intro state result last succeeded
            exact invariant.reference written inlines (ih _ _ _ state result last succeeded)
          · exact Attempt.ensures_fail _
          next plain =>
            refine (ensures_members _ (ih rootDoc base) members).bind fun results each => ?_
            exact Attempt.ensures_pure (invariant.object plain each)
      | array items =>
          unfold resolveValue
          refine (Attempt.ensures_each _ items (ih rootDoc base)).bind fun results each => ?_
          exact Attempt.ensures_pure (invariant.array each)
      | null | bool | number | string => exact Attempt.ensures_pure (invariant.scalar trivial)

end Walk

/-- A walk that fetches what the files hold returns the unfolding. -/
theorem ensures_resolveValue
    (loads : ∀ canonical, Attempt.Ensures
      (fun document => loadFile files canonical = .ok document) (fetch canonical))
    (budget : Nat) (rootDoc : Value) (base : Path) (value : Value) :
    Attempt.Ensures (Unfolds files allowedRoots budget rootDoc base value)
      (resolveValue files allowedRoots maxDepth fetch budget rootDoc base value) := by
  have invariant : WalkInvariant files allowedRoots maxDepth fetch
      (Unfolds files allowedRoots)
      (fun budget => Inlines files allowedRoots (Unfolds files allowedRoots budget)) := by
    constructor
    case refers => exact fun budget inside => ensures_resolveRef loads inside
    case scalar => exact fun plain => .scalar plain
    case array => exact fun each => (unfolds_of_each each).mono (Nat.le_succ _)
    case object => exact fun plain each => (unfolds_of_members plain each).mono (Nat.le_succ _)
    case reference => exact fun written inlines again => unfolds_of_inlines written inlines again
  exact invariant.ensures budget rootDoc base value

theorem ensures_fixedDocument (canonical : Path) :
    Attempt.Ensures (fun document => loadFile files canonical = .ok document)
      (fixedDocument files canonical) := by
  unfold fixedDocument
  cases loaded : loadFile files canonical with
  | error error => exact Attempt.ensures_fail _
  | ok document => exact Attempt.ensures_pure rfl

namespace RefResolver

/-- The result is the one unfolding of the document that a request starts from. -/
def IsUnfolding (files : Files Path) (resolver : RefResolver Path) (request : Request Path)
    (result : Value) : Prop :=
  ∃ rootDoc base, resolver.start files request = .ok (rootDoc, base) ∧
    ∀ value, (∃ hops, Unfolds files resolver.allowedRoots hops rootDoc base rootDoc value) ↔
      value = result

variable {resolver : RefResolver Path} {request : Request Path} {result : Value}

theorem isUnfolding_of_answerFixed (resolved : resolver.answerFixed files request = .ok result) :
    resolver.IsUnfolding files request result := by
  obtain ⟨rootDoc, base, started, resolved⟩ := start_of_resolveFrom resolved
  have unfolds : Unfolds files resolver.allowedRoots (resolver.maxDepth + 1) rootDoc base
      rootDoc result :=
    ensures_resolveValue ensures_fixedDocument _ _ _ _ () result _ (Prod.ext resolved rfl)
  refine ⟨rootDoc, base, started, fun value => ?_⟩
  constructor
  · rintro ⟨hops, other⟩
    exact other.unique unfolds
  · rintro rfl
    exact ⟨_, unfolds⟩

theorem isUnfolding_of_answer (faithful : files.KeysFaithful) (resolver : RefResolver Path)
    (earlier : List (Request Path)) (request : Request Path) {result : Value}
    (resolved : ((resolver.fresh.after files earlier).answer files request).2 = .ok result) :
    resolver.IsUnfolding files request result := by
  rw [answer_after faithful] at resolved
  exact isUnfolding_of_answerFixed resolved

end RefResolver

/--
Where loading a file is a fixed function, an answer is the one unfolding of the
document that the request starts from, and so it is through the cache, whatever
the resolver was used for before, if the keys of the cache tell documents apart.
-/
theorem resolution_unfolds (files : Files Path) (resolver : RefResolver Path)
    (request : RefResolver.Request Path) (result : Value) :
    (resolver.answerFixed files request = .ok result →
      resolver.IsUnfolding files request result) ∧
    (files.KeysFaithful → ∀ earlier,
      ((resolver.fresh.after files earlier).answer files request).2 = .ok result →
        resolver.IsUnfolding files request result) :=
  ⟨RefResolver.isUnfolding_of_answerFixed,
    fun faithful earlier => RefResolver.isUnfolding_of_answer faithful resolver earlier request⟩

/-- A reference into a file, with one sibling that the file overrides and one that it lacks. -/
def petReference : Value :=
  .object [("owner", .object [("$ref", .string "owner.json"), ("age", .number (.int 7)),
    ("name", .string "Bob")])]

def petResolved : Value :=
  .object [("owner", .object [("age", .number (.int 7)), ("name", .string "Ada"),
    ("pet", .string "cat")])]

theorem resolution_unfolds_pets :
    (RefResolver.new petFiles "/d").IsUnfolding petFiles (.resolveValueTree petReference)
      petResolved := by
  have unfolds := resolution_unfolds petFiles (RefResolver.new petFiles "/d")
    (.resolveValueTree petReference) petResolved
  exact unfolds.2 (keysFaithful_directoryOf _) [] (by decide)

end SpecMock.Core
