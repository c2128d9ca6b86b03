import SpecMock.Core.RefMeaning

/-!
# Inlining before unfolding

The resolver does not unfold the target of a reference and its siblings apart.
A node of the same document is inlined as it stands, siblings merged in, and
the whole is walked again; a node of a file is resolved in its file, and what
comes out is walked again among the siblings, in the referring document.
Neither changes what the reference unfolds to.
-/

namespace SpecMock.Core

open SpecMock.Library

/-- A value without a member `$ref` at any depth. -/
inductive Value.Settled : Value → Prop where
  | scalar {value : Value} (plain : value.IsScalar) : Settled value
  | array {items : List Value} (each : ∀ item ∈ items, Settled item) : Settled (.array items)
  | object {members : List (String × Value)} (plain : members.lookup "$ref" = none)
      (each : ∀ member ∈ members, Settled member.2) : Settled (.object members)

variable {Path : Type} {files : Files Path} {allowedRoots : List Path} {hops : Nat}
  {rootDoc value result : Value} {base : Path}

theorem settled_mergeSiblings {target : Value} {added : List (String × Value)}
    (settled : target.Settled) (noRef : added.lookup "$ref" = none)
    (each : ∀ key value, added.lookup key = some value → target.Lacks key → value.Settled) :
    (mergeSiblings target added).Settled := by
  cases settled with
  | scalar plain =>
      rw [mergeSiblings_of_not_object]
      · exact .scalar plain
      · rintro members rfl
        cases plain
  | array items => exact .array items
  | @object members plain inside =>
      refine .object ?_ fun entry member => ?_
      · rw [SortedEntries.lookup_addMissing, plain, noRef]
        rfl
      · rcases SortedEntries.mem_of_mem_addMissing member with held | ⟨missing, found⟩
        · exact inside entry held
        · exact each entry.1 entry.2 found ⟨members, rfl, missing⟩

/-- No reference is left in an unfolding. -/
theorem Unfolds.settled (unfolds : Unfolds files allowedRoots hops rootDoc base value result) :
    result.Settled := by
  induction unfolds with
  | scalar plain => exact .scalar plain
  | array meaning _ ih =>
      refine .array fun item member => ?_
      obtain ⟨original, inside, rfl⟩ := List.mem_map.mp member
      exact ih original inside
  | object meaning plain _ ih =>
      refine .object ?_ fun member inside => ?_
      · rw [SortedEntries.lookup_mapValues, plain]
        rfl
      · obtain ⟨original, there, rfl⟩ := List.mem_map.mp inside
        exact ih original there
  | reference meaning _ _ _ _ ih others =>
      refine settled_mergeSiblings ih ?_ ?_
      · rw [SortedEntries.lookup_mapValues, lookup_siblings_ref]
        rfl
      · intro key value found lacks
        rw [SortedEntries.lookup_mapValues, Option.map_eq_some_iff] at found
        obtain ⟨sibling, listed, rfl⟩ := found
        exact others key sibling listed lacks

/-- A settled value unfolds to itself, in any document. -/
theorem Value.Settled.unfolds (settled : value.Settled) (hops : Nat) :
    Unfolds files allowedRoots hops rootDoc base value value := by
  induction settled with
  | scalar plain => exact .scalar plain
  | @array items _ ih =>
      have whole : Unfolds files allowedRoots hops rootDoc base (.array items)
          (.array (items.map fun item => item)) := .array _ ih
      rwa [List.map_id'] at whole
  | @object members plain _ ih =>
      have whole : Unfolds files allowedRoots hops rootDoc base (.object members)
          (.object (SortedEntries.mapValues (fun value => value) members)) := .object _ plain ih
      have same : SortedEntries.mapValues (fun value => value) members = members :=
        List.map_id' members
      rwa [same] at whole

theorem Value.Settled.meaning_eq (settled : value.Settled) :
    meaningOf files allowedRoots rootDoc base value = value :=
  (settled.unfolds 0).meaning_eq

/-- A value that is no object has no room for siblings. -/
theorem siblingsUnfold_of_not_object {target : Value} (other : ∀ members, target ≠ .object members)
    (added : List (String × Value)) :
    SiblingsUnfold files allowedRoots hops rootDoc base target added :=
  fun _ _ _ lacks => absurd lacks (not_lacks_of_not_object other)

theorem withSiblings_of_not_object {target : Value} (other : ∀ members, target ≠ .object members)
    (added : List (String × Value)) :
    withSiblings files allowedRoots rootDoc base target added = target :=
  mergeSiblings_of_not_object other _

/-- What was resolved in its file is left as it is when it is walked among the siblings. -/
theorem unfolds_merged_settled {target : Value} (settled : target.Settled)
    (added : List (String × Value)) :
    Unfolds files allowedRoots hops rootDoc base (mergeSiblings target (siblings added)) result ↔
      result = withSiblings files allowedRoots rootDoc base target (siblings added) ∧
        SiblingsUnfold files allowedRoots hops rootDoc base target (siblings added) := by
  by_cases other : ∀ members, target ≠ .object members
  · rw [mergeSiblings_of_not_object other, withSiblings_of_not_object other]
    constructor
    · exact fun unfolds =>
        ⟨unfolds.unique (settled.unfolds hops), siblingsUnfold_of_not_object other _⟩
    · rintro ⟨rfl, _⟩
      exact settled.unfolds hops
  · obtain ⟨members, rfl⟩ := not_forall_not.mp other
    cases settled with
    | scalar plain => cases plain
    | object plain each =>
        have merged : (SortedEntries.addMissing members (siblings added)).lookup "$ref" = none := by
          rw [lookup_merged_ref, plain]
        have kept : SortedEntries.mapValues (meaningOf files allowedRoots rootDoc base) members =
            members := by
          refine (List.map_congr_left fun member inside => ?_).trans (List.map_id' members)
          rw [(each member inside).meaning_eq]
        change Unfolds _ _ _ _ _ (.object (SortedEntries.addMissing members (siblings added))) _ ↔ _
        rw [unfolds_object_iff merged, ← SortedEntries.addMissing_mapValues, kept]
        refine and_congr_right fun _ => ?_
        constructor
        · rintro unfold key sibling found ⟨_, ⟨⟩, missing⟩
          apply unfold (key, sibling)
          apply SortedEntries.mem_of_lookup
          rw [SortedEntries.lookup_addMissing, missing, found]
          rfl
        · intro unfold member inside
          rcases SortedEntries.mem_of_mem_addMissing inside with held | ⟨missing, found⟩
          · rw [(each member held).meaning_eq]
            exact (each member held).unfolds hops
          · exact unfold member.1 member.2 found ⟨members, rfl, missing⟩

section SameDocument

variable {node target : Value} {added : List (String × Value)}

/-- The parts of an inlined object without a reference are its own and the siblings it lacks. -/
theorem unfolds_merged_plain {members : List (String × Value)}
    (plain : members.lookup "$ref" = none) :
    Unfolds files allowedRoots hops rootDoc base
        (mergeSiblings (.object members) (siblings added)) result ↔
      ∃ target, Unfolds files allowedRoots hops rootDoc base (.object members) target ∧
        result = withSiblings files allowedRoots rootDoc base target (siblings added) ∧
        SiblingsUnfold files allowedRoots hops rootDoc base target (siblings added) := by
  have merged : (SortedEntries.addMissing members (siblings added)).lookup "$ref" = none := by
    rw [lookup_merged_ref, plain]
  have lacks : ∀ key, (Value.object (SortedEntries.mapValues
      (meaningOf files allowedRoots rootDoc base) members)).Lacks key ↔
      members.lookup key = none := by
    intro key
    simp only [Value.Lacks, Value.object.injEq, exists_eq_left', SortedEntries.lookup_mapValues,
      Option.map_eq_none_iff]
  change Unfolds _ _ _ _ _ (.object (SortedEntries.addMissing members (siblings added))) _ ↔ _
  simp only [unfolds_object_iff merged, unfolds_object_iff plain]
  constructor
  · rintro ⟨rfl, each⟩
    refine ⟨_, ⟨rfl, fun member inside =>
      each member (SortedEntries.mem_addMissing_of_mem inside)⟩, ?_, ?_⟩
    · exact congrArg Value.object (SortedEntries.addMissing_mapValues _ _ _).symm
    · intro key sibling found missing
      apply each (key, sibling)
      apply SortedEntries.mem_of_lookup
      rw [SortedEntries.lookup_addMissing, (lacks key).mp missing, found]
      rfl
  · rintro ⟨target, ⟨rfl, each⟩, rfl, unfold⟩
    refine ⟨congrArg Value.object (SortedEntries.addMissing_mapValues _ _ _), ?_⟩
    intro member inside
    rcases SortedEntries.mem_of_mem_addMissing inside with held | ⟨missing, found⟩
    · exact each member held
    · exact unfold member.1 member.2 found ((lacks member.1).mpr missing)

/-- The siblings of an inlined reference are its own and the ones merged in. -/
theorem siblingsUnfold_merged {members : List (String × Value)} :
    SiblingsUnfold files allowedRoots hops rootDoc base target
        (siblings (SortedEntries.addMissing members (siblings added))) ↔
      SiblingsUnfold files allowedRoots hops rootDoc base target (siblings members) ∧
        SiblingsUnfold files allowedRoots hops rootDoc base
          (withSiblings files allowedRoots rootDoc base target (siblings members))
          (siblings added) := by
  have lacks : ∀ key, (withSiblings files allowedRoots rootDoc base target
      (siblings members)).Lacks key ↔
      target.Lacks key ∧ (siblings members).lookup key = none := by
    intro key
    rw [withSiblings, lacks_mergeSiblings, SortedEntries.lookup_mapValues, Option.map_eq_none_iff]
  constructor
  · intro unfold
    refine ⟨fun key sibling found missing => ?_, fun key sibling found missing => ?_⟩
    · exact unfold key sibling (by rw [lookup_siblings_merged, found]; rfl) missing
    · obtain ⟨missed, absent⟩ := (lacks key).mp missing
      exact unfold key sibling (by rw [lookup_siblings_merged, absent, found]; rfl) missed
  · rintro ⟨own, others⟩ key sibling found missing
    rw [lookup_siblings_merged] at found
    cases held : (siblings members).lookup key with
    | some value =>
        rw [held, Option.some_or] at found
        exact own key sibling (found ▸ held) missing
    | none =>
        rw [held, Option.none_or] at found
        exact others key sibling found ((lacks key).mpr ⟨missing, held⟩)

/-- An inlined reference unfolds to what the reference does, with the siblings added. -/
theorem unfolds_merged_reference {members : List (String × Value)} {reference : Value}
    (written : members.lookup "$ref" = some reference) :
    Unfolds files allowedRoots hops rootDoc base
        (mergeSiblings (.object members) (siblings added)) result ↔
      ∃ target, Unfolds files allowedRoots hops rootDoc base (.object members) target ∧
        result = withSiblings files allowedRoots rootDoc base target (siblings added) ∧
        SiblingsUnfold files allowedRoots hops rootDoc base target (siblings added) := by
  have merged : (SortedEntries.addMissing members (siblings added)).lookup "$ref" =
      some reference := by
    rw [lookup_merged_ref, written]
  change Unfolds _ _ _ _ _ (.object (SortedEntries.addMissing members (siblings added))) _ ↔ _
  constructor
  · intro unfolds
    obtain ⟨text, less, document, directory, node, rfl, rfl, names⟩ :=
      unfolds.names_of_written merged
    obtain ⟨target, unfolded, rfl, unfold⟩ := (unfolds_reference_iff merged names).mp unfolds
    obtain ⟨own, others⟩ := siblingsUnfold_merged.mp unfold
    refine ⟨_, (unfolds_reference_iff written names).mpr ⟨target, unfolded, rfl, own⟩, ?_, others⟩
    exact mergeSiblings_merged _ _ _ _
  · rintro ⟨whole, unfolds, rfl, others⟩
    obtain ⟨text, less, document, directory, node, rfl, rfl, names⟩ :=
      unfolds.names_of_written written
    obtain ⟨target, unfolded, rfl, own⟩ := (unfolds_reference_iff written names).mp unfolds
    refine (unfolds_reference_iff merged names).mpr
      ⟨target, unfolded, ?_, siblingsUnfold_merged.mpr ⟨own, others⟩⟩
    exact (mergeSiblings_merged _ _ _ _).symm

/-- Inlining a node with siblings merged in is unfolding the node and adding the siblings. -/
theorem unfolds_merged (node : Value) :
    Unfolds files allowedRoots hops rootDoc base (mergeSiblings node (siblings added)) result ↔
      ∃ target, Unfolds files allowedRoots hops rootDoc base node target ∧
        result = withSiblings files allowedRoots rootDoc base target (siblings added) ∧
        SiblingsUnfold files allowedRoots hops rootDoc base target (siblings added) := by
  by_cases other : ∀ members, node ≠ .object members
  · have away : ∀ {target}, Unfolds files allowedRoots hops rootDoc base node target →
        ∀ members, target ≠ .object members := by
      rintro target unfolds members rfl
      obtain ⟨inner, rfl⟩ := unfolds.exists_object
      exact other inner rfl
    rw [mergeSiblings_of_not_object other]
    constructor
    · intro unfolds
      exact ⟨result, unfolds, (withSiblings_of_not_object (away unfolds) _).symm,
        siblingsUnfold_of_not_object (away unfolds) _⟩
    · rintro ⟨target, unfolds, rfl, _⟩
      rw [withSiblings_of_not_object (away unfolds)]
      exact unfolds
  · obtain ⟨members, rfl⟩ := not_forall_not.mp other
    cases written : members.lookup "$ref" with
    | none => exact unfolds_merged_plain written
    | some reference => exact unfolds_merged_reference written

/-- Inlining the node of a reference in the same document does not change the unfolding. -/
theorem unfolds_of_inlined {members : List (String × Value)} {reference : String}
    (written : members.lookup "$ref" = some (.string reference))
    (names : Names files allowedRoots rootDoc base reference rootDoc base node)
    (unfolds : Unfolds files allowedRoots hops rootDoc base
      (mergeSiblings node (siblings members)) result) :
    Unfolds files allowedRoots (hops + 1) rootDoc base (.object members) result := by
  obtain ⟨target, unfolded, rfl, unfold⟩ := (unfolds_merged node).mp unfolds
  exact (unfolds_reference_iff written names).mpr
    ⟨target, unfolded, rfl, unfold.mono (Nat.le_succ hops)⟩

theorem inlined_of_unfolds {members : List (String × Value)} {reference : String}
    (written : members.lookup "$ref" = some (.string reference))
    (names : Names files allowedRoots rootDoc base reference rootDoc base node)
    (unfolds : Unfolds files allowedRoots hops rootDoc base (.object members) result) :
    Unfolds files allowedRoots hops rootDoc base (mergeSiblings node (siblings members))
      result := by
  cases hops with
  | zero =>
      obtain ⟨_, less, _, _, _, _, impossible, _⟩ := unfolds.names_of_written written
      cases impossible
  | succ less =>
      obtain ⟨target, unfolded, rfl, unfold⟩ := (unfolds_reference_iff written names).mp unfolds
      exact (unfolds_merged node).mpr ⟨target, unfolded.mono (Nat.le_succ less), rfl, unfold⟩

end SameDocument

end SpecMock.Core
