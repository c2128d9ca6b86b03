import SpecMock.Core.RefResolver

/-!
# What a document with references means

The unfolding of a document is given by rules: a reference stands for the
unfolding of the node it names, in the document that holds the node, with its
siblings added; everything else is unfolded member by member.  The unfolding is
unique, and inlining a node of the same document before unfolding it makes no
difference.
-/

namespace SpecMock.Core

open SpecMock.Library

/-- Neither an array nor an object. -/
def Value.IsScalar : Value → Prop
  | .array _ => False
  | .object _ => False
  | _ => True

/-- An object that has no member of the name. -/
def Value.Lacks (value : Value) (key : String) : Prop :=
  ∃ members, value = .object members ∧ members.lookup key = none

theorem not_lacks_of_not_object {target : Value} (other : ∀ members, target ≠ .object members)
    {key : String} : ¬ target.Lacks key := by
  rintro ⟨members, same, _⟩
  exact other members same

variable {Path : Type} (files : Files Path) (allowedRoots : List Path)

/--
The reference, in a document and relative to a directory, names a node: the
last three are the document of the node, the directory it is written in and the
node itself.
-/
inductive Names (rootDoc : Value) (base : Path) (reference : String) :
    Value → Path → Value → Prop where
  | inDocument {pointer : String} {node : Value}
      (noUrl : isUrl reference = false)
      (parts : splitRef reference = ("", pointer))
      (addressed : resolvePointer rootDoc pointer = some node) :
      Names rootDoc base reference rootDoc base node
  | inFile {filePart pointer : String} {canonical : Path} {document node : Value}
      (noUrl : isUrl reference = false)
      (parts : splitRef reference = (filePart, pointer))
      (elsewhere : filePart ≠ "")
      (located : files.canonicalize (files.join base filePart) = .ok canonical)
      (permitted : allowedRoots.any (files.startsWith canonical) = true)
      (loaded : loadFile files canonical = .ok document)
      (addressed : resolvePointer document pointer = some node) :
      Names rootDoc base reference document ((files.parent canonical).getD base) node

/--
The unfolding of a value of a document in a directory, on which no more than
the given number of references are nested in one another.  The function
`meaning` tells what the parts of the value unfold to.
-/
inductive Unfolds : Nat → Value → Path → Value → Value → Prop where
  | scalar {hops : Nat} {rootDoc : Value} {base : Path} {value : Value}
      (plain : value.IsScalar) : Unfolds hops rootDoc base value value
  | array {hops : Nat} {rootDoc : Value} {base : Path} {items : List Value}
      (meaning : Value → Value)
      (each : ∀ item ∈ items, Unfolds hops rootDoc base item (meaning item)) :
      Unfolds hops rootDoc base (.array items) (.array (items.map meaning))
  | object {hops : Nat} {rootDoc : Value} {base : Path} {members : List (String × Value)}
      (meaning : Value → Value)
      (plain : members.lookup "$ref" = none)
      (each : ∀ member ∈ members, Unfolds hops rootDoc base member.2 (meaning member.2)) :
      Unfolds hops rootDoc base (.object members)
        (.object (SortedEntries.mapValues meaning members))
  | reference {hops : Nat} {rootDoc document node target : Value} {base directory : Path}
      {members : List (String × Value)} {reference : String}
      (meaning : Value → Value)
      (written : members.lookup "$ref" = some (.string reference))
      (names : Names files allowedRoots rootDoc base reference document directory node)
      (unfolded : Unfolds hops document directory node target)
      -- A sibling counts where the target has no such member.
      (each : ∀ key sibling, (siblings members).lookup key = some sibling → target.Lacks key →
        Unfolds (hops + 1) rootDoc base sibling (meaning sibling)) :
      Unfolds (hops + 1) rootDoc base (.object members)
        (mergeSiblings target (SortedEntries.mapValues meaning (siblings members)))

variable {files allowedRoots}

theorem Names.unique {rootDoc document node document' node' : Value}
    {base directory directory' : Path} {reference : String}
    (first : Names files allowedRoots rootDoc base reference document directory node)
    (second : Names files allowedRoots rootDoc base reference document' directory' node') :
    document = document' ∧ directory = directory' ∧ node = node' := by
  cases first with
  | inDocument _ parts addressed =>
      cases second with
      | inDocument _ parts' addressed' =>
          rw [parts, Prod.mk.injEq] at parts'
          rw [← parts'.2, addressed] at addressed'
          exact ⟨rfl, rfl, Option.some.inj addressed'⟩
      | inFile _ parts' elsewhere =>
          rw [parts, Prod.mk.injEq] at parts'
          exact absurd parts'.1.symm elsewhere
  | inFile _ parts elsewhere located _ loaded addressed =>
      cases second with
      | inDocument _ parts' =>
          rw [parts, Prod.mk.injEq] at parts'
          exact absurd parts'.1 elsewhere
      | inFile _ parts' _ located' _ loaded' addressed' =>
          rw [parts, Prod.mk.injEq] at parts'
          rw [← parts'.1, located] at located'
          obtain rfl := Except.ok.inj located'
          rw [loaded] at loaded'
          obtain rfl := Except.ok.inj loaded'
          rw [← parts'.2, addressed] at addressed'
          exact ⟨rfl, rfl, Option.some.inj addressed'⟩

theorem mem_siblings {members : List (String × Value)} {member : String × Value}
    (inside : member ∈ siblings members) : member.1 ≠ "$ref" :=
  of_decide_eq_true (List.mem_filter.mp inside).2

theorem lookup_siblings {key : String} (other : key ≠ "$ref")
    (members : List (String × Value)) : (siblings members).lookup key = members.lookup key :=
  SortedEntries.lookup_filter (fun key => decide (key ≠ "$ref")) (decide_eq_true other)
    members

theorem lookup_siblings_ref (members : List (String × Value)) :
    (siblings members).lookup "$ref" = none := by
  rw [List.lookup_eq_none_iff]
  intro member inside
  simpa using Ne.symm (mem_siblings inside)

/-- Merging does not add a reference. -/
theorem lookup_merged_ref (members added : List (String × Value)) :
    (SortedEntries.addMissing members (siblings added)).lookup "$ref" =
      members.lookup "$ref" := by
  rw [SortedEntries.lookup_addMissing, lookup_siblings_ref, Option.or_none]

theorem mergeSiblings_of_not_object {target : Value} (other : ∀ members, target ≠ .object members)
    (added : List (String × Value)) : mergeSiblings target added = target := by
  cases target with
  | object members => exact absurd rfl (other members)
  | null | bool | number | string | array => rfl

/-- Only siblings that the target lacks matter. -/
theorem mergeSiblings_congr {meaning other : Value → Value} {target : Value}
    {added : List (String × Value)}
    (same : ∀ key sibling, added.lookup key = some sibling → target.Lacks key →
      meaning sibling = other sibling) :
    mergeSiblings target (SortedEntries.mapValues meaning added) =
      mergeSiblings target (SortedEntries.mapValues other added) := by
  by_cases other : ∀ members, target ≠ .object members
  · rw [mergeSiblings_of_not_object other, mergeSiblings_of_not_object other]
  · obtain ⟨members, rfl⟩ := not_forall_not.mp other
    refine congrArg Value.object (SortedEntries.addMissing_congr ?_)
    exact fun key sibling found missing => same key sibling found ⟨members, rfl, missing⟩

theorem Unfolds.unique {hops hops' : Nat} {rootDoc value result result' : Value} {base : Path}
    (first : Unfolds files allowedRoots hops rootDoc base value result)
    (second : Unfolds files allowedRoots hops' rootDoc base value result') :
    result = result' := by
  induction first generalizing hops' result' with
  | scalar plain =>
      cases second with
      | scalar => rfl
      | array => cases plain
      | object => cases plain
      | reference => cases plain
  | array meaning _ ih =>
      cases second with
      | scalar plain => cases plain
      | array meaning' each =>
          exact congrArg Value.array (List.map_congr_left fun item member =>
            ih item member (each item member))
  | object meaning plain _ ih =>
      cases second with
      | scalar plain => cases plain
      | object meaning' _ each =>
          exact congrArg Value.object (List.map_congr_left fun member inside =>
            congrArg (Prod.mk member.1) (ih member inside (each member inside)))
      | reference _ written => cases plain.symm.trans written
  | reference meaning written names _ _ ih others =>
      cases second with
      | scalar plain => cases plain
      | object _ plain => cases plain.symm.trans written
      | reference meaning' written' names' unfolded each =>
          cases written.symm.trans written'
          obtain ⟨rfl, rfl, rfl⟩ := names.unique names'
          obtain rfl := ih unfolded
          exact mergeSiblings_congr fun key sibling found lacks =>
            others key sibling found lacks (each key sibling found lacks)

/-- More references may be nested than are. -/
theorem Unfolds.mono {hops more : Nat} {rootDoc value result : Value} {base : Path}
    (unfolds : Unfolds files allowedRoots hops rootDoc base value result) (within : hops ≤ more) :
    Unfolds files allowedRoots more rootDoc base value result := by
  induction unfolds generalizing more with
  | scalar plain => exact .scalar plain
  | array meaning _ ih => exact .array meaning fun item member => ih item member within
  | object meaning plain _ ih =>
      exact .object meaning plain fun member inside => ih member inside within
  | reference meaning written names _ _ ih others =>
      cases more with
      | zero => cases within
      | succ more =>
          refine .reference meaning written names (ih (Nat.le_of_succ_le_succ within)) ?_
          exact fun key sibling found lacks => others key sibling found lacks within

section Meaning

variable (files allowedRoots)

open Classical in
/-- What a value unfolds to; a value without an unfolding stands for itself. -/
noncomputable def meaningOf (rootDoc : Value) (base : Path) (value : Value) : Value :=
  if unfolds : ∃ result hops, Unfolds files allowedRoots hops rootDoc base value result then
    unfolds.choose
  else value

end Meaning

section

variable {hops : Nat} {rootDoc value result : Value} {base : Path}

theorem Unfolds.meaning_eq (unfolds : Unfolds files allowedRoots hops rootDoc base value result) :
    meaningOf files allowedRoots rootDoc base value = result := by
  have exists_ : ∃ result hops, Unfolds files allowedRoots hops rootDoc base value result :=
    ⟨result, hops, unfolds⟩
  obtain ⟨hops', chosen⟩ := exists_.choose_spec
  rw [meaningOf, dif_pos exists_]
  exact chosen.unique unfolds

theorem unfolds_array_iff {items : List Value} :
    Unfolds files allowedRoots hops rootDoc base (.array items) result ↔
      result = .array (items.map (meaningOf files allowedRoots rootDoc base)) ∧
        ∀ item ∈ items, Unfolds files allowedRoots hops rootDoc base item
          (meaningOf files allowedRoots rootDoc base item) := by
  constructor
  · intro unfolds
    cases unfolds with
    | scalar plain => cases plain
    | array meaning each =>
        have same : ∀ item ∈ items,
            meaningOf files allowedRoots rootDoc base item = meaning item :=
          fun item member => (each item member).meaning_eq
        refine ⟨congrArg Value.array (List.map_congr_left fun item member =>
          (same item member).symm), fun item member => ?_⟩
        rw [same item member]
        exact each item member
  · rintro ⟨rfl, each⟩
    exact .array _ each

theorem unfolds_object_iff {members : List (String × Value)}
    (plain : members.lookup "$ref" = none) :
    Unfolds files allowedRoots hops rootDoc base (.object members) result ↔
      result = .object (SortedEntries.mapValues (meaningOf files allowedRoots rootDoc base)
          members) ∧
        ∀ member ∈ members, Unfolds files allowedRoots hops rootDoc base member.2
          (meaningOf files allowedRoots rootDoc base member.2) := by
  constructor
  · intro unfolds
    cases unfolds with
    | scalar plain => cases plain
    | object meaning _ each =>
        have same : ∀ member ∈ members,
            meaningOf files allowedRoots rootDoc base member.2 = meaning member.2 :=
          fun member inside => (each member inside).meaning_eq
        refine ⟨congrArg Value.object (List.map_congr_left fun member inside =>
          congrArg (Prod.mk member.1) (same member inside).symm), fun member inside => ?_⟩
        rw [same member inside]
        exact each member inside
    | reference _ written => cases plain.symm.trans written
  · rintro ⟨rfl, each⟩
    exact .object _ plain each

/-- The siblings that the target lacks have an unfolding of their own. -/
def SiblingsUnfold (files : Files Path) (allowedRoots : List Path) (hops : Nat)
    (rootDoc : Value) (base : Path) (target : Value) (added : List (String × Value)) : Prop :=
  ∀ key sibling, added.lookup key = some sibling → target.Lacks key →
    Unfolds files allowedRoots hops rootDoc base sibling
      (meaningOf files allowedRoots rootDoc base sibling)

/-- The unfolded target with the unfolded siblings. -/
noncomputable def withSiblings (files : Files Path) (allowedRoots : List Path) (rootDoc : Value)
    (base : Path) (target : Value) (added : List (String × Value)) : Value :=
  mergeSiblings target
    (SortedEntries.mapValues (meaningOf files allowedRoots rootDoc base) added)

theorem SiblingsUnfold.mono {more : Nat} {target : Value} {added : List (String × Value)}
    (unfold : SiblingsUnfold files allowedRoots hops rootDoc base target added)
    (within : hops ≤ more) :
    SiblingsUnfold files allowedRoots more rootDoc base target added :=
  fun key sibling found lacks => (unfold key sibling found lacks).mono within

theorem unfolds_reference_iff {members : List (String × Value)} {reference : String}
    {document node : Value} {directory : Path}
    (written : members.lookup "$ref" = some (.string reference))
    (names : Names files allowedRoots rootDoc base reference document directory node) :
    Unfolds files allowedRoots (hops + 1) rootDoc base (.object members) result ↔
      ∃ target, Unfolds files allowedRoots hops document directory node target ∧
        result = withSiblings files allowedRoots rootDoc base target (siblings members) ∧
        SiblingsUnfold files allowedRoots (hops + 1) rootDoc base target (siblings members) := by
  constructor
  · intro unfolds
    cases unfolds with
    | scalar plain => cases plain
    | object _ plain => cases plain.symm.trans written
    | @reference _ _ _ _ target _ _ _ _ meaning written' names' unfolded each =>
        cases written.symm.trans written'
        obtain ⟨rfl, rfl, rfl⟩ := names.unique names'
        refine ⟨target, unfolded, mergeSiblings_congr ?_, ?_⟩
        · exact fun key sibling found lacks => (each key sibling found lacks).meaning_eq.symm
        · intro key sibling found lacks
          have unfolds := each key sibling found lacks
          rw [unfolds.meaning_eq]
          exact unfolds
  · rintro ⟨target, unfolded, rfl, each⟩
    exact .reference _ written names unfolded each

/-- A reference is unfolded by the rule of references. -/
theorem Unfolds.names_of_written {members : List (String × Value)} {written : Value}
    (unfolds : Unfolds files allowedRoots hops rootDoc base (.object members) result)
    (holds : members.lookup "$ref" = some written) :
    ∃ reference less document directory node, written = .string reference ∧ hops = less + 1 ∧
      Names files allowedRoots rootDoc base reference document directory node := by
  cases unfolds with
  | scalar plain => cases plain
  | object _ plain => cases plain.symm.trans holds
  | reference _ written names =>
      cases holds.symm.trans written
      exact ⟨_, _, _, _, _, rfl, rfl, names⟩

/-- Only objects unfold to objects, or are references. -/
theorem Unfolds.exists_object {members : List (String × Value)}
    (unfolds : Unfolds files allowedRoots hops rootDoc base value (.object members)) :
    ∃ members, value = .object members := by
  generalize shape : Value.object members = result at unfolds
  cases unfolds with
  | scalar plain =>
      rw [← shape] at plain
      cases plain
  | array => cases shape
  | object => exact ⟨_, rfl⟩
  | reference => exact ⟨_, rfl⟩

end

theorem lacks_mergeSiblings {target : Value} {added : List (String × Value)} {key : String} :
    (mergeSiblings target added).Lacks key ↔ target.Lacks key ∧ added.lookup key = none := by
  by_cases other : ∀ members, target ≠ .object members
  · have never : ¬ target.Lacks key := not_lacks_of_not_object other
    rw [mergeSiblings_of_not_object other]
    exact ⟨fun lacks => absurd lacks never, And.left⟩
  · obtain ⟨members, rfl⟩ := not_forall_not.mp other
    simp only [Value.Lacks, mergeSiblings, Value.object.injEq, exists_eq_left',
      SortedEntries.lookup_addMissing, Option.or_eq_none_iff]

theorem lookup_siblings_merged {members added : List (String × Value)} {key : String} :
    (siblings (SortedEntries.addMissing members (siblings added))).lookup key =
      ((siblings members).lookup key).or ((siblings added).lookup key) := by
  by_cases same : key = "$ref"
  · simp [same, lookup_siblings_ref]
  · simp only [lookup_siblings same, SortedEntries.lookup_addMissing]

/-- Siblings of siblings are merged at once or one after the other. -/
theorem mergeSiblings_merged (change : Value → Value) (target : Value)
    (members added : List (String × Value)) :
    mergeSiblings target (SortedEntries.mapValues change
        (siblings (SortedEntries.addMissing members (siblings added)))) =
      mergeSiblings (mergeSiblings target (SortedEntries.mapValues change (siblings members)))
        (SortedEntries.mapValues change (siblings added)) := by
  have filtered : ∀ entries : List (String × Value),
      SortedEntries.mapValues change (siblings entries) =
        siblings (SortedEntries.mapValues change entries) := by
    intro entries
    unfold SortedEntries.mapValues siblings
    rw [List.filter_map]
    rfl
  by_cases other : ∀ members, target ≠ .object members
  · rw [mergeSiblings_of_not_object other, mergeSiblings_of_not_object other,
      mergeSiblings_of_not_object other]
  · obtain ⟨held, rfl⟩ := not_forall_not.mp other
    refine congrArg Value.object ?_
    rw [filtered, ← SortedEntries.addMissing_mapValues, filtered members]
    refine SortedEntries.addMissing_addMissing (fun key => decide (key ≠ "$ref")) _ _ ?_
    intro entry inside
    rw [filtered added] at inside
    exact decide_eq_true (mem_siblings inside)

end SpecMock.Core
