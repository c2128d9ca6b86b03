import SpecMock.Library.MergedEntries
import SpecMock.Runtime.Addressing

/-!
# Identifiers written at a path

Writing an identifier at a pointer makes an object of every node on the way and
keeps the other members of the objects that were there.  What is written is
read back, a later write at the same pointer is the only one that counts, and
no path that parts from the written one leads to anything new.
-/

namespace SpecMock.Runtime

open SpecMock.Library SpecMock.Core

/-- The paths part at a key: neither is a part of the way of the other. -/
def Parts (path other : List String) : Prop := ¬ path <+: other ∧ ¬ other <+: path

instance (path other : List String) : Decidable (Parts path other) :=
  inferInstanceAs (Decidable (_ ∧ _))

theorem not_parts_nil (path : List String) : ¬ Parts path [] := fun parts => parts.2 List.nil_prefix

theorem not_nil_parts (path : List String) : ¬ Parts [] path := fun parts => parts.1 List.nil_prefix

theorem parts_cons_self {segment : String} {path other : List String} :
    Parts (segment :: path) (segment :: other) ↔ Parts path other := by
  simp [Parts, List.cons_prefix_cons]

theorem follow_cons (value : Value) (segment : String) (path : List String) :
    follow value (segment :: path) =
      ((members value).lookup segment).bind fun child => follow child path := by
  cases value with
  | object entries =>
      simp only [follow, Value.get, members]
      cases entries.lookup segment <;> rfl
  | null | bool | number | string | array => rfl

/-- A write overwrites a member of the object, which keeps all others. -/
theorem exists_alignAt_cons (identifier : String) (value : Value) (segment : String)
    (path : List String) :
    ∃ child, alignAt identifier value (segment :: path) =
      .object (SortedEntries.insert segment child (members value)) := by
  cases path with
  | nil => exact ⟨_, rfl⟩
  | cons next rest => exact ⟨_, rfl⟩

theorem alignAt_cons_cons (identifier : String) (value : Value) (segment next : String)
    (path : List String) :
    alignAt identifier value (segment :: next :: path) =
      .object (SortedEntries.insert segment
        (alignAt identifier (((members value).lookup segment).getD (.object [])) (next :: path))
        (members value)) := rfl

/-- What a path leads to that parts from the written one is not changed. -/
theorem follow_alignAt_of_parts (identifier : String) {path other : List String}
    (parts : Parts path other) (value : Value) :
    follow (alignAt identifier value path) other = follow value other := by
  induction path generalizing value other with
  | nil => exact absurd parts (not_nil_parts other)
  | cons segment rest ih =>
      cases other with
      | nil => exact absurd parts (not_parts_nil _)
      | cons key others =>
          by_cases same : key = segment
          · subst same
            have deeper := parts_cons_self.mp parts
            obtain ⟨next, more, rfl⟩ : ∃ next more, rest = next :: more :=
              List.exists_cons_of_ne_nil fun empty => not_nil_parts others (empty ▸ deeper)
            obtain ⟨first, further, rfl⟩ : ∃ first further, others = first :: further :=
              List.exists_cons_of_ne_nil fun empty => not_parts_nil _ (empty ▸ deeper)
            rw [alignAt_cons_cons, follow_cons, follow_cons value, members,
              SortedEntries.lookup_insert_self, Option.bind_some, ih deeper]
            -- A missing child is an empty object, where the path leads nowhere.
            cases (members value).lookup key <;> rfl
          · obtain ⟨child, written⟩ := exists_alignAt_cons identifier value segment rest
            rw [written, follow_cons, follow_cons value, members, SortedEntries.lookup_insert,
              if_neg same]

/-- Only the last write at a path counts. -/
theorem alignAt_alignAt (identifier other : String) (value : Value) (path : List String) :
    alignAt other (alignAt identifier value path) path = alignAt other value path := by
  induction path generalizing value with
  | nil => rfl
  | cons segment rest ih =>
      cases rest with
      | nil => simp only [alignAt, members, SortedEntries.insert_insert]
      | cons next more =>
          simp only [alignAt_cons_cons, members, SortedEntries.lookup_insert_self, Option.getD_some,
            SortedEntries.insert_insert, ih]

theorem alignIdentifier_eq_alignAt {pointer : String} (rooted : pointer ≠ "") (value : Value)
    (identifier : String) :
    alignIdentifier value pointer identifier = alignAt identifier value (pointerSegments pointer) :=
  if_neg rooted

/--
A written identifier is read back, what paths lead to that part from the pointer
is unchanged, and a later write at the pointer is the only one that counts.
-/
theorem alignIdentifier_lawful {pointer : String} (rooted : pointer ≠ "") (value : Value)
    (identifier : String) :
    pointerValue (alignIdentifier value pointer identifier) pointer = some identifier ∧
    (∀ path, Parts (pointerSegments pointer) path →
      follow (alignIdentifier value pointer identifier) path = follow value path) ∧
    alignIdentifier (alignIdentifier value pointer identifier) pointer identifier =
      alignIdentifier value pointer identifier ∧
    ∀ other, alignIdentifier (alignIdentifier value pointer identifier) pointer other =
      alignIdentifier value pointer other := by
  have last : ∀ other, alignIdentifier (alignIdentifier value pointer identifier) pointer other =
      alignIdentifier value pointer other := by
    intro other
    simp only [alignIdentifier_eq_alignAt rooted, alignAt_alignAt]
  refine ⟨pointerValue_alignIdentifier value identifier rooted, ?_, last identifier, last⟩
  intro path parts
  rw [alignIdentifier_eq_alignAt rooted]
  exact follow_alignAt_of_parts identifier parts value

/-- A number on the way makes room for an object, and its sibling stays. -/
theorem nestedIdentifier_aligned :
    let value := .object [("data", .number (.int 1)), ("ok", .object [("id", .null)])]
    let aligned := alignIdentifier value "/data/id" "7"
    follow aligned ["data", "id"] = some (.string "7") ∧
      pointerValue aligned "/data/id" = some "7" ∧ follow aligned ["ok", "id"] = some .null := by
  intro value aligned
  obtain ⟨read, kept, -⟩ := @alignIdentifier_lawful "/data/id" (by decide) value "7"
  exact ⟨by decide, read, kept ["ok", "id"] (by decide)⟩

end SpecMock.Runtime
