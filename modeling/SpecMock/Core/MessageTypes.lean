import SpecMock.Core.Json

/-!
# Typed documents

A message type names the fields that a JSON document of the type may have, and
what their values may be.  Fields can be messages again, so types may refer to
each other and to themselves; documents are finite.
-/

namespace SpecMock.Core

open SpecMock.Library

/-- What the value of a field may be. -/
inductive FieldKind (D : Type) where
  /-- A document of a message type. -/
  | message (descriptor : D)
  /-- Any value that passes a test. -/
  | plain (admits : Value → Bool)

/-- The message types of a schema. -/
structure MessageTypes (D : Type) where
  fieldOf : D → String → Option (FieldKind D)
  /-- Members of these names may stand in one document. -/
  together : D → List String → Bool
  /-- Documents of the type that are no objects. -/
  bare : D → Value → Bool

namespace MessageTypes

variable {D : Type} (types : MessageTypes D)

mutual

/-- The value is one that a field of the kind may have. -/
def fits : Value → FieldKind D → Bool
  | value, .plain admits => admits value
  | .object members, .message descriptor =>
      types.together descriptor (members.map Prod.fst) && fitsMembers descriptor members
  | value, .message descriptor => types.bare descriptor value

/-- All members are fields of the type with values of the field's kind. -/
def fitsMembers (descriptor : D) : List (String × Value) → Bool
  | [] => true
  | (name, value) :: rest =>
      (match types.fieldOf descriptor name with
      | none => false
      | some kind => fits value kind) && fitsMembers descriptor rest

end

/-- The member is a field of the type with a value of the field's kind. -/
def fitsMember (descriptor : D) (name : String) (value : Value) : Bool :=
  match types.fieldOf descriptor name with
  | none => false
  | some kind => types.fits value kind

theorem fitsMembers_iff {descriptor : D} {members : List (String × Value)} :
    types.fitsMembers descriptor members = true ↔
      ∀ member ∈ members, types.fitsMember descriptor member.1 member.2 = true := by
  induction members with
  | nil => simp [fitsMembers]
  | cons member rest ih =>
      rw [fitsMembers, Bool.and_eq_true, ih, List.forall_mem_cons]
      rfl

/-- Beside members that fit, a member that is written fits or not on its own. -/
theorem fitsMembers_insert {descriptor : D} {members : List (String × Value)}
    (fit : types.fitsMembers descriptor members = true) (name : String) (value : Value) :
    types.fitsMembers descriptor (SortedEntries.insert name value members) =
      types.fitsMember descriptor name value := by
  rw [Bool.eq_iff_iff, fitsMembers_iff]
  rw [fitsMembers_iff] at fit
  constructor
  · intro all
    exact all (name, value) (SortedEntries.self_mem_insert name value members)
  · intro written member inside
    rcases SortedEntries.mem_insert inside with rfl | before
    · exact written
    · exact fit member before

end MessageTypes

end SpecMock.Core
