import SpecMock.Runtime.StoreActions

/-!
# Store actions that can be addressed

Validation wants one of the two sources of an identifier of every keyed action.
The actions do not all consult both: a create reads its identifier from a
message only.  A create that names a path parameter alone is accepted, and no
request can address it.
-/

namespace SpecMock.Runtime

open SpecMock.Library SpecMock.Core

/-- Some request and response name the resource that the action is about. -/
def Addressable (spec : StoreSpec) : Prop :=
  ∃ (params : PathParams) (request : Option Value) (response : Value),
    (storeKeyOf spec params request response).isSome = true

/-- A source of an identifier is declared that the action consults. -/
def ConsultsSource (spec : StoreSpec) : Prop :=
  match spec.action with
  | .list => True
  | .create => spec.keyFrom ≠ none
  | .read | .update | .delete => spec.key ≠ none ∨ spec.keyFrom ≠ none

/-- Every pointer leads to an identifier in some document. -/
theorem exists_pointerValue (pointer : String) :
    ∃ document, (pointerValue document pointer).isSome = true := by
  by_cases whole : pointer = ""
  · exact ⟨.string "", by rw [whole]; rfl⟩
  · refine ⟨alignIdentifier .null pointer "", ?_⟩
    rw [pointerValue_alignIdentifier .null "" whole]
    rfl

/-- A declared message field yields an identifier from some exchange. -/
theorem exists_createKey {spec : StoreSpec} (declared : spec.keyFrom ≠ none) :
    ∃ request response, (resolveCreateKey spec request response).isSome = true := by
  obtain ⟨source, named⟩ := Option.ne_none_iff_exists'.mp declared
  obtain ⟨document, found⟩ := exists_pointerValue source.pointer
  refine ⟨some document, document, ?_⟩
  unfold resolveCreateKey
  rw [named]
  cases located : source.location with
  | request => simpa only [located] using found
  | response => simpa only [located] using found

/-- A declared path parameter or message field yields an identifier from some exchange. -/
theorem exists_key {spec : StoreSpec} (declared : spec.key ≠ none ∨ spec.keyFrom ≠ none) :
    ∃ params request response, (resolveKey spec params request response).isSome = true := by
  rcases declared with parameter | field
  · obtain ⟨name, named⟩ := Option.ne_none_iff_exists'.mp parameter
    have bound : ((∅ : PathParams).insert (keyParameter name) "").lookup (keyParameter name) =
        some "" := AList.lookup_insert _
    refine ⟨(∅ : PathParams).insert (keyParameter name) "", none, .null, ?_⟩
    rw [resolveKey, named, Option.bind_some, bound]
    rfl
  · obtain ⟨request, response, found⟩ := exists_createKey field
    have declared : spec.keyFrom.isSome = true := Option.isSome_iff_ne_none.mpr field
    refine ⟨∅, request, response, ?_⟩
    unfold resolveKey
    rw [if_pos declared]
    cases spec.key <;> exact found

/-- An action finds no identifier where the sources it consults are not declared. -/
theorem resolveKey_undeclared {spec : StoreSpec} (parameter : spec.key = none)
    (field : spec.keyFrom = none) (params : PathParams) (request : Option Value)
    (response : Value) : resolveKey spec params request response = none := by
  simp [resolveKey, parameter, field]

theorem addressable_iff {spec : StoreSpec} (keyed : spec.action ≠ .list) :
    Addressable spec ↔ ConsultsSource spec := by
  have named (action : spec.action = .read ∨ spec.action = .update ∨ spec.action = .delete) :
      Addressable spec ↔ spec.key ≠ none ∨ spec.keyFrom ≠ none := by
    simp only [Addressable, storeKeyOf_of_keyed action, Option.isSome_map]
    constructor
    · rintro ⟨params, request, response, found⟩
      by_contra undeclared
      obtain ⟨parameter, field⟩ := not_or.mp undeclared
      rw [resolveKey_undeclared (not_not.mp parameter) (not_not.mp field)] at found
      cases found
    · exact exists_key
  unfold ConsultsSource
  cases action : spec.action with
  | list => exact absurd action keyed
  | create =>
      simp only [Addressable, storeKeyOf_of_create action, Option.isSome_map]
      constructor
      · rintro ⟨_, request, response, found⟩ undeclared
        simp [resolveCreateKey, undeclared] at found
      · intro declared
        exact ⟨∅, exists_createKey declared⟩
  | read => exact named (.inl action)
  | update => exact named (.inr (.inl action))
  | delete => exact named (.inr (.inr action))

/-- Validation asks for a source that the action consults, unless the action is a create. -/
theorem consultsSource_iff {entry : OperationEntry} (wellFormed : entry.WellFormed)
    {spec : StoreSpec} (declared : entry.store = some spec) (keyed : spec.action ≠ .list) :
    ConsultsSource spec ↔ (spec.action = .create → spec.keyFrom ≠ none) := by
  have sources := wellFormed.keyed declared keyed
  unfold ConsultsSource
  cases action : spec.action with
  | list => exact absurd action keyed
  | create => simp
  | read => simpa using sources
  | update => simpa using sources
  | delete => simpa using sources

/--
All keyed actions of an accepted sidecar can be addressed if and only if each
of its creates declares the message field its identifier comes from.  An action
that cannot be addressed answers every request that the resource was not found.
-/
theorem actions_addressable_iff (validated : ValidatedSidecar) :
    ((∀ name entry spec, (name, entry) ∈ validated.sidecar.operations.entries →
        entry.store = some spec → spec.action ≠ .list → Addressable spec) ↔
      ∀ name entry spec, (name, entry) ∈ validated.sidecar.operations.entries →
        entry.store = some spec → spec.action = .create → spec.keyFrom ≠ none) ∧
    ∀ spec : StoreSpec, spec.action ≠ .list → ¬ Addressable spec →
      ∀ store params request response createValue,
        applyStore store spec params request response createValue =
          (store, .error (.resourceNotFound (bindNamespace spec.resource params))) := by
  have wellFormed := validated.wellFormed
  refine ⟨⟨?_, ?_⟩, ?_⟩
  · intro addressable name entry spec member declared creating
    have keyed : spec.action ≠ .list := by simp [creating]
    have consulted :=
      (addressable_iff keyed).mp (addressable name entry spec member declared keyed)
    exact (consultsSource_iff (wellFormed.operations member) declared keyed).mp consulted creating
  · intro sourced name entry spec member declared keyed
    refine (addressable_iff keyed).mpr ?_
    exact (consultsSource_iff (wellFormed.operations member) declared keyed).mpr
      (sourced name entry spec member declared)
  · intro spec keyed unaddressed store params request response createValue
    refine applyStore_of_unaddressed keyed ?_ store createValue
    cases addressed : storeKeyOf spec params request response with
    | none => rfl
    | some key => exact absurd ⟨params, request, response, by rw [addressed]; rfl⟩ unaddressed

/-- A create that names its identifier by a path parameter only. -/
def createByParameter : StoreSpec := ⟨"/users", .create, some "id", none⟩

def parameterSidecar : ValidatedSidecar where
  sidecar :=
    { version := 1
      operations := OrderedMap.collect
        [("putUser", ⟨⟨"PUT", "/users/\x7bid\x7d"⟩, some createByParameter, ∅⟩)]
      scenarios := [⟨"signUp", "open", [], OrderedMap.collect
        [("open", OrderedMap.collect [("putUser", ⟨none, ∅⟩)])]⟩] }
  supported := rfl
  valid := by decide

/-- The sidecar is accepted, and no request can address the create it declares. -/
theorem parameter_create_unaddressable :
    (∃ name entry, (name, entry) ∈ parameterSidecar.sidecar.operations.entries ∧
      entry.store = some createByParameter) ∧ ¬ Addressable createByParameter := by
  refine ⟨⟨"putUser", ⟨⟨"PUT", "/users/\x7bid\x7d"⟩, some createByParameter, ∅⟩, ?_, rfl⟩, ?_⟩
  · decide
  · intro addressable
    exact (addressable_iff (by decide)).mp addressable rfl

end SpecMock.Runtime
