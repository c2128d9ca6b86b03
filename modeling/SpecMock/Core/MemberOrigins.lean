import SpecMock.Core.LawfulDraws
import SpecMock.Core.Compositions

/-!
# Origins of members

The members of a generated object come from the schemas of its properties and
from the one for additional properties.  The names of additional members are
fixed, and one of them replaces what a property of its name has generated.
-/

namespace SpecMock.Core

open SpecMock.Library Drawing

/-- The schema that a member is generated for. -/
inductive Origin where
  | property (schema : Value)
  | additional
  deriving DecidableEq

structure Member where
  origin : Origin
  value : Value

/-- The names that a schema declares. -/
def declaredNames (schema : Value) : List String := (declaredProperties schema).map Prod.fst

/-- Members of declared names are those of their properties, additional members have other names. -/
structure KeepsOrigins (schema : Value) (members : List (String × Member)) : Prop where
  declared : ∀ name propertySchema member, (name, propertySchema) ∈ declaredProperties schema →
    members.lookup name = some member → member.origin = .property propertySchema
  additional : ∀ name member, members.lookup name = some member → member.origin = .additional →
    name ∉ declaredNames schema

namespace Faker

section Trace

variable {ρ φ : Type} (random : Randomness ρ φ) (generate : Value → Generator ρ Value)

/-- The generator of the schema makes the value from some stream. -/
def Makes (schema value : Value) : Prop :=
  ∃ stream next, generate schema stream = .ok (value, next)

/-- A member has a value of its origin. -/
def OfOrigin (schema : Value) (member : Member) : Prop :=
  match member.origin with
  | .property propertySchema => Makes generate propertySchema member.value
  | .additional =>
      schema.get "additionalProperties" = some (.bool true) ∧
          member.value = .string "mock-extra" ∨
        ∃ additional, schema.get "additionalProperties" = some additional ∧
          Makes generate additional member.value

def traceProperties (required : List String) (properties : List (String × Value)) :
    Generator ρ (List (String × Member)) :=
  properties.foldlM (fun object property => do
    let included ← if property.1 ∈ required then pure true else randomBool random 35
    if included then
      let value ← generate property.2
      return SortedEntries.insert property.1 ⟨.property property.2, value⟩ object
    else return object) []

def traceExtras (additional : Value) :
    List Nat → List (String × Member) → Generator ρ (List (String × Member))
  | [], object => return object
  | index :: rest, object => do
      let value ← generate additional
      traceExtras additional rest
        (SortedEntries.insert ("extra_" ++ toString index) ⟨.additional, value⟩ object)

def traceObject (schema : Value) : Generator ρ (List (String × Member)) := do
  let object ← traceProperties random generate (requiredSet schema) (declaredProperties schema)
  match schema.get "additionalProperties" with
  | some (.bool true) =>
      return SortedEntries.insert "extra_0" ⟨.additional, .string "mock-extra"⟩ object
  | some (.object members) =>
      let count ← randomRange random 1 2
      traceExtras generate (.object members) (List.range count.toNat) object
  | _ => return object

/-- The members without their origins. -/
def values (members : List (String × Member)) : List (String × Value) :=
  SortedEntries.mapValues Member.value members

variable {random generate}

theorem values_insert (name : String) (member : Member) (members : List (String × Member)) :
    values (SortedEntries.insert name member members) =
      SortedEntries.insert name member.value (values members) :=
  SortedEntries.mapValues_insert Member.value name member members

theorem generateProperties_eq_values (required : List String)
    (properties : List (String × Value)) :
    generateProperties random generate required properties =
      values <$> traceProperties random generate required properties := by
  refine map_foldlM values ?_ []
  intro property _ object
  have taken : (do
        let value ← generate property.2
        return SortedEntries.insert property.1 value (values object)) =
      values <$> (do
        let value ← generate property.2
        return SortedEntries.insert property.1 ⟨.property property.2, value⟩ object) := by
    rw [map_bind]
    refine bind_congr fun value => ?_
    rw [map_pure, values_insert]
  exact map_optional values taken

theorem generateExtras_eq_values (additional : Value) (indices : List Nat)
    (object : List (String × Member)) :
    generateExtras generate additional indices (values object) =
      values <$> traceExtras generate additional indices object := by
  induction indices generalizing object with
  | nil => exact (map_pure _ _).symm
  | cons index rest ih =>
      rw [generateExtras, traceExtras, map_bind]
      refine bind_congr fun value => ?_
      rw [← ih, values_insert]

/-- The record changes nothing of what is generated. -/
theorem generateObject_eq_values (schema : Value) :
    generateObject random generate schema =
      (fun members => .object (values members)) <$> traceObject random generate schema := by
  unfold generateObject traceObject
  change (generateProperties random generate (requiredSet schema) (declaredProperties schema) >>=
    fun object => _) = _
  rw [generateProperties_eq_values, bind_map_left, map_bind]
  refine bind_congr fun object => ?_
  cases schema.get "additionalProperties" with
  | none => exact (map_pure _ _).symm
  | some additional =>
      cases additional with
      | bool allowed =>
          cases allowed with
          | false => exact (map_pure _ _).symm
          | true =>
              dsimp only
              rw [map_pure, values_insert]
      | object keywords =>
          dsimp only
          rw [map_bind]
          refine bind_congr fun count => ?_
          rw [generateExtras_eq_values, bind_map_left, bind_pure_comp]
      | null | number | string | array => exact (map_pure _ _).symm

theorem ensures_makes (schema : Value) :
    Ensures (generate schema) (fun value => Makes generate schema value) True := by
  intro stream
  cases run : generate schema stream with
  | error error => trivial
  | ok result => exact ⟨stream, result.2, run⟩

/-- Every member is generated from a property of its name. -/
def FromProperties (generate : Value → Generator ρ Value) (properties : List (String × Value))
    (object : List (String × Member)) : Prop :=
  ∀ name member, object.lookup name = some member →
    ∃ schema, (name, schema) ∈ properties ∧ member.origin = .property schema ∧
      Makes generate schema member.value

/-- A member is inserted after a further property has been looked at. -/
theorem FromProperties.insert {done : List (String × Value)} {object : List (String × Member)}
    (known : FromProperties generate done object) (name : String) {schema value : Value}
    (made : Makes generate schema value) :
    FromProperties generate (done ++ [(name, schema)])
      (SortedEntries.insert name ⟨.property schema, value⟩ object) := by
  intro query member found
  rw [SortedEntries.lookup_insert] at found
  split at found
  next same =>
    cases found
    exact ⟨schema, by simp [same], rfl, made⟩
  next =>
    obtain ⟨schema, listed, origin⟩ := known query member found
    exact ⟨schema, List.mem_append_left _ listed, origin⟩

theorem FromProperties.skip {done : List (String × Value)} {object : List (String × Member)}
    (known : FromProperties generate done object) (property : String × Value) :
    FromProperties generate (done ++ [property]) object := by
  intro query member found
  obtain ⟨schema, listed, origin⟩ := known query member found
  exact ⟨schema, List.mem_append_left _ listed, origin⟩

/-- The members come from the properties before any are added. -/
theorem ensures_traceProperties (required : List String) (properties : List (String × Value)) :
    Ensures (traceProperties random generate required properties)
      (FromProperties generate properties) True := by
  have none : FromProperties generate [] [] := by
    intro name member found
    cases found
  refine ensures_foldlM (FromProperties generate) none ?_
  rintro done ⟨key, schema⟩ left object - known
  have taken : Ensures (do
        let value ← generate schema
        return SortedEntries.insert key ⟨.property schema, value⟩ object)
      (FromProperties generate (done ++ [(key, schema)])) True :=
    (ensures_makes schema).bind fun value made => ensures_pure (known.insert key made)
  exact ensures_optional (ensures_randomBool 35) taken fun _ => known.skip (key, schema)

theorem fromProperties_of_run {required : List String} {properties : List (String × Value)}
    {object : List (String × Member)} {stream next : ρ}
    (run : traceProperties random generate required properties stream = .ok (object, next)) :
    FromProperties generate properties object := by
  have ensured : Ensures (traceProperties random generate required properties) _ True :=
    ensures_traceProperties required properties
  have ended := ensured stream
  rwa [run] at ended

/-- The name of an additional member. -/
def extraName (index : Nat) : String := "extra_" ++ toString index

/-- Additional members stand under their names, and the others are left as they are. -/
theorem lookup_traceExtras {additional : Value} {indices : List Nat}
    {object extended : List (String × Member)} {stream next : ρ}
    (run : traceExtras generate additional indices object stream = .ok (extended, next))
    (name : String) :
    (name ∈ indices.map extraName ∧ ∃ value, extended.lookup name = some ⟨.additional, value⟩ ∧
        Makes generate additional value) ∨
      (name ∉ indices.map extraName ∧ extended.lookup name = object.lookup name) := by
  induction indices generalizing object stream with
  | nil =>
      cases run
      exact .inr ⟨List.not_mem_nil, rfl⟩
  | cons index rest ih =>
      obtain ⟨value, middle, made, others⟩ := Drawing.bind_eq_ok.mp run
      rw [List.map_cons, List.mem_cons]
      rcases ih others with ⟨listed, found⟩ | ⟨absent, found⟩
      · exact .inl ⟨.inr listed, found⟩
      · rw [found, SortedEntries.lookup_insert]
        split
        next same => exact .inl ⟨.inl same, value, rfl, stream, middle, made⟩
        next differs => exact .inr ⟨not_or.mpr ⟨differs, absent⟩, rfl⟩

/-- The names of the additional members, given the stream that their number is drawn from. -/
def extraNames (random : Randomness ρ φ) (schema : Value) (stream : ρ) : List String :=
  match schema.get "additionalProperties" with
  | some (.bool true) => ["extra_0"]
  | some (.object _) => (List.range (random.randomRange 1 2 stream).1.toNat).map extraName
  | _ => []

/-- A member is an additional one of the schema, or what the properties have generated. -/
theorem lookup_traceObject {schema : Value} {members : List (String × Member)} {stream next : ρ}
    (run : traceObject random generate schema stream = .ok (members, next)) :
    ∃ object middle, traceProperties random generate (requiredSet schema)
        (declaredProperties schema) stream = .ok (object, middle) ∧
      ∀ name,
        (name ∈ extraNames random schema middle ∧ ∃ value,
            members.lookup name = some ⟨.additional, value⟩ ∧
              OfOrigin generate schema ⟨.additional, value⟩) ∨
          (name ∉ extraNames random schema middle ∧ members.lookup name = object.lookup name) := by
  obtain ⟨object, middle, begun, rest⟩ := Drawing.bind_eq_ok.mp run
  refine ⟨object, middle, begun, fun name => ?_⟩
  unfold extraNames OfOrigin
  cases given : schema.get "additionalProperties" with
  | none =>
      rw [given] at rest
      cases rest
      exact .inr ⟨List.not_mem_nil, rfl⟩
  | some additional =>
      rw [given] at rest
      cases additional with
      | bool allowed =>
          cases allowed with
          | false =>
              cases rest
              exact .inr ⟨List.not_mem_nil, rfl⟩
          | true =>
              cases rest
              rw [SortedEntries.lookup_insert]
              by_cases same : name = "extra_0"
              · rw [if_pos same]
                exact .inl ⟨List.mem_singleton.mpr same, _, rfl, .inl ⟨rfl, rfl⟩⟩
              · rw [if_neg same]
                exact .inr ⟨fun listed => same (List.mem_singleton.mp listed), rfl⟩
      | object keywords =>
          obtain ⟨count, last, drawn, extended⟩ := Drawing.bind_eq_ok.mp rest
          have same : random.randomRange 1 2 middle = (count, last) := Except.ok.inj drawn
          rw [same]
          rcases lookup_traceExtras extended name with ⟨listed, value, found, made⟩ | absent
          · exact .inl ⟨listed, value, found, .inr ⟨_, rfl, made⟩⟩
          · exact .inr absent
      | null | number | string | array =>
          cases rest
          exact .inr ⟨List.not_mem_nil, rfl⟩

/-- The stream draws two additional members for the object. -/
def DrawsTwo (random : Randomness ρ φ) (generate : Value → Generator ρ Value) (schema : Value)
    (stream : ρ) : Prop :=
  ∃ object middle, generateProperties random generate (requiredSet schema)
      (declaredProperties schema) stream = .ok (object, middle) ∧
    (random.randomRange 1 2 middle).1 = 2

/-- No property has the name of an additional member. -/
def ExtrasUndeclared (random : Randomness ρ φ) (generate : Value → Generator ρ Value)
    (schema : Value) (stream : ρ) : Prop :=
  match schema.get "additionalProperties" with
  | some (.bool true) => "extra_0" ∉ declaredNames schema
  | some (.object _) => "extra_0" ∉ declaredNames schema ∧
      (DrawsTwo random generate schema stream → "extra_1" ∉ declaredNames schema)
  | _ => True

theorem drawsTwo_iff {schema : Value} {stream middle : ρ} {object : List (String × Member)}
    (begun : traceProperties random generate (requiredSet schema) (declaredProperties schema)
      stream = .ok (object, middle)) :
    DrawsTwo random generate schema stream ↔ (random.randomRange 1 2 middle).1 = 2 := by
  have properties : generateProperties random generate (requiredSet schema)
      (declaredProperties schema) stream = .ok (values object, middle) := by
    rw [generateProperties_eq_values]
    exact map_eq_ok.mpr ⟨object, begun, rfl⟩
  constructor
  · rintro ⟨_, _, again, drawn⟩
    rw [properties] at again
    cases again
    exact drawn
  · exact fun drawn => ⟨_, _, properties, drawn⟩

/-- Those are the names that the stream leads to. -/
theorem extrasUndeclared_iff (lawful : random.Lawful) {schema : Value} {stream middle : ρ}
    {object : List (String × Member)}
    (begun : traceProperties random generate (requiredSet schema) (declaredProperties schema)
      stream = .ok (object, middle)) :
    ExtrasUndeclared random generate schema stream ↔
      ∀ name ∈ extraNames random schema middle, name ∉ declaredNames schema := by
  unfold ExtrasUndeclared extraNames
  rw [drawsTwo_iff begun]
  cases schema.get "additionalProperties" with
  | none => simp
  | some additional =>
      cases additional with
      | bool allowed => cases allowed <;> simp
      | object keywords =>
          obtain ⟨above, below⟩ := lawful 1 2 middle (by decide)
          have drawn : (random.randomRange 1 2 middle).1 = 1 ∨
              (random.randomRange 1 2 middle).1 = 2 := by omega
          have one : (List.range (1 : Int).toNat).map extraName = ["extra_0"] := by decide
          have two : (List.range (2 : Int).toNat).map extraName = ["extra_0", "extra_1"] := by
            decide
          dsimp only
          rcases drawn with drawn | drawn
          · rw [drawn, one]
            simp
          · rw [drawn, two]
            simp
      | null | number | string | array => simp

/-- The origins are kept if no additional member has a declared name, and only then. -/
theorem keepsOrigins_iff {schema : Value} (distinct : (declaredNames schema).Nodup)
    {members object : List (String × Member)} {extras : List String}
    (known : FromProperties generate (declaredProperties schema) object)
    (split : ∀ name,
      (name ∈ extras ∧ ∃ value, members.lookup name = some ⟨.additional, value⟩) ∨
        (name ∉ extras ∧ members.lookup name = object.lookup name)) :
    KeepsOrigins schema members ↔ ∀ name ∈ extras, name ∉ declaredNames schema := by
  constructor
  · intro kept name listed
    rcases split name with ⟨-, value, found⟩ | ⟨absent, -⟩
    · exact kept.additional name _ found rfl
    · exact absurd listed absent
  · intro undeclared
    constructor
    · intro name propertySchema member declared found
      rcases split name with ⟨listed, -⟩ | ⟨-, same⟩
      · exact absurd (List.mem_map_of_mem declared) (undeclared name listed)
      · obtain ⟨schema, listed, origin, -⟩ := known name member (same ▸ found)
        have own := SortedEntries.lookup_of_mem distinct declared
        have other := SortedEntries.lookup_of_mem distinct listed
        rw [own] at other
        cases other
        exact origin
    · intro name member found additional
      rcases split name with ⟨listed, -⟩ | ⟨-, same⟩
      · exact undeclared name listed
      · obtain ⟨schema, -, origin, -⟩ := known name member (same ▸ found)
        rw [additional] at origin
        cases origin

/--
Every object that is generated has members of known origins.  The ones of
declared names are those of their properties, and the additional ones have other
names, if no property is named like an additional member of the run.
-/
theorem origins_kept_iff (lawful : random.Lawful) {schema : Value}
    (distinct : (declaredNames schema).Nodup) {remaining : Nat} {stream next : ρ} {value : Value}
    (run : generateObject random (generateWithRng random remaining) schema stream =
      .ok (value, next)) :
    ∃ members, value = .object (values members) ∧
      traceObject random (generateWithRng random remaining) schema stream = .ok (members, next) ∧
      (∀ name member, members.lookup name = some member →
        OfOrigin (generateWithRng random remaining) schema member) ∧
      (KeepsOrigins schema members ↔
        ExtrasUndeclared random (generateWithRng random remaining) schema stream) := by
  rw [generateObject_eq_values] at run
  obtain ⟨members, traced, rfl⟩ := map_eq_ok.mp run
  obtain ⟨object, middle, begun, split⟩ := lookup_traceObject traced
  have known := fromProperties_of_run begun
  refine ⟨members, rfl, traced, ?_, ?_⟩
  · intro name member found
    rcases split name with ⟨-, value, held, origin⟩ | ⟨-, same⟩
    · rw [held] at found
      cases found
      exact origin
    · obtain ⟨schema, -, origin, made⟩ := known name member (same ▸ found)
      unfold OfOrigin
      rw [origin]
      exact made
  · rw [extrasUndeclared_iff lawful begun]
    exact keepsOrigins_iff distinct known fun name =>
      (split name).imp_left fun ⟨listed, value, found, _⟩ => ⟨listed, value, found⟩

end Trace

/-- A person with a name, and further members that are integers. -/
def openPerson : Value := .object [("additionalProperties", .object [("type", .string "integer")]),
  ("properties", .object [("name", .object [("type", .string "null")])]),
  ("required", .array [.string "name"]), ("type", .string "object")]

theorem openPerson_keeps : ∃ members,
    traceObject (Randomness.fixed 2) (generateWithRng (Randomness.fixed 2) 1) openPerson () =
      .ok (members, ()) ∧ KeepsOrigins openPerson members := by
  have run : generateObject (Randomness.fixed 2) (generateWithRng (Randomness.fixed 2) 1)
      openPerson () = .ok (.object [("extra_0", .number (.int 2)), ("extra_1", .number (.int 2)),
        ("name", .null)], ()) := rfl
  obtain ⟨members, -, traced, -, kept⟩ :=
    origins_kept_iff (Randomness.fixed_lawful 2) (by decide) run
  exact ⟨members, traced, kept.mpr ⟨by decide, fun _ => by decide⟩⟩

/-- A property that is called like an additional member. -/
def extraProperty : Value := .object [("additionalProperties", .bool true),
  ("properties", .object [("extra_0", .object [("type", .string "null")])]),
  ("required", .array [.string "extra_0"]), ("type", .string "object")]

/-- The value of a required property is replaced by one that its schema never generates. -/
theorem extraProperty_replaced :
    generateObject (Randomness.fixed 0) (generateWithRng (Randomness.fixed 0) 1) extraProperty () =
        .ok (.object [("extra_0", .string "mock-extra")], ()) ∧
      (∃ members, traceObject (Randomness.fixed 0) (generateWithRng (Randomness.fixed 0) 1)
        extraProperty () = .ok (members, ()) ∧ ¬ KeepsOrigins extraProperty members) ∧
      ¬ Makes (generateWithRng (Randomness.fixed 0) 1) (.object [("type", .string "null")])
        (.string "mock-extra") := by
  refine ⟨rfl, ⟨[("extra_0", ⟨.additional, .string "mock-extra"⟩)], rfl, ?_⟩, ?_⟩
  · intro kept
    exact kept.additional "extra_0" _ rfl rfl (by decide)
  · rintro ⟨stream, next, made⟩
    cases made

end Faker

end SpecMock.Core
