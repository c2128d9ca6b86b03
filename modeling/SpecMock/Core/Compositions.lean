import SpecMock.Core.GeneratedValues
import SpecMock.Library.MergedEntries

/-!
# Compositions

A composition is made of objects with properties and required names, which
`allOf`, `anyOf` or `oneOf` may combine.  An assembly tells how a value of one
came about: the nodes that it has to honour, with the variants that were
chosen, and what filled its names.
-/

namespace SpecMock.Core

open SpecMock.Library

/-- The schemas that `allOf` combines. -/
def partsOf (schema : Value) : Option (List Value) := (schema.get "allOf").bind Value.asArray

/-- Objects of properties, combined by at most one keyword. -/
inductive Composition : Value → Prop where
  | node (keywords : List (String × Value))
      (plain : PlainNode keywords ["type", "properties", "required", "allOf", "anyOf", "oneOf"])
      (distinct : ((declaredProperties (.object keywords)).map Prod.fst).Nodup)
      (single : keywords.lookup "oneOf" = none ∨ keywords.lookup "anyOf" = none)
      (apart : Faker.variantsOf (.object keywords) = none ∨ partsOf (.object keywords) = none)
      (listed : ∀ key ∈ ["allOf", "anyOf", "oneOf"], ∀ argument,
        keywords.lookup key = some argument → ∃ first rest, argument = .array (first :: rest))
      (objects : ∀ type, keywords.lookup "type" = some type → type = .string "object")
      (typed : Faker.variantsOf (.object keywords) = none → partsOf (.object keywords) = none →
        keywords.lookup "type" ≠ none)
      (properties : ∀ property ∈ declaredProperties (.object keywords), Composition property.2)
      (variants : ∀ variants, Faker.variantsOf (.object keywords) = some variants →
        ∀ variant ∈ variants, Composition variant)
      (parts : ∀ parts, partsOf (.object keywords) = some parts →
        ∀ part ∈ parts, Composition part) :
      Composition (.object keywords)

/-- A schema and the ones it combines, at any depth. -/
inductive Branch (schema : Value) : Value → Prop where
  | self : Branch schema schema
  | variant {node variant : Value} {variants : List Value} (branch : Branch schema node)
      (listed : Faker.variantsOf node = some variants) (member : variant ∈ variants) :
      Branch schema variant
  | part {node part : Value} {parts : List Value} (branch : Branch schema node)
      (listed : partsOf node = some parts) (member : part ∈ parts) : Branch schema part

theorem Branch.trans {schema middle node : Value} (first : Branch schema middle)
    (second : Branch middle node) : Branch schema node := by
  induction second with
  | self => exact first
  | variant _ listed member ih => exact ih.variant listed member
  | part _ listed member ih => exact ih.part listed member

/-- A branch declares a property of the name. -/
def Declares (schema : Value) (name : String) : Prop :=
  ∃ node, Branch schema node ∧ name ∈ (declaredProperties node).map Prod.fst

/-- Schemas that branches declare for one name have no property in common. -/
inductive Compatible : Value → Prop where
  | intro {schema : Value}
      (disjoint : ∀ node other, Branch schema node → Branch schema other →
        ∀ name first second, (name, first) ∈ declaredProperties node →
          (name, second) ∈ declaredProperties other → first ≠ second →
            ∀ inner, Declares first inner → ¬ Declares second inner)
      (deeper : ∀ node, Branch schema node → ∀ property ∈ declaredProperties node,
        Compatible property.2) : Compatible schema

/-- An object has all parts of a schema and those of one of its variants. -/
inductive Satisfies : Value → Value → Prop where
  | intro {schema : Value} {members : List (String × Value)} (chosen : Value)
      (required : ∀ name ∈ Faker.requiredSet schema, ∃ value, members.lookup name = some value)
      (properties : ∀ name value, members.lookup name = some value →
        ∀ declared, (name, declared) ∈ declaredProperties schema → Satisfies declared value)
      (parts : ∀ parts, partsOf schema = some parts →
        ∀ part ∈ parts, Satisfies part (.object members))
      (listed : ∀ variants, Faker.variantsOf schema = some variants → chosen ∈ variants)
      (variant : ∀ variants, Faker.variantsOf schema = some variants →
        Satisfies chosen (.object members)) : Satisfies schema (.object members)

namespace Composition

variable {schema : Value}

theorem distinct (composition : Composition schema) :
    ((declaredProperties schema).map Prod.fst).Nodup := by
  obtain ⟨_, -, distinct, -⟩ := composition
  exact distinct

theorem property (composition : Composition schema) {property : String × Value}
    (listed : property ∈ declaredProperties schema) : Composition property.2 := by
  obtain ⟨_, -, -, -, -, -, -, -, properties, -, -⟩ := composition
  exact properties property listed

theorem of_branch {node : Value} (composition : Composition schema)
    (branch : Branch schema node) : Composition node := by
  induction branch with
  | self => exact composition
  | variant _ listed member ih =>
      obtain ⟨_, -, -, -, -, -, -, -, -, variants, -⟩ := ih
      exact variants _ listed _ member
  | part _ listed member ih =>
      obtain ⟨_, -, -, -, -, -, -, -, -, -, parts⟩ := ih
      exact parts _ listed _ member

end Composition

/-- The nodes that an object has to honour, and what filled its names, the latest first. -/
inductive Assembly where
  | mk (nodes : List Value) (fills : List (String × Assembly))

namespace Assembly

def nodes : Assembly → List Value
  | mk nodes _ => nodes

def fills : Assembly → List (String × Assembly)
  | mk _ fills => fills

mutual

/-- The object that is assembled. -/
def value : Assembly → Value
  | mk _ fills => .object (members fills)
termination_by structural assembly => assembly

/-- The member of a name is what filled it last. -/
def members : List (String × Assembly) → List (String × Value)
  | [] => []
  | (name, filling) :: earlier => SortedEntries.insert name (value filling) (members earlier)
termination_by structural fills => fills

end

def empty : Assembly := mk [] []

/-- The object has to honour one more node. -/
def under (assembly : Assembly) (schema : Value) : Assembly :=
  mk (schema :: assembly.nodes) assembly.fills

/-- A name is filled. -/
def fill (assembly : Assembly) (name : String) (filling : Assembly) : Assembly :=
  mk assembly.nodes ((name, filling) :: assembly.fills)

/-- The fills of a later part come on top. -/
def merge (assembly later : Assembly) : Assembly :=
  mk (assembly.nodes ++ later.nodes) (later.fills ++ assembly.fills)

theorem sorted_members (fills : List (String × Assembly)) :
    SortedEntries.Sorted (members fills) := by
  induction fills with
  | nil => exact List.Pairwise.nil
  | cons first earlier ih => exact SortedEntries.sorted_insert _ _ ih

/-- A member is the value of the latest filling. -/
theorem lookup_members (fills : List (String × Assembly)) (name : String) :
    (members fills).lookup name = (fills.lookup name).map value := by
  induction fills with
  | nil => rfl
  | cons first earlier ih =>
      obtain ⟨filled, filling⟩ := first
      rw [members, SortedEntries.lookup_insert, SortedEntries.lookup_cons_eq, ih]
      split <;> rfl

theorem members_append (later earlier : List (String × Assembly)) :
    members (later ++ earlier) =
      SortedEntries.overwrite (members earlier) (members later) := by
  induction later with
  | nil => rfl
  | cons first rest ih =>
      obtain ⟨name, filling⟩ := first
      rw [List.cons_append, members, ih, members,
        SortedEntries.overwrite_insert _ _ (sorted_members rest)]

theorem value_eq (assembly : Assembly) : assembly.value = .object (members assembly.fills) := by
  cases assembly
  rfl

theorem value_under (assembly : Assembly) (schema : Value) :
    (assembly.under schema).value = assembly.value := by
  rw [value_eq, value_eq]
  rfl

theorem value_merge (assembly later : Assembly) :
    (assembly.merge later).value = Faker.mergeValues assembly.value later.value := by
  rw [value_eq, value_eq, value_eq]
  exact congrArg Value.object (members_append _ _)

end Assembly

namespace Faker

open Drawing

variable {ρ φ : Type} (random : Randomness ρ φ)

/-- One more property: it is filled if it is required, else by chance. -/
def assembleProperty (assemble : Value → Generator ρ Assembly) (required : List String)
    (assembly : Assembly) (property : String × Value) : Generator ρ Assembly := do
  let included ← if property.1 ∈ required then pure true else randomBool random 35
  if included then
    let filling ← assemble property.2
    return assembly.fill property.1 filling
  else return assembly

def assembleProperties (assemble : Value → Generator ρ Assembly) (required : List String)
    (properties : List (String × Value)) : Generator ρ Assembly :=
  properties.foldlM (assembleProperty random assemble required) .empty

/-- One more part comes on top. -/
def assemblePart (assemble : Value → Generator ρ Assembly) (assembly : Assembly) (part : Value) :
    Generator ρ Assembly := do
  let later ← assemble part
  return assembly.merge later

def assembleParts (assemble : Value → Generator ρ Assembly) (parts : List Value) :
    Generator ρ Assembly :=
  parts.foldlM (assemblePart assemble) .empty

/-- What is assembled at a node, by its variants, its parts or its properties. -/
def assembleNode (assemble : Value → Generator ρ Assembly) (schema : Value) :
    Generator ρ Assembly :=
  match variantsOf schema with
  | some variants => do
      let index ← randomIndex random variants.length
      assemble (variants.getD index .null)
  | none =>
      match partsOf schema with
      | some parts => assembleParts assemble parts
      | none =>
          assembleProperties random assemble (requiredSet schema) (declaredProperties schema)

/-- Generation of a composition, with what it does. -/
def assembleWithRng : Nat → Value → Generator ρ Assembly
  | 0, _ => throw "maximum schema recursion depth reached"
  | remaining + 1, schema => do
      let assembly ← assembleNode random (assembleWithRng remaining) schema
      return assembly.under schema

variable {random} {generate : Value → Generator ρ Value}
  {assemble : Value → Generator ρ Assembly}

theorem generateProperties_eq_members (required : List String)
    {properties : List (String × Value)}
    (agrees : ∀ property ∈ properties,
      generate property.2 = Assembly.value <$> assemble property.2) :
    generateProperties random generate required properties =
      (fun assembly => Assembly.members assembly.fills) <$>
        assembleProperties random assemble required properties := by
  refine map_foldlM (fun assembly => Assembly.members assembly.fills) ?_ Assembly.empty
  intro property listed assembly
  have taken : (do
        let value ← generate property.2
        return SortedEntries.insert property.1 value (Assembly.members assembly.fills)) =
      (fun assembly => Assembly.members assembly.fills) <$> (do
        let filling ← assemble property.2
        return assembly.fill property.1 filling) := by
    rw [agrees property listed, bind_map_left, map_bind]
    refine bind_congr fun filling => ?_
    rw [map_pure]
    rfl
  exact map_optional (fun assembly : Assembly => Assembly.members assembly.fills) taken

theorem generateAllOf_eq_value {parts : List Value}
    (agrees : ∀ part ∈ parts, generate part = Assembly.value <$> assemble part) :
    generateAllOf generate parts = Assembly.value <$> assembleParts assemble parts := by
  refine map_foldlM Assembly.value ?_ Assembly.empty
  intro part listed assembly
  rw [agrees part listed, bind_map_left, assemblePart, map_bind]
  refine bind_congr fun later => ?_
  rw [map_pure, Assembly.value_merge]

/-- Without a discriminator a composition is generated by its variants, parts or properties. -/
theorem generateUndeclared_of_composition {keywords : List (String × Value)}
    (composition : Composition (.object keywords)) :
    generateUndeclared random generate (.object keywords) =
      match variantsOf (.object keywords) with
      | some variants => do
          let index ← randomIndex random variants.length
          generate (variants.getD index .null)
      | none =>
          match partsOf (.object keywords) with
          | some parts => generateAllOf generate parts
          | none => do
              let members ← generateProperties random generate (requiredSet (.object keywords))
                (declaredProperties (.object keywords))
              return .object members := by
  obtain ⟨_, plain, -, -, -, -, objects, typed, -, -, -⟩ := composition
  have discriminator : extractDiscriminator (.object keywords) = none := by
    simp [extractDiscriminator, Value.get, plain.lookup_none "discriminator" (by decide)]
  have enum : nonemptyArray (.object keywords) "enum" = none := by
    simp [nonemptyArray, Value.get, plain.lookup_none "enum" (by decide)]
  have const : (Value.object keywords).get "const" = none := plain.lookup_none "const" (by decide)
  have additional : keywords.lookup "additionalProperties" = none :=
    plain.lookup_none "additionalProperties" (by decide)
  unfold generateUndeclared
  cases variants : variantsOf (.object keywords) with
  | some variants => simp only [generateVariant, discriminator]
  | none =>
      change (match partsOf (.object keywords) with
        | some parts => generateAllOf generate parts
        | none => _) = _
      cases parts : partsOf (.object keywords) with
      | some parts => rfl
      | none =>
          obtain ⟨type, given⟩ := Option.ne_none_iff_exists'.mp (typed variants parts)
          have object := schemaType_of_typed (objects type given ▸ given)
          simp only [enum, const, generateTyped, object]
          refine generateObject_of_closed (.object keywords) ?_
          intro value found
          rw [Value.get, additional] at found
          cases found

theorem getD_mem_or_eq (variants : List Value) (index : Nat) :
    variants.getD index .null ∈ variants ∨ variants.getD index .null = .null := by
  rw [List.getD_eq_getElem?_getD]
  cases found : variants[index]? with
  | none => exact .inr rfl
  | some variant => exact .inl (List.mem_of_getElem? found)

/-- The value that is generated is the one that is assembled. -/
theorem generateWithRng_eq_value {schema : Value} (composition : Composition schema)
    (remaining : Nat) :
    generateWithRng random remaining schema =
      Assembly.value <$> assembleWithRng random remaining schema := by
  induction remaining generalizing schema with
  | zero =>
      obtain ⟨keywords, plain⟩ := composition
      rw [generateWithRng_zero (declaredValue_of_plain plain (by decide))]
      rfl
  | succ remaining ih =>
      have composed := composition
      obtain ⟨keywords, plain, -, -, -, -, -, -, properties, variants, parts⟩ := composition
      rw [generateWithRng_succ (declaredValue_of_plain plain (by decide)),
        generateUndeclared_of_composition composed, assembleWithRng, map_bind]
      simp only [map_pure, Assembly.value_under]
      rw [assembleNode]
      cases varied : variantsOf (.object keywords) with
      | some list =>
          dsimp only
          rw [bind_assoc]
          refine bind_congr fun index => ?_
          rw [bind_pure_comp]
          rcases getD_mem_or_eq list index with listed | outside
          · exact ih (variants list varied _ listed)
          · rw [outside]
            cases remaining <;> rfl
      | none =>
          cases joined : partsOf (.object keywords) with
          | some list =>
              dsimp only
              rw [bind_pure_comp]
              exact generateAllOf_eq_value fun part listed => ih (parts list joined part listed)
          | none =>
              dsimp only
              rw [generateProperties_eq_members _ fun property listed =>
                ih (properties property listed), bind_map_left]
              exact bind_congr fun assembly => congrArg pure (Assembly.value_eq assembly).symm

end Faker

namespace Assembly

/-- Every name that a node requires is filled, by what is whole itself and satisfies each schema. -/
inductive Whole : Assembly → Prop where
  | intro {assembly : Assembly}
      (required : ∀ node ∈ assembly.nodes, ∀ name ∈ Faker.requiredSet node,
        ∃ filling, assembly.fills.lookup name = some filling)
      (whole : ∀ name filling, assembly.fills.lookup name = some filling → Whole filling)
      (declared : ∀ name filling, assembly.fills.lookup name = some filling →
        ∀ node ∈ assembly.nodes, ∀ schema, (name, schema) ∈ declaredProperties node →
          Satisfies schema filling.value) : Whole assembly

/-- The names that the nodes require are there, and are kept at every depth. -/
def KeepsParts (assembly : Assembly) : Prop :=
  ∀ node ∈ assembly.nodes, ∀ name ∈ Faker.requiredSet node,
    ∃ filling, assembly.fills.lookup name = some filling ∧
      assembly.value.get name = some filling.value ∧ filling.Whole ∧
      ∀ other ∈ assembly.nodes, ∀ schema, (name, schema) ∈ declaredProperties other →
        Satisfies schema filling.value

end Assembly

/-- Whatever is drawn, a value that is generated keeps all parts of the schema. -/
def KeepsAllParts (schema : Value) : Prop :=
  ∀ (ρ φ : Type) (random : Randomness ρ φ), random.Lawful → ∀ stream value next,
    Faker.generateWithRng random (Faker.maximumDepth + 1) schema stream = .ok (value, next) →
      ∃ assembly, Faker.assembleWithRng random (Faker.maximumDepth + 1) schema stream =
          .ok (assembly, next) ∧ assembly.value = value ∧ assembly.KeepsParts

end SpecMock.Core
