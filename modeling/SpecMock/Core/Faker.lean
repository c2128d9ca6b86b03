import SpecMock.Core.Json
import SpecMock.Library.Text
import Mathlib.Algebra.Group.Int.Defs
import Mathlib.Control.Monad.Basic

/-!
# Generated values

A JSON value is generated from a schema and a seed.  The stream of random
draws, the sampler for regular expressions and the arithmetic of floats are
those of libraries; a generator takes them as a `Randomness`.
-/

namespace SpecMock.Core

open SpecMock.Library

namespace Value

def asStr : Value → Option String
  | .string text => some text
  | _ => none

def asArray : Value → Option (List Value)
  | .array items => some items
  | _ => none

def asObject : Value → Option (List (String × Value))
  | .object members => some members
  | _ => none

def asBool : Value → Option Bool
  | .bool flag => some flag
  | _ => none

def asNumber : Value → Option Number
  | .number value => some value
  | _ => none

def asI64 : Value → Option Int
  | .number (.int value) => if -2 ^ 63 ≤ value ∧ value < 2 ^ 63 then some value else none
  | _ => none

def asU64 : Value → Option Nat
  | .number (.int value) => if 0 ≤ value ∧ value < 2 ^ 64 then some value.toNat else none
  | _ => none

end Value

/-- A random number generator with state `ρ`, and floats represented by `φ`. -/
structure Randomness (ρ φ : Type) where
  seedFromU64 : BitVec 64 → ρ
  /-- An integer between two bounds, both included. -/
  randomRange : Int → Int → ρ → Int × ρ
  /-- True with a probability given in percent. -/
  randomBool : Nat → ρ → Bool × ρ
  /-- A sampler for the strings of a regular expression, if it compiles. -/
  regex : String → Option (ρ → String × ρ)
  floatRange : φ → φ → ρ → φ × ρ
  float : Number → φ
  addFloat : φ → φ → φ
  ltFloat : φ → φ → Bool
  floatValue : φ → Value

/-- A generator draws from the stream, or fails with the text of its error. -/
abbrev Generator (ρ α : Type) : Type := StateT ρ (Except String) α

namespace Faker

/-- The value a schema gives itself: an example, else its default. -/
def declaredValue (schema : Value) : Option Value :=
  match schema.get "example" with
  | some declared => some declared
  | none =>
      match (schema.get "examples").bind Value.asArray with
      | some (first :: _) => some first
      | _ => schema.get "default"

/-- A non-empty array under a key. -/
def nonemptyArray (schema : Value) (key : String) : Option (List Value) :=
  ((schema.get key).bind Value.asArray).filter fun items => !items.isEmpty

/-- The variants of `oneOf`, or of `anyOf` when there is no `oneOf`. -/
def variantsOf (schema : Value) : Option (List Value) :=
  (((schema.get "oneOf").or (schema.get "anyOf")).bind Value.asArray).filter
    fun variants => !variants.isEmpty

/-- A type name; of a union the first one other than `null`. -/
def schemaType (schema : Value) : Option String :=
  match schema.get "type" with
  | some (.string single) => some single
  | some (.array []) => none
  | some (.array items) => some ((items.findSome? fun item =>
      item.asStr.filter fun name => decide (name ≠ "null")).getD "null")
  | _ => none

def requiredSet (schema : Value) : List String :=
  (((schema.get "required").bind Value.asArray).getD []).filterMap Value.asStr

/-- The last segment of a reference. -/
def targetName (reference : String) : String :=
  (Text.pieces '/' reference).getLastD ""

structure Discriminator where
  propertyName : String
  /-- Discriminator value to the reference of its schema. -/
  mapping : OrderedMap String String

def extractDiscriminator (schema : Value) : Option Discriminator := do
  let declared ← (schema.get "discriminator").bind Value.asObject
  let propertyName ← (declared.lookup "propertyName").bind Value.asStr
  let mapping := ((declared.lookup "mapping").bind Value.asObject).getD []
  return ⟨propertyName, OrderedMap.collect (mapping.filterMap fun entry =>
    entry.2.asStr.map fun reference => (entry.1, reference))⟩

def variantSchemaName (schema : Value) : Option String :=
  (schema.get "x-specmock-variant").bind Value.asStr

def title (schema : Value) : Option String := (schema.get "title").bind Value.asStr

/-- Positions of the variants that the mapping names, each once, in order. -/
def mappedVariants (variants : List Value) (mapping : OrderedMap String String) : List Nat :=
  (OrderedMap.collect (mapping.entries.filterMap fun entry =>
    (variants.findIdx? fun variant =>
      variantSchemaName variant == some (targetName entry.2) ||
        title variant == some (targetName entry.2)).map fun index => (index, ()))).keys

/-- The discriminator value of the variant at `index`. -/
def discriminatorValueForIndex (discriminator : Discriminator) (variants : List Value)
    (index : Nat) : String :=
  let fallback := (discriminator.mapping.keys.head?).getD "variant_0"
  match variants[index]? with
  | none => fallback
  | some chosen =>
      match (variantSchemaName chosen).or (title chosen) with
      | none => fallback
      | some name =>
          match discriminator.mapping.entries.find? fun entry => targetName entry.2 == name with
          | none => fallback
          | some entry => entry.1

/-- What a string with a format is generated as. -/
def formatText (format : String) : String :=
  match format with
  | "date-time" => "2026-03-01T00:00:00Z"
  | "date" => "2026-03-01"
  | "time" => "12:00:00"
  | "duration" => "P1D"
  | "email" => "mock@example.com"
  | "uuid" => "00000000-0000-0000-0000-000000000000"
  | "uri" | "url" => "https://example.com/mock"
  | "uri-reference" => "/mock/path"
  | "uri-template" => "https://example.com/\x7bid\x7d"
  | "iri" => "https://example.com/路径"
  | "iri-reference" => "/路径"
  | "hostname" => "mock.example.com"
  | "ipv4" => "192.0.2.1"
  | "ipv6" => "2001:db8::1"
  | "byte" => "bW9jaw=="
  | "binary" => "0100110001101111"
  | "password" => "mock-p4$$w0rd"
  | "json-pointer" => "/mock/path"
  | "relative-json-pointer" => "0/mock"
  | "regex" => "^[a-z]+$"
  | _ => "mock-" ++ format

/-- A pattern without its anchors, in ASCII mode. -/
def asciiPattern (pattern : String) : String :=
  let unopened := match pattern.toList with
    | '^' :: rest => rest
    | other => other
  let stripped := match unopened.reverse with
    | '$' :: rest => rest.reverse
    | _ => unopened
  "(?-u:" ++ String.ofList stripped ++ ")"

/-- Two objects are merged member by member; any other source replaces the target. -/
def mergeValues (target source : Value) : Value :=
  match target, source with
  | .object members, .object added =>
      .object
        (added.foldl (fun merged entry => SortedEntries.insert entry.1 entry.2 merged) members)
  | _, source => source

section Generate

variable {ρ φ : Type} (random : Randomness ρ φ)

def randomRange (low high : Int) : Generator ρ Int := fun stream =>
  .ok (random.randomRange low high stream)

def randomBool (percent : Nat) : Generator ρ Bool := fun stream =>
  .ok (random.randomBool percent stream)

/-- An index below a bound that is not zero. -/
def randomIndex (bound : Nat) : Generator ρ Nat := do
  let index ← randomRange random 0 (bound - 1)
  return index.toNat

/-- The results of a number of draws. -/
def drawTimes {α : Type} (draw : Generator ρ α) : Nat → Generator ρ (List α)
  | 0 => return []
  | count + 1 => do
      let first ← draw
      let rest ← drawTimes draw count
      return first :: rest

/-- The variant that the mapping selects, else any of them. -/
def pickDiscriminatorVariantIndex (variants : List Value) (mapping : OrderedMap String String) :
    Generator ρ Nat :=
  match mappedVariants variants mapping with
  | [] => randomIndex random variants.length
  | [only] => return only
  | first :: second :: rest => do
      let index ← randomRange random first ((second :: rest).getLastD first)
      return index.toNat

def generateVariant (generate : Value → Generator ρ Value) (schema : Value)
    (variants : List Value) : Generator ρ Value :=
  match extractDiscriminator schema with
  | none => do
      let index ← randomIndex random variants.length
      generate (variants.getD index .null)
  | some discriminator => do
      let index ← pickDiscriminatorVariantIndex random variants discriminator.mapping
      let value ← generate (variants.getD index .null)
      match value with
      | .object members =>
          return .object (SortedEntries.insert discriminator.propertyName
            (.string (discriminatorValueForIndex discriminator variants index)) members)
      | value => return value

def generateAllOf (generate : Value → Generator ρ Value) (parts : List Value) :
    Generator ρ Value :=
  parts.foldlM (fun merged part => do
    let generated ← generate part
    return mergeValues merged generated) (.object [])

/-- The declared properties: the required ones, and each other one by chance. -/
def generateProperties (generate : Value → Generator ρ Value) (required : List String)
    (properties : List (String × Value)) : Generator ρ (List (String × Value)) :=
  properties.foldlM (fun object property => do
    let included ← if property.1 ∈ required then pure true else randomBool random 35
    if included then
      let value ← generate property.2
      return SortedEntries.insert property.1 value object
    else return object) []

/-- Members of a schema for additional properties, numbered from zero. -/
def generateExtras (generate : Value → Generator ρ Value) (additional : Value) :
    List Nat → List (String × Value) → Generator ρ (List (String × Value))
  | [], object => return object
  | index :: rest, object => do
      let value ← generate additional
      generateExtras generate additional rest
        (SortedEntries.insert ("extra_" ++ toString index) value object)

def generateObject (generate : Value → Generator ρ Value) (schema : Value) :
    Generator ρ Value := do
  let properties := ((schema.get "properties").bind Value.asObject).getD []
  let object ← generateProperties random generate (requiredSet schema) properties
  match schema.get "additionalProperties" with
  | some (.bool true) =>
      return .object (SortedEntries.insert "extra_0" (.string "mock-extra") object)
  | some (.object members) =>
      let count ← randomRange random 1 2
      let extended ← generateExtras generate (.object members) (List.range count.toNat) object
      return .object extended
  | _ => return .object object

def generateArray (generate : Value → Generator ρ Value) (schema : Value) :
    Generator ρ Value := do
  let minItems := min (((schema.get "minItems").bind Value.asU64).getD 1) 100
  -- Both bounds have the same ceiling, and the range is never empty.
  let maxItems := max (min (((schema.get "maxItems").bind Value.asU64).getD (minItems + 2)) 100)
    minItems
  let itemCount ← randomRange random minItems maxItems
  let itemSchema := (schema.get "items").getD (.object [("type", .string "string")])
  if itemSchema = .bool false then return .array []
  else
    let items ← drawTimes (generate itemSchema) itemCount.toNat
    return .array items

/-- Addition on 64-bit integers that stops at the largest one. -/
def saturatingAdd (left right : Int) : Int := min (left + right) (2 ^ 63 - 1)

def generateInteger (schema : Value) : Generator ρ Value := do
  let low := ((schema.get "minimum").bind Value.asI64).getD 0
  let high := ((schema.get "maximum").bind Value.asI64).getD (saturatingAdd low 100)
  let value ← randomRange random low (max high low)
  return .number (.int value)

def generateNumber (schema : Value) : Generator ρ Value := fun stream =>
  let low := (((schema.get "minimum").bind Value.asNumber).map random.float).getD
    (random.float (.int 0))
  let high := (((schema.get "maximum").bind Value.asNumber).map random.float).getD
    (random.addFloat low (random.float (.int 100)))
  let bounded := if random.ltFloat high low then low else high
  let drawn := random.floatRange low bounded stream
  .ok (random.floatValue drawn.1, drawn.2)

/-- A string of lower case letters within the length bounds. -/
def generateLetters (schema : Value) : Generator ρ Value := do
  let minLength := min (((schema.get "minLength").bind Value.asU64).getD 1) 10000
  let maxLength :=
    max (min (((schema.get "maxLength").bind Value.asU64).getD (minLength + 8)) 10000) minLength
  let length ← randomRange random minLength maxLength
  let codes ← drawTimes (randomRange random 97 122) length.toNat
  return .string (String.ofList (codes.map fun code => Char.ofNat code.toNat))

def generateString (schema : Value) : Generator ρ Value :=
  match (schema.get "format").bind Value.asStr with
  | some format => return .string (formatText format)
  | none =>
      match (schema.get "pattern").bind Value.asStr with
      | none => generateLetters random schema
      | some pattern =>
          match random.regex (asciiPattern pattern) with
          -- A pattern that does not compile is ignored.
          | none => generateLetters random schema
          | some sample => fun stream =>
              .ok (.string (sample stream).1, (sample stream).2)

/-- Generation by the type of the schema. -/
def generateTyped (generate : Value → Generator ρ Value) (schema : Value) : Generator ρ Value :=
  match schemaType schema with
  | some "object" => generateObject random generate schema
  | some "array" => generateArray random generate schema
  | some "integer" => generateInteger random schema
  | some "number" => generateNumber random schema
  | some "boolean" => do
      let value ← randomBool random 50
      return .bool value
  | some "null" => return .null
  | some "string" => generateString random schema
  | some other => throw ("unsupported schema type: " ++ other)
  | none => return .object []

/-- Generation of a schema that declares no value. -/
def generateUndeclared (generate : Value → Generator ρ Value) (schema : Value) :
    Generator ρ Value :=
  match variantsOf schema with
  | some variants => generateVariant random generate schema variants
  | none =>
      match (schema.get "allOf").bind Value.asArray with
      | some parts => generateAllOf generate parts
      | none =>
          match nonemptyArray schema "enum" with
          | some values => do
              let index ← randomIndex random values.length
              return values.getD index .null
          | none =>
              match schema.get "const" with
              | some value => return value
              | none => generateTyped random generate schema

/-- Generation with a number of levels that the schema may still be nested. -/
def generateWithRng : Nat → Value → Generator ρ Value
  | remaining, schema =>
      match declaredValue schema with
      | some value => return value
      | none =>
          match remaining with
          | 0 => throw "maximum schema recursion depth reached"
          | remaining + 1 => generateUndeclared random (generateWithRng remaining) schema

/-- Levels below the root, down to the one that is still generated. -/
def maximumDepth : Nat := 32

/-- Generate a JSON value from a schema, the same one for the same seed. -/
def generateJsonValue (schema : Value) (seed : BitVec 64) : Except String Value :=
  match generateWithRng random (maximumDepth + 1) schema (random.seedFromU64 seed) with
  | .error error => .error ("data generation failed: " ++ error)
  | .ok (value, _) => .ok value

end Generate

end Faker

end SpecMock.Core
