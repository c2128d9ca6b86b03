import SpecMock.Core.LawfulDraws
import SpecMock.Library.Logged
import SpecMock.Library.Text

/-!
# Mocked protobuf messages

A message of a type is mocked field by field.  The seed of a field is that of
its message, changed by the number of the field; a message within a field gets
the next seed, one level deeper, down to a greatest depth.  Every sum is logged
as the number it is before it is reduced to the width of its type.
-/

namespace SpecMock.Runtime.Grpc

open SpecMock.Library SpecMock.Core

/-- The type of a field; message types are those of `δ`. -/
inductive Kind (δ : Type) where
  | double | float
  | int32 | int64 | uint32 | uint64 | sint32 | sint64
  | fixed32 | fixed64 | sfixed32 | sfixed64
  | bool | string | bytes
  | message (descriptor : δ)
  /-- The numbers of the values of the enumeration. -/
  | enum (numbers : List (BitVec 32))

inductive Cardinality where
  | optional | required | repeated
  deriving DecidableEq

structure FieldDescriptor (δ : Type) where
  number : BitVec 32
  kind : Kind δ
  cardinality : Cardinality
  isMap : Bool
  isList : Bool
  supportsPresence : Bool
  /-- The full name of the group of which only one field can be set. -/
  containingOneof : Option String

/-- A value of a kind; a message is a `μ`, and a float is known by its hundredths. -/
inductive Scalar (μ : Type) where
  | bool (value : Bool)
  | i32 (value : BitVec 32)
  | i64 (value : BitVec 64)
  | u32 (value : BitVec 32)
  | u64 (value : BitVec 64)
  | f32 (hundredths : Nat)
  | f64 (hundredths : Nat)
  | string (text : String)
  | bytes (bytes : List UInt8)
  | enumNumber (number : BitVec 32)
  | message (message : μ)

inductive FieldValue (μ : Type) where
  | single (value : Scalar μ)
  | list (items : List (Scalar μ))
  | emptyMap

/-- The descriptors and messages of the protobuf library. -/
structure Reflection (δ : Type) where
  fields : δ → List (FieldDescriptor δ)
  DynamicMessage : Type
  new : δ → DynamicMessage
  trySetField : DynamicMessage → FieldDescriptor δ → FieldValue DynamicMessage →
    Except String DynamicMessage
  descriptor : DynamicMessage → δ
  hasField : DynamicMessage → BitVec 32 → Bool

/-- What is computed, with every exact sum. -/
abbrev Mocking (α : Type) : Type := Logged Nat String α

section Mock

variable {δ ρ φ : Type} (reflection : Reflection δ) (random : Randomness ρ φ)

/-- A value for a kind, where the messages of the next level are known. -/
def scalarValueForField
    (generate : δ → BitVec 64 → Nat → Mocking reflection.DynamicMessage)
    (kind : Kind δ) (seed : BitVec 64) (depth : Nat) :
    Mocking (Scalar reflection.DynamicMessage) :=
  match kind with
  | .bool => return .bool (seed &&& 1 == 1)
  | .int32 | .sint32 | .sfixed32 => return .i32 ((seed % 2048).setWidth 32)
  | .int64 | .sint64 | .sfixed64 => return .i64 (seed % 1000000)
  | .uint32 | .fixed32 => return .u32 ((seed % 2048).setWidth 32)
  | .uint64 | .fixed64 => return .u64 (seed % 1000000)
  | .float => return .f32 (seed % 10000).toNat
  | .double => return .f64 (seed % 10000).toNat
  | .string => return .string ("mock-" ++ toString seed.toNat)
  | .bytes => return .bytes (("mock-" ++ toString seed.toNat).toList.flatMap String.utf8EncodeChar)
  | .enum [] => Logged.fail "enum has no values"
  | .enum numbers =>
      let index := (random.randomRange 0 (numbers.length - 1) (random.seedFromU64 seed)).1
      return .enumNumber (numbers.getD index.toNat 0)
  | .message descriptor => do
      Logged.note (seed.toNat + 1)
      Logged.note (depth + 1)
      let nested ← generate descriptor (seed + 1) (depth + 1)
      return .message nested

/-- The seed of a field. -/
def fieldSeed (seed : BitVec 64) (number : BitVec 32) : BitVec 64 := seed ^^^ number.setWidth 64

/-- Set one field, unless it is a repeated one that is neither a map nor a list. -/
def setMockField (generate : δ → BitVec 64 → Nat → Mocking reflection.DynamicMessage)
    (seed : BitVec 64) (depth : Nat) (message : reflection.DynamicMessage)
    (field : FieldDescriptor δ) : Mocking reflection.DynamicMessage :=
  if field.isMap then Logged.ofExcept (reflection.trySetField message field .emptyMap)
  else if field.isList then do
    let item ← scalarValueForField reflection random generate field.kind
      (fieldSeed seed field.number) depth
    Logged.ofExcept (reflection.trySetField message field (.list [item]))
  else if field.cardinality = .optional ∨ field.cardinality = .required ∨
      field.supportsPresence = true then do
    let value ← scalarValueForField reflection random generate field.kind
      (fieldSeed seed field.number) depth
    Logged.ofExcept (reflection.trySetField message field (.single value))
  else return message

/-- Set the fields in turn, of every group only the first one. -/
def setMockFields (generate : δ → BitVec 64 → Nat → Mocking reflection.DynamicMessage)
    (seed : BitVec 64) (depth : Nat) : List (FieldDescriptor δ) → List String →
    reflection.DynamicMessage → Mocking reflection.DynamicMessage
  | [], _, message => return message
  | field :: rest, oneofTaken, message =>
      match field.containingOneof with
      | none => do
          let message ← setMockField reflection random generate seed depth message field
          setMockFields generate seed depth rest oneofTaken message
      | some name =>
          if name ∈ oneofTaken then setMockFields generate seed depth rest oneofTaken message
          else do
            let message ← setMockField reflection random generate seed depth message field
            setMockFields generate seed depth rest (name :: oneofTaken) message

/-- The greatest depth of a message. -/
def maxMessageDepth : Nat := 32

/-- The message of a type, with a number of levels that are left for it. -/
def generateLevels : Nat → δ → BitVec 64 → Nat → Mocking reflection.DynamicMessage
  | 0, _, _, _ => Logged.fail "maximum protobuf message recursion depth reached"
  | levels + 1, descriptor, seed, depth =>
      setMockFields reflection random (generateLevels levels) seed depth
        (reflection.fields descriptor) [] (reflection.new descriptor)

def generateDynamicMessage (descriptor : δ) (seed : BitVec 64) (depth : Nat) :
    Mocking reflection.DynamicMessage :=
  generateLevels reflection random (maxMessageDepth + 1 - depth) descriptor seed depth

end Mock

end SpecMock.Runtime.Grpc
