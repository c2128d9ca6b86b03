import SpecMock.Library.OrderedMap
import Mathlib.Data.String.Basic

/-!
# JSON values

The values that requests, responses, seeds and stored resources are made of.
Object members stand in the iteration order of the map, which sorts them by
key; a floating point number is represented by its rendered text.
-/

namespace SpecMock.Core

open SpecMock.Library

/-- A JSON number: an integer of either sign, or a float known by its text. -/
inductive Number where
  | int (value : Int)
  | float (text : String)
  deriving DecidableEq

inductive Value where
  | null
  | bool (value : Bool)
  | number (value : Number)
  | string (text : String)
  | array (items : List Value)
  | object (members : List (String × Value))

namespace Value

/-- Induction along the nesting of a value. -/
@[elab_as_elim]
theorem nestedInduction {motive : Value → Prop}
    (scalar : ∀ value : Value, (∀ items, value ≠ .array items) →
      (∀ members, value ≠ .object members) → motive value)
    (array : ∀ items, (∀ item ∈ items, motive item) → motive (.array items))
    (object : ∀ members : List (String × Value), (∀ member ∈ members, motive member.2) →
      motive (.object members)) (value : Value) : motive value := by
  refine @Value.rec motive (fun items => ∀ item ∈ items, motive item)
    (fun members => ∀ member ∈ members, motive member.2) (fun member => motive member.2)
    ?null ?bool ?number ?string array object ?noItem ?nextItem ?noMember ?nextMember ?member value
  case null => exact scalar .null (by simp) (by simp)
  case bool => exact fun flag => scalar (.bool flag) (by simp) (by simp)
  case number => exact fun number => scalar (.number number) (by simp) (by simp)
  case string => exact fun text => scalar (.string text) (by simp) (by simp)
  case noItem => simp
  case nextItem => exact fun item rest first others => List.forall_mem_cons.mpr ⟨first, others⟩
  case noMember => simp
  case nextMember => exact fun member rest first others => List.forall_mem_cons.mpr ⟨first, others⟩
  case member => exact fun key value held => held

mutual

def equal : Value → Value → Bool
  | .null, .null => true
  | .bool left, .bool right => left == right
  | .number left, .number right => decide (left = right)
  | .string left, .string right => decide (left = right)
  | .array left, .array right => equalItems left right
  | .object left, .object right => equalMembers left right
  | _, _ => false

def equalItems : List Value → List Value → Bool
  | [], [] => true
  | left :: lefts, right :: rights => equal left right && equalItems lefts rights
  | _, _ => false

def equalMembers : List (String × Value) → List (String × Value) → Bool
  | [], [] => true
  | (key, left) :: lefts, (key', right) :: rights =>
      decide (key = key') && equal left right && equalMembers lefts rights
  | _, _ => false

end

mutual

theorem equal_iff : ∀ left right : Value, equal left right = true ↔ left = right
  | .null, right => by cases right <;> simp [equal]
  | .bool value, right => by cases right <;> simp [equal]
  | .number value, right => by cases right <;> simp [equal]
  | .string text, right => by cases right <;> simp [equal]
  | .array items, right => by
      cases right <;> simp [equal, equalItems_iff items]
  | .object members, right => by
      cases right <;> simp [equal, equalMembers_iff members]

theorem equalItems_iff : ∀ left right : List Value, equalItems left right = true ↔ left = right
  | [], right => by cases right <;> simp [equalItems]
  | first :: rest, right => by
      cases right <;> simp [equalItems, equal_iff first, equalItems_iff rest]

theorem equalMembers_iff :
    ∀ left right : List (String × Value), equalMembers left right = true ↔ left = right
  | [], right => by cases right <;> simp [equalMembers]
  | (key, first) :: rest, right => by
      cases right with
      | nil => simp [equalMembers]
      | cons member others =>
          simp [equalMembers, equal_iff first, equalMembers_iff rest, Prod.ext_iff]

end

instance : DecidableEq Value := fun left right =>
  decidable_of_iff (equal left right = true) (equal_iff left right)

mutual

/-- The value with its zeros unsigned. -/
def unsigned : Value → Value
  | .number (.float text) => .number (.float (if text = "-0.0" then "0.0" else text))
  | .array items => .array (unsignedItems items)
  | .object members => .object (unsignedMembers members)
  | value => value

def unsignedItems : List Value → List Value
  | [] => []
  | item :: rest => unsigned item :: unsignedItems rest

def unsignedMembers : List (String × Value) → List (String × Value)
  | [] => []
  | (key, value) :: rest => (key, unsigned value) :: unsignedMembers rest

end

/-- Equality of values as `==` has it: floats are compared as numbers. -/
def Equals (left right : Value) : Prop := left.unsigned = right.unsigned

instance (left right : Value) : Decidable (left.Equals right) :=
  inferInstanceAs (Decidable (left.unsigned = right.unsigned))

@[simp]
theorem Equals.refl (value : Value) : value.Equals value := rfl

theorem Equals.symm {left right : Value} (same : left.Equals right) : right.Equals left :=
  Eq.symm same

theorem Equals.trans {first second third : Value} (same : first.Equals second)
    (other : second.Equals third) : first.Equals third :=
  Eq.trans same other

/-- `Value::get` with a string: the member of an object, nothing elsewhere. -/
def get (value : Value) (key : String) : Option Value :=
  match value with
  | .object members => members.lookup key
  | _ => none

/-- Two lower-case hexadecimal digits. -/
def hexPair (code : Nat) : List Char :=
  [Nat.digitChar (code / 16), Nat.digitChar (code % 16)]

/-- One character of a string in JSON form. -/
def escapeChar (char : Char) : List Char :=
  match char with
  | '"' => ['\\', '"']
  | '\\' => ['\\', '\\']
  | '\x08' => ['\\', 'b']
  | '\x0c' => ['\\', 'f']
  | '\n' => ['\\', 'n']
  | '\r' => ['\\', 'r']
  | '\t' => ['\\', 't']
  | char => if char.toNat < 0x20 then ['\\', 'u', '0', '0'] ++ hexPair char.toNat else [char]

def quoted (text : String) : String :=
  "\"" ++ String.ofList (text.toList.flatMap escapeChar) ++ "\""

mutual

/-- The compact JSON form of a value. -/
def toText : Value → String
  | .null => "null"
  | .bool true => "true"
  | .bool false => "false"
  | .number (.int value) => toString value
  | .number (.float text) => text
  | .string text => quoted text
  | .array items => "[" ++ itemsText items ++ "]"
  | .object members => "\x7b" ++ membersText members ++ "\x7d"

def itemsText : List Value → String
  | [] => ""
  | [item] => toText item
  | item :: rest => toText item ++ "," ++ itemsText rest

def membersText : List (String × Value) → String
  | [] => ""
  | [(key, value)] => quoted key ++ ":" ++ toText value
  | (key, value) :: rest => quoted key ++ ":" ++ toText value ++ "," ++ membersText rest

end

end Value

end SpecMock.Core
