import SpecMock.Core.Sidecar
import Mathlib.Data.List.TakeWhile

/-!
# Addressing a stored resource

A request reaches a stored resource through a namespace, which is a collection
template with its parameters bound, and an identifier, which comes from a path
parameter or from a field of a message.
-/

namespace SpecMock.Runtime

open SpecMock.Library SpecMock.Core

/-- Path parameters bound by the router. -/
abbrev PathParams := FiniteMap String String

/-- What a placeholder is replaced by: its value, or itself when it has none. -/
def boundText (params : PathParams) (parameter : List Char) : List Char :=
  match params.lookup (String.ofList parameter) with
  | some value => value.toList
  | none => '{' :: parameter ++ ['}']

/--
Replace the placeholders of a template one after the other.  Every round takes
at least the two braces off the template, so its length is fuel enough.
-/
def bindChars (params : PathParams) : Nat → List Char → List Char
  | 0, rest => rest
  | fuel + 1, rest =>
      let before := rest.takeWhile fun char => char != '{'
      match rest.dropWhile fun char => char != '{' with
      | [] => before
      | _ :: inside =>
          let parameter := inside.takeWhile fun char => char != '}'
          match inside.dropWhile fun char => char != '}' with
          | [] => before ++ '{' :: inside
          | _ :: after => before ++ boundText params parameter ++ bindChars params fuel after

/-- Bind a collection path template's parameters, giving the store's namespace. -/
def bindNamespace (template : String) (params : PathParams) : String :=
  String.ofList (bindChars params template.toList.length template.toList)

theorem bindChars_of_plain (params : PathParams) (fuel : Nat) {rest : List Char}
    (plain : '{' ∉ rest) : bindChars params fuel rest = rest := by
  have before : rest.takeWhile (fun char => char != '{') = rest := by
    apply List.takeWhile_eq_self_iff.mpr
    intro char member
    simpa using fun same : char = '{' => plain (same ▸ member)
  have after : rest.dropWhile (fun char => char != '{') = [] := by
    apply List.dropWhile_eq_nil_iff.mpr
    intro char member
    simpa using fun same : char = '{' => plain (same ▸ member)
  cases fuel with
  | zero => rfl
  | succ fuel => simp only [bindChars, before, after]

/-- A template without placeholders is its own namespace. -/
theorem bindNamespace_of_plain {template : String} (params : PathParams)
    (plain : '{' ∉ template.toList) : bindNamespace template params = template := by
  rw [bindNamespace, bindChars_of_plain params _ plain, String.ofList_toList]

example : bindNamespace "/users/{user}/orders/{x}" ((∅ : PathParams).insert "user" "5") =
    "/users/5/orders/{x}" := by decide

/-- The segments of a pointer, taken as they are written. -/
def pointerSegments (pointer : String) : List String :=
  ((pointer.toList.dropWhile fun char => char == '/').splitOn '/').map String.ofList

/-- Follow segments through nested objects. -/
def follow : Value → List String → Option Value
  | node, [] => some node
  | node, segment :: rest =>
      match node.get segment with
      | none => none
      | some child => follow child rest

/-- The text by which a value is identified, none for null. -/
def identifierText : Value → Option String
  | .string text => some text
  | .null => none
  | other => some other.toText

/-- Follow a JSON pointer, returning none if any segment is absent. -/
def pointerValue (subject : Value) (pointer : String) : Option String :=
  match if pointer = "" then some subject else follow subject (pointerSegments pointer) with
  | none => none
  | some node => identifierText node

/-- The members of an object; anything else is replaced by an empty object. -/
def members : Value → List (String × Value)
  | .object members => members
  | _ => []

/-- Write `identifier` at a path, making an object of every node on the way. -/
def alignAt (identifier : String) : Value → List String → Value
  | value, [] => value
  | value, [last] => .object (SortedEntries.insert last (.string identifier) (members value))
  | value, segment :: rest =>
      let child := ((members value).lookup segment).getD (.object [])
      .object (SortedEntries.insert segment (alignAt identifier child rest) (members value))

/-- Write `identifier` into `value` at `pointer`, adding the field if absent. -/
def alignIdentifier (value : Value) (pointer identifier : String) : Value :=
  if pointer = "" then value else alignAt identifier value (pointerSegments pointer)

theorem pointerSegments_ne_nil (pointer : String) : pointerSegments pointer ≠ [] := by
  simp [pointerSegments, List.splitOn_ne_nil]

/-- Following the path just written leads to the identifier. -/
theorem follow_alignAt (identifier : String) (value : Value) {path : List String}
    (rooted : path ≠ []) :
    follow (alignAt identifier value path) path = some (.string identifier) := by
  induction path generalizing value with
  | nil => exact absurd rfl rooted
  | cons segment rest ih =>
      cases rest with
      | nil => simp [alignAt, follow, Value.get]
      | cons next others =>
          simp only [alignAt, follow, Value.get, SortedEntries.lookup_insert_self]
          exact ih _ (by simp)

/-- An aligned value is identified, through the pointer, by the identifier. -/
theorem pointerValue_alignIdentifier (value : Value) {pointer : String} (identifier : String)
    (rooted : pointer ≠ "") :
    pointerValue (alignIdentifier value pointer identifier) pointer = some identifier := by
  simp only [pointerValue, alignIdentifier, rooted, if_false,
    follow_alignAt identifier value (pointerSegments_ne_nil pointer), identifierText]

/-- The parameter named by `key`, with or without its braces. -/
def keyParameter (name : String) : String :=
  match name.toList with
  | '{' :: rest =>
      match rest.reverse with
      | '}' :: inner => String.ofList inner.reverse
      | _ => name
  | _ => name

/-- Resolve a create's identifier from the pointer it declares. -/
def resolveCreateKey (spec : StoreSpec) (request : Option Value) (response : Value) :
    Option String :=
  match spec.keyFrom with
  | none => none
  | some source =>
      match source.location with
      | .request =>
          match request with
          | none => none
          | some body => pointerValue body source.pointer
      | .response => pointerValue response source.pointer

/-- Resolve the identifier a keyed action addresses. -/
def resolveKey (spec : StoreSpec) (params : PathParams) (request : Option Value)
    (response : Value) : Option String :=
  match spec.key.bind fun name => params.lookup (keyParameter name) with
  | some bound => some bound
  | none =>
      if spec.keyFrom.isSome then resolveCreateKey spec request response else none

end SpecMock.Runtime
