import SpecMock.Core.Faker

/-!
# The meaning of a schema

Which JSON values are valid under a schema, for the keywords that the
generator and the normalisation of schemas read.  In an OpenAPI 3.0 document
`nullable` also admits null next to a type; plain JSON Schema ignores it.
-/

namespace SpecMock.Core

/-- What a validator knows of numbers, and when it takes two values for equal. -/
structure SchemaRules where
  /-- The text of a float denotes a whole number. -/
  integral : String → Bool
  atMost : Number → Number → Bool
  equal : Value → Value → Bool
  atMost_int : ∀ left right, atMost (.int left) (.int right) = decide (left ≤ right)
  atMost_trans : ∀ left middle right, atMost left middle = true → atMost middle right = true →
    atMost left right = true
  equal_self : ∀ value, equal value value = true

/-- Rules that compare integers only, and take every value to equal itself alone. -/
def SchemaRules.integers : SchemaRules where
  integral _ := false
  atMost
    | .int left, .int right => decide (left ≤ right)
    | _, _ => false
  equal left right := decide (left = right)
  atMost_int _ _ := rfl
  atMost_trans := by
    rintro (left | _) (middle | _) (right | _) below above
    case int.int.int =>
      exact decide_eq_true ((of_decide_eq_true below).trans (of_decide_eq_true above))
    all_goals first | cases below | cases above
  equal_self _ := decide_eq_true rfl

inductive Dialect where
  | openApi30
  | jsonSchema
  deriving DecidableEq

namespace Schema

section Meaning

variable (rules : SchemaRules) (dialect : Dialect)

def hasType (name : String) : Value → Bool
  | .null => name == "null"
  | .bool _ => name == "boolean"
  | .number (.int _) => name == "integer" || name == "number"
  | .number (.float text) => name == "number" || (name == "integer" && rules.integral text)
  | .string _ => name == "string"
  | .array _ => name == "array"
  | .object _ => name == "object"

/-- A type is one name or a list of names. -/
def admitsType (argument value : Value) : Bool :=
  match argument with
  | .string name => hasType rules name value
  | .array names => names.any fun name => name.asStr.any fun name => hasType rules name value
  | _ => true

/-- The properties declared in the same schema object. -/
def declaredNames (siblings : List (String × Value)) : List String :=
  (((siblings.lookup "properties").bind Value.asObject).getD []).map Prod.fst

/-- `nullable: true` stands in the same schema object. -/
def isNullable (siblings : List (String × Value)) : Bool :=
  decide (siblings.lookup "nullable" = some (.bool true))

def hasRequired (argument value : Value) : Bool :=
  match argument, value with
  | .array names, .object members =>
      names.all fun name => name.asStr.all fun name => (members.lookup name).isSome
  | _, _ => true

/-- Whether a number obeys a bound on numbers. -/
def numberObeys (obeys : Number → Number → Bool) (argument value : Value) : Bool :=
  match argument, value with
  | .number bound, .number number => obeys bound number
  | _, _ => true

/-- Whether the size of a value obeys a bound on sizes. -/
def sizeObeys (size : Value → Option Nat) (obeys : Nat → Nat → Bool) (argument value : Value) :
    Bool :=
  match argument.asU64, size value with
  | some bound, some measured => obeys bound measured
  | _, _ => true

def itemCount (value : Value) : Option Nat := value.asArray.map List.length

def textLength (value : Value) : Option Nat := value.asStr.map String.length

def assertion (siblings : List (String × Value)) (keyword : String) (argument value : Value) :
    Bool :=
  match keyword with
  | "type" => admitsType rules argument value ||
      (decide (dialect = .openApi30) && isNullable siblings && decide (value = .null))
  | "enum" => argument.asArray.all fun values => values.any fun listed => rules.equal listed value
  | "const" => rules.equal argument value
  | "required" => hasRequired argument value
  | "minimum" => numberObeys rules.atMost argument value
  | "maximum" => numberObeys (fun bound number => rules.atMost number bound) argument value
  | "minItems" => sizeObeys itemCount (fun bound count => decide (bound ≤ count)) argument value
  | "maxItems" => sizeObeys itemCount (fun bound count => decide (count ≤ bound)) argument value
  | "minLength" => sizeObeys textLength (fun bound length => decide (bound ≤ length)) argument value
  | "maxLength" => sizeObeys textLength (fun bound length => decide (length ≤ bound)) argument value
  -- Annotations, and `nullable` on its own.
  | _ => true

mutual

/-- Whether a value is valid under a schema, which is a boolean or an object of keywords. -/
def valid : Value → Value → Bool
  | .bool admitted, _ => admitted
  | .object keywords, value => obeys keywords keywords value
  | _, _ => true
termination_by structural schema => schema

/-- The keywords of a schema object, checked one by one. -/
def obeys (siblings : List (String × Value)) : List (String × Value) → Value → Bool
  | [], _ => true
  | (keyword, argument) :: rest, value =>
      (match keyword with
      | "properties" =>
          match argument with
          | .object declared => validMembers declared value
          | _ => true
      | "items" =>
          match value with
          | .array items => items.all fun item => valid argument item
          | _ => true
      | "additionalProperties" =>
          match value with
          | .object members => members.all fun member =>
              decide (member.1 ∈ declaredNames siblings) || valid argument member.2
          | _ => true
      | "not" => !valid argument value
      | "allOf" =>
          match argument with
          | .array parts => (verdicts parts value).all id
          | _ => true
      | "anyOf" =>
          match argument with
          | .array parts => (verdicts parts value).any id
          | _ => true
      | "oneOf" =>
          match argument with
          | .array parts => (verdicts parts value).count true == 1
          | _ => true
      | keyword => assertion rules dialect siblings keyword argument value) &&
        obeys siblings rest value
termination_by structural keywords => keywords

def verdicts : List Value → Value → List Bool
  | [], _ => []
  | part :: rest, value => valid part value :: verdicts rest value
termination_by structural parts => parts

/-- The declared properties that a value has are valid. -/
def validMembers : List (String × Value) → Value → Bool
  | [], _ => true
  | (name, schema) :: rest, value =>
      (match value.get name with
      | some member => valid schema member
      | none => true) && validMembers rest value
termination_by structural declared => declared

end

/-- A property that a value has is valid. -/
def memberHolds (value : Value) (declared : String × Value) : Bool :=
  (value.get declared.1).all fun member => valid rules dialect declared.2 member

/-- One keyword of a schema object, next to its siblings. -/
def keywordHolds (siblings : List (String × Value)) (keyword : String) (argument value : Value) :
    Bool :=
  match keyword with
  | "properties" =>
      match argument with
      | .object declared => declared.all (memberHolds rules dialect value)
      | _ => true
  | "items" =>
      match value with
      | .array items => items.all fun item => valid rules dialect argument item
      | _ => true
  | "additionalProperties" =>
      match value with
      | .object members => members.all fun member =>
          decide (member.1 ∈ declaredNames siblings) || valid rules dialect argument member.2
      | _ => true
  | "not" => !valid rules dialect argument value
  | "allOf" =>
      match argument with
      | .array parts => parts.all fun part => valid rules dialect part value
      | _ => true
  | "anyOf" =>
      match argument with
      | .array parts => parts.any fun part => valid rules dialect part value
      | _ => true
  | "oneOf" =>
      match argument with
      | .array parts => (parts.map fun part => valid rules dialect part value).count true == 1
      | _ => true
  | keyword => assertion rules dialect siblings keyword argument value

theorem verdicts_eq (parts : List Value) (value : Value) :
    verdicts rules dialect parts value = parts.map fun part => valid rules dialect part value := by
  induction parts with
  | nil => rfl
  | cons part rest ih => rw [verdicts, ih, List.map_cons]

theorem validMembers_eq (declared : List (String × Value)) (value : Value) :
    validMembers rules dialect declared value = declared.all (memberHolds rules dialect value) := by
  induction declared with
  | nil => rfl
  | cons entry rest ih =>
      obtain ⟨name, schema⟩ := entry
      rw [validMembers, ih, List.all_cons]
      congr 1
      rw [memberHolds]
      cases value.get name <;> rfl

theorem obeys_eq (siblings keywords : List (String × Value)) (value : Value) :
    obeys rules dialect siblings keywords value = keywords.all fun entry =>
      keywordHolds rules dialect siblings entry.1 entry.2 value := by
  induction keywords with
  | nil => rfl
  | cons entry rest ih =>
      obtain ⟨keyword, argument⟩ := entry
      unfold obeys
      rw [ih, List.all_cons]
      congr 1
      unfold keywordHolds
      dsimp only
      split <;> simp only [validMembers_eq, verdicts_eq, List.all_map, List.any_map] <;> rfl

/-- A value is valid if each keyword holds. -/
theorem valid_object (keywords : List (String × Value)) (value : Value) :
    valid rules dialect (.object keywords) value = keywords.all fun entry =>
      keywordHolds rules dialect keywords entry.1 entry.2 value := by
  rw [valid, obeys_eq]

/-- Only the argument of `type` is read together with a sibling, and differently. -/
theorem assertion_congr {siblings others : List (String × Value)} {keyword : String}
    (untyped : keyword ≠ "type") (dialect other : Dialect) (argument value : Value) :
    assertion rules dialect siblings keyword argument value =
      assertion rules other others keyword argument value := by
  unfold assertion
  split
  · exact absurd rfl untyped
  all_goals rfl

end Meaning

/-- A property of an argument and of the schemas it lists or names. -/
structure HoldsWithin (motive : Value → Prop) (argument : Value) : Prop where
  itself : motive argument
  items : ∀ schemas, argument = .array schemas → ∀ schema ∈ schemas, motive schema
  members : ∀ schemas : List (String × Value), argument = .object schemas →
    ∀ entry ∈ schemas, motive entry.2

/-- What holds of a schema if it holds of all its subschemas holds of every schema. -/
@[elab_as_elim]
theorem subschemaInduction {motive : Value → Prop}
    (plain : ∀ schema : Value, (∀ keywords, schema ≠ .object keywords) → motive schema)
    (object : ∀ keywords : List (String × Value),
      (∀ entry ∈ keywords, HoldsWithin motive entry.2) → motive (.object keywords))
    (schema : Value) : motive schema := by
  suffices within : HoldsWithin motive schema from within.itself
  induction schema using Value.nestedInduction with
  | scalar value unlisted unnamed =>
      constructor
      · exact plain value unnamed
      · exact fun schemas listed => absurd listed (unlisted schemas)
      · exact fun schemas named => absurd named (unnamed schemas)
  | array items ih =>
      constructor
      · exact plain _ (by simp)
      · rintro schemas ⟨rfl⟩ schema member
        exact (ih schema member).itself
      · simp
  | object keywords ih =>
      constructor
      · exact object keywords ih
      · simp
      · rintro schemas ⟨rfl⟩ entry member
        exact (ih entry member).itself

end Schema

end SpecMock.Core
