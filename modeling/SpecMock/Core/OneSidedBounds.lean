import SpecMock.Core.GeneratedValues

/-!
# Bounds with one side open

A bound that a schema does not state is made up from the other one or from a
constant, and the range is then repaired by raising its upper end.  So a lower
bound always holds, and an upper one holds unless the made-up lower end lies
above it.
-/

namespace SpecMock.Core

open SpecMock.Library

inductive BoundedType where
  | integer
  | array
  | string

namespace BoundedType

def name : BoundedType → String
  | .integer => "integer"
  | .array => "array"
  | .string => "string"

def lower : BoundedType → String
  | .integer => "minimum"
  | .array => "minItems"
  | .string => "minLength"

def upper : BoundedType → String
  | .integer => "maximum"
  | .array => "maxItems"
  | .string => "maxLength"

/-- The bounds that a schema of the type may state. -/
def Admits (bound : Value) : BoundedType → Prop
  | .integer => ∃ number : Int, bound = .number (.int number) ∧ -2 ^ 63 ≤ number ∧ number < 2 ^ 63
  | .array => ∃ size : Nat, bound = .number (.int size) ∧ size ≤ 100
  | .string => ∃ size : Nat, bound = .number (.int size) ∧ size ≤ 10000

end BoundedType

/-- A schema of the type, whose value is generated by its type. -/
structure BoundedSchema (type : BoundedType) (keywords : List (String × Value)) : Prop where
  typed : keywords.lookup "type" = some (.string type.name)
  untold : ∀ key ∈ Faker.leadingKeywords, keywords.lookup key = none
  least : ∀ bound, keywords.lookup type.lower = some bound → type.Admits bound
  most : ∀ bound, keywords.lookup type.upper = some bound → type.Admits bound

section Bounds

variable (rules : SchemaRules) (type : BoundedType) (keywords : List (String × Value))

/-- A keyword holds of a value, if the schema has it. -/
def Obeys (keyword : String) (value : Value) : Prop :=
  ∀ argument, keywords.lookup keyword = some argument →
    Schema.keywordHolds rules .jsonSchema keywords keyword argument value = true

/-- A value is within the bounds that the schema states. -/
def WithinBounds (value : Value) : Prop :=
  Obeys rules keywords type.lower value ∧ Obeys rules keywords type.upper value

/-- The texts that a format or a pattern is generated as, none without them. -/
def fixedTexts {ρ φ : Type} (random : Randomness ρ φ) : Option (Set Value) :=
  match ((Value.object keywords).get "format").bind Value.asStr with
  | some format => some {.string (Faker.formatText format)}
  | none => ((((Value.object keywords).get "pattern").bind Value.asStr).bind fun pattern =>
      random.regex (Faker.asciiPattern pattern)).map fun sample =>
        Set.range fun stream => .string (sample stream).1

/--
An upper bound that stands alone is not below the lower end that is made up:
zero for integers, one for sizes.  Forbidden items leave an array empty, and a
format or a pattern has texts of its own, which must be within the bounds.
-/
def RoomBelow {ρ φ : Type} (random : Randomness ρ φ) : Prop :=
  match type with
  | .integer => keywords.lookup "minimum" = none →
      ∀ high : Int, keywords.lookup "maximum" = some (.number (.int high)) → 0 ≤ high
  | .array => keywords.lookup "minItems" = none →
      keywords.lookup "maxItems" = some (.number (.int 0)) →
        keywords.lookup "items" = some (.bool false)
  | .string =>
      match fixedTexts keywords random with
      | some texts => ∀ text ∈ texts, WithinBounds rules .string keywords text
      | none => keywords.lookup "minLength" = none →
          keywords.lookup "maxLength" ≠ some (.number (.int 0))

end Bounds

section Generated

open Faker Schema Library.Drawing

variable {ρ φ : Type} {random : Randomness ρ φ} {rules : SchemaRules}
  {keywords : List (String × Value)}

theorem obeys_of_absent {keyword : String} (absent : keywords.lookup keyword = none)
    (value : Value) : Obeys rules keywords keyword value := by
  intro argument found
  rw [absent] at found
  cases found

theorem obeys_iff {keyword : String} {argument : Value}
    (found : keywords.lookup keyword = some argument) (value : Value) :
    Obeys rules keywords keyword value ↔
      keywordHolds rules .jsonSchema keywords keyword argument value = true := by
  constructor
  · intro obeys
    exact obeys argument found
  · intro holds other same
    rw [found, Option.some.injEq] at same
    exact same ▸ holds

theorem obeys_of_valid {value : Value}
    (valid : valid rules .jsonSchema (.object keywords) value = true) (keyword : String) :
    Obeys rules keywords keyword value := by
  intro argument found
  rw [valid_object, List.all_eq_true] at valid
  exact valid (keyword, argument) (SortedEntries.mem_of_lookup found)

theorem obeys_minimum_iff {low number : Int}
    (found : keywords.lookup "minimum" = some (.number (.int low))) :
    Obeys rules keywords "minimum" (.number (.int number)) ↔ low ≤ number := by
  rw [obeys_iff found]
  change rules.atMost (.int low) (.int number) = true ↔ _
  rw [rules.atMost_int, decide_eq_true_eq]

theorem obeys_maximum_iff {high number : Int}
    (found : keywords.lookup "maximum" = some (.number (.int high))) :
    Obeys rules keywords "maximum" (.number (.int number)) ↔ number ≤ high := by
  rw [obeys_iff found]
  change rules.atMost (.int number) (.int high) = true ↔ _
  rw [rules.atMost_int, decide_eq_true_eq]

/-- The bounds of a schema that some number satisfies are in order. -/
theorem integers_ordered {low high : Int}
    (typed : keywords.lookup "type" = some (.string "integer"))
    (least : keywords.lookup "minimum" = some (.number (.int low)))
    (most : keywords.lookup "maximum" = some (.number (.int high))) {value : Value}
    (satisfied : valid rules .jsonSchema (.object keywords) value = true) : low ≤ high := by
  have above := obeys_of_valid satisfied "minimum" _ least
  have below := obeys_of_valid satisfied "maximum" _ most
  have hasType := obeys_of_valid satisfied "type" _ typed
  cases value with
  | number number =>
      have ordered := rules.atMost_trans (.int low) number (.int high) above below
      rwa [rules.atMost_int, decide_eq_true_eq] at ordered
  | null | bool | string | array | object => cases hasType

theorem integer_within_iff (bounded : BoundedSchema .integer keywords)
    (satisfiable : ∃ value, valid rules .jsonSchema (.object keywords) value = true) {number : Int}
    (above : (integerRange (.object keywords)).1 ≤ number)
    (below : number ≤ (integerRange (.object keywords)).2) :
    WithinBounds rules .integer keywords (.number (.int number)) ↔
      RoomBelow rules .integer keywords random := by
  obtain ⟨value, satisfied⟩ := satisfiable
  change Obeys rules keywords "minimum" _ ∧ Obeys rules keywords "maximum" _ ↔
    (keywords.lookup "minimum" = none → ∀ high : Int,
      keywords.lookup "maximum" = some (.number (.int high)) → 0 ≤ high)
  cases least : keywords.lookup "minimum" with
  | some bound =>
      obtain ⟨low, rfl, lowFits, lowBelow⟩ := bounded.least bound least
      have readLow := asI64_get least lowFits lowBelow
      simp only [integerRange, readLow, Option.getD_some] at above below
      refine iff_of_true ⟨(obeys_minimum_iff least).mpr above, ?_⟩ (by simp)
      cases most : keywords.lookup "maximum" with
      | none => exact obeys_of_absent most _
      | some bound =>
          obtain ⟨high, rfl, highFits, highBelow⟩ := bounded.most bound most
          have readHigh := asI64_get most highFits highBelow
          have ordered := integers_ordered bounded.typed least most satisfied
          simp only [readHigh, Option.getD_some, max_eq_left ordered] at below
          exact (obeys_maximum_iff most).mpr below
  | none =>
      have readLow : ((Value.object keywords).get "minimum").bind Value.asI64 = none := by
        rw [Value.get, least]
        rfl
      simp only [integerRange, readLow, Option.getD_none] at above below
      rw [and_iff_right (obeys_of_absent least _)]
      cases most : keywords.lookup "maximum" with
      | none => exact iff_of_true (obeys_of_absent most _) (by simp)
      | some bound =>
          obtain ⟨high, rfl, highFits, highBelow⟩ := bounded.most bound most
          have readHigh := asI64_get most highFits highBelow
          simp only [readHigh, Option.getD_some] at below
          rw [obeys_maximum_iff most]
          constructor
          · rintro within - high' ⟨rfl⟩
            exact above.trans within
          · intro room
            have positive := room rfl high rfl
            rwa [max_eq_left positive] at below

section Sizes

variable {lower upper : String} {ceiling : Nat} {size : Value → Option Nat}

/-- Keywords that bound the size of a value. -/
structure SizeKeywords (rules : SchemaRules) (keywords : List (String × Value))
    (lower upper : String) (ceiling : Nat) (size : Value → Option Nat) : Prop where
  atLeast : ∀ argument value, keywordHolds rules .jsonSchema keywords lower argument value =
    sizeObeys size (fun bound count => decide (bound ≤ count)) argument value
  atMost : ∀ argument value, keywordHolds rules .jsonSchema keywords upper argument value =
    sizeObeys size (fun bound count => decide (count ≤ bound)) argument value
  least : ∀ bound, keywords.lookup lower = some bound →
    ∃ stated : Nat, bound = .number (.int stated) ∧ stated ≤ ceiling
  most : ∀ bound, keywords.lookup upper = some bound →
    ∃ stated : Nat, bound = .number (.int stated) ∧ stated ≤ ceiling
  positive : 1 ≤ ceiling
  fits : ceiling < 2 ^ 64
  /-- Some value of the type is within the bounds. -/
  satisfiable : ∃ value measured, size value = some measured ∧
    Obeys rules keywords lower value ∧ Obeys rules keywords upper value

namespace SizeKeywords

variable (sizes : SizeKeywords rules keywords lower upper ceiling size)
include sizes

theorem obeys_lower_iff {low measured : Nat} {bound value : Value}
    (found : keywords.lookup lower = some bound) (read : bound.asU64 = some low)
    (measure : size value = some measured) :
    Obeys rules keywords lower value ↔ low ≤ measured := by
  rw [obeys_iff found, sizes.atLeast, sizeObeys, read, measure]
  exact decide_eq_true_iff

theorem obeys_upper_iff {high measured : Nat} {bound value : Value}
    (found : keywords.lookup upper = some bound) (read : bound.asU64 = some high)
    (measure : size value = some measured) :
    Obeys rules keywords upper value ↔ measured ≤ high := by
  rw [obeys_iff found, sizes.atMost, sizeObeys, read, measure]
  exact decide_eq_true_iff

/-- A bound that is stated is read. -/
theorem read {bound : Value} (stated : ∃ size : Nat, bound = .number (.int size) ∧ size ≤ ceiling) :
    ∃ size : Nat, bound = .number (.int size) ∧ size ≤ ceiling ∧ bound.asU64 = some size := by
  obtain ⟨size, same, small⟩ := stated
  refine ⟨size, same, small, ?_⟩
  rw [same]
  exact asU64_natCast (small.trans_lt sizes.fits)

/-- Two bounds that some value satisfies are in order. -/
theorem ordered {low high : Nat} {least most : Value} (lowest : keywords.lookup lower = some least)
    (highest : keywords.lookup upper = some most) (readLow : least.asU64 = some low)
    (readHigh : most.asU64 = some high) : low ≤ high := by
  obtain ⟨value, measured, measure, above, below⟩ := sizes.satisfiable
  have atLeast := (sizes.obeys_lower_iff lowest readLow measure).mp above
  have atMost := (sizes.obeys_upper_iff highest readHigh measure).mp below
  exact atLeast.trans atMost

/-- Without a bound the size that is read is none. -/
theorem within_iff {spread measured : Nat} (value : Value) (measure : size value = some measured)
    (inside : InRange (sizeRange lower upper spread ceiling (.object keywords)) measured) :
    (Obeys rules keywords lower value ∧ Obeys rules keywords upper value) ↔
      (keywords.lookup lower = none → keywords.lookup upper ≠ some (.number (.int 0))) := by
  obtain ⟨above, below⟩ := inside
  cases lowest : keywords.lookup lower with
  | some least =>
      obtain ⟨low, -, small, readLow⟩ := sizes.read (sizes.least least lowest)
      simp only [sizeRange, Value.get, lowest, Option.bind_some, readLow, Option.getD_some,
        min_eq_left small] at above below
      refine iff_of_true ⟨(sizes.obeys_lower_iff lowest readLow measure).mpr above, ?_⟩ (by simp)
      cases highest : keywords.lookup upper with
      | none => exact obeys_of_absent highest _
      | some most =>
          obtain ⟨high, -, large, readHigh⟩ := sizes.read (sizes.most most highest)
          have ordered := sizes.ordered lowest highest readLow readHigh
          simp only [highest, Option.bind_some, readHigh, Option.getD_some, min_eq_left large,
            max_eq_left ordered] at below
          exact (sizes.obeys_upper_iff highest readHigh measure).mpr below
  | none =>
      simp only [sizeRange, Value.get, lowest, Option.bind_none, Option.getD_none,
        min_eq_left sizes.positive] at above below
      rw [and_iff_right (obeys_of_absent lowest _)]
      cases highest : keywords.lookup upper with
      | none => exact iff_of_true (obeys_of_absent highest _) (by simp)
      | some most =>
          obtain ⟨high, same, large, readHigh⟩ := sizes.read (sizes.most most highest)
          have zero : some most = some (.number (.int 0)) ↔ high = 0 := by
            rw [same]
            simp
          simp only [highest, Option.bind_some, readHigh, Option.getD_some,
            min_eq_left large] at below
          rw [sizes.obeys_upper_iff highest readHigh measure, ne_eq, zero]
          constructor
          · intro within _
            omega
          · intro positive
            rwa [max_eq_left (Nat.one_le_iff_ne_zero.mpr (positive rfl))] at below

end SizeKeywords

end Sizes

theorem exists_array_of_valid (typed : keywords.lookup "type" = some (.string "array"))
    {value : Value} (satisfied : valid rules .jsonSchema (.object keywords) value = true) :
    ∃ items, value = .array items := by
  have hasType := obeys_of_valid satisfied "type" _ typed
  cases value with
  | array items => exact ⟨items, rfl⟩
  | number number => cases number <;> cases hasType
  | null | bool | string | object => cases hasType

theorem exists_string_of_valid (typed : keywords.lookup "type" = some (.string "string"))
    {value : Value} (satisfied : valid rules .jsonSchema (.object keywords) value = true) :
    ∃ text, value = .string text := by
  have hasType := obeys_of_valid satisfied "type" _ typed
  cases value with
  | string text => exact ⟨text, rfl⟩
  | number number => cases number <;> cases hasType
  | null | bool | array | object => cases hasType

theorem arraySizes (bounded : BoundedSchema .array keywords)
    (satisfiable : ∃ value, valid rules .jsonSchema (.object keywords) value = true) :
    SizeKeywords rules keywords "minItems" "maxItems" 100 itemCount where
  atLeast _ _ := rfl
  atMost _ _ := rfl
  least := bounded.least
  most := bounded.most
  positive := by decide
  fits := by decide
  satisfiable := by
    obtain ⟨value, satisfied⟩ := satisfiable
    obtain ⟨items, rfl⟩ := exists_array_of_valid bounded.typed satisfied
    exact ⟨_, items.length, rfl, obeys_of_valid satisfied _, obeys_of_valid satisfied _⟩

theorem stringSizes (bounded : BoundedSchema .string keywords)
    (satisfiable : ∃ value, valid rules .jsonSchema (.object keywords) value = true) :
    SizeKeywords rules keywords "minLength" "maxLength" 10000 textLength where
  atLeast _ _ := rfl
  atMost _ _ := rfl
  least := bounded.least
  most := bounded.most
  positive := by decide
  fits := by decide
  satisfiable := by
    obtain ⟨value, satisfied⟩ := satisfiable
    obtain ⟨text, rfl⟩ := exists_string_of_valid bounded.typed satisfied
    exact ⟨_, text.length, rfl, obeys_of_valid satisfied _, obeys_of_valid satisfied _⟩

/-- Where items are forbidden, the empty array is the only one there is. -/
theorem empty_within (typed : keywords.lookup "type" = some (.string "array"))
    (satisfiable : ∃ value, valid rules .jsonSchema (.object keywords) value = true)
    (forbidden : keywords.lookup "items" = some (.bool false)) :
    WithinBounds rules .array keywords (.array []) := by
  obtain ⟨value, satisfied⟩ := satisfiable
  obtain ⟨items, rfl⟩ := exists_array_of_valid typed satisfied
  have none : items.all (fun item => valid rules .jsonSchema (.bool false) item) = true :=
    obeys_of_valid satisfied "items" _ forbidden
  cases items with
  | nil => exact ⟨obeys_of_valid satisfied _, obeys_of_valid satisfied _⟩
  | cons first rest => cases none

theorem itemSchema_forbidden_iff :
    itemSchema (.object keywords) = .bool false ↔ keywords.lookup "items" = some (.bool false) := by
  rw [itemSchema, Value.get]
  cases keywords.lookup "items" with
  | none => exact iff_of_false (by simp) (by simp)
  | some items => simp

theorem ensures_trivially {α : Type} (program : Generator ρ α) :
    Ensures program (fun _ => True) True := by
  intro stream
  cases program stream <;> trivial

theorem generateString_of_free (free : fixedTexts keywords random = none) :
    generateString random (.object keywords) = generateLetters random (.object keywords) := by
  unfold fixedTexts at free
  unfold generateString
  cases format : ((Value.object keywords).get "format").bind Value.asStr with
  | some text =>
      rw [format] at free
      cases free
  | none =>
      rw [format] at free
      cases pattern : ((Value.object keywords).get "pattern").bind Value.asStr with
      | none => rfl
      | some text =>
          rw [pattern] at free
          dsimp only at free ⊢
          rw [Option.bind_some, Option.map_eq_none_iff] at free
          rw [free]

/-- With a format or a pattern, its texts are what is generated, and all of them are. -/
theorem generateString_of_fixed {texts : Set Value}
    (fixed : fixedTexts keywords random = some texts) :
    (∀ stream, ∃ text ∈ texts, ∃ next,
      generateString random (.object keywords) stream = .ok (text, next)) ∧
    ∀ text ∈ texts, ρ → ∃ stream next,
      generateString random (.object keywords) stream = .ok (text, next) := by
  unfold fixedTexts at fixed
  unfold generateString
  cases format : ((Value.object keywords).get "format").bind Value.asStr with
  | some name =>
      rw [format, Option.some.injEq] at fixed
      subst fixed
      constructor
      · exact fun stream => ⟨_, rfl, stream, rfl⟩
      · rintro _ rfl stream
        exact ⟨stream, stream, rfl⟩
  | none =>
      rw [format] at fixed
      cases pattern : ((Value.object keywords).get "pattern").bind Value.asStr with
      | none =>
          rw [pattern] at fixed
          cases fixed
      | some text =>
          rw [pattern] at fixed
          dsimp only at fixed ⊢
          rw [Option.bind_some] at fixed
          cases sampler : random.regex (asciiPattern text) with
          | none =>
              rw [sampler] at fixed
              cases fixed
          | some sample =>
              rw [sampler, Option.map_some, Option.some.injEq] at fixed
              subst fixed
              constructor
              · exact fun stream => ⟨_, ⟨stream, rfl⟩, (sample stream).2, rfl⟩
              · rintro _ ⟨stream, rfl⟩ -
                exact ⟨stream, (sample stream).2, rfl⟩

variable (lawful : random.Lawful) (generate : Value → Generator ρ Value)
include lawful

theorem ensures_integer (bounded : BoundedSchema .integer keywords)
    (satisfiable : ∃ value, valid rules .jsonSchema (.object keywords) value = true) :
    Ensures (generateTyped random generate (.object keywords)) (fun value =>
      WithinBounds rules .integer keywords value ↔ RoomBelow rules .integer keywords random)
      True := by
  rw [generateTyped, schemaType_of_typed bounded.typed]
  refine (ensures_generateInteger lawful _).mono ?_ id
  rintro _ ⟨number, rfl, above, below⟩
  exact integer_within_iff bounded satisfiable above below

theorem ensures_array (bounded : BoundedSchema .array keywords)
    (satisfiable : ∃ value, valid rules .jsonSchema (.object keywords) value = true) :
    Ensures (generateTyped random generate (.object keywords)) (fun value =>
      WithinBounds rules .array keywords value ↔ RoomBelow rules .array keywords random)
      True := by
  rw [generateTyped, schemaType_of_typed bounded.typed]
  refine (ensures_generateArray lawful fun _ => ensures_trivially _).mono ?_ id
  rintro _ ⟨items, rfl, -, inside⟩
  split at inside
  next forbidden =>
    subst inside
    rw [itemSchema_forbidden_iff] at forbidden
    exact iff_of_true (empty_within bounded.typed satisfiable forbidden) fun _ _ => forbidden
  next admitted =>
    have within := (arraySizes bounded satisfiable).within_iff (.array items) rfl inside
    rw [itemSchema_forbidden_iff] at admitted
    refine within.trans ⟨fun room absent empty => absurd empty (room absent), ?_⟩
    exact fun room absent empty => admitted (room absent empty)

/-- Letters are generated where neither a format nor a pattern says otherwise. -/
theorem ensures_letters (bounded : BoundedSchema .string keywords)
    (satisfiable : ∃ value, valid rules .jsonSchema (.object keywords) value = true)
    (free : fixedTexts keywords random = none) :
    Ensures (generateTyped random generate (.object keywords)) (fun value =>
      WithinBounds rules .string keywords value ↔ RoomBelow rules .string keywords random)
      True := by
  rw [generateTyped, schemaType_of_typed bounded.typed]
  change Ensures (generateString random (.object keywords)) _ _
  rw [generateString_of_free free]
  refine (ensures_generateLetters lawful _).mono ?_ id
  rintro _ ⟨text, rfl, inside⟩
  have within := (stringSizes bounded satisfiable).within_iff (.string text) rfl inside
  unfold RoomBelow
  rw [free]
  exact within

/--
Every value that is generated is within the bounds of its schema if and only
if an upper bound that stands alone leaves room, and the texts of a format or
a pattern are within the bounds.
-/
theorem bounds_honoured_iff {type : BoundedType} (bounded : BoundedSchema type keywords)
    (satisfiable : ∃ value, valid rules .jsonSchema (.object keywords) value = true)
    {remaining : Nat} (generates : ∃ stream result,
      generateWithRng random remaining (.object keywords) stream = .ok result) :
    (∀ stream value next,
      generateWithRng random remaining (.object keywords) stream = .ok (value, next) →
        WithinBounds rules type keywords value) ↔ RoomBelow rules type keywords random := by
  obtain ⟨start, result, generated⟩ := generates
  have undeclared := declaredValue_of_untold bounded.untold
  cases remaining with
  | zero =>
      rw [generateWithRng_zero undeclared] at generated
      cases generated
  | succ remaining =>
      rw [generateWithRng_succ undeclared, generateUndeclared_of_untold bounded.untold]
        at generated ⊢
      have decides : Ensures (generateTyped random (generateWithRng random remaining)
          (.object keywords)) (fun value =>
            WithinBounds rules type keywords value ↔ RoomBelow rules type keywords random) True →
          ((∀ stream value next, generateTyped random (generateWithRng random remaining)
            (.object keywords) stream = .ok (value, next) →
              WithinBounds rules type keywords value) ↔
                RoomBelow rules type keywords random) := by
        intro ensured
        constructor
        · intro within
          have one := ensured start
          rw [generated] at one
          exact one.mp (within start _ _ generated)
        · intro room stream value next run
          have one := ensured stream
          rw [run] at one
          exact one.mpr room
      cases type with
      | integer => exact decides (ensures_integer lawful _ bounded satisfiable)
      | array => exact decides (ensures_array lawful _ bounded satisfiable)
      | string =>
          cases fixed : fixedTexts keywords random with
          | none => exact decides (ensures_letters lawful _ bounded satisfiable fixed)
          | some texts =>
              obtain ⟨drawn, each⟩ := generateString_of_fixed fixed
              rw [generateTyped, schemaType_of_typed bounded.typed]
              change (∀ stream value next,
                generateString random (.object keywords) stream = _ → _) ↔ _
              unfold RoomBelow
              rw [fixed]
              constructor
              · intro within text member
                obtain ⟨stream, next, run⟩ := each text member start
                exact within stream text next run
              · intro within stream value next run
                obtain ⟨text, member, last, same⟩ := drawn stream
                rw [run, Except.ok.injEq, Prod.mk.injEq] at same
                exact same.1 ▸ within text member

end Generated

/-- Integers from five on. -/
def atLeastFive : List (String × Value) :=
  [("minimum", .number (.int 5)), ("type", .string "integer")]

theorem atLeastFive_bounded : BoundedSchema .integer atLeastFive := by
  refine ⟨rfl, by decide, ?_, ?_⟩
  · rintro _ ⟨rfl⟩
    exact ⟨5, rfl, by decide, by decide⟩
  · rintro _ ⟨⟩

/-- A lower bound that stands alone is honoured, and a value is generated. -/
theorem atLeastFive_honoured :
    (∃ result, Faker.generateWithRng (Randomness.fixed 0) 33 (.object atLeastFive) () =
      .ok result) ∧
    ∀ stream value next,
      Faker.generateWithRng (Randomness.fixed 0) 33 (.object atLeastFive) stream =
        .ok (value, next) → WithinBounds .integers .integer atLeastFive value := by
  refine ⟨⟨_, rfl⟩, (bounds_honoured_iff (Randomness.fixed_lawful 0) atLeastFive_bounded
    ⟨.number (.int 5), by decide⟩ ⟨(), _, rfl⟩).mpr ?_⟩
  intro absent
  cases absent

/-- The only value that is generated for integers up to minus five is zero. -/
theorem zero_above_maximum :
    let keywords := [("maximum", Value.number (.int (-5))), ("type", .string "integer")]
    Schema.valid .integers .jsonSchema (.object keywords) (.number (.int (-5))) = true ∧
      Faker.generateWithRng (Randomness.fixed 0) 33 (.object keywords) () =
        .ok (.number (.int 0), ()) ∧
      ¬ WithinBounds .integers .integer keywords (.number (.int 0)) := by
  intro keywords
  refine ⟨by decide, rfl, fun within => ?_⟩
  have below := within.2 (.number (.int (-5))) rfl
  exact absurd below (by decide)

end SpecMock.Core
