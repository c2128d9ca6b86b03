import SpecMock.Core.Faker
import SpecMock.Library.Draws

/-!
# Draws within their range

The generator asks its random numbers only to lie in the range of the draw.
-/

namespace SpecMock.Core

open SpecMock.Library

/-- Every integer is drawn from its range. -/
def Randomness.Lawful {ρ φ : Type} (random : Randomness ρ φ) : Prop :=
  ∀ low high stream, low ≤ high →
    low ≤ (random.randomRange low high stream).1 ∧ (random.randomRange low high stream).1 ≤ high

/-- Draws of one fixed integer wherever the range has it, and of its lower end elsewhere. -/
def Randomness.fixed (wanted : Int) : Randomness Unit Unit where
  seedFromU64 _ := ()
  randomRange low high _ := (if low ≤ wanted ∧ wanted ≤ high then wanted else low, ())
  randomBool _ _ := (false, ())
  regex _ := none
  floatRange _ _ _ := ((), ())
  float _ := ()
  addFloat _ _ := ()
  ltFloat _ _ := false
  floatValue _ := .number (.int 0)

theorem Randomness.fixed_lawful (wanted : Int) : (Randomness.fixed wanted).Lawful := by
  intro low high stream ordered
  change low ≤ (if _ then _ else _) ∧ (if _ then _ else _) ≤ high
  split
  next inside => exact inside
  next => exact ⟨le_refl low, ordered⟩

namespace Faker

open Drawing

variable {ρ φ : Type} {random : Randomness ρ φ} {fails : Prop}

theorem ensures_randomRange (lawful : random.Lawful) {low high : Int} (ordered : low ≤ high) :
    Ensures (randomRange random low high) (fun drawn => low ≤ drawn ∧ drawn ≤ high) fails :=
  fun stream => lawful low high stream ordered

theorem ensures_randomIndex (lawful : random.Lawful) {bound : Nat} (positive : 0 < bound) :
    Ensures (randomIndex random bound) (fun index => index < bound) fails := by
  refine (ensures_randomRange lawful (by omega)).bind fun drawn inside => ?_
  exact ensures_pure (by omega)

theorem ensures_randomBool (percent : Nat) :
    Ensures (randomBool random percent) (fun _ => True) fails := fun _ => trivial

/-- Every item of a number of draws is one of the draws. -/
theorem ensures_drawTimes {α : Type} {draw : Generator ρ α} {holds : α → Prop}
    (each : Ensures draw holds fails) (count : Nat) :
    Ensures (drawTimes draw count)
      (fun items => items.length = count ∧ ∀ item ∈ items, holds item) fails := by
  induction count with
  | zero => exact ensures_pure ⟨rfl, by simp⟩
  | succ count ih =>
      refine each.bind fun first valid => ?_
      refine ih.bind fun rest others => ?_
      exact ensures_pure ⟨by simp [others.1], List.forall_mem_cons.mpr ⟨valid, others.2⟩⟩

theorem generateWithRng_succ {schema : Value} (undeclared : declaredValue schema = none)
    (remaining : Nat) : generateWithRng random (remaining + 1) schema =
      generateUndeclared random (generateWithRng random remaining) schema := by
  rw [generateWithRng, undeclared]

/-- Without any levels left a schema that declares no value is too deep. -/
theorem generateWithRng_zero {schema : Value} (undeclared : declaredValue schema = none) :
    generateWithRng random 0 schema = throw "maximum schema recursion depth reached" := by
  rw [generateWithRng, undeclared]

/-- A schema that declares no value is refused without a level left. -/
theorem ensures_levels {schema : Value} {holds : Value → Prop} {depth : Nat}
    (undeclared : declaredValue schema = none)
    (each : ∀ remaining, Ensures (generateUndeclared random (generateWithRng random remaining)
      schema) holds (remaining + 1 ≤ depth)) (remaining : Nat) :
    Ensures (generateWithRng random remaining schema) holds (remaining ≤ depth) := by
  cases remaining with
  | zero =>
      rw [generateWithRng_zero undeclared]
      exact ensures_throw (Nat.zero_le depth)
  | succ remaining =>
      rw [generateWithRng_succ undeclared]
      exact each remaining

theorem getD_mem {items : List Value} {index : Nat} (inside : index < items.length) :
    items.getD index .null ∈ items := by
  rw [List.getD_eq_getElem?_getD, List.getElem?_eq_getElem inside]
  exact List.getElem_mem inside

theorem filter_nonempty {items : List Value} (nonempty : items ≠ []) :
    (some items).filter (fun items => !items.isEmpty) = some items := by
  rw [Option.filter_some, if_pos (by simp [nonempty])]

/-- One of the items is drawn. -/
theorem ensures_drawItem (lawful : random.Lawful) {items : List Value} (nonempty : items ≠ []) :
    Ensures (randomIndex random items.length) (fun index => items.getD index .null ∈ items)
      fails :=
  (ensures_randomIndex lawful (List.length_pos_iff.mpr nonempty)).mono
    (fun _ inside => getD_mem inside) id

/-- The range of sizes that the generator draws from, given its spread and ceiling. -/
def sizeRange (lower upper : String) (spread ceiling : Nat) (schema : Value) : Nat × Nat :=
  let low := min (((schema.get lower).bind Value.asU64).getD 1) ceiling
  (low, max (min (((schema.get upper).bind Value.asU64).getD (low + spread)) ceiling) low)

theorem sizeRange_ordered (lower upper : String) (spread ceiling : Nat) (schema : Value) :
    (sizeRange lower upper spread ceiling schema).1 ≤
      (sizeRange lower upper spread ceiling schema).2 := le_max_right _ _

theorem asU64_natCast {size : Nat} (fits : size < 2 ^ 64) :
    Value.asU64 (.number (.int size)) = some size := by
  have inside : 0 ≤ (size : Int) ∧ (size : Int) < 2 ^ 64 :=
    ⟨Int.natCast_nonneg size, by exact_mod_cast fits⟩
  unfold Value.asU64
  exact if_pos inside

theorem asI64_int {number : Int} (above : -2 ^ 63 ≤ number) (below : number < 2 ^ 63) :
    Value.asI64 (.number (.int number)) = some number := by
  unfold Value.asI64
  exact if_pos ⟨above, below⟩

/-- The integer of a keyword, as the generator reads it. -/
theorem asI64_get {keywords : List (String × Value)} {key : String} {number : Int}
    (found : keywords.lookup key = some (.number (.int number))) (above : -2 ^ 63 ≤ number)
    (below : number < 2 ^ 63) :
    ((Value.object keywords).get key).bind Value.asI64 = some number := by
  rw [Value.get, found]
  exact asI64_int above below

/-- A size within a range. -/
def InRange (range : Nat × Nat) (size : Nat) : Prop := range.1 ≤ size ∧ size ≤ range.2

/-- A size is drawn from its range. -/
theorem ensures_drawSize (lawful : random.Lawful) (lower upper : String) (spread ceiling : Nat)
    (schema : Value) :
    let range := sizeRange lower upper spread ceiling schema
    Ensures (randomRange random range.1 range.2) (fun drawn => InRange range drawn.toNat)
      fails := by
  intro range
  have ordered : range.1 ≤ range.2 := sizeRange_ordered _ _ _ _ _
  refine (ensures_randomRange lawful (Int.ofNat_le.mpr ordered)).mono ?_ id
  rintro drawn ⟨above, below⟩
  exact ⟨by omega, by omega⟩

/-- The schema of the items. -/
def itemSchema (schema : Value) : Value :=
  (schema.get "items").getD (.object [("type", .string "string")])

/-- Unless items are forbidden, their number is in its range. -/
theorem ensures_generateArray (lawful : random.Lawful) {generate : Value → Generator ρ Value}
    {schema : Value} {holds : Value → Prop}
    (each : itemSchema schema ≠ .bool false → Ensures (generate (itemSchema schema)) holds fails) :
    Ensures (generateArray random generate schema)
      (fun value => ∃ items, value = .array items ∧ (∀ item ∈ items, holds item) ∧
        if itemSchema schema = .bool false then items = []
        else InRange (sizeRange "minItems" "maxItems" 2 100 schema) items.length) fails := by
  refine (ensures_drawSize lawful "minItems" "maxItems" 2 100 schema).bind fun drawn inside => ?_
  change Ensures (if itemSchema schema = .bool false then _ else _) _ _
  by_cases forbidden : itemSchema schema = .bool false
  · rw [if_pos forbidden]
    exact ensures_pure ⟨[], rfl, by simp, if_pos forbidden ▸ rfl⟩
  · rw [if_neg forbidden]
    refine (ensures_drawTimes (each forbidden) drawn.toNat).bind fun items drawnItems => ?_
    obtain ⟨count, valid⟩ := drawnItems
    exact ensures_pure ⟨items, rfl, valid, by rw [if_neg forbidden, count]; exact inside⟩

/-- The number of letters is in its range. -/
theorem ensures_generateLetters (lawful : random.Lawful) (schema : Value) :
    Ensures (generateLetters random schema) (fun value => ∃ text, value = .string text ∧
      InRange (sizeRange "minLength" "maxLength" 8 10000 schema) text.length) fails := by
  refine (ensures_drawSize lawful "minLength" "maxLength" 8 10000 schema).bind
    fun drawn inside => ?_
  have letter : Ensures (randomRange random 97 122) (fun code => 97 ≤ code ∧ code ≤ 122) fails :=
    ensures_randomRange lawful (by decide)
  refine (ensures_drawTimes letter drawn.toNat).bind fun codes drawnCodes => ?_
  refine ensures_pure ⟨_, rfl, ?_⟩
  rw [String.length_ofList, List.length_map, drawnCodes.1]
  exact inside

/-- The least and the greatest integer that may be drawn. -/
def integerRange (schema : Value) : Int × Int :=
  let low := ((schema.get "minimum").bind Value.asI64).getD 0
  (low, max (((schema.get "maximum").bind Value.asI64).getD (saturatingAdd low 100)) low)

theorem ensures_generateInteger (lawful : random.Lawful) (schema : Value) :
    Ensures (generateInteger random schema) (fun value => ∃ number, value = .number (.int number) ∧
      (integerRange schema).1 ≤ number ∧ number ≤ (integerRange schema).2) fails := by
  refine (ensures_randomRange lawful (le_max_right _ (integerRange schema).1)).bind
    fun number inside => ?_
  exact ensures_pure ⟨number, rfl, inside⟩

end Faker

end SpecMock.Core
