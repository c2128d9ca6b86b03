import SpecMock.Core.GeneratedValues

/-!
# Values that a document can hold

A value that was read from a document has its members in the order of their
keys, each key once, its integers fit a machine word, and it nests to some
depth.  What is generated from a schema of such a document is such a value, and
nests no deeper than the schema.
-/

namespace SpecMock.Core

open SpecMock.Library Drawing

/-- A value as a document holds it: with floats of the given texts, nested to a depth at most. -/
inductive Value.Held (floats : String → Prop) : Nat → Value → Prop where
  | null {depth : Nat} : Held floats depth .null
  | bool {depth : Nat} (flag : Bool) : Held floats depth (.bool flag)
  | int {depth : Nat} {value : Int} (above : -2 ^ 63 ≤ value) (below : value < 2 ^ 64) :
      Held floats depth (.number (.int value))
  | float {depth : Nat} {text : String} (written : floats text) :
      Held floats depth (.number (.float text))
  | string {depth : Nat} (text : String) : Held floats depth (.string text)
  | array {depth : Nat} {items : List Value} (each : ∀ item ∈ items, Held floats depth item) :
      Held floats (depth + 1) (.array items)
  | object {depth : Nat} {members : List (String × Value)} (sorted : SortedEntries.Sorted members)
      (each : ∀ member ∈ members, Held floats depth member.2) :
      Held floats (depth + 1) (.object members)

namespace Value.Held

variable {floats : String → Prop} {depth : Nat}

theorem succ {value : Value} (held : value.Held floats depth) : value.Held floats (depth + 1) := by
  induction held with
  | null => exact .null
  | bool flag => exact .bool flag
  | int above below => exact .int above below
  | float written => exact .float written
  | string text => exact .string text
  | array _ ih => exact .array ih
  | object sorted _ ih => exact .object sorted ih

theorem items {items : List Value} (held : (Value.array items).Held floats depth) :
    ∀ item ∈ items, item.Held floats depth := by
  cases held with
  | array each => exact fun item member => (each item member).succ

theorem members {members : List (String × Value)}
    (held : (Value.object members).Held floats (depth + 1)) :
    ∀ member ∈ members, member.2.Held floats depth := by
  cases held with
  | object _ each => exact each

/-- An object nests. -/
theorem object_depth {members : List (String × Value)}
    (held : (Value.object members).Held floats depth) : ∃ inner, depth = inner + 1 := by
  cases held with
  | object _ _ => exact ⟨_, rfl⟩

theorem lookup {keywords : List (String × Value)} {key : String} {value : Value}
    (held : (Value.object keywords).Held floats (depth + 1))
    (found : keywords.lookup key = some value) : value.Held floats depth :=
  held.members (key, value) (SortedEntries.mem_of_lookup found)

/-- The schemas of properties nest less than the schema. -/
theorem declaredProperty {keywords : List (String × Value)}
    (held : (Value.object keywords).Held floats (depth + 1)) :
    ∀ property ∈ declaredProperties (.object keywords), property.2.Held floats depth := by
  intro property listed
  unfold declaredProperties Value.get at listed
  dsimp only at listed
  cases found : keywords.lookup "properties" with
  | none =>
      rw [found] at listed
      cases listed
  | some declared =>
      rw [found, Option.bind_some] at listed
      cases declared with
      | object properties => exact (held.lookup found).succ.members property listed
      | _ => cases listed

/-- Held values are put under their keys. -/
theorem insert {members : List (String × Value)}
    (held : (Value.object members).Held floats (depth + 1)) (key : String) {value : Value}
    (new : value.Held floats depth) :
    (Value.object (SortedEntries.insert key value members)).Held floats (depth + 1) := by
  cases held with
  | object sorted each =>
      refine .object (SortedEntries.sorted_insert key value sorted) fun member listed => ?_
      rcases SortedEntries.mem_insert listed with rfl | earlier
      · exact new
      · exact each member earlier

end Value.Held

namespace Faker

variable {ρ φ : Type} {random : Randomness ρ φ} {floats : String → Prop} {fails : Prop}

theorem held_generateProperties {generate : Value → Generator ρ Value} (required : List String)
    {properties : List (String × Value)} {depth : Nat}
    (each : ∀ property ∈ properties,
      Ensures (generate property.2) (Value.Held floats depth) fails) :
    Ensures (generateProperties random generate required properties)
      (fun members => (Value.object members).Held floats (depth + 1)) fails := by
  refine ensures_foldlM (fun _ members => (Value.object members).Held floats (depth + 1))
    (.object .nil nofun) ?_
  intro done property left members split held
  have listed : property ∈ properties := by simp [split]
  have taken : Ensures (do
        let value ← generate property.2
        return SortedEntries.insert property.1 value members)
      (fun members => (Value.object members).Held floats (depth + 1)) fails := by
    refine (each property listed).bind fun value new => ?_
    exact ensures_pure (held.insert property.1 new)
  exact ensures_optional (ensures_randomBool 35) taken fun _ => held

/-- By whatever keywords, a string is generated as a text. -/
theorem ensures_generateString (lawful : random.Lawful) (schema : Value) :
    Ensures (generateString random schema) (fun value => ∃ text, value = .string text) fails := by
  have letters : Ensures (generateLetters random schema) (fun value => ∃ text, value = .string text)
      fails := (ensures_generateLetters lawful schema).mono (fun _ ⟨text, same, _⟩ => ⟨text, same⟩) id
  unfold generateString
  split
  · exact ensures_pure ⟨_, rfl⟩
  · split
    · exact letters
    · split
      · exact letters
      · exact fun stream => ⟨_, rfl⟩

theorem integerRange_fits (schema : Value) :
    -2 ^ 63 ≤ (integerRange schema).1 ∧ (integerRange schema).2 < 2 ^ 63 := by
  have read : ∀ key number, (schema.get key).bind Value.asI64 = some number →
      -2 ^ 63 ≤ number ∧ number < 2 ^ 63 := by
    intro key number found
    obtain ⟨value, _, read⟩ := Option.bind_eq_some_iff.mp found
    unfold Value.asI64 at read
    split at read
    · split at read
      next inside =>
        cases read
        exact inside
      next => cases read
    · cases read
  have low : -2 ^ 63 ≤ ((schema.get "minimum").bind Value.asI64).getD 0 ∧
      ((schema.get "minimum").bind Value.asI64).getD 0 < 2 ^ 63 := by
    cases found : (schema.get "minimum").bind Value.asI64 with
    | none => exact ⟨by decide, by decide⟩
    | some number => exact read _ number found
  unfold integerRange saturatingAdd
  dsimp only
  generalize ((schema.get "minimum").bind Value.asI64).getD 0 = least at low ⊢
  refine ⟨low.1, ?_⟩
  cases found : (schema.get "maximum").bind Value.asI64 with
  | none =>
      rw [Option.getD_none]
      omega
  | some number =>
      have high := (read _ number found).2
      rw [Option.getD_some]
      omega

/--
What is generated from a schema of plain nodes is held where the schema is: it
is made anew or stands in the schema.
-/
theorem held_generateWithRng (lawful : random.Lawful) {rules : SchemaRules} {schema : Value}
    (generatable : Generatable rules schema) {depth : Nat} (held : schema.Held floats depth)
    (remaining : Nat) :
    Ensures (generateWithRng random remaining schema) (Value.Held floats depth)
      (remaining ≤ Schema.nesting schema) := by
  induction generatable generalizing remaining depth with
  | object keywords node distinct named closed each ih =>
      obtain ⟨inner, rfl⟩ := held.object_depth
      refine ensures_untold (untold_of_typed node (by decide)) (fun remaining => ?_) remaining
      rw [generateTyped, schemaType_of_typed node.typed,
        generateObject_of_closed (.object keywords) closed]
      have members : Ensures (generateProperties random (generateWithRng random remaining)
          (requiredSet (.object keywords)) (declaredProperties (.object keywords)))
          (fun members => (Value.object members).Held floats (inner + 1))
          (remaining + 1 ≤ Schema.nesting (.object keywords)) :=
        held_generateProperties _ fun property listed =>
          (ih property listed (held.declaredProperty property listed) remaining).mono
            (fun _ held => held) fun deep => deep.trans_lt (Schema.nesting_lt_property listed)
      exact members.bind fun members held => ensures_pure held
  | array keywords items low high node described lower upper ordered bounded each ih =>
      obtain ⟨inner, rfl⟩ := held.object_depth
      refine ensures_untold (untold_of_typed node (by decide)) (fun remaining => ?_) remaining
      rw [generateTyped, schemaType_of_typed node.typed]
      have same : itemSchema (.object keywords) = items := by
        rw [itemSchema, Value.get, described, Option.getD_some]
      have drawn : Ensures (generateWithRng random remaining (itemSchema (.object keywords)))
          (Value.Held floats inner) (remaining + 1 ≤ Schema.nesting (.object keywords)) := by
        rw [same]
        exact (ih (held.lookup described) remaining).mono (fun _ held => held)
          fun deep => deep.trans_lt (Schema.nesting_lt_items described)
      refine (ensures_generateArray lawful fun _ => drawn).mono ?_ id
      rintro _ ⟨values, rfl, each, _⟩
      exact .array each
  | integer keywords low high node lower upper fits ordered bounded =>
      refine ensures_untold (untold_of_typed node (by decide)) (fun remaining => ?_) remaining
      rw [generateTyped, schemaType_of_typed node.typed]
      refine (ensures_generateInteger lawful _).mono ?_ id
      rintro _ ⟨number, rfl, above, below⟩
      have inside := integerRange_fits (.object keywords)
      exact .int (by omega) (by omega)
  | string keywords low high node lower upper ordered bounded =>
      refine ensures_untold (untold_of_typed node (by decide)) (fun remaining => ?_) remaining
      rw [generateTyped, schemaType_of_typed node.typed]
      refine (ensures_generateString lawful _).mono ?_ id
      rintro _ ⟨text, rfl⟩
      exact .string text
  | boolean keywords node =>
      refine ensures_untold (untold_of_typed node (by decide)) (fun remaining => ?_) remaining
      rw [generateTyped, schemaType_of_typed node.typed]
      exact (ensures_randomBool 50).bind fun drawn _ => ensures_pure (.bool drawn)
  | null keywords node =>
      refine ensures_untold (untold_of_typed node (by decide)) (fun remaining => ?_) remaining
      rw [generateTyped, schemaType_of_typed node.typed]
      exact ensures_pure .null
  | enum keywords values node listed nonempty typed =>
      obtain ⟨inner, rfl⟩ := held.object_depth
      refine (ensures_enum lawful node listed nonempty remaining _).mono ?_ id
      exact fun value member => ((held.lookup listed).items value member).succ
  | const keywords value node given typed =>
      obtain ⟨inner, rfl⟩ := held.object_depth
      refine (ensures_const node given remaining _).mono ?_ id
      rintro _ rfl
      exact (held.lookup given).succ
  | anyOf keywords variants node listed nonempty each ih =>
      obtain ⟨inner, rfl⟩ := held.object_depth
      have variant : Ensures (generateWithRng random remaining (.object keywords))
          (fun value => ∃ variant ∈ variants, value.Held floats inner)
          (remaining ≤ Schema.nesting (.object keywords)) := by
        refine ensures_anyOf lawful node listed nonempty (fun variant member remaining => ?_)
          remaining
        exact (ih variant member ((held.lookup listed).items variant member) remaining).mono
          (fun _ held => held) fun deep =>
            deep.trans_lt (Schema.nesting_lt_combined (by decide) listed member)
      refine variant.mono ?_ id
      rintro value ⟨_, _, held⟩
      exact held.succ

end Faker

end SpecMock.Core
