import SpecMock.Core.SchemaMeaning
import SpecMock.Library.MergedEntries

/-!
# Normalised schemas

The schemas of an OpenAPI 3.0 document are rewritten to plain JSON Schema: a
nullable type becomes a list of types with `null`.  The rewriting descends
into the subschemas of every keyword and keeps what each schema means.
-/

namespace SpecMock.Runtime

open SpecMock.Library SpecMock.Core

/-- A type that also admits null. -/
def withNull : Value → Value
  | .string name => .array [.string name, .string "null"]
  | .array types => if .string "null" ∈ types then .array types
      else .array (types ++ [.string "null"])
  | other => other

/-- `nullable: true` next to a type moves into the type. -/
def consumeNullable (members : List (String × Value)) : List (String × Value) :=
  if Schema.isNullable members && (members.lookup "type").isSome then
    (members.map fun member =>
      (member.1, if member.1 = "type" then withNull member.2 else member.2)).filter
        fun member => member.1 != "nullable"
  else members

mutual

/-- `normalize_schema`; without the transformation only the subschemas are visited. -/
def normalizeSchema (useNullableTransform : Bool) : Value → Value
  | .object members =>
      let nested := normalizeMembers useNullableTransform members
      .object (if useNullableTransform then consumeNullable nested else nested)
  | other => other

/-- The subschemas of a schema object, keyword by keyword. -/
def normalizeMembers (useNullableTransform : Bool) :
    List (String × Value) → List (String × Value)
  | [] => []
  | (keyword, argument) :: rest =>
      (keyword,
        match keyword with
        | "properties" | "$defs" | "definitions" =>
            match argument with
            | .object schemas => .object (normalizeEach useNullableTransform schemas)
            | other => other
        | "items" | "additionalProperties" | "not" => normalizeSchema useNullableTransform argument
        | "allOf" | "anyOf" | "oneOf" =>
            match argument with
            | .array schemas => .array (normalizeItems useNullableTransform schemas)
            | other => other
        | _ => argument) :: normalizeMembers useNullableTransform rest

def normalizeEach (useNullableTransform : Bool) : List (String × Value) → List (String × Value)
  | [] => []
  | (name, schema) :: rest =>
      (name, normalizeSchema useNullableTransform schema) :: normalizeEach useNullableTransform rest

def normalizeItems (useNullableTransform : Bool) : List Value → List Value
  | [] => []
  | schema :: rest =>
      normalizeSchema useNullableTransform schema :: normalizeItems useNullableTransform rest

end

example : normalizeSchema true (.object [("nullable", .bool true), ("type", .string "string")]) =
    .object [("type", .array [.string "string", .string "null"])] := by decide

/-- What the rewriting makes of the argument of a keyword. -/
def normalizeArgument (useNullableTransform : Bool) (keyword : String) (argument : Value) : Value :=
  match keyword with
  | "properties" | "$defs" | "definitions" =>
      match argument with
      | .object schemas => .object (schemas.map fun entry =>
          (entry.1, normalizeSchema useNullableTransform entry.2))
      | other => other
  | "items" | "additionalProperties" | "not" => normalizeSchema useNullableTransform argument
  | "allOf" | "anyOf" | "oneOf" =>
      match argument with
      | .array schemas => .array (schemas.map (normalizeSchema useNullableTransform))
      | other => other
  | _ => argument

section Rewriting

variable (useNullableTransform : Bool)

theorem normalizeEach_eq (schemas : List (String × Value)) :
    normalizeEach useNullableTransform schemas =
      schemas.map fun entry => (entry.1, normalizeSchema useNullableTransform entry.2) := by
  induction schemas with
  | nil => rfl
  | cons entry rest ih => rw [normalizeEach, ih, List.map_cons]

theorem normalizeItems_eq (schemas : List Value) :
    normalizeItems useNullableTransform schemas =
      schemas.map (normalizeSchema useNullableTransform) := by
  induction schemas with
  | nil => rfl
  | cons schema rest ih => rw [normalizeItems, ih, List.map_cons]

theorem normalizeMembers_eq (members : List (String × Value)) :
    normalizeMembers useNullableTransform members = members.map fun member =>
      (member.1, normalizeArgument useNullableTransform member.1 member.2) := by
  induction members with
  | nil => rfl
  | cons member rest ih =>
      obtain ⟨keyword, argument⟩ := member
      unfold normalizeMembers
      rw [ih, List.map_cons]
      congr 2
      unfold normalizeArgument
      dsimp only
      split <;> simp only [normalizeEach_eq, normalizeItems_eq]

end Rewriting

section Meaning

variable (rules : SchemaRules)

/-- A schema is valid for the same values before and after the rewriting. -/
def KeepsMeaning (schema : Value) : Prop :=
  ∀ value, Schema.valid rules .jsonSchema (normalizeSchema true schema) value =
    Schema.valid rules .openApi30 schema value

theorem all_congr_of_mem {α : Type} {items : List α} {first second : α → Bool}
    (same : ∀ item ∈ items, first item = second item) : items.all first = items.all second := by
  rw [Bool.eq_iff_iff, List.all_eq_true, List.all_eq_true]
  exact forall₂_congr fun item member => by rw [same item member]

variable {rules} in
theorem map_valid_normalized {schemas : List Value}
    (kept : ∀ schema ∈ schemas, KeepsMeaning rules schema) (value : Value) :
    (schemas.map (normalizeSchema true)).map (fun schema =>
        Schema.valid rules .jsonSchema schema value) =
      schemas.map fun schema => Schema.valid rules .openApi30 schema value := by
  rw [List.map_map]
  exact List.map_congr_left fun schema member => kept schema member value

/-- Every keyword but `type` holds of the same values after the rewriting. -/
theorem keywordHolds_normalized {siblings others : List (String × Value)} {keyword : String}
    {argument : Value} (value : Value) (untyped : keyword ≠ "type")
    (names : Schema.declaredNames others = Schema.declaredNames siblings)
    (kept : Schema.HoldsWithin (KeepsMeaning rules) argument) :
    Schema.keywordHolds rules .jsonSchema others keyword (normalizeArgument true keyword argument)
        value =
      Schema.keywordHolds rules .openApi30 siblings keyword argument value := by
  have listed : ∀ schemas, argument = .array schemas → _ :=
    fun schemas same => map_valid_normalized (kept.items schemas same) value
  unfold Schema.keywordHolds
  split
  · -- properties
    cases argument with
    | object schemas =>
        simp only [normalizeArgument, List.all_map]
        apply all_congr_of_mem
        intro entry member
        have same := kept.members schemas rfl entry member
        simp only [Function.comp_apply, Schema.memberHolds]
        exact congrArg (Option.all · _) (funext same)
    | _ => rfl
  · -- items
    cases value with
    | array items => exact all_congr_of_mem fun item _ => kept.itself item
    | _ => rfl
  · -- additionalProperties
    cases value with
    | object members =>
        apply all_congr_of_mem
        intro member _
        rw [names]
        exact congrArg _ (kept.itself member.2)
    | _ => rfl
  · -- not
    exact congrArg _ (kept.itself value)
  · -- allOf
    cases argument with
    | array schemas =>
        have same := listed schemas rfl
        simpa only [normalizeArgument, List.all_map, Function.id_comp] using
          congrArg (List.all · id) same
    | _ => rfl
  · -- anyOf
    cases argument with
    | array schemas =>
        have same := listed schemas rfl
        simpa only [normalizeArgument, List.any_map, Function.id_comp] using
          congrArg (List.any · id) same
    | _ => rfl
  · -- oneOf
    cases argument with
    | array schemas => exact congrArg (List.count true · == 1) (listed schemas rfl)
    | _ => rfl
  · unfold normalizeArgument
    split
    · contradiction
    · -- $defs
      rfl
    · -- definitions
      rfl
    all_goals first | contradiction | exact Schema.assertion_congr rules untyped _ _ _ _

theorem hasType_null (value : Value) :
    Schema.hasType rules "null" value = decide (value = .null) := by
  cases value with
  | number number => cases number <;> simp [Schema.hasType]
  | _ => simp [Schema.hasType]

/-- The type of a nullable schema admits null besides. -/
theorem admitsType_withNull (argument value : Value) :
    Schema.admitsType rules (withNull argument) value =
      (Schema.admitsType rules argument value || decide (value = .null)) := by
  have null := hasType_null rules value
  cases argument with
  | string name => simp [withNull, Schema.admitsType, Value.asStr, null]
  | array types =>
      by_cases present : .string "null" ∈ types
      · -- The list already admits null.
        rw [withNull, if_pos present]
        by_cases isNull : value = .null
        · have admitted : Schema.admitsType rules (.array types) value = true := by
            refine List.any_eq_true.mpr ⟨.string "null", present, ?_⟩
            simpa [Value.asStr, isNull] using null
          rw [admitted, Bool.true_or]
        · simp [isNull]
      · rw [withNull, if_neg present]
        simp [Schema.admitsType, Value.asStr, null]
  | _ => simp [withNull, Schema.admitsType]

theorem isNullable_nested (members : List (String × Value)) :
    Schema.isNullable (normalizeMembers true members) = Schema.isNullable members := by
  unfold Schema.isNullable
  rw [normalizeMembers_eq, SortedEntries.lookup_mapKeyed]
  cases members.lookup "nullable" <;> rfl

theorem typed_nested (members : List (String × Value)) :
    ((normalizeMembers true members).lookup "type").isSome = (members.lookup "type").isSome := by
  rw [normalizeMembers_eq, SortedEntries.lookup_mapKeyed, Option.isSome_map]

theorem declaredNames_nested (members : List (String × Value)) :
    Schema.declaredNames (normalizeMembers true members) = Schema.declaredNames members := by
  unfold Schema.declaredNames
  rw [normalizeMembers_eq, SortedEntries.lookup_mapKeyed]
  cases members.lookup "properties" with
  | none => rfl
  | some argument =>
      cases argument with
      | object schemas => simp [normalizeArgument, Value.asObject]
      | _ => rfl

theorem declaredNames_consumed (members : List (String × Value)) :
    Schema.declaredNames (consumeNullable members) = Schema.declaredNames members := by
  unfold consumeNullable
  split
  · unfold Schema.declaredNames
    rw [SortedEntries.lookup_filter (fun key => key != "nullable") (by decide),
      SortedEntries.lookup_mapKeyed (fun key argument =>
        if key = "type" then withNull argument else argument)]
    cases members.lookup "properties" <;> rfl
  · rfl

/-- The keywords that are left where `nullable` was consumed. -/
theorem all_consumed {members : List (String × Value)}
    (nullable : Schema.isNullable members = true) (typed : (members.lookup "type").isSome = true)
    (holds : String × Value → Bool) :
    (consumeNullable (normalizeMembers true members)).all holds = members.all fun member =>
      member.1 == "nullable" || holds (member.1,
        if member.1 = "type" then withNull (normalizeArgument true member.1 member.2)
        else normalizeArgument true member.1 member.2) := by
  rw [consumeNullable, isNullable_nested, typed_nested, nullable, typed, Bool.true_and, if_pos rfl,
    normalizeMembers_eq, List.map_map, List.all_filter, List.all_map]
  apply all_congr_of_mem
  intro member _
  simp only [Function.comp_apply, bne, Bool.not_not]

/-- Elsewhere all keywords are left. -/
theorem all_unconsumed {members : List (String × Value)}
    (other : ¬ (Schema.isNullable members = true ∧ (members.lookup "type").isSome = true))
    (holds : String × Value → Bool) :
    (consumeNullable (normalizeMembers true members)).all holds = members.all fun member =>
      holds (member.1, normalizeArgument true member.1 member.2) := by
  rw [consumeNullable, isNullable_nested, typed_nested, if_neg (by simpa using other),
    normalizeMembers_eq, List.all_map]
  rfl

/-- A schema object keeps its meaning if its subschemas do. -/
theorem keepsMeaning_object {members : List (String × Value)}
    (kept : ∀ member ∈ members, Schema.HoldsWithin (KeepsMeaning rules) member.2) :
    KeepsMeaning rules (.object members) := by
  intro value
  have names : Schema.declaredNames (consumeNullable (normalizeMembers true members)) =
      Schema.declaredNames members :=
    (declaredNames_consumed _).trans (declaredNames_nested members)
  have other : ∀ member ∈ members, member.1 ≠ "type" → _ := fun member held untyped =>
    keywordHolds_normalized rules value untyped names (kept member held)
  rw [normalizeSchema, if_pos rfl, Schema.valid_object, Schema.valid_object]
  by_cases nullable : Schema.isNullable members = true ∧ (members.lookup "type").isSome = true
  · rw [all_consumed nullable.1 nullable.2]
    apply all_congr_of_mem
    intro member held
    by_cases typed : member.1 = "type"
    · -- The type admits null now.
      have admitted := admitsType_withNull rules member.2 value
      simpa [typed, normalizeArgument, Schema.keywordHolds, Schema.assertion, nullable.1] using
        admitted
    · by_cases keyword : member.1 = "nullable"
      · simp [keyword, Schema.keywordHolds, Schema.assertion]
      · have absent : (member.1 == "nullable") = false := by simpa using keyword
        rw [absent, Bool.false_or, if_neg typed]
        exact other member held typed
  · rw [all_unconsumed nullable]
    apply all_congr_of_mem
    intro member held
    by_cases typed : member.1 = "type"
    · have present : (members.lookup "type").isSome = true :=
        List.lookup_isSome_iff.mpr ⟨member, held, by simp [typed]⟩
      have unmarked : Schema.isNullable members = false := by
        simpa [present] using nullable
      simp [typed, normalizeArgument, Schema.keywordHolds, Schema.assertion, unmarked]
    · exact other member held typed

/-- Every schema keeps its meaning. -/
theorem keepsMeaning (schema : Value) : KeepsMeaning rules schema := by
  induction schema using Schema.subschemaInduction with
  | plain schema unkeyed =>
      intro value
      cases schema with
      | object keywords => exact absurd rfl (unkeyed keywords)
      | _ => rfl
  | object keywords kept => exact keepsMeaning_object rules kept

end Meaning

/-- Nothing changes in an argument whose schemas are fixed. -/
theorem normalizeArgument_of_fixed {useNullableTransform : Bool} {argument : Value}
    (fixed : Schema.HoldsWithin
      (fun schema => normalizeSchema useNullableTransform schema = schema) argument)
    (keyword : String) : normalizeArgument useNullableTransform keyword argument = argument := by
  unfold normalizeArgument
  split
  case h_4 | h_5 | h_6 => exact fixed.itself
  case h_10 => rfl
  case h_1 | h_2 | h_3 =>
    cases argument with
    | object schemas =>
        have same : (schemas.map fun entry =>
            (entry.1, normalizeSchema useNullableTransform entry.2)) = schemas.map id :=
          List.map_congr_left fun entry member =>
            Prod.ext rfl (fixed.members schemas rfl entry member)
        exact congrArg Value.object (same.trans schemas.map_id)
    | _ => rfl
  case h_7 | h_8 | h_9 =>
    cases argument with
    | array schemas =>
        have same : schemas.map (normalizeSchema useNullableTransform) = schemas.map id :=
          List.map_congr_left (fixed.items schemas rfl)
        exact congrArg Value.array (same.trans schemas.map_id)
    | _ => rfl

theorem normalizeMembers_of_fixed {useNullableTransform : Bool} {members : List (String × Value)}
    (fixed : ∀ member ∈ members,
      normalizeArgument useNullableTransform member.1 member.2 = member.2) :
    normalizeMembers useNullableTransform members = members := by
  have same : members.map (fun member =>
      (member.1, normalizeArgument useNullableTransform member.1 member.2)) = members.map id :=
    List.map_congr_left fun member held => Prod.ext rfl (fixed member held)
  rw [normalizeMembers_eq, same, List.map_id]

/-- Without the transformation nothing is rewritten. -/
theorem normalizeSchema_false (schema : Value) : normalizeSchema false schema = schema := by
  induction schema using Schema.subschemaInduction with
  | plain schema unkeyed =>
      cases schema with
      | object keywords => exact absurd rfl (unkeyed keywords)
      | _ => rfl
  | object keywords fixed =>
      refine congrArg Value.object (normalizeMembers_of_fixed ?_)
      exact fun member held => normalizeArgument_of_fixed (fixed member held) member.1

theorem normalizeArgument_idem {argument : Value}
    (idem : Schema.HoldsWithin (fun schema =>
      normalizeSchema true (normalizeSchema true schema) = normalizeSchema true schema) argument)
    (keyword : String) :
    normalizeArgument true keyword (normalizeArgument true keyword argument) =
      normalizeArgument true keyword argument := by
  unfold normalizeArgument
  split
  case h_4 | h_5 | h_6 => exact idem.itself
  case h_10 => split <;> first | contradiction | rfl
  case h_1 | h_2 | h_3 =>
    cases argument with
    | object schemas =>
        simp only [List.map_map]
        refine congrArg Value.object (List.map_congr_left fun entry member => ?_)
        exact Prod.ext rfl (idem.members schemas rfl entry member)
    | _ => rfl
  case h_7 | h_8 | h_9 =>
    cases argument with
    | array schemas =>
        simp only [List.map_map]
        exact congrArg Value.array (List.map_congr_left (idem.items schemas rfl))
    | _ => rfl

/-- What is consumed is gone. -/
theorem consumeNullable_idem (members : List (String × Value)) :
    consumeNullable (consumeNullable members) = consumeNullable members := by
  by_cases nullable : (Schema.isNullable members && (members.lookup "type").isSome) = true
  · have gone : Schema.isNullable (consumeNullable members) = false := by
      have absent : (consumeNullable members).lookup "nullable" = none := by
        rw [consumeNullable, if_pos nullable, List.lookup_eq_none_iff]
        intro member held
        have named : member.1 ≠ "nullable" := bne_iff_ne.mp (List.mem_filter.mp held).2
        exact bne_iff_ne.mpr named.symm
      simp [Schema.isNullable, absent]
    conv_lhs => rw [consumeNullable, gone, Bool.false_and, if_neg Bool.false_ne_true]
  · have kept : consumeNullable members = members := by rw [consumeNullable, if_neg nullable]
    rw [kept, kept]

/-- Consuming `nullable` changes no subschema. -/
theorem mem_consumeNullable {members : List (String × Value)} {member : String × Value}
    (held : member ∈ consumeNullable members) : member ∈ members ∨ member.1 = "type" := by
  unfold consumeNullable at held
  split at held
  · obtain ⟨found, same⟩ := List.mem_map.mp (List.mem_filter.mp held).1
    by_cases typed : found.1 = "type"
    · exact .inr (same.2 ▸ typed)
    · rw [if_neg typed] at same
      exact .inl (same.2 ▸ same.1)
  · exact .inl held

/-- The rewriting is done in one pass. -/
theorem normalizeSchema_idem (schema : Value) :
    normalizeSchema true (normalizeSchema true schema) = normalizeSchema true schema := by
  induction schema using Schema.subschemaInduction with
  | plain schema unkeyed =>
      cases schema with
      | object keywords => exact absurd rfl (unkeyed keywords)
      | _ => rfl
  | object keywords idem =>
      have fixed : normalizeMembers true (consumeNullable (normalizeMembers true keywords)) =
          consumeNullable (normalizeMembers true keywords) := by
        apply normalizeMembers_of_fixed
        intro member held
        rcases mem_consumeNullable held with nested | typed
        · rw [normalizeMembers_eq] at nested
          obtain ⟨found, present, rfl⟩ := List.mem_map.mp nested
          exact normalizeArgument_idem (idem found present) found.1
        · rw [typed]
          rfl
      change Value.object (consumeNullable (normalizeMembers true (consumeNullable
        (normalizeMembers true keywords)))) = Value.object (consumeNullable _)
      rw [fixed, consumeNullable_idem]

/--
The normalised schema is valid for exactly the values that the OpenAPI 3.0
schema is valid for, a second pass changes nothing, and neither does a pass
without the transformation.
-/
theorem normalizeSchema_faithful (rules : SchemaRules) (schema : Value) :
    (∀ value, Schema.valid rules .jsonSchema (normalizeSchema true schema) value =
      Schema.valid rules .openApi30 schema value) ∧
    (∀ useNullableTransform, normalizeSchema useNullableTransform
        (normalizeSchema useNullableTransform schema) =
      normalizeSchema useNullableTransform schema) ∧
    normalizeSchema false schema = schema := by
  refine ⟨keepsMeaning rules schema, ?_, normalizeSchema_false schema⟩
  intro useNullableTransform
  cases useNullableTransform with
  | false => rw [normalizeSchema_false, normalizeSchema_false]
  | true => exact normalizeSchema_idem schema

end SpecMock.Runtime
