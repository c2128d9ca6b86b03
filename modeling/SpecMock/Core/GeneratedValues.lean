import SpecMock.Core.LawfulDraws
import SpecMock.Core.SchemaMeaning

/-!
# Generated values are valid

A schema of plain nodes bounds everything the generator draws, so every value
that is generated is valid, and only a schema that nests too deep is refused.
-/

namespace SpecMock.Core

open SpecMock.Library

/-! ## Plain nodes -/

/-- Keywords that neither the generator nor a validator reads. -/
def annotations : List String := ["title", "description", "deprecated", "readOnly", "writeOnly"]

/-- A schema object with some keywords at most, besides annotations. -/
structure PlainNode (keywords : List (String × Value)) (allowed : List String) : Prop where
  distinct : (keywords.map Prod.fst).Nodup
  known : ∀ entry ∈ keywords, entry.1 ∈ allowed ++ annotations

/-- A plain node of a type. -/
structure TypedNode (name : String) (keywords : List (String × Value)) (allowed : List String) :
    Prop extends PlainNode keywords ("type" :: allowed) where
  typed : keywords.lookup "type" = some (.string name)

/-- The properties that a schema declares. -/
def declaredProperties (schema : Value) : List (String × Value) :=
  ((schema.get "properties").bind Value.asObject).getD []

/-- The schemas whose values are generated as they are described. -/
inductive Generatable (rules : SchemaRules) : Value → Prop where
  | object (keywords : List (String × Value))
      (node : TypedNode "object" keywords ["properties", "required", "additionalProperties"])
      (distinct : ((declaredProperties (.object keywords)).map Prod.fst).Nodup)
      (named : ∀ name ∈ Faker.requiredSet (.object keywords),
        name ∈ (declaredProperties (.object keywords)).map Prod.fst)
      (closed : ∀ additional, keywords.lookup "additionalProperties" = some additional →
        additional = .bool false)
      (each : ∀ property ∈ declaredProperties (.object keywords), Generatable rules property.2) :
      Generatable rules (.object keywords)
  | array (keywords : List (String × Value)) (items : Value) (low high : Nat)
      (node : TypedNode "array" keywords ["items", "minItems", "maxItems"])
      (described : keywords.lookup "items" = some items)
      (lower : keywords.lookup "minItems" = some (.number (.int low)))
      (upper : keywords.lookup "maxItems" = some (.number (.int high)))
      (ordered : low ≤ high) (bounded : high ≤ 100) (each : Generatable rules items) :
      Generatable rules (.object keywords)
  | integer (keywords : List (String × Value)) (low high : Int)
      (node : TypedNode "integer" keywords ["minimum", "maximum"])
      (lower : keywords.lookup "minimum" = some (.number (.int low)))
      (upper : keywords.lookup "maximum" = some (.number (.int high)))
      (fits : -2 ^ 63 ≤ low) (ordered : low ≤ high) (bounded : high < 2 ^ 63) :
      Generatable rules (.object keywords)
  | string (keywords : List (String × Value)) (low high : Nat)
      (node : TypedNode "string" keywords ["minLength", "maxLength"])
      (lower : keywords.lookup "minLength" = some (.number (.int low)))
      (upper : keywords.lookup "maxLength" = some (.number (.int high)))
      (ordered : low ≤ high) (bounded : high ≤ 10000) : Generatable rules (.object keywords)
  | boolean (keywords : List (String × Value)) (node : TypedNode "boolean" keywords []) :
      Generatable rules (.object keywords)
  | null (keywords : List (String × Value)) (node : TypedNode "null" keywords []) :
      Generatable rules (.object keywords)
  | enum (keywords : List (String × Value)) (values : List Value)
      (node : PlainNode keywords ["enum", "type"])
      (listed : keywords.lookup "enum" = some (.array values)) (nonempty : values ≠ [])
      (typed : ∀ type, keywords.lookup "type" = some type →
        ∀ value ∈ values, Schema.admitsType rules type value = true) :
      Generatable rules (.object keywords)
  | const (keywords : List (String × Value)) (value : Value)
      (node : PlainNode keywords ["const", "type"])
      (given : keywords.lookup "const" = some value)
      (typed : ∀ type, keywords.lookup "type" = some type →
        Schema.admitsType rules type value = true) :
      Generatable rules (.object keywords)
  | anyOf (keywords : List (String × Value)) (variants : List Value)
      (node : PlainNode keywords ["anyOf"])
      (listed : keywords.lookup "anyOf" = some (.array variants)) (nonempty : variants ≠ [])
      (each : ∀ variant ∈ variants, Generatable rules variant) :
      Generatable rules (.object keywords)

namespace Schema

/-! ## Nesting -/

mutual

/-- The levels below a schema, by way of its properties, items and variants. -/
def nesting : Value → Nat
  | .object keywords => nestingOfKeywords keywords
  | _ => 0
termination_by structural schema => schema

def nestingOfKeywords : List (String × Value) → Nat
  | [] => 0
  | (keyword, argument) :: rest =>
      max (match keyword with
        | "properties" =>
            match argument with
            | .object declared => nestingOfMembers declared
            | _ => 0
        | "anyOf" | "oneOf" | "allOf" =>
            match argument with
            | .array parts => nestingOfParts parts
            | _ => 0
        | "items" => nesting argument + 1
        | _ => 0) (nestingOfKeywords rest)
termination_by structural keywords => keywords

def nestingOfMembers : List (String × Value) → Nat
  | [] => 0
  | (_, schema) :: rest => max (nesting schema + 1) (nestingOfMembers rest)
termination_by structural declared => declared

def nestingOfParts : List Value → Nat
  | [] => 0
  | part :: rest => max (nesting part + 1) (nestingOfParts rest)
termination_by structural parts => parts

end

theorem nestingOfKeywords_le {keywords : List (String × Value)} {entry : String × Value}
    (member : entry ∈ keywords) : nestingOfKeywords [entry] ≤ nestingOfKeywords keywords := by
  induction keywords with
  | nil => cases member
  | cons first rest ih =>
      obtain ⟨keyword, argument⟩ := first
      rcases List.mem_cons.mp member with rfl | later
      · unfold nestingOfKeywords
        exact max_le (le_max_left _ _) (Nat.zero_le _)
      · refine (ih later).trans ?_
        rw [nestingOfKeywords.eq_def (_ :: rest)]
        exact le_max_right _ _

theorem nesting_lt_members {declared : List (String × Value)} {entry : String × Value}
    (member : entry ∈ declared) : nesting entry.2 < nestingOfMembers declared := by
  induction declared with
  | nil => cases member
  | cons first rest ih =>
      obtain ⟨name, schema⟩ := first
      rw [nestingOfMembers]
      rcases List.mem_cons.mp member with rfl | later
      · exact le_max_left (_ + 1) _
      · exact (ih later).trans_le (le_max_right (_ + 1) _)

theorem nesting_lt_parts {parts : List Value} {part : Value} (member : part ∈ parts) :
    nesting part < nestingOfParts parts := by
  induction parts with
  | nil => cases member
  | cons first rest ih =>
      rw [nestingOfParts]
      rcases List.mem_cons.mp member with rfl | later
      · exact le_max_left (_ + 1) _
      · exact (ih later).trans_le (le_max_right (_ + 1) _)

theorem nesting_lt_property {keywords : List (String × Value)} {property : String × Value}
    (member : property ∈ declaredProperties (.object keywords)) :
    nesting property.2 < nesting (.object keywords) := by
  unfold declaredProperties at member
  cases declared : (Value.object keywords).get "properties" with
  | none => simp [declared] at member
  | some argument =>
      cases argument with
      | object properties =>
          rw [declared] at member
          have listed := SortedEntries.mem_of_lookup declared
          exact (nesting_lt_members member).trans_le
            ((le_max_left _ _).trans (nestingOfKeywords_le listed))
      | null | bool | number | string | array => simp [declared, Value.asObject] at member

theorem nesting_lt_items {keywords : List (String × Value)} {items : Value}
    (described : keywords.lookup "items" = some items) :
    nesting items < nesting (.object keywords) :=
  (le_max_left _ _).trans (nestingOfKeywords_le (SortedEntries.mem_of_lookup described))

theorem nesting_lt_combined {keywords : List (String × Value)} {key : String}
    (combines : key ∈ ["anyOf", "oneOf", "allOf"]) {parts : List Value}
    (listed : keywords.lookup key = some (.array parts)) {part : Value} (member : part ∈ parts) :
    nesting part < nesting (.object keywords) := by
  have within : nestingOfParts parts ≤ nestingOfKeywords [(key, .array parts)] := by
    simp only [List.mem_cons, List.not_mem_nil, or_false] at combines
    rcases combines with rfl | rfl | rfl <;> exact le_max_left _ _
  have below := within.trans (nestingOfKeywords_le (SortedEntries.mem_of_lookup listed))
  exact (nesting_lt_parts member).trans_le below

end Schema

/-! ## Lookups in a plain node -/

namespace PlainNode

variable {keywords : List (String × Value)} {allowed : List String}

theorem lookup_none (node : PlainNode keywords allowed) (key : String)
    (unknown : key ∉ allowed ++ annotations) : keywords.lookup key = none := by
  rw [List.lookup_eq_none_iff]
  intro entry member
  rw [bne_iff_ne]
  rintro rfl
  exact unknown (node.known entry member)

theorem lookup_of_mem (node : PlainNode keywords allowed) {entry : String × Value}
    (member : entry ∈ keywords) : keywords.lookup entry.1 = some entry.2 :=
  SortedEntries.lookup_of_mem node.distinct member

/-- Each keyword that the node may have must hold; annotations always do. -/
theorem valid_of_lookups (node : PlainNode keywords allowed) (rules : SchemaRules) {value : Value}
    (holds : ∀ key argument, keywords.lookup key = some argument → key ∈ allowed →
      Schema.keywordHolds rules .jsonSchema keywords key argument value = true) :
    Schema.valid rules .jsonSchema (.object keywords) value = true := by
  rw [Schema.valid_object, List.all_eq_true]
  intro entry member
  rcases List.mem_append.mp (node.known entry member) with listed | annotation
  · exact holds entry.1 entry.2 (node.lookup_of_mem member) listed
  · unfold Schema.keywordHolds
    simp only [annotations, List.mem_cons, List.not_mem_nil, or_false] at annotation
    rcases annotation with same | same | same | same | same <;> rw [same] <;> rfl

/-- A node of one keyword and a type, which may be missing, holds what both allow. -/
theorem valid_of_keyword {key : String} (node : PlainNode keywords [key, "type"])
    (rules : SchemaRules) {argument value : Value} (given : keywords.lookup key = some argument)
    (holds : Schema.keywordHolds rules .jsonSchema keywords key argument value = true)
    (typed : ∀ type, keywords.lookup "type" = some type →
      Schema.admitsType rules type value = true) :
    Schema.valid rules .jsonSchema (.object keywords) value = true := by
  refine node.valid_of_lookups rules fun name found listed allowed => ?_
  simp only [List.mem_cons, List.not_mem_nil, or_false] at allowed
  rcases allowed with rfl | rfl
  · cases listed.symm.trans given
    exact holds
  · change (Schema.admitsType rules found value || _) = true
    rw [typed found listed, Bool.true_or]

end PlainNode

/-- A node of a type holds what has the type and satisfies its keywords. -/
theorem TypedNode.valid_of_keywords {name : String} {keywords : List (String × Value)}
    {allowed : List String} (node : TypedNode name keywords allowed) (rules : SchemaRules)
    {value : Value} (has : Schema.hasType rules name value = true)
    (each : ∀ key ∈ allowed, ∃ argument, keywords.lookup key = some argument ∧
      Schema.keywordHolds rules .jsonSchema keywords key argument value = true) :
    Schema.valid rules .jsonSchema (.object keywords) value = true := by
  refine node.valid_of_lookups rules fun key argument found listed => ?_
  rcases List.mem_cons.mp listed with rfl | member
  · cases found.symm.trans node.typed
    change (Schema.hasType rules name value || _) = true
    rw [has, Bool.true_or]
  · obtain ⟨known, given, holds⟩ := each key member
    cases found.symm.trans given
    exact holds

/-! ## Generation at a plain node -/

namespace Faker

/-- The keywords by which a value is generated before the type is read. -/
def leadingKeywords : List String :=
  ["example", "examples", "default", "oneOf", "anyOf", "allOf", "enum", "const"]

section Nodes

open Drawing Schema

variable {ρ φ : Type} {random : Randomness ρ φ} {rules : SchemaRules}
  {keywords : List (String × Value)}

theorem declaredValue_of_plain {allowed : List String} (node : PlainNode keywords allowed)
    (apart : ∀ key ∈ ["example", "examples", "default"], key ∉ allowed ++ annotations) :
    declaredValue (.object keywords) = none := by
  simp only [List.forall_mem_cons] at apart
  simp [declaredValue, Value.get, node.lookup_none _ apart.1, node.lookup_none _ apart.2.1,
    node.lookup_none _ apart.2.2.1]

/-- Without a leading keyword a value is generated by its type. -/
theorem generateUndeclared_of_untold
    (untold : ∀ key ∈ leadingKeywords, keywords.lookup key = none)
    (generate : Value → Generator ρ Value) :
    generateUndeclared random generate (.object keywords) =
      generateTyped random generate (.object keywords) := by
  simp only [leadingKeywords, List.forall_mem_cons] at untold
  obtain ⟨-, -, -, oneOf, anyOf, allOf, enum, const, -⟩ := untold
  simp [generateUndeclared, variantsOf, nonemptyArray, Value.get, oneOf, anyOf, allOf, enum, const]

theorem declaredValue_of_untold (untold : ∀ key ∈ leadingKeywords, keywords.lookup key = none) :
    declaredValue (.object keywords) = none := by
  simp only [leadingKeywords, List.forall_mem_cons] at untold
  obtain ⟨example', examples, default, -⟩ := untold
  simp [declaredValue, Value.get, example', examples, default]

/-- Such a schema is refused without a level left, and else generated by its type. -/
theorem ensures_untold {holds : Value → Prop}
    (untold : ∀ key ∈ leadingKeywords, keywords.lookup key = none) {depth : Nat}
    (each : ∀ remaining, Ensures (generateTyped random (generateWithRng random remaining)
      (.object keywords)) holds (remaining + 1 ≤ depth)) (remaining : Nat) :
    Ensures (generateWithRng random remaining (.object keywords)) holds (remaining ≤ depth) := by
  refine ensures_levels (declaredValue_of_untold untold) (fun remaining => ?_) remaining
  rw [generateUndeclared_of_untold untold]
  exact each remaining

theorem untold_of_typed {name : String} {allowed : List String}
    (node : TypedNode name keywords allowed)
    (apart : ∀ key ∈ leadingKeywords, key ∉ "type" :: allowed ++ annotations) :
    ∀ key ∈ leadingKeywords, keywords.lookup key = none :=
  fun key member => node.lookup_none key (apart key member)

theorem schemaType_of_typed {name : String}
    (typed : keywords.lookup "type" = some (.string name)) :
    schemaType (.object keywords) = some name := by
  simp only [schemaType, Value.get, typed]

/-- Members come from the properties, and no required property is left out. -/
structure MembersOf (holds : Value → Value → Prop) (required : List String)
    (properties members : List (String × Value)) : Prop where
  declared : ∀ member ∈ members, ∃ schema, (member.1, schema) ∈ properties ∧
    holds schema member.2
  present : ∀ property ∈ properties, property.1 ∈ required →
    property.1 ∈ members.map Prod.fst

namespace MembersOf

variable {holds : Value → Value → Prop} {required : List String}
  {properties members : List (String × Value)} {property : String × Value}

theorem skip (so : MembersOf holds required properties members) (optional : property.1 ∉ required) :
    MembersOf holds required (properties ++ [property]) members := by
  constructor
  · intro member listed
    obtain ⟨schema, declared, valid⟩ := so.declared member listed
    exact ⟨schema, List.mem_append_left _ declared, valid⟩
  · intro other listed needed
    rcases List.mem_append.mp listed with earlier | last
    · exact so.present other earlier needed
    · exact absurd (List.mem_singleton.mp last ▸ needed) optional

theorem insert (so : MembersOf holds required properties members) {value : Value}
    (valid : holds property.2 value) : MembersOf holds required (properties ++ [property])
      (SortedEntries.insert property.1 value members) := by
  constructor
  · intro member listed
    rcases SortedEntries.mem_insert listed with rfl | earlier
    · exact ⟨property.2, List.mem_append_right _ List.mem_cons_self, valid⟩
    · obtain ⟨schema, declared, holds⟩ := so.declared member earlier
      exact ⟨schema, List.mem_append_left _ declared, holds⟩
  · intro other listed needed
    rw [SortedEntries.mem_keys_insert]
    rcases List.mem_append.mp listed with earlier | last
    · exact .inr (so.present other earlier needed)
    · exact .inl (congrArg Prod.fst (List.mem_singleton.mp last))

end MembersOf

theorem ensures_generateProperties (random : Randomness ρ φ)
    {generate : Value → Generator ρ Value} (holds : Value → Value → Prop) {fails : Prop}
    (required : List String) {properties : List (String × Value)}
    (each : ∀ property ∈ properties, Ensures (generate property.2) (holds property.2) fails) :
    Ensures (generateProperties random generate required properties)
      (MembersOf holds required properties) fails := by
  refine ensures_foldlM (MembersOf holds required) ⟨by simp, by simp⟩ ?_
  intro done property left members split so
  have listed : property ∈ properties := by simp [split]
  have taken : Ensures (do
        let value ← generate property.2
        return SortedEntries.insert property.1 value members)
      (MembersOf holds required (done ++ [property])) fails := by
    refine (each property listed).bind fun value valid => ?_
    exact ensures_pure (so.insert valid)
  exact ensures_optional (ensures_randomBool 35) taken so.skip

/-- Without additional properties the members of an object are its properties. -/
theorem generateObject_of_closed {generate : Value → Generator ρ Value} (schema : Value)
    (closed : ∀ additional, schema.get "additionalProperties" = some additional →
      additional = .bool false) :
    generateObject random generate schema =
      (do
        let members ← generateProperties random generate (requiredSet schema)
          (declaredProperties schema)
        return .object members) := by
  refine congrArg (generateProperties random generate (requiredSet schema)
    (declaredProperties schema) >>= ·) (funext fun members => ?_)
  cases additional : schema.get "additionalProperties" with
  | none => rfl
  | some value =>
      rw [closed value additional]

/-- The properties hold if each one that the value has is valid. -/
theorem properties_hold {argument value : Value}
    (found : keywords.lookup "properties" = some argument)
    (each : ∀ property ∈ declaredProperties (.object keywords),
      memberHolds rules .jsonSchema value property = true) :
    keywordHolds rules .jsonSchema keywords "properties" argument value = true := by
  cases argument with
  | object properties =>
      have own : declaredProperties (.object keywords) = properties := by
        simp [declaredProperties, Value.get, found, Value.asObject]
      exact List.all_eq_true.mpr (own ▸ each)
  | null | bool | number | string | array => rfl

/-- The required names hold if each one is the name of a member. -/
theorem required_holds {argument : Value} {members : List (String × Value)}
    (found : keywords.lookup "required" = some argument)
    (present : ∀ name ∈ requiredSet (.object keywords), (members.lookup name).isSome) :
    keywordHolds rules .jsonSchema keywords "required" argument (.object members) = true := by
  cases argument with
  | array names =>
      change names.all _ = true
      rw [List.all_eq_true]
      intro entry listed
      cases name : entry.asStr with
      | none => rfl
      | some needed =>
          refine present needed ?_
          simp only [requiredSet, Value.get, found, Option.bind_some, Value.asArray,
            Option.getD_some, List.mem_filterMap]
          exact ⟨entry, listed, name⟩
  | null | bool | number | string | object => rfl

/-- An object whose members come from the properties is valid. -/
theorem valid_of_membersOf {members : List (String × Value)}
    (node : TypedNode "object" keywords ["properties", "required", "additionalProperties"])
    (distinct : ((declaredProperties (.object keywords)).map Prod.fst).Nodup)
    (named : ∀ name ∈ requiredSet (.object keywords),
      name ∈ (declaredProperties (.object keywords)).map Prod.fst)
    (closed : ∀ additional, keywords.lookup "additionalProperties" = some additional →
      additional = .bool false)
    (so : MembersOf (fun schema value => valid rules .jsonSchema schema value = true)
      (requiredSet (.object keywords)) (declaredProperties (.object keywords)) members) :
    valid rules .jsonSchema (.object keywords) (.object members) = true := by
  refine node.valid_of_lookups rules fun key argument found allowed => ?_
  simp only [List.mem_cons, List.not_mem_nil, or_false] at allowed
  rcases allowed with rfl | rfl | rfl | rfl
  · -- The type.
    rw [node.typed] at found
    cases found
    rfl
  · -- The properties: each member is valid under its own schema.
    refine properties_hold found fun property listed => ?_
    unfold memberHolds
    cases member : (Value.object members).get property.1 with
    | none => rfl
    | some value =>
        obtain ⟨schema, declared, holds⟩ :=
          so.declared (property.1, value) (SortedEntries.mem_of_lookup member)
        have same := SortedEntries.lookup_of_mem distinct declared
        rw [SortedEntries.lookup_of_mem distinct listed, Option.some.injEq] at same
        exact same ▸ holds
  · -- The required names.
    refine required_holds found fun name needed => ?_
    obtain ⟨property, declared, rfl⟩ := List.mem_map.mp (named name needed)
    obtain ⟨member, inside, key⟩ := List.mem_map.mp (so.present property declared needed)
    rw [List.lookup_isSome_iff]
    exact ⟨member, inside, by simp [key]⟩
  · -- There are no additional members.
    rw [closed argument found]
    change members.all _ = true
    rw [List.all_eq_true]
    intro member listed
    obtain ⟨schema, declared, -⟩ := so.declared member listed
    have known : member.1 ∈ declaredNames keywords := List.mem_map.mpr ⟨_, declared, rfl⟩
    rw [decide_eq_true known, Bool.true_or]

/-- Two sizes in order and below the ceiling are the range. -/
theorem sizeRange_of_bounds (spread : Nat) {lower upper : String} {ceiling low high : Nat}
    {least most : Value} (lowest : keywords.lookup lower = some least)
    (highest : keywords.lookup upper = some most) (readLow : least.asU64 = some low)
    (readHigh : most.asU64 = some high) (ordered : low ≤ high) (bounded : high ≤ ceiling) :
    sizeRange lower upper spread ceiling (.object keywords) = (low, high) := by
  simp only [sizeRange, Value.get, lowest, highest, Option.bind_some, readLow, readHigh,
    Option.getD_some]
  rw [Nat.min_eq_left (ordered.trans bounded), Nat.min_eq_left bounded, Nat.max_eq_left ordered]

/-- Two integers in order are the range. -/
theorem integerRange_of_bounds {low high : Int}
    (lower : keywords.lookup "minimum" = some (.number (.int low)))
    (upper : keywords.lookup "maximum" = some (.number (.int high))) (fits : -2 ^ 63 ≤ low)
    (ordered : low ≤ high) (bounded : high < 2 ^ 63) :
    integerRange (.object keywords) = (low, high) := by
  have least := asI64_get lower fits (ordered.trans_lt bounded)
  have most := asI64_get upper (fits.trans ordered) bounded
  unfold integerRange
  rw [least, most]
  exact Prod.ext rfl (max_eq_left ordered)

/-- A size between two bounds obeys them. -/
theorem sizeObeys_bounds {low high measured : Nat} {size : Value → Option Nat}
    {value least most : Value} (measure : size value = some measured)
    (readLow : least.asU64 = some low) (readHigh : most.asU64 = some high)
    (inside : InRange (low, high) measured) :
    sizeObeys size (fun bound count => decide (bound ≤ count)) least value = true ∧
      sizeObeys size (fun bound count => decide (count ≤ bound)) most value = true := by
  unfold sizeObeys
  rw [measure, readLow, readHigh]
  exact ⟨decide_eq_true inside.1, decide_eq_true inside.2⟩

/-- An array of valid items within the bounds is valid. -/
theorem valid_array {items least most : Value} {low high : Nat} {values : List Value}
    (node : TypedNode "array" keywords ["items", "minItems", "maxItems"])
    (described : keywords.lookup "items" = some items)
    (lower : keywords.lookup "minItems" = some least)
    (upper : keywords.lookup "maxItems" = some most) (readLow : least.asU64 = some low)
    (readHigh : most.asU64 = some high)
    (each : ∀ value ∈ values, valid rules .jsonSchema items value = true)
    (inside : InRange (low, high) values.length) :
    valid rules .jsonSchema (.object keywords) (.array values) = true := by
  have obeys : _ ∧ _ := sizeObeys_bounds (show itemCount (.array values) = _ from rfl) readLow
    readHigh inside
  refine node.valid_of_keywords rules rfl ?_
  simp only [List.forall_mem_cons]
  exact ⟨⟨_, described, List.all_eq_true.mpr each⟩, ⟨_, lower, obeys.1⟩, ⟨_, upper, obeys.2⟩, nofun⟩

theorem valid_string {least most : Value} {low high : Nat} {text : String}
    (node : TypedNode "string" keywords ["minLength", "maxLength"])
    (lower : keywords.lookup "minLength" = some least)
    (upper : keywords.lookup "maxLength" = some most) (readLow : least.asU64 = some low)
    (readHigh : most.asU64 = some high)
    (inside : InRange (low, high) text.length) :
    valid rules .jsonSchema (.object keywords) (.string text) = true := by
  have obeys : _ ∧ _ := sizeObeys_bounds (show textLength (.string text) = _ from rfl) readLow
    readHigh inside
  refine node.valid_of_keywords rules rfl ?_
  simp only [List.forall_mem_cons]
  exact ⟨⟨_, lower, obeys.1⟩, ⟨_, upper, obeys.2⟩, nofun⟩

theorem valid_integer {low high number : Int}
    (node : TypedNode "integer" keywords ["minimum", "maximum"])
    (lower : keywords.lookup "minimum" = some (.number (.int low)))
    (upper : keywords.lookup "maximum" = some (.number (.int high))) (above : low ≤ number)
    (below : number ≤ high) :
    valid rules .jsonSchema (.object keywords) (.number (.int number)) = true := by
  have above : rules.atMost (.int low) (.int number) = true :=
    (rules.atMost_int low number).trans (decide_eq_true above)
  have below : rules.atMost (.int number) (.int high) = true :=
    (rules.atMost_int number high).trans (decide_eq_true below)
  refine node.valid_of_keywords rules rfl ?_
  simp only [List.forall_mem_cons]
  exact ⟨⟨_, lower, above⟩, ⟨_, upper, below⟩, nofun⟩

/-- A node of a type alone admits what has the type. -/
theorem valid_bare {name : String} {value : Value} (node : TypedNode name keywords [])
    (has : hasType rules name value = true) :
    valid rules .jsonSchema (.object keywords) value = true :=
  node.valid_of_keywords rules has nofun

/-! ## Every schema -/

/-- Between its bounds, an array has items that are generated from the item schema. -/
theorem ensures_array {items : Value} {low high : Nat} (lawful : random.Lawful)
    (node : TypedNode "array" keywords ["items", "minItems", "maxItems"])
    (described : keywords.lookup "items" = some items)
    (lower : keywords.lookup "minItems" = some (.number (.int low)))
    (upper : keywords.lookup "maxItems" = some (.number (.int high)))
    (ordered : low ≤ high) (bounded : high ≤ 100) (admitted : items ≠ .bool false) {depth : Nat}
    (each : ∀ remaining, Ensures (generateWithRng random remaining items)
      (fun value => valid rules .jsonSchema items value = true) (remaining + 1 ≤ depth))
    (remaining : Nat) : Ensures (generateWithRng random remaining (.object keywords))
      (fun value => valid rules .jsonSchema (.object keywords) value = true)
      (remaining ≤ depth) := by
  refine ensures_untold (untold_of_typed node (by decide)) (fun remaining => ?_) remaining
  rw [generateTyped, schemaType_of_typed node.typed]
  have readLow := asU64_natCast (show low < 2 ^ 64 by omega)
  have readHigh := asU64_natCast (show high < 2 ^ 64 by omega)
  have range := sizeRange_of_bounds 2 lower upper readLow readHigh ordered bounded
  have same : itemSchema (.object keywords) = items := by
    rw [itemSchema, Value.get, described, Option.getD_some]
  have drawn : Ensures (generateWithRng random remaining (itemSchema (.object keywords)))
      (fun value => valid rules .jsonSchema items value = true) (remaining + 1 ≤ depth) := by
    rw [same]
    exact each remaining
  refine (ensures_generateArray lawful fun _ => drawn).mono ?_ id
  rintro _ ⟨values, rfl, valid, inside⟩
  rw [same, if_neg admitted, range] at inside
  exact valid_array node described lower upper readLow readHigh valid inside

/-- Without a format or a pattern, a text is as long as its bounds allow. -/
theorem ensures_string {low high : Nat} (lawful : random.Lawful)
    (node : TypedNode "string" keywords ["minLength", "maxLength"])
    (lower : keywords.lookup "minLength" = some (.number (.int low)))
    (upper : keywords.lookup "maxLength" = some (.number (.int high)))
    (ordered : low ≤ high) (bounded : high ≤ 10000) (remaining depth : Nat) :
    Ensures (generateWithRng random remaining (.object keywords))
      (fun value => valid rules .jsonSchema (.object keywords) value = true)
      (remaining ≤ depth) := by
  refine ensures_untold (untold_of_typed node (by decide)) (fun remaining => ?_) remaining
  rw [generateTyped, schemaType_of_typed node.typed]
  have readLow := asU64_natCast (show low < 2 ^ 64 by omega)
  have readHigh := asU64_natCast (show high < 2 ^ 64 by omega)
  have range := sizeRange_of_bounds 8 lower upper readLow readHigh ordered bounded
  have format := node.lookup_none "format" (by decide)
  have pattern := node.lookup_none "pattern" (by decide)
  simp only [generateString, Value.get, format, pattern, Option.bind_none]
  refine (ensures_generateLetters lawful _).mono ?_ id
  rintro _ ⟨text, rfl, inside⟩
  rw [range] at inside
  exact valid_string node lower upper readLow readHigh inside

theorem ensures_enum {values : List Value} (lawful : random.Lawful)
    (node : PlainNode keywords ["enum", "type"])
    (listed : keywords.lookup "enum" = some (.array values)) (nonempty : values ≠ [])
    (remaining depth : Nat) : Ensures (generateWithRng random remaining (.object keywords))
      (fun value => value ∈ values) (remaining ≤ depth) := by
  refine ensures_levels (declaredValue_of_plain node (by decide)) (fun remaining => ?_) remaining
  have oneOf := node.lookup_none "oneOf" (by decide)
  have anyOf := node.lookup_none "anyOf" (by decide)
  have allOf := node.lookup_none "allOf" (by decide)
  have filled := filter_nonempty nonempty
  simp only [generateUndeclared, variantsOf, nonemptyArray, Value.get, Value.asArray, oneOf, anyOf,
    allOf, listed, Option.none_or, Option.bind_some, Option.bind_none, Option.filter_none, filled]
  refine (ensures_drawItem lawful nonempty).bind fun index member => ?_
  exact ensures_pure member

theorem valid_enum {values : List Value} {value : Value}
    (node : PlainNode keywords ["enum", "type"])
    (listed : keywords.lookup "enum" = some (.array values))
    (typed : ∀ type, keywords.lookup "type" = some type → admitsType rules type value = true)
    (member : value ∈ values) : valid rules .jsonSchema (.object keywords) value = true := by
  exact node.valid_of_keyword rules listed
    (List.any_eq_true.mpr ⟨value, member, rules.equal_self value⟩) typed

theorem ensures_const {value : Value} (node : PlainNode keywords ["const", "type"])
    (given : keywords.lookup "const" = some value) (remaining depth : Nat) :
    Ensures (generateWithRng random remaining (.object keywords))
      (fun generated => generated = value) (remaining ≤ depth) := by
  refine ensures_levels (declaredValue_of_plain node (by decide)) (fun remaining => ?_) remaining
  have oneOf := node.lookup_none "oneOf" (by decide)
  have anyOf := node.lookup_none "anyOf" (by decide)
  have allOf := node.lookup_none "allOf" (by decide)
  have enum := node.lookup_none "enum" (by decide)
  simp only [generateUndeclared, variantsOf, nonemptyArray, Value.get, oneOf, anyOf, allOf, enum,
    given, Option.none_or, Option.bind_none, Option.filter_none]
  exact ensures_pure rfl

theorem valid_const {value : Value} (node : PlainNode keywords ["const", "type"])
    (given : keywords.lookup "const" = some value)
    (typed : ∀ type, keywords.lookup "type" = some type → admitsType rules type value = true) :
    valid rules .jsonSchema (.object keywords) value = true :=
  node.valid_of_keyword rules given (rules.equal_self value) typed

/-- One of the variants is generated. -/
theorem ensures_anyOf {variants : List Value} {holds : Value → Value → Prop}
    (lawful : random.Lawful) (node : PlainNode keywords ["anyOf"])
    (listed : keywords.lookup "anyOf" = some (.array variants)) (nonempty : variants ≠ [])
    {depth : Nat} (each : ∀ variant ∈ variants, ∀ remaining,
      Ensures (generateWithRng random remaining variant) (holds variant) (remaining + 1 ≤ depth))
    (remaining : Nat) : Ensures (generateWithRng random remaining (.object keywords))
      (fun value => ∃ variant ∈ variants, holds variant value) (remaining ≤ depth) := by
  refine ensures_levels (declaredValue_of_plain node (by decide)) (fun remaining => ?_) remaining
  have oneOf := node.lookup_none "oneOf" (by decide)
  have discriminator : extractDiscriminator (.object keywords) = none := by
    simp [extractDiscriminator, Value.get, node.lookup_none "discriminator" (by decide)]
  have filled := filter_nonempty nonempty
  simp only [generateUndeclared, variantsOf, generateVariant, Value.get, Value.asArray, oneOf,
    listed, discriminator, Option.none_or, Option.bind_some, filled]
  refine (ensures_drawItem lawful nonempty).bind fun index member => ?_
  exact (each _ member remaining).mono (fun value valid => ⟨_, member, valid⟩) id

theorem valid_anyOf {variants : List Value} {value : Value}
    (node : PlainNode keywords ["anyOf"])
    (listed : keywords.lookup "anyOf" = some (.array variants))
    (some : ∃ variant ∈ variants, valid rules .jsonSchema variant value = true) :
    valid rules .jsonSchema (.object keywords) value = true := by
  refine node.valid_of_lookups rules fun key argument found allowed => ?_
  obtain rfl := List.mem_singleton.mp allowed
  rw [listed] at found
  cases found
  exact List.any_eq_true.mpr some

/-- What is generated is valid, and only a schema with too many levels is refused. -/
theorem ensures_generateWithRng (lawful : random.Lawful) {schema : Value}
    (generatable : Generatable rules schema) (remaining : Nat) :
    Ensures (generateWithRng random remaining schema)
      (fun value => valid rules .jsonSchema schema value = true) (remaining ≤ nesting schema) := by
  induction generatable generalizing remaining with
  | object keywords node distinct named closed each ih =>
      refine ensures_untold (untold_of_typed node (by decide)) (fun remaining => ?_) remaining
      rw [generateTyped, schemaType_of_typed node.typed]
      have members := ensures_generateProperties random
        (fun schema value => valid rules .jsonSchema schema value = true)
        (requiredSet (.object keywords)) fun property listed =>
          (ih property listed remaining).mono (fun _ valid => valid)
            fun deep => deep.trans_lt (nesting_lt_property listed)
      rw [generateObject_of_closed (.object keywords) closed]
      refine members.bind fun members so => ?_
      exact ensures_pure (valid_of_membersOf node distinct named closed so)
  | array keywords items low high node described lower upper ordered bounded each ih =>
      have admitted : items ≠ .bool false := by
        rintro rfl
        cases each
      refine ensures_array lawful node described lower upper ordered bounded admitted
        (fun remaining => ?_) remaining
      exact (ih remaining).mono (fun _ valid => valid)
        fun deep => deep.trans_lt (nesting_lt_items described)
  | integer keywords low high node lower upper fits ordered bounded =>
      refine ensures_untold (untold_of_typed node (by decide)) (fun remaining => ?_) remaining
      rw [generateTyped, schemaType_of_typed node.typed]
      refine (ensures_generateInteger lawful _).mono ?_ id
      rintro _ ⟨number, rfl, above, below⟩
      rw [integerRange_of_bounds lower upper fits ordered bounded] at above below
      exact valid_integer node lower upper above below
  | string keywords low high node lower upper ordered bounded =>
      exact ensures_string lawful node lower upper ordered bounded remaining _
  | boolean keywords node =>
      refine ensures_untold (untold_of_typed node (by decide)) (fun remaining => ?_) remaining
      rw [generateTyped, schemaType_of_typed node.typed]
      refine (ensures_randomBool 50).bind fun drawn _ => ?_
      exact ensures_pure (valid_bare node rfl)
  | null keywords node =>
      refine ensures_untold (untold_of_typed node (by decide)) (fun remaining => ?_) remaining
      rw [generateTyped, schemaType_of_typed node.typed]
      exact ensures_pure (valid_bare node rfl)
  | enum keywords values node listed nonempty typed =>
      refine (ensures_enum lawful node listed nonempty remaining _).mono ?_ id
      intro value member
      exact valid_enum node listed (fun type found => typed type found value member) member
  | const keywords value node given typed =>
      refine (ensures_const node given remaining _).mono ?_ id
      rintro _ rfl
      exact valid_const node given typed
  | anyOf keywords variants node listed nonempty each ih =>
      refine (ensures_anyOf lawful node listed nonempty (fun variant member remaining => ?_)
        remaining).mono (fun value valid => valid_anyOf node listed valid) id
      exact (ih variant member remaining).mono (fun _ valid => valid)
        fun deep => deep.trans_lt (nesting_lt_combined (by decide) listed member)

end Nodes

/--
A value that is generated from a schema of plain nodes is valid, and only a
schema that nests deeper than the recursion limit is refused.
-/
theorem generated_conforms {ρ φ : Type} {random : Randomness ρ φ} (lawful : random.Lawful)
    {rules : SchemaRules} {schema : Value} (generatable : Generatable rules schema) (stream : ρ) :
    (∀ value next, generateWithRng random (maximumDepth + 1) schema stream = .ok (value, next) →
      Schema.valid rules .jsonSchema schema value = true) ∧
    (∀ error, generateWithRng random (maximumDepth + 1) schema stream = .error error →
      maximumDepth < Schema.nesting schema) := by
  have ensured := ensures_generateWithRng lawful generatable (maximumDepth + 1) stream
  constructor
  · intro value next run
    rw [run] at ensured
    exact ensured
  · intro error run
    rw [run] at ensured
    exact ensured

/-- A person has a name, and may have up to two ages. -/
def personSchema : Value :=
  .object [("properties", .object [
      ("ages", .object [("items", .object [("maximum", .number (.int 120)),
          ("minimum", .number (.int 0)), ("type", .string "integer")]),
        ("maxItems", .number (.int 2)), ("minItems", .number (.int 0)),
        ("type", .string "array")]),
      ("name", .object [("maxLength", .number (.int 8)), ("minLength", .number (.int 1)),
        ("type", .string "string")])]),
    ("required", .array [.string "name"]), ("type", .string "object")]

theorem personSchema_generatable : Generatable .integers personSchema := by
  refine .object _ ⟨⟨by decide, by decide⟩, rfl⟩ (by decide) (by decide) (by decide) ?_
  change ∀ property ∈ [("ages", _), ("name", _)], _
  rw [List.forall_mem_cons, List.forall_mem_singleton]
  constructor
  · refine .array _ _ 0 2 ⟨⟨by decide, by decide⟩, rfl⟩ rfl rfl rfl (by decide) (by decide) ?_
    exact .integer _ 0 120 ⟨⟨by decide, by decide⟩, rfl⟩ rfl rfl (by decide) (by decide) (by decide)
  · exact .string _ 1 8 ⟨⟨by decide, by decide⟩, rfl⟩ rfl rfl (by decide) (by decide)

/-- The person that is generated from the smallest draws is valid. -/
theorem person_conforms :
    ∃ value, generateWithRng (Randomness.fixed 0) (maximumDepth + 1) personSchema () =
        .ok (value, ()) ∧
      Schema.valid .integers .jsonSchema personSchema value = true := by
  refine ⟨_, rfl, ?_⟩
  exact (generated_conforms (Randomness.fixed_lawful 0) personSchema_generatable ()).1 _ () rfl

end Faker

end SpecMock.Core
