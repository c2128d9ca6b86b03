import SpecMock.Runtime.RequestBodies
import SpecMock.Core.SchemaMeaning

/-!
# The order of types in a parameter

A list of types is a set to the validator.  The text of a parameter is read as
the first of them alone, so its value depends on their order.
-/

namespace SpecMock.Runtime

open SpecMock.Library SpecMock.Core

inductive JsonType where
  | null
  | boolean
  | integer
  | number
  | string
  | array
  | object
  deriving DecidableEq

def JsonType.name : JsonType → String
  | .null => "null"
  | .boolean => "boolean"
  | .integer => "integer"
  | .number => "number"
  | .string => "string"
  | .array => "array"
  | .object => "object"

theorem JsonType.name_injective : Function.Injective JsonType.name := by
  intro left right same
  cases left <;> cases right <;> first | rfl | exact absurd same (by decide)

/-- A list of types, which names each of them once. -/
structure TypeList where
  types : List JsonType
  listed : types ≠ []
  distinct : types.Nodup

def TypeList.toValue (list : TypeList) : Value :=
  .array (list.types.map fun type => .string type.name)

/-- A schema object around its `type`. -/
structure UntypedSchema where
  before : List (String × Value)
  after : List (String × Value)
  untyped : ∀ entry ∈ before ++ after, entry.1 ≠ "type"

namespace UntypedSchema

variable (schema : UntypedSchema)

def typed (list : TypeList) : Value :=
  .object (schema.before ++ ("type", list.toValue) :: schema.after)

/-- The other keywords. -/
def others : Value := .object (schema.before ++ schema.after)

end UntypedSchema

/-- A schema of arrays around its `items`. -/
structure ItemlessSchema where
  before : List (String × Value)
  after : List (String × Value)
  itemless : ∀ entry ∈ before ++ after, entry.1 ≠ "items"
  isArray : schemaTypeIsArray (.object (before ++ after)) = true

/-- Whose types a list names: those of a parameter, or of the items of a query parameter. -/
inductive TypeSite where
  | parameter (location : ParameterIn)
  | items (outer : ItemlessSchema)

namespace TypeSite

def location : TypeSite → ParameterIn
  | .parameter location => location
  | .items _ => .query

/-- The schema of the parameter with a schema at the site. -/
def schema (inner : Value) : TypeSite → Value
  | .parameter _ => inner
  | .items outer => .object (outer.before ++ ("items", inner) :: outer.after)

/-- A value has one of the listed types at the site. -/
def Admits (rules : SchemaRules) (list : TypeList) (value : Value) : TypeSite → Prop
  | .parameter _ => ∃ type ∈ list.types, Schema.hasType rules type.name value = true
  | .items _ => ∀ items, value = .array items →
      ∀ item ∈ items, ∃ type ∈ list.types, Schema.hasType rules type.name item = true

end TypeSite

section Reading

variable (libraries : RequestLibraries)

def ValidUnder (schema value : Value) : Prop := libraries.validateInstance schema value = .ok []

instance (schema value : Value) : Decidable (ValidUnder libraries schema value) :=
  inferInstanceAs (Decidable (libraries.validateInstance schema value = .ok []))

/-- The validator takes a list of types at a site as documented: next to the other keywords. -/
def JudgesTypes (rules : SchemaRules) (site : TypeSite) (schema : UntypedSchema) : Prop :=
  ∀ list value, ValidUnder libraries (site.schema (schema.typed list)) value ↔
    ValidUnder libraries (site.schema schema.others) value ∧ site.Admits rules list value

/-- The value of a type that a text reads as. -/
def JsonType.read (text : String) : JsonType → Option Value
  | .integer => (parseI64 text).map fun value => .number (.int value)
  | .number => (libraries.parseFloat text).filter fun value =>
      match value with
      | .number _ => true
      | _ => false
  | .boolean =>
      if text = "true" then some (.bool true)
      else if text = "false" then some (.bool false)
      else none
  | .string => some (.string text)
  | .null | .array | .object => none

/-- The text as a value, if the type stands alone. -/
def JsonType.coerce (text : String) (type : JsonType) : Value :=
  parseParameterValue libraries text (.object [("type", .string type.name)])

end Reading

/-- Where a request has the texts of its parameters. -/
structure ParameterTexts where
  pathParams : PathParams
  query : Option String
  headers : Headers

def ParameterTexts.of (request : ParameterTexts) (libraries : RequestLibraries) (name : String) :
    ParameterIn → List String
  | .path => (request.pathParams.lookup name).toList
  | .query => queryValues libraries request.query name
  | .header => (request.headers.get (asciiLowercase name)).toList

/-- A parameter whose types are named by a list at a site. -/
structure TypedParameter where
  name : String
  required : Bool
  site : TypeSite
  schema : UntypedSchema

namespace TypedParameter

variable (libraries : RequestLibraries) (parameter : TypedParameter)

def listing (list : TypeList) : ParameterSpec :=
  ⟨parameter.name, parameter.site.location, parameter.required,
    parameter.site.schema (parameter.schema.typed list)⟩

def Accepts (request : ParameterTexts) (list : TypeList) : Prop :=
  (parameter.listing list).issues libraries request.pathParams request.query request.headers = []

instance (request : ParameterTexts) (list : TypeList) :
    Decidable (parameter.Accepts libraries request list) :=
  inferInstanceAs (Decidable (ParameterSpec.issues _ _ _ _ _ = []))

def texts (request : ParameterTexts) : List String :=
  request.of libraries parameter.name parameter.site.location

/-- The value of some texts if one of the listed types stands first. -/
def reading (list : TypeList) (texts : List String) (type : JsonType) : Value :=
  match parameter.site with
  | .parameter location =>
      if location = .query ∧ .array ∈ list.types then
        let itemsSchema := (parameter.schema.others.get "items").getD (.object [])
        .array (texts.map fun text => parseParameterValue libraries text itemsSchema)
      else type.coerce libraries (texts.headD "")
  | .items _ => .array (texts.map fun text => type.coerce libraries text)

/-- The value with that type in front is valid. -/
def Admitted (list : TypeList) (texts : List String) (type : JsonType) : Prop :=
  ValidUnder libraries (parameter.site.schema (parameter.schema.typed list))
    (parameter.reading libraries list texts type)

instance (list : TypeList) (texts : List String) :
    DecidablePred (parameter.Admitted libraries list texts) := fun type =>
  inferInstanceAs (Decidable (ValidUnder libraries _
    (parameter.reading libraries list texts type)))

/-- A text reads as a value of a listed type; of several texts, each one does. -/
def ReadsAs (list : TypeList) (texts : List String) (value : Value) : Prop :=
  match parameter.site with
  | .parameter _ => ∃ text, texts = [text] ∧
      ∃ type ∈ list.types, type.read libraries text = some value
  | .items _ => ∃ items, value = .array items ∧ List.Forall₂ (fun text item =>
      ∃ type ∈ list.types, type.read libraries text = some item) texts items

/-- An operation that declares the parameter among others accepts the request. -/
def AcceptedAmong (request : ParameterTexts) (operation : DeclaredOperation)
    (before after : List ParameterSpec) (json : Option Value) (bodyPresent : Bool)
    (list : TypeList) : Prop :=
  { operation with parameters := before ++ parameter.listing list :: after }.validateRequest
    libraries request.pathParams request.query request.headers json bodyPresent = []

/-- The order of a list of types is irrelevant, and no value of a listed type is missed. -/
structure OrderFree (request : ParameterTexts) (list : TypeList) : Prop where
  permuted : ∀ other : TypeList, other.types.Perm list.types →
    ∀ operation before after json bodyPresent,
      parameter.AcceptedAmong libraries request operation before after json bodyPresent other ↔
        parameter.AcceptedAmong libraries request operation before after json bodyPresent list
  /-- A value of a listed type that satisfies the other keywords is accepted. -/
  suitable : ∀ value, parameter.ReadsAs libraries list (parameter.texts libraries request) value →
    ValidUnder libraries (parameter.site.schema parameter.schema.others) value →
      parameter.Accepts libraries request list

/--
Either every listed type reads the texts as a valid value, or none does and no
value that they read as satisfies the other keywords.
-/
def ReadingsAgree (list : TypeList) (texts : List String) : Prop :=
  (∀ type ∈ list.types, parameter.Admitted libraries list texts type) ∨
    (∀ type ∈ list.types, ¬ parameter.Admitted libraries list texts type) ∧
      ∀ value, parameter.ReadsAs libraries list texts value →
        ¬ ValidUnder libraries (parameter.site.schema parameter.schema.others) value

end TypedParameter

theorem lookup_between {key other : String} {before after : List (String × Value)} {value : Value}
    (apart : key ≠ other) :
    (before ++ (other, value) :: after).lookup key = (before ++ after).lookup key := by
  rw [List.lookup_append, List.lookup_append, List.lookup_cons, beq_false_of_ne apart]

theorem lookup_between_self {key : String} {before after : List (String × Value)} {value : Value}
    (unused : ∀ entry ∈ before ++ after, entry.1 ≠ key) :
    (before ++ (key, value) :: after).lookup key = some value := by
  have absent : before.lookup key = none := by
    rw [List.lookup_eq_none_iff]
    intro entry member
    exact bne_iff_ne.mpr (unused entry (List.mem_append_left _ member)).symm
  rw [List.lookup_append, absent, List.lookup_cons_self, Option.none_or]

namespace UntypedSchema

variable (schema : UntypedSchema) (list : TypeList)

theorem get_typed : (schema.typed list).get "type" = some list.toValue :=
  lookup_between_self schema.untyped

theorem get_typed_items : (schema.typed list).get "items" = schema.others.get "items" :=
  lookup_between (by decide)

/-- The first type is the one that counts. -/
theorem inferredType_typed :
    inferredType (schema.typed list) = (list.types.head list.listed).name := by
  rw [inferredType, get_typed]
  obtain ⟨types, listed, distinct⟩ := list
  cases types with
  | nil => exact absurd rfl listed
  | cons first rest => rfl

theorem schemaTypeIsArray_typed :
    schemaTypeIsArray (schema.typed list) = decide (JsonType.array ∈ list.types) := by
  rw [schemaTypeIsArray, get_typed, Bool.eq_iff_iff, TypeList.toValue, decide_eq_true_eq]
  simp only [List.any_map, List.any_eq_true, Function.comp_apply, Value.asStr, beq_iff_eq,
    Option.some.injEq]
  constructor
  · rintro ⟨type, member, same⟩
    have found : type = .array := JsonType.name_injective same
    exact found ▸ member
  · intro member
    exact ⟨.array, member, rfl⟩

theorem parse_typed (libraries : RequestLibraries) (text : String) :
    parseParameterValue libraries text (schema.typed list) =
      (list.types.head list.listed).coerce libraries text := by
  rw [JsonType.coerce, parseParameterValue, parseParameterValue, inferredType_typed]
  rfl

end UntypedSchema

theorem ItemlessSchema.get_items (outer : ItemlessSchema) (inner : Value) :
    (TypeSite.schema inner (.items outer)).get "items" = some inner :=
  lookup_between_self outer.itemless

theorem ItemlessSchema.schemaTypeIsArray_items (outer : ItemlessSchema) (inner : Value) :
    schemaTypeIsArray (TypeSite.schema inner (.items outer)) = true := by
  have same : (TypeSite.schema inner (.items outer)).get "type" =
      (Value.object (outer.before ++ outer.after)).get "type" := lookup_between (by decide)
  rw [schemaTypeIsArray, same]
  exact outer.isArray

theorem instanceIssues_eq_nil_iff {libraries : RequestLibraries} {schema value : Value}
    (instancePointer schemaPointer : String) :
    instanceIssues libraries schema value instancePointer schemaPointer = [] ↔
      ValidUnder libraries schema value := by
  unfold instanceIssues ValidUnder
  cases libraries.validateInstance schema value <;> simp

namespace ParameterSpec

/-- The value that some texts of a parameter are. -/
def coerced (libraries : RequestLibraries) (parameter : ParameterSpec) (texts : List String) :
    Value :=
  if parameter.location = .query ∧ schemaTypeIsArray parameter.schema = true then
    let itemsSchema := (parameter.schema.get "items").getD (.object [])
    .array (texts.map fun text => parseParameterValue libraries text itemsSchema)
  else parseParameterValue libraries (texts.headD "") parameter.schema

/-- What gives some texts gives a single one. -/
theorem exists_of_toList_eq {found : Option String} {texts : List String}
    (given : found.toList = texts) (present : texts ≠ []) :
    ∃ raw, found = some raw ∧ texts = [raw] := by
  cases found with
  | none => exact absurd given.symm present
  | some raw => exact ⟨raw, rfl, given.symm⟩

/-- A parameter that is present is accepted if its value is valid. -/
theorem issues_eq_nil_iff {libraries : RequestLibraries} (parameter : ParameterSpec)
    {request : ParameterTexts} {texts : List String}
    (given : request.of libraries parameter.name parameter.location = texts)
    (present : texts ≠ []) :
    parameter.issues libraries request.pathParams request.query request.headers = [] ↔
      ValidUnder libraries parameter.schema (parameter.coerced libraries texts) := by
  unfold issues coerced
  unfold ParameterTexts.of at given
  cases location : parameter.location with
  | path =>
      rw [location] at given
      obtain ⟨raw, found, rfl⟩ := exists_of_toList_eq given present
      rw [found]
      exact instanceIssues_eq_nil_iff _ _
  | query =>
      simp only [location] at given
      cases texts with
      | nil => exact absurd rfl present
      | cons first others =>
          simp only [given, true_and]
          by_cases isArray : schemaTypeIsArray parameter.schema = true
          · simp only [if_pos isArray]
            exact instanceIssues_eq_nil_iff _ _
          · simp only [if_neg isArray]
            exact instanceIssues_eq_nil_iff _ _
  | header =>
      rw [location] at given
      obtain ⟨raw, found, rfl⟩ := exists_of_toList_eq given present
      rw [found]
      exact instanceIssues_eq_nil_iff _ _

end ParameterSpec

namespace TypedParameter

variable {libraries : RequestLibraries} {parameter : TypedParameter} {request : ParameterTexts}

/-- The texts of a parameter are read as the first listed type. -/
theorem coerced_listing (list : TypeList) (texts : List String) :
    (parameter.listing list).coerced libraries texts =
      parameter.reading libraries list texts (list.types.head list.listed) := by
  unfold ParameterSpec.coerced listing reading
  cases site : parameter.site with
  | parameter location =>
      simp only [TypeSite.location, TypeSite.schema, UntypedSchema.schemaTypeIsArray_typed,
        UntypedSchema.get_typed_items, UntypedSchema.parse_typed, decide_eq_true_eq]
  | items outer =>
      simp only [TypeSite.location, outer.schemaTypeIsArray_items, outer.get_items,
        UntypedSchema.parse_typed, true_and, if_true, Option.getD_some]

theorem accepts_iff (present : parameter.texts libraries request ≠ []) (list : TypeList) :
    parameter.Accepts libraries request list ↔
      ValidUnder libraries (parameter.site.schema (parameter.schema.typed list))
        (parameter.reading libraries list (parameter.texts libraries request)
          (list.types.head list.listed)) := by
  rw [← coerced_listing]
  exact (parameter.listing list).issues_eq_nil_iff rfl present

/-- Among other parameters, those and the body have to be accepted as well. -/
theorem acceptedAmong_iff (operation : DeclaredOperation) (before after : List ParameterSpec)
    (json : Option Value) (bodyPresent : Bool) (list : TypeList) :
    parameter.AcceptedAmong libraries request operation before after json bodyPresent list ↔
      parameter.Accepts libraries request list ∧
        { operation with parameters := before ++ after }.validateRequest libraries
          request.pathParams request.query request.headers json bodyPresent = [] := by
  simp only [AcceptedAmong, Accepts, DeclaredOperation.validateRequest, List.append_eq_nil_iff,
    List.flatMap_append, List.flatMap_cons]
  tauto

/-- An operation without parameters and a body. -/
def bareOperation : DeclaredOperation := ⟨⟨"GET", "/", []⟩, [], none, false, []⟩

/-- In every operation two orders are alike if the parameter itself takes them alike. -/
theorem acceptedAmong_congr_iff (list other : TypeList) :
    (∀ operation before after json bodyPresent,
      parameter.AcceptedAmong libraries request operation before after json bodyPresent other ↔
        parameter.AcceptedAmong libraries request operation before after json bodyPresent list) ↔
    (parameter.Accepts libraries request other ↔ parameter.Accepts libraries request list) := by
  simp only [acceptedAmong_iff]
  constructor
  · intro alike
    simpa [bareOperation, DeclaredOperation.validateRequest] using
      alike bareOperation [] [] none false
  · intro alike operation before after json bodyPresent
    rw [alike]

/-- Only whether arrays are listed matters, besides the type that stands first. -/
theorem reading_perm {list other : TypeList} (permuted : other.types.Perm list.types)
    (texts : List String) (type : JsonType) :
    parameter.reading libraries other texts type = parameter.reading libraries list texts type := by
  unfold reading
  simp only [permuted.mem_iff]

theorem validUnder_perm {rules : SchemaRules} {list other : TypeList}
    (judges : JudgesTypes libraries rules parameter.site parameter.schema)
    (permuted : other.types.Perm list.types) (value : Value) :
    ValidUnder libraries (parameter.site.schema (parameter.schema.typed other)) value ↔
      ValidUnder libraries (parameter.site.schema (parameter.schema.typed list)) value := by
  have admits : parameter.site.Admits rules other value ↔
      parameter.site.Admits rules list value := by
    unfold TypeSite.Admits
    simp only [permuted.mem_iff]
  rw [judges other value, judges list value, admits]

/-- With its list of types in another order, a parameter is read as the type that is first now. -/
theorem accepts_perm {rules : SchemaRules} {list other : TypeList}
    (judges : JudgesTypes libraries rules parameter.site parameter.schema)
    (present : parameter.texts libraries request ≠ []) (permuted : other.types.Perm list.types) :
    parameter.Accepts libraries request other ↔
      ValidUnder libraries (parameter.site.schema (parameter.schema.typed list))
        (parameter.reading libraries list (parameter.texts libraries request)
          (other.types.head other.listed)) := by
  rw [accepts_iff present, validUnder_perm judges permuted, reading_perm permuted]

/-- A listed type may stand first. -/
theorem exists_perm_head (list : TypeList) {type : JsonType} (member : type ∈ list.types) :
    ∃ other : TypeList, other.types.Perm list.types ∧ other.types.head other.listed = type := by
  have permuted := (List.perm_cons_erase member).symm
  exact ⟨⟨type :: list.types.erase type, List.cons_ne_nil _ _,
    permuted.nodup_iff.mpr list.distinct⟩, permuted, rfl⟩

/--
The order of a list of types is irrelevant, and no value of a listed type is
missed, if and only if the readings of the texts as the listed types agree.
-/
theorem order_free_iff {rules : SchemaRules} (list : TypeList)
    (judges : JudgesTypes libraries rules parameter.site parameter.schema)
    (present : parameter.texts libraries request ≠ []) :
    parameter.OrderFree libraries request list ↔
      parameter.ReadingsAgree libraries list (parameter.texts libraries request) := by
  constructor
  · intro free
    have permuted : ∀ other : TypeList, other.types.Perm list.types →
        (parameter.Accepts libraries request other ↔ parameter.Accepts libraries request list) :=
      fun other order => (acceptedAmong_congr_iff list other).mp (free.permuted other order)
    by_cases accepted : parameter.Accepts libraries request list
    · refine .inl fun type member => ?_
      obtain ⟨other, order, head⟩ := exists_perm_head list member
      rw [← head]
      exact (accepts_perm judges present order).mp ((permuted other order).mpr accepted)
    · refine .inr ⟨fun type member valid => accepted ?_, fun value reads others => accepted ?_⟩
      · obtain ⟨other, order, head⟩ := exists_perm_head list member
        rw [← head] at valid
        exact (permuted other order).mp ((accepts_perm judges present order).mpr valid)
      · exact free.suitable value reads others
  · rintro (all | ⟨none, missed⟩)
    · have every : ∀ other : TypeList, other.types.Perm list.types →
          parameter.Accepts libraries request other := by
        intro other permuted
        exact (accepts_perm judges present permuted).mpr
          (all _ (permuted.mem_iff.mp (other.types.head_mem other.listed)))
      have itself := every list (List.Perm.refl _)
      constructor
      · intro other permuted
        exact (acceptedAmong_congr_iff list other).mpr (iff_of_true (every other permuted) itself)
      · exact fun _ _ _ => itself
    · have never : ∀ other : TypeList, other.types.Perm list.types →
          ¬ parameter.Accepts libraries request other := by
        intro other permuted accepted
        exact none _ (permuted.mem_iff.mp (other.types.head_mem other.listed))
          ((accepts_perm judges present permuted).mp accepted)
      constructor
      · intro other permuted
        exact (acceptedAmong_congr_iff list other).mpr
          (iff_of_false (never other permuted) (never list (.refl _)))
      · exact fun value reads others => absurd others (missed value reads)

end TypedParameter

/-- A validator that reports every invalid instance with one issue, and queries without escapes. -/
def schemaReading : RequestLibraries where
  fromSlice _ := .error "expected value"
  formPairs raw := (Text.pieces '&' raw).filterMap (Text.splitOnce '=')
  parseFloat _ := none
  validateInstance schema value :=
    if Schema.valid .integers .jsonSchema schema value then .ok []
    else .ok [⟨"", "/type", "type", "unexpected type"⟩]

theorem validUnder_schemaReading {schema value : Value} :
    ValidUnder schemaReading schema value ↔
      Schema.valid .integers .jsonSchema schema value = true := by
  change (if Schema.valid .integers .jsonSchema schema value = true then _ else _) = _ ↔ _
  split
  next valid => exact iff_of_true rfl valid
  next invalid => exact iff_of_false (by simp) invalid

def bareParameter : TypedParameter := ⟨"id", true, .parameter .path, ⟨[], [], by simp⟩⟩

def pathText (text : String) : ParameterTexts := ⟨(∅ : PathParams).insert "id" text, none, []⟩

theorem schemaReading_judges : JudgesTypes schemaReading .integers bareParameter.site
    bareParameter.schema := by
  intro list value
  rw [validUnder_schemaReading, validUnder_schemaReading]
  have typed : Schema.valid .integers .jsonSchema (bareParameter.schema.typed list) value =
      list.types.any fun type => Schema.hasType .integers type.name value := by
    simp [UntypedSchema.typed, bareParameter, Schema.valid_object, Schema.keywordHolds,
      Schema.assertion, Schema.admitsType, TypeList.toValue, Value.asStr, List.any_map,
      Function.comp_def]
  have plain : Schema.valid .integers .jsonSchema bareParameter.schema.others value = true := rfl
  have admits : bareParameter.site.Admits .integers list value ↔ (list.types.any fun type =>
      Schema.hasType .integers type.name value) = true := List.any_eq_true.symm
  change Schema.valid .integers .jsonSchema (bareParameter.schema.typed list) value = true ↔
    Schema.valid .integers .jsonSchema bareParameter.schema.others value = true ∧ _
  rw [and_iff_right plain, admits, typed]

/-- The labels of a query are an array, and its items name the types. -/
def labelsParameter : TypedParameter :=
  ⟨"label", false, .items ⟨[], [("type", .string "array")], by simp, by decide⟩, ⟨[], [], by simp⟩⟩

theorem schemaReading_judges_labels : JudgesTypes schemaReading .integers labelsParameter.site
    labelsParameter.schema := by
  intro list value
  rw [validUnder_schemaReading, validUnder_schemaReading]
  simp only [labelsParameter, TypeSite.schema, UntypedSchema.typed, UntypedSchema.others,
    List.nil_append, Schema.valid_object]
  cases value with
  | array items =>
      simp [TypeSite.Admits, Schema.keywordHolds, Schema.valid_object, Schema.assertion,
        Schema.admitsType, Schema.hasType, TypeList.toValue, Value.asStr]
  | number number => cases number <;> simp [Schema.keywordHolds, Schema.assertion,
      Schema.admitsType, Schema.hasType]
  | _ => simp [Schema.keywordHolds, Schema.assertion, Schema.admitsType, Schema.hasType]

def labelTexts : ParameterTexts := ⟨∅, some "label=ada&label=bob", []⟩

/-- Names are the same values as integers and as strings, alone and as items. -/
theorem name_order_free :
    let list : TypeList := ⟨[.integer, .string], by decide, by decide⟩
    bareParameter.OrderFree schemaReading (pathText "ada") list ∧
      labelsParameter.OrderFree schemaReading labelTexts list := by
  intro list
  have labels : labelsParameter.texts schemaReading labelTexts = ["ada", "bob"] := by decide
  have read : ∀ type ∈ list.types,
      labelsParameter.Admitted schemaReading list ["ada", "bob"] type := by
    decide
  constructor
  · exact (TypedParameter.order_free_iff list schemaReading_judges (by decide)).mpr
      (.inl (by decide))
  · have present : labelsParameter.texts schemaReading labelTexts ≠ [] := by
      rw [labels]
      exact List.cons_ne_nil _ _
    refine (TypedParameter.order_free_iff list schemaReading_judges_labels present).mpr (.inl ?_)
    rwa [labels]

/-- A number is refused if null is listed in front of the integers. -/
theorem null_first_refuses : ¬ bareParameter.OrderFree schemaReading (pathText "5")
    ⟨[.null, .integer], by decide, by decide⟩ := by
  intro free
  have alike := free.permuted ⟨[.integer, .null], by decide, by decide⟩ (by decide)
  have accepted := ((TypedParameter.acceptedAmong_congr_iff _ _).mp alike).mp (by decide)
  exact absurd accepted (by decide)

end SpecMock.Runtime
