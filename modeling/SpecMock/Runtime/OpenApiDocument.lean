import SpecMock.Library.Redeclaration
import SpecMock.Runtime.CatalogueCoverage
import SpecMock.Runtime.NormalizedSchemas
import SpecMock.Runtime.RequestBodies

/-!
# The OpenAPI document

An operation is read from its path item and from itself.  The parameters of the
path item are inherited by each of its operations; a parameter of the operation
replaces whatever stands under its location and name, so the last declaration
counts.  Parts that do not have the expected form are passed over, so nothing
behind the version and the paths makes the loading fail.
-/

namespace SpecMock.Runtime

open SpecMock.Library SpecMock.Core Redeclaration

/-- The schema object of a node, normalised for the version of the document. -/
def declaredSchema (openapiVersion : String) (node : List (String × Value)) : Option Value :=
  ((node.lookup "schema").bind Value.asObject).map fun schema =>
    normalizeSchema (startsWith "3.0" openapiVersion) (.object schema)

def isRequired (node : List (String × Value)) : Bool :=
  ((node.lookup "required").bind Value.asBool).getD false

def parameterIn : Option String → Option ParameterIn
  | some "path" => some .path
  | some "query" => some .query
  | some "header" => some .header
  | _ => none

/-- One parameter; without a name, or elsewhere than in path, query or header, it is skipped. -/
def parseParameter (openapiVersion : String) (parameterObject : List (String × Value)) :
    Option ParameterSpec :=
  ((parameterObject.lookup "name").bind Value.asStr).bind fun name =>
    (parameterIn ((parameterObject.lookup "in").bind Value.asStr)).map fun location =>
      { name
        location
        required := isRequired parameterObject || decide (location = .path)
        schema := (declaredSchema openapiVersion parameterObject).getD
          (normalizeSchema (startsWith "3.0" openapiVersion) (.object [])) }

def parseParameters (parametersNode : Option Value) (openapiVersion : String) :
    List ParameterSpec :=
  match parametersNode.bind Value.asArray with
  | none => []
  | some parametersArray => parametersArray.filterMap fun parameterNode =>
      parameterNode.asObject.bind (parseParameter openapiVersion)

/-- The loop over the parameters of an operation, from those of its path item on. -/
def effectiveParameters (inherited operationParams : List ParameterSpec) : List ParameterSpec :=
  operationParams.foldl (fun parameters parameter =>
    parameters.filter (fun existing =>
      existing.location != parameter.location || existing.name != parameter.name) ++
        [parameter]) inherited

structure RequestBodySpec where
  schema : Option Value
  required : Bool
  mediaTypes : List String

/-- Any media type is accepted; only `application/json` has a schema. -/
def parseRequestBody (operation : List (String × Value)) (openapiVersion : String) :
    RequestBodySpec :=
  match (operation.lookup "requestBody").bind Value.asObject with
  | none => ⟨none, false, []⟩
  | some requestBody =>
      match (requestBody.lookup "content").bind Value.asObject with
      | none => ⟨none, isRequired requestBody, []⟩
      | some content =>
          { schema := ((content.lookup "application/json").bind Value.asObject).bind
              (declaredSchema openapiVersion)
            required := isRequired requestBody
            mediaTypes := content.map Prod.fst }

/-- A named example is a bare value or an object with the value. -/
def parseMediaTypeExamples (mediaType : List (String × Value)) :
    Option Value × OrderedMap String Value :=
  let examples := ((mediaType.lookup "examples").bind Value.asObject).getD []
  let namedExamples := OrderedMap.collect (examples.map fun entry =>
    (entry.1, (entry.2.get "value").getD entry.2))
  ((mediaType.lookup "example").or (namedExamples.entries.head?.map Prod.snd), namedExamples)

def parseMediaTypes (contentMap : List (String × Value)) (openapiVersion : String) :
    List MediaTypeSpec :=
  contentMap.filterMap fun entry => entry.2.asObject.map fun mediaObject =>
    { mediaType := entry.1
      schema := declaredSchema openapiVersion mediaObject
      exampleValue := (parseMediaTypeExamples mediaObject).1
      namedExamples := (parseMediaTypeExamples mediaObject).2 }

/-- The example, or the value of the first of the named ones. -/
def headerExample (headerObject : List (String × Value)) : Option Value :=
  (headerObject.lookup "example").or
    (((headerObject.lookup "examples").bind Value.asObject).bind fun examples =>
      examples.head?.bind fun entry => entry.2.get "value")

def parseResponseHeaders (responseObject : List (String × Value)) (openapiVersion : String) :
    OrderedMap String ResponseHeaderSpec :=
  let headersNode := ((responseObject.lookup "headers").bind Value.asObject).getD []
  OrderedMap.collect (headersNode.filterMap fun entry => entry.2.asObject.map fun headerObject =>
    (entry.1, ⟨declaredSchema openapiVersion headerObject, headerExample headerObject⟩))

/-- The JSON family goes first, so that it answers requests without `Accept`. -/
def sortContent (content : List MediaTypeSpec) : List MediaTypeSpec :=
  content.insertionSort fun first second =>
    isJsonMediaType first.mediaType = true ∨ isJsonMediaType second.mediaType = false

def parseResponses (operation : List (String × Value)) (openapiVersion : String) :
    List ResponseSpec :=
  match (operation.lookup "responses").bind Value.asObject with
  | none => []
  | some responsesNode => responsesNode.filterMap fun entry =>
      entry.2.asObject.map fun responseObject =>
        { status := entry.1
          content := sortContent (parseMediaTypes
            (((responseObject.lookup "content").bind Value.asObject).getD []) openapiVersion)
          headers := parseResponseHeaders responseObject openapiVersion }

structure CallbackSpec where
  callbackUrlExpression : String
  method : String
  requestBodySchema : Option Value

def callbackSchema (cbOperation : List (String × Value)) (openapiVersion : String) :
    Option Value :=
  ((cbOperation.lookup "requestBody").bind fun requestBody =>
    (requestBody.get "content").bind Value.asObject).bind fun content =>
      ((content.lookup "application/json").bind Value.asObject).bind
        (declaredSchema openapiVersion)

/-- The callbacks of one URL expression, in the order of the methods. -/
def parseCallbackItem (openapiVersion urlExpression : String)
    (pathItem : List (String × Value)) : List CallbackSpec :=
  documentMethods.filterMap fun methodName =>
    ((pathItem.lookup methodName).bind Value.asObject).map fun cbOperation =>
      ⟨urlExpression, asciiUppercase methodName, callbackSchema cbOperation openapiVersion⟩

def parseCallbacks (operation : List (String × Value)) (openapiVersion : String) :
    List CallbackSpec :=
  match (operation.lookup "callbacks").bind Value.asObject with
  | none => []
  | some callbacksNode => callbacksNode.flatMap fun callback =>
      (callback.2.asObject.getD []).flatMap fun entry =>
        (entry.2.asObject.map (parseCallbackItem openapiVersion entry.1)).getD []

/-- An operation with all that is read for it. -/
structure LoadedOperation extends DeclaredOperation where
  operationId : Option String
  callbacks : List CallbackSpec

/-- An operation of a path item that has parameters of its own. -/
def loadOperation (openapiVersion pathTemplate : String) (inherited : List ParameterSpec)
    (methodName : String) (operationObject : List (String × Value)) : LoadedOperation :=
  let requestBody := parseRequestBody operationObject openapiVersion
  { method := asciiUppercase methodName
    pathTemplate
    responses := parseResponses operationObject openapiVersion
    parameters := effectiveParameters inherited
      (parseParameters (operationObject.lookup "parameters") openapiVersion)
    requestBodySchema := requestBody.schema
    requestBodyRequired := requestBody.required
    requestBodyMediaTypes := requestBody.mediaTypes
    operationId := (operationObject.lookup "operationId").bind Value.asStr
    callbacks := parseCallbacks operationObject openapiVersion }

/-- An operation of the document, under a path and a method. -/
structure OperationEntry where
  pathTemplate : String
  pathObject : List (String × Value)
  methodName : String
  operationObject : List (String × Value)

namespace OperationEntry

/-- The parameters that the path item declares. -/
def inherited (entry : OperationEntry) (openapiVersion : String) : List ParameterSpec :=
  parseParameters (entry.pathObject.lookup "parameters") openapiVersion

/-- The parameters that the operation declares. -/
def declared (entry : OperationEntry) (openapiVersion : String) : List ParameterSpec :=
  parseParameters (entry.operationObject.lookup "parameters") openapiVersion

def load (openapiVersion : String) (entry : OperationEntry) : LoadedOperation :=
  loadOperation openapiVersion entry.pathTemplate (entry.inherited openapiVersion)
    entry.methodName entry.operationObject

end OperationEntry

/-- The operations of a path item, in the order of the methods. -/
def pathEntries (pathTemplate : String) (pathObject : List (String × Value))
    (methods : List String) : List OperationEntry :=
  methods.filterMap fun methodName =>
    ((pathObject.lookup methodName).bind Value.asObject).map fun operationObject =>
      ⟨pathTemplate, pathObject, methodName, operationObject⟩

def operationEntries (paths : List (String × Value)) : List OperationEntry :=
  paths.flatMap fun path =>
    (path.2.asObject.map fun pathObject => pathEntries path.1 pathObject documentMethods).getD []

/-- The operations of `from_resolved`, with all that is read for them. -/
def loadDocument (root : Value) : Except RuntimeError (List LoadedOperation) :=
  match (root.get "openapi").bind Value.asStr with
  | none => .error (.parse "openapi version field missing")
  | some version =>
      if "3.0".toList.isPrefixOf version.toList || "3.1".toList.isPrefixOf version.toList then
        match (root.get "paths").bind Value.asObject with
        | none => .error (.parse "openapi paths object missing")
        | some paths => .ok ((operationEntries paths).map (OperationEntry.load version))
      else
        .error (.parse ("unsupported openapi version: " ++ version ++
          ", expected 3.0.x or 3.1.x"))

theorem asObject_eq_some {value : Value} {members : List (String × Value)} :
    value.asObject = some members ↔ value = .object members := by
  cases value <;> simp [Value.asObject]

theorem asStr_eq_some {value : Value} {text : String} :
    value.asStr = some text ↔ value = .string text := by
  cases value <;> simp [Value.asStr]

section Readers

variable {β : Type} {read : Value → Option β} {form : β → Value} {node : Option Value}

theorem bind_eq_some_of_reads (reads : ∀ {value content}, read value = some content ↔
    value = form content) {content : β} :
    node.bind read = some content ↔ node = some (form content) := by
  simp only [Option.bind_eq_some_iff, reads, exists_eq_right]

theorem bind_eq_none_of_reads (reads : ∀ {value content}, read value = some content ↔
    value = form content) (other : ∀ content, node ≠ some (form content)) :
    node.bind read = none :=
  Option.eq_none_iff_forall_ne_some.mpr fun content found =>
    other content ((bind_eq_some_of_reads reads).mp found)

end Readers

section Entries

variable {pathTemplate methodName : String} {pathObject operationObject : List (String × Value)}

theorem pathEntries_cons_of_some
    (declared : (pathObject.lookup methodName).bind Value.asObject = some operationObject)
    (rest : List String) :
    pathEntries pathTemplate pathObject (methodName :: rest) =
      ⟨pathTemplate, pathObject, methodName, operationObject⟩ ::
        pathEntries pathTemplate pathObject rest :=
  List.filterMap_cons_some (by rw [declared]; rfl)

theorem pathEntries_cons_of_none
    (absent : (pathObject.lookup methodName).bind Value.asObject = none) (rest : List String) :
    pathEntries pathTemplate pathObject (methodName :: rest) =
      pathEntries pathTemplate pathObject rest :=
  List.filterMap_cons_none (by rw [absent]; rfl)

end Entries

/-- What the responses of an operation are parsed to, whatever else is read. -/
def readResponses (openapiVersion : String) (_ operationObject : List (String × Value)) :
    Except RuntimeError (List ResponseSpec) :=
  .ok (parseResponses operationObject openapiVersion)

/-- Every operation of a path item is loaded from the item and from itself. -/
theorem loadPathItem_eq (version pathTemplate : String) (pathObject : List (String × Value))
    (methods : List String) :
    loadPathItem readResponses version pathTemplate pathObject methods =
      .ok ((pathEntries pathTemplate pathObject methods).map fun entry =>
        (entry.load version).toOperationSpec) := by
  induction methods with
  | nil => rfl
  | cons methodName rest ih =>
      unfold loadPathItem
      split
      next operationObject found =>
        have declared : (pathObject.lookup methodName).bind Value.asObject =
            some operationObject := by rw [found]; rfl
        rw [ih, pathEntries_cons_of_some declared]
        rfl
      next other =>
        rw [ih, pathEntries_cons_of_none (bind_eq_none_of_reads asObject_eq_some other)]

theorem loadPaths_eq (version : String) (paths : List (String × Value)) :
    loadPaths readResponses version paths =
      .ok ((operationEntries paths).map fun entry => (entry.load version).toOperationSpec) := by
  induction paths with
  | nil => rfl
  | cons path rest ih =>
      obtain ⟨pathTemplate, pathItem⟩ := path
      unfold operationEntries
      rw [List.flatMap_cons, List.map_append]
      cases pathItem with
      | object pathObject =>
          unfold loadPaths
          rw [loadPathItem_eq, ih]
          rfl
      | null | bool | number | string | array => exact ih

/-- The document that requests are matched against has the operations that are loaded. -/
theorem fromResolved_eq_map (root : Value) :
    OpenApiRuntime.fromResolved readResponses root =
      (loadDocument root).map fun operations =>
        OpenApiRuntime.of (operations.map fun operation => operation.toOperationSpec) := by
  unfold OpenApiRuntime.fromResolved loadDocument
  split
  next version openapi =>
    rw [openapi]
    simp only [Option.bind_some, Value.asStr]
    split
    next =>
      split
      next paths found =>
        rw [found, loadPaths_eq]
        simp only [Option.bind_some, Value.asObject, Except.map, List.map_map]
        rfl
      next other =>
        rw [bind_eq_none_of_reads asObject_eq_some other]
        rfl
    next => rfl
  next other =>
    rw [bind_eq_none_of_reads asStr_eq_some other]
    rfl

/-- What identifies a parameter. -/
def ParameterSpec.key (parameter : ParameterSpec) : ParameterIn × String :=
  (parameter.location, parameter.name)

theorem effectiveParameters_eq (inherited operationParams : List ParameterSpec) :
    effectiveParameters inherited operationParams =
      redeclareAll ParameterSpec.key inherited operationParams := by
  unfold effectiveParameters redeclareAll
  congr 1
  funext parameters parameter
  unfold redeclare
  congr 1
  refine List.filter_congr fun existing _ => Bool.eq_iff_iff.mpr ?_
  simp only [ParameterSpec.key, Bool.or_eq_true, bne_iff_ne, ne_eq, decide_eq_true_eq,
    Prod.mk.injEq, not_and_or]

theorem mem_of_mem_effectiveParameters {inherited operationParams : List ParameterSpec}
    {parameter : ParameterSpec}
    (member : parameter ∈ effectiveParameters inherited operationParams) :
    parameter ∈ inherited ∨ parameter ∈ operationParams := by
  rw [effectiveParameters_eq, redeclareAll_eq] at member
  rcases List.mem_append.mp member with kept | later
  · exact .inl (List.mem_filter.mp kept).1
  · exact .inr (mem_of_mem_lastDeclared later)

theorem required_of_mem_parseParameters {parametersNode : Option Value} {openapiVersion : String}
    {parameter : ParameterSpec} (member : parameter ∈ parseParameters parametersNode openapiVersion)
    (inPath : parameter.location = .path) : parameter.required = true := by
  unfold parseParameters at member
  split at member
  next => cases member
  next nodes _ =>
    obtain ⟨node, _, parsed⟩ := List.mem_filterMap.mp member
    obtain ⟨parameterObject, _, parsed⟩ := Option.bind_eq_some_iff.mp parsed
    obtain ⟨name, _, parsed⟩ := Option.bind_eq_some_iff.mp parsed
    obtain ⟨location, _, rfl⟩ := Option.map_eq_some_iff.mp parsed
    exact Bool.or_eq_true_iff.mpr (.inr (decide_eq_true inPath))

/-- Whatever it is declared as, a path parameter of a loaded operation is required. -/
theorem required_of_load {openapiVersion : String} {entry : OperationEntry}
    {parameter : ParameterSpec} (member : parameter ∈ (entry.load openapiVersion).parameters)
    (inPath : parameter.location = .path) : parameter.required = true := by
  rcases mem_of_mem_effectiveParameters member with inherited | declared
  · exact required_of_mem_parseParameters inherited inPath
  · exact required_of_mem_parseParameters declared inPath

/-- The operation is that of the entry, with the parameters in effect there. -/
structure LoadedFrom (openapiVersion : String) (entry : OperationEntry)
    (operation : LoadedOperation) : Prop where
  signature : operation.signature = (asciiUppercase entry.methodName, entry.pathTemplate)
  parameters : Redeclares ParameterSpec.key (entry.inherited openapiVersion)
    (entry.declared openapiVersion) operation.parameters

theorem loadedFrom_load (openapiVersion : String) (entry : OperationEntry) :
    LoadedFrom openapiVersion entry (entry.load openapiVersion) where
  signature := rfl
  parameters := by
    have merged := effectiveParameters_eq (entry.inherited openapiVersion)
      (entry.declared openapiVersion)
    rw [show (entry.load openapiVersion).parameters = _ from merged]
    exact redeclares_redeclareAll _ _

theorem of_loadDocument {root : Value} {operations : List LoadedOperation}
    (loaded : loadDocument root = .ok operations) :
    ∃ version paths, root.get "openapi" = some (.string version) ∧
      root.get "paths" = some (.object paths) ∧
      operations = (operationEntries paths).map (OperationEntry.load version) := by
  unfold loadDocument at loaded
  split at loaded
  next => cases loaded
  next version openapi =>
    split at loaded
    next =>
      split at loaded
      next => cases loaded
      next paths found =>
        cases loaded
        exact ⟨version, paths, (bind_eq_some_of_reads asStr_eq_some).mp openapi,
          (bind_eq_some_of_reads asObject_eq_some).mp found, rfl⟩
    next => cases loaded

/--
A parameter of an operation replaces those of its location and name, whether
they are inherited or declared before it; the operations of a document are
loaded with the parameters that are left.
-/
theorem effectiveParameters_redeclare :
    (∀ inherited operationParams : List ParameterSpec,
      Redeclares ParameterSpec.key inherited operationParams
        (effectiveParameters inherited operationParams)) ∧
    ∀ (root : Value) (operations : List LoadedOperation), loadDocument root = .ok operations →
      ∃ version paths, root.get "openapi" = some (.string version) ∧
        root.get "paths" = some (.object paths) ∧
        List.Forall₂ (LoadedFrom version) (operationEntries paths) operations := by
  constructor
  · intro inherited operationParams
    rw [effectiveParameters_eq]
    exact redeclares_redeclareAll inherited operationParams
  · intro root operations loaded
    obtain ⟨version, paths, openapi, found, rfl⟩ := of_loadDocument loaded
    refine ⟨version, paths, openapi, found, ?_⟩
    rw [List.forall₂_map_right_iff]
    exact List.forall₂_same.mpr fun entry _ => loadedFrom_load version entry

/-- A parameter under `name`, located in `place`. -/
def parameterNode (name place : String) (required : Bool) : Value :=
  .object [("in", .string place), ("name", .string name), ("required", .bool required)]

/-- The operation declares one inherited header anew, and another parameter twice. -/
def overridingDocument : Value :=
  .object [("openapi", .string "3.0.3"), ("paths", .object [("/pets", .object [
    ("get", .object [("parameters", .array [parameterNode "page" "query" false,
      parameterNode "trace" "header" true, parameterNode "page" "query" true])]),
    ("parameters", .array [parameterNode "trace" "header" false,
      parameterNode "limit" "query" false])])])]

theorem overridingDocument_parameters :
    ∃ operations, loadDocument overridingDocument = .ok operations ∧
      (operations.map fun operation => operation.parameters.map fun parameter =>
          (parameter.name, parameter.required)) =
        [[("limit", false), ("trace", true), ("page", true)]] ∧
      ∃ version paths, overridingDocument.get "openapi" = some (.string version) ∧
        overridingDocument.get "paths" = some (.object paths) ∧
        List.Forall₂ (LoadedFrom version) (operationEntries paths) operations :=
  ⟨_, rfl, by decide, effectiveParameters_redeclare.2 overridingDocument _ rfl⟩

end SpecMock.Runtime
