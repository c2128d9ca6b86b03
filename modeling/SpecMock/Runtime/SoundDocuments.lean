import SpecMock.Core.HeldValues
import SpecMock.Runtime.ProxiedMocks

/-!
# Documents whose mocks pass

In a sound document a status is a code or `default`, a JSON body arrives and has
the schema that its status is judged by, the schema describes what the generator
makes of it, and the examples are valid.  Whatever a mock of such a document
answers without scenarios, a proxy of the same document hands on.
-/

namespace SpecMock.Runtime

open SpecMock.Library SpecMock.Core

/-! ## Sound documents -/

/-- The value that a media type is sent as. -/
def HeaderRules.sentType (rules : HeaderRules) (mediaType : String) : String :=
  if rules.validValue mediaType then mediaType else "application/json"

/-- Bodies of the media type are judged as JSON. -/
def HeaderRules.SendsJson (rules : HeaderRules) (mediaType : String) : Prop :=
  containsText "application/json" (asciiLowercase (rules.sentType mediaType)) = true

/-- What the JSON library reads back: floats of some texts, and values nested to a depth. -/
structure ReadingLimits where
  floats : String → Prop
  depth : Nat

/-- A value as a document holds it, within the limits. -/
def ReadingLimits.Hold (limits : ReadingLimits) (value : Value) : Prop :=
  value.Held limits.floats limits.depth

/-- The libraries read the text of a value that is valid under a schema, and find it valid. -/
structure Accepts (schemas : SchemaRules) (reading : RequestLibraries) (limits : ReadingLimits)
    (schema : Value) : Prop where
  read : ∀ value, limits.Hold value → Schema.valid schemas .jsonSchema schema value = true →
    reading.fromSlice (Utf8.encode value.toText.toList) = .ok value
  valid : ∀ value, limits.Hold value → Schema.valid schemas .jsonSchema schema value = true →
    reading.validateInstance schema value = .ok []

section Sound

variable (schemas : SchemaRules) (reading : RequestLibraries) (limits : ReadingLimits)
  (rules : HeaderRules)

/-- A value of the document that is valid under a schema. -/
def ExampleOf (schema value : Value) : Prop :=
  limits.Hold value ∧ Schema.valid schemas .jsonSchema schema value = true

structure MediaTypeSpec.Sound (entry : MediaTypeSpec) (schema : Value) : Prop where
  encoded : isJsonMediaType entry.mediaType = true
  declared : entry.schema = some schema
  held : limits.Hold schema
  generatable : Generatable schemas schema
  accepts : Accepts schemas reading limits schema
  /-- The example is valid. -/
  single : ∀ value, entry.exampleValue = some value → ExampleOf schemas limits schema value
  /-- The named examples are valid. -/
  named : ∀ found ∈ entry.namedExamples.entries, ExampleOf schemas limits schema found.2

structure ResponseSpec.Sound (method : String) (response : ResponseSpec) : Prop where
  /-- The status is a code as it is written, or `default`. -/
  status : response.status = "default" ∨
    toString (parseStatusCode response.status) = response.status
  sendable : parseStatusCode response.status ≤ 999
  /-- An answer with the status is final and no redirect. -/
  final : parseStatusCode response.status / 100 = 2 ∨ 400 ≤ parseStatusCode response.status
  /-- What is sent as JSON arrives, and has the schema that the status is judged by. -/
  json : ∀ entry ∈ response.content, rules.SendsJson entry.mediaType →
    carriesBody method (parseStatusCode response.status) = true ∧
      ∃ schema, response.jsonSchema = some schema ∧ entry.Sound schemas reading limits schema
  /-- No media type is declared as a header of a response without content. -/
  bare : response.content = [] → ∀ header ∈ response.headers.entries,
    asciiLowercase header.1 ≠ "content-type"
  /-- No header about the transfer is declared. -/
  plain : ∀ header ∈ response.headers.entries, asciiLowercase header.1 ∉ transferHeaders

structure OperationSpec.Sound (operation : OperationSpec) : Prop where
  distinct : (operation.responses.map ResponseSpec.status).Nodup
  responses : ∀ response ∈ operation.responses,
    response.Sound schemas reading limits rules operation.method

end Sound

theorem ResponseSpec.Sound.codes {schemas : SchemaRules} {reading : RequestLibraries}
    {limits : ReadingLimits} {rules : HeaderRules} {method : String} {response : ResponseSpec}
    (sound : response.Sound schemas reading limits rules method) :
    100 ≤ parseStatusCode response.status ∧ parseStatusCode response.status ≤ 999 := by
  refine ⟨?_, sound.sendable⟩
  rcases sound.final with success | error <;> omega

/-! ## The schema of a selected response -/

section Selected

variable {schemas : SchemaRules} {reading : RequestLibraries} {limits : ReadingLimits}
  {rules : HeaderRules} {operation : OperationSpec} {response : ResponseSpec}

theorem responseFor_of_mem (distinct : (operation.responses.map ResponseSpec.status).Nodup)
    (member : response ∈ operation.responses) :
    operation.responseFor response.status = some response := by
  unfold OperationSpec.responseFor
  have named : (operation.responses.find? fun other => other.status == response.status).isSome :=
    List.find?_isSome.mpr ⟨response, member, by simp⟩
  obtain ⟨found, first⟩ := Option.isSome_iff_exists.mp named
  rw [first]
  have same : found.status = response.status := by simpa using List.find?_some first
  exact congrArg some
    (List.inj_on_of_nodup_map distinct (List.mem_of_find?_eq_some first) member same)

theorem code_ne_default (code : Nat) : toString code ≠ "default" := by
  intro same
  have digit := nat_chars code 'd' (by rw [same]; decide)
  exact absurd digit (by decide)

theorem mem_of_selectResponse {responses : List ResponseSpec} {prefer : PreferDirectives}
    (selected : selectResponse responses prefer = some response) : response ∈ responses := by
  unfold selectResponse at selected
  split at selected
  · exact List.mem_of_find?_eq_some selected
  · rcases Option.or_eq_some_iff.mp selected with exact | ⟨_, selected⟩
    · exact List.mem_of_find?_eq_some exact
    rcases Option.or_eq_some_iff.mp selected with ranged | ⟨_, selected⟩
    · exact List.mem_of_find?_eq_some ranged
    rcases Option.or_eq_some_iff.mp selected with fallback | ⟨_, first⟩
    · exact List.mem_of_find?_eq_some fallback
    · exact List.mem_of_mem_head? first

/-- The default response is selected only where success is not declared. -/
theorem success_undeclared {prefer : PreferDirectives}
    (selected : selectResponse operation.responses prefer = some response)
    (fallback : response.status = "default") : operation.responseFor "200" = none := by
  unfold selectResponse at selected
  split at selected
  next code _ =>
    have named : response.status = toString code := by simpa using List.find?_some selected
    exact absurd (named.symm.trans fallback) (code_ne_default code)
  next =>
    cases success : operation.responseFor "200" with
    | none => rfl
    | some found =>
        unfold OperationSpec.responseFor at success
        rw [success, Option.some_or] at selected
        cases selected
        have named : response.status = "200" := by simpa using List.find?_some success
        exact absurd (named.symm.trans fallback) (by decide)

/-- What is mocked with a response is judged by its schema, if it has one. -/
theorem responseSchemaForStatus_selected {prefer : PreferDirectives} {schema : Value}
    (sound : operation.Sound schemas reading limits rules)
    (selected : selectResponse operation.responses prefer = some response)
    (declared : response.jsonSchema = some schema) :
    operation.responseSchemaForStatus (parseStatusCode response.status) = some schema := by
  have member := mem_of_selectResponse selected
  have found := responseFor_of_mem sound.distinct member
  unfold OperationSpec.responseSchemaForStatus
  rcases (sound.responses response member).status with fallback | written
  · have code : toString (parseStatusCode response.status) = "200" := by
      rw [fallback]
      decide
    rw [fallback] at found
    rw [code, success_undeclared selected fallback, Option.bind_none, found, Option.bind_some,
      declared]
  · rw [written, found, Option.bind_some, declared]

end Selected

/-! ## What is mocked -/

section Mocked

variable {libraries : Libraries} {schemas : SchemaRules} {reading : RequestLibraries}
  {limits : ReadingLimits} {rules : HeaderRules} {operation : OperationSpec} {seed : BitVec 64}
  {prefer : PreferDirectives} {mock : MockHttpResponse}

/-- A mocked response with the declared response it is made from. -/
structure MadeFrom (libraries : Libraries) (seed : BitVec 64) (prefer : PreferDirectives)
    (response : ResponseSpec) (mock : MockHttpResponse) : Prop where
  status : mock.status = parseStatusCode response.status
  headers : ∀ header ∈ mock.headers, ∃ spec, (header.1, spec) ∈ response.headers.entries
  content : (response.content = [] ∧ mock.mediaType = none) ∨
    ∃ entry ∈ response.content, mock.mediaType = some entry.mediaType ∧
      entry.preferredBody libraries seed prefer = .ok mock.body

theorem mem_generateResponseHeaders {headers : OrderedMap String ResponseHeaderSpec}
    {header : String × String}
    (member : header ∈ generateResponseHeaders libraries headers seed) :
    ∃ spec, (header.1, spec) ∈ headers.entries := by
  unfold generateResponseHeaders at member
  obtain ⟨declared, listed, made⟩ := List.mem_filterMap.mp member
  obtain ⟨value, _, rfl⟩ := Option.map_eq_some_iff.mp made
  exact ⟨declared.2, listed⟩

theorem madeFrom_of_mockResponse
    (mocked : operation.mockResponse libraries seed prefer = .ok mock) :
    ∃ response, selectResponse operation.responses prefer = some response ∧
      MadeFrom libraries seed prefer response mock := by
  unfold OperationSpec.mockResponse at mocked
  split at mocked
  · cases mocked
  next response selected =>
    refine ⟨response, selected, ?_⟩
    unfold ResponseSpec.negotiated at mocked
    dsimp only at mocked
    by_cases bare : response.mediaTypes = []
    · rw [if_pos bare] at mocked
      cases mocked
      exact ⟨rfl, fun _ => mem_generateResponseHeaders, .inl ⟨List.map_eq_nil_iff.mp bare, rfl⟩⟩
    · rw [if_neg bare] at mocked
      cases chosen : negotiateMediaType libraries.qualities response.mediaTypes
          prefer.mediaType with
      | none =>
          rw [chosen] at mocked
          cases mocked
      | some mediaType =>
          rw [chosen, ResponseSpec.represented] at mocked
          cases found : response.mediaTypeEntry mediaType with
          | none =>
              rw [found] at mocked
              cases mocked
          | some entry =>
              rw [found] at mocked
              dsimp only at mocked
              unfold ResponseSpec.mediaTypeEntry at found
              have named : entry.mediaType = mediaType := by simpa using List.find?_some found
              cases body : entry.preferredBody libraries seed prefer with
              | error error =>
                  rw [body] at mocked
                  cases mocked
              | ok body' =>
                  rw [body] at mocked
                  cases mocked
                  exact ⟨rfl, fun _ => mem_generateResponseHeaders, .inr ⟨entry,
                    List.mem_of_find?_eq_some found, congrArg some named.symm, body⟩⟩

/-- The location is rendered under the name that is declared. -/
theorem MadeFrom.located {response : ResponseSpec}
    (made : MadeFrom libraries seed prefer response mock) (template : String)
    (params : PathParams) : MadeFrom libraries seed prefer response
      { mock with headers := renderLocationHeader mock.headers template params } := by
  refine ⟨made.status, fun header member => ?_, made.content⟩
  unfold renderLocationHeader at member
  obtain ⟨declared, listed, rfl⟩ := List.mem_map.mp member
  obtain ⟨spec, entry⟩ := made.headers declared listed
  refine ⟨spec, ?_⟩
  split <;> exact entry

/-- What the generator makes of a sound media type is valid. -/
theorem exampleOf_generated {entry : MediaTypeSpec} {schema value : Value}
    (lawful : libraries.random.Lawful) (sound : entry.Sound schemas reading limits schema)
    (made : generated libraries schema seed = .ok value) :
    ExampleOf schemas limits schema value := by
  unfold generated Faker.generateJsonValue at made
  have valid := Faker.ensures_generateWithRng lawful sound.generatable
    (Faker.maximumDepth + 1) (libraries.random.seedFromU64 seed)
  have held := Faker.held_generateWithRng lawful sound.generatable sound.held
    (Faker.maximumDepth + 1) (libraries.random.seedFromU64 seed)
  split at made
  · cases made
  next result next run =>
    rw [run] at valid held
    cases made
    exact ⟨held, valid⟩

/-- A sound media type has a body, and it is valid. -/
theorem exampleOf_preferredBody {entry : MediaTypeSpec} {schema : Value} {body : Option Value}
    (lawful : libraries.random.Lawful) (sound : entry.Sound schemas reading limits schema)
    (made : entry.preferredBody libraries seed prefer = .ok body) :
    ∃ value, body = some value ∧ ExampleOf schemas limits schema value := by
  have fresh : ∀ {body}, (generated libraries schema seed).map some = .ok body →
      ∃ value, body = some value ∧ ExampleOf schemas limits schema value := by
    intro body made
    cases drawn : generated libraries schema seed with
    | error error =>
        rw [drawn] at made
        cases made
    | ok value =>
        rw [drawn] at made
        cases made
        exact ⟨value, rfl, exampleOf_generated lawful sound drawn⟩
  unfold MediaTypeSpec.preferredBody MediaTypeSpec.resolveBody at made
  rw [sound.declared] at made
  dsimp only at made
  split at made
  next name _ =>
    split at made
    next value found =>
      cases made
      exact ⟨value, rfl, sound.named _ (OrderedMap.get_mem found)⟩
    · cases made
  · split at made
    · exact fresh made
    · split at made
      next value example_ =>
        cases made
        exact ⟨value, rfl, sound.single value example_⟩
      · split at made
        next name value first =>
          cases made
          exact ⟨value, rfl, sound.named _ (List.mem_of_mem_head? first)⟩
        · exact fresh made

/-! ## What is sent -/

/-- The media type of a mocked response is its content type. -/
theorem headerIsJson_typed {mediaType : String} (typed : mock.mediaType = some mediaType) :
    headerIsJson (buildMockResponse rules mock).wireHeaders = true ↔ rules.SendsJson mediaType := by
  have value : (buildMockResponse rules mock).wireHeaders.get "content-type" =
      some (rules.sentType mediaType) := by
    unfold HttpAnswer.wireHeaders buildMockResponse Headers.get
    dsimp only
    rw [typed]
    dsimp only
    rw [List.map_append, List.find?_append]
    have others : ∀ headers : List (String × String),
        ((headers.filter fun header => header.1 != "content-type").map fun header =>
          (header.1, some header.2)).find? (fun header => header.1 == "content-type") = none := by
      intro headers
      refine List.find?_eq_none.mpr fun header member => ?_
      obtain ⟨kept, listed, rfl⟩ := List.mem_map.mp member
      simpa using (List.mem_filter.mp listed).2
    rw [others]
    rfl
  unfold HeaderRules.SendsJson
  rw [headerIsJson, value, Option.any_some]

/-- Without content a response has no content type. -/
theorem not_headerIsJson_bare (untyped : mock.mediaType = none)
    (bare : ∀ header ∈ mock.headers, asciiLowercase header.1 ≠ "content-type") :
    headerIsJson (buildMockResponse rules mock).wireHeaders = false := by
  have value : (buildMockResponse rules mock).wireHeaders.get "content-type" = none := by
    unfold HttpAnswer.wireHeaders buildMockResponse Headers.get
    dsimp only
    rw [untyped]
    dsimp only
    rw [List.map_map, List.find?_eq_none.mpr, Option.bind_none]
    intro header member
    obtain ⟨declared, listed, rfl⟩ := List.mem_map.mp member
    simpa using bare declared (List.mem_filter.mp listed).1
  rw [headerIsJson, value]
  rfl

theorem status_sent (sendable : 100 ≤ mock.status ∧ mock.status ≤ 999) :
    (buildMockResponse rules mock).status = mock.status := if_pos sendable

/-- A JSON body is sent as its text. -/
theorem bytes_sent {mediaType : String} {value : Value} (typed : mock.mediaType = some mediaType)
    (body : mock.body = some value) (encoded : isJsonMediaType mediaType = true) :
    (buildMockResponse rules mock).bytes = Utf8.encode value.toText.toList := by
  have payload : mock.payload = value.toText := by
    unfold MockHttpResponse.payload
    rw [body, typed]
    dsimp only
    unfold encodeBody
    exact if_pos encoded
  have sent : (buildMockResponse rules mock).body = mock.payload := rfl
  rw [HttpAnswer.bytes, sent, payload]

/-- What a mock of a sound operation sends does not break the document. -/
theorem not_breaks_of_sound {response : ResponseSpec} (lawful : libraries.random.Lawful)
    (sound : operation.Sound schemas reading limits rules)
    (selected : selectResponse operation.responses prefer = some response)
    (made : MadeFrom libraries seed prefer response mock) :
    ¬ Breaks reading operation operation.method (buildMockResponse rules mock) := by
  have whole := sound.responses response (mem_of_selectResponse selected)
  rintro ⟨json, judged, declared, invalid⟩
  rcases made.content with ⟨bare, untyped⟩ | ⟨entry, member, typed, mocked⟩
  · have silent : headerIsJson (buildMockResponse rules mock).wireHeaders = false := by
      refine not_headerIsJson_bare untyped fun header listed => ?_
      obtain ⟨spec, entry⟩ := made.headers header listed
      exact whole.bare bare (header.1, spec) entry
    exact Bool.noConfusion (silent.symm.trans json)
  · obtain ⟨carried, schema, found, content⟩ :=
      whole.json entry member ((headerIsJson_typed typed).mp json)
    obtain ⟨value, body, held, valid⟩ := exampleOf_preferredBody lawful content mocked
    have status : (buildMockResponse rules mock).status = mock.status :=
      status_sent (made.status ▸ whole.codes)
    rw [status, made.status, responseSchemaForStatus_selected sound selected found] at declared
    cases declared
    refine invalid value ?_ (content.accepts.valid value held valid)
    rw [HttpAnswer.delivered, status, made.status, if_pos carried,
      bytes_sent typed body content.encoded]
    exact content.accepts.read value held valid

/-- What a mock of a sound operation sends is plain. -/
theorem plain_of_sound {response : ResponseSpec}
    (sound : response.Sound schemas reading limits rules operation.method)
    (made : MadeFrom libraries seed prefer response mock) :
    (Served.rendered (buildMockResponse rules mock)).Plain := by
  constructor
  · change (buildMockResponse rules mock).status / 100 = 2 ∨
      400 ≤ (buildMockResponse rules mock).status
    rw [status_sent (made.status ▸ sound.codes), made.status]
    exact sound.final
  · intro header member
    obtain ⟨named, listed, rfl⟩ := List.mem_map.mp member
    have declared : ∀ header ∈ mock.headers.filter (fun header => rules.validName header.1 &&
        rules.validValue header.2), asciiLowercase header.1 ∉ transferHeaders := by
      intro header listed
      obtain ⟨spec, entry⟩ := made.headers header (List.mem_filter.mp listed).1
      exact sound.plain (header.1, spec) entry
    unfold buildMockResponse at listed
    dsimp only at listed ⊢
    cases typed : mock.mediaType with
    | none =>
        rw [typed] at listed
        obtain ⟨header, kept, rfl⟩ := List.mem_map.mp listed
        exact declared header kept
    | some mediaType =>
        rw [typed] at listed
        rcases List.mem_append.mp listed with kept | last
        · obtain ⟨header, allowed, rfl⟩ := List.mem_map.mp (List.mem_filter.mp kept).1
          exact declared header allowed
        · rw [List.mem_singleton.mp last]
          simp [transferHeaders]

end Mocked

/-- A problem of the server is plain. -/
theorem plain_problemResponse {problem : ProblemDetails} (proper : Proper problem) :
    (Served.rendered (problemResponse problem)).Plain := by
  have errors : ∀ status ∈ problemStatuses, 100 ≤ status ∧ status ≤ 999 ∧ 400 ≤ status := by
    decide
  obtain ⟨above, below, late⟩ := errors _ proper.listed
  have status : (Served.rendered (problemResponse problem)).status = problem.status :=
    if_pos ⟨above, below⟩
  refine ⟨.inr (late.trans_eq status.symm), ?_⟩
  simp [Served.headers, HttpAnswer.wireHeaders, problemResponse, transferHeaders]

/-! ## Runs -/

namespace HttpFallback

variable {libraries : Libraries} {schemas : SchemaRules} {reading : RequestLibraries}
  {limits : ReadingLimits} {rules : HeaderRules} {mock : HttpFallback}

/-- Every operation of the document is sound. -/
def Sound (schemas : SchemaRules) (reading : RequestLibraries) (limits : ReadingLimits)
    (rules : HeaderRules) (mock : HttpFallback) : Prop :=
  ∀ operations, mock.openapi = some operations →
    ∀ operation ∈ operations, operation.toOperationSpec.Sound schemas reading limits rules

/-- Without scenarios a mocked response is made from a declared one. -/
theorem madeFrom_of_handled {request : RawRequest} {operation : DeclaredOperation}
    {accepted : HttpRequest} {mocked : MockHttpResponse}
    (passed : mock.accept libraries reading request = .ok (operation, accepted))
    (handled : (fallbackHandler libraries mock.server none accepted).2 = .mocked mocked) :
    ∃ seed response prefer, selectResponse operation.responses prefer = some response ∧
      MadeFrom libraries seed prefer response mocked := by
  have accepts := accepted_of_accept passed
  obtain ⟨params, routed⟩ := accepts.routed
  rw [← accepts.method, ← accepts.path] at routed
  unfold fallbackHandler at handled
  rw [routed] at handled
  dsimp only at handled
  unfold HttpServer.mockFor at handled
  dsimp only at handled
  cases produced : operation.mockResponse libraries
      (mock.server.seedOf accepted.method accepted.path) accepted.prefer with
  | error error =>
      rw [produced] at handled
      cases handled
  | ok mock =>
      rw [produced] at handled
      cases handled
      obtain ⟨response, selected, made⟩ := madeFrom_of_mockResponse produced
      exact ⟨_, response, _, selected, made.located _ _⟩

/-- Without scenarios a mock of a sound document serves what the proxy hands on. -/
theorem not_withheld_of_sound (lawful : libraries.random.Lawful)
    (sound : mock.Sound schemas reading limits rules) (alone : mock.proxied = false)
    (upstream : Upstream) (request : RawRequest) :
    ¬ mock.Withheld libraries reading request
      (mock.serve libraries reading rules upstream none request).2 := by
  rintro ⟨operation, accepted, answer, passed, served, broken⟩
  rw [serve_of_accept libraries reading rules alone passed] at served
  obtain rfl := Served.rendered.inj served
  obtain ⟨mocked, handled⟩ := mocked_of_breaks reading rules broken
  obtain ⟨asked, operations, document, listed⟩ := mem_of_accept passed
  rw [handled, renderResponse, ← asked] at broken
  obtain ⟨seed, response, prefer, selected, made⟩ := madeFrom_of_handled passed handled
  exact not_breaks_of_sound lawful (sound operations document operation listed) selected made broken

/-- Whatever a mock of a sound document answers without scenarios is plain. -/
theorem plain_serve_of_sound (sound : mock.Sound schemas reading limits rules)
    (alone : mock.proxied = false) (upstream : Upstream) (request : RawRequest) :
    (mock.serve libraries reading rules upstream none request).2.Plain := by
  cases passed : mock.accept libraries reading request with
  | error rejection =>
      have served : (mock.serve libraries reading rules upstream none request).2 =
          .rendered (problemResponse rejection.details) := by
        rw [serve, passed]
      rw [served]
      exact plain_problemResponse rejection.proper_details
  | ok found =>
      obtain ⟨operation, accepted⟩ := found
      rw [serve_of_accept libraries reading rules alone passed]
      dsimp only
      cases handled : (fallbackHandler libraries mock.server none accepted).2 with
      | unmocked error => exact plain_problemResponse error.proper_problem
      | refused failure => exact plain_problemResponse failure.proper_problem
      | mocked mocked =>
          obtain ⟨_, operations, document, listed⟩ := mem_of_accept passed
          obtain ⟨seed, response, prefer, selected, made⟩ := madeFrom_of_handled passed handled
          have whole := (sound operations document operation listed).responses response
            (mem_of_selectResponse selected)
          exact plain_of_sound whole made

/-- Without scenarios a mock has no state. -/
theorem serve_none (alone : mock.proxied = false) (upstream : Upstream) (request : RawRequest) :
    (mock.serve libraries reading rules upstream none request).1 = none := by
  cases passed : mock.accept libraries reading request with
  | error rejection => rw [serve, passed]
  | ok found =>
      obtain ⟨operation, accepted⟩ := found
      rw [serve_of_accept libraries reading rules alone passed]
      dsimp only
      unfold fallbackHandler
      split
      · rfl
      · split <;> rfl

end HttpFallback

/-- An object that says whether it is on. -/
def switchSchema : Value :=
  .object [("additionalProperties", .bool false),
    ("properties", .object [("on", .object [("type", .string "boolean")])]),
    ("required", .array [.string "on"]), ("type", .string "object")]

def switched (flag : Bool) : Value := .object [("on", .bool flag)]

/-- A switch is on or off. -/
def readSwitch : DeclaredOperation where
  method := "GET"
  pathTemplate := "/switch"
  responses := [
    ⟨"200", [⟨"application/json", some switchSchema, none, ∅⟩], ∅⟩,
    ⟨"default", [], ∅⟩]
  parameters := []
  requestBodySchema := none
  requestBodyRequired := false
  requestBodyMediaTypes := []

/-- Libraries that read two texts and validate by the meaning of schemas. -/
def switchReading : RequestLibraries where
  fromSlice bytes :=
    if bytes = Utf8.encode (switched true).toText.toList then .ok (switched true)
    else if bytes = Utf8.encode (switched false).toText.toList then .ok (switched false)
    else .error "expected value"
  formPairs _ := []
  parseFloat _ := none
  validateInstance schema value :=
    if Schema.valid .integers .jsonSchema schema value then .ok []
    else .ok [⟨"", "", "schema", "is not valid"⟩]

/-- No float is read back, and nothing that nests deeper than a schema. -/
def switchLimits : ReadingLimits := ⟨fun _ => False, 8⟩

/-- A member under each key at most, and none but this one. -/
theorem eq_singleton_of_sorted {members : List (String × Value)} {key : String}
    (sorted : SortedEntries.Sorted members) (only : ∀ member ∈ members, member.1 = key)
    (nonempty : members ≠ []) : ∃ value, members = [(key, value)] := by
  obtain _ | ⟨⟨name, value⟩, rest⟩ := members
  · exact absurd rfl nonempty
  obtain ⟨rfl, others⟩ := List.forall_mem_cons.mp only
  cases rest with
  | nil => exact ⟨value, rfl⟩
  | cons second rest =>
      have above := (List.pairwise_cons.mp sorted).1 second List.mem_cons_self
      rw [others second List.mem_cons_self] at above
      exact absurd above (lt_irrefl _)

theorem switched_of_valid {value : Value} (held : switchLimits.Hold value)
    (valid : Schema.valid .integers .jsonSchema switchSchema value = true) :
    ∃ flag, value = switched flag := by
  simp only [switchSchema, Schema.valid, Schema.obeys, Schema.assertion, Schema.admitsType,
    Bool.and_eq_true] at valid
  cases held with
  | @object _ members sorted each =>
      obtain ⟨closed, properties, required, -⟩ := valid
      have only : ∀ member ∈ members, member.1 = "on" := by
        intro member listed
        have permitted := List.all_eq_true.mp closed member listed
        simp only [Bool.or_false, decide_eq_true_eq] at permitted
        exact List.mem_singleton.mp permitted
      have nonempty : members ≠ [] := by
        rintro rfl
        exact absurd required (by decide)
      obtain ⟨flag, rfl⟩ := eq_singleton_of_sorted sorted only nonempty
      simp only [Schema.validMembers, Value.get, List.lookup_cons_self, Schema.valid, Schema.obeys,
        Schema.assertion, Schema.admitsType, Bool.and_eq_true] at properties
      cases flag with
      | bool flag => exact ⟨flag, rfl⟩
      | number number => cases number <;> simp [Schema.hasType] at properties
      | _ => simp [Schema.hasType] at properties
  | _ => simp [Schema.hasType] at valid

theorem accepts_switchSchema : Accepts .integers switchReading switchLimits switchSchema := by
  refine ⟨fun value held valid => ?_, fun value _ valid => if_pos valid⟩
  obtain ⟨flag, rfl⟩ := switched_of_valid held valid
  cases flag <;> decide

theorem generatable_switchSchema : Generatable .integers switchSchema := by
  refine .object _ ⟨⟨by decide, by decide⟩, rfl⟩ (by decide) (by decide) (by decide) ?_
  change ∀ property ∈ [("on", _)], _
  rw [List.forall_mem_singleton]
  exact .boolean _ ⟨⟨by decide, by decide⟩, rfl⟩

theorem hold_switchSchema : switchLimits.Hold switchSchema := by
  refine .object (by decide) ?_
  simp only [List.forall_mem_cons, List.not_mem_nil, false_implies, implies_true, and_true]
  refine ⟨.bool false, .object (by decide) ?_, .array ?_, .string "object"⟩
  · refine List.forall_mem_singleton.mpr (.object (by decide) ?_)
    exact List.forall_mem_singleton.mpr (.string "boolean")
  · exact List.forall_mem_singleton.mpr (.string "on")

theorem sound_readSwitch : readSwitch.Sound .integers switchReading switchLimits
    ⟨fun _ => true, fun _ => true⟩ := by
  refine ⟨by decide, List.forall_mem_cons.mpr ⟨?_, List.forall_mem_singleton.mpr ?_⟩⟩
  · refine ⟨.inr (by decide), by decide, by decide, List.forall_mem_singleton.mpr fun _ => ?_,
      nofun, nofun⟩
    exact ⟨by decide, switchSchema, rfl, by decide, rfl, hold_switchSchema,
      generatable_switchSchema, accepts_switchSchema, nofun, nofun⟩
  · exact ⟨.inl rfl, by decide, by decide, nofun, nofun, nofun⟩

end SpecMock.Runtime
