import SpecMock.Runtime.Proxy

/-!
# The schema of an upstream status

The most specific response for a status is the one of its code, else the one
of its range, else `default`.  The lookup knows no ranges, and it goes on to
`default` from a response of the code that has no schema.
-/

namespace SpecMock.Runtime

open SpecMock.Library SpecMock.Core

/-- The selector of all the codes with the first digit of a code. -/
def rangeSelector (status : Nat) : String := toString (status / 100) ++ "XX"

namespace OperationSpec

def mostSpecificResponse (operation : OperationSpec) (status : Nat) : Option ResponseSpec :=
  (operation.responseFor (toString status)).or
    ((operation.responseFor (rangeSelector status)).or (operation.responseFor "default"))

def mostSpecificSchema (operation : OperationSpec) (status : Nat) : Option Value :=
  (operation.mostSpecificResponse status).bind ResponseSpec.jsonSchema

def defaultSchema (operation : OperationSpec) : Option Value :=
  (operation.responseFor "default").bind ResponseSpec.jsonSchema

end OperationSpec

/-- A JSON response is valid under the schema of the most specific declared one, if it has any. -/
def Conforms (libraries : RequestLibraries) (operation : OperationSpec)
    (response : UpstreamResponse) (bytes : List UInt8) : Prop :=
  ∀ schema, operation.mostSpecificSchema response.status = some schema →
    headerIsJson response.headers = true →
      ∃ json, libraries.fromSlice bytes = .ok json ∧ libraries.validateInstance schema json = .ok []

/-- The responses of a status are judged by the most specific declared one. -/
structure JudgedMostSpecifically (operation : OperationSpec) (status : Nat) : Prop where
  schema : operation.responseSchemaForStatus status = operation.mostSpecificSchema status
  /-- A code that is declared without a schema has none. -/
  schemaless : ∀ response, operation.responseFor (toString status) = some response →
    response.jsonSchema = none → operation.responseSchemaForStatus status = none
  /-- A conforming response is passed on. -/
  passed : ∀ (libraries : RequestLibraries) (upstream : Upstream) (request : RawRequest)
    (response : UpstreamResponse) (bytes : List UInt8),
    Arrives upstream request response bytes → response.status = status →
      Conforms libraries operation response bytes →
        proxyRequest libraries upstream request operation =
          .passed response.status response.headers bytes

/--
A response of the code has a schema, or `default` has none; without one of the
code, the response of the range has the same schema as `default`, if there is
one.
-/
def DefaultAgrees (operation : OperationSpec) (status : Nat) : Prop :=
  match operation.responseFor (toString status) with
  | some exact => exact.jsonSchema = none → operation.defaultSchema = none
  | none => ∀ ranged, operation.responseFor (rangeSelector status) = some ranged →
      ranged.jsonSchema = operation.defaultSchema

/-- The lookup finds the most specific schema exactly if `default` agrees with it. -/
theorem responseSchemaForStatus_eq_iff (operation : OperationSpec) (status : Nat) :
    operation.responseSchemaForStatus status = operation.mostSpecificSchema status ↔
      DefaultAgrees operation status := by
  unfold OperationSpec.responseSchemaForStatus OperationSpec.mostSpecificSchema
    OperationSpec.mostSpecificResponse DefaultAgrees
  rw [← OperationSpec.defaultSchema]
  cases exact : operation.responseFor (toString status) with
  | some response =>
      cases schema : response.jsonSchema with
      | some own => simp [schema]
      | none => simp [schema]
  | none =>
      cases ranged : operation.responseFor (rangeSelector status) with
      | some response => simp [eq_comm]
      | none => simp [OperationSpec.defaultSchema]

/-- Under the schema it conforms to, a response is passed on. -/
theorem judgeResponse_of_conforms {libraries : RequestLibraries} {operation : OperationSpec}
    {response : UpstreamResponse} {bytes : List UInt8}
    (found : operation.responseSchemaForStatus response.status =
      operation.mostSpecificSchema response.status)
    (conforms : Conforms libraries operation response bytes) :
    judgeResponse libraries operation response bytes =
      .passed response.status response.headers bytes := by
  rw [judgeResponse, found]
  cases declared : operation.mostSpecificSchema response.status with
  | none => rfl
  | some schema =>
      by_cases json : headerIsJson response.headers = true
      · obtain ⟨value, parsed, valid⟩ := conforms schema declared json
        simp only [if_pos json, judgeJson, parsed, valid]
      · simp only [if_neg json]

/-- The most specific response judges a status exactly if `default` agrees with it. -/
theorem judged_most_specifically_iff (operation : OperationSpec) (status : Nat) :
    JudgedMostSpecifically operation status ↔ DefaultAgrees operation status := by
  constructor
  · intro judged
    exact (responseSchemaForStatus_eq_iff operation status).mp judged.schema
  · intro agrees
    have found := (responseSchemaForStatus_eq_iff operation status).mpr agrees
    constructor
    · exact found
    · intro response declared unschemed
      rw [found, OperationSpec.mostSpecificSchema, OperationSpec.mostSpecificResponse, declared,
        Option.some_or, Option.bind_some, unschemed]
    · intro libraries upstream request response bytes arrives same conforms
      rw [proxyRequest_of_arrives libraries operation arrives]
      exact judgeResponse_of_conforms (same ▸ found) conforms

/-- An operation that declares a bare `204` beside a schema for errors. -/
def bareDeletion : OperationSpec where
  method := "DELETE"
  pathTemplate := "/pets/{id}"
  responses := [⟨"204", [], ∅⟩,
    ⟨"default", [⟨"application/json", some (.object [("required", .array [.string "error"])]),
      none, ∅⟩], ∅⟩]

/-- The schema for errors judges a response that is declared without one. -/
theorem bare_response_judged_as_error :
    (bareDeletion.responseFor "204").bind ResponseSpec.jsonSchema = none ∧
      bareDeletion.responseSchemaForStatus 204 ≠ none ∧
      ¬ JudgedMostSpecifically bareDeletion 204 := by
  have found : bareDeletion.responseSchemaForStatus 204 ≠ none := by decide
  refine ⟨by decide, found, ?_⟩
  intro judged
  exact found (judged.schemaless _ rfl (by decide))

end SpecMock.Runtime
