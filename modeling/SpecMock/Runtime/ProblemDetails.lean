import SpecMock.Core.JsonText
import SpecMock.Library.MergedEntries
import SpecMock.Runtime.RequestBodies

/-!
# Problem details

A request that is not answered with a mocked response is answered with a
problem document.  Its extension members stand beside the standard ones, so the
document is read back as the problem it was written for exactly if no extension
takes the name of a standard member.
-/

namespace SpecMock.Runtime

open SpecMock.Library SpecMock.Core SelfDelimiting

def titleForStatus (status : Nat) : String :=
  if status = 400 then "Bad Request"
  else if status = 401 then "Unauthorized"
  else if status = 403 then "Forbidden"
  else if status = 404 then "Not Found"
  else if status = 405 then "Method Not Allowed"
  else if status = 406 then "Not Acceptable"
  else if status = 409 then "Conflict"
  else if status = 413 then "Payload Too Large"
  else if status = 415 then "Unsupported Media Type"
  else if status = 422 then "Unprocessable Entity"
  else if status = 429 then "Too Many Requests"
  else if status = 500 then "Internal Server Error"
  else if status = 502 then "Bad Gateway"
  else if status = 503 then "Service Unavailable"
  else "Unknown Error"

structure ProblemDetails where
  /-- URI reference identifying the problem type. -/
  problemType : String
  title : String
  status : Nat
  detail : String
  /-- URI of the request that caused the error. -/
  requestUri : Option String
  errors : List ValidationIssue
  extensions : OrderedMap String Value

namespace ProblemDetails

def validationError (status : Nat) (issues : List ValidationIssue) : ProblemDetails :=
  ⟨"about:blank", titleForStatus status, status, "Request validation failed", none, issues, ∅⟩

def notFound (detail : String) : ProblemDetails :=
  ⟨"about:blank", "Not Found", 404, detail, none, [], ∅⟩

/-- A failure that is no schema violation. -/
def statefulError (status : Nat) (detail : String) (extensions : List (String × Value)) :
    ProblemDetails :=
  ⟨"about:blank", titleForStatus status, status, detail, none, [], .collect extensions⟩

def unsupportedMediaType (detail : String) : ProblemDetails :=
  ⟨"about:blank", "Unsupported Media Type", 415, detail, none, [], ∅⟩

def notAcceptable (detail : String) : ProblemDetails :=
  ⟨"about:blank", "Not Acceptable", 406, detail, none, [], ∅⟩

def payloadTooLarge (detail : String) : ProblemDetails :=
  ⟨"about:blank", "Payload Too Large", 413, detail, none, [], ∅⟩

end ProblemDetails

/-- The members of an issue, in the order of its fields. -/
def ValidationIssue.toValue (issue : ValidationIssue) : Value :=
  .object [("instance_pointer", .string issue.instancePointer),
    ("schema_pointer", .string issue.schemaPointer), ("keyword", .string issue.keyword),
    ("message", .string issue.message)]

namespace ProblemDetails

/-- The members of the fields that are always written. -/
def headMembers (problem : ProblemDetails) : List (String × Value) :=
  [("type", .string problem.problemType), ("title", .string problem.title),
    ("status", .number (.int problem.status)), ("detail", .string problem.detail)]

/-- The members of the fields that are left out when they are empty. -/
def optionalMembers (problem : ProblemDetails) : List (String × Value) :=
  (problem.requestUri.map fun uri => ("instance", Value.string uri)).toList ++
    if problem.errors = [] then []
    else [("errors", .array (problem.errors.map ValidationIssue.toValue))]

/-- The document, with the extensions behind the standard members. -/
def toValue (problem : ProblemDetails) : Value :=
  .object (problem.headMembers ++ problem.optionalMembers ++ problem.extensions.entries)

end ProblemDetails

/-- The member of a name; that it stands twice is an error. -/
def uniqueMember (members : List (String × Value)) (name : String) : Option (Option Value) :=
  match members.filter fun member => decide (member.1 = name) with
  | [] => some none
  | [member] => some (some member.2)
  | _ => none

def requiredText (members : List (String × Value)) (name : String) : Option String :=
  (uniqueMember members name).join.bind Value.asStr

/-- A whole number of sixteen bits. -/
def asU16 : Value → Option Nat
  | .number (.int value) => if 0 ≤ value ∧ value < 2 ^ 16 then some value.toNat else none
  | _ => none

/-- The fields of an issue by their names, or one after the other. -/
def ValidationIssue.fromValue : Value → Option ValidationIssue
  | .object members => do
      let instancePointer ← requiredText members "instance_pointer"
      let schemaPointer ← requiredText members "schema_pointer"
      let keyword ← requiredText members "keyword"
      let message ← requiredText members "message"
      return ⟨instancePointer, schemaPointer, keyword, message⟩
  | .array [.string instancePointer, .string schemaPointer, .string keyword, .string message] =>
      some ⟨instancePointer, schemaPointer, keyword, message⟩
  | _ => none

def optionalText (members : List (String × Value)) (name : String) : Option (Option String) :=
  match uniqueMember members name with
  | some none | some (some .null) => some none
  | some (some (.string text)) => some (some text)
  | _ => none

def optionalIssues (members : List (String × Value)) (name : String) :
    Option (List ValidationIssue) :=
  match uniqueMember members name with
  | some none => some []
  | some (some (.array items)) => items.mapM ValidationIssue.fromValue
  | _ => none

namespace ProblemDetails

/-- The names of the standard members. -/
def standardMembers : List String := ["type", "title", "status", "detail", "instance", "errors"]

/-- The problem of a document; whatever is no standard member is an extension. -/
def fromValue (document : Value) : Option ProblemDetails := do
  let members ← document.asObject
  let problemType ← requiredText members "type"
  let title ← requiredText members "title"
  let status ← (uniqueMember members "status").join.bind asU16
  let detail ← requiredText members "detail"
  let requestUri ← optionalText members "instance"
  let errors ← optionalIssues members "errors"
  return ⟨problemType, title, status, detail, requestUri, errors,
    .collect (members.filter fun member => decide (member.1 ∉ standardMembers))⟩

/-- No extension has the name of a standard member. -/
def Extends (problem : ProblemDetails) : Prop :=
  ∀ extension ∈ problem.extensions.entries, extension.1 ∉ standardMembers

end ProblemDetails

theorem ValidationIssue.fromValue_toValue (issue : ValidationIssue) :
    ValidationIssue.fromValue issue.toValue = some issue := by
  rfl

/-- Members of other names are not looked at. -/
theorem uniqueMember_append {members others : List (String × Value)} {name : String}
    (absent : ∀ member ∈ others, member.1 ≠ name) :
    uniqueMember (members ++ others) name = uniqueMember members name := by
  have none : (others.filter fun member => decide (member.1 = name)) = [] :=
    List.filter_eq_nil_iff.mpr fun member inside => by simpa using absent member inside
  rw [uniqueMember, List.filter_append, none, List.append_nil]
  rfl

namespace ProblemDetails

variable {problem : ProblemDetails}

theorem mapM_fromValue (issues : List ValidationIssue) :
    (issues.map ValidationIssue.toValue).mapM ValidationIssue.fromValue = some issues := by
  induction issues with
  | nil => rfl
  | cons issue rest ih => simp [ValidationIssue.fromValue_toValue, ih]

/-- Whatever document is read, its extensions are none of the standard members. -/
theorem extends_of_fromValue {document : Value}
    (read : ProblemDetails.fromValue document = some problem) : problem.Extends := by
  obtain ⟨members, _, read⟩ := Option.bind_eq_some_iff.mp read
  obtain ⟨problemType, _, read⟩ := Option.bind_eq_some_iff.mp read
  obtain ⟨title, _, read⟩ := Option.bind_eq_some_iff.mp read
  obtain ⟨status, _, read⟩ := Option.bind_eq_some_iff.mp read
  obtain ⟨detail, _, read⟩ := Option.bind_eq_some_iff.mp read
  obtain ⟨requestUri, _, read⟩ := Option.bind_eq_some_iff.mp read
  obtain ⟨errors, _, read⟩ := Option.bind_eq_some_iff.mp read
  cases read
  intro extension member
  have listed := SortedEntries.mem_of_mem_collect member
  exact of_decide_eq_true (List.mem_filter.mp listed).2

/-- What is written for the fields has the names of the standard members. -/
theorem standard_of_written {member : String × Value}
    (written : member ∈ problem.headMembers ++ problem.optionalMembers) :
    member.1 ∈ standardMembers := by
  rcases List.mem_append.mp written with always | optional
  · have named : problem.headMembers.map Prod.fst ⊆ standardMembers := by
      change ["type", "title", "status", "detail"] ⊆ standardMembers
      decide
    exact named (List.mem_map_of_mem always)
  · rcases List.mem_append.mp optional with uri | issues
    · obtain ⟨text, _, rfl⟩ := Option.map_eq_some_iff.mp (Option.mem_toList.mp uri)
      exact (by decide : "instance" ∈ standardMembers)
    · split at issues
      · cases issues
      · obtain rfl := List.mem_singleton.mp issues
        exact (by decide : "errors" ∈ standardMembers)

theorem filter_written (free : problem.Extends) :
    ((problem.headMembers ++ problem.optionalMembers ++ problem.extensions.entries).filter
      fun member => decide (member.1 ∉ standardMembers)) = problem.extensions.entries := by
  have written : (problem.headMembers ++ problem.optionalMembers).filter
      (fun member => decide (member.1 ∉ standardMembers)) = [] :=
    List.filter_eq_nil_iff.mpr fun member inside => by simp [standard_of_written inside]
  have others : (problem.extensions.entries).filter
      (fun member => decide (member.1 ∉ standardMembers)) = problem.extensions.entries :=
    List.filter_eq_self.mpr fun member inside => decide_eq_true (free member inside)
  rw [List.filter_append, written, others, List.nil_append]

theorem collect_entries (map : OrderedMap String Value) : OrderedMap.collect map.entries = map := by
  obtain ⟨entries, sorted⟩ := map
  simp only [OrderedMap.collect, SortedEntries.collect_of_sorted sorted]

theorem uniqueMember_instance : uniqueMember (problem.headMembers ++ problem.optionalMembers)
    "instance" = some (problem.requestUri.map Value.string) := by
  unfold optionalMembers
  cases problem.requestUri with
  | none =>
      split
      · rfl
      · rfl
  | some uri =>
      split
      · rfl
      · rfl

theorem uniqueMember_errors : uniqueMember (problem.headMembers ++ problem.optionalMembers)
    "errors" = some (if problem.errors = [] then none
      else some (.array (problem.errors.map ValidationIssue.toValue))) := by
  unfold optionalMembers
  cases problem.requestUri with
  | none =>
      split
      · rfl
      · rfl
  | some uri =>
      split
      · rfl
      · rfl

/-- A name of the fields that are always written is found among them. -/
theorem uniqueMember_head {name : String} (other : name ≠ "instance" ∧ name ≠ "errors") :
    uniqueMember (problem.headMembers ++ problem.optionalMembers) name =
      uniqueMember problem.headMembers name := by
  refine uniqueMember_append fun member optional => ?_
  rcases List.mem_append.mp optional with uri | issues
  · obtain ⟨text, _, rfl⟩ := Option.map_eq_some_iff.mp (Option.mem_toList.mp uri)
    exact other.1.symm
  · split at issues
    · cases issues
    · obtain rfl := List.mem_singleton.mp issues
      exact other.2.symm

theorem asU16_natCast {number : Nat} (small : number < 2 ^ 16) :
    asU16 (.number (.int number)) = some number := by
  have bounds : (0 : Int) ≤ number ∧ (number : Int) < 2 ^ 16 := ⟨Int.natCast_nonneg _, by omega⟩
  simp only [asU16, if_pos bounds, Int.toNat_natCast]

/-- The issues of a problem are read back, also where there are none. -/
theorem optionalIssues_written :
    optionalIssues (problem.headMembers ++ problem.optionalMembers) "errors" =
      some problem.errors := by
  unfold optionalIssues
  rw [uniqueMember_errors]
  by_cases none : problem.errors = []
  · rw [if_pos none, none]
  · rw [if_neg none]
    exact mapM_fromValue problem.errors

theorem optionalText_written :
    optionalText (problem.headMembers ++ problem.optionalMembers) "instance" =
      some problem.requestUri := by
  unfold optionalText
  rw [uniqueMember_instance]
  cases problem.requestUri with
  | none => rfl
  | some uri => rfl

/-- The standard members are found where they were written. -/
theorem fromValue_of_extends (free : problem.Extends) (small : problem.status < 2 ^ 16) :
    ProblemDetails.fromValue problem.toValue = some problem := by
  have members : ∀ name ∈ standardMembers, uniqueMember (problem.headMembers ++
      problem.optionalMembers ++ problem.extensions.entries) name =
        uniqueMember (problem.headMembers ++ problem.optionalMembers) name := fun name standard =>
    uniqueMember_append fun member inside same => free member inside (same ▸ standard)
  have head : ∀ name ∈ standardMembers, name ≠ "instance" ∧ name ≠ "errors" →
      uniqueMember (problem.headMembers ++ problem.optionalMembers ++ problem.extensions.entries)
        name = uniqueMember problem.headMembers name := fun name standard other =>
    (members name standard).trans (uniqueMember_head other)
  have problemType := congrArg (fun found => found.join.bind Value.asStr)
    (head "type" (by decide) (by decide))
  have title := congrArg (fun found => found.join.bind Value.asStr)
    (head "title" (by decide) (by decide))
  have status : (uniqueMember (problem.headMembers ++ problem.optionalMembers ++
      problem.extensions.entries) "status").join.bind asU16 = some problem.status := by
    have found : uniqueMember problem.headMembers "status" =
      some (some (.number (.int problem.status))) := rfl
    rw [head "status" (by decide) (by decide), found, Option.join_some, Option.bind_some,
      asU16_natCast small]
  have detail := congrArg (fun found => found.join.bind Value.asStr)
    (head "detail" (by decide) (by decide))
  have requestUri : optionalText (problem.headMembers ++ problem.optionalMembers ++
      problem.extensions.entries) "instance" = some problem.requestUri := by
    rw [← optionalText_written]
    unfold optionalText
    rw [members "instance" (by decide)]
  have errors : optionalIssues (problem.headMembers ++ problem.optionalMembers ++
      problem.extensions.entries) "errors" = some problem.errors := by
    rw [← optionalIssues_written]
    unfold optionalIssues
    rw [members "errors" (by decide)]
  have extensions := (congrArg OrderedMap.collect (filter_written free)).trans (collect_entries _)
  refine Option.bind_eq_some_iff.mpr ⟨_, problemType, ?_⟩
  refine Option.bind_eq_some_iff.mpr ⟨_, title, ?_⟩
  refine Option.bind_eq_some_iff.mpr ⟨_, status, ?_⟩
  refine Option.bind_eq_some_iff.mpr ⟨_, detail, ?_⟩
  refine Option.bind_eq_some_iff.mpr ⟨_, requestUri, ?_⟩
  refine Option.bind_eq_some_iff.mpr ⟨_, errors, ?_⟩
  rw [extensions]
  rfl

end ProblemDetails

theorem ValidationIssue.spelled (issue : ValidationIssue) : issue.toValue.Spelled := by
  refine .object fun member inside => ?_
  simp only [List.mem_cons, List.not_mem_nil, or_false] at inside
  rcases inside with rfl | rfl | rfl | rfl
  · exact .string _
  · exact .string _
  · exact .string _
  · exact .string _

namespace ProblemDetails

variable {problem other : ProblemDetails}

/-- The document has no floating point numbers but those of its extensions. -/
theorem spelled (extensions : ∀ extension ∈ problem.extensions.entries, extension.2.Spelled) :
    problem.toValue.Spelled := by
  refine .object fun member inside => ?_
  rcases List.mem_append.mp inside with written | added
  · rcases List.mem_append.mp written with always | optional
    · simp only [headMembers, List.mem_cons, List.not_mem_nil, or_false] at always
      rcases always with rfl | rfl | rfl | rfl
      · exact .string _
      · exact .string _
      · exact .int _
      · exact .string _
    · rcases List.mem_append.mp optional with uri | issues
      · obtain ⟨text, _, rfl⟩ := Option.map_eq_some_iff.mp (Option.mem_toList.mp uri)
        exact .string text
      · split at issues
        · cases issues
        · obtain rfl := List.mem_singleton.mp issues
          refine .array fun item listed => ?_
          obtain ⟨issue, _, rfl⟩ := List.mem_map.mp listed
          exact issue.spelled
  · exact extensions member added

/-- Problems that the server sends: a status of sixteen bits, and extensions that can be read. -/
structure Sendable (problem : ProblemDetails) : Prop where
  small : problem.status < 2 ^ 16
  free : problem.Extends
  spelled : ∀ extension ∈ problem.extensions.entries, extension.2.Spelled

/-- The text of a document tells which problem it was written for. -/
theorem eq_of_toText (sendable : problem.Sendable) (sent : other.Sendable)
    (same : problem.toValue.toText = other.toValue.toText) : problem = other := by
  have documents := toText_injective (ProblemDetails.spelled sendable.spelled)
    (ProblemDetails.spelled sent.spelled) same
  have read := fromValue_of_extends sendable.free sendable.small
  rw [documents, fromValue_of_extends sent.free sent.small, Option.some.injEq] at read
  exact read.symm

/--
A problem is read back from its document exactly if no extension has the name of
a standard member; and one document, even as text, is of no two problems whose
extensions are all named otherwise.
-/
theorem documents_read_back (problem : ProblemDetails) (small : problem.status < 2 ^ 16) :
    (ProblemDetails.fromValue problem.toValue = some problem ↔ problem.Extends) ∧
      ∀ other, problem.Sendable → other.Sendable →
        problem.toValue.toText = other.toValue.toText → problem = other :=
  ⟨⟨extends_of_fromValue, fun free => fromValue_of_extends free small⟩,
    fun _ sendable sent same => eq_of_toText sendable sent same⟩

/-- An extension that takes the place of the status. -/
def confused : ProblemDetails := .statefulError 409 "conflict" [("status", .string "closed")]

theorem documents_read_back_confused :
    ProblemDetails.fromValue confused.toValue ≠ some confused := by
  intro read
  have free := (documents_read_back confused (by decide)).1.mp read
  exact free ("status", .string "closed") List.mem_cons_self (by decide)

/-- Without extensions there is nothing to take a standard name. -/
theorem sendable_of_plain (small : problem.status < 2 ^ 16) (plain : problem.extensions = ∅) :
    problem.Sendable := by
  constructor
  case small => exact small
  case free =>
    unfold Extends
    rw [plain]
    exact nofun
  case spelled =>
    rw [plain]
    exact nofun

end ProblemDetails

/-- The problem that a failure is reported as. -/
def StatefulFailure.problem (failure : StatefulFailure) : ProblemDetails :=
  .statefulError failure.status failure.detail failure.extensions

namespace StatefulFailure

theorem status_mem (failure : StatefulFailure) : failure.status ∈ [404, 409, 429, 500] := by
  cases failure with
  | unknownScenario requested available => simp [status]
  | illegalOperation scenario session state operation => simp [status]
  | resourceNotFound key => simp [status]
  | resourceExists key => simp [status]
  | sessionCapExceeded limit => simp [status]
  | storeCapExceeded limit => simp [status]

/-- The names that extensions have. -/
def extensionNames : List String :=
  ["scenario", "session", "state", "operation", "resource", "limit"]

theorem extensions_named (failure : StatefulFailure) {extension : String × Value}
    (member : extension ∈ failure.extensions) :
    extension.1 ∈ extensionNames ∧ extension.2.Spelled := by
  unfold extensionNames
  cases failure with
  | illegalOperation scenario session state operation =>
      simp only [extensions, List.mem_cons, List.not_mem_nil, or_false] at member
      rcases member with rfl | rfl | rfl | rfl
      · exact ⟨by simp, .string _⟩
      · exact ⟨by simp, .string _⟩
      · exact ⟨by simp, .string _⟩
      · exact ⟨by simp, .string _⟩
  | unknownScenario requested available =>
      obtain rfl := List.mem_singleton.mp member
      exact ⟨by simp, .string _⟩
  | resourceNotFound key | resourceExists key =>
      obtain rfl := List.mem_singleton.mp member
      exact ⟨by simp, .string _⟩
  | sessionCapExceeded limit | storeCapExceeded limit =>
      obtain rfl := List.mem_singleton.mp member
      exact ⟨by simp, .int _⟩

theorem problem_sendable (failure : StatefulFailure) : failure.problem.Sendable := by
  have small : ∀ status ∈ [404, 409, 429, 500], status < 2 ^ 16 := by decide
  have apart : ∀ name ∈ extensionNames, name ∉ ProblemDetails.standardMembers := by decide
  constructor
  case small => exact small _ failure.status_mem
  case free =>
    intro extension member
    exact apart _ (failure.extensions_named (SortedEntries.mem_of_mem_collect member)).1
  case spelled =>
    intro extension member
    exact (failure.extensions_named (SortedEntries.mem_of_mem_collect member)).2

/-- The failure, without the scenarios that it lists as declared. -/
def withoutListing : StatefulFailure → StatefulFailure
  | .unknownScenario requested _ => .unknownScenario requested []
  | failure => failure

/-- The text of an extension. -/
def textOf (reported : List (String × Value)) (name : String) : Option String :=
  (reported.lookup name).bind Value.asStr

/-- What a client makes of the status and the members of a report. -/
def ofReport (status : Nat) (reported : List (String × Value)) : Option StatefulFailure :=
  match reported.lookup "limit", textOf reported "resource" with
  | some (.number (.int limit)), _ =>
      some (if status = 429 then .sessionCapExceeded limit.toNat
        else .storeCapExceeded limit.toNat)
  | _, some key => some (if status = 409 then .resourceExists key else .resourceNotFound key)
  | _, none => do
      let scenario ← textOf reported "scenario"
      if status = 404 then return .unknownScenario scenario []
      else
        return .illegalOperation scenario (← textOf reported "session")
          (← textOf reported "state") (← textOf reported "operation")

/-- A client makes the failure itself of a report that holds its extensions. -/
theorem ofReport_of_extensions (failure : StatefulFailure) {reported : List (String × Value)}
    (holds : ∀ name ∈ extensionNames, reported.lookup name = failure.extensions.lookup name) :
    ofReport failure.status reported = some failure.withoutListing := by
  have scenario := holds "scenario" (by decide)
  have session := holds "session" (by decide)
  have state := holds "state" (by decide)
  have operation := holds "operation" (by decide)
  have resource := holds "resource" (by decide)
  have limit := holds "limit" (by decide)
  unfold ofReport textOf
  rw [scenario, session, state, operation, resource, limit]
  cases failure with
  | unknownScenario requested available => rfl
  | illegalOperation scenario session state operation => rfl
  | resourceNotFound key => rfl
  | resourceExists key => rfl
  | sessionCapExceeded limit => rfl
  | storeCapExceeded limit => rfl

theorem extensions_distinct (failure : StatefulFailure) :
    (failure.extensions.map Prod.fst).Nodup := by
  cases failure with
  | illegalOperation scenario session state operation =>
      change ["scenario", "session", "state", "operation"].Nodup
      decide
  | _ => exact List.nodup_singleton _

/-- A client makes the failure of its problem. -/
theorem ofReport_problem (failure : StatefulFailure) :
    ofReport failure.problem.status failure.problem.extensions.entries =
      some failure.withoutListing := by
  refine failure.ofReport_of_extensions fun name _ => ?_
  refine (SortedEntries.lookup_foldl_insert failure.extensions_distinct [] name).trans ?_
  rw [List.lookup_nil, Option.or_none]

end StatefulFailure

end SpecMock.Runtime
