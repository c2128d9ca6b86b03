import SpecMock.Library.Attempt
import SpecMock.Runtime.Handler

/-!
# Coverage of the catalogue

The operations of a document are loaded path by path and method by method; the
catalogue of a sidecar is indexed by method and path.  Nothing compares the
two, and of entries with one signature the index keeps the last.  So exactly
the configurations whose entries are all declared, under signatures of their
own, have no dead entry.
-/

namespace SpecMock.Runtime

open SpecMock.Library SpecMock.Core

/-- The methods a path item may declare, in the order they are read. -/
def documentMethods : List String :=
  ["get", "post", "put", "patch", "delete", "head", "options", "trace"]

def asciiUppercase (text : String) : String := String.ofList (text.toList.map Char.toUpper)

section Load

variable (parseOperation : String → List (String × Value) → List (String × Value) →
  Except RuntimeError (List ResponseSpec)) (version : String)

/-- The operations that a path item declares for some methods. -/
def loadPathItem (pathTemplate : String) (pathObject : List (String × Value)) :
    List String → Except RuntimeError (List OperationSpec)
  | [] => .ok []
  | methodName :: rest =>
      match pathObject.lookup methodName with
      | some (.object operationObject) => do
          let responses ← parseOperation version pathObject operationObject
          let others ← loadPathItem pathTemplate pathObject rest
          .ok (⟨asciiUppercase methodName, pathTemplate, responses⟩ :: others)
      | _ => loadPathItem pathTemplate pathObject rest

def loadPaths : List (String × Value) → Except RuntimeError (List OperationSpec)
  | [] => .ok []
  | (pathTemplate, .object pathObject) :: rest => do
      let here ← loadPathItem parseOperation version pathTemplate pathObject documentMethods
      let others ← loadPaths rest
      .ok (here ++ others)
  | _ :: rest => loadPaths rest

/-- Build from a document whose references have been inlined. -/
def OpenApiRuntime.fromResolved (root : Value) : Except RuntimeError OpenApiRuntime :=
  match root.get "openapi" with
  | some (.string version) =>
      if "3.0".toList.isPrefixOf version.toList || "3.1".toList.isPrefixOf version.toList then
        match root.get "paths" with
        | some (.object paths) => (loadPaths parseOperation version paths).map OpenApiRuntime.of
        | _ => .error (.parse "openapi paths object missing")
      else
        .error (.parse ("unsupported openapi version: " ++ version ++
          ", expected 3.0.x or 3.1.x"))
  | _ => .error (.parse "openapi version field missing")

end Load

/-- The method and the path template. -/
def OperationSpec.signature (operation : OperationSpec) : String × String :=
  (operation.method, operation.pathTemplate)

/-- The path item has an operation for the method. -/
def hasOperation (pathObject : List (String × Value)) (methodName : String) : Bool :=
  match pathObject.lookup methodName with
  | some (.object _) => true
  | _ => false

/-- The document declares an operation for a path template and a method in lower case. -/
def Declares (root : Value) (pathTemplate methodName : String) : Prop :=
  methodName ∈ documentMethods ∧ ∃ paths pathObject, root.get "paths" = some (.object paths) ∧
    (pathTemplate, .object pathObject) ∈ paths ∧ hasOperation pathObject methodName = true

section Load

variable {parseOperation : String → List (String × Value) → List (String × Value) →
  Except RuntimeError (List ResponseSpec)} {version : String}

theorem signature_loadPathItem {pathTemplate : String} {pathObject : List (String × Value)}
    {methods : List String} {operations : List OperationSpec}
    (loaded : loadPathItem parseOperation version pathTemplate pathObject methods =
      .ok operations) :
    operations.map OperationSpec.signature =
      (methods.filter (hasOperation pathObject)).map
        fun methodName => (asciiUppercase methodName, pathTemplate) := by
  induction methods generalizing operations with
  | nil =>
      cases loaded
      rfl
  | cons methodName rest ih =>
      unfold loadPathItem at loaded
      split at loaded
      next operationObject declared =>
        obtain ⟨responses, _, loaded⟩ := bind_eq_ok.mp loaded
        obtain ⟨others, loadedRest, loaded⟩ := bind_eq_ok.mp loaded
        cases loaded
        have has : hasOperation pathObject methodName = true := by simp [hasOperation, declared]
        rw [List.filter_cons_of_pos has, List.map_cons, List.map_cons, ih loadedRest]
        rfl
      next other =>
        have hasNot : ¬ hasOperation pathObject methodName = true := by
          unfold hasOperation
          split
          next operationObject declared => exact absurd declared (other operationObject)
          next => simp
        rw [List.filter_cons_of_neg hasNot]
        exact ih loaded

/-- The signatures of the operations that a document declares for a path. -/
def signaturesOf (entry : String × Value) : List (String × String) :=
  match entry.2 with
  | .object pathObject =>
      (documentMethods.filter (hasOperation pathObject)).map
        fun methodName => (asciiUppercase methodName, entry.1)
  | _ => []

theorem signature_loadPaths {paths : List (String × Value)} {operations : List OperationSpec}
    (loaded : loadPaths parseOperation version paths = .ok operations) :
    operations.map OperationSpec.signature = paths.flatMap signaturesOf := by
  induction paths generalizing operations with
  | nil =>
      cases loaded
      rfl
  | cons entry rest ih =>
      obtain ⟨pathTemplate, pathItem⟩ := entry
      cases pathItem with
      | object pathObject =>
          obtain ⟨here, loadedHere, loaded⟩ := bind_eq_ok.mp loaded
          obtain ⟨others, loadedRest, loaded⟩ := bind_eq_ok.mp loaded
          cases loaded
          rw [List.map_append, signature_loadPathItem loadedHere, ih loadedRest]
          rfl
      | null | bool | number | string | array => exact ih loaded

theorem mem_signaturesOf {entry : String × Value} {method template : String} :
    (method, template) ∈ signaturesOf entry ↔ template = entry.1 ∧
      ∃ pathObject methodName, entry.2 = .object pathObject ∧ methodName ∈ documentMethods ∧
        hasOperation pathObject methodName = true ∧ asciiUppercase methodName = method := by
  unfold signaturesOf
  split
  next pathObject same =>
    simp only [List.mem_map, List.mem_filter, Prod.mk.injEq, same, Value.object.injEq]
    constructor
    · rintro ⟨methodName, ⟨listed, has⟩, upper, rfl⟩
      exact ⟨rfl, pathObject, methodName, rfl, listed, has, upper⟩
    · rintro ⟨rfl, _, methodName, rfl, listed, has, upper⟩
      exact ⟨methodName, ⟨listed, has⟩, upper, rfl⟩
  next other =>
    refine iff_of_false List.not_mem_nil ?_
    rintro ⟨_, pathObject, _, same, _⟩
    exact other pathObject same

/-- The methods of a document are told apart by their lower case. -/
theorem lowercase_uppercase {methodName : String} (listed : methodName ∈ documentMethods) :
    asciiLowercase (asciiUppercase methodName) = methodName := by
  revert methodName
  unfold documentMethods
  decide

theorem signatures_of_fromResolved {root : Value} {openapi : OpenApiRuntime}
    (loaded : OpenApiRuntime.fromResolved parseOperation root = .ok openapi) :
    ∃ paths, root.get "paths" = some (.object paths) ∧
      openapi.operations.map OperationSpec.signature = paths.flatMap signaturesOf := by
  unfold OpenApiRuntime.fromResolved at loaded
  split at loaded
  next version _ =>
    split at loaded
    next =>
      split at loaded
      next paths found =>
        cases parsed : loadPaths parseOperation version paths with
        | error error =>
            rw [parsed] at loaded
            cases loaded
        | ok operations =>
            rw [parsed] at loaded
            cases loaded
            exact ⟨paths, found, signature_loadPaths parsed⟩
      next => cases loaded
    next => cases loaded
  next => cases loaded

/-- A loaded document has exactly the operations that it declares. -/
theorem exists_operation_iff {root : Value} {openapi : OpenApiRuntime}
    (loaded : OpenApiRuntime.fromResolved parseOperation root = .ok openapi)
    (methodName pathTemplate : String) :
    (∃ operation ∈ openapi.operations, asciiLowercase operation.method = methodName ∧
        operation.pathTemplate = pathTemplate) ↔ Declares root pathTemplate methodName := by
  obtain ⟨paths, found, signatures⟩ := signatures_of_fromResolved loaded
  constructor
  · rintro ⟨operation, member, rfl, rfl⟩
    have listed : operation.signature ∈ paths.flatMap signaturesOf :=
      signatures ▸ List.mem_map_of_mem member
    obtain ⟨entry, inside, signed⟩ := List.mem_flatMap.mp listed
    obtain ⟨same, pathObject, methodName, item, known, has, upper⟩ := mem_signaturesOf.mp signed
    rw [← upper, lowercase_uppercase known]
    refine ⟨known, paths, pathObject, found, ?_, has⟩
    rw [same, ← item]
    exact inside
  · rintro ⟨known, _, pathObject, found', inside, has⟩
    cases found.symm.trans found'
    have signed : (asciiUppercase methodName, pathTemplate) ∈ paths.flatMap signaturesOf :=
      List.mem_flatMap.mpr ⟨_, inside,
        mem_signaturesOf.mpr ⟨rfl, pathObject, methodName, rfl, known, has, rfl⟩⟩
    rw [← signatures] at signed
    obtain ⟨operation, member, same⟩ := List.mem_map.mp signed
    obtain ⟨method, template⟩ := Prod.mk.inj same
    exact ⟨operation, member, method ▸ lowercase_uppercase known, template⟩

end Load

/-- The key of an entry in the index. -/
def catalogueKey (entry : OperationEntry) : String :=
  requestKey entry.matcher.method entry.matcher.path

/-- An entry as requests find it. -/
def resolvedEntry (name : String) (entry : OperationEntry) : ResolvedOperation :=
  ⟨name, entry.store, entry.responses⟩

/-- An entry that no later one overwrites is found. -/
theorem lookup_indexOperations {operations : List (String × OperationEntry)}
    (distinct : (operations.map fun operation => catalogueKey operation.2).Nodup) {name : String}
    {entry : OperationEntry} (member : (name, entry) ∈ operations) :
    (indexOperations operations).lookup (catalogueKey entry) = some (resolvedEntry name entry) := by
  unfold indexOperations
  induction operations using List.reverseRecOn with
  | nil => cases member
  | append_singleton before last ih =>
      rw [List.map_append, List.nodup_append] at distinct
      obtain ⟨distinct, _, apart⟩ := distinct
      rw [List.foldl_append, List.foldl_cons, List.foldl_nil, FiniteMap.lookup_insert_eq]
      rcases List.mem_append.mp member with earlier | here
      · have differs : catalogueKey entry ≠ catalogueKey last.2 :=
          apart _ (List.mem_map_of_mem earlier) _ (List.mem_singleton_self _)
        exact (if_neg differs).trans (ih distinct earlier)
      · obtain rfl := List.mem_singleton.mp here
        exact if_pos rfl

/-- The methods of HTTP, in lower case. -/
def httpMethods : List String := "connect" :: documentMethods

/-- The entry is about an operation of HTTP, not a call or a channel of another protocol. -/
def IsHttp (entry : OperationEntry) : Prop :=
  asciiLowercase entry.matcher.method ∈ httpMethods

/-- The operation of the document that the entry is about. -/
structure Describes (entry : OperationEntry) (operation : OperationSpec) : Prop where
  method : asciiLowercase operation.method = asciiLowercase entry.matcher.method
  path : operation.pathTemplate = entry.matcher.path

/--
Every entry for HTTP has its operation in the document, and is found for every
request that is routed there; and no two entries have one key.
-/
structure NoDeadEntry (openapi : OpenApiRuntime) (runtime : ScenarioRuntime) : Prop where
  covered : ∀ name entry, (name, entry) ∈ runtime.sidecar.sidecar.operations.entries →
    IsHttp entry → ∃ operation ∈ openapi.operations, Describes entry operation
  found : ∀ name entry, (name, entry) ∈ runtime.sidecar.sidecar.operations.entries →
    IsHttp entry → ∀ method path matched, openapi.matchOperation method path = some matched →
      Describes entry matched.operation →
        runtime.catalogued method matched = some (resolvedEntry name entry)
  distinct : (runtime.sidecar.sidecar.operations.entries.map fun operation =>
    catalogueKey operation.2).Nodup

/-- The document declares what every entry for HTTP is about. -/
def Covers (root : Value) (sidecar : Sidecar) : Prop :=
  ∀ name entry, (name, entry) ∈ sidecar.operations.entries → IsHttp entry →
    Declares root entry.matcher.path (asciiLowercase entry.matcher.method)

/-- No two entries have the same path and, up to case, the same method. -/
def KeysDistinct (sidecar : Sidecar) : Prop :=
  (sidecar.operations.entries.map fun operation => catalogueKey operation.2).Nodup

/--
No entry of an accepted configuration is dead if and only if the document
declares an operation for every entry and no two entries have one key.
-/
theorem no_dead_entry_iff {parseOperation : String → List (String × Value) →
      List (String × Value) → Except RuntimeError (List ResponseSpec)} {root : Value}
    {openapi : OpenApiRuntime}
    (loaded : OpenApiRuntime.fromResolved parseOperation root = .ok openapi)
    (sidecar : ValidatedSidecar) (maxSessions maxStoreEntries : Nat) :
    NoDeadEntry openapi (ScenarioRuntime.new sidecar maxSessions maxStoreEntries) ↔
      Covers root sidecar.sidecar ∧ KeysDistinct sidecar.sidecar := by
  constructor
  · intro alive
    refine ⟨fun name entry member http => ?_, alive.distinct⟩
    obtain ⟨operation, listed, matching⟩ := alive.covered name entry member http
    exact (exists_operation_iff loaded _ _).mp ⟨operation, listed, matching.method, matching.path⟩
  · rintro ⟨covers, distinct⟩
    refine ⟨fun name entry member http => ?_, ?_, distinct⟩
    · obtain ⟨operation, listed, method, path⟩ :=
        (exists_operation_iff loaded _ _).mpr (covers name entry member http)
      exact ⟨operation, listed, method, path⟩
    · intro name entry member _ method path matched routed matching
      obtain ⟨_, serves, _⟩ := OpenApiRuntime.matchOperation_eq_some.mp routed
      have sameKey : requestKey method matched.operation.pathTemplate = catalogueKey entry := by
        unfold catalogueKey requestKey
        rw [← serves.asked, matching.method, matching.path]
      change (indexOperations sidecar.sidecar.operations.entries).lookup _ = _
      rw [sameKey]
      exact lookup_indexOperations distinct member

/-- A document with one operation: a list of users. -/
def usersDocument : Value :=
  .object [("openapi", .string "3.1.0"),
    ("paths", .object [("/users", .object [("get", .object [])])])]

/-- A catalogue whose one entry lists users at a path. -/
def listingSidecar (path : String) : Sidecar where
  version := 1
  operations := OrderedMap.collect [("listUsers",
    { matcher := ⟨"GET", path⟩
      store := some { resource := "/users", action := .list, key := none, keyFrom := none }
      responses := ∅ })]
  scenarios := []

def usersSidecar : ValidatedSidecar where
  sidecar := listingSidecar "/users"
  supported := by decide
  valid := by decide

def misspeltSidecar : ValidatedSidecar where
  sidecar := listingSidecar "/user"
  supported := by decide
  valid := by decide

def usersOperation : OperationSpec := ⟨"GET", "/users", []⟩

theorem users_loaded :
    OpenApiRuntime.fromResolved (fun _ _ _ => .ok []) usersDocument =
      .ok (OpenApiRuntime.of [usersOperation]) := rfl

theorem no_dead_entry_iff_users :
    NoDeadEntry (OpenApiRuntime.of [usersOperation]) (ScenarioRuntime.new usersSidecar 1 1) ↔
      Covers usersDocument usersSidecar.sidecar ∧ KeysDistinct usersSidecar.sidecar :=
  no_dead_entry_iff users_loaded usersSidecar 1 1

/-- An accepted entry for a path that the document does not declare. -/
theorem misspelt_entry_dead :
    OpenApiRuntime.fromResolved (fun _ _ _ => .ok []) usersDocument =
        .ok (OpenApiRuntime.of [usersOperation]) ∧
      ¬ NoDeadEntry (OpenApiRuntime.of [usersOperation])
        (ScenarioRuntime.new misspeltSidecar 1 1) := by
  refine ⟨users_loaded, fun alive => ?_⟩
  obtain ⟨operation, listed, describes⟩ := alive.covered "listUsers"
    { matcher := ⟨"GET", "/user"⟩
      store := some { resource := "/users", action := .list, key := none, keyFrom := none }
      responses := ∅ } List.mem_cons_self (by unfold IsHttp; decide)
  obtain rfl := List.mem_singleton.mp listed
  exact absurd describes.path (by decide)

end SpecMock.Runtime
