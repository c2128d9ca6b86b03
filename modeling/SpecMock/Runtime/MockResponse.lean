import SpecMock.Core.Faker
import SpecMock.Runtime.Scenarios
import SpecMock.Library.StableSort

/-!
# Mocked responses

An operation of the document declares its responses, each with the media types
it can be given in.  The directives of a request select one of them; its body
is an example or is generated from the schema and the seed of the request.
-/

namespace SpecMock.Runtime

open SpecMock.Library SpecMock.Core

/-- The seed of a text under a server seed, with wrapping arithmetic. -/
def deterministicHash (seed : BitVec 64) (input : String) : BitVec 64 :=
  seed ^^^ (input.toList.flatMap String.utf8EncodeChar).foldl
    (fun acc byte => acc * 131#64 + BitVec.ofNat 64 byte.toNat) 0#64

/-- The numbers that qualities are parsed to, with their partial comparison. -/
structure Qualities (κ : Type) where
  parse : String → Option κ
  one : κ
  compare : κ → κ → Option Ordering

/-- What the server takes from libraries: random draws and floating point numbers. -/
structure Libraries where
  Stream : Type
  Float64 : Type
  Float32 : Type
  random : Randomness Stream Float64
  qualities : Qualities Float32

/-- A stream of draws that counts up. -/
def countingRandomness : Randomness Nat Unit where
  seedFromU64 seed := seed.toNat
  randomRange low high stream := (low + (stream : Int) % (high - low + 1), stream + 1)
  randomBool percent stream := (decide (stream % 100 < percent), stream + 1)
  regex _ := none
  floatRange low _ stream := (low, stream + 1)
  float _ := ()
  addFloat _ _ := ()
  ltFloat _ _ := false
  floatValue _ := .null

/-- Libraries to run samples with. -/
def sampleLibraries : Libraries where
  Stream := Nat
  Float64 := Unit
  Float32 := Unit
  random := countingRandomness
  qualities := ⟨fun _ => none, (), fun _ _ => some .eq⟩

structure MediaTypeSpec where
  mediaType : String
  schema : Option Value
  exampleValue : Option Value
  namedExamples : OrderedMap String Value

structure ResponseHeaderSpec where
  schema : Option Value
  exampleValue : Option Value

structure ResponseSpec where
  /-- Status selector, a code or `default`. -/
  status : String
  content : List MediaTypeSpec
  headers : OrderedMap String ResponseHeaderSpec

structure OperationSpec where
  method : String
  pathTemplate : String
  responses : List ResponseSpec

structure MockHttpResponse where
  status : Nat
  /-- Negotiated media type, absent when the response has no body. -/
  mediaType : Option String
  schema : Option Value
  body : Option Value
  headers : List (String × String)
  deriving DecidableEq

inductive RuntimeError where
  | parse (message : String)
  | notFound (message : String)
  | notAcceptable (message : String)
  deriving DecidableEq

/-- Directives of the `Prefer` and `Accept` headers of a request. -/
structure PreferDirectives where
  code : Option Nat
  exampleValue : Option String
  mediaType : Option String
  dynamic : Bool
  scenario : Option String
  session : Option String

/-- No directives at all. -/
def PreferDirectives.none : PreferDirectives :=
  { code := .none, exampleValue := .none, mediaType := .none, dynamic := false, scenario := .none,
    session := .none }

/-- The response of the preferred code; without one `200`, any `2xx`, `default` or the first. -/
def selectResponse (responses : List ResponseSpec) (prefer : PreferDirectives) :
    Option ResponseSpec :=
  match prefer.code with
  | some code => responses.find? fun response => response.status == toString code
  | none =>
      (responses.find? fun response => response.status == "200").or
        ((responses.find? fun response => response.status.toList.head? == some '2').or
          ((responses.find? fun response => response.status == "default").or responses.head?))

structure MediaEntry (κ : Type) where
  mediaType : String
  quality : κ

section Negotiation

variable {κ : Type} (qualities : Qualities κ)

/-- The quality of a media range, one if it names none that can be parsed. -/
def qualityOf (params : String) : κ :=
  ((Text.pieces ';' params ++ [params]).findSome? fun part =>
    (Text.stripPrefix "q=" (Text.trim part)).bind fun quality =>
      qualities.parse (Text.trim quality)).getD qualities.one

/-- One media range of an `Accept` header, none if it is blank. -/
def mediaEntry (segment : String) : Option (MediaEntry κ) :=
  let range := Text.trim segment
  if range = "" then none
  else
    let parts := (Text.splitOnce ';' range).getD (range, "")
    some ⟨Text.trim parts.1, qualityOf qualities parts.2⟩

/-- The media ranges of an `Accept` header in the order in which they are written. -/
def parsedRanges (accept : String) : List (MediaEntry κ) :=
  (Text.pieces ',' accept).filterMap (mediaEntry qualities)

/-- The best quality first; a quality that is no number is level with every other. -/
def byQuality (left right : MediaEntry κ) : Ordering :=
  (qualities.compare right.quality left.quality).getD .eq

/--
The media ranges of an `Accept` header as a stable sort leaves them whose
comparison puts them in an order; `sortedTypes` is what the sort does with any.
-/
def requestedTypes (accept : String) : List (MediaEntry κ) :=
  (parsedRanges qualities accept).insertionSort
    fun left right => qualities.compare right.quality left.quality ≠ some .gt

/-- The available type that the first matching range admits. -/
def firstAccepted (available : List String) : List (MediaEntry κ) → Option String
  | [] => none
  | entry :: rest =>
      if entry.mediaType = "*/*" then available.head?
      else if entry.mediaType ∈ available then some entry.mediaType
      else firstAccepted available rest

def negotiateMediaType (available : List String) (acceptHeader : Option String) :
    Option String :=
  match acceptHeader with
  | none => available.head?
  | some accept => firstAccepted available (requestedTypes qualities accept)

end Negotiation

section Bodies

variable (libraries : Libraries)

/-- A value for a schema, an error of the generator being a parse error. -/
def generated (schema : Value) (seed : BitVec 64) : Except RuntimeError Value :=
  (Faker.generateJsonValue libraries.random schema seed).mapError .parse

/-- The example, else the first named example, else a value for the schema. -/
def MediaTypeSpec.resolveBody (entry : MediaTypeSpec) (seed : BitVec 64) :
    Except RuntimeError (Option Value) :=
  match entry.exampleValue with
  | some body => .ok (some body)
  | none =>
      match entry.namedExamples.entries.head? with
      | some (_, body) => .ok (some body)
      | none =>
          match entry.schema with
          | none => .ok none
          | some schema => (generated libraries schema seed).map some

/-- The body of a negotiated media type, under the directives of the request. -/
def MediaTypeSpec.preferredBody (entry : MediaTypeSpec) (seed : BitVec 64)
    (prefer : PreferDirectives) : Except RuntimeError (Option Value) :=
  match prefer.exampleValue with
  | some name =>
      match entry.namedExamples.get name with
      | some body => .ok (some body)
      | none => .error (.notFound
          ("example '" ++ name ++ "' not found for media type '" ++ entry.mediaType ++ "'"))
  | none =>
      if prefer.dynamic then
        match entry.schema with
        | none => .ok none
        | some schema => (generated libraries schema seed).map some
      else entry.resolveBody libraries seed

def headerValueToString : Value → String
  | .string text => text
  | .null => ""
  | other => other.toText

/-- Header values follow bodies, each with a seed of its own; failures are left out. -/
def generateResponseHeaders (headers : OrderedMap String ResponseHeaderSpec)
    (seed : BitVec 64) : List (String × String) :=
  headers.entries.filterMap fun header =>
    (match header.2.exampleValue with
    | some value => some value
    | none => header.2.schema.bind fun schema =>
        (Faker.generateJsonValue libraries.random schema
          (deterministicHash seed header.1)).toOption).map
      fun value => (header.1, headerValueToString value)

def parseStatusCode (status : String) : Nat :=
  if status = "default" then 200 else (parseU16 status).getD 200

def ResponseSpec.mediaTypes (response : ResponseSpec) : List String :=
  response.content.map MediaTypeSpec.mediaType

def ResponseSpec.mediaTypeEntry (response : ResponseSpec) (mediaType : String) :
    Option MediaTypeSpec :=
  response.content.find? fun entry => entry.mediaType == mediaType

/-- The media type that the negotiation has chosen, with its schema and the body it is given. -/
def ResponseSpec.represented (response : ResponseSpec) (seed : BitVec 64)
    (prefer : PreferDirectives) (chosen : Option String) :
    Except RuntimeError (Option (String × Option Value × Option Value)) :=
  match chosen with
  | none => .error (.notAcceptable
      ("no acceptable representation for Accept header; available media types: " ++
        ", ".intercalate response.mediaTypes))
  | some mediaType =>
      match response.mediaTypeEntry mediaType with
      | none => .error (.notAcceptable ("media type not declared: " ++ mediaType))
      | some entry =>
          match entry.preferredBody libraries seed prefer with
          | .error error => .error error
          | .ok body => .ok (some (mediaType, entry.schema, body))

/-- The media type of a response with the schema and the body it is given; none without content. -/
def ResponseSpec.negotiated (response : ResponseSpec) (seed : BitVec 64)
    (prefer : PreferDirectives) :
    Except RuntimeError (Option (String × Option Value × Option Value)) :=
  let available := response.mediaTypes
  if available = [] then .ok none
  else response.represented libraries seed prefer
    (negotiateMediaType libraries.qualities available prefer.mediaType)

/-- The mocked response of what was negotiated. -/
def ResponseSpec.mocked (response : ResponseSpec) (seed : BitVec 64)
    (outcome : Except RuntimeError (Option (String × Option Value × Option Value))) :
    Except RuntimeError MockHttpResponse :=
  match outcome with
  | .error error => .error error
  | .ok negotiated => .ok
      { status := parseStatusCode response.status
        mediaType := negotiated.map Prod.fst
        schema := negotiated.bind fun found => found.2.1
        body := negotiated.bind fun found => found.2.2
        headers := generateResponseHeaders libraries response.headers seed }

/-- Build a mocked response of an operation. -/
def OperationSpec.mockResponse (operation : OperationSpec) (seed : BitVec 64)
    (prefer : PreferDirectives) : Except RuntimeError MockHttpResponse :=
  match selectResponse operation.responses prefer with
  | none => .error (.notFound "preferred code not found")
  | some selected => selected.mocked libraries seed (selected.negotiated libraries seed prefer)

end Bodies

end SpecMock.Runtime
