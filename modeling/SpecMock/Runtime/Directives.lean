import SpecMock.Runtime.MockResponse

/-!
# Directives of a request

What a client asks of the mock travels in the headers of its request: HTTP
requests carry it in `Prefer` and `Accept`, gRPC requests in metadata.
-/

namespace SpecMock.Runtime

open SpecMock.Library SpecMock.Core

/-- Headers by lower-case name; the text of a value is absent unless it is visible ASCII. -/
abbrev Headers := List (String × Option String)

/-- The texts of all headers of a name. -/
def Headers.getAll (headers : Headers) (name : String) : List String :=
  headers.filterMap fun header => if header.1 = name then header.2 else none

/-- The text of the first header of a name. -/
def Headers.get (headers : Headers) (name : String) : Option String :=
  (headers.find? fun header => header.1 == name).bind Prod.snd

/-- One directive of a `Prefer` header; what is no directive changes nothing. -/
def preferDirective (directives : PreferDirectives) (segment : String) : PreferDirectives :=
  match Text.splitOnce '=' (Text.trim segment) with
  | none => directives
  | some (name, text) =>
      let key := Text.trim name
      let value := Text.trim text
      if key = "code" then { directives with code := parseU16 value }
      else if key = "scenario" ∧ value ≠ "" then { directives with scenario := some value }
      else if key = "session" ∧ value ≠ "" then { directives with session := some value }
      else if key = "example" ∧ value ≠ "" then { directives with exampleValue := some value }
      else if key = "dynamic" then
        { directives with dynamic := value.toList.map Char.toLower == "true".toList }
      else directives

/-- The comma-separated directives of one `Prefer` header. -/
def parsePreferValue (directives : PreferDirectives) (text : String) : PreferDirectives :=
  (Text.pieces ',' text).foldl preferDirective directives

/-- The directives of all `Prefer` headers. -/
def Headers.preferred (headers : Headers) : PreferDirectives :=
  (headers.getAll "prefer").foldl parsePreferValue .none

section Negotiation

variable {κ : Type} (qualities : Qualities κ)

/-- The media ranges of an `Accept` header, the best first. -/
def acceptRanges (accept : String) : List String :=
  (requestedTypes qualities accept).map MediaEntry.mediaType

/-- The first of some media ranges that is no wildcard. -/
def firstNamed (ranges : List String) : Option String :=
  ranges.find? fun range => range != "*/*"

/-- The best media range of an `Accept` header that is no wildcard. -/
def bestMediaType (accept : String) : Option String :=
  firstNamed (acceptRanges qualities accept)

/-- The directives of all `Prefer` headers and of the first `Accept` header. -/
def PreferDirectives.fromHeaders (headers : Headers) : PreferDirectives :=
  match headers.get "accept" with
  | .none => headers.preferred
  | .some accept => { headers.preferred with mediaType := bestMediaType qualities accept }

@[simp]
theorem firstNamed_cons (range : String) (rest : List String) :
    firstNamed (range :: rest) = if range = "*/*" then firstNamed rest else some range := by
  by_cases wild : range = "*/*"
  · subst wild
    rfl
  · simp [firstNamed, wild]

theorem mediaType_preferDirective (directives : PreferDirectives) (segment : String) :
    (preferDirective directives segment).mediaType = directives.mediaType := by
  unfold preferDirective
  split
  · rfl
  · dsimp only
    split_ifs <;> rfl

theorem mediaType_foldl {step : PreferDirectives → String → PreferDirectives}
    (kept : ∀ directives text, (step directives text).mediaType = directives.mediaType)
    (texts : List String) (directives : PreferDirectives) :
    (texts.foldl step directives).mediaType = directives.mediaType := by
  induction texts generalizing directives with
  | nil => rfl
  | cons text rest ih => exact (ih _).trans (kept directives text)

/-- No `Prefer` header touches the media type. -/
theorem mediaType_preferred (headers : Headers) : headers.preferred.mediaType = none := by
  apply mediaType_foldl
  intro directives text
  exact mediaType_foldl mediaType_preferDirective _ _

end Negotiation

/-- The directives of gRPC metadata. -/
structure GrpcDirectives where
  scenario : Option String
  session : Option String

def grpcDirective (directives : GrpcDirectives) (header : String × Option String) :
    GrpcDirectives :=
  match header.2 with
  | none => directives
  | some value =>
      let text := Text.trim value
      if text = "" then directives
      else if header.1 = "scenario" then { directives with scenario := some text }
      else if header.1 = "session" then { directives with session := some text }
      else directives

def grpcDirectives (headers : Headers) : GrpcDirectives :=
  headers.foldl grpcDirective ⟨none, none⟩

end SpecMock.Runtime
