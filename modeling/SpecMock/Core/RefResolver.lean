import SpecMock.Core.Json
import SpecMock.Library.Attempt
import SpecMock.Library.FiniteMap
import SpecMock.Library.Machine
import SpecMock.Library.MergedEntries
import SpecMock.Library.Text

/-!
# The resolver of references

A document is walked and every object with a `$ref` is replaced by what the
reference names, in the same document or in a file, with the other members of
the object merged in.  Files are kept in a cache of bounded size, oldest out.
-/

namespace SpecMock.Core

open SpecMock.Library

/-- Where reading a YAML document can fail. -/
inductive YamlError where
  | parse (text : String)
  | conversion (text : String)

/-- The file system, the paths and the document parsers, as the resolver uses them. -/
structure Files (Path : Type) where
  canonicalize : Path → Except String Path
  readToString : Path → Except String String
  join : Path → String → Path
  parent : Path → Option Path
  extension : Path → Option String
  startsWith : Path → Path → Bool
  display : Path → String
  toStringLossy : Path → String
  fromYaml : String → Except YamlError Value
  fromJson : String → Except String Value

variable {Path σ : Type} (files : Files Path)

/-- Load a file as a value, selecting the parser by extension. -/
def loadFile (path : Path) : Except String Value :=
  match files.readToString path with
  | .error error => .error ("cannot read " ++ files.display path ++ ": " ++ error)
  | .ok content =>
      let ext := (files.extension path).getD ""
      if ext = "yaml" ∨ ext = "yml" then
        match files.fromYaml content with
        | .error (.parse error) =>
            .error ("YAML parse error in " ++ files.display path ++ ": " ++ error)
        | .error (.conversion error) =>
            .error ("YAML→JSON conversion error in " ++ files.display path ++ ": " ++ error)
        | .ok document => .ok document
      else
        match files.fromJson content with
        | .error error => .error ("JSON parse error in " ++ files.display path ++ ": " ++ error)
        | .ok document => .ok document

def isUrl (reference : String) : Bool :=
  (Text.stripPrefix "http://" reference).isSome || (Text.stripPrefix "https://" reference).isSome

/-- Split a reference into its file and its pointer, at the first `#`. -/
def splitRef (reference : String) : String × String :=
  (Text.splitOnce '#' reference).getD (reference, "")

/-- Replace the escape `~code` by the character it stands for. -/
def replaceEscape (code char : Char) : List Char → List Char
  | '~' :: next :: rest =>
      if next = code then char :: replaceEscape code char rest
      else '~' :: replaceEscape code char (next :: rest)
  | first :: rest => first :: replaceEscape code char rest
  | [] => []

def unescapeSegment (segment : String) : String :=
  String.ofList (replaceEscape '0' '~' (replaceEscape '1' '/' segment.toList))

/-- A decimal number of the size of a machine word, an optional plus sign in front. -/
def parseUsize (text : String) : Option Nat :=
  let digits := match text.toList with
    | '+' :: rest => rest
    | chars => chars
  if digits ≠ [] ∧ digits.all Char.isDigit then
    let value := digits.foldl (fun value digit => 10 * value + (digit.toNat - '0'.toNat)) 0
    if value < 2 ^ 64 then some value else none
  else none

/-- Follow segments through objects, by member, and arrays, by index. -/
def descend : Value → List String → Option Value
  | current, [] => some current
  | .object members, segment :: rest =>
      match members.lookup segment with
      | none => none
      | some child => descend child rest
  | .array items, segment :: rest =>
      match (parseUsize segment).bind fun index => items[index]? with
      | none => none
      | some child => descend child rest
  | _, _ :: _ => none

/-- The node a pointer addresses; both the empty pointer and `/` stand for the whole document. -/
def resolvePointer (root : Value) (pointer : String) : Option Value :=
  if pointer = "" ∨ pointer = "/" then some root
  else
    descend root
      ((Text.pieces '/' ((Text.stripPrefix "/" pointer).getD pointer)).map unescapeSegment)

/-- The members of an object with a reference, except `$ref` itself. -/
def siblings (members : List (String × Value)) : List (String × Value) :=
  members.filter fun member => decide (member.1 ≠ "$ref")

/-- Merge siblings into the resolved value; a value that is no object drops them. -/
def mergeSiblings (resolved : Value) (added : List (String × Value)) : Value :=
  match resolved with
  | .object members => .object (SortedEntries.addMissing members added)
  | other => other

section Walk

variable (allowedRoots : List Path) (maxDepth : Nat) (fetch : Path → Attempt String σ Value)

/-- The error of a reference to a file outside the allowed roots. -/
def outsideRoots (canonical : Path) : String :=
  "file ref points outside allowed roots [" ++
    ", ".intercalate (allowedRoots.map files.display) ++ "]: " ++ files.display canonical

/-- Resolve a single reference; `walk` resolves what is inside a file. -/
def resolveRef (walk : Value → Path → Value → Attempt String σ Value) (reference : String)
    (rootDoc : Value) (currentBase : Path) : Attempt String σ Value :=
  if isUrl reference then
    Attempt.fail ("URL-based $ref is not supported: " ++ reference)
  else
    let (filePart, pointer) := splitRef reference
    if filePart = "" then
      Attempt.demand ("local $ref not found: " ++ reference) (resolvePointer rootDoc pointer)
    else
      let filePath := files.join currentBase filePart
      match files.canonicalize filePath with
      | .error error =>
          Attempt.fail ("cannot resolve file ref " ++ files.display filePath ++ ": " ++ error)
      | .ok canonical =>
          if allowedRoots.any (files.startsWith canonical) then do
            let externalDoc ← fetch canonical
            let parent := (files.parent canonical).getD currentBase
            let resolved ← Attempt.demand
              ("pointer " ++ pointer ++ " not found in " ++ files.display canonical)
              (resolvePointer externalDoc pointer)
            walk externalDoc parent resolved
          else Attempt.fail (outsideRoots files allowedRoots canonical)

/--
Walk a value, replacing every `$ref` by its resolved target.  The budget is
what the depth leaves of the maximum, plus one: it is used up one level beyond
the maximum.
-/
def resolveValue : Nat → Value → Path → Value → Attempt String σ Value
  | 0, _, _, _ =>
      Attempt.fail ("maximum $ref resolution depth (" ++ toString maxDepth ++
        ") exceeded — possible cycle")
  | budget + 1, rootDoc, currentBase, .object members =>
      match members.lookup "$ref" with
      | some (.string reference) => do
          let resolved ← resolveRef files allowedRoots fetch (resolveValue budget) reference
            rootDoc currentBase
          -- The inlined value is walked again, now with the siblings.
          resolveValue budget rootDoc currentBase (mergeSiblings resolved (siblings members))
      | some _ => Attempt.fail "$ref value is not a string"
      | none => do
          let resolved ← Attempt.each (fun member => do
            let child ← resolveValue budget rootDoc currentBase member.2
            pure (member.1, child)) members
          pure (.object resolved)
  | budget + 1, rootDoc, currentBase, .array items => do
      let resolved ← Attempt.each (resolveValue budget rootDoc currentBase) items
      pure (.array resolved)
  | _ + 1, _, _, scalar => pure scalar

end Walk

/-- Loaded documents by canonical path, and their keys in the order of insertion. -/
structure ExternalDocs where
  cache : FiniteMap String Value
  cacheOrder : List String

/-- Drop the oldest documents until one more fits. -/
def evictExternalCacheIfNeeded (limit : Nat) : FiniteMap String Value → List String → ExternalDocs
  | cache, [] => ⟨cache, []⟩
  | cache, evictedKey :: rest =>
      if limit ≤ (evictedKey :: rest).length then
        evictExternalCacheIfNeeded limit (cache.erase evictedKey) rest
      else ⟨cache, evictedKey :: rest⟩

def ExternalDocs.evict (limit : Nat) (docs : ExternalDocs) : ExternalDocs :=
  evictExternalCacheIfNeeded limit docs.cache docs.cacheOrder

def ExternalDocs.insert (docs : ExternalDocs) (key : String) (document : Value) : ExternalDocs :=
  ⟨docs.cache.insert key document, docs.cacheOrder ++ [key]⟩

/-- Load a file into the cache if it is not present; `makeRoom` is the eviction before it. -/
def ensureCached (makeRoom : ExternalDocs → ExternalDocs) (canonical : Path) :
    Attempt String ExternalDocs Unit := fun docs =>
  let cacheKey := files.toStringLossy canonical
  if (docs.cache.lookup cacheKey).isSome then (.ok (), docs)
  else
    match loadFile files canonical with
    | .error error => (.error error, makeRoom docs)
    | .ok document => (.ok (), (makeRoom docs).insert cacheKey document)

/-- The document that the cache holds for a path. -/
def cachedDocument (canonical : Path) : Attempt String ExternalDocs Value := fun docs =>
  let cacheKey := files.toStringLossy canonical
  match docs.cache.lookup cacheKey with
  | some document => (.ok document, docs)
  | none => (.error ("cache miss for " ++ cacheKey), docs)

/-- The document of a canonical path, through the cache. -/
def externalDocument (makeRoom : ExternalDocs → ExternalDocs) (canonical : Path) :
    Attempt String ExternalDocs Value := do
  ensureCached files makeRoom canonical
  cachedDocument files canonical

def defaultMaxDepth : Nat := 64

def defaultExternalDocCacheLimit : Nat := 128

structure RefResolver (Path : Type) extends ExternalDocs where
  /-- Base directory for relative file references. -/
  baseDir : Path
  allowedRoots : List Path
  maxDepth : Nat
  externalCacheLimit : Nat

namespace RefResolver

/-- The canonical form of a directory, or the directory itself where there is none. -/
def canonicalOr (directory : Path) : Path :=
  match files.canonicalize directory with
  | .ok canonical => canonical
  | .error _ => directory

def new (baseDir : Path) : RefResolver Path where
  baseDir := baseDir
  allowedRoots := [canonicalOr files baseDir]
  cache := ∅
  cacheOrder := []
  maxDepth := defaultMaxDepth
  externalCacheLimit := defaultExternalDocCacheLimit

def withMaxDepth (resolver : RefResolver Path) (maxDepth : Nat) : RefResolver Path :=
  { resolver with maxDepth }

/-- Set the maximum number of cached documents; none is taken for one. -/
def withExternalCacheLimit (resolver : RefResolver Path) (maxEntries : Nat) : RefResolver Path :=
  { resolver with externalCacheLimit := if maxEntries = 0 then 1 else maxEntries }

def withAllowedRoot [DecidableEq Path] (resolver : RefResolver Path) (root : Path) :
    RefResolver Path :=
  let canonical := canonicalOr files root
  if canonical ∈ resolver.allowedRoots then resolver
  else { resolver with allowedRoots := resolver.allowedRoots ++ [canonical] }

def withAllowedRoots [DecidableEq Path] (resolver : RefResolver Path) (roots : List Path) :
    RefResolver Path :=
  roots.foldl (withAllowedRoot files) resolver

/-- What a resolver is asked to resolve: a file, or a value relative to the base directory. -/
inductive Request (Path : Type) where
  | resolve (path : Path)
  | resolveValueTree (value : Value)

/-- The document a request starts from, and the directory it is written in. -/
def start (resolver : RefResolver Path) : Request Path → Except String (Value × Path)
  | .resolve path =>
      match files.canonicalize path with
      | .error error => .error ("cannot canonicalize " ++ files.display path ++ ": " ++ error)
      | .ok canonical =>
          match loadFile files canonical with
          | .error error => .error error
          | .ok root => .ok (root, (files.parent canonical).getD resolver.baseDir)
  | .resolveValueTree value => .ok (value, resolver.baseDir)

/-- Resolve the document of a request from its root, fetching files by `fetch`. -/
def resolveFrom (resolver : RefResolver Path) (fetch : Path → Attempt String σ Value)
    (request : Request Path) : Attempt String σ Value :=
  match resolver.start files request with
  | .error error => Attempt.fail error
  | .ok (root, base) =>
      resolveValue files resolver.allowedRoots resolver.maxDepth fetch (resolver.maxDepth + 1)
        root base root

/-- A resolved request has a document to start from. -/
theorem start_of_resolveFrom {files : Files Path} {resolver : RefResolver Path}
    {fetch : Path → Attempt String σ Value} {request : Request Path} {state : σ} {result : Value}
    (resolved : (resolver.resolveFrom files fetch request state).1 = .ok result) :
    ∃ root base, resolver.start files request = .ok (root, base) ∧
      (resolveValue files resolver.allowedRoots resolver.maxDepth fetch (resolver.maxDepth + 1)
        root base root state).1 = .ok result := by
  unfold resolveFrom at resolved
  cases started : resolver.start files request with
  | error error =>
      rw [started] at resolved
      cases resolved
  | ok position =>
      obtain ⟨root, base⟩ := position
      rw [started] at resolved
      exact ⟨root, base, rfl, resolved⟩

/-- Answer a request: the resolved document or an error, and the resolver with its cache. -/
def answer (resolver : RefResolver Path) (request : Request Path) :
    RefResolver Path × Except String Value :=
  let fetch := externalDocument files (ExternalDocs.evict resolver.externalCacheLimit)
  let (outcome, docs) := resolver.resolveFrom files fetch request resolver.toExternalDocs
  ({ resolver with toExternalDocs := docs }, outcome)

/-- A configured resolver that has answered nothing yet. -/
def fresh (resolver : RefResolver Path) : RefResolver Path :=
  { resolver with cache := ∅, cacheOrder := [] }

/-- The resolver after earlier requests. -/
def after (resolver : RefResolver Path) (earlier : List (Request Path)) : RefResolver Path :=
  stateAfter (answer files) resolver earlier

end RefResolver

end SpecMock.Core
