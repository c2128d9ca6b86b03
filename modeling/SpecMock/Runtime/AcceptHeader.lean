import SpecMock.Runtime.Directives

/-!
# The `Accept` header, from the request to the answer

The header is parsed twice.  The first time only its best media range that is
no wildcard is kept; the negotiation with the declared types parses that range
again, as if it were the whole header.  The other ranges are lost, so a header
that also admits a declared type with a lesser range is refused.  Both times the
ranges are sorted by the library, which may fail to return if a quality is no
number.
-/

namespace SpecMock.Runtime

open SpecMock.Library SpecMock.Core

section Negotiation

variable {κ : Type} (qualities : Qualities κ)

/-- A range of the header names one of the declared types or is the wildcard. -/
def AcceptAdmits (available : List String) : Option String → Prop
  | none => True
  | some accept => ∃ range ∈ (parsedRanges qualities accept).map MediaEntry.mediaType,
      range = "*/*" ∨ range ∈ available

/-! ## The library's sort -/

section Sorted

variable (sort : SortBy)

/-- The media ranges of an `Accept` header as the sort leaves them, if it returns. -/
def sortedTypes (accept : String) : Option (List (MediaEntry κ)) :=
  sort.run (byQuality qualities) (parsedRanges qualities accept)

/-- `negotiateMediaType` by the library's sort. -/
def negotiateMediaTypeBy (available : List String) (acceptHeader : Option String) :
    Option (Option String) :=
  match acceptHeader with
  | none => some available.head?
  | some accept => (sortedTypes qualities sort accept).map (firstAccepted available)

/-- `PreferDirectives.fromHeaders` by the library's sort. -/
def PreferDirectives.fromHeadersBy (headers : Headers) : Option PreferDirectives :=
  match headers.get "accept" with
  | .none => some headers.preferred
  | .some accept => (sortedTypes qualities sort accept).map fun entries =>
      { headers.preferred with mediaType := firstNamed (entries.map MediaEntry.mediaType) }

variable {qualities sort}

theorem stableSort_byQuality (accept : String) :
    stableSort (byQuality qualities) (parsedRanges qualities accept) =
      requestedTypes qualities accept := by
  have same : (fun left right => byQuality qualities left right ≠ .gt) =
      fun left right : MediaEntry κ =>
        qualities.compare right.quality left.quality ≠ some .gt := by
    funext left right
    unfold byQuality
    cases qualities.compare right.quality left.quality <;> simp
  rw [stableSort, requestedTypes]
  simp only [same]

/-- Where the comparison orders the ranges, the sort is the stable one. -/
theorem sortedTypes_of_compares {accept : String}
    (compares : ComparesOn (byQuality qualities) (parsedRanges qualities accept)) :
    sortedTypes qualities sort accept = some (requestedTypes qualities accept) := by
  rw [sortedTypes, sort.sorts compares, stableSort_byQuality]

theorem negotiateMediaTypeBy_insertion (available : List String) (accept : Option String) :
    negotiateMediaTypeBy qualities .insertion available accept =
      some (negotiateMediaType qualities available accept) := by
  cases accept with
  | none => rfl
  | some accept =>
      have sorted : sortedTypes qualities .insertion accept =
          some (requestedTypes qualities accept) :=
        congrArg some (stableSort_byQuality accept)
      rw [negotiateMediaTypeBy, sorted]
      rfl

theorem sortedTypes_perm {accept : String} {entries : List (MediaEntry κ)}
    (sorted : sortedTypes qualities sort accept = some entries) :
    entries.Perm (parsedRanges qualities accept) :=
  sort.keeps sorted

end Sorted

/-! ## The negotiation with a full header -/

theorem firstAccepted_eq_none_iff {available : List String} (declared : available ≠ [])
    (entries : List (MediaEntry κ)) :
    firstAccepted available entries = none ↔
      ¬ ∃ range ∈ entries.map MediaEntry.mediaType, range = "*/*" ∨ range ∈ available := by
  induction entries with
  | nil => simp [firstAccepted]
  | cons entry rest ih =>
      rw [firstAccepted, List.map_cons, List.exists_mem_cons_iff, not_or, ← ih]
      by_cases wild : entry.mediaType = "*/*"
      · simp [wild, declared]
      · by_cases named : entry.mediaType ∈ available
        · simp [wild, named]
        · simp [wild, named]

/-- Nothing is selected exactly if the header admits none of the declared types. -/
theorem negotiateMediaTypeBy_eq_none_iff {sort : SortBy} {available : List String}
    {accept chosen : Option String} (declared : available ≠ [])
    (negotiated : negotiateMediaTypeBy qualities sort available accept = some chosen) :
    chosen = none ↔ ¬ AcceptAdmits qualities available accept := by
  cases accept with
  | none =>
      cases negotiated
      simp [AcceptAdmits, declared]
  | some accept =>
      obtain ⟨entries, sorted, rfl⟩ := Option.map_eq_some_iff.mp negotiated
      rw [firstAccepted_eq_none_iff declared]
      simp only [AcceptAdmits, ((sortedTypes_perm sorted).map _).mem_iff]

theorem mem_of_firstAccepted {available : List String} {mediaType : String}
    {entries : List (MediaEntry κ)} (chosen : firstAccepted available entries = some mediaType) :
    mediaType ∈ available := by
  induction entries with
  | nil => cases chosen
  | cons entry rest ih =>
      rw [firstAccepted] at chosen
      split at chosen
      · exact List.mem_of_mem_head? chosen
      · split at chosen
        next named =>
          cases chosen
          exact named
        next => exact ih chosen

/-- Only declared types are selected. -/
theorem mem_of_negotiateMediaTypeBy {sort : SortBy} {available : List String}
    {accept : Option String} {mediaType : String}
    (chosen : negotiateMediaTypeBy qualities sort available accept = some (some mediaType)) :
    mediaType ∈ available := by
  cases accept with
  | none => exact List.mem_of_mem_head? (Option.some.inj chosen)
  | some accept =>
      obtain ⟨entries, -, first⟩ := Option.map_eq_some_iff.mp chosen
      exact mem_of_firstAccepted first

/-! ## A single range parsed again -/

/-- A media range as it comes out of a header: nothing to cut off. -/
structure PlainRange (range : String) : Prop where
  trimmed : Text.trim range = range
  comma : ',' ∉ range.toList
  semicolon : ';' ∉ range.toList

/-- A media range is a trimmed part of its segment that no semicolon divides. -/
theorem mediaEntry_cases {segment : String} {entry : MediaEntry κ}
    (parsed : mediaEntry qualities segment = some entry) :
    ∃ part, entry.mediaType = Text.trim part ∧
      ∀ char ∈ part.toList, char ≠ ';' ∧ char ∈ segment.toList := by
  unfold mediaEntry at parsed
  dsimp only at parsed
  split at parsed
  · cases parsed
  next =>
    cases split : Text.splitOnce ';' (Text.trim segment) with
    | none =>
        rw [split, Option.getD_none, Option.some.injEq] at parsed
        subst parsed
        refine ⟨Text.trim segment, rfl, ?_⟩
        intro char member
        refine ⟨?_, Text.mem_of_mem_trimEnds member⟩
        rintro rfl
        exact Text.splitOnce_ne_none member split
    | some parts =>
        rw [split, Option.getD_some, Option.some.injEq] at parsed
        subst parsed
        refine ⟨parts.1, rfl, ?_⟩
        intro char member
        obtain ⟨apart, inside⟩ := Text.mem_of_splitOnce split member
        exact ⟨apart, Text.mem_of_mem_trimEnds inside⟩

/-- Every range of a header is plain. -/
theorem parsedRanges_plain {accept range : String}
    (member : range ∈ (parsedRanges qualities accept).map MediaEntry.mediaType) :
    PlainRange range := by
  obtain ⟨entry, parsed, rfl⟩ := List.mem_map.mp member
  obtain ⟨segment, piece, found⟩ := List.mem_filterMap.mp parsed
  have single := Text.separator_not_mem_of_mem_pieces piece
  obtain ⟨part, trimmed, inside⟩ := mediaEntry_cases qualities found
  rw [trimmed]
  constructor
  · exact Text.trimEnds_idem Text.isWhiteSpace part
  · exact fun comma => single (inside _ (Text.mem_of_mem_trimEnds comma)).2
  · exact fun semicolon => (inside _ (Text.mem_of_mem_trimEnds semicolon)).1 rfl

/-- A plain range is the only range of the header that consists of it. -/
theorem parsedRanges_of_plain {range : String} (plain : PlainRange range) (nonempty : range ≠ "") :
    parsedRanges qualities range = [⟨range, qualities.one⟩] := by
  have entry : mediaEntry qualities range = some ⟨range, qualities.one⟩ := by
    have quality : qualityOf qualities "" = qualities.one := rfl
    simp only [mediaEntry, plain.trimmed, nonempty, if_false,
      Text.splitOnce_undivided plain.semicolon, Option.getD_none, quality]
  simp only [parsedRanges, Text.pieces_undivided plain.comma, List.filterMap_cons, entry,
    List.filterMap_nil]

/-- Negotiating with one range selects the type it names, if that is declared. -/
theorem negotiateMediaTypeBy_plain (sort : SortBy) (available : List String) {range : String}
    (plain : PlainRange range) (tame : range ≠ "*/*") :
    negotiateMediaTypeBy qualities sort available (some range) =
      some (if range ≠ "" ∧ range ∈ available then some range else none) := by
  by_cases blank : range = ""
  · subst blank
    have unsorted : sortedTypes qualities sort "" = some [] := sort.run_nil _
    rw [negotiateMediaTypeBy, unsorted]
    rfl
  · have sorted : sortedTypes qualities sort range = some [⟨range, qualities.one⟩] := by
      rw [sortedTypes, parsedRanges_of_plain qualities plain blank]
      exact sort.single _ _
    simp [negotiateMediaTypeBy, sorted, firstAccepted, tame, blank]

/-! ## When the best range decides alone -/

/--
The best range that is no wildcard decides like all ranges together: there is
none, and the header has ranges; or it follows a wildcard and is the first
declared type; or it comes first, and is declared unless nothing is admitted.
-/
def BestRangeDecides (available ranges : List String) : Prop :=
  match firstNamed ranges with
  | none => ranges ≠ []
  | some best =>
      if ranges.head? = some "*/*" then best ≠ "" ∧ available.head? = some best
      else if best ∈ available then best ≠ ""
      else ∀ range ∈ ranges, range ≠ "*/*" ∧ range ∉ available

/--
The condition on a request with or without an `Accept` header: the sort of the
ranges returns, and in the order that it leaves the best one decides.
-/
def AcceptKept (sort : SortBy) (available : List String) : Option String → Prop
  | none => True
  | some accept => ∃ entries, sortedTypes qualities sort accept = some entries ∧
      BestRangeDecides available (entries.map MediaEntry.mediaType)

/-- The type that the best range without wildcards names. -/
def namedByBest (available ranges : List String) : Option String :=
  match firstNamed ranges with
  | none => available.head?
  | some best => if best ≠ "" ∧ best ∈ available then some best else none

/-- What is selected from the one range that is forwarded. -/
theorem negotiateMediaTypeBy_forwarded (sort : SortBy) (available : List String)
    {accept : String} {entries : List (MediaEntry κ)}
    (sorted : sortedTypes qualities sort accept = some entries) :
    negotiateMediaTypeBy qualities sort available
        (firstNamed (entries.map MediaEntry.mediaType)) =
      some (namedByBest available (entries.map MediaEntry.mediaType)) := by
  unfold namedByBest
  cases best : firstNamed (entries.map MediaEntry.mediaType) with
  | none => rfl
  | some range =>
      have member := List.mem_of_find?_eq_some best
      rw [((sortedTypes_perm sorted).map _).mem_iff] at member
      apply negotiateMediaTypeBy_plain qualities sort available
      · exact parsedRanges_plain qualities member
      · exact bne_iff_ne.mp (List.find?_some (p := (· != "*/*")) best)

theorem namedByBest_eq_iff {available : List String} (declared : available ≠ [])
    (entries : List (MediaEntry κ)) :
    namedByBest available (entries.map MediaEntry.mediaType) = firstAccepted available entries ↔
      BestRangeDecides available (entries.map MediaEntry.mediaType) := by
  cases entries with
  | nil => simp [namedByBest, BestRangeDecides, firstAccepted, firstNamed, declared]
  | cons entry rest =>
      unfold namedByBest BestRangeDecides
      rw [List.map_cons, firstNamed_cons, firstAccepted, List.head?_cons]
      by_cases wild : entry.mediaType = "*/*"
      · -- The full header selects the first declared type.
        simp only [wild, if_true]
        cases firstNamed (rest.map MediaEntry.mediaType) with
        | none => simp
        | some best =>
            by_cases kept : best ≠ "" ∧ best ∈ available
            · simp only [kept, ne_eq, not_false_eq_true, and_self, if_true, true_and]
              exact eq_comm
            · have other : ¬ (best ≠ "" ∧ available.head? = some best) :=
                fun both => kept ⟨both.1, List.mem_of_mem_head? both.2⟩
              have first : none ≠ available.head? := fun none => declared (by simpa using none.symm)
              simp only [kept, if_false, other, iff_false]
              exact first
      · by_cases named : entry.mediaType ∈ available
        · simp [wild, named]
        · have refused := firstAccepted_eq_none_iff declared rest
          simp only [wild, named, ne_eq, and_false, if_false, List.mem_cons, forall_eq_or_imp,
            not_false_eq_true, and_self, true_and, Option.some.injEq]
          rw [eq_comm, refused]
          push Not
          rfl

/-- The forwarded range selects what the full header selects exactly if it decides alone. -/
theorem selects_iff {available : List String} (declared : available ≠ []) (sort : SortBy)
    (headers : Headers) :
    (∃ prefer chosen, PreferDirectives.fromHeadersBy qualities sort headers = some prefer ∧
      negotiateMediaTypeBy qualities sort available prefer.mediaType = some chosen ∧
      negotiateMediaTypeBy qualities sort available (headers.get "accept") = some chosen) ↔
      AcceptKept qualities sort available (headers.get "accept") := by
  unfold PreferDirectives.fromHeadersBy
  cases headers.get "accept" with
  | none =>
      refine iff_of_true ⟨headers.preferred, available.head?, rfl, ?_, rfl⟩ trivial
      rw [mediaType_preferred]
      rfl
  | some accept =>
      unfold AcceptKept
      dsimp only
      cases sorted : sortedTypes qualities sort accept with
      | none => simp
      | some entries =>
          have forwarded := negotiateMediaTypeBy_forwarded qualities sort available sorted
          have full : negotiateMediaTypeBy qualities sort available (some accept) =
              some (firstAccepted available entries) := by
            rw [negotiateMediaTypeBy, sorted]
            rfl
          rw [full]
          simp only [Option.map_some, Option.some.injEq, exists_eq_left',
            ← namedByBest_eq_iff declared]
          constructor
          · rintro ⟨_, chosen, rfl, same, rfl⟩
            exact Option.some.inj (forwarded.symm.trans same)
          · intro same
            exact ⟨_, _, rfl, forwarded, same.symm⟩

end Negotiation

/-! ## The answer of an operation -/

section Answer

variable (libraries : Libraries)

theorem generated_acceptable (schema : Value) (seed : BitVec 64) (message : String) :
    (generated libraries schema seed).map some ≠ .error (.notAcceptable message) := by
  unfold generated
  cases Faker.generateJsonValue libraries.random schema seed with
  | error error => simp [Except.mapError, Except.map]
  | ok value => simp [Except.mapError, Except.map]

/-- No body is refused as not acceptable. -/
theorem preferredBody_acceptable (entry : MediaTypeSpec) (seed : BitVec 64)
    (prefer : PreferDirectives) (message : String) :
    entry.preferredBody libraries seed prefer ≠ .error (.notAcceptable message) := by
  unfold MediaTypeSpec.preferredBody MediaTypeSpec.resolveBody
  split
  · split <;> simp
  · split
    · split
      · simp
      · exact generated_acceptable libraries _ _ _
    · split
      · simp
      · split
        · simp
        · split
          · simp
          · exact generated_acceptable libraries _ _ _

variable (sort : SortBy)

/-- `ResponseSpec.negotiated` by the library's sort. -/
def ResponseSpec.negotiatedBy (response : ResponseSpec) (seed : BitVec 64)
    (prefer : PreferDirectives) :
    Option (Except RuntimeError (Option (String × Option Value × Option Value))) :=
  let available := response.mediaTypes
  if available = [] then some (.ok none)
  else (negotiateMediaTypeBy libraries.qualities sort available prefer.mediaType).map
    (response.represented libraries seed prefer)

/-- `OperationSpec.mockResponse` by the library's sort. -/
def OperationSpec.mockResponseBy (operation : OperationSpec) (seed : BitVec 64)
    (prefer : PreferDirectives) : Option (Except RuntimeError MockHttpResponse) :=
  match selectResponse operation.responses prefer with
  | none => some (.error (.notFound "preferred code not found"))
  | some selected => (selected.negotiatedBy libraries sort seed prefer).map
      (selected.mocked libraries seed)

/-- What the headers of a request make of an operation, if the sorts on the way return. -/
def OperationSpec.answered (operation : OperationSpec) (seed : BitVec 64) (headers : Headers) :
    Option (Except RuntimeError MockHttpResponse) :=
  (PreferDirectives.fromHeadersBy libraries.qualities sort headers).bind
    (operation.mockResponseBy libraries sort seed)

variable {operation : OperationSpec} {response : ResponseSpec} {prefer : PreferDirectives}

/-- What the selected media type makes of the answer. -/
theorem mockResponseBy_cases (seed : BitVec 64) {chosen : Option String}
    (selected : selectResponse operation.responses prefer = some response)
    (declared : response.mediaTypes ≠ [])
    (negotiated : negotiateMediaTypeBy libraries.qualities sort response.mediaTypes
      prefer.mediaType = some chosen) :
    match chosen with
    | none => ∃ message, operation.mockResponseBy libraries sort seed prefer =
        some (.error (.notAcceptable message))
    | some mediaType =>
        (∃ mock, operation.mockResponseBy libraries sort seed prefer = some (.ok mock) ∧
          mock.mediaType = some mediaType) ∨
        ∃ error, operation.mockResponseBy libraries sort seed prefer = some (.error error) ∧
          ∀ message, error ≠ .notAcceptable message := by
  simp only [OperationSpec.mockResponseBy, selected, ResponseSpec.negotiatedBy, declared, if_false,
    negotiated, Option.map_some]
  cases chosen with
  | none => exact ⟨_, rfl⟩
  | some mediaType =>
      have listed := mem_of_negotiateMediaTypeBy libraries.qualities negotiated
      obtain ⟨content, member, named⟩ := List.mem_map.mp listed
      have found : (response.mediaTypeEntry mediaType).isSome = true := by
        rw [ResponseSpec.mediaTypeEntry, List.find?_isSome]
        exact ⟨content, member, beq_iff_eq.mpr named⟩
      obtain ⟨entry, entry_eq⟩ := Option.isSome_iff_exists.mp found
      simp only [ResponseSpec.represented, entry_eq]
      cases body : entry.preferredBody libraries seed prefer with
      | ok body => exact .inl ⟨_, rfl, rfl⟩
      | error error =>
          refine .inr ⟨error, rfl, ?_⟩
          rintro message rfl
          exact preferredBody_acceptable libraries entry seed prefer message body

/-- A response with content is refused exactly if no type is selected. -/
theorem mockResponseBy_notAcceptable_iff {seed : BitVec 64} {chosen : Option String}
    (selected : selectResponse operation.responses prefer = some response)
    (declared : response.mediaTypes ≠ [])
    (negotiated : negotiateMediaTypeBy libraries.qualities sort response.mediaTypes
      prefer.mediaType = some chosen) :
    (∃ message, operation.mockResponseBy libraries sort seed prefer =
        some (.error (.notAcceptable message))) ↔ chosen = none := by
  have outcome := mockResponseBy_cases libraries sort seed selected declared negotiated
  cases chosen with
  | none => exact iff_of_true outcome rfl
  | some mediaType =>
      refine iff_of_false ?_ (by simp)
      rintro ⟨message, refused⟩
      rcases outcome with ⟨mock, given, -⟩ | ⟨error, failed, other⟩
      · cases given.symm.trans refused
      · cases failed.symm.trans refused
        exact other message rfl

/-- A mocked response has the selected media type. -/
theorem mediaType_mockResponseBy {seed : BitVec 64} {mock : MockHttpResponse}
    {chosen : Option String}
    (selected : selectResponse operation.responses prefer = some response)
    (declared : response.mediaTypes ≠ [])
    (negotiated : negotiateMediaTypeBy libraries.qualities sort response.mediaTypes
      prefer.mediaType = some chosen)
    (mocked : operation.mockResponseBy libraries sort seed prefer = some (.ok mock)) :
    mock.mediaType = chosen := by
  have outcome := mockResponseBy_cases libraries sort seed selected declared negotiated
  cases chosen with
  | none =>
      obtain ⟨message, refused⟩ := outcome
      cases refused.symm.trans mocked
  | some mediaType =>
      rcases outcome with ⟨other, given, typed⟩ | ⟨error, failed, -⟩
      · cases given.symm.trans mocked
        exact typed
      · cases failed.symm.trans mocked

/-- Where the comparison orders the ranges of the header, the answer is the modelled one. -/
theorem answered_of_compares (seed : BitVec 64) (headers : Headers)
    (compares : ∀ accept, headers.get "accept" = some accept →
      ComparesOn (byQuality libraries.qualities) (parsedRanges libraries.qualities accept)) :
    operation.answered libraries sort seed headers = some (operation.mockResponse libraries seed
      (PreferDirectives.fromHeaders libraries.qualities headers)) := by
  have read : PreferDirectives.fromHeadersBy libraries.qualities sort headers =
      some (PreferDirectives.fromHeaders libraries.qualities headers) := by
    unfold PreferDirectives.fromHeadersBy PreferDirectives.fromHeaders
    cases given : headers.get "accept" with
    | none => rfl
    | some accept =>
        simp only [sortedTypes_of_compares (compares accept given)]
        rfl
  have negotiated : ∀ available,
      negotiateMediaTypeBy libraries.qualities sort available
          (PreferDirectives.fromHeaders libraries.qualities headers).mediaType =
        some (negotiateMediaType libraries.qualities available
          (PreferDirectives.fromHeaders libraries.qualities headers).mediaType) := by
    intro available
    unfold PreferDirectives.fromHeaders
    rw [← negotiateMediaTypeBy_insertion]
    cases given : headers.get "accept" with
    | none =>
        simp only [mediaType_preferred]
        rfl
    | some accept =>
        have forwarded := fun sort => negotiateMediaTypeBy_forwarded libraries.qualities sort
          available (sortedTypes_of_compares (compares accept given))
        exact (forwarded sort).trans (forwarded .insertion).symm
  rw [OperationSpec.answered, read, Option.bind_some, OperationSpec.mockResponseBy,
    OperationSpec.mockResponse]
  cases selectResponse operation.responses
      (PreferDirectives.fromHeaders libraries.qualities headers) with
  | none => rfl
  | some selected =>
      simp only [ResponseSpec.negotiatedBy, ResponseSpec.negotiated, negotiated]
      split <;> rfl

/-- The answer to a request honours its whole `Accept` header. -/
structure HonoursAccept (operation : OperationSpec) (response : ResponseSpec)
    (seed : BitVec 64) (headers : Headers) : Prop where
  /-- The headers are read, and a media type is selected as by the full header. -/
  selects : ∃ prefer chosen,
    PreferDirectives.fromHeadersBy libraries.qualities sort headers = some prefer ∧
    negotiateMediaTypeBy libraries.qualities sort response.mediaTypes prefer.mediaType =
      some chosen ∧
    negotiateMediaTypeBy libraries.qualities sort response.mediaTypes (headers.get "accept") =
      some chosen
  /-- A response is given in that media type. -/
  given : ∀ mock, operation.answered libraries sort seed headers = some (.ok mock) →
    negotiateMediaTypeBy libraries.qualities sort response.mediaTypes (headers.get "accept") =
      some mock.mediaType
  /-- The request is refused exactly if no range admits a declared type. -/
  refused : (∃ message, operation.answered libraries sort seed headers =
      some (.error (.notAcceptable message))) ↔
    ¬ AcceptAdmits libraries.qualities response.mediaTypes (headers.get "accept")

/-- The `Accept` header does not choose among the responses. -/
theorem selectResponse_fromHeadersBy {headers : Headers} (responses : List ResponseSpec)
    (read : PreferDirectives.fromHeadersBy libraries.qualities sort headers = some prefer) :
    selectResponse responses prefer = selectResponse responses headers.preferred := by
  unfold PreferDirectives.fromHeadersBy at read
  split at read
  · cases read
    rfl
  · obtain ⟨entries, -, rfl⟩ := Option.map_eq_some_iff.mp read
    rfl

/--
The answer of an operation whose response has content honours the `Accept`
header of the request exactly if the sort of its ranges returns and the best of
them decides alone.  Where the comparison orders the ranges, the sort returns
them by quality.
-/
theorem accept_honoured_iff (operation : OperationSpec) (response : ResponseSpec)
    (seed : BitVec 64) (headers : Headers)
    (selected : selectResponse operation.responses headers.preferred = some response)
    (declared : response.content ≠ []) :
    (HonoursAccept libraries sort operation response seed headers ↔
      AcceptKept libraries.qualities sort response.mediaTypes (headers.get "accept")) ∧
    ∀ accept, headers.get "accept" = some accept →
      ComparesOn (byQuality libraries.qualities) (parsedRanges libraries.qualities accept) →
      (AcceptKept libraries.qualities sort response.mediaTypes (headers.get "accept") ↔
        BestRangeDecides response.mediaTypes (acceptRanges libraries.qualities accept)) := by
  have available : response.mediaTypes ≠ [] := by simpa [ResponseSpec.mediaTypes] using declared
  constructor
  · rw [← selects_iff libraries.qualities available]
    constructor
    · exact HonoursAccept.selects
    · rintro selects
      obtain ⟨prefer, chosen, read, forwarded, full⟩ := selects
      have answered : operation.answered libraries sort seed headers =
          operation.mockResponseBy libraries sort seed prefer := by
        rw [OperationSpec.answered, read, Option.bind_some]
      have selected' := (selectResponse_fromHeadersBy libraries sort operation.responses read).trans
        selected
      constructor
      · exact ⟨prefer, chosen, read, forwarded, full⟩
      · intro mock mocked
        rw [answered] at mocked
        rw [full, mediaType_mockResponseBy libraries sort selected' available forwarded mocked]
      · rw [answered, mockResponseBy_notAcceptable_iff libraries sort selected' available forwarded]
        exact negotiateMediaTypeBy_eq_none_iff libraries.qualities available full
  · intro accept given compares
    rw [given, AcceptKept, sortedTypes_of_compares compares]
    simp only [Option.some.injEq, exists_eq_left', acceptRanges]

end Answer

/-! ## A header with a second choice -/

/-- The users are listed as JSON only. -/
def userListing : OperationSpec where
  method := "GET"
  pathTemplate := "/users"
  responses := [⟨"200", [⟨"application/json", none, some (.array []), ∅⟩], ∅⟩]

/-- A client that would rather have XML, but takes JSON. -/
def xmlOrJson : Headers := [("accept", some "application/xml, application/json")]

/-- A header with JSON as its best range is honoured. -/
theorem accept_honoured_json :
    ∃ response, selectResponse userListing.responses
        (Headers.preferred [("accept", some "application/json, text/html")]) = some response ∧
      response.content ≠ [] ∧
      HonoursAccept sampleLibraries .insertion userListing response 0
        [("accept", some "application/json, text/html")] := by
  refine ⟨_, rfl, List.cons_ne_nil _ _, ?_⟩
  have kept : AcceptKept sampleLibraries.qualities .insertion ["application/json"]
      (some "application/json, text/html") :=
    ⟨[⟨"application/json", ()⟩, ⟨"text/html", ()⟩], rfl, by simp [BestRangeDecides]⟩
  exact (accept_honoured_iff sampleLibraries .insertion userListing _ 0 _ rfl
    (List.cons_ne_nil _ _)).1.mpr kept

/-- The second choice of the client is declared, and yet the request is refused. -/
theorem second_choice_refused :
    (¬ ∀ (libraries : Libraries) (sort : SortBy) (operation : OperationSpec)
        (response : ResponseSpec) (seed : BitVec 64) (headers : Headers),
      selectResponse operation.responses headers.preferred = some response →
      response.content ≠ [] → HonoursAccept libraries sort operation response seed headers) ∧
    negotiateMediaTypeBy sampleLibraries.qualities .insertion ["application/json"]
      (xmlOrJson.get "accept") = some (some "application/json") ∧
    userListing.answered sampleLibraries .insertion 0 xmlOrJson =
      some (.error (.notAcceptable ("no acceptable representation for Accept header; " ++
        "available media types: application/json"))) := by
  have selected : negotiateMediaTypeBy sampleLibraries.qualities .insertion ["application/json"]
      (xmlOrJson.get "accept") = some (some "application/json") := by decide
  have refused : userListing.answered sampleLibraries .insertion 0 xmlOrJson =
      some (.error (.notAcceptable ("no acceptable representation for Accept header; " ++
        "available media types: application/json"))) := by rfl
  refine ⟨?_, selected, refused⟩
  intro honoured
  have answered := honoured sampleLibraries .insertion userListing _ 0 xmlOrJson rfl
    (List.cons_ne_nil _ _)
  have unadmitted := (negotiateMediaTypeBy_eq_none_iff sampleLibraries.qualities
    (List.cons_ne_nil _ _) selected).mpr (answered.refused.mp ⟨_, refused⟩)
  cases unadmitted

end SpecMock.Runtime
