import SpecMock.Library.Attempt
import SpecMock.Runtime.AsyncApi

/-!
# Routes of the WebSocket endpoint

The base path and a path for every channel are registered as routes of their
own, beside the operations of the OpenAPI document.  At start the literal text
of each route is tried against the document.  A route with a parameter admits
other paths than its text, though: these are neither tried against the document
nor found among the paths of the channels.
-/

namespace SpecMock.Runtime

open SpecMock.Library SpecMock.Core

/-! ## Starting the server -/

inductive MockMode where
  | mock
  /-- Forward to upstream and validate upstream responses. -/
  | proxy
  deriving DecidableEq

inductive StartError where
  | runtime (error : RuntimeError)
  | config (message : String)
  deriving DecidableEq

/-- The configuration, with the documents and the sidecar as they load from their paths. -/
structure ServerConfig where
  openapiSpec : Option (Except StartError OpenApiRuntime)
  asyncapiSpec : Option (Except StartError AsyncApiRuntime)
  scenariosSpec : Option (Except StartError ScenarioRuntime)
  mode : MockMode
  upstream : Option String
  wsPath : String

/-- What the routes of a server are made from. -/
structure HttpRuntime where
  openapi : Option OpenApiRuntime
  wsPath : String
  /-- The channels by the paths of their routes. -/
  wsChannelPaths : FiniteMap String String

/-- What is loaded from a path, if one is configured. -/
def loadOptional {α : Type} : Option (Except StartError α) → Except StartError (Option α)
  | none => .ok none
  | some (.ok loaded) => .ok (some loaded)
  | some (.error error) => .error error

/-- The template of the `GET` operation that a concrete route path would shadow. -/
def OpenApiRuntime.shadowedPath (openapi : OpenApiRuntime) (concretePath : String) :
    Option String :=
  (openapi.matchOperation "GET" concretePath).map fun matched => matched.operation.pathTemplate

/-- The base path without the slashes at its end. -/
def wsBase (wsPath : String) : String :=
  String.ofList (wsPath.toList.rdropWhile fun char => char == '/')

def channelRoute (wsPath channel : String) : String := wsBase wsPath ++ "/" ++ channel

def channelPaths (wsPath : String) (channelNames : List String) : FiniteMap String String :=
  channelNames.foldl (fun paths channel => paths.insert (channelRoute wsPath channel) channel) ∅

/-- Refuse a route whose text is a path of an operation. -/
def checkRoutes (openapi : OpenApiRuntime) : List String → Except StartError Unit
  | [] => .ok ()
  | wsRoute :: rest =>
      match openapi.shadowedPath wsRoute with
      | some template =>
          .error (.config ("OpenAPI path '" ++ template ++
            "' collides with the WebSocket route '" ++ wsRoute ++ "'. WebSocket routes take " ++
            "precedence, so that operation would be unreachable. Re-run with a different " ++
            "--ws-path."))
      | none => checkRoutes openapi rest

namespace HttpRuntime

variable {Url : Type}

/-- The upstream that the proxy needs. -/
def upstreamOf (parseUrl : String → Except String Url) (config : ServerConfig) :
    Except StartError (Option Url) :=
  match config.upstream with
  | none =>
      if config.mode = .proxy then
        .error (.config "proxy mode requires upstream base URL (--upstream)")
      else .ok none
  | some raw =>
      match parseUrl raw with
      | .ok url => .ok (some url)
      | .error error => .error (.config ("invalid upstream URL '" ++ raw ++ "': " ++ error))

def checkShadowed (openapi : Option OpenApiRuntime) (wsRoutes : List String) :
    Except StartError Unit :=
  match openapi with
  | none => .ok ()
  | some openapi => checkRoutes openapi wsRoutes

/-- The scenarios that are shared, or else those of the sidecar. -/
def loadScenarios (config : ServerConfig) (shared : Option ScenarioRuntime) :
    Except StartError (Option ScenarioRuntime) :=
  if config.mode = .proxy ∧ config.scenariosSpec.isSome = true then
    .error (.config ("--scenarios cannot be combined with --mode proxy: the upstream holds " ++
      "the real state. Drop one of the two."))
  else
    match shared with
    | some scenarios => .ok (some scenarios)
    | none => loadOptional config.scenariosSpec

/-- Build from the configuration, with an already loaded scenario runtime if there is one. -/
def fromConfigWith (parseUrl : String → Except String Url) (config : ServerConfig)
    (shared : Option ScenarioRuntime) : Except StartError HttpRuntime := do
  let openapi ← loadOptional config.openapiSpec
  let asyncapi ← loadOptional config.asyncapiSpec
  let _upstream ← upstreamOf parseUrl config
  let wsChannelPaths := match asyncapi with
    | some asyncapi => channelPaths config.wsPath asyncapi.channels.keys
    | none => ∅
  checkShadowed openapi (config.wsPath :: wsChannelPaths.keys)
  let _scenarios ← loadScenarios config shared
  .ok { openapi, wsPath := config.wsPath, wsChannelPaths }

/-- The pinned channel of a request path. -/
def resolveWsChannel (runtime : HttpRuntime) (path : String) : Option String :=
  runtime.wsChannelPaths.lookup path

/-- The routes that are registered for WebSockets. -/
def wsRoutes (runtime : HttpRuntime) : List String :=
  runtime.wsPath :: runtime.wsChannelPaths.keys

end HttpRuntime

/-! ## Registered routes -/

/-- A piece of a route admits itself, or any non-empty piece if it is a parameter. -/
def PieceAdmits (piece segment : String) : Prop :=
  match parseSegment piece with
  | .literal text => segment = text
  | .param _ => segment ≠ ""

/-- A registered route admits a path piece by piece. -/
def RouteAdmits (route path : String) : Prop :=
  List.Forall₂ PieceAdmits (Text.pieces '/' route) (Text.pieces '/' path)

/--
No path of a WebSocket route is one of a `GET` operation, and a path of the
route of a channel pins that channel.
-/
structure KeptApart (runtime : HttpRuntime) : Prop where
  unshadowed : ∀ route ∈ runtime.wsRoutes, ∀ path, RouteAdmits route path →
    ∀ openapi, runtime.openapi = some openapi → openapi.matchOperation "GET" path = none
  pinned : ∀ route channel, runtime.wsChannelPaths.lookup route = some channel →
    ∀ path, RouteAdmits route path → runtime.resolveWsChannel path = some channel

/-- Two segments of templates have a value in common. -/
def SegmentMatcher.Meets : SegmentMatcher → SegmentMatcher → Prop
  | .literal text, .literal other => text = other
  | _, _ => True

/-- Two templates overlap if they have as many segments and these meet one by one. -/
def Overlaps (route template : String) : Prop :=
  List.Forall₂ SegmentMatcher.Meets (parseSegments route) (parseSegments template)

def HasParameter (route : String) : Prop := ∃ name, .param name ∈ parseSegments route

/--
No route of a channel has a parameter, and no `GET` operation of the document
overlaps the base path.
-/
structure ServerConfig.RoutesApart (config : ServerConfig) : Prop where
  channels : ∀ asyncapi, config.asyncapiSpec = some (.ok asyncapi) →
    ∀ channel ∈ asyncapi.channels, ¬ HasParameter (channelRoute config.wsPath channel)
  base : ∀ openapi, config.openapiSpec = some (.ok openapi) →
    ∀ operation ∈ openapi.operations, operation.method = "GET" →
      ¬ Overlaps config.wsPath operation.pathTemplate

/-! ## Paths that a route admits -/

theorem parseSegment_param_ne_empty {piece name : String}
    (parsed : parseSegment piece = .param name) : piece ≠ "" := by
  rintro rfl
  cases parsed

theorem PieceAdmits.empty_iff {piece segment : String} (admits : PieceAdmits piece segment) :
    piece ≠ "" ↔ segment ≠ "" := by
  unfold PieceAdmits at admits
  cases parsed : parseSegment piece with
  | literal text =>
      rw [parsed] at admits
      rw [admits, parseSegment_literal parsed]
  | param name =>
      rw [parsed] at admits
      exact iff_of_true (parseSegment_param_ne_empty parsed) admits

/-- The segments of an admitted path are admitted one by one. -/
theorem RouteAdmits.segments {route path : String} (admits : RouteAdmits route path) :
    List.Forall₂ PieceAdmits (splitPath route) (splitPath path) := by
  rw [splitPath_eq_words, splitPath_eq_words]
  refine List.rel_filter (fun piece segment admitted => ?_) admits
  simpa using admitted.empty_iff

/-- Segments of their own can be put between the empty pieces of a route. -/
theorem exists_pieces {pieces segments : List String}
    (admitted : List.Forall₂ PieceAdmits (pieces.filter fun piece => decide (piece ≠ "")) segments)
    (undivided : ∀ segment ∈ segments, '/' ∉ segment.toList) :
    ∃ filled, List.Forall₂ PieceAdmits pieces filled ∧
      (filled.filter fun piece => decide (piece ≠ "")) = segments ∧
      ∀ piece ∈ filled, '/' ∉ piece.toList := by
  induction pieces generalizing segments with
  | nil =>
      cases admitted
      exact ⟨[], .nil, rfl, by simp⟩
  | cons piece rest ih =>
      by_cases empty : piece = ""
      · subst empty
        obtain ⟨filled, admits, kept, plain⟩ := ih admitted undivided
        exact ⟨"" :: filled, .cons rfl admits, kept, List.forall_mem_cons.mpr ⟨by simp, plain⟩⟩
      · have kept : decide (piece ≠ "") = true := decide_eq_true empty
        rw [List.filter_cons, if_pos kept] at admitted
        cases admitted with
        | @cons _ segment _ segments first others =>
            obtain ⟨here, there⟩ := List.forall_mem_cons.mp undivided
            obtain ⟨filled, admits, same, plain⟩ := ih others there
            have stays : decide (segment ≠ "") = true :=
              decide_eq_true (first.empty_iff.mp empty)
            refine ⟨segment :: filled, .cons first admits, ?_,
              List.forall_mem_cons.mpr ⟨here, plain⟩⟩
            rw [List.filter_cons, if_pos stays, same]

theorem exists_path {route : String} {segments : List String}
    (admitted : List.Forall₂ PieceAdmits (splitPath route) segments)
    (undivided : ∀ segment ∈ segments, '/' ∉ segment.toList) :
    ∃ path, RouteAdmits route path ∧ splitPath path = segments := by
  rw [splitPath_eq_words] at admitted
  obtain ⟨filled, admits, kept, plain⟩ := exists_pieces admitted undivided
  have nonempty : filled ≠ [] := by
    rintro rfl
    exact Text.pieces_ne_nil '/' route (List.forall₂_nil_right_iff.mp admits)
  have pieces := Text.pieces_joined plain nonempty
  refine ⟨Text.joined '/' filled, ?_, ?_⟩
  · unfold RouteAdmits
    rw [pieces]
    exact admits
  · rw [splitPath_eq_words, Text.words, pieces, kept]

theorem eq_of_admits_plain {pieces filled : List String}
    (admits : List.Forall₂ PieceAdmits pieces filled)
    (plain : ∀ piece ∈ pieces, ∀ name, parseSegment piece ≠ .param name) : filled = pieces := by
  induction admits with
  | nil => rfl
  | @cons piece segment _ _ first _ ih =>
      obtain ⟨here, there⟩ := List.forall_mem_cons.mp plain
      have same : segment = piece := by
        unfold PieceAdmits at first
        cases parsed : parseSegment piece with
        | literal text =>
            rw [parsed] at first
            rw [first, parseSegment_literal parsed]
        | param name => exact absurd parsed (here name)
      rw [same, ih there]

/-- A route without parameters admits its own text only. -/
theorem RouteAdmits.eq_of_plain {route path : String} (admits : RouteAdmits route path)
    (plain : ¬ HasParameter route) : path = route := by
  have same : Text.pieces '/' path = Text.pieces '/' route := by
    refine eq_of_admits_plain admits fun piece member name parsed => plain ⟨name, ?_⟩
    rw [parseSegments, ← parsed, splitPath_eq_words]
    refine List.mem_map_of_mem (List.mem_filter.mpr ⟨member, ?_⟩)
    exact decide_eq_true (parseSegment_param_ne_empty parsed)
  rw [← Text.joined_pieces '/' path, same, Text.joined_pieces]

theorem slash_not_mem_of_mem_splitPath {path segment : String}
    (member : segment ∈ splitPath path) : '/' ∉ segment.toList := by
  rw [splitPath_eq_words] at member
  exact Text.separator_not_mem_of_mem_pieces (List.mem_filter.mp member).1

/-- A value for every parameter that is not its text. -/
def zeroValue : SegmentText := ⟨"0", by decide, by decide⟩

/-- A route with a parameter admits another path. -/
theorem exists_other_path {route : String} (parameter : HasParameter route) :
    ∃ path, RouteAdmits route path ∧ path ≠ route := by
  obtain ⟨name, declared⟩ := parameter
  obtain ⟨piece, member, parsed⟩ := List.mem_map.mp declared
  have admitted : List.Forall₂ PieceAdmits (splitPath route)
      ((splitPath route).map (fillSegment fun _ => zeroValue)) := by
    rw [List.forall₂_map_right_iff, List.forall₂_same]
    intro segment _
    unfold PieceAdmits fillSegment
    cases parsed : parseSegment segment with
    | literal text => exact (parseSegment_literal parsed).symm
    | param name => exact zeroValue.nonempty
  have undivided : ∀ segment ∈ (splitPath route).map (fillSegment fun _ => zeroValue),
      '/' ∉ segment.toList := by
    rw [List.forall_mem_map]
    exact fun segment inside =>
      slash_not_mem_fillSegment _ (slash_not_mem_of_mem_splitPath inside)
  obtain ⟨path, admits, segments⟩ := exists_path admitted undivided
  refine ⟨path, admits, ?_⟩
  rintro rfl
  have unchanged := List.map_inj_left.mp (segments.symm.trans (List.map_id _).symm) piece member
  unfold fillSegment at unchanged
  rw [parsed] at unchanged
  change "0" = piece at unchanged
  rw [← unchanged] at parsed
  cases parsed

/-! ## Overlapping templates -/

/-- Words that meet have a value in common. -/
theorem exists_common_value {piece other : String}
    (meets : (parseSegment piece).Meets (parseSegment other))
    (undivided : '/' ∉ piece.toList) (word : other ≠ "" ∧ '/' ∉ other.toList) :
    ∃ segment, PieceAdmits piece segment ∧ (parseSegment other).admits segment = true ∧
      '/' ∉ segment.toList := by
  unfold PieceAdmits
  cases left : parseSegment piece with
  | literal text =>
      refine ⟨piece, (parseSegment_literal left).symm, ?_, undivided⟩
      cases right : parseSegment other with
      | literal again =>
          rw [left, right] at meets
          change text = again at meets
          rw [← meets, parseSegment_literal left]
          exact beq_self_eq_true piece
      | param name => rfl
  | param name =>
      cases right : parseSegment other with
      | literal text =>
          refine ⟨other, word.1, ?_, word.2⟩
          rw [parseSegment_literal right]
          exact beq_self_eq_true other
      | param again => exact ⟨"0", zeroValue.nonempty, rfl, zeroValue.undivided⟩

theorem exists_common {pieces others : List String}
    (meet : List.Forall₂ (fun piece other => (parseSegment piece).Meets (parseSegment other))
      pieces others)
    (undivided : ∀ piece ∈ pieces, '/' ∉ piece.toList)
    (words : ∀ other ∈ others, other ≠ "" ∧ '/' ∉ other.toList) :
    ∃ segments, List.Forall₂ PieceAdmits pieces segments ∧
      Matches (others.map parseSegment) segments ∧ ∀ segment ∈ segments, '/' ∉ segment.toList := by
  induction meet with
  | nil => exact ⟨[], .nil, .nil, by simp⟩
  | cons first _ ih =>
      obtain ⟨left, undivided⟩ := List.forall_mem_cons.mp undivided
      obtain ⟨right, words⟩ := List.forall_mem_cons.mp words
      obtain ⟨segments, admits, matched, plain⟩ := ih undivided words
      obtain ⟨segment, here, also, bare⟩ := exists_common_value first left right
      exact ⟨segment :: segments, .cons here admits, matches_cons.mpr ⟨also, matched⟩,
        List.forall_mem_cons.mpr ⟨bare, plain⟩⟩

theorem meets_of_common {pieces others segments : List String}
    (admitted : List.Forall₂ PieceAdmits pieces segments)
    (matched : Matches (others.map parseSegment) segments) :
    List.Forall₂ SegmentMatcher.Meets (pieces.map parseSegment) (others.map parseSegment) := by
  induction admitted generalizing others with
  | nil =>
      cases others with
      | nil => exact .nil
      | cons => cases matched
  | @cons piece segment _ _ first _ ih =>
      cases others with
      | nil => cases matched
      | cons other rest =>
          obtain ⟨also, matched⟩ := matches_cons.mp matched
          refine .cons ?_ (ih matched)
          unfold PieceAdmits at first
          cases left : parseSegment piece with
          | param name => cases parseSegment other <;> trivial
          | literal text =>
              rw [left] at first
              cases right : parseSegment other with
              | param name => trivial
              | literal again =>
                  rw [right] at also
                  exact first.symm.trans (eq_of_beq also).symm

/-- Templates overlap exactly where some path is admitted by one and matched by the other. -/
theorem overlaps_iff {route template : String} :
    Overlaps route template ↔
      ∃ path, RouteAdmits route path ∧ Matches (parseSegments template) (splitPath path) := by
  constructor
  · intro overlap
    unfold Overlaps parseSegments at overlap
    rw [List.forall₂_map_left_iff, List.forall₂_map_right_iff] at overlap
    have words : ∀ other ∈ splitPath template, other ≠ "" ∧ '/' ∉ other.toList :=
      fun other member => ⟨of_decide_eq_true (List.mem_filter.mp member).2,
        slash_not_mem_of_mem_splitPath member⟩
    obtain ⟨segments, admitted, matched, undivided⟩ :=
      exists_common overlap (fun _ => slash_not_mem_of_mem_splitPath) words
    obtain ⟨path, admits, split⟩ := exists_path admitted undivided
    rw [← split] at matched
    exact ⟨path, admits, matched⟩
  · rintro ⟨path, admits, matched⟩
    exact meets_of_common admits.segments matched

/-! ## Routes and operations -/

theorem OpenApiRuntime.matchOperation_eq_none {openapi : OpenApiRuntime} {method path : String} :
    openapi.matchOperation method path = none ↔
      ∀ operation ∈ openapi.operations, operation.method = method →
        ¬ Matches (parseSegments operation.pathTemplate) (splitPath path) := by
  unfold matchOperation
  rw [openapi.built]
  rcases matchRoute_cases openapi.operations method path with
    ⟨missed, unmatched⟩ | ⟨index, operation, serves, found⟩
  · rw [missed]
    exact iff_of_true rfl unmatched
  · rw [found]
    refine iff_of_false ?_ fun unmatched =>
      unmatched operation (List.mem_of_getElem? serves.declared) serves.asked serves.matched
    simp [serves.declared]

theorem checkRoutes_eq_ok {openapi : OpenApiRuntime} {routes : List String} :
    checkRoutes openapi routes = .ok () ↔
      ∀ route ∈ routes, openapi.matchOperation "GET" route = none := by
  induction routes with
  | nil => exact iff_of_true rfl fun route member => absurd member List.not_mem_nil
  | cons route rest ih =>
      rw [List.forall_mem_cons, ← ih, checkRoutes, OpenApiRuntime.shadowedPath]
      cases openapi.matchOperation "GET" route with
      | none => exact ⟨fun free => ⟨rfl, free⟩, fun free => free.2⟩
      | some matched => exact iff_of_false (by rintro ⟨⟩) (by rintro ⟨⟨⟩, _⟩)

theorem channelRoute_injective (wsPath : String) : Function.Injective (channelRoute wsPath) := by
  intro channel other same
  have chars := congrArg String.toList same
  simp only [channelRoute, String.toList_append] at chars
  exact String.toList_injective (List.append_cancel_left chars)

/-- The channel of a path is the one whose route it is. -/
theorem lookup_channelPaths {wsPath path channel : String} {channelNames : List String} :
    (channelPaths wsPath channelNames).lookup path = some channel ↔
      channel ∈ channelNames ∧ path = channelRoute wsPath channel := by
  unfold channelPaths
  induction channelNames using List.reverseRecOn with
  | nil => simp
  | append_singleton names last ih =>
      rw [List.foldl_append, List.foldl_cons, List.foldl_nil, FiniteMap.lookup_insert_eq,
        List.mem_append, List.mem_singleton]
      by_cases here : path = channelRoute wsPath last
      · rw [if_pos here, Option.some.injEq]
        constructor
        · rintro rfl
          exact ⟨.inr rfl, here⟩
        · rintro ⟨_, also⟩
          exact channelRoute_injective wsPath (here.symm.trans also)
      · rw [if_neg here, ih]
        constructor
        · exact fun found => ⟨.inl found.1, found.2⟩
        · rintro ⟨earlier | rfl, also⟩
          · exact ⟨earlier, also⟩
          · exact absurd also here

/-! ## A started server -/

theorem loadOptional_eq_some {α : Type} {configured : Option (Except StartError α)} {loaded : α} :
    loadOptional configured = .ok (some loaded) ↔ configured = some (.ok loaded) := by
  cases configured with
  | none => simp [loadOptional]
  | some outcome => cases outcome <;> simp [loadOptional]

/-- What a server that has started took from its configuration, and what was checked. -/
structure Started (config : ServerConfig) (runtime : HttpRuntime) : Prop where
  openapi : ∀ openapi, runtime.openapi = some openapi ↔ config.openapiSpec = some (.ok openapi)
  wsPath : runtime.wsPath = config.wsPath
  channel : ∀ path channel, runtime.wsChannelPaths.lookup path = some channel ↔
    path = channelRoute config.wsPath channel ∧
      ∃ asyncapi, config.asyncapiSpec = some (.ok asyncapi) ∧ channel ∈ asyncapi.channels
  checked : ∀ openapi, runtime.openapi = some openapi → ∀ route ∈ runtime.wsRoutes,
    openapi.matchOperation "GET" route = none

theorem started_of_fromConfigWith {Url : Type} {parseUrl : String → Except String Url}
    {config : ServerConfig} {shared : Option ScenarioRuntime} {runtime : HttpRuntime}
    (started : HttpRuntime.fromConfigWith parseUrl config shared = .ok runtime) :
    Started config runtime := by
  obtain ⟨openapi, documented, started⟩ := bind_eq_ok.mp started
  obtain ⟨asyncapi, described, started⟩ := bind_eq_ok.mp started
  obtain ⟨_, _, started⟩ := bind_eq_ok.mp started
  obtain ⟨_, checked, started⟩ := bind_eq_ok.mp started
  obtain ⟨_, _, started⟩ := bind_eq_ok.mp started
  cases started
  constructor
  case openapi =>
    intro loaded
    rw [← loadOptional_eq_some, documented, Except.ok.injEq]
  case wsPath => rfl
  case channel =>
    intro path channel
    cases asyncapi with
    | none =>
        have absent : ∀ loaded, config.asyncapiSpec ≠ some (.ok loaded) := by
          intro loaded here
          rw [loadOptional_eq_some.mpr here] at described
          cases described
        simp [absent]
    | some asyncapi =>
        change (channelPaths _ _).lookup path = some channel ↔ _
        rw [lookup_channelPaths, ← AList.mem_keys, and_comm]
        have loaded := loadOptional_eq_some.mp described
        constructor
        · exact fun found => ⟨found.1, asyncapi, loaded, found.2⟩
        · rintro ⟨route, other, also, member⟩
          cases loaded.symm.trans also
          exact ⟨route, member⟩
  case checked =>
    intro loaded here
    subst here
    exact checkRoutes_eq_ok.mp checked

namespace Started

variable {config : ServerConfig} {runtime : HttpRuntime}

theorem mem_wsRoutes (started : Started config runtime) {route : String} :
    route ∈ runtime.wsRoutes ↔ route = config.wsPath ∨
      ∃ channel, runtime.wsChannelPaths.lookup route = some channel := by
  unfold HttpRuntime.wsRoutes
  rw [List.mem_cons, started.wsPath, ← AList.mem_keys, ← AList.lookup_isSome,
    Option.isSome_iff_exists]

/-- A path of a route with no parameter is its text, which was checked at the start. -/
theorem unshadowed_of_plain (started : Started config runtime) {route path : String}
    (registered : route ∈ runtime.wsRoutes) (admits : RouteAdmits route path)
    (plain : ¬ HasParameter route) {openapi : OpenApiRuntime}
    (documented : runtime.openapi = some openapi) :
    openapi.matchOperation "GET" path = none := by
  rw [admits.eq_of_plain plain]
  exact started.checked openapi documented route registered

/-- Two paths never have the route of the same channel. -/
theorem eq_of_pinned (started : Started config runtime) {route path channel : String}
    (declared : runtime.wsChannelPaths.lookup route = some channel)
    (pinned : runtime.resolveWsChannel path = some channel) : path = route := by
  obtain ⟨written, _⟩ := (started.channel route channel).mp declared
  obtain ⟨also, _⟩ := (started.channel path channel).mp pinned
  exact also.trans written.symm

theorem keptApart (started : Started config runtime) (apart : config.RoutesApart) :
    KeptApart runtime := by
  have plain : ∀ route channel, runtime.wsChannelPaths.lookup route = some channel →
      ¬ HasParameter route := by
    intro route channel declared
    obtain ⟨rfl, asyncapi, loaded, member⟩ := (started.channel route channel).mp declared
    exact apart.channels asyncapi loaded channel member
  constructor
  case unshadowed =>
    intro route registered path admits openapi documented
    rcases started.mem_wsRoutes.mp registered with rfl | ⟨channel, declared⟩
    · refine OpenApiRuntime.matchOperation_eq_none.mpr fun operation member asked matched => ?_
      refine apart.base openapi ((started.openapi openapi).mp documented) operation member asked ?_
      exact overlaps_iff.mpr ⟨path, admits, matched⟩
    · exact started.unshadowed_of_plain registered admits (plain route channel declared) documented
  case pinned =>
    intro route channel declared path admits
    rw [admits.eq_of_plain (plain route channel declared)]
    exact declared

theorem routesApart (started : Started config runtime) (kept : KeptApart runtime) :
    config.RoutesApart := by
  constructor
  case channels =>
    intro asyncapi loaded channel member parameter
    have declared : runtime.wsChannelPaths.lookup (channelRoute config.wsPath channel) =
        some channel := (started.channel _ _).mpr ⟨rfl, asyncapi, loaded, member⟩
    obtain ⟨path, admits, other⟩ := exists_other_path parameter
    exact other (started.eq_of_pinned declared (kept.pinned _ _ declared path admits))
  case base =>
    intro openapi loaded operation member asked overlap
    obtain ⟨path, admits, matched⟩ := overlaps_iff.mp overlap
    have missed := kept.unshadowed config.wsPath (started.mem_wsRoutes.mpr (.inl rfl)) path admits
      openapi ((started.openapi openapi).mpr loaded)
    exact OpenApiRuntime.matchOperation_eq_none.mp missed operation member asked matched

end Started

/--
After a start without error the routes are kept apart exactly when no route of
a channel has a parameter and the base path overlaps no `GET` operation.
-/
theorem routes_kept_apart_iff {Url : Type} {parseUrl : String → Except String Url}
    {config : ServerConfig} {shared : Option ScenarioRuntime} {runtime : HttpRuntime}
    (started : HttpRuntime.fromConfigWith parseUrl config shared = .ok runtime) :
    KeptApart runtime ↔ config.RoutesApart :=
  ⟨(started_of_fromConfigWith started).routesApart, (started_of_fromConfigWith started).keptApart⟩

/-- A document with `GET` on one path. -/
def documentOf (pathTemplate : String) : OpenApiRuntime :=
  .of [{ method := "GET", pathTemplate, responses := [] }]

def channelNamed (channel : String) : AsyncApiRuntime :=
  ⟨(∅ : FiniteMap String ChannelSpec).insert channel ⟨none, none, none⟩⟩

/-- A mock server at the path `/ws` for a path of the one document and a channel of the other. -/
def serverFor (pathTemplate channel : String) : ServerConfig where
  openapiSpec := some (.ok (documentOf pathTemplate))
  asyncapiSpec := some (.ok (channelNamed channel))
  scenariosSpec := none
  mode := .mock
  upstream := none
  wsPath := "/ws"

/-- The server that starts, if its routes are free. -/
def startedFor (pathTemplate channel : String) : HttpRuntime where
  openapi := some (documentOf pathTemplate)
  wsPath := "/ws"
  wsChannelPaths := channelPaths "/ws" [channel]

theorem fromConfigWith_serverFor {pathTemplate channel : String}
    (free : checkRoutes (documentOf pathTemplate)
      ("/ws" :: (channelPaths "/ws" [channel]).keys) = .ok ()) :
    HttpRuntime.fromConfigWith .ok (serverFor pathTemplate channel) none =
      .ok (startedFor pathTemplate channel) := by
  refine bind_eq_ok.mpr ⟨_, rfl, bind_eq_ok.mpr ⟨_, rfl, bind_eq_ok.mpr ⟨_, rfl, ?_⟩⟩⟩
  exact bind_eq_ok.mpr ⟨(), free, bind_eq_ok.mpr ⟨_, rfl, rfl⟩⟩

theorem routes_kept_apart_iff_users : ∃ runtime : HttpRuntime,
    HttpRuntime.fromConfigWith .ok (serverFor "/users/{id}" "chat.send") none = .ok runtime ∧
      KeptApart runtime := by
  have started := @fromConfigWith_serverFor "/users/{id}" "chat.send" (by decide)
  refine ⟨_, started, (routes_kept_apart_iff started).mpr ?_⟩
  constructor
  case channels =>
    rintro asyncapi loaded channel member ⟨name, declared⟩
    cases loaded
    obtain rfl : channel = "chat.send" := List.mem_singleton.mp (AList.mem_keys.mp member)
    have route : parseSegments (channelRoute "/ws" "chat.send") =
        [.literal "ws", .literal "chat.send"] := by decide
    change SegmentMatcher.param name ∈ parseSegments (channelRoute "/ws" "chat.send") at declared
    rw [route] at declared
    simp at declared
  case base =>
    intro openapi loaded operation member _ overlap
    cases loaded
    have template : operation.pathTemplate = "/users/{id}" := by
      rw [List.mem_singleton.mp member]
    have longer : (parseSegments "/ws").length ≠ (parseSegments "/users/{id}").length := by
      decide
    rw [template] at overlap
    exact longer overlap.length_eq

/--
The channel `rooms/{id}` is registered beside `GET /ws/rooms/lobby`, whose path
is not the text of the route: the route takes the requests to it, and pins no
channel for them.
-/
theorem parameter_channel_shadows :
    ∃ runtime : HttpRuntime,
      HttpRuntime.fromConfigWith .ok (serverFor "/ws/rooms/lobby" "rooms/{id}") none =
        .ok runtime ∧
      runtime.wsChannelPaths.lookup "/ws/rooms/{id}" = some "rooms/{id}" ∧
      RouteAdmits "/ws/rooms/{id}" "/ws/rooms/lobby" ∧
      ((documentOf "/ws/rooms/lobby").matchOperation "GET" "/ws/rooms/lobby").isSome = true ∧
      runtime.resolveWsChannel "/ws/rooms/lobby" = none ∧ ¬ KeptApart runtime := by
  have started := @fromConfigWith_serverFor "/ws/rooms/lobby" "rooms/{id}" (by decide)
  have declared : (startedFor "/ws/rooms/lobby" "rooms/{id}").wsChannelPaths.lookup
      "/ws/rooms/{id}" = some "rooms/{id}" := by decide
  have unpinned : (startedFor "/ws/rooms/lobby" "rooms/{id}").resolveWsChannel
      "/ws/rooms/lobby" = none := by decide
  have admits : RouteAdmits "/ws/rooms/{id}" "/ws/rooms/lobby" := by
    have route : Text.pieces '/' "/ws/rooms/{id}" = ["", "ws", "rooms", "{id}"] := by
      decide
    have path : Text.pieces '/' "/ws/rooms/lobby" = ["", "ws", "rooms", "lobby"] := by
      decide
    have lobby : "lobby" ≠ "" := by decide
    unfold RouteAdmits
    rw [route, path]
    exact .cons rfl (.cons rfl (.cons rfl (.cons lobby .nil)))
  refine ⟨_, started, declared, admits, by decide, unpinned, fun kept => ?_⟩
  cases unpinned.symm.trans (kept.pinned _ _ declared _ admits)

end SpecMock.Runtime
