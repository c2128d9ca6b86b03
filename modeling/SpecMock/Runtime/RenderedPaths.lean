import SpecMock.Runtime.LocationHeaders
import SpecMock.Runtime.Namespaces
import SpecMock.Runtime.RouterScan

/-!
# Rendering what was routed

The router takes a whole segment in braces for a parameter; rendering takes
whatever stands between two braces for a placeholder.  A path template is
rendered back to the paths it matches exactly when the two find the same names
in it, one after the other, and no name twice.
-/

namespace SpecMock.Runtime

open SpecMock.Library SpecMock.Core

/-- The name of a parameter segment. -/
def SegmentMatcher.name? : SegmentMatcher → Option String
  | .literal _ => none
  | .param name => some name

/-- The parameters of a parsed template, in their order. -/
def paramNames (template : List SegmentMatcher) : List String :=
  template.filterMap SegmentMatcher.name?

theorem mem_paramNames {template : List SegmentMatcher} {name : String} :
    name ∈ paramNames template ↔ .param name ∈ template := by
  unfold paramNames
  rw [List.mem_filterMap]
  constructor
  · rintro ⟨matcher, member, named⟩
    cases matcher with
    | literal text => cases named
    | param other => exact Option.some.inj named ▸ member
  · exact fun member => ⟨_, member, rfl⟩

/-- Rendering sees the parameters of the router, in their order, and none of them twice. -/
structure PlaceholdersAgree (template : String) : Prop where
  same : placeholders template = paramNames (parseSegments template)
  distinct : (paramNames (parseSegments template)).Nodup

/--
Whatever the template is routed with, the placeholders are bound and the
rendered path has the segments of the request path.
-/
def RoutesBack (template : String) : Prop :=
  ∀ operations method path found operation,
    matchRoute (buildRouter operations) method path = some found →
    operations[found.operationIndex]? = some operation → operation.pathTemplate = template →
    (∀ name ∈ placeholders template, (found.pathParams.lookup name).isSome = true) ∧
      splitPath (substitutePathParams template found.pathParams) = splitPath path

/-- A segment of a path. -/
def IsSegment (segment : String) : Prop := segment ≠ "" ∧ '/' ∉ segment.toList

theorem isSegment_of_mem_splitPath {path segment : String} (member : segment ∈ splitPath path) :
    IsSegment segment := by
  rw [splitPath_eq_words, Text.words, List.mem_filter] at member
  exact ⟨of_decide_eq_true member.2, Text.separator_not_mem_of_mem_pieces member.1⟩

/-- The segments of a path written with them. -/
theorem splitPath_rooted {segments : List String} (each : ∀ segment ∈ segments, IsSegment segment) :
    splitPath (Text.rooted '/' segments) = segments := by
  rw [splitPath_eq_words, Text.words]
  have kept : segments.filter (fun piece => decide (piece ≠ "")) = segments := by
    rw [List.filter_eq_self]
    exact fun segment member => decide_eq_true (each segment member).1
  by_cases empty : segments = []
  · subst empty
    rfl
  · have cut : Text.pieces '/' (Text.rooted '/' segments) = "" :: segments := by
      have pieces := Text.pieces_joined (fun segment member => (each segment member).2) empty
      rw [Text.pieces, Text.rooted_toList empty, List.splitOn_cons_eq_if_modifyHead]
      simpa [Text.pieces] using pieces
    rw [cut]
    simpa using kept

/-! ## Rendering segment by segment -/

/-- The placeholders are bound to segments of a path, and their names have no slash. -/
structure BindsSegments (template : String) (params : PathParams) : Prop where
  names : ∀ name ∈ placeholders template, '/' ∉ name.toList
  bound : ∀ name ∈ placeholders template, ∃ value, params.lookup name = some value ∧ IsSegment value

theorem mem_placeholders {template : String} {name : List Char} :
    String.ofList name ∈ placeholders template ↔ name ∈ Template.holes (templateTokens template) :=
  List.mem_map_of_injective fun _ _ same => String.ofList_injective same

theorem pieces_tokens {template : String}
    (names : ∀ name ∈ placeholders template, '/' ∉ name.toList) :
    (Text.pieces '/' template).map templateTokens =
      (templateTokens template).splitOn (.text '/') := by
  have undivided : ∀ name ∈ Template.holes (Template.scan template.toList),
      '/' ∉ Template.braced name := by
    intro name member inside
    have apart := names _ (mem_placeholders.mpr member)
    rw [String.toList_ofList] at apart
    simp [Template.braced, apart] at inside
  have cut := Template.splitOn_written undivided
  rw [Text.pieces, List.map_map, templateTokens, ← cut]
  apply List.map_congr_left
  intro part _
  simp [templateTokens]

/-- The placeholders of a template are those of its segments. -/
theorem placeholders_eq_flatMap {template : String}
    (names : ∀ name ∈ placeholders template, '/' ∉ name.toList) :
    placeholders template = (splitPath template).flatMap placeholders := by
  have pieces : placeholders template = (Text.pieces '/' template).flatMap placeholders := by
    have holes := Template.holes_splitOn '/' (templateTokens template)
    rw [← pieces_tokens names, List.flatMap_map] at holes
    rw [placeholders, ← holes, List.map_flatMap]
    rfl
  rw [pieces, splitPath_eq_words, Text.words]
  induction Text.pieces '/' template with
  | nil => rfl
  | cons piece rest ih =>
      rw [List.flatMap_cons, List.filter_cons, ih]
      by_cases empty : piece = ""
      · subst empty
        rfl
      · simp [empty]

theorem BindsSegments.bindsAll {template : String} {params : PathParams}
    (binds : BindsSegments template params) : BindsAll template params := by
  intro name member
  obtain ⟨value, bound, segment⟩ := binds.bound name member
  exact ⟨value, bound, segment.2⟩

/-- What is rendered from a segment is empty only if the segment is. -/
theorem bindNamespace_eq_empty {segment : String} {params : PathParams}
    (bound : ∀ name ∈ placeholders segment, ∃ value, params.lookup name = some value ∧
      IsSegment value) :
    bindNamespace segment params = "" ↔ segment = "" := by
  constructor
  · intro empty
    have filled := bindNamespace_toList segment params
    rw [empty] at filled
    have written := Template.written_scan segment.toList
    cases read : templateTokens segment with
    | nil =>
        rw [← templateTokens, read] at written
        exact String.toList_eq_nil_iff.mp written.symm
    | cons token rest =>
        rw [read] at filled
        cases token with
        | text char => cases filled
        | hole name =>
            have member : String.ofList name ∈ placeholders segment :=
              mem_placeholders.mpr (by rw [read]; exact List.mem_cons_self)
            obtain ⟨value, found, whole, _⟩ := bound _ member
            rw [Template.fill_hole, boundText_of_lookup found] at filled
            have none := List.append_eq_nil_iff.mp filled.symm
            exact absurd (String.toList_eq_nil_iff.mp none.1) whole
  · rintro rfl
    rfl

/-- A rendered template has the rendered segments. -/
theorem splitPath_bindNamespace {template : String} {params : PathParams}
    (binds : BindsSegments template params) :
    splitPath (bindNamespace template params) =
      (splitPath template).map fun segment => bindNamespace segment params := by
  have pieces : Text.pieces '/' (bindNamespace template params) =
      (Text.pieces '/' template).map fun segment => bindNamespace segment params := by
    rw [Text.pieces, splitOn_bindNamespace binds.bindsAll, ← pieces_tokens binds.names,
      List.map_map, List.map_map]
    apply List.map_congr_left
    intro segment _
    apply String.toList_injective
    rw [bindNamespace_toList]
    exact String.toList_ofList
  have inside : ∀ segment ∈ Text.pieces '/' template, ∀ name ∈ placeholders segment,
      name ∈ placeholders template := by
    intro segment member name held
    rw [placeholders_eq_flatMap binds.names, splitPath_eq_words, Text.words]
    refine List.mem_flatMap.mpr ⟨segment, List.mem_filter.mpr ⟨member, decide_eq_true ?_⟩, held⟩
    rintro rfl
    cases held
  rw [splitPath_eq_words, splitPath_eq_words, Text.words, Text.words, pieces, List.filter_map]
  apply congrArg
  apply List.filter_congr
  intro segment member
  refine decide_eq_decide.mpr (not_congr (bindNamespace_eq_empty ?_))
  exact fun name held => binds.bound name (inside segment member name held)

/-! ## One segment -/

theorem bindNamespace_of_no_placeholder {segment : String} (params : PathParams)
    (plain : placeholders segment = []) : bindNamespace segment params = segment := by
  apply String.toList_injective
  have none : Template.holes (templateTokens segment) = [] := by
    simpa [placeholders] using plain
  rw [bindNamespace_toList, Template.fill_of_no_holes _ none]
  exact Template.written_scan segment.toList

/-- A parameter without a closing brace in its name is the only placeholder of its segment. -/
theorem templateTokens_param {segment name : String} (parsed : parseSegment segment = .param name)
    (undivided : '}' ∉ name.toList) : templateTokens segment = [.hole name.toList] := by
  obtain ⟨_, rfl⟩ := parseSegment_eq_param.mp parsed
  have written : (placeholder name).toList = Template.braced name.toList ++ [] := by
    simp [placeholder, String.toList_append, Template.braced]
  rw [templateTokens, written, Template.scan_hole undivided]
  rfl

theorem placeholders_param {segment name : String} (parsed : parseSegment segment = .param name)
    (undivided : '}' ∉ name.toList) : placeholders segment = [name] := by
  rw [placeholders, templateTokens_param parsed undivided]
  simp

theorem bindNamespace_param {segment name value : String} {params : PathParams}
    (parsed : parseSegment segment = .param name) (undivided : '}' ∉ name.toList)
    (bound : params.lookup name = some value) : bindNamespace segment params = value := by
  apply String.toList_injective
  rw [bindNamespace_toList, templateTokens_param parsed undivided, Template.fill_hole,
    Template.fill_nil, List.append_nil]
  exact boundText_of_lookup (by rwa [String.ofList_toList])

/-- No placeholder has a closing brace in its name. -/
theorem closing_not_mem_placeholder {template name : String}
    (member : name ∈ placeholders template) : '}' ∉ name.toList := by
  obtain ⟨chars, held, rfl⟩ := List.mem_map.mp member
  rw [String.toList_ofList]
  exact (Template.canonical_scan _).undivided chars (Template.mem_holes.mp held)

/-! ## Agreement segment by segment -/

theorem paramNames_parseSegments (template : String) :
    paramNames (parseSegments template) =
      (splitPath template).flatMap fun segment => (parseSegment segment).name?.toList := by
  rw [paramNames, parseSegments, List.filterMap_map, List.filterMap_eq_flatMap_toList]
  rfl

/-- Lists of parts are equal part by part where the parts on one side are equal or empty. -/
theorem flatMap_inj_of_parts {α β : Type} {left right : α → List β} {items : List α}
    (parts : ∀ item ∈ items, left item = right item ∨ right item = [])
    (same : items.flatMap left = items.flatMap right) :
    ∀ item ∈ items, left item = right item := by
  have shorter : ∀ rest : List α, (∀ item ∈ rest, left item = right item ∨ right item = []) →
      (rest.flatMap right).length ≤ (rest.flatMap left).length := by
    intro rest parts
    induction rest with
    | nil => exact Nat.le_refl 0
    | cons item others ih =>
        obtain ⟨here, later⟩ := List.forall_mem_cons.mp parts
        have below := ih later
        simp only [List.flatMap_cons, List.length_append]
        rcases here with equal | empty
        · rw [equal]
          omega
        · rw [empty, List.length_nil]
          omega
  induction items with
  | nil => exact fun item member => nomatch member
  | cons item rest ih =>
      obtain ⟨here, later⟩ := List.forall_mem_cons.mp parts
      rw [List.flatMap_cons, List.flatMap_cons] at same
      have equal : left item = right item := by
        rcases here with equal | empty
        · exact equal
        · have lengths := congrArg List.length same
          have below := shorter rest later
          rw [empty, List.nil_append, List.length_append] at lengths
          rw [empty]
          exact List.length_eq_zero_iff.mp (by omega)
      rw [equal] at same
      exact List.forall_mem_cons.mpr ⟨equal, ih later (List.append_cancel_left same)⟩

theorem slash_not_mem_paramNames {template name : String}
    (member : name ∈ paramNames (parseSegments template)) : '/' ∉ name.toList := by
  obtain ⟨segment, inside, parsed⟩ := List.mem_map.mp (mem_paramNames.mp member)
  obtain ⟨_, rfl⟩ := parseSegment_eq_param.mp parsed
  have apart := (isSegment_of_mem_splitPath inside).2
  intro slash
  exact apart (by simp [placeholder, String.toList_append, slash])

/-- Both readings find the same names in every single segment. -/
theorem PlaceholdersAgree.segment {template : String} (agree : PlaceholdersAgree template) :
    ∀ segment ∈ splitPath template,
      placeholders segment = (parseSegment segment).name?.toList := by
  have names : ∀ name ∈ placeholders template, '/' ∉ name.toList :=
    fun name member => slash_not_mem_paramNames (agree.same ▸ member)
  refine flatMap_inj_of_parts (fun segment inside => ?_) ?_
  · cases parsed : parseSegment segment with
    | literal text => exact .inr rfl
    | param name =>
        have declared : name ∈ paramNames (parseSegments template) :=
          mem_paramNames.mpr (List.mem_map.mpr ⟨segment, inside, parsed⟩)
        rw [← agree.same] at declared
        exact .inl (placeholders_param parsed (closing_not_mem_placeholder declared))
  · rw [← placeholders_eq_flatMap names, agree.same, paramNames_parseSegments]

/-! ## Routing back -/

/-- With distinct names every parameter is bound to the segment it stands for. -/
theorem forall₂_bindSegments {template : List SegmentMatcher} {segments : List String}
    (distinct : (paramNames template).Nodup) (matched : Matches template segments)
    (params : PathParams) :
    List.Forall₂ (fun matcher segment => matcher = .literal segment ∨
      ∃ name, matcher = .param name ∧
        (bindSegments template segments params).lookup name = some segment)
      template segments := by
  induction matched generalizing params with
  | nil => exact .nil
  | @cons matcher segment template segments admitted others ih =>
      cases matcher with
      | literal text =>
          have same : text = segment := by simpa [SegmentMatcher.admits] using admitted
          exact .cons (.inl (same ▸ rfl)) (ih distinct params)
      | param name =>
          obtain ⟨fresh, rest⟩ := List.nodup_cons.mp distinct
          refine .cons (.inr ⟨name, rfl, ?_⟩) (ih rest (params.insert name segment))
          rw [bindSegments, lookup_bindSegments others.length_eq]
          refine .inr ⟨fun member => fresh (mem_paramNames.mpr member), ?_⟩
          exact AList.lookup_insert params

/-- A bound parameter is bound to a segment of the path. -/
theorem lookup_of_declared {template : List SegmentMatcher} {segments : List String}
    (matched : Matches template segments) (params : PathParams) {name : String}
    (declared : .param name ∈ template) :
    ∃ segment ∈ segments, (bindSegments template segments params).lookup name = some segment := by
  induction matched generalizing params with
  | nil => cases declared
  | @cons matcher segment template segments admitted others ih =>
      by_cases later : .param name ∈ template
      · cases matcher with
        | literal text =>
            obtain ⟨value, inside, bound⟩ := ih params later
            exact ⟨value, List.mem_cons_of_mem _ inside, bound⟩
        | param other =>
            obtain ⟨value, inside, bound⟩ := ih (params.insert other segment) later
            exact ⟨value, List.mem_cons_of_mem _ inside, bound⟩
      · obtain rfl : .param name = matcher := (List.mem_cons.mp declared).resolve_right later
        refine ⟨segment, List.mem_cons_self, ?_⟩
        rw [bindSegments, lookup_bindSegments others.length_eq]
        exact .inr ⟨later, AList.lookup_insert params⟩

theorem PlaceholdersAgree.routesBack {template : String} (agree : PlaceholdersAgree template) :
    RoutesBack template := by
  rintro operations method path found operation routed declared rfl
  obtain ⟨served, serves, bound⟩ := serves_of_matchRoute routed
  cases serves.declared.symm.trans declared
  have binds : BindsSegments operation.pathTemplate found.pathParams := by
    refine ⟨fun name member => slash_not_mem_paramNames (agree.same ▸ member), ?_⟩
    intro name member
    rw [agree.same] at member
    obtain ⟨value, inside, held⟩ := lookup_of_declared serves.matched ∅ (mem_paramNames.mp member)
    exact ⟨value, bound ▸ held, isSegment_of_mem_splitPath inside⟩
  refine ⟨fun name member => ?_, ?_⟩
  · obtain ⟨value, held, _⟩ := binds.bound name member
    simp [held]
  · rw [substitutePathParams_eq, splitPath_bindNamespace binds]
    have filled := forall₂_bindSegments agree.distinct serves.matched ∅
    rw [← bound, parseSegments, List.forall₂_map_left_iff] at filled
    have each := (List.forall₂_and_left _ _).mpr ⟨agree.segment, filled⟩
    rw [← List.forall₂_eq_eq_eq, List.forall₂_map_left_iff]
    refine each.imp fun segment reached both => ?_
    obtain ⟨found, literal | ⟨name, parsed, held⟩⟩ := both
    · rw [literal] at found
      rw [parseSegment_literal literal]
      exact bindNamespace_of_no_placeholder _ found
    · have only : placeholders segment = [name] := by rw [found, parsed]; rfl
      have undivided := closing_not_mem_placeholder (only ▸ List.mem_singleton_self name)
      exact bindNamespace_param parsed undivided held

/-! ## What routing back requires -/

/-- The only operation of a document serves every path that its template matches. -/
theorem serves_alone {operation : OperationSpec} {path : String}
    (matched : Matches (parseSegments operation.pathTemplate) (splitPath path)) :
    Serves [operation] operation.method path 0 operation := by
  refine ⟨rfl, rfl, matched, ?_⟩
  intro position other declared _ _
  cases position with
  | zero =>
      cases declared
      exact .inl ⟨rfl, Nat.le_refl 0⟩
  | succ position => cases declared

/-- Routing back, for the only operation of a document and any segments that match it. -/
theorem RoutesBack.segments {template : String} (back : RoutesBack template)
    {segments : List String} (matched : Matches (parseSegments template) segments)
    (each : ∀ segment ∈ segments, IsSegment segment) :
    (∀ name ∈ placeholders template,
      ((bindSegments (parseSegments template) segments ∅).lookup name).isSome = true) ∧
      splitPath (bindNamespace template (bindSegments (parseSegments template) segments ∅)) =
        segments := by
  have split := splitPath_rooted each
  have serves : Serves [⟨"GET", template, []⟩] "GET" (Text.rooted '/' segments) 0
      ⟨"GET", template, []⟩ := serves_alone (by rw [split]; exact matched)
  have routed := matchRoute_of_serves serves
  have held := back _ _ _ _ _ routed serves.declared rfl
  simp only [substitutePathParams_eq, split] at held
  exact held

theorem declared_of_lookup {template : List SegmentMatcher} {segments : List String}
    {name : String} (matched : Matches template segments)
    (bound : ((bindSegments template segments ∅).lookup name).isSome = true) :
    .param name ∈ template := by
  obtain ⟨value, held⟩ := Option.isSome_iff_exists.mp bound
  rcases (lookup_bindSegments matched.length_eq ∅ name value).mp held with
    ⟨position, located, _⟩ | ⟨_, absent⟩
  · exact List.mem_of_getElem? located
  · cases absent

section Values

variable {template : String} (values : String → SegmentText)

theorem isSegment_fillSegment {segment : String} (whole : IsSegment segment) :
    IsSegment (fillSegment values segment) :=
  ⟨(fillSegment_ne_empty values segment).mpr whole.1, slash_not_mem_fillSegment values whole.2⟩

/-- With a value for every name, every segment is rendered with the values in place. -/
theorem RoutesBack.fill (back : RoutesBack template) :
    let params := bindSegments (parseSegments template)
      ((splitPath template).map (fillSegment values)) ∅
    (∀ name ∈ placeholders template, .param name ∈ parseSegments template ∧
      params.lookup name = some (values name).text) ∧
    ∀ segment ∈ splitPath template, bindNamespace segment params = fillSegment values segment := by
  intro params
  have matched := matches_renderPath values template
  rw [splitPath_renderPath] at matched
  have each : ∀ segment ∈ (splitPath template).map (fillSegment values), IsSegment segment := by
    rw [List.forall_mem_map]
    exact fun segment member => isSegment_fillSegment values (isSegment_of_mem_splitPath member)
  obtain ⟨bound, rendered⟩ := back.segments matched each
  have known : ∀ name ∈ placeholders template, .param name ∈ parseSegments template ∧
      params.lookup name = some (values name).text := by
    intro name member
    have declared := declared_of_lookup matched (bound name member)
    refine ⟨declared, ?_⟩
    exact (lookup_bindSegments_fill values (splitPath template) ∅ name).trans (if_pos declared)
  refine ⟨known, ?_⟩
  have binds : BindsSegments template params := by
    refine ⟨fun name member => ?_, fun name member => ?_⟩
    · exact slash_not_mem_paramNames (mem_paramNames.mpr (known name member).1)
    · exact ⟨_, (known name member).2, (values name).nonempty, (values name).undivided⟩
  have mapped : (splitPath template).map (fun segment => bindNamespace segment params) =
      (splitPath template).map (fillSegment values) :=
    (splitPath_bindNamespace binds).symm.trans rendered
  exact List.map_inj_left.mp mapped

end Values

/-- A segment made of one character over and over. -/
def repeated (char : Char) (slash : char ≠ '/') (count : Nat) : SegmentText where
  text := String.ofList (List.replicate (count + 1) char)
  nonempty := by simp
  undivided := by simpa using Ne.symm slash

/-- Where the router has literal text there is no placeholder: its value would be too long. -/
theorem RoutesBack.literal {template segment text : String} (back : RoutesBack template)
    (inside : segment ∈ splitPath template) (parsed : parseSegment segment = .literal text) :
    placeholders segment = [] := by
  let values : String → SegmentText := fun _ => repeated 'x' (by decide) segment.toList.length
  obtain ⟨known, rendered⟩ := back.fill values
  have written := rendered segment inside
  rw [fillSegment, parsed] at written
  rw [List.eq_nil_iff_forall_not_mem]
  intro name member
  obtain ⟨chars, held, rfl⟩ := List.mem_map.mp member
  have whole : String.ofList chars ∈ placeholders template := by
    rw [placeholders_eq_flatMap fun name member =>
      slash_not_mem_paramNames (mem_paramNames.mpr (known name member).1)]
    exact List.mem_flatMap.mpr ⟨segment, inside, member⟩
  have atLeast : ∀ params : PathParams,
      (boundText params chars).length ≤ (bindNamespace segment params).toList.length := by
    intro params
    rw [bindNamespace_toList]
    exact Template.length_le_fill held
  have long := atLeast (bindSegments (parseSegments template)
    ((splitPath template).map (fillSegment values)) ∅)
  rw [boundText_of_lookup (known _ whole).2, written] at long
  simp [values, repeated] at long

/-- No name of a parameter has a closing brace: its segment could not be rendered back. -/
theorem RoutesBack.closing_not_mem {template segment name : String} (back : RoutesBack template)
    (inside : segment ∈ splitPath template) (parsed : parseSegment segment = .param name) :
    '}' ∉ name.toList := by
  intro closing
  let first : String → SegmentText := fun _ => repeated 'x' (by decide) 0
  let second : String → SegmentText := fun other =>
    if other = name then repeated 'y' (by decide) 0 else repeated 'x' (by decide) 0
  obtain ⟨known, rendered⟩ := back.fill first
  obtain ⟨alsoKnown, alsoRendered⟩ := back.fill second
  have written := rendered segment inside
  have alsoWritten := alsoRendered segment inside
  rw [fillSegment, parsed] at written alsoWritten
  have names : ∀ name ∈ placeholders template, '/' ∉ name.toList := fun name member =>
    slash_not_mem_paramNames (mem_paramNames.mpr (known name member).1)
  have alike : ∀ chars ∈ Template.holes (templateTokens segment),
      boundText (bindSegments (parseSegments template)
        ((splitPath template).map (fillSegment first)) ∅) chars =
      boundText (bindSegments (parseSegments template)
        ((splitPath template).map (fillSegment second)) ∅) chars := by
    intro chars held
    have whole : String.ofList chars ∈ placeholders template := by
      rw [placeholders_eq_flatMap names]
      exact List.mem_flatMap.mpr ⟨segment, inside, mem_placeholders.mpr held⟩
    have other : String.ofList chars ≠ name := fun same =>
      closing_not_mem_placeholder whole (same ▸ closing)
    rw [boundText_of_lookup (known _ whole).2, boundText_of_lookup (alsoKnown _ whole).2]
    simp [first, second, other]
  have same := Template.fill_congr alike
  rw [← bindNamespace_toList, ← bindNamespace_toList, written, alsoWritten] at same
  simp [first, second, repeated] at same

/-- The values of a template with the same segment for every parameter. -/
def constantSegments (value : String) (template : List SegmentMatcher) : List String :=
  template.map fun matcher =>
    match matcher with
    | .literal text => text
    | .param _ => value

/-- If every parameter is bound to the segment it stands for, no name comes up twice. -/
theorem nodup_of_bindSegments {template : List SegmentMatcher}
    (texts : ∀ text, .literal text ∈ template → IsSegment text) (params : PathParams)
    (bound : ∀ segments, Matches template segments →
      (∀ segment ∈ segments, IsSegment segment) →
      List.Forall₂ (fun matcher segment => ∀ name, matcher = .param name →
        (bindSegments template segments params).lookup name = some segment) template segments) :
    (paramNames template).Nodup := by
  have letters : IsSegment "x" ∧ IsSegment "y" := by
    unfold IsSegment
    decide
  induction template generalizing params with
  | nil => exact List.nodup_nil
  | cons matcher rest ih =>
      have later : ∀ text, .literal text ∈ rest → IsSegment text :=
        fun text member => texts text (List.mem_cons_of_mem _ member)
      cases matcher with
      | literal text =>
          refine ih later params fun segments matched each => ?_
          have whole := bound (text :: segments)
            (matches_cons.mpr ⟨by simp [SegmentMatcher.admits], matched⟩)
            (List.forall_mem_cons.mpr ⟨texts text List.mem_cons_self, each⟩)
          exact (List.forall₂_cons.mp whole).2
      | param name =>
          refine List.nodup_cons.mpr ⟨fun again => ?_, ?_⟩
          · -- The last segment of the name is another one than the first.
            have matched : Matches rest (constantSegments "x" rest) := by
              unfold Matches constantSegments
              rw [List.forall₂_map_right_iff, List.forall₂_same]
              intro matcher _
              cases matcher <;> simp [SegmentMatcher.admits]
            have each : ∀ segment ∈ constantSegments "x" rest, IsSegment segment := by
              unfold constantSegments
              rw [List.forall_mem_map]
              intro matcher member
              cases matcher with
              | literal text => exact later text member
              | param other => exact letters.1
            have whole := bound ("y" :: constantSegments "x" rest)
              (matches_cons.mpr ⟨rfl, matched⟩) (List.forall_mem_cons.mpr ⟨letters.2, each⟩)
            have first := (List.forall₂_cons.mp whole).1 name rfl
            rw [bindSegments, lookup_bindSegments matched.length_eq] at first
            rcases first with ⟨position, located, held, _⟩ | ⟨absent, _⟩
            · simp [constantSegments, located] at held
            · exact absent (mem_paramNames.mp again)
          · refine ih later (params.insert name "x") fun segments matched each => ?_
            have whole := bound ("x" :: segments) (matches_cons.mpr ⟨rfl, matched⟩)
              (List.forall_mem_cons.mpr ⟨letters.1, each⟩)
            exact (List.forall₂_cons.mp whole).2

theorem RoutesBack.placeholdersAgree {template : String} (back : RoutesBack template) :
    PlaceholdersAgree template := by
  have segment : ∀ segment ∈ splitPath template,
      placeholders segment = (parseSegment segment).name?.toList := by
    intro segment inside
    cases parsed : parseSegment segment with
    | literal text => exact back.literal inside parsed
    | param name => exact placeholders_param parsed (back.closing_not_mem inside parsed)
  have names : ∀ name ∈ placeholders template, '/' ∉ name.toList := by
    intro name member
    obtain ⟨known, _⟩ := back.fill fun _ => repeated 'x' (by decide) 0
    exact slash_not_mem_paramNames (mem_paramNames.mpr (known name member).1)
  have same : placeholders template = paramNames (parseSegments template) := by
    rw [placeholders_eq_flatMap names, paramNames_parseSegments]
    exact List.flatMap_congr segment
  refine ⟨same, nodup_of_bindSegments ?_ ∅ ?_⟩
  · intro text member
    obtain ⟨whole, inside, parsed⟩ := List.mem_map.mp member
    rw [parseSegment_literal parsed]
    exact isSegment_of_mem_splitPath inside
  · intro segments matched each
    obtain ⟨bound, rendered⟩ := back.segments matched each
    have binds : BindsSegments template (bindSegments (parseSegments template) segments ∅) := by
      refine ⟨names, fun name member => ?_⟩
      rw [same] at member
      obtain ⟨value, reached, held⟩ := lookup_of_declared matched ∅ (mem_paramNames.mp member)
      exact ⟨value, held, each value reached⟩
    rw [splitPath_bindNamespace binds, ← List.forall₂_eq_eq_eq,
      List.forall₂_map_left_iff] at rendered
    rw [parseSegments, List.forall₂_map_left_iff]
    have inside : ∀ whole ∈ splitPath template, whole ∈ splitPath template ∧
        placeholders whole = (parseSegment whole).name?.toList :=
      fun whole member => ⟨member, segment whole member⟩
    refine ((List.forall₂_and_left _ _).mpr ⟨inside, rendered⟩).imp
      fun whole reached all name parsed => ?_
    obtain ⟨⟨member, found⟩, filled⟩ := all
    have only : placeholders whole = [name] := by rw [found, parsed]; rfl
    have undivided := closing_not_mem_placeholder (only ▸ List.mem_singleton_self name)
    have declared : name ∈ placeholders template := by
      rw [same]
      exact mem_paramNames.mpr (List.mem_map.mpr ⟨whole, member, parsed⟩)
    obtain ⟨value, held, _⟩ := binds.bound name declared
    rw [bindNamespace_param parsed undivided held] at filled
    exact held.trans (congrArg some filled)

/--
A path template is rendered back to every path it is routed with, all its
placeholders bound, if and only if the placeholders are the parameters of the
router, in their order and without a name that comes up twice.
-/
theorem routesBack_iff (template : String) :
    RoutesBack template ↔ PlaceholdersAgree template :=
  ⟨fun back => back.placeholdersAgree, fun agree => agree.routesBack⟩

/-- A template with two placeholders in one segment, which the router takes for one. -/
def filesOperation : OperationSpec := ⟨"GET", "/files/{name}.{ext}", []⟩

theorem files_not_routed_back : ¬ RoutesBack "/files/{name}.{ext}" := by
  intro back
  have answers : (matchRoute (buildRouter [filesOperation]) "GET" "/files/report.pdf").any
      (fun found => decide (found.operationIndex = 0 ∧
        found.pathParams.lookup "name" = none)) = true := by decide
  obtain ⟨found, routed, meets⟩ := (Option.any_eq_true _ _).mp answers
  obtain ⟨index, unbound⟩ := of_decide_eq_true meets
  have declared : [filesOperation][found.operationIndex]? = some filesOperation := by
    rw [index]
    rfl
  have named : "name" ∈ placeholders "/files/{name}.{ext}" := by decide
  have bound := (back _ _ _ found filesOperation routed declared rfl).1 "name" named
  rw [unbound] at bound
  cases bound

end SpecMock.Runtime
