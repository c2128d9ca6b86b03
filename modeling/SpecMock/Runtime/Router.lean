import SpecMock.Library.Trie
import SpecMock.Runtime.MockResponse

/-!
# The path router

The operations of the document are filed in a trie under the segments of their
path templates.  A request walks the trie along the segments of its path,
literal edges before parameter edges, and reaches the operation that takes
precedence among those whose template matches.
-/

namespace SpecMock.Runtime

open SpecMock.Library SpecMock.Core

/-- A single segment of a path template. -/
inductive SegmentMatcher where
  | literal (text : String)
  | param (name : String)
  deriving DecidableEq

/-- A node of the trie; its items are operations, by method and index. -/
abbrev RouteNode := Trie SegmentMatcher (String × Nat)

structure RouteMatch where
  operationIndex : Nat
  pathParams : PathParams

/-! ## Segments -/

/-- Split a concrete request path into segments. -/
def splitPath (path : String) : List String :=
  (Text.pieces '/' (Text.trimEnds (fun char => char == '/') path)).filter
    fun segment => decide (segment ≠ "")

def parseSegment (segment : String) : SegmentMatcher :=
  match segment.toList with
  | '{' :: rest =>
      match rest.reverse with
      | '}' :: last :: inner => .param (String.ofList (last :: inner).reverse)
      | _ => .literal segment
  | _ => .literal segment

/-- Parse a path template into segment matchers. -/
def parseSegments (template : String) : List SegmentMatcher :=
  (splitPath template).map parseSegment

/-! ## The router -/

/-- Walk the trie to a node that declares an operation for `method`, binding parameters. -/
def walk (method : String) : List String → RouteNode → PathParams →
    Option (RouteNode × PathParams)
  | [], node, params =>
      if node.items.any fun item => item.1 == method then some (node, params) else none
  | head :: tail, node, params =>
      -- Literal edges come before parameter edges.
      (node.edges.findSome? fun edge =>
        match edge.1 with
        | .literal text => if text = head then walk method tail edge.2 params else none
        | .param _ => none).or
      (node.edges.findSome? fun edge =>
        match edge.1 with
        | .literal _ => none
        | .param name => walk method tail edge.2 (params.insert name head))

/-- The routes of a list of operations, in declaration order. -/
def routesOf (operations : List OperationSpec) : List (List SegmentMatcher × (String × Nat)) :=
  operations.zipIdx.map fun entry =>
    (parseSegments entry.1.pathTemplate, (entry.1.method, entry.2))

def buildRouter (operations : List OperationSpec) : RouteNode :=
  Trie.build (routesOf operations)

/-- Match a method and a path against the trie. -/
def matchRoute (router : RouteNode) (method path : String) : Option RouteMatch :=
  match walk method (splitPath path) router ∅ with
  | none => none
  | some (node, params) =>
      (node.items.find? fun item => item.1 == method).map fun item => ⟨item.2, params⟩

/-! ## Matching, one template at a time -/

def SegmentMatcher.admits : SegmentMatcher → String → Bool
  | .literal text, segment => text == segment
  | .param _, _ => true

/-- A template matches a path segment by segment. -/
def Matches (template : List SegmentMatcher) (segments : List String) : Prop :=
  List.Forall₂ (fun matcher segment => matcher.admits segment = true) template segments

/-- The parameters of a template, bound to the segments of a path. -/
def bindSegments : List SegmentMatcher → List String → PathParams → PathParams
  | .param name :: template, segment :: segments, params =>
      bindSegments template segments (params.insert name segment)
  | .literal _ :: template, _ :: segments, params => bindSegments template segments params
  | _, _, params => params

/--
Of two templates that match one path, the left one is preferred: where they
part, it has a literal segment and the other a parameter, or both have a
parameter and that of the left one came up first.
-/
def precedes {β : Type} : List (List SegmentMatcher × β) → List SegmentMatcher →
    List SegmentMatcher → Bool
  | routes, left :: lefts, right :: rights =>
      if left = right then precedes (Trie.under left routes) lefts rights
      else
        match left, right with
        | .literal _, .param _ => true
        | .param _, .literal _ => false
        | _, _ => decide ((Trie.heads routes).idxOf left < (Trie.heads routes).idxOf right)
  | _, _, _ => false

theorem precedes_irrefl {β : Type} (routes : List (List SegmentMatcher × β))
    (template : List SegmentMatcher) : precedes routes template template = false := by
  induction template generalizing routes with
  | nil => rfl
  | cons first rest ih => simp [precedes, ih]

theorem precedes_asymm {β : Type} {routes : List (List SegmentMatcher × β)}
    {left right : List SegmentMatcher} (before : precedes routes left right = true) :
    precedes routes right left = false := by
  induction left generalizing routes right with
  | nil => cases right <;> rfl
  | cons first rest ih =>
      cases right with
      | nil => rfl
      | cons other others =>
          by_cases same : first = other
          · subst same
            simp only [precedes, if_true] at before ⊢
            exact ih before
          · have differs : ¬ other = first := fun equal => same equal.symm
            simp only [precedes, same, differs, if_false] at before ⊢
            cases first <;> cases other <;> simp_all <;> omega

theorem matches_cons {matcher : SegmentMatcher} {template : List SegmentMatcher}
    {head : String} {tail : List String} :
    Matches (matcher :: template) (head :: tail) ↔
      matcher.admits head = true ∧ Matches template tail :=
  List.forall₂_cons

/-- A path with a first segment is only matched by templates with a first matcher. -/
theorem Matches.cases_cons {template : List SegmentMatcher} {head : String} {tail : List String}
    (matched : Matches template (head :: tail)) :
    ∃ matcher rest, template = matcher :: rest ∧ Matches rest tail ∧
      (matcher = .literal head ∨ ∃ name, matcher = .param name) := by
  cases matched with
  | @cons matcher _ rest _ admitted others =>
      refine ⟨matcher, rest, rfl, others, ?_⟩
      cases matcher with
      | literal text => exact .inl (by simpa [SegmentMatcher.admits] using admitted)
      | param name => exact .inr ⟨name, rfl⟩

/-! ## What a walk finds -/

/-- The walk has reached the node of the preferred template for the method. -/
structure Reached (routes : List (List SegmentMatcher × (String × Nat))) (method : String)
    (segments : List String) (params : PathParams) (result : RouteNode × PathParams)
    (template : List SegmentMatcher) : Prop where
  matched : Matches template segments
  items : result.1.items = Trie.itemsAt template routes
  bound : result.2 = bindSegments template segments params
  served : ∃ item ∈ result.1.items, item.1 = method
  preferred : ∀ other item, (other, item) ∈ routes → item.1 = method →
    Matches other segments → other = template ∨ precedes routes template other = true

/-- No route of the method matches. -/
def Unmatched (routes : List (List SegmentMatcher × (String × Nat))) (method : String)
    (segments : List String) : Prop :=
  ∀ template item, (template, item) ∈ routes → item.1 = method → ¬ Matches template segments

/-- A key in front of another one in a list of distinct keys. -/
theorem idxOf_lt_of_split {κ : Type} [DecidableEq κ] {before after : List κ} {first other : κ}
    (distinct : (before ++ first :: after).Nodup) (later : other ∈ after) :
    (before ++ first :: after).idxOf first < (before ++ first :: after).idxOf other := by
  obtain ⟨_, distinctRest, apart⟩ := List.nodup_append.mp distinct
  have absent : first ∉ before := fun member =>
    apart first member first List.mem_cons_self rfl
  have otherAbsent : other ∉ before := fun member =>
    apart other member other (List.mem_cons_of_mem _ later) rfl
  have differs : first ≠ other := fun equal =>
    (List.nodup_cons.mp distinctRest).1 (equal ▸ later)
  rw [List.idxOf_append_of_notMem absent, List.idxOf_append_of_notMem otherAbsent,
    List.idxOf_cons_self, List.idxOf_cons_ne _ differs]
  omega

section Walk

variable {routes : List (List SegmentMatcher × (String × Nat))} {method head : String}
  {tail : List String} {params : PathParams}

/-- A walk that ends behind a key reaches the template that goes on with the key. -/
theorem Reached.behind {key : SegmentMatcher} {result : RouteNode × PathParams}
    {template : List SegmentMatcher} {entered : PathParams}
    (reached : Reached (Trie.under key routes) method tail entered result template)
    (admitted : key.admits head = true)
    (bound : bindSegments (key :: template) (head :: tail) params =
      bindSegments template tail entered)
    (others : ∀ matcher rest item, (matcher :: rest, item) ∈ routes → item.1 = method →
      matcher ≠ key → matcher = .literal head ∨ (∃ name, matcher = .param name) →
      Matches rest tail → precedes routes (key :: template) (matcher :: rest) = true) :
    Reached routes method (head :: tail) params result (key :: template) where
  matched := matches_cons.mpr ⟨admitted, reached.matched⟩
  items := reached.items.trans (Trie.itemsAt_under key template routes)
  bound := reached.bound.trans bound.symm
  served := reached.served
  preferred := by
    intro other item member asked matched
    obtain ⟨matcher, rest, rfl, matchedRest, kind⟩ := matched.cases_cons
    by_cases same : matcher = key
    · subst same
      rcases reached.preferred rest item (Trie.mem_under.mpr member) asked matchedRest with
        rfl | before
      · exact .inl rfl
      · exact .inr (by simpa [precedes] using before)
    · exact .inr (others matcher rest item member asked same kind matchedRest)

theorem walk_empty (method : String) (segments : List String) (params : PathParams) :
    walk method segments Trie.empty params = none := by
  cases segments <;> rfl

/-- The walk behind a parameter edge. -/
def walkParam (method head : String) (tail : List String)
    (routes : List (List SegmentMatcher × (String × Nat))) (params : PathParams) :
    SegmentMatcher → Option (RouteNode × PathParams)
  | .literal _ => none
  | .param name =>
      walk method tail (Trie.build (Trie.under (.param name) routes)) (params.insert name head)

/-- A step of the walk: behind the literal edge of the segment, else behind a parameter edge. -/
theorem walk_cons (method head : String) (tail : List String)
    (routes : List (List SegmentMatcher × (String × Nat))) (params : PathParams) :
    walk method (head :: tail) (Trie.build routes) params =
      (walk method tail (Trie.build (Trie.under (.literal head) routes)) params).or
        ((Trie.heads routes).findSome? (walkParam method head tail routes params)) := by
  simp only [walk, Trie.edges_build, List.findSome?_map, Function.comp_def]
  congr 1
  · generalize edges : (Trie.heads routes).findSome? _ = edge
    cases edge with
    | some result =>
        obtain ⟨key, _, found⟩ := List.exists_of_findSome?_eq_some edges
        cases key with
        | param name => cases found
        | literal text =>
            dsimp only at found
            split at found
            next same =>
              subst same
              exact found.symm
            next => cases found
    | none =>
        by_cases listed : SegmentMatcher.literal head ∈ Trie.heads routes
        · have missed := List.findSome?_eq_none_iff.mp edges _ listed
          dsimp only at missed
          rw [if_pos rfl] at missed
          exact missed.symm
        · rw [Trie.under_of_not_mem_heads listed]
          exact (walk_empty method tail params).symm
  · congr 1
    funext key
    cases key <;> rfl

/-- The result is the preferred template, if any template matches. -/
def Decided (routes : List (List SegmentMatcher × (String × Nat))) (method : String)
    (segments : List String) (params : PathParams) (result : Option (RouteNode × PathParams)) :
    Prop :=
  (result = none ∧ Unmatched routes method segments) ∨
    ∃ reached template, result = some reached ∧
      Reached routes method segments params reached template

theorem decided_nil (method : String)
    (routes : List (List SegmentMatcher × (String × Nat))) (params : PathParams) :
    Decided routes method [] params (walk method [] (Trie.build routes) params) := by
  simp only [walk]
  split
  next served =>
    refine .inr ⟨_, [], rfl, ⟨List.Forall₂.nil, Trie.items_build routes, rfl, ?_, ?_⟩⟩
    · simpa using served
    · rintro other item _ _ ⟨⟩
      exact .inl rfl
  next unserved =>
    refine .inl ⟨rfl, ?_⟩
    rintro template item member asked ⟨⟩
    refine unserved (List.any_eq_true.mpr ⟨item, ?_, by simp [asked]⟩)
    rw [Trie.items_build]
    exact Trie.mem_itemsAt.mpr member

/-- Behind the literal edge the walk is preferred to any behind a parameter. -/
theorem decided_literal {result : RouteNode × PathParams} {template : List SegmentMatcher}
    (reached : Reached (Trie.under (.literal head) routes) method tail params result template) :
    Decided routes method (head :: tail) params (some result) := by
  refine .inr ⟨result, _, rfl, reached.behind (by simp [SegmentMatcher.admits]) rfl ?_⟩
  rintro matcher rest item _ _ differs (rfl | ⟨name, rfl⟩) _
  · exact absurd rfl differs
  · simp [precedes]

/-- Without a literal edge to follow, the first parameter edge with a result is preferred. -/
theorem decided_params (noLiteral : Unmatched (Trie.under (.literal head) routes) method tail)
    (each : ∀ name, Decided (Trie.under (.param name) routes) method tail
      (params.insert name head) (walkParam method head tail routes params (.param name))) :
    Decided routes method (head :: tail) params
      ((Trie.heads routes).findSome? (walkParam method head tail routes params)) := by
  have unmatched : ∀ name rest item, (.param name :: rest, item) ∈ routes →
      walkParam method head tail routes params (.param name) = none →
      item.1 = method → ¬ Matches rest tail := by
    intro name rest item member missed asked
    rcases each name with ⟨_, none⟩ | ⟨_, _, found, _⟩
    · exact none rest item (Trie.mem_under.mpr member) asked
    · cases missed.symm.trans found
  cases parameters : (Trie.heads routes).findSome?
      (walkParam method head tail routes params) with
  | none =>
      refine .inl ⟨rfl, fun template item member asked matched => ?_⟩
      obtain ⟨matcher, rest, rfl, matchedRest, rfl | ⟨name, rfl⟩⟩ := matched.cases_cons
      · exact noLiteral rest item (Trie.mem_under.mpr member) asked matchedRest
      · have listed := Trie.mem_heads.mpr ⟨rest, item, member⟩
        exact unmatched name rest item member
          (List.findSome?_eq_none_iff.mp parameters _ listed) asked matchedRest
  | some result =>
      obtain ⟨before, key, after, split, found, skipped⟩ :=
        List.findSome?_eq_some_iff.mp parameters
      cases key with
      | literal text => cases found
      | param name =>
          rcases each name with ⟨missed, _⟩ | ⟨_, template, walked, reached⟩
          · cases missed.symm.trans found
          cases walked.symm.trans found
          refine .inr ⟨_, _, rfl, reached.behind rfl rfl ?_⟩
          rintro matcher rest item member asked differs (rfl | ⟨other, rfl⟩) matchedRest
          · exact absurd matchedRest (noLiteral rest item (Trie.mem_under.mpr member) asked)
          have apart : ¬ SegmentMatcher.param name = .param other := Ne.symm differs
          have listed := Trie.mem_heads.mpr ⟨rest, item, member⟩
          have distinct := Trie.heads_nodup routes
          simp only [precedes, if_neg apart]
          rw [split] at listed distinct ⊢
          rcases List.mem_append.mp listed with earlier | later
          · exact absurd matchedRest
              (unmatched other rest item member (skipped _ earlier) asked)
          · have behind := (List.mem_cons.mp later).resolve_left differs
            exact decide_eq_true (idxOf_lt_of_split distinct behind)

/-- A walk through a built trie reaches the preferred template, if any template matches. -/
theorem walk_build (method : String) (segments : List String)
    (routes : List (List SegmentMatcher × (String × Nat))) (params : PathParams) :
    Decided routes method segments params (walk method segments (Trie.build routes) params) := by
  induction segments generalizing routes params with
  | nil => exact decided_nil method routes params
  | cons head tail ih =>
      rw [walk_cons]
      rcases ih (Trie.under (.literal head) routes) params with
        ⟨missed, noLiteral⟩ | ⟨result, template, found, reached⟩
      · rw [missed, Option.none_or]
        exact decided_params noLiteral fun name => ih (Trie.under (.param name) routes) _
      · rw [found, Option.some_or]
        exact decided_literal reached

end Walk

/-! ## What the router answers -/

/--
Every other operation of the method whose template matches the path comes after
the given one, by its template or, with the same template, by its declaration.
-/
def Preferred (operations : List OperationSpec) (method path : String) (index : Nat)
    (operation : OperationSpec) : Prop :=
  ∀ position other, operations[position]? = some other → other.method = method →
    Matches (parseSegments other.pathTemplate) (splitPath path) →
    (parseSegments other.pathTemplate = parseSegments operation.pathTemplate ∧
      index ≤ position) ∨
    precedes (routesOf operations) (parseSegments operation.pathTemplate)
      (parseSegments other.pathTemplate) = true

/-- An operation of the method whose template matches the path and is preferred to all others. -/
structure Serves (operations : List OperationSpec) (method path : String) (index : Nat)
    (operation : OperationSpec) : Prop where
  declared : operations[index]? = some operation
  asked : operation.method = method
  matched : Matches (parseSegments operation.pathTemplate) (splitPath path)
  preferred : Preferred operations method path index operation

theorem mem_routesOf {operations : List OperationSpec} {template : List SegmentMatcher}
    {method : String} {index : Nat} :
    (template, (method, index)) ∈ routesOf operations ↔
      ∃ operation, operations[index]? = some operation ∧
        parseSegments operation.pathTemplate = template ∧ operation.method = method := by
  unfold routesOf
  simp only [List.mem_map, Prod.mk.injEq, Prod.exists, List.mk_mem_zipIdx_iff_getElem?]
  constructor
  · rintro ⟨operation, position, located, rfl, rfl, rfl⟩
    exact ⟨operation, located, rfl, rfl⟩
  · rintro ⟨operation, located, rfl, rfl⟩
    exact ⟨operation, index, located, rfl, rfl, rfl⟩

/-- Items filed under one template stand in declaration order. -/
theorem itemsAt_routesOf_increasing (operations : List OperationSpec)
    (template : List SegmentMatcher) :
    (Trie.itemsAt template (routesOf operations)).Pairwise fun left right => left.2 < right.2 := by
  have increasing : (routesOf operations).Pairwise fun left right => left.2.2 < right.2.2 := by
    apply List.pairwise_map.mpr
    have positions := List.pairwise_lt_range' (s := 0) (n := operations.length)
    rw [← List.zipIdx_map_snd] at positions
    exact List.pairwise_map.mp positions
  apply increasing.filterMap _
  intro left right before item taken other takenOther
  split at taken
  · split at takenOther
    · cases taken
      cases takenOther
      exact before
    · cases takenOther
  · cases taken

/-- Only one operation serves a request. -/
theorem Serves.unique {operations : List OperationSpec} {method path : String}
    {index position : Nat} {operation other : OperationSpec}
    (serves : Serves operations method path index operation)
    (also : Serves operations method path position other) : index = position := by
  rcases serves.preferred position other also.declared also.asked also.matched with
    ⟨same, least⟩ | before
  · rcases also.preferred index operation serves.declared serves.asked serves.matched with
      ⟨_, atMost⟩ | after
    · omega
    · rw [same, precedes_irrefl] at after
      cases after
  · rcases also.preferred index operation serves.declared serves.asked serves.matched with
      ⟨same, _⟩ | after
    · rw [same, precedes_irrefl] at before
      cases before
    · rw [precedes_asymm before] at after
      cases after

/-- The router answers with the operation that serves the request, and binds its parameters. -/
theorem matchRoute_cases (operations : List OperationSpec) (method path : String) :
    (matchRoute (buildRouter operations) method path = none ∧
      ∀ operation ∈ operations, operation.method = method →
        ¬ Matches (parseSegments operation.pathTemplate) (splitPath path)) ∨
    ∃ index operation, Serves operations method path index operation ∧
      matchRoute (buildRouter operations) method path =
        some ⟨index, bindSegments (parseSegments operation.pathTemplate) (splitPath path) ∅⟩ := by
  unfold matchRoute buildRouter
  rcases walk_build method (splitPath path) (routesOf operations) ∅ with
    ⟨missed, unmatched⟩ | ⟨⟨node, params⟩, template, walked, reached⟩
  · refine .inl ⟨by rw [missed], fun operation member asked => ?_⟩
    obtain ⟨index, declared⟩ := List.mem_iff_getElem?.mp member
    exact unmatched _ (operation.method, index)
      (mem_routesOf.mpr ⟨operation, declared, rfl, rfl⟩) asked
  · rw [walked]
    have increasing := itemsAt_routesOf_increasing operations template
    rw [← reached.items] at increasing
    have found : ∃ item, node.items.find? (fun item => item.1 == method) = some item := by
      obtain ⟨item, member, asked⟩ := reached.served
      exact Option.isSome_iff_exists.mp (List.find?_isSome.mpr ⟨item, member, by simp [asked]⟩)
    obtain ⟨⟨served, index⟩, found⟩ := found
    obtain ⟨asked, before, after, split, skipped⟩ := List.find?_eq_some_iff_append.mp found
    have asked : served = method := by simpa using asked
    have member : (served, index) ∈ node.items := List.mem_of_find?_eq_some found
    rw [reached.items, Trie.mem_itemsAt, mem_routesOf] at member
    obtain ⟨operation, declared, rfl, rfl⟩ := member
    refine .inr ⟨index, operation, ⟨declared, asked, reached.matched, ?_⟩, ?_⟩
    · intro position other located sought matched
      have route := mem_routesOf.mpr ⟨other, located, rfl, rfl⟩
      rcases reached.preferred _ _ route sought matched with same | preferred
      · refine .inl ⟨same, ?_⟩
        rw [same, ← Trie.mem_itemsAt, ← reached.items, split] at route
        rw [split] at increasing
        rcases List.mem_append.mp route with earlier | later
        · simpa [sought] using skipped _ earlier
        · rcases List.mem_cons.mp later with here | behind
          · exact le_of_eq (congrArg Prod.snd here).symm
          · have above := (List.pairwise_append.mp increasing).2.1
            exact le_of_lt (List.rel_of_pairwise_cons above behind)
      · exact .inr preferred
    · dsimp only at found ⊢
      rw [found]
      exact congrArg (fun bound => some (RouteMatch.mk index bound)) reached.bound

theorem matchRoute_of_serves {operations : List OperationSpec} {method path : String}
    {index : Nat} {operation : OperationSpec}
    (serves : Serves operations method path index operation) :
    matchRoute (buildRouter operations) method path =
      some ⟨index, bindSegments (parseSegments operation.pathTemplate) (splitPath path) ∅⟩ := by
  rcases matchRoute_cases operations method path with ⟨_, none⟩ | ⟨position, other, also, found⟩
  · exact absurd serves.matched
      (none operation (List.mem_of_getElem? serves.declared) serves.asked)
  · have same := serves.unique also
    subst same
    cases serves.declared.symm.trans also.declared
    exact found

theorem serves_of_matchRoute {operations : List OperationSpec} {method path : String}
    {found : RouteMatch} (routed : matchRoute (buildRouter operations) method path = some found) :
    ∃ operation, Serves operations method path found.operationIndex operation ∧
      found.pathParams =
        bindSegments (parseSegments operation.pathTemplate) (splitPath path) ∅ := by
  rcases matchRoute_cases operations method path with ⟨missed, _⟩ | ⟨_, operation, serves, also⟩
  · cases missed.symm.trans routed
  · have same := Option.some.inj (also.symm.trans routed)
    subst same
    refine ⟨operation, serves, ?_⟩
    dsimp only

/-! ## Paths from templates -/

/-- Text that makes one segment of a path. -/
structure SegmentText where
  text : String
  nonempty : text ≠ ""
  undivided : '/' ∉ text.toList

/-- A segment of a template, a parameter replaced by its value. -/
def fillSegment (values : String → SegmentText) (segment : String) : String :=
  match parseSegment segment with
  | .literal _ => segment
  | .param name => (values name).text

/-- A path template with its parameters replaced by values. -/
def renderPath (values : String → SegmentText) (template : String) : String :=
  Text.joined '/' ((Text.pieces '/' template).map (fillSegment values))

theorem splitPath_eq_words (path : String) : splitPath path = Text.words '/' path :=
  Text.words_trimEnds '/' path

/-- A literal segment stands for itself. -/
theorem parseSegment_literal {segment text : String}
    (parsed : parseSegment segment = .literal text) : text = segment := by
  unfold parseSegment at parsed
  split at parsed
  · split at parsed
    · cases parsed
    · exact (SegmentMatcher.literal.inj parsed).symm
  · exact (SegmentMatcher.literal.inj parsed).symm

section Render

variable (values : String → SegmentText)

theorem fillSegment_ne_empty (segment : String) :
    fillSegment values segment ≠ "" ↔ segment ≠ "" := by
  unfold fillSegment
  cases parsed : parseSegment segment with
  | literal text => exact Iff.rfl
  | param name =>
      apply iff_of_true (values name).nonempty
      rintro rfl
      cases parsed

theorem slash_not_mem_fillSegment {segment : String} (undivided : '/' ∉ segment.toList) :
    '/' ∉ (fillSegment values segment).toList := by
  unfold fillSegment
  cases parseSegment segment with
  | literal text => exact undivided
  | param name => exact (values name).undivided

/-- The segments of a rendered path are those of the template with the values in place. -/
theorem splitPath_renderPath (template : String) :
    splitPath (renderPath values template) = (splitPath template).map (fillSegment values) := by
  have pieces : Text.pieces '/' (renderPath values template) =
      (Text.pieces '/' template).map (fillSegment values) := by
    refine Text.pieces_joined ?_ (by simp [Text.pieces_ne_nil])
    simp only [List.forall_mem_map]
    exact fun segment member =>
      slash_not_mem_fillSegment values (Text.separator_not_mem_of_mem_pieces member)
  have kept : ((fun segment => decide (segment ≠ "")) ∘ fillSegment values) =
      fun segment => decide (segment ≠ "") := by
    funext segment
    exact decide_eq_decide.mpr (fillSegment_ne_empty values segment)
  simp only [splitPath_eq_words, Text.words, pieces, List.filter_map, kept]

/-- A rendered path is matched by its template. -/
theorem matches_renderPath (template : String) :
    Matches (parseSegments template) (splitPath (renderPath values template)) := by
  rw [splitPath_renderPath]
  unfold Matches parseSegments
  rw [List.forall₂_map_left_iff, List.forall₂_map_right_iff, List.forall₂_same]
  intro segment _
  unfold fillSegment
  cases parsed : parseSegment segment with
  | literal text => simp [SegmentMatcher.admits, parseSegment_literal parsed]
  | param name => rfl

theorem lookup_bindSegments_fill (segments : List String) (params : PathParams) (name : String) :
    (bindSegments (segments.map parseSegment) (segments.map (fillSegment values)) params).lookup
        name =
      if .param name ∈ segments.map parseSegment then some (values name).text
      else params.lookup name := by
  induction segments generalizing params with
  | nil => rfl
  | cons segment rest ih =>
      cases parsed : parseSegment segment with
      | literal text => simpa [bindSegments, parsed] using ih params
      | param other =>
          simp only [List.map_cons, bindSegments, parsed, ih, List.mem_cons, fillSegment]
          by_cases same : name = other
          · subst same
            simp
          · simp [same]

/-- A parameter of the template is bound to its value in the rendered path. -/
theorem lookup_renderPath {template name : String}
    (declared : .param name ∈ parseSegments template) :
    (bindSegments (parseSegments template) (splitPath (renderPath values template)) ∅).lookup name =
      some (values name).text := by
  rw [splitPath_renderPath]
  exact (lookup_bindSegments_fill values (splitPath template) ∅ name).trans (if_pos declared)

end Render

end SpecMock.Runtime
