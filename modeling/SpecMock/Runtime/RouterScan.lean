import SpecMock.Runtime.Router

/-!
# The router and a linear scan

The trie answers a request exactly when a scan of all templates would find one
that matches, and binds the parameters of the template it answers with, and no
others.  The templates are compared here as texts: a segment in braces stands
for any segment, every other segment for itself.
-/

namespace SpecMock.Runtime

open SpecMock.Library SpecMock.Core

/-- The segment of a template that stands for a parameter. -/
def placeholder (name : String) : String := "\x7b" ++ name ++ "\x7d"

/-- A template matches a path segment by segment, without the empty ones. -/
def TemplateMatches (template path : String) : Prop :=
  List.Forall₂
    (fun pattern segment => (∃ name, name ≠ "" ∧ pattern = placeholder name) ∨ pattern = segment)
    (Text.words '/' template) (Text.words '/' path)

/-- The value stands where the key stands for the last time. -/
def LastBinding {κ α : Type} (keys : List κ) (values : List α) (key : κ) (value : α) : Prop :=
  ∃ position : Nat, keys[position]? = some key ∧ values[position]? = some value ∧
    ∀ later, position < later → keys[later]? ≠ some key

/-- The segments parsed as parameters are the placeholders of non-empty names. -/
theorem parseSegment_eq_param {segment name : String} :
    parseSegment segment = .param name ↔ name ≠ "" ∧ segment = placeholder name := by
  have spelled : (placeholder name).toList = '{' :: (name.toList ++ ['}']) := by
    simp [placeholder, String.toList_append]
  constructor
  · intro parsed
    unfold parseSegment at parsed
    split at parsed
    next rest opened =>
      split at parsed
      next last inner closed =>
        obtain rfl := SegmentMatcher.param.inj parsed
        refine ⟨by simp, ?_⟩
        apply String.toList_injective
        rw [spelled, opened, String.toList_ofList, ← List.reverse_cons, ← closed,
          List.reverse_reverse]
      next => cases parsed
    next => cases parsed
  · rintro ⟨nonempty, rfl⟩
    have named : name.toList ≠ [] := by simpa using nonempty
    obtain ⟨last, inner, reversed⟩ :=
      List.exists_cons_of_ne_nil (List.reverse_ne_nil_iff.mpr named)
    unfold parseSegment
    rw [spelled]
    simp only [List.reverse_append, List.reverse_cons, List.reverse_nil, List.nil_append,
      List.singleton_append, reversed]
    rw [← List.reverse_cons, ← reversed, List.reverse_reverse, String.ofList_toList]

theorem admits_parseSegment {pattern segment : String} :
    (parseSegment pattern).admits segment = true ↔
      (∃ name, name ≠ "" ∧ pattern = placeholder name) ∨ pattern = segment := by
  cases parsed : parseSegment pattern with
  | param name =>
      have named := parseSegment_eq_param.mp parsed
      exact iff_of_true rfl (.inl ⟨name, named⟩)
  | literal text =>
      obtain rfl := parseSegment_literal parsed
      constructor
      · intro same
        exact .inr (by simpa [SegmentMatcher.admits] using same)
      · rintro (⟨name, named⟩ | same)
        · cases parsed.symm.trans (parseSegment_eq_param.mpr named)
        · simpa [SegmentMatcher.admits] using same

/-- The router's matching is that of the texts. -/
theorem matches_iff {template path : String} :
    Matches (parseSegments template) (splitPath path) ↔ TemplateMatches template path := by
  unfold Matches TemplateMatches parseSegments
  rw [List.forall₂_map_left_iff, splitPath_eq_words, splitPath_eq_words]
  simp only [admits_parseSegment]

theorem lastBinding_cons {κ α : Type} {first key : κ} {keys : List κ} {held value : α}
    {values : List α} :
    LastBinding (first :: keys) (held :: values) key value ↔
      LastBinding keys values key value ∨ (first = key ∧ held = value ∧ key ∉ keys) := by
  constructor
  · rintro ⟨position, located, bound, last⟩
    cases position with
    | zero =>
        refine .inr ⟨by simpa using located, by simpa using bound, fun member => ?_⟩
        obtain ⟨later, again⟩ := List.mem_iff_getElem?.mp member
        exact last (later + 1) (Nat.succ_pos later) (by simpa using again)
    | succ position =>
        refine .inl ⟨position, by simpa using located, by simpa using bound, ?_⟩
        intro later behind again
        exact last (later + 1) (Nat.succ_lt_succ behind) (by simpa using again)
  · rintro (⟨position, located, bound, last⟩ | ⟨rfl, rfl, absent⟩)
    · refine ⟨position + 1, by simpa using located, by simpa using bound, ?_⟩
      intro later behind again
      cases later with
      | zero => cases behind
      | succ later => exact last later (Nat.lt_of_succ_lt_succ behind) (by simpa using again)
    · refine ⟨0, rfl, rfl, ?_⟩
      intro later behind again
      cases later with
      | zero => cases behind
      | succ later => exact absent (List.mem_of_getElem? (by simpa using again))

/-- Binding the segments of a path gives every parameter its last segment. -/
theorem lookup_bindSegments {template : List SegmentMatcher} {segments : List String}
    (same : template.length = segments.length) (params : PathParams) (name value : String) :
    (bindSegments template segments params).lookup name = some value ↔
      LastBinding template segments (.param name) value ∨
        (.param name ∉ template ∧ params.lookup name = some value) := by
  induction template generalizing segments params with
  | nil => simp [bindSegments, LastBinding]
  | cons matcher rest ih =>
      cases segments with
      | nil => cases same
      | cons segment others =>
          have fewer : rest.length = others.length := Nat.succ.inj same
          rw [lastBinding_cons, List.mem_cons]
          cases matcher with
          | literal text => simp [bindSegments, ih fewer]
          | param other =>
              rw [bindSegments, ih fewer, FiniteMap.lookup_insert_eq]
              by_cases bound : name = other
              · subst bound
                simp [and_comm]
              · have differs : ¬ other = name := fun equal => bound equal.symm
                simp [bound, differs]

/-- The parameters of a parsed template are the names in its placeholders. -/
theorem lastBinding_parseSegments {template : String} {segments : List String}
    {name value : String} :
    LastBinding (parseSegments template) segments (.param name) value ↔
      name ≠ "" ∧ LastBinding (Text.words '/' template) segments (placeholder name) value := by
  have parsed : ∀ position : Nat, (parseSegments template)[position]? = some (.param name) ↔
      name ≠ "" ∧ (Text.words '/' template)[position]? = some (placeholder name) := by
    intro position
    rw [parseSegments, splitPath_eq_words, List.getElem?_map, Option.map_eq_some_iff]
    simp only [parseSegment_eq_param]
    constructor
    · rintro ⟨segment, located, nonempty, rfl⟩
      exact ⟨nonempty, located⟩
    · rintro ⟨nonempty, located⟩
      exact ⟨_, located, nonempty, rfl⟩
  unfold LastBinding
  simp only [ne_eq, parsed]
  constructor
  · rintro ⟨position, ⟨nonempty, located⟩, bound, last⟩
    exact ⟨nonempty, position, located, bound, fun later behind again =>
      last later behind ⟨nonempty, again⟩⟩
  · rintro ⟨nonempty, position, located, bound, last⟩
    exact ⟨position, ⟨nonempty, located⟩, bound, fun later behind again =>
      last later behind again.2⟩

/--
The router answers exactly when some operation of the method has a template
that matches the path.  The operation it answers with is such an operation, and
its parameters, each bound to the segment at its last position, are all that is
bound.
-/
theorem router_agrees_with_scan (operations : List OperationSpec) (method path : String) :
    ((matchRoute (buildRouter operations) method path).isSome = true ↔
      ∃ operation ∈ operations, operation.method = method ∧
        TemplateMatches operation.pathTemplate path) ∧
    ∀ found, matchRoute (buildRouter operations) method path = some found →
      ∃ operation, operations[found.operationIndex]? = some operation ∧
        operation.method = method ∧ TemplateMatches operation.pathTemplate path ∧
        ∀ name value, found.pathParams.lookup name = some value ↔
          name ≠ "" ∧ LastBinding (Text.words '/' operation.pathTemplate) (Text.words '/' path)
            (placeholder name) value := by
  constructor
  · rcases matchRoute_cases operations method path with
      ⟨missed, unmatched⟩ | ⟨index, operation, serves, found⟩
    · rw [missed]
      refine iff_of_false (by simp) ?_
      rintro ⟨operation, member, asked, matched⟩
      exact unmatched operation member asked (matches_iff.mpr matched)
    · rw [found]
      exact iff_of_true rfl ⟨operation, List.mem_of_getElem? serves.declared, serves.asked,
        matches_iff.mp serves.matched⟩
  · intro found routed
    obtain ⟨operation, serves, bound⟩ := serves_of_matchRoute routed
    refine ⟨operation, serves.declared, serves.asked, matches_iff.mp serves.matched, ?_⟩
    intro name value
    rw [bound, lookup_bindSegments serves.matched.length_eq, lastBinding_parseSegments,
      splitPath_eq_words]
    simp

/-- Two templates that part behind a parameter with different names. -/
def userRelations : List OperationSpec :=
  [⟨"GET", "/users/{id}/orders", []⟩, ⟨"GET", "/users/{name}/friends", []⟩]

/-- A branch of the trie that is abandoned leaves no binding behind. -/
theorem router_agrees_with_scan_userRelations :
    ∃ found, matchRoute (buildRouter userRelations) "GET" "/users/ada/friends" = some found ∧
      found.pathParams.lookup "name" = some "ada" ∧ found.pathParams.lookup "id" = none ∧
      TemplateMatches "/users/{name}/friends" "/users/ada/friends" := by
  have asked : splitPath "/users/ada/friends" = ["users", "ada", "friends"] := by decide
  have routes : routesOf userRelations =
      [([.literal "users", .param "id", .literal "orders"], ("GET", 0)),
        ([.literal "users", .param "name", .literal "friends"], ("GET", 1))] := by decide
  have routed : matchRoute (buildRouter userRelations) "GET" "/users/ada/friends" =
      some ⟨1, (∅ : PathParams).insert "name" "ada"⟩ := by
    rw [matchRoute, asked, buildRouter, routes]
    rfl
  obtain ⟨operation, declared, _, matched, _⟩ :=
    (router_agrees_with_scan userRelations "GET" "/users/ada/friends").2 _ routed
  cases declared
  exact ⟨_, routed, by decide, by decide, matched⟩

end SpecMock.Runtime
