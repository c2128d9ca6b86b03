import SpecMock.Runtime.Router
import Mathlib.Data.List.Lex
import Mathlib.Data.Prod.Lex
import Mathlib.Data.Finset.Max
import Mathlib.Order.Interval.Finset.Nat
import Mathlib.Order.Bounds.Basic

/-!
# Precedence of literal segments

Among the operations of a method whose templates match a path, the most literal
one should answer: where two templates part in the kind of a segment, the one
with the literal comes first, and among templates of the same kinds the one
declared first.  The trie keeps parameters of different names on edges of their
own and tries the edges in the order in which they came up, so an earlier name
can take a path away from a more literal template behind a later name.
-/

namespace SpecMock.Runtime

open SpecMock.Library SpecMock.Core

/-- The kind of a segment: a literal, or else a parameter. -/
def SegmentMatcher.isLiteral : SegmentMatcher → Bool
  | .literal _ => true
  | .param _ => false

/-- The kinds of the segments of a template, to be compared lexicographically. -/
def OperationSpec.kinds (operation : OperationSpec) : List Bool :=
  (parseSegments operation.pathTemplate).map SegmentMatcher.isLiteral

/-- An operation with the method and a template that matches the path. -/
def Candidate (method path : String) (operation : OperationSpec) : Prop :=
  operation.method = method ∧ Matches (parseSegments operation.pathTemplate) (splitPath path)

/-- A candidate that is more literal than every other one, or as literal and declared first. -/
structure MostLiteral (operations : List OperationSpec) (method path : String) (index : Nat)
    (operation : OperationSpec) : Prop where
  declared : operations[index]? = some operation
  candidate : Candidate method path operation
  foremost : ∀ position other, operations[position]? = some other →
    Candidate method path other →
    other.kinds < operation.kinds ∨ other.kinds = operation.kinds ∧ index ≤ position

/-- If there are candidates, the router answers with the most literal one. -/
def RoutesLiterally (operations : List OperationSpec) (method path : String) : Prop :=
  (∃ operation ∈ operations, Candidate method path operation) →
    ∃ found operation, matchRoute (buildRouter operations) method path = some found ∧
      MostLiteral operations method path found.operationIndex operation

/--
The templates part at two parameters of different names, and of the declared
templates that go on with one of the names the first goes on with the right one.
-/
def Undercut {β : Type} (routes : List (List SegmentMatcher × β))
    (left right : List SegmentMatcher) : Prop :=
  ∃ shared name other lefts rights, name ≠ other ∧ left = shared ++ .param name :: lefts ∧
    right = shared ++ .param other :: rights ∧
    Trie.ComesUpFirst routes (shared ++ [.param other]) (shared ++ [.param name])

theorem undercut_cons {β : Type} {routes : List (List SegmentMatcher × β)}
    {matcher : SegmentMatcher} {left right : List SegmentMatcher} :
    Undercut routes (matcher :: left) (matcher :: right) ↔
      Undercut (Trie.under matcher routes) left right := by
  constructor
  · rintro ⟨shared, name, other, lefts, rights, differs, eqLeft, eqRight, first⟩
    cases shared with
    | nil =>
        simp only [List.nil_append, List.cons.injEq] at eqLeft eqRight
        exact absurd (SegmentMatcher.param.inj (eqLeft.1.symm.trans eqRight.1)) differs
    | cons head shared =>
        simp only [List.cons_append, List.cons.injEq] at eqLeft eqRight first
        obtain ⟨rfl, rfl⟩ := eqLeft
        exact ⟨shared, name, other, lefts, rights, differs, rfl, eqRight.2,
          (Trie.comesUpFirst_under matcher routes _ _).mpr first⟩
  · rintro ⟨shared, name, other, lefts, rights, differs, rfl, rfl, first⟩
    exact ⟨matcher :: shared, name, other, lefts, rights, differs, rfl, rfl,
      (Trie.comesUpFirst_under matcher routes _ _).mp first⟩

/-- Templates that part at once are undercut only where both start with a parameter. -/
theorem undercut_of_ne {β : Type} {routes : List (List SegmentMatcher × β)}
    {first other : SegmentMatcher} {left right : List SegmentMatcher} (differs : first ≠ other) :
    Undercut routes (first :: left) (other :: right) ↔
      (∃ name, first = .param name) ∧ (∃ name, other = .param name) ∧
        Trie.ComesUpFirst routes [other] [first] := by
  constructor
  · rintro ⟨shared, name, later, lefts, rights, _, eqLeft, eqRight, earlier⟩
    cases shared with
    | nil =>
        simp only [List.nil_append, List.cons.injEq] at eqLeft eqRight earlier
        rw [eqLeft.1, eqRight.1]
        exact ⟨⟨name, rfl⟩, ⟨later, rfl⟩, earlier⟩
    | cons head shared =>
        simp only [List.cons_append, List.cons.injEq] at eqLeft eqRight
        exact absurd (eqLeft.1.trans eqRight.1.symm) differs
  · rintro ⟨⟨name, rfl⟩, ⟨later, rfl⟩, earlier⟩
    exact ⟨[], name, later, left, right, fun same => differs (congrArg _ same), rfl, rfl, earlier⟩

/--
A matching template that is at least as literal as another one comes before it
in the trie, unless it is undercut.
-/
theorem precedes_iff_not_undercut {β : Type} {routes : List (List SegmentMatcher × β)}
    {segments : List String} {left right : List SegmentMatcher} {item : β}
    (matched : Matches left segments) (also : Matches right segments)
    (literal : ¬ left.map SegmentMatcher.isLiteral < right.map SegmentMatcher.isLiteral)
    (listed : (left, item) ∈ routes) :
    left = right ∨ precedes routes left right = true ↔ ¬ Undercut routes left right := by
  induction matched generalizing routes right with
  | nil =>
      cases also
      refine iff_of_true (.inl rfl) ?_
      rintro ⟨shared, _, _, _, _, _, empty, _⟩
      cases shared <;> cases empty
  | @cons first head left tail admitted _ ih =>
      obtain ⟨other, right, rfl, others, shape⟩ := also.cases_cons
      by_cases same : first = other
      · subst same
        simp only [List.map_cons, List.cons_lt_cons_iff, lt_self_iff_false, true_and,
          false_or] at literal
        simpa [precedes, undercut_cons] using ih others literal (Trie.mem_under.mpr listed)
      · have differs : ¬ first :: left = other :: right := fun equal =>
          same (List.cons.inj equal).1
        rw [undercut_of_ne same, or_iff_right differs]
        simp only [precedes, if_neg same]
        cases first with
        | literal text =>
            have here : text = head := by simpa [SegmentMatcher.admits] using admitted
            rcases shape with rfl | ⟨name, rfl⟩
            · exact absurd (congrArg _ here) same
            · simp
        | param name =>
            rcases shape with rfl | ⟨later, rfl⟩
            · simp [SegmentMatcher.isLiteral, List.cons_lt_cons_iff] at literal
            · have place : (Trie.heads routes).idxOf (.param name) ≠
                  (Trie.heads routes).idxOf (.param later) := fun equal =>
                same ((List.idxOf_inj (Trie.mem_heads.mpr ⟨left, item, listed⟩)).mp equal)
              simp only [decide_eq_true_eq, SegmentMatcher.param.injEq, exists_eq', true_and,
                Trie.comesUpFirst_iff_idxOf (Ne.symm same)]
              omega

/-- A candidate stands at the position. -/
def CandidateAt (operations : List OperationSpec) (method path : String) (position : Nat) : Prop :=
  ∃ operation, operations[position]? = some operation ∧ Candidate method path operation

/-- Among candidates there is a most literal one. -/
theorem exists_mostLiteral {operations : List OperationSpec} {method path : String}
    {operation : OperationSpec} (member : operation ∈ operations)
    (candidate : Candidate method path operation) :
    ∃ index operation, MostLiteral operations method path index operation := by
  classical
  -- The positions of the candidates, ranked by kinds and, among equals, downwards.
  let positions := (Finset.range operations.length).filter (CandidateAt operations method path)
  let rank : Nat → List Bool ×ₗ Natᵒᵈ := fun position =>
    toLex ((operations[position]?.map OperationSpec.kinds).getD [], OrderDual.toDual position)
  obtain ⟨position, located⟩ := List.mem_iff_getElem?.mp member
  have within : ∀ place other, operations[place]? = some other →
      Candidate method path other → place ∈ positions := fun place other there also =>
    Finset.mem_filter.mpr
      ⟨Finset.mem_range.mpr (List.getElem?_eq_some_iff.mp there).1, other, there, also⟩
  have occupied : positions.Nonempty := ⟨position, within position operation located candidate⟩
  obtain ⟨index, chosen, greatest⟩ := positions.exists_max_image rank occupied
  obtain ⟨_, operation, declared, admitted⟩ := Finset.mem_filter.mp chosen
  refine ⟨index, operation, declared, admitted, fun place other located also => ?_⟩
  have below := greatest place (within place other located also)
  simp only [rank, Prod.Lex.toLex_le_toLex, located, declared, Option.map_some,
    Option.getD_some] at below
  exact below.imp id (And.imp id id)

/-- There is only one most literal candidate. -/
theorem MostLiteral.unique {operations : List OperationSpec} {method path : String}
    {index position : Nat} {operation other : OperationSpec}
    (first : MostLiteral operations method path index operation)
    (second : MostLiteral operations method path position other) : index = position := by
  rcases first.foremost position other second.declared second.candidate with less | ⟨same, below⟩
  · rcases second.foremost index operation first.declared first.candidate with more | ⟨same, _⟩
    · exact absurd more (lt_asymm less)
    · rw [same] at less
      exact absurd less (lt_irrefl _)
  · rcases second.foremost index operation first.declared first.candidate with more | ⟨_, above⟩
    · rw [same] at more
      exact absurd more (lt_irrefl _)
    · omega

theorem Serves.candidate {operations : List OperationSpec} {method path : String} {index : Nat}
    {operation : OperationSpec} (serves : Serves operations method path index operation) :
    Candidate method path operation :=
  ⟨serves.asked, serves.matched⟩

/-- The trie keeps the order of literals where no candidate undercuts the most literal one. -/
theorem MostLiteral.precedes {operations : List OperationSpec} {method path : String}
    {index position : Nat} {operation other : OperationSpec}
    (most : MostLiteral operations method path index operation)
    (located : operations[position]? = some other) (also : Candidate method path other) :
    parseSegments operation.pathTemplate = parseSegments other.pathTemplate ∨
        Runtime.precedes (routesOf operations) (parseSegments operation.pathTemplate)
          (parseSegments other.pathTemplate) = true ↔
      ¬ Undercut (routesOf operations) (parseSegments operation.pathTemplate)
        (parseSegments other.pathTemplate) := by
  apply precedes_iff_not_undercut most.candidate.2 also.2
  · rcases most.foremost position other located also with less | ⟨same, _⟩
    · exact lt_asymm less
    · intro more
      change operation.kinds < other.kinds at more
      rw [same] at more
      exact lt_irrefl _ more
  · exact mem_routesOf.mpr ⟨operation, most.declared, rfl, rfl⟩

/-- A parameter that was declared first, and a literal behind another name of it. -/
def tenantReports : List OperationSpec :=
  [⟨"GET", "/{tenant}/{report}", []⟩, ⟨"GET", "/{team}/summary", []⟩]

end SpecMock.Runtime
