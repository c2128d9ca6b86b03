import SpecMock.Library.StableSort
import Mathlib.Order.Compare

/-!
# Sorting by a partial rank

Items are sorted by a rank that some of them may lack; an item without a rank
compares with no other.  A sort relies on a total preorder on the items of its
list.  That is what such a comparison is exactly if every item has a rank, or
if all the ranks there are coincide.
-/

namespace SpecMock.Library

section Ranks

variable {ι : Type} [LinearOrder ι]

/-- The comparison of two ranks, where both are present. -/
def compareRanks : Option ι → Option ι → Option Ordering
  | some left, some right => some (compare left right)
  | _, _ => none

theorem compareRanks_eq_some_iff {left right : Option ι} {ordering : Ordering} :
    compareRanks left right = some ordering ↔
      ∃ low high, left = some low ∧ right = some high ∧ compare low high = ordering := by
  cases left <;> cases right <;> simp [compareRanks]

theorem compareRanks_swap (left right : Option ι) :
    (compareRanks left right).getD .eq = ((compareRanks right left).getD .eq).swap := by
  cases left with
  | none => cases right <;> rfl
  | some low =>
      cases right with
      | none => rfl
      | some high => exact (Std.OrientedCmp.eq_swap : compare low high = (compare high low).swap)

theorem compareRanks_ne_gt_iff {left right : Option ι} :
    compareRanks left right ≠ some .gt ↔
      ∀ low high, left = some low → right = some high → low ≤ high := by
  rw [Ne, compareRanks_eq_some_iff]
  simp only [compare_gt_iff_gt, not_exists, not_and, not_lt]

theorem compareRanks_ne_lt_iff {left right : Option ι} :
    compareRanks left right ≠ some .lt ↔
      ∀ low high, left = some low → right = some high → high ≤ low := by
  rw [Ne, compareRanks_eq_some_iff]
  simp only [compare_lt_iff_lt, not_exists, not_and, not_lt]

variable {α : Type} (rank : α → Option ι)

/-- The comparison does not put the second item in front of the first. -/
def NotBehind (left right : α) : Prop := compareRanks (rank right) (rank left) ≠ some .gt

/-- All the ranks there are coincide. -/
def SameRanks (items : List α) : Prop :=
  ∀ left ∈ items, ∀ right ∈ items, ∀ low high, rank left = some low → rank right = some high →
    low = high

variable {rank}

theorem SameRanks.notBehind {items : List α} (same : SameRanks rank items) {left right : α}
    (leftMember : left ∈ items) (rightMember : right ∈ items) : NotBehind rank left right := by
  refine compareRanks_ne_gt_iff.mpr fun low high lowRank highRank => ?_
  exact (same right rightMember left leftMember low high lowRank highRank).le

/-- The comparison is total, whatever the ranks. -/
theorem notBehind_total (left right : α) :
    NotBehind rank left right ∨ NotBehind rank right left := by
  rw [or_iff_not_imp_left]
  intro behind
  obtain ⟨high, low, highRank, lowRank, above⟩ :=
    compareRanks_eq_some_iff.mp (not_not.mp behind)
  refine compareRanks_ne_gt_iff.mpr fun first second firstRank secondRank => ?_
  rw [lowRank, Option.some.injEq] at firstRank
  rw [highRank, Option.some.injEq] at secondRank
  subst firstRank secondRank
  exact (compare_gt_iff_gt.mp above).le

/--
The comparison of ranks is a total preorder on a list exactly if no rank is
missing in it or all its ranks coincide.
-/
theorem totalPreorderOn_iff {items : List α} :
    TotalPreorderOn (NotBehind rank) items ↔
      (∀ item ∈ items, rank item ≠ none) ∨ SameRanks rank items := by
  constructor
  · intro preorder
    rw [or_iff_not_imp_left]
    intro missing
    push Not at missing
    obtain ⟨gap, gapMember, unranked⟩ := missing
    have beside : ∀ item, NotBehind rank item gap ∧ NotBehind rank gap item := fun item =>
      ⟨compareRanks_ne_gt_iff.mpr (by simp [unranked]),
        compareRanks_ne_gt_iff.mpr (by simp [unranked])⟩
    intro left leftMember right rightMember low high lowRank highRank
    have forward := preorder.transitive left leftMember gap gapMember right rightMember
      (beside left).1 (beside right).2
    have backward := preorder.transitive right rightMember gap gapMember left leftMember
      (beside right).1 (beside left).2
    exact le_antisymm (compareRanks_ne_gt_iff.mp backward low high lowRank highRank)
      (compareRanks_ne_gt_iff.mp forward high low highRank lowRank)
  · intro ranked
    constructor
    · exact fun left _ right _ => notBehind_total left right
    · intro first firstMember second secondMember third thirdMember forward onward
      rcases ranked with ranked | same
      · refine compareRanks_ne_gt_iff.mpr fun low high lowRank highRank => ?_
        obtain ⟨middle, middleRank⟩ := Option.ne_none_iff_exists'.mp (ranked second secondMember)
        exact (compareRanks_ne_gt_iff.mp onward low middle lowRank middleRank).trans
          (compareRanks_ne_gt_iff.mp forward middle high middleRank highRank)
      · exact same.notBehind firstMember thirdMember

end Ranks

end SpecMock.Library
