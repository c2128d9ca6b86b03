import Mathlib.Data.List.Sort

/-!
# Sorting by a comparison

A sort relies on a comparison that tells both sides of a pair the same and puts
the items of its list in a total preorder.  Given one, it returns the items in
order, equal ones as they stood.  Given another, it may leave the items in any
order, or fail to return.
-/

namespace SpecMock.Library

/-- On the items of a list a relation is total and transitive. -/
structure TotalPreorderOn {α : Type} (before : α → α → Prop) (items : List α) : Prop where
  total : ∀ left ∈ items, ∀ right ∈ items, before left right ∨ before right left
  transitive : ∀ first ∈ items, ∀ second ∈ items, ∀ third ∈ items,
    before first second → before second third → before first third

/-- What is sorted by a total preorder on its items is in order. -/
theorem TotalPreorderOn.pairwise_insertionSort {α : Type} {before : α → α → Prop}
    [DecidableRel before] {items : List α} (preorder : TotalPreorderOn before items) :
    (items.insertionSort before).Pairwise before := by
  let within : {item // item ∈ items} → {item // item ∈ items} → Prop :=
    fun left right => before left.1 right.1
  have total : Std.Total within :=
    ⟨fun left right => preorder.total left.1 left.2 right.1 right.2⟩
  have transitive : IsTrans _ within := ⟨fun first second third =>
    preorder.transitive first.1 first.2 second.1 second.2 third.1 third.2⟩
  have sorted := List.pairwise_insertionSort within items.attach
  have same := List.map_insertionSort within before Subtype.val items.attach
    fun left _ right _ => Iff.rfl
  rw [List.attach_map_subtype_val] at same
  rw [← same, List.pairwise_map]
  exact sorted

theorem TotalPreorderOn.perm {α : Type} {before : α → α → Prop} {items others : List α}
    (preorder : TotalPreorderOn before items) (permuted : others.Perm items) :
    TotalPreorderOn before others := by
  constructor
  · intro left leftMember right rightMember
    exact preorder.total left (permuted.mem_iff.mp leftMember) right
      (permuted.mem_iff.mp rightMember)
  · intro first firstMember second secondMember third thirdMember
    exact preorder.transitive first (permuted.mem_iff.mp firstMember) second
      (permuted.mem_iff.mp secondMember) third (permuted.mem_iff.mp thirdMember)

/-- A comparison that a sort of the items can rely on. -/
structure ComparesOn {α : Type} (compare : α → α → Ordering) (items : List α) : Prop where
  swap : ∀ left ∈ items, ∀ right ∈ items, compare right left = (compare left right).swap
  preorder : TotalPreorderOn (fun left right => compare left right ≠ .gt) items

/-- The items in order, equal ones as they stood. -/
def stableSort {α : Type} (compare : α → α → Ordering) (items : List α) : List α :=
  items.insertionSort fun left right => compare left right ≠ .gt

/-- A stable sort by a comparison, as far as it is known; without a result it has not returned. -/
structure SortBy where
  run {α : Type} (compare : α → α → Ordering) (items : List α) : Option (List α)
  sorts {α : Type} {compare : α → α → Ordering} {items : List α}
    (compares : ComparesOn compare items) : run compare items = some (stableSort compare items)
  keeps {α : Type} {compare : α → α → Ordering} {items sorted : List α}
    (returned : run compare items = some sorted) : sorted.Perm items
  single {α : Type} (compare : α → α → Ordering) (item : α) : run compare [item] = some [item]

namespace SortBy

/-- Insertion sort, whatever the comparison. -/
def insertion : SortBy where
  run compare items := some (stableSort compare items)
  sorts _ := rfl
  keeps returned := by
    cases returned
    exact List.perm_insertionSort _ _
  single _ _ := rfl

@[simp]
theorem run_nil (sort : SortBy) {α : Type} (compare : α → α → Ordering) :
    sort.run compare [] = some [] :=
  sort.sorts
    ⟨fun _ member => absurd member List.not_mem_nil,
      fun _ member => absurd member List.not_mem_nil,
      fun _ member => absurd member List.not_mem_nil⟩

end SortBy

end SpecMock.Library
