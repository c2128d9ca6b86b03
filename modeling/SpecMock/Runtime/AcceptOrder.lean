import SpecMock.Library.PartialRank
import SpecMock.Runtime.AcceptHeader

/-!
# The order of media ranges

The ranges of an `Accept` header are sorted by their qualities.  A quality is
any float that can be parsed, NaN among them, and NaN compares with no other.
The sort is given a total preorder unless NaN stands next to different numbers.
-/

namespace SpecMock.Runtime

open SpecMock.Library SpecMock.Core

/-- Qualities compare by their numbers, which NaN lacks. -/
structure Ranking {κ : Type} (qualities : Qualities κ) (ι : Type) [LinearOrder ι] where
  rank : κ → Option ι
  compare_eq : ∀ left right, qualities.compare left right = compareRanks (rank left) (rank right)

section Order

variable {κ ι : Type} [LinearOrder ι] (qualities : Qualities κ)

/-- The comparison that the ranges are sorted by does not put the second one first. -/
def StandsBefore (left right : MediaEntry κ) : Prop :=
  qualities.compare right.quality left.quality ≠ some .gt

instance : DecidableRel (StandsBefore qualities) := fun left right =>
  inferInstanceAs (Decidable (qualities.compare right.quality left.quality ≠ some .gt))

/-- The qualities of two ranges are not equal, as the comparison of floats has it. -/
def DistinctQualities (left right : MediaEntry κ) : Prop :=
  qualities.compare left.quality right.quality ≠ some .eq

/-- The ranges of a header are in an order that the sort can rely on. -/
structure OrdersRanges (accept : String) : Prop where
  preorder : TotalPreorderOn (StandsBefore qualities) (parsedRanges qualities accept)
  /-- No range of a higher quality comes after another one. -/
  sorted : (requestedTypes qualities accept).Pairwise fun left right =>
    qualities.compare left.quality right.quality ≠ some .lt
  /-- The order of ranges of different qualities does not matter. -/
  permuted : (parsedRanges qualities accept).Pairwise (DistinctQualities qualities) →
    ∀ other, (Text.pieces ',' other).Perm (Text.pieces ',' accept) →
      ∀ available, negotiateMediaType qualities available (some other) =
        negotiateMediaType qualities available (some accept)

variable {qualities} (ranking : Ranking qualities ι)

/-- The number that the quality of a range is, if it is one. -/
def Ranking.of (entry : MediaEntry κ) : Option ι := ranking.rank entry.quality

/--
No quality is NaN; or the numbers among the qualities coincide, and two ranges
have an equal quality or all of them name the same type.
-/
def Sortable (entries : List (MediaEntry κ)) : Prop :=
  (∀ entry ∈ entries, ranking.of entry ≠ none) ∨
    (SameRanks ranking.of entries ∧
      (¬ entries.Pairwise (DistinctQualities qualities) ∨
        ∀ left ∈ entries, ∀ right ∈ entries, left.mediaType = right.mediaType))

theorem standsBefore_eq : StandsBefore qualities = NotBehind ranking.of := by
  funext left right
  rw [StandsBefore, ranking.compare_eq]
  rfl

theorem byQuality_ne_gt :
    (fun left right => byQuality qualities left right ≠ .gt) = StandsBefore qualities := by
  funext left right
  unfold byQuality StandsBefore
  cases qualities.compare right.quality left.quality <;> simp

include ranking in
/-- The sort can rely on its comparison exactly if the relation that it sorts by is a preorder. -/
theorem comparesOn_iff {entries : List (MediaEntry κ)} :
    ComparesOn (byQuality qualities) entries ↔
      TotalPreorderOn (StandsBefore qualities) entries := by
  constructor
  · intro compares
    rw [← byQuality_ne_gt]
    exact compares.preorder
  · intro preorder
    refine ⟨fun left _ right _ => ?_, byQuality_ne_gt ▸ preorder⟩
    rw [byQuality, byQuality, ranking.compare_eq, ranking.compare_eq]
    exact compareRanks_swap _ _

theorem requestedTypes_eq (accept : String) :
    requestedTypes qualities accept =
      (parsedRanges qualities accept).insertionSort (StandsBefore qualities) := by
  unfold requestedTypes
  congr

theorem requestedTypes_perm (qualities : Qualities κ) (accept : String) :
    (requestedTypes qualities accept).Perm (parsedRanges qualities accept) :=
  List.perm_insertionSort _ _

theorem parsedRanges_perm (qualities : Qualities κ) {other accept : String}
    (permuted : (Text.pieces ',' other).Perm (Text.pieces ',' accept)) :
    (parsedRanges qualities other).Perm (parsedRanges qualities accept) :=
  permuted.filterMap _

/-- A total preorder sorts the ranges. -/
theorem standsBefore_requestedTypes {accept : String}
    (preorder : TotalPreorderOn (StandsBefore qualities) (parsedRanges qualities accept)) :
    (requestedTypes qualities accept).Pairwise (StandsBefore qualities) := by
  rw [requestedTypes_eq]
  exact preorder.pairwise_insertionSort

/-- Ranges of pairwise different qualities have one order only. -/
theorem requestedTypes_eq_of_perm {other accept : String}
    (preorder : TotalPreorderOn (StandsBefore qualities) (parsedRanges qualities accept))
    (ranked : ∀ entry ∈ parsedRanges qualities accept, ranking.of entry ≠ none)
    (distinct : (parsedRanges qualities accept).Pairwise (DistinctQualities qualities))
    (permuted : (parsedRanges qualities other).Perm (parsedRanges qualities accept)) :
    requestedTypes qualities other = requestedTypes qualities accept := by
  have sorted := standsBefore_requestedTypes preorder
  have otherSorted := standsBefore_requestedTypes (preorder.perm permuted)
  have back := permuted.trans (requestedTypes_perm _ accept).symm
  have same := (requestedTypes_perm _ other).trans back
  refine same.eq_of_pairwise ?_ otherSorted sorted
  intro left right leftMember rightMember before behind
  have leftListed := ((requestedTypes_perm _ other).trans permuted).mem_iff.mp leftMember
  have rightListed := (requestedTypes_perm _ accept).mem_iff.mp rightMember
  obtain ⟨low, lowRank⟩ := Option.ne_none_iff_exists'.mp (ranked left leftListed)
  obtain ⟨high, highRank⟩ := Option.ne_none_iff_exists'.mp (ranked right rightListed)
  rw [standsBefore_eq ranking] at before behind
  have equal : low = high := le_antisymm
    (compareRanks_ne_gt_iff.mp behind low high lowRank highRank)
    (compareRanks_ne_gt_iff.mp before high low highRank lowRank)
  have symmetric : ∀ first second : MediaEntry κ, DistinctQualities qualities first second →
      DistinctQualities qualities second first := by
    intro first second apart coincide
    rw [ranking.compare_eq] at coincide
    obtain ⟨one, two, oneRank, twoRank, same⟩ := compareRanks_eq_some_iff.mp coincide
    apply apart
    rw [ranking.compare_eq, oneRank, twoRank, compare_eq_iff_eq.mp same]
    simp [compareRanks]
  have symmetry : Std.Symm (DistinctQualities qualities) := ⟨symmetric⟩
  by_contra differs
  apply distinct.forall leftListed rightListed differs
  have ranks : ranking.rank left.quality = some low ∧ ranking.rank right.quality = some high :=
    ⟨lowRank, highRank⟩
  rw [ranking.compare_eq, ranks.1, ranks.2, equal]
  simp [compareRanks]

/-- What is selected depends on the types of the ranges and their order. -/
theorem firstAccepted_congr (available : List String) {entries others : List (MediaEntry κ)}
    (same : entries.map MediaEntry.mediaType = others.map MediaEntry.mediaType) :
    firstAccepted available entries = firstAccepted available others := by
  induction entries generalizing others with
  | nil =>
      cases others with
      | nil => rfl
      | cons other rest => simp at same
  | cons entry rest ih =>
      cases others with
      | nil => simp at same
      | cons other others =>
          obtain ⟨first, later⟩ := List.cons.inj same
          rw [firstAccepted, firstAccepted, first, ih later]

/-- Ranges of a single type are the same in every order. -/
theorem negotiateMediaType_of_sameType {other accept : String}
    (single : ∀ left ∈ parsedRanges qualities accept, ∀ right ∈ parsedRanges qualities accept,
      left.mediaType = right.mediaType)
    (permuted : (parsedRanges qualities other).Perm (parsedRanges qualities accept))
    (available : List String) :
    negotiateMediaType qualities available (some other) =
      negotiateMediaType qualities available (some accept) := by
  apply firstAccepted_congr
  have same := (requestedTypes_perm _ other).trans permuted
  have equal : ∀ entries : List (MediaEntry κ), entries.Perm (parsedRanges qualities accept) →
      (entries.map MediaEntry.mediaType).Pairwise (· = ·) := by
    intro entries listed
    rw [List.pairwise_map]
    exact List.pairwise_of_forall_mem_list fun left leftMember right rightMember =>
      single left (listed.mem_iff.mp leftMember) right (listed.mem_iff.mp rightMember)
  have sorted := requestedTypes_perm qualities accept
  refine ((same.trans sorted.symm).map MediaEntry.mediaType).eq_of_pairwise ?_
    (equal _ same) (equal _ sorted)
  exact fun left right _ _ coincide _ => coincide

theorem ordersRanges_of_sortable {accept : String}
    (sortable : Sortable ranking (parsedRanges qualities accept)) :
    OrdersRanges qualities accept := by
  have preorder : TotalPreorderOn (StandsBefore qualities) (parsedRanges qualities accept) := by
    rw [standsBefore_eq ranking]
    exact totalPreorderOn_iff.mpr (sortable.imp_right And.left)
  constructor
  · exact preorder
  · refine (standsBefore_requestedTypes preorder).imp ?_
    intro left right before
    rw [standsBefore_eq ranking] at before
    rw [ranking.compare_eq]
    exact compareRanks_ne_lt_iff.mpr fun low high lowRank highRank =>
      compareRanks_ne_gt_iff.mp before high low highRank lowRank
  · intro distinct other permuted available
    have parsed := parsedRanges_perm qualities permuted
    rcases sortable with ranked | ⟨-, equal | single⟩
    · rw [negotiateMediaType, negotiateMediaType,
        requestedTypes_eq_of_perm ranking preorder ranked distinct parsed]
    · exact absurd distinct equal
    · exact negotiateMediaType_of_sameType single parsed available

/-- A header whose ranges are those of another one, with one of them in front. -/
theorem exists_header_with_first {accept : String} {entry : MediaEntry κ}
    (listed : entry ∈ parsedRanges qualities accept) :
    ∃ other rest, (Text.pieces ',' other).Perm (Text.pieces ',' accept) ∧
      parsedRanges qualities other = entry :: rest := by
  obtain ⟨piece, member, parsed⟩ := List.mem_filterMap.mp listed
  have permuted := (List.perm_cons_erase member).symm
  have pieces : Text.pieces ',' (Text.joined ',' (piece :: (Text.pieces ',' accept).erase piece)) =
      piece :: (Text.pieces ',' accept).erase piece := by
    apply Text.pieces_joined
    · exact fun part inside => Text.separator_not_mem_of_mem_pieces (permuted.mem_iff.mp inside)
    · exact List.cons_ne_nil _ _
  refine ⟨Text.joined ',' (piece :: (Text.pieces ',' accept).erase piece),
    ((Text.pieces ',' accept).erase piece).filterMap (mediaEntry qualities), ?_, ?_⟩
  · rw [pieces]
    exact permuted
  · rw [parsedRanges, pieces, List.filterMap_cons, parsed]

/-- Two types that are each selected first, if both are available. -/
theorem firstAccepted_differs {left right : MediaEntry κ} (rest others : List (MediaEntry κ))
    (tame : right.mediaType ≠ "*/*") (differs : left.mediaType ≠ right.mediaType) :
    ∃ available, firstAccepted available (left :: rest) ≠
      firstAccepted available (right :: others) := by
  refine ⟨[left.mediaType, right.mediaType], ?_⟩
  have leading : firstAccepted [left.mediaType, right.mediaType] (left :: rest) =
      some left.mediaType := by
    simp [firstAccepted]
  have following : firstAccepted [left.mediaType, right.mediaType] (right :: others) =
      some right.mediaType := by
    simp [firstAccepted, tame]
  rw [leading, following]
  exact fun same => differs (Option.some.inj same)

theorem sortable_of_ordersRanges {accept : String} (orders : OrdersRanges qualities accept) :
    Sortable ranking (parsedRanges qualities accept) := by
  have preorder := orders.preorder
  rw [standsBefore_eq ranking] at preorder
  rcases totalPreorderOn_iff.mp preorder with ranked | same
  · exact .inl ranked
  refine .inr ⟨same, or_iff_not_imp_left.mpr fun distinct => ?_⟩
  have stable := orders.permuted (not_not.mp distinct)
  have first : ∀ entry ∈ parsedRanges qualities accept, ∃ rest, ∀ available,
      negotiateMediaType qualities available (some accept) =
        firstAccepted available (entry :: rest) := by
    intro entry listed
    obtain ⟨other, rest, permuted, parsed⟩ := exists_header_with_first listed
    have parsedPerm := parsedRanges_perm qualities permuted
    rw [parsed] at parsedPerm
    have sorted : (entry :: rest).Pairwise (StandsBefore qualities) := by
      rw [standsBefore_eq ranking]
      exact List.pairwise_of_forall_mem_list fun left leftMember right rightMember =>
        same.notBehind (parsedPerm.mem_iff.mp leftMember) (parsedPerm.mem_iff.mp rightMember)
    refine ⟨rest, fun available => ?_⟩
    rw [← stable other permuted available, negotiateMediaType, requestedTypes_eq, parsed,
      sorted.insertionSort_eq]
  intro left leftMember right rightMember
  by_contra differs
  obtain ⟨rest, leftFirst⟩ := first left leftMember
  obtain ⟨others, rightFirst⟩ := first right rightMember
  by_cases wild : right.mediaType = "*/*"
  · have tame : left.mediaType ≠ "*/*" := fun both => differs (both.trans wild.symm)
    obtain ⟨available, apart⟩ := firstAccepted_differs others rest tame (Ne.symm differs)
    exact apart ((rightFirst available).symm.trans (leftFirst available))
  · obtain ⟨available, apart⟩ := firstAccepted_differs rest others wild differs
    exact apart ((leftFirst available).symm.trans (rightFirst available))

/-- The sort can rely on the order of the ranges of a header exactly if they are sortable. -/
theorem ordersRanges_iff (ranking : Ranking qualities ι) (accept : String) :
    OrdersRanges qualities accept ↔ Sortable ranking (parsedRanges qualities accept) :=
  ⟨sortable_of_ordersRanges ranking, ordersRanges_of_sortable ranking⟩

include ranking in
/-- Sortable ranges come out of the library's sort as the stable one leaves them. -/
theorem sortedTypes_of_sortable (sort : SortBy) {accept : String}
    (sortable : Sortable ranking (parsedRanges qualities accept)) :
    sortedTypes qualities sort accept = some (requestedTypes qualities accept) :=
  sortedTypes_of_compares ((comparesOn_iff ranking).mpr
    (ordersRanges_of_sortable ranking sortable).preorder)

end Order

/-- Floats in tenths, as far as the sample headers name them. -/
def tenths : Qualities (Option Nat) where
  parse text :=
    match text with
    | "1" => some (some 10)
    | "0.8" => some (some 8)
    | "0.5" => some (some 5)
    | "0" => some (some 0)
    | "NaN" => some none
    | _ => none
  one := some 10
  compare := compareRanks

def tenthsRanking : Ranking tenths Nat := ⟨id, fun _ _ => rfl⟩

/-- NaN is next to both numbers, which are not next to each other. -/
theorem nan_breaks_order :
    ¬ OrdersRanges tenths "application/xml;q=0.5, text/html;q=NaN, application/json;q=1" := by
  intro orders
  have parsed : parsedRanges tenths
      "application/xml;q=0.5, text/html;q=NaN, application/json;q=1" =
        [⟨"application/xml", some 5⟩, ⟨"text/html", none⟩, ⟨"application/json", some 10⟩] := by
    rfl
  have preorder := orders.preorder
  rw [parsed] at preorder
  have forward := preorder.transitive ⟨"application/xml", some 5⟩ (by simp)
    ⟨"text/html", none⟩ (by simp) ⟨"application/json", some 10⟩ (by simp) (by decide) (by decide)
  exact absurd forward (by decide)

end SpecMock.Runtime
