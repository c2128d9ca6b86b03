import SpecMock.Runtime.AcceptOrder
import Mathlib.Data.Finset.Max

/-!
# The type that an `Accept` header asks for

A declared type is granted the quality of the most specific ranges that match
it: those that name it, else those for its type, else the wildcard.  The
negotiation takes the best range that is the wildcard or names a declared type,
so it knows neither the ranges for a type nor the refusal by a quality of zero.
-/

namespace SpecMock.Runtime

open SpecMock.Library SpecMock.Core

/-- A ranking in which qualities go from zero to one, the quality of a range that states none. -/
structure UnitRanking {κ : Type} (qualities : Qualities κ) (ι : Type) [LinearOrder ι] extends
    Ranking qualities ι where
  zero : ι
  one : ι
  rank_one : rank qualities.one = some one

section Grants

variable {κ ι : Type} [LinearOrder ι] {qualities : Qualities κ}

/-- The range for all subtypes of the type of a media type. -/
def typeRange (mediaType : String) : Option String :=
  (Text.splitOnce '/' mediaType).map fun parts => parts.1 ++ "/*"

def namesType (declared : String) (entry : MediaEntry κ) : Bool := entry.mediaType == declared

def coversType (declared : String) (entry : MediaEntry κ) : Bool :=
  some entry.mediaType == typeRange declared

def isWildcard (entry : MediaEntry κ) : Bool := entry.mediaType == "*/*"

/-- The most specific ranges that match a declared type. -/
def mostSpecific (entries : List (MediaEntry κ)) (declared : String) : List (MediaEntry κ) :=
  if entries.any (namesType declared) then entries.filter (namesType declared)
  else if entries.any (coversType declared) then entries.filter (coversType declared)
  else entries.filter isWildcard

variable (ranking : UnitRanking qualities ι)

/-- The numbers that the qualities of some ranges are. -/
def UnitRanking.qualitiesOf (entries : List (MediaEntry κ)) : Set ι :=
  {quality | ∃ entry ∈ entries, ranking.of entry = some quality}

/-- A declared type is admitted with a quality, which is above zero. -/
def Grants (entries : List (MediaEntry κ)) (declared : String) (quality : ι) : Prop :=
  ranking.zero < quality ∧
    IsGreatest (ranking.qualitiesOf (mostSpecific entries declared)) quality

/-- The type is granted a quality, and none of the declared types a higher one. -/
def GrantedMost (entries : List (MediaEntry κ)) (available : List String) (chosen : String) :
    Prop :=
  ∃ quality, Grants ranking entries chosen quality ∧
    ∀ other ∈ available, ∀ better, Grants ranking entries other better → better ≤ quality

/-- The qualities of a header are numbers from zero to one. -/
def UnitQualities (accept : String) : Prop :=
  ∀ entry ∈ parsedRanges qualities accept, ∃ quality, ranking.of entry = some quality ∧
    ranking.zero ≤ quality ∧ quality ≤ ranking.one

/-- The negotiation honours the qualities of the header. -/
structure HonoursQualities (available : List String) (accept : String) : Prop where
  /-- A type is selected exactly if the header admits one. -/
  given : (negotiateMediaType qualities available (some accept)).isSome = true ↔
    ∃ declared ∈ available, ∃ quality,
      Grants ranking (parsedRanges qualities accept) declared quality
  declared : ∀ chosen, negotiateMediaType qualities available (some accept) = some chosen →
    chosen ∈ available
  /-- It is not refused, and no other one is granted more. -/
  best : ∀ chosen, negotiateMediaType qualities available (some accept) = some chosen →
    GrantedMost ranking (parsedRanges qualities accept) available chosen

/-- A range that is the wildcard or names a declared type. -/
def decides (available : List String) (entry : MediaEntry κ) : Bool :=
  isWildcard entry || decide (entry.mediaType ∈ available)

/-- No range for a type grants more than a quality to a declared type that no range names. -/
def CoversAtMost (available : List String) (entries : List (MediaEntry κ)) (bound : ι) : Prop :=
  ∀ declared ∈ available, entries.any (namesType declared) = false →
    ∀ entry ∈ entries, coversType declared entry = true →
      ∀ quality, ranking.of entry = some quality → quality ≤ bound

/--
The best range that is the wildcard or names a declared type is right: without
one, no range for a type admits a declared type; one that names a type has a
quality above zero, and no range for a type grants more to a type that no range
names; and under the wildcard, the first declared type is granted the most.
-/
def DecidesRight (available : List String) (accept : String) : Prop :=
  match (requestedTypes qualities accept).find? (decides available) with
  | none => CoversAtMost ranking available (parsedRanges qualities accept) ranking.zero
  | some entry =>
      if isWildcard entry then
        ∀ first, available.head? = some first →
          GrantedMost ranking (parsedRanges qualities accept) available first
      else ∃ quality, ranking.of entry = some quality ∧ ranking.zero < quality ∧
        CoversAtMost ranking available (parsedRanges qualities accept) quality

/-- The negotiation takes what the range that decides points at. -/
theorem firstAccepted_eq_find (available : List String) (entries : List (MediaEntry κ)) :
    firstAccepted available entries = (entries.find? (decides available)).bind fun entry =>
      if isWildcard entry then available.head? else some entry.mediaType := by
  induction entries with
  | nil => rfl
  | cons entry rest ih =>
      rw [firstAccepted, List.find?_cons, ih]
      by_cases wild : entry.mediaType = "*/*"
      · simp [decides, isWildcard, wild]
      · have tame : isWildcard entry = false := by simpa [isWildcard] using wild
        by_cases named : entry.mediaType ∈ available
        · simp [decides, tame, wild, named]
        · simp [decides, tame, wild, named]

variable {ranking} {accept : String}

theorem ranked_of_units (units : UnitQualities ranking accept) :
    ∀ entry ∈ parsedRanges qualities accept, ranking.of entry ≠ none := by
  intro entry member unranked
  obtain ⟨quality, rank, -⟩ := units entry member
  rw [unranked] at rank
  cases rank

/-- The range that decides is the best one of its kind. -/
theorem decides_best (units : UnitQualities ranking accept) {available : List String}
    {entry : MediaEntry κ}
    (found : (requestedTypes qualities accept).find? (decides available) = some entry) :
    entry ∈ parsedRanges qualities accept ∧ decides available entry = true ∧
      ∃ quality, ranking.of entry = some quality ∧
        ∀ other ∈ parsedRanges qualities accept, decides available other = true →
          ∀ rival, ranking.of other = some rival → rival ≤ quality := by
  have ranked := ranked_of_units units
  have preorder : TotalPreorderOn (StandsBefore qualities) (parsedRanges qualities accept) := by
    rw [standsBefore_eq ranking.toRanking]
    exact totalPreorderOn_iff.mpr (.inl ranked)
  have sorted := standsBefore_requestedTypes preorder
  have permuted := requestedTypes_perm qualities accept
  obtain ⟨chosen, before, after, split, earlier⟩ := List.find?_eq_some_iff_append.mp found
  have member : entry ∈ requestedTypes qualities accept := by simp [split]
  have listed := permuted.mem_iff.mp member
  obtain ⟨quality, rank, -⟩ := units entry listed
  refine ⟨listed, chosen, quality, rank, ?_⟩
  intro other otherListed otherDecides rival rivalRank
  have otherMember := permuted.mem_iff.mpr otherListed
  rw [split, List.mem_append, List.mem_cons] at otherMember
  rcases otherMember with early | rfl | late
  · have skipped := earlier other early
    rw [otherDecides] at skipped
    cases skipped
  · rw [rank, Option.some.injEq] at rivalRank
    exact rivalRank.ge
  · rw [split, standsBefore_eq ranking.toRanking] at sorted
    have behind := List.rel_of_pairwise_cons (List.pairwise_append.mp sorted).2.1 late
    exact compareRanks_ne_gt_iff.mp behind rival quality rivalRank rank

/-- The best of some ranges grants its quality, if any of them has one above zero. -/
theorem exists_greatest {entries : List (MediaEntry κ)} {entry : MediaEntry κ} {quality : ι}
    (member : entry ∈ entries) (rank : ranking.of entry = some quality) :
    ∃ greatest, quality ≤ greatest ∧ IsGreatest (ranking.qualitiesOf entries) greatest := by
  have same : ranking.qualitiesOf entries = ↑(entries.filterMap ranking.of).toFinset := by
    ext rival
    simp [UnitRanking.qualitiesOf]
  have inside : quality ∈ (entries.filterMap ranking.of).toFinset := by
    rw [List.mem_toFinset, List.mem_filterMap]
    exact ⟨entry, member, rank⟩
  refine ⟨(entries.filterMap ranking.of).toFinset.max' ⟨quality, inside⟩, ?_, ?_⟩
  · exact Finset.le_max' _ _ inside
  · rw [same]
    exact Finset.isGreatest_max' _ _

/-- A quality that is granted is one of a range that decides, or of a range for a type. -/
theorem grants_le {entries : List (MediaEntry κ)} {available : List String} {declared : String}
    {bound quality : ι} (member : declared ∈ available)
    (decided : ∀ entry ∈ entries, decides available entry = true →
      ∀ rival, ranking.of entry = some rival → rival ≤ bound)
    (covered : CoversAtMost ranking available entries bound)
    (granted : Grants ranking entries declared quality) : quality ≤ bound := by
  obtain ⟨entry, specific, rank⟩ := granted.2.1
  unfold mostSpecific at specific
  split at specific
  next =>
    obtain ⟨listed, named⟩ := List.mem_filter.mp specific
    refine decided entry listed ?_ quality rank
    rw [decides, beq_iff_eq.mp named, decide_eq_true member, Bool.or_true]
  next unnamed =>
    split at specific
    · obtain ⟨listed, covers⟩ := List.mem_filter.mp specific
      exact covered declared member (Bool.eq_false_of_not_eq_true unnamed) entry listed covers
        quality rank
    · obtain ⟨listed, wild⟩ := List.mem_filter.mp specific
      refine decided entry listed ?_ quality rank
      rw [decides, wild, Bool.true_or]

theorem coversAtMost_of_grants {entries : List (MediaEntry κ)} {available : List String}
    {bound : ι} (above : ranking.zero ≤ bound)
    (most : ∀ declared ∈ available, ∀ quality, Grants ranking entries declared quality →
      quality ≤ bound) : CoversAtMost ranking available entries bound := by
  intro declared member unnamed entry listed covers quality rank
  have specific : entry ∈ mostSpecific entries declared := by
    rw [mostSpecific, if_neg (by simp [unnamed]),
      if_pos (List.any_eq_true.mpr ⟨entry, listed, covers⟩)]
    exact List.mem_filter.mpr ⟨listed, covers⟩
  obtain ⟨greatest, below, isGreatest⟩ := exists_greatest specific rank
  refine below.trans ?_
  by_cases positive : ranking.zero < greatest
  · exact most declared member greatest ⟨positive, isGreatest⟩
  · exact (not_lt.mp positive).trans above

/-- The best range that names a declared type has the greatest of its qualities. -/
theorem isGreatest_of_named {entries : List (MediaEntry κ)} {entry : MediaEntry κ} {quality : ι}
    {available : List String} (listed : entry ∈ entries) (named : entry.mediaType ∈ available)
    (rank : ranking.of entry = some quality)
    (best : ∀ other ∈ entries, decides available other = true →
      ∀ rival, ranking.of other = some rival → rival ≤ quality) :
    IsGreatest (ranking.qualitiesOf (mostSpecific entries entry.mediaType)) quality := by
  have present : entries.any (namesType entry.mediaType) = true :=
    List.any_eq_true.mpr ⟨entry, listed, by simp [namesType]⟩
  rw [mostSpecific, if_pos present]
  constructor
  · exact ⟨entry, List.mem_filter.mpr ⟨listed, by simp [namesType]⟩, rank⟩
  · rintro rival ⟨other, filtered, otherRank⟩
    obtain ⟨otherListed, same⟩ := List.mem_filter.mp filtered
    refine best other otherListed ?_ rival otherRank
    rw [decides, beq_iff_eq.mp same, decide_eq_true named, Bool.or_true]

/-- A header is honoured if what is selected is declared and granted the most. -/
theorem honoursQualities_of_most {available : List String} {chosen : String}
    (selected : negotiateMediaType qualities available (some accept) = some chosen)
    (declared : chosen ∈ available)
    (most : GrantedMost ranking (parsedRanges qualities accept) available chosen) :
    HonoursQualities ranking available accept := by
  obtain ⟨quality, granted, -⟩ := id most
  constructor
  · rw [selected]
    exact iff_of_true rfl ⟨chosen, declared, quality, granted⟩
  · intro other same
    rw [selected, Option.some.injEq] at same
    exact same ▸ declared
  · intro other same
    rw [selected, Option.some.injEq] at same
    exact same ▸ most

/-- A header is honoured without a selection exactly if it grants nothing. -/
theorem honoursQualities_of_none {available : List String}
    (unselected : negotiateMediaType qualities available (some accept) = none) :
    HonoursQualities ranking available accept ↔ ∀ declared ∈ available, ∀ quality,
      ¬ Grants ranking (parsedRanges qualities accept) declared quality := by
  constructor
  · intro honours declared member quality granted
    have given := honours.given.mpr ⟨declared, member, quality, granted⟩
    rw [unselected] at given
    cases given
  · intro ungranted
    constructor
    · rw [unselected]
      refine iff_of_false (by simp) ?_
      rintro ⟨declared, member, quality, granted⟩
      exact ungranted declared member quality granted
    · simp [unselected]
    · simp [unselected]

/--
The negotiation honours a header of numbers from zero to one exactly if the
range that decides is right.
-/
theorem negotiation_honours_iff (ranking : UnitRanking qualities ι) (available : List String)
    (accept : String) (units : UnitQualities ranking accept) :
    HonoursQualities ranking available accept ↔ DecidesRight ranking available accept := by
  have negotiated : negotiateMediaType qualities available (some accept) = _ :=
    firstAccepted_eq_find available (requestedTypes qualities accept)
  unfold DecidesRight
  cases found : (requestedTypes qualities accept).find? (decides available) with
  | none =>
      rw [found] at negotiated
      rw [honoursQualities_of_none negotiated]
      have undecided : ∀ entry ∈ parsedRanges qualities accept, decides available entry = true →
          ∀ rival, ranking.of entry = some rival → rival ≤ ranking.zero := by
        intro entry listed decided
        have member := (requestedTypes_perm qualities accept).mem_iff.mpr listed
        exact absurd decided (List.find?_eq_none.mp found entry member)
      constructor
      · intro ungranted
        exact coversAtMost_of_grants le_rfl fun declared member quality granted =>
          absurd granted (ungranted declared member quality)
      · intro covered declared member quality granted
        exact absurd granted.1 (grants_le member undecided covered granted).not_gt
  | some entry =>
      rw [found, Option.bind_some] at negotiated
      obtain ⟨listed, decided, quality, rank, best⟩ := decides_best units found
      dsimp only
      split
      next wild =>
        rw [if_pos wild] at negotiated
        cases first : available.head? with
        | none =>
            rw [first] at negotiated
            rw [honoursQualities_of_none negotiated, List.head?_eq_none_iff.mp first]
            simp
        | some chosen =>
            rw [first] at negotiated
            constructor
            · intro honours other same
              cases same
              exact honours.best chosen negotiated
            · intro most
              exact honoursQualities_of_most negotiated (List.mem_of_mem_head? first)
                (most chosen rfl)
      next tame =>
        rw [if_neg tame] at negotiated
        have named : entry.mediaType ∈ available := by simpa [decides, tame] using decided
        have isGreatest := isGreatest_of_named listed named rank best
        constructor
        · intro honours
          obtain ⟨granted, ⟨positive, greatest⟩, most⟩ := honours.best _ negotiated
          rw [greatest.unique isGreatest] at positive most
          exact ⟨quality, rank, positive, coversAtMost_of_grants positive.le most⟩
        · rintro ⟨bound, sameRank, positive, covered⟩
          rw [rank, Option.some.injEq] at sameRank
          subst sameRank
          refine honoursQualities_of_most negotiated named ⟨quality, ⟨positive, isGreatest⟩, ?_⟩
          exact fun other member better granted => grants_le member best covered granted

end Grants

def tenthsUnits : UnitRanking tenths Nat :=
  { toRanking := tenthsRanking, zero := 0, one := 10, rank_one := rfl }

/-- A header that names both declared types is honoured. -/
theorem named_types_honoured :
    HonoursQualities tenthsUnits ["application/xml", "application/json"]
      "application/xml;q=0.5, application/json;q=0.8" := by
  have parsed : parsedRanges tenths "application/xml;q=0.5, application/json;q=0.8" =
      [⟨"application/xml", some 5⟩, ⟨"application/json", some 8⟩] := by rfl
  have units : UnitQualities tenthsUnits "application/xml;q=0.5, application/json;q=0.8" := by
    intro entry listed
    rw [parsed] at listed
    rcases List.mem_pair.mp listed with rfl | rfl
    · exact ⟨5, rfl, by decide, by decide⟩
    · exact ⟨8, rfl, by decide, by decide⟩
  refine (negotiation_honours_iff tenthsUnits _ _ units).mpr ?_
  have found : (requestedTypes tenths "application/xml;q=0.5, application/json;q=0.8").find?
      (decides ["application/xml", "application/json"]) = some ⟨"application/json", some 8⟩ := by
    rfl
  rw [DecidesRight, found, parsed]
  refine ⟨8, rfl, by decide, ?_⟩
  intro declared member unnamed
  rcases List.mem_pair.mp member with rfl | rfl
  · exact absurd unnamed (by decide)
  · exact absurd unnamed (by decide)

/-- The only declared type is selected, although the header refuses it. -/
theorem refused_type_selected :
    negotiateMediaType tenths ["application/json"] (some "application/json;q=0") =
      some "application/json" ∧
    ¬ HonoursQualities tenthsUnits ["application/json"] "application/json;q=0" := by
  have selected : negotiateMediaType tenths ["application/json"] (some "application/json;q=0") =
      some "application/json" := by rfl
  refine ⟨selected, fun honours => ?_⟩
  have parsed : parsedRanges tenths "application/json;q=0" = [⟨"application/json", some 0⟩] := by
    rfl
  obtain ⟨quality, ⟨positive, ⟨entry, specific, rank⟩, -⟩, -⟩ :=
    honours.best "application/json" selected
  have only : mostSpecific (parsedRanges tenths "application/json;q=0") "application/json" =
      [⟨"application/json", some 0⟩] := by
    rw [parsed]
    rfl
  rw [only, List.mem_singleton] at specific
  subst specific
  cases rank
  exact absurd positive (by decide)

end SpecMock.Runtime
