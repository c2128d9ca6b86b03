import Mathlib.Data.List.Basic
import Mathlib.Data.List.Pairwise
import Mathlib.Order.Lattice

/-!
# Ordered maps

A sorted map is the list of its entries in strictly increasing key order.  The
operations are first given on plain lists of entries, where a lookup returns
the first entry of a key and an insertion overwrites it or lands in front of
the first larger key; `OrderedMap` packs such a list with its order.
-/

namespace SpecMock.Library

namespace SortedEntries

variable {κ α : Type} [LinearOrder κ]

/-- Keys in strictly increasing order. -/
def Sorted (entries : List (κ × α)) : Prop := entries.Pairwise fun left right => left.1 < right.1

instance (entries : List (κ × α)) : Decidable (Sorted entries) :=
  inferInstanceAs (Decidable (entries.Pairwise fun left right => left.1 < right.1))

/-- Overwrite the entry of `key`, or add one in front of the first larger key. -/
def insert (key : κ) (value : α) : List (κ × α) → List (κ × α)
  | [] => [(key, value)]
  | entry :: rest =>
      if key < entry.1 then (key, value) :: entry :: rest
      else if key = entry.1 then (key, value) :: rest
      else entry :: insert key value rest

/-- Insert the pairs of a list from left to right, later ones overwriting. -/
def collect (pairs : List (κ × α)) : List (κ × α) :=
  pairs.foldl (fun entries pair => insert pair.1 pair.2 entries) []

@[simp]
theorem lookup_insert_self (key : κ) (value : α) (entries : List (κ × α)) :
    (insert key value entries).lookup key = some value := by
  induction entries with
  | nil => simp [insert]
  | cons entry rest ih =>
      obtain ⟨first, held⟩ := entry
      unfold insert
      split
      · simp
      · split
        · simp
        next notBelow differs =>
          have missed : (key == first) = false := by simpa using differs
          simp [List.lookup_cons, missed, ih]

theorem mem_of_lookup {key : κ} {value : α} {entries : List (κ × α)}
    (found : entries.lookup key = some value) : (key, value) ∈ entries := by
  obtain ⟨before, after, split, _⟩ := List.lookup_eq_some_iff.mp found
  simp [split]

/-- Under distinct keys every entry is found. -/
theorem lookup_of_mem {entries : List (κ × α)} (distinct : (entries.map Prod.fst).Nodup)
    {entry : κ × α} (member : entry ∈ entries) : entries.lookup entry.1 = some entry.2 := by
  induction entries with
  | nil => cases member
  | cons first rest ih =>
      obtain ⟨fresh, others⟩ := List.nodup_cons.mp distinct
      rcases List.mem_cons.mp member with rfl | later
      · exact List.lookup_cons_self
      · have apart : entry.1 ≠ first.1 :=
          fun same => fresh (same ▸ List.mem_map_of_mem later)
        rw [List.lookup_cons, beq_false_of_ne apart]
        exact ih others later

theorem self_mem_insert (key : κ) (value : α) (entries : List (κ × α)) :
    (key, value) ∈ insert key value entries :=
  mem_of_lookup (lookup_insert_self key value entries)

theorem mem_insert {key : κ} {value : α} {entries : List (κ × α)} {entry : κ × α}
    (member : entry ∈ insert key value entries) : entry = (key, value) ∨ entry ∈ entries := by
  induction entries with
  | nil => simpa [insert] using member
  | cons first rest ih =>
      unfold insert at member
      split at member
      · simpa using member
      · split at member
        · rcases List.mem_cons.mp member with here | there
          · exact .inl here
          · exact .inr (List.mem_cons_of_mem _ there)
        · rcases List.mem_cons.mp member with here | there
          · exact .inr (here ▸ List.mem_cons_self)
          · exact (ih there).imp_right (List.mem_cons_of_mem _)

theorem mem_keys_insert {key query : κ} {value : α} {entries : List (κ × α)} :
    query ∈ (insert key value entries).map Prod.fst ↔
      query = key ∨ query ∈ entries.map Prod.fst := by
  induction entries with
  | nil => simp [insert]
  | cons first rest ih =>
      unfold insert
      split
      · simp
      · split
        next same => simp [same]
        next => rw [List.map_cons, List.mem_cons, ih, List.map_cons, List.mem_cons, or_left_comm]

theorem sorted_insert (key : κ) (value : α) {entries : List (κ × α)}
    (sorted : Sorted entries) : Sorted (insert key value entries) := by
  induction entries with
  | nil => exact List.pairwise_singleton _ _
  | cons first rest ih =>
      obtain ⟨above, sortedRest⟩ := List.pairwise_cons.mp sorted
      unfold insert
      split
      next below =>
        refine List.pairwise_cons.mpr ⟨?_, sorted⟩
        intro entry member
        rcases List.mem_cons.mp member with rfl | there
        · exact below
        · exact lt_trans below (above entry there)
      next notBelow =>
        split
        next same => exact List.pairwise_cons.mpr ⟨by simpa [same] using above, sortedRest⟩
        next differs =>
          refine List.pairwise_cons.mpr ⟨?_, ih sortedRest⟩
          intro entry member
          rcases mem_insert member with rfl | there
          · exact lt_of_le_of_ne (not_lt.mp notBelow) (Ne.symm differs)
          · exact above entry there

theorem sorted_collect (pairs : List (κ × α)) : Sorted (collect pairs) := by
  suffices folded : ∀ entries : List (κ × α), Sorted entries →
      Sorted (pairs.foldl (fun entries pair => insert pair.1 pair.2 entries) entries) from
    folded [] List.Pairwise.nil
  induction pairs with
  | nil => exact fun entries sorted => sorted
  | cons pair rest ih => exact fun entries sorted => ih _ (sorted_insert pair.1 pair.2 sorted)

/-- Whatever is collected stands among the pairs. -/
theorem mem_of_mem_collect {pairs : List (κ × α)} {entry : κ × α}
    (member : entry ∈ collect pairs) : entry ∈ pairs := by
  suffices folded : ∀ entries : List (κ × α),
      entry ∈ pairs.foldl (fun entries pair => insert pair.1 pair.2 entries) entries →
        entry ∈ entries ∨ entry ∈ pairs from
    (folded [] member).resolve_left List.not_mem_nil
  clear member
  induction pairs with
  | nil => exact fun entries member => .inl member
  | cons pair rest ih =>
      intro entries member
      rcases ih _ member with inserted | later
      · rcases mem_insert inserted with rfl | before
        · exact .inr List.mem_cons_self
        · exact .inl before
      · exact .inr (List.mem_cons_of_mem _ later)

theorem mem_keys_collect {query : κ} {pairs : List (κ × α)} :
    query ∈ (collect pairs).map Prod.fst ↔ query ∈ pairs.map Prod.fst := by
  suffices folded : ∀ entries : List (κ × α),
      query ∈ (pairs.foldl (fun entries pair => insert pair.1 pair.2 entries) entries).map
        Prod.fst ↔ query ∈ entries.map Prod.fst ∨ query ∈ pairs.map Prod.fst by
    simpa [collect] using folded []
  induction pairs with
  | nil => simp
  | cons pair rest ih =>
      intro entries
      rw [List.foldl_cons, ih, mem_keys_insert, List.map_cons, List.mem_cons]
      constructor
      · rintro ((here | before) | later)
        · exact .inr (.inl here)
        · exact .inl before
        · exact .inr (.inr later)
      · rintro (before | here | later)
        · exact .inl (.inr before)
        · exact .inl (.inl here)
        · exact .inr later

/-- An entry above every present key is added at the end. -/
theorem insert_of_above {key : κ} (value : α) {entries : List (κ × α)}
    (above : ∀ entry ∈ entries, entry.1 < key) :
    insert key value entries = entries ++ [(key, value)] := by
  induction entries with
  | nil => rfl
  | cons first rest ih =>
      have below : first.1 < key := above first List.mem_cons_self
      rw [insert, if_neg (not_lt.mpr (le_of_lt below)), if_neg (ne_of_gt below),
        ih fun entry member => above entry (List.mem_cons_of_mem _ member)]
      rfl

/-- Collecting entries that are already in order keeps them as they are. -/
theorem collect_of_sorted {pairs : List (κ × α)} (sorted : Sorted pairs) :
    collect pairs = pairs := by
  suffices folded : ∀ before : List (κ × α), Sorted (before ++ pairs) →
      pairs.foldl (fun entries pair => insert pair.1 pair.2 entries) before =
        before ++ pairs by
    exact folded [] sorted
  clear sorted
  induction pairs with
  | nil => simp
  | cons pair rest ih =>
      intro before sorted
      have above : ∀ entry ∈ before, entry.1 < pair.1 := fun entry member =>
        (List.pairwise_append.mp sorted).2.2 entry member pair List.mem_cons_self
      rw [List.foldl_cons, insert_of_above pair.2 above, ih (before ++ [pair])]
      · simp
      · simpa using sorted

end SortedEntries

/-- A map whose entries stand in strictly increasing key order. -/
structure OrderedMap (κ α : Type) [LinearOrder κ] where
  entries : List (κ × α)
  sorted : SortedEntries.Sorted entries
  deriving DecidableEq

namespace OrderedMap

variable {κ α : Type} [LinearOrder κ]

def empty : OrderedMap κ α := ⟨[], List.Pairwise.nil⟩

instance : EmptyCollection (OrderedMap κ α) := ⟨empty⟩

def get (map : OrderedMap κ α) (key : κ) : Option α := map.entries.lookup key

def containsKey (map : OrderedMap κ α) (key : κ) : Bool := (map.get key).isSome

def keys (map : OrderedMap κ α) : List κ := map.entries.map Prod.fst

/-- The map of the pairs of a list, later pairs overwriting earlier ones. -/
def collect (pairs : List (κ × α)) : OrderedMap κ α :=
  ⟨SortedEntries.collect pairs, SortedEntries.sorted_collect pairs⟩

theorem get_mem {map : OrderedMap κ α} {key : κ} {value : α}
    (found : map.get key = some value) : (key, value) ∈ map.entries :=
  SortedEntries.mem_of_lookup found

/-- The keys that are looked up with success are those of the entries. -/
theorem containsKey_iff {map : OrderedMap κ α} {key : κ} :
    map.containsKey key = true ↔ ∃ value, (key, value) ∈ map.entries := by
  unfold containsKey
  constructor
  · intro present
    obtain ⟨value, found⟩ := Option.isSome_iff_exists.mp present
    exact ⟨value, get_mem found⟩
  · rintro ⟨value, member⟩
    cases found : map.get key with
    | some held => rfl
    | none => exact absurd (beq_self_eq_true key) (by
        simpa using List.lookup_eq_none_iff.mp found (key, value) member)

theorem mem_keys {map : OrderedMap κ α} {key : κ} :
    key ∈ map.keys ↔ map.containsKey key = true := by
  rw [containsKey_iff, keys, List.mem_map]
  constructor
  · rintro ⟨⟨_, value⟩, member, rfl⟩
    exact ⟨value, member⟩
  · rintro ⟨value, member⟩
    exact ⟨(key, value), member, rfl⟩

theorem keys_sorted (map : OrderedMap κ α) : map.keys.Pairwise (· < ·) :=
  List.pairwise_map.mpr map.sorted

theorem keys_nodup (map : OrderedMap κ α) : map.keys.Nodup :=
  map.keys_sorted.imp fun below => ne_of_lt below

/-- In a sorted map every entry is found under its key. -/
theorem get_of_mem {map : OrderedMap κ α} {key : κ} {value : α}
    (member : (key, value) ∈ map.entries) : map.get key = some value := by
  obtain ⟨entries, sorted⟩ := map
  unfold get
  dsimp only at member ⊢
  induction entries with
  | nil => cases member
  | cons first rest ih =>
      obtain ⟨above, sortedRest⟩ := List.pairwise_cons.mp sorted
      rcases List.mem_cons.mp member with rfl | there
      · simp
      · have missed : (key == first.1) = false := by
          simpa using ne_of_gt (above _ there)
        rw [List.lookup_cons, missed]
        exact ih sortedRest there

/--
Rebuilding a map under a strictly monotone renaming of its keys looks every
renamed key up to the image of the old value.
-/
theorem get_collect_map {κ' β : Type} [LinearOrder κ'] {rename : κ → κ'}
    (monotone : ∀ left right, left < right → rename left < rename right)
    (image : α → β) (map : OrderedMap κ α) (key : κ) :
    (collect (map.entries.map fun entry => (rename entry.1, image entry.2))).get (rename key) =
      (map.get key).map image := by
  have sorted : SortedEntries.Sorted
      (map.entries.map fun entry => (rename entry.1, image entry.2)) :=
    List.pairwise_map.mpr (map.sorted.imp fun below => monotone _ _ below)
  have injective : ∀ left right, rename left = rename right → left = right := by
    intro left right same
    rcases lt_trichotomy left right with below | equal | above
    · exact absurd same (ne_of_lt (monotone _ _ below))
    · exact equal
    · exact absurd same (ne_of_gt (monotone _ _ above))
  unfold get
  simp only [collect, SortedEntries.collect_of_sorted sorted]
  induction map.entries with
  | nil => rfl
  | cons entry rest ih =>
      obtain ⟨first, held⟩ := entry
      simp only [List.map_cons, List.lookup_cons, ih]
      by_cases same : key = first
      · simp [same]
      · have missed : rename key ≠ rename first := fun equal => same (injective _ _ equal)
        have before : (key == first) = false := by simpa using same
        have after : (rename key == rename first) = false := by simpa using missed
        simp [before, after]

end OrderedMap

end SpecMock.Library
