import SpecMock.Library.OrderedMap

/-!
# Merging entries into a sorted map

Entries are merged into a map where it has no entry of their key; the entries
the map has win over the merged ones, and earlier merged ones over later ones.
What is merged is determined by lookups, so merging can be regrouped.
-/

namespace SpecMock.Library.SortedEntries

variable {κ α β : Type} [LinearOrder κ]

/-- Add an entry, unless the key has one. -/
def insertMissing (key : κ) (value : α) (entries : List (κ × α)) : List (κ × α) :=
  match entries.lookup key with
  | some _ => entries
  | none => insert key value entries

/-- Merge entries from left to right. -/
def addMissing (entries added : List (κ × α)) : List (κ × α) :=
  added.foldl (fun entries entry => insertMissing entry.1 entry.2 entries) entries

/-- Change the values of entries, not their keys. -/
def mapValues (change : α → β) (entries : List (κ × α)) : List (κ × β) :=
  entries.map fun entry => (entry.1, change entry.2)

theorem lookup_cons_eq (entry : κ × α) (rest : List (κ × α)) (key : κ) :
    List.lookup key (entry :: rest) =
      if key = entry.1 then some entry.2 else rest.lookup key := by
  obtain ⟨first, held⟩ := entry
  rw [List.lookup_cons]
  by_cases same : key = first
  · simp [same]
  · have apart : (key == first) = false := by simpa using same
    simp [same, apart]

theorem lookup_insert (key query : κ) (value : α) (entries : List (κ × α)) :
    (insert key value entries).lookup query =
      if query = key then some value else entries.lookup query := by
  by_cases same : query = key
  · subst same
    simp
  · rw [if_neg same]
    induction entries with
    | nil => simp [insert, lookup_cons_eq, same]
    | cons entry rest ih =>
        unfold insert
        split
        · simp [lookup_cons_eq, same]
        · split
          next equal => simp [lookup_cons_eq, same, ← equal]
          next => simp [lookup_cons_eq, ih]

/-- Entries with different keys win over those of the map they are inserted into. -/
theorem lookup_foldl_insert {pairs : List (κ × α)} (distinct : (pairs.map Prod.fst).Nodup)
    (entries : List (κ × α)) (query : κ) :
    (pairs.foldl (fun entries pair => insert pair.1 pair.2 entries) entries).lookup query =
      (pairs.lookup query).or (entries.lookup query) := by
  induction pairs generalizing entries with
  | nil => rfl
  | cons pair rest ih =>
      rw [List.map_cons, List.nodup_cons] at distinct
      rw [List.foldl_cons, ih distinct.2, lookup_insert, lookup_cons_eq]
      by_cases same : query = pair.1
      · have missed : rest.lookup query = none := by
          rw [List.lookup_eq_none_iff]
          intro later member
          have other : later.1 ≠ pair.1 := fun equal =>
            distinct.1 (equal ▸ List.mem_map_of_mem member)
          simpa [same] using other.symm
        rw [missed, if_pos same, if_pos same]
        rfl
      · rw [if_neg same, if_neg same]

theorem insert_cons_of_lt {key first : κ} (below : key < first) (value kept : α)
    (rest : List (κ × α)) :
    insert key value ((first, kept) :: rest) = (key, value) :: (first, kept) :: rest := by
  rw [insert, if_pos below]

theorem insert_cons_of_gt {key first : κ} (above : first < key) (value kept : α)
    (rest : List (κ × α)) :
    insert key value ((first, kept) :: rest) = (first, kept) :: insert key value rest := by
  rw [insert, if_neg above.not_gt, if_neg above.ne']

theorem insert_cons_eq (key : κ) (held value : α) (rest : List (κ × α)) :
    insert key value ((key, held) :: rest) = (key, value) :: rest := by
  rw [insert, if_neg (lt_irrefl key), if_pos rfl]

/-- Insertions of different keys commute. -/
theorem insert_comm {key other : κ} (differs : key ≠ other) (value held : α)
    (entries : List (κ × α)) :
    insert key value (insert other held entries) =
      insert other held (insert key value entries) := by
  wlog ordered : key < other generalizing key other value held
  · have swapped : other < key := lt_of_le_of_ne (not_lt.mp ordered) differs.symm
    exact (this differs.symm held value swapped).symm
  induction entries with
  | nil =>
      calc
        insert key value [(other, held)] = [(key, value), (other, held)] :=
          insert_cons_of_lt ordered value held []
        _ = insert other held [(key, value)] :=
          (insert_cons_of_gt ordered held value []).symm
  | cons entry rest ih =>
      obtain ⟨first, kept⟩ := entry
      rcases lt_trichotomy key first with below | rfl | above
      · have passed : ∀ entries, insert other held ((key, value) :: entries) =
            (key, value) :: insert other held entries :=
          fun entries => insert_cons_of_gt ordered held value entries
        rw [insert_cons_of_lt below, passed]
        rcases lt_trichotomy other first with lower | rfl | higher
        · rw [insert_cons_of_lt lower, insert_cons_of_lt ordered]
        · rw [insert_cons_eq, insert_cons_of_lt ordered]
        · rw [insert_cons_of_gt higher, insert_cons_of_lt below]
      · rw [insert_cons_of_gt ordered, insert_cons_eq, insert_cons_eq,
          insert_cons_of_gt ordered]
      · have higher : first < other := above.trans ordered
        rw [insert_cons_of_gt higher, insert_cons_of_gt above, insert_cons_of_gt above,
          insert_cons_of_gt higher, ih]

/-- A missing key is inserted between two parts of the entries. -/
theorem exists_split_insert {key : κ} (value : α) {entries : List (κ × α)}
    (missing : entries.lookup key = none) :
    ∃ before after, entries = before ++ after ∧
      insert key value entries = before ++ (key, value) :: after := by
  induction entries with
  | nil => exact ⟨[], [], rfl, rfl⟩
  | cons entry rest ih =>
      rw [lookup_cons_eq] at missing
      have differs : key ≠ entry.1 := by
        intro same
        simp [same] at missing
      rw [if_neg differs] at missing
      rw [insert, if_neg differs]
      split
      · exact ⟨[], entry :: rest, rfl, rfl⟩
      · obtain ⟨before, after, rfl, inserted⟩ := ih missing
        rw [inserted]
        exact ⟨entry :: before, after, rfl, rfl⟩

theorem lookup_insertMissing (key query : κ) (value : α) (entries : List (κ × α)) :
    (insertMissing key value entries).lookup query =
      (entries.lookup query).or (if query = key then some value else none) := by
  unfold insertMissing
  cases held : entries.lookup key with
  | some found =>
      by_cases same : query = key
      · simp [same, held]
      · simp [same]
  | none =>
      rw [lookup_insert]
      by_cases same : query = key
      · simp [same, held]
      · simp [same]

theorem insertMissing_of_present {key : κ} {value held : α} {entries : List (κ × α)}
    (present : entries.lookup key = some held) : insertMissing key value entries = entries := by
  simp [insertMissing, present]

theorem insertMissing_comm {key other : κ} (differs : key ≠ other) (value held : α)
    (entries : List (κ × α)) :
    insertMissing key value (insertMissing other held entries) =
      insertMissing other held (insertMissing key value entries) := by
  have apart : other ≠ key := Ne.symm differs
  cases first : entries.lookup key with
  | some _ =>
      have still := lookup_insertMissing other key held entries
      rw [first, Option.some_or] at still
      rw [insertMissing_of_present first, insertMissing_of_present still]
  | none =>
      cases second : entries.lookup other with
      | some _ =>
          have still := lookup_insertMissing key other value entries
          rw [second, Option.some_or] at still
          rw [insertMissing_of_present second, insertMissing_of_present still]
      | none =>
          simp only [insertMissing, first, second, lookup_insert, if_neg differs, if_neg apart]
          exact insert_comm differs value held entries

theorem lookup_filter (keep : κ → Bool) {key : κ} (kept : keep key = true)
    (entries : List (κ × α)) :
    (entries.filter fun entry => keep entry.1).lookup key = entries.lookup key := by
  induction entries with
  | nil => rfl
  | cons entry rest ih =>
      by_cases passes : keep entry.1 = true
      · rw [List.filter_cons_of_pos (by simpa using passes), lookup_cons_eq, lookup_cons_eq, ih]
      · have differs : key ≠ entry.1 := by
          rintro rfl
          exact passes kept
        rw [List.filter_cons_of_neg (by simpa using passes), lookup_cons_eq, if_neg differs, ih]

theorem lookup_mapValues (change : α → β) (key : κ) (entries : List (κ × α)) :
    (mapValues change entries).lookup key = (entries.lookup key).map change := by
  induction entries with
  | nil => rfl
  | cons entry rest ih =>
      unfold mapValues at ih ⊢
      rw [List.map_cons, lookup_cons_eq, lookup_cons_eq, ih]
      split <;> rfl

theorem mapValues_insert (change : α → β) (key : κ) (value : α) (entries : List (κ × α)) :
    mapValues change (insert key value entries) =
      insert key (change value) (mapValues change entries) := by
  induction entries with
  | nil => rfl
  | cons entry rest ih =>
      unfold mapValues at ih ⊢
      rw [List.map_cons, insert, insert]
      split
      · rfl
      · split
        · rfl
        · rw [List.map_cons, ih]

/-- A change of values that may depend on the key. -/
theorem lookup_mapKeyed (change : κ → α → β) (key : κ) (entries : List (κ × α)) :
    (entries.map fun entry => (entry.1, change entry.1 entry.2)).lookup key =
      (entries.lookup key).map (change key) := by
  induction entries with
  | nil => rfl
  | cons entry rest ih =>
      rw [List.map_cons, lookup_cons_eq, lookup_cons_eq, ih]
      by_cases same : key = entry.1
      · simp [same]
      · simp [same]

theorem addMissing_cons (entries : List (κ × α)) (entry : κ × α) (rest : List (κ × α)) :
    addMissing entries (entry :: rest) =
      addMissing (insertMissing entry.1 entry.2 entries) rest := rfl

theorem addMissing_append (entries first second : List (κ × α)) :
    addMissing entries (first ++ second) = addMissing (addMissing entries first) second :=
  List.foldl_append

/-- The entries of the map win over the merged ones. -/
theorem lookup_addMissing (entries added : List (κ × α)) (query : κ) :
    (addMissing entries added).lookup query =
      (entries.lookup query).or (added.lookup query) := by
  induction added generalizing entries with
  | nil => simp [addMissing]
  | cons entry rest ih =>
      rw [addMissing_cons, ih, lookup_insertMissing, lookup_cons_eq, Option.or_assoc]
      by_cases same : query = entry.1
      · simp [same]
      · simp [same]

theorem mem_of_mem_addMissing {entries added : List (κ × α)} {entry : κ × α}
    (member : entry ∈ addMissing entries added) :
    entry ∈ entries ∨ entries.lookup entry.1 = none ∧ added.lookup entry.1 = some entry.2 := by
  induction added generalizing entries with
  | nil => exact .inl member
  | cons first rest ih =>
      rw [addMissing_cons] at member
      rcases ih member with inside | ⟨missing, found⟩
      · cases held : entries.lookup first.1 with
        | some value =>
            rw [insertMissing_of_present held] at inside
            exact .inl inside
        | none =>
            simp only [insertMissing, held] at inside
            rcases mem_insert inside with rfl | old
            · exact .inr ⟨held, by simp [lookup_cons_eq]⟩
            · exact .inl old
      · rw [lookup_insertMissing, Option.or_eq_none_iff] at missing
        have differs : entry.1 ≠ first.1 := by
          intro same
          simp [same] at missing
        exact .inr ⟨missing.1, by rw [lookup_cons_eq, if_neg differs, found]⟩

theorem mem_insertMissing_of_mem {key : κ} {value : α} {entries : List (κ × α)} {entry : κ × α}
    (member : entry ∈ entries) : entry ∈ insertMissing key value entries := by
  unfold insertMissing
  cases held : entries.lookup key with
  | some found => exact member
  | none =>
      obtain ⟨before, after, rfl, inserted⟩ := exists_split_insert value held
      rw [inserted]
      simp only [List.mem_append, List.mem_cons] at member ⊢
      exact member.imp_right .inr

theorem mem_addMissing_of_mem {entries added : List (κ × α)} {entry : κ × α}
    (member : entry ∈ entries) : entry ∈ addMissing entries added := by
  induction added generalizing entries with
  | nil => exact member
  | cons first rest ih => exact ih (mem_insertMissing_of_mem member)

/-- Values can be changed before or after a merge. -/
theorem addMissing_mapValues (change : α → β) (entries added : List (κ × α)) :
    addMissing (mapValues change entries) (mapValues change added) =
      mapValues change (addMissing entries added) := by
  induction added generalizing entries with
  | nil => rfl
  | cons entry rest ih =>
      change addMissing (insertMissing entry.1 (change entry.2) (mapValues change entries))
        (mapValues change rest) = _
      have once : insertMissing entry.1 (change entry.2) (mapValues change entries) =
          mapValues change (insertMissing entry.1 entry.2 entries) := by
        unfold insertMissing
        rw [lookup_mapValues]
        cases entries.lookup entry.1 with
        | some held => rfl
        | none => exact (mapValues_insert change entry.1 entry.2 entries).symm
      rw [once, ih, addMissing_cons]

/-- Only what the lookups of merged entries find, and the map is missing, matters. -/
theorem addMissing_congr {change alter : α → β} {entries : List (κ × β)} {added : List (κ × α)}
    (same : ∀ key value, added.lookup key = some value → entries.lookup key = none →
      change value = alter value) :
    addMissing entries (mapValues change added) = addMissing entries (mapValues alter added) := by
  induction added generalizing entries with
  | nil => rfl
  | cons entry rest ih =>
      change addMissing (insertMissing entry.1 (change entry.2) entries) (mapValues change rest) =
        addMissing (insertMissing entry.1 (alter entry.2) entries) (mapValues alter rest)
      have once : insertMissing entry.1 (change entry.2) entries =
          insertMissing entry.1 (alter entry.2) entries := by
        cases held : entries.lookup entry.1 with
        | some value => rw [insertMissing_of_present held, insertMissing_of_present held]
        | none => rw [same entry.1 entry.2 (by simp [lookup_cons_eq]) held]
      rw [once]
      apply ih
      intro key value found missing
      rw [lookup_insertMissing, Option.or_eq_none_iff] at missing
      have differs : key ≠ entry.1 := by
        intro equal
        simp [equal] at missing
      exact same key value (by rw [lookup_cons_eq, if_neg differs, found]) missing.1

/-- A key that no merged entry has can be added before or after the merge. -/
theorem addMissing_insertMissing {key : κ} (value : α) (entries : List (κ × α))
    {added : List (κ × α)} (apart : ∀ entry ∈ added, key ≠ entry.1) :
    addMissing (insertMissing key value entries) added =
      insertMissing key value (addMissing entries added) := by
  induction added generalizing entries with
  | nil => rfl
  | cons entry rest ih =>
      obtain ⟨differs, others⟩ := List.forall_mem_cons.mp apart
      rw [addMissing_cons, addMissing_cons, insertMissing_comm (Ne.symm differs), ih _ others]

/-- Merging what was merged before is merging one after the other. -/
theorem addMissing_addMissing (keep : κ → Bool) (entries first : List (κ × α))
    {second : List (κ × α)} (kept : ∀ entry ∈ second, keep entry.1 = true) :
    addMissing entries ((addMissing first second).filter fun entry => keep entry.1) =
      addMissing (addMissing entries (first.filter fun entry => keep entry.1)) second := by
  induction second generalizing first with
  | nil => rfl
  | cons entry rest ih =>
      obtain ⟨passes, others⟩ := List.forall_mem_cons.mp kept
      rw [addMissing_cons, ih _ others, addMissing_cons]
      congr 1
      cases held : first.lookup entry.1 with
      | some value =>
          have still : (addMissing entries (first.filter fun entry => keep entry.1)).lookup
              entry.1 = some (((entries.lookup entry.1).or (some value)).get (by simp)) := by
            rw [lookup_addMissing, lookup_filter keep passes, held]
            simp
          rw [insertMissing_of_present held, insertMissing_of_present still]
      | none =>
          obtain ⟨before, after, rfl, inserted⟩ := exists_split_insert entry.2 held
          have apart : ∀ other ∈ after.filter fun entry => keep entry.1, entry.1 ≠ other.1 := by
            intro other member same
            have missed := List.lookup_eq_none_iff.mp held other
              (List.mem_append_right _ (List.mem_of_mem_filter member))
            simp [same] at missed
          have filtered : ((entry.1, entry.2) :: after).filter (fun entry => keep entry.1) =
              (entry.1, entry.2) :: after.filter fun entry => keep entry.1 :=
            List.filter_cons_of_pos (by simpa using passes)
          simp only [insertMissing, held, inserted]
          rw [List.filter_append, List.filter_append, filtered, addMissing_append,
            addMissing_append, addMissing_cons, addMissing_insertMissing _ _ apart]
          rfl

/-- Insert entries from left to right, over the ones that are there. -/
def overwrite (entries added : List (κ × α)) : List (κ × α) :=
  added.foldl (fun entries entry => insert entry.1 entry.2 entries) entries

theorem insert_insert (key : κ) (held value : α) (entries : List (κ × α)) :
    insert key value (insert key held entries) = insert key value entries := by
  induction entries with
  | nil => exact insert_cons_eq key held value []
  | cons entry rest ih =>
      obtain ⟨first, kept⟩ := entry
      rcases lt_trichotomy key first with below | rfl | above
      · rw [insert_cons_of_lt below, insert_cons_of_lt below, insert_cons_eq]
      · rw [insert_cons_eq, insert_cons_eq, insert_cons_eq]
      · rw [insert_cons_of_gt above, insert_cons_of_gt above, insert_cons_of_gt above, ih]

/-- An entry whose key is not overwritten may as well be inserted last. -/
theorem overwrite_insert_of_absent {key : κ} (value : α) {added : List (κ × α)}
    (absent : key ∉ added.map Prod.fst) (entries : List (κ × α)) :
    overwrite (insert key value entries) added = insert key value (overwrite entries added) := by
  induction added generalizing entries with
  | nil => rfl
  | cons entry rest ih =>
      rw [List.map_cons, List.mem_cons, not_or] at absent
      calc
        overwrite (insert key value entries) (entry :: rest) =
            overwrite (insert entry.1 entry.2 (insert key value entries)) rest := rfl
        _ = overwrite (insert key value (insert entry.1 entry.2 entries)) rest := by
          rw [insert_comm absent.1]
        _ = insert key value (overwrite entries (entry :: rest)) := ih absent.2 _

/-- Overwriting with one more entry inserts it last. -/
theorem overwrite_insert (key : κ) (value : α) {added : List (κ × α)} (sorted : Sorted added)
    (entries : List (κ × α)) :
    overwrite entries (insert key value added) = insert key value (overwrite entries added) := by
  induction added generalizing entries with
  | nil => rfl
  | cons entry rest ih =>
      obtain ⟨first, kept⟩ := entry
      obtain ⟨above, sortedRest⟩ := List.pairwise_cons.mp sorted
      have absent : ∀ {lower}, lower ≤ first → lower ∉ rest.map Prod.fst := by
        intro lower below member
        obtain ⟨later, listed, rfl⟩ := List.mem_map.mp member
        exact absurd (above later listed) (not_lt.mpr below)
      rcases lt_trichotomy key first with below | rfl | higher
      · rw [insert_cons_of_lt below]
        have missing : key ∉ ((first, kept) :: rest).map Prod.fst := by
          rw [List.map_cons, List.mem_cons, not_or]
          exact ⟨below.ne, absent below.le⟩
        exact overwrite_insert_of_absent value missing entries
      · rw [insert_cons_eq]
        calc
          overwrite entries ((key, value) :: rest) =
              overwrite (insert key value (insert key kept entries)) rest := by
            rw [insert_insert]
            rfl
          _ = insert key value (overwrite entries ((key, kept) :: rest)) :=
            overwrite_insert_of_absent value (absent le_rfl) _
      · rw [insert_cons_of_gt higher]
        exact ih sortedRest (insert first kept entries)

end SpecMock.Library.SortedEntries
