import SpecMock.Core.StoreRefinement
import SpecMock.Runtime.Scenarios

/-!
# Seeded stores

A seed item is filed under its own identifier or, when it has none, under its
position in its seed entry.  Positions start anew in every entry and share the
namespace with the identifiers of other items.  The seed is filed completely
and in its order exactly when no two items come under one key.
-/

namespace SpecMock.Runtime

open SpecMock.Library SpecMock.Core

/-- The items of a seed entry under the keys they are filed at. -/
def keyedItems (entry : SeedEntry) : List (StoreKey × Value) :=
  entry.items.zipIdx.map fun placed =>
    (⟨entry.resource, seedIdentifier placed.1 placed.2⟩, placed.1)

def keyedSeed (seed : List SeedEntry) : List (StoreKey × Value) := seed.flatMap keyedItems

/-- The items a seed declares for a resource, in the order of their declaration. -/
def declaredItems (seed : List SeedEntry) (resource : String) : List Value :=
  (seed.filter fun entry => decide (entry.resource = resource)).flatMap SeedEntry.items

/-- The store holds every seed item under its key, and lists each resource as declared. -/
structure KeepsSeed (store : Store) (seed : List SeedEntry) : Prop where
  filed : ∀ entry ∈ seed, ∀ index item, entry.items[index]? = some item →
    store.read ⟨entry.resource, seedIdentifier item index⟩ = some item
  listed : ∀ resource, store.list resource = declaredItems seed resource

/-- No two seed items come under one key. -/
def DistinctKeys (seed : List SeedEntry) : Prop := ((keyedSeed seed).map Prod.fst).Nodup

/-- The item carries an identifier. -/
def Explicit (item : Value) : Prop := (item.get "id").isSome = true

/-- Items of one resource that carry identifiers carry different ones. -/
def DistinctExplicit (seed : List SeedEntry) : Prop :=
  (keyedSeed seed).Pairwise fun first second =>
    Explicit first.2 ∧ Explicit second.2 → first.1 ≠ second.1

/-- The position of an item without an identifier is no identifier of its resource. -/
def PositionsFree (seed : List SeedEntry) : Prop :=
  (keyedSeed seed).Pairwise fun first second =>
    ¬ (Explicit first.2 ∧ Explicit second.2) → first.1 ≠ second.1

theorem distinctKeys_iff (seed : List SeedEntry) :
    DistinctKeys seed ↔ DistinctExplicit seed ∧ PositionsFree seed := by
  unfold DistinctKeys DistinctExplicit PositionsFree
  rw [List.Nodup, List.pairwise_map, ← List.pairwise_and_iff]
  constructor
  · exact List.Pairwise.imp fun differs => ⟨fun _ => differs, fun _ => differs⟩
  · refine List.Pairwise.imp fun {first second} differs => ?_
    by_cases both : Explicit first.2 ∧ Explicit second.2
    · exact differs.1 both
    · exact differs.2 both

/-- Create the entries in turn, skipping those that fail. -/
def createEach (store : Store) (entries : List (StoreKey × Value)) : Store :=
  entries.foldl (fun store entry => (store.create entry.1 entry.2).1) store

theorem seedItems_eq (resource : String) (index : Nat) (items : List Value) (store : Store) :
    seedItems resource index items store =
      createEach store ((items.zipIdx index).map fun placed =>
        (⟨resource, seedIdentifier placed.1 placed.2⟩, placed.1)) := by
  induction items generalizing index store with
  | nil => rfl
  | cons item rest ih => exact ih (index + 1) _

theorem applySeed_eq (seed : List SeedEntry) (store : Store) :
    applySeed seed store = createEach store (keyedSeed seed) := by
  induction seed generalizing store with
  | nil => rfl
  | cons entry rest ih =>
      have first := seedItems_eq entry.resource 0 entry.items store
      rw [keyedSeed, List.flatMap_cons, createEach, List.foldl_append]
      exact (ih _).trans (congrArg (createEach · (keyedSeed rest)) first)

/-- A create in a store with room acts as one on an unbounded shelf. -/
theorem represents_create {limit : Nat} {store : Store} {shelf : Shelf}
    (represents : Represents limit store shelf) (room : shelf.size < limit) (key : StoreKey)
    (value : Value) :
    Represents limit (store.create key value).1 (InsertionMap.create shelf key value) := by
  have stepped := (represents.create key value).2
  rw [Shelf.create, if_neg (Nat.not_le.mpr room)] at stepped
  by_cases taken : (shelf.get key).isSome = true
  · have kept : InsertionMap.create shelf key value = shelf := by
      rw [InsertionMap.create, dif_neg (Option.isSome_iff_ne_none.mp taken)]
    rw [if_pos taken] at stepped
    rwa [kept]
  · rwa [if_neg taken] at stepped

theorem represents_createEach {limit : Nat} {store : Store} {shelf : Shelf}
    {entries : List (StoreKey × Value)} (represents : Represents limit store shelf)
    (room : shelf.size + entries.length ≤ limit) :
    Represents limit (createEach store entries) (shelf.createAll entries) := by
  induction entries generalizing store shelf with
  | nil => exact represents
  | cons entry rest ih =>
      rw [List.length_cons] at room
      have bounded := shelf.size_create_le entry.1 entry.2
      have roomy : shelf.size < limit := by omega
      have roomier : (InsertionMap.create shelf entry.1 entry.2).size + rest.length ≤ limit := by
        omega
      exact ih (represents_create represents roomy entry.1 entry.2) roomier

theorem length_keyedSeed (seed : List SeedEntry) :
    (keyedSeed seed).length = (seed.flatMap SeedEntry.items).length := by
  simp [keyedSeed, keyedItems, List.length_flatMap]

theorem keyedItems_inNamespace (entry : SeedEntry) (resource : String) :
    ((keyedItems entry).filter fun item => inNamespace resource item.1).map Prod.snd =
      if entry.resource = resource then entry.items else [] := by
  unfold keyedItems
  split
  next same => simp [inNamespace, same, List.filter_map, Function.comp_def]
  next other => simp [inNamespace, other, List.filter_map, Function.comp_def]

/-- The declared items of a resource are those under its keys. -/
theorem declaredItems_eq (seed : List SeedEntry) (resource : String) :
    declaredItems seed resource =
      ((keyedSeed seed).filter fun item => inNamespace resource item.1).map Prod.snd := by
  induction seed with
  | nil => rfl
  | cons entry rest ih =>
      rw [keyedSeed, List.flatMap_cons, List.filter_append, List.map_append,
        keyedItems_inNamespace]
      have later : declaredItems rest resource =
          ((rest.flatMap keyedItems).filter fun item => inNamespace resource item.1).map
            Prod.snd := ih
      rw [← later, declaredItems, List.filter_cons]
      by_cases same : entry.resource = resource
      · simp [same, declaredItems]
      · simp [same, declaredItems]

theorem mem_keyedSeed {seed : List SeedEntry} {entry : SeedEntry} (member : entry ∈ seed)
    {index : Nat} {item : Value} (found : entry.items[index]? = some item) :
    ((⟨entry.resource, seedIdentifier item index⟩ : StoreKey), item) ∈ keyedSeed seed := by
  refine List.mem_flatMap.mpr ⟨entry, member, List.mem_map.mpr ⟨(item, index), ?_, rfl⟩⟩
  exact List.mk_mem_zipIdx_iff_getElem?.mpr found

/-- Keys that differ within every namespace differ altogether. -/
theorem nodup_of_namespaces {keys : List StoreKey}
    (distinct : ∀ ns, (keys.filter (inNamespace ns)).Nodup) : keys.Nodup := by
  refine List.nodup_iff_count_le_one.mpr fun key => ?_
  have once := List.nodup_iff_count_le_one.mp (distinct key.ns) key
  rwa [List.count_filter (by simp [inNamespace])] at once

theorem new_represents (scenario : String) (initial : State) {seed : List SeedEntry}
    {limit : Nat} (capacity : (seed.flatMap SeedEntry.items).length ≤ limit) :
    Represents limit (Instance.new scenario initial seed limit).store
      (InsertionMap.empty.createAll (keyedSeed seed)) := by
  have room : (InsertionMap.empty : Shelf).size + (keyedSeed seed).length ≤ limit := by
    rw [length_keyedSeed]
    exact Nat.le_trans (Nat.le_of_eq (Nat.zero_add _)) capacity
  have filed := represents_createEach (Represents.new limit) room
  rwa [← applySeed_eq] at filed

theorem keepsSeed_of_distinctKeys {store : Store} {limit : Nat} {seed : List SeedEntry}
    (represents : Represents limit store (InsertionMap.empty.createAll (keyedSeed seed)))
    (distinct : DistinctKeys seed) : KeepsSeed store seed := by
  have items : (InsertionMap.empty.createAll (keyedSeed seed)).items = keyedSeed seed :=
    InsertionMap.items_createAll distinct
  constructor
  · intro entry member index item found
    have held := mem_keyedSeed member found
    rw [← items] at held
    rw [represents.read_eq]
    exact InsertionMap.get_of_mem held
  · intro resource
    rw [represents.list_eq, InsertionMap.valuesWhere, items, declaredItems_eq]

theorem distinctKeys_of_keepsSeed {store : Store} {limit : Nat} {seed : List SeedEntry}
    (represents : Represents limit store (InsertionMap.empty.createAll (keyedSeed seed)))
    (kept : KeepsSeed store seed) : DistinctKeys seed := by
  refine nodup_of_namespaces fun ns => ?_
  have listed := kept.listed ns
  rw [represents.list_eq, declaredItems_eq, InsertionMap.valuesWhere] at listed
  have part := (InsertionMap.empty.items_createAll_sublist (keyedSeed seed)).filter
    fun item => inNamespace ns item.1
  have lengths := congrArg List.length listed
  simp only [List.length_map] at lengths
  have whole := part.eq_of_length lengths
  have unique := InsertionMap.nodup_keysWhere
    (InsertionMap.empty.createAll (keyedSeed seed)) (inNamespace ns)
  rw [InsertionMap.keysWhere, whole] at unique
  rw [List.filter_map]
  exact unique

/--
A new instance whose seed fits into its store files every seed item, and lists
each resource in the order of its declaration, if and only if no two items come
under one key.  Where explicit identifiers are distinct within each resource,
this is the case if and only if no position that stands in for an identifier is
the identifier of another item of the resource.
-/
theorem seed_kept_iff (scenario : String) (initial : State) {seed : List SeedEntry}
    {limit : Nat} (capacity : (seed.flatMap SeedEntry.items).length ≤ limit) :
    (KeepsSeed (Instance.new scenario initial seed limit).store seed ↔ DistinctKeys seed) ∧
      (DistinctExplicit seed →
        (KeepsSeed (Instance.new scenario initial seed limit).store seed ↔
          PositionsFree seed)) := by
  have represents := new_represents scenario initial capacity
  have general : KeepsSeed (Instance.new scenario initial seed limit).store seed ↔
      DistinctKeys seed :=
    ⟨distinctKeys_of_keepsSeed represents, keepsSeed_of_distinctKeys represents⟩
  refine ⟨general, fun distinct => general.trans ?_⟩
  rw [distinctKeys_iff]
  exact and_iff_right distinct

/-- A seed with users in two entries, the last of them without an identifier. -/
def seededUsers : List SeedEntry :=
  [⟨"/users", [.object [("id", .string "ada")]]⟩,
    ⟨"/users", [.object [("id", .string "bob")], .object [("name", .string "Cy")]]⟩]

/-- The users of both entries are kept, the nameless one under its position. -/
theorem seededUsers_kept :
    KeepsSeed (Instance.new "signUp" ⟨"start"⟩ seededUsers 3).store seededUsers :=
  (seed_kept_iff "signUp" ⟨"start"⟩ (by decide)).1.mpr (by
    have keys : (keyedSeed seededUsers).map Prod.fst =
        [⟨"/users", "ada"⟩, ⟨"/users", "bob"⟩, ⟨"/users", "1"⟩] := by decide
    unfold DistinctKeys
    rw [keys]
    decide)

/-- Two entries of one resource, each with an item that has no identifier. -/
def seededTwice : List SeedEntry :=
  [⟨"/users", [.object [("name", .string "Ada")]]⟩,
    ⟨"/users", [.object [("name", .string "Bob")]]⟩]

/-- The first items of two entries of a resource come under one position; the later is dropped. -/
theorem positions_collide :
    (seededTwice.flatMap SeedEntry.items).length ≤ 2 ∧ DistinctExplicit seededTwice ∧
      (Instance.new "signUp" ⟨"start"⟩ seededTwice 2).store.list "/users" =
        [.object [("name", .string "Ada")]] ∧
      ¬ KeepsSeed (Instance.new "signUp" ⟨"start"⟩ seededTwice 2).store seededTwice := by
  have listed : (Instance.new "signUp" ⟨"start"⟩ seededTwice 2).store.list "/users" =
      [.object [("name", .string "Ada")]] := by decide
  refine ⟨by decide, ?_, listed, fun kept => ?_⟩
  · simp [DistinctExplicit, keyedSeed, keyedItems, seededTwice, Explicit, Value.get,
      List.zipIdx]
  · have declared := listed.symm.trans (kept.listed "/users")
    revert declared
    decide

end SpecMock.Runtime
