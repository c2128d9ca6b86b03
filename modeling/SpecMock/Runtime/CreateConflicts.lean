import SpecMock.Core.StoreRefinement
import SpecMock.Runtime.Handler
import SpecMock.Runtime.Namespaces

/-!
# Creates of identifiers that are taken

A create whose identifier is taken is a conflict.  The store reserves a slot
before it looks for the identifier, so a full store reports its capacity
instead: the conflict is reported exactly while there is room for a new entry.
-/

namespace SpecMock.Runtime

open SpecMock.Library SpecMock.Core

/--
A create of a taken identifier answers with the conflict, and a create is
answered with an exhausted capacity only if its identifier is free.
-/
structure ConflictReported (store : Store) (request : StoreRequest) (key : StoreKey) : Prop where
  taken : (store.read key).isSome = true →
    (request.apply store).2 = .error (.resourceExists key.toText) ∧
      (StatefulFailure.resourceExists key.toText).status = 409
  capped : ∀ failure, (request.apply store).2 = .error failure → failure.status = 500 →
    store.read key = none

/-- The answer of a create, by the room in the store and the entry of its key. -/
theorem answer_of_create (store : Store) {request : StoreRequest} {key : StoreKey}
    (creating : request.spec.action = .create)
    (addressed : storeKeyOf request.spec request.params request.request request.response =
      some key) :
    (store.limit ≤ store.count ∧
      (request.apply store).2 = .error (.storeCapExceeded store.limit)) ∨
    (store.count < store.limit ∧ (store.read key).isSome = true ∧
      (request.apply store).2 = .error (.resourceExists key.toText)) ∨
    (store.read key = none ∧ ∃ outcome, (request.apply store).2 = .ok outcome) := by
  have keyed := (storeKeyOf_of_create creating).symm.trans addressed
  obtain ⟨id, resolved, rfl⟩ := Option.map_eq_some_iff.mp keyed
  simp only [StoreRequest.apply, applyStore, creating, resolved]
  rcases store.create_cases ⟨bindNamespace request.spec.resource request.params, id⟩
      (createdValue request.spec request.request request.response request.createValue id) with
    ⟨full, created⟩ | ⟨room, present, created⟩ | ⟨_, absent, _, created, _⟩
  · exact .inl ⟨full, by rw [created]; rfl⟩
  · exact .inr (.inl ⟨room, present, by rw [created]; rfl⟩)
  · exact .inr (.inr ⟨absent, _, by rw [created]⟩)

theorem conflictReported_iff (store : Store) {request : StoreRequest} {key : StoreKey}
    (creating : request.spec.action = .create)
    (addressed : storeKeyOf request.spec request.params request.request request.response =
      some key) :
    ConflictReported store request key ↔
      store.count < store.limit ∨ store.read key = none := by
  constructor
  · intro reported
    by_cases room : store.count < store.limit
    · exact .inl room
    rcases answer_of_create store creating addressed with
      ⟨_, answered⟩ | ⟨free, _⟩ | ⟨absent, _⟩
    · exact .inr (reported.capped _ answered rfl)
    · exact .inl free
    · exact .inr absent
  · intro free
    rcases answer_of_create store creating addressed with
      ⟨full, answered⟩ | ⟨_, present, answered⟩ | ⟨absent, outcome, answered⟩
    · have absent := free.resolve_left (Nat.not_lt_of_le full)
      refine ⟨fun present => ?_, fun _ _ _ => absent⟩
      rw [absent] at present
      cases present
    · refine ⟨fun _ => ⟨answered, rfl⟩, fun failure failed status => ?_⟩
      cases answered.symm.trans failed
      cases status
    · refine ⟨fun present => ?_, fun _ _ _ => absent⟩
      rw [absent] at present
      cases present

/-- In a store reached by calls there is room while fewer entries are live than it may hold. -/
theorem room_iff (limit : Nat) (calls : List StoreCall) :
    (stateAfter Store.exec (Store.new limit) calls).count <
        (stateAfter Store.exec (Store.new limit) calls).limit ↔
      FiniteMap.size (stateAfter Store.exec (Store.new limit) calls).entries < limit := by
  have matched : ∀ (store : Store) (shelf : Shelf) (call : StoreCall),
      Represents limit store shelf →
        (Store.exec store call).2 = (Shelf.exec limit shelf call).2 ∧
          Represents limit (Store.exec store call).1 (Shelf.exec limit shelf call).1 :=
    fun _ _ call represents => represents.exec call
  have represents := (simulation matched (Represents.new limit) calls).2
  rw [represents.count_eq, represents.limit_eq, represents.size_eq]

/--
A create whose identifier is taken is answered with the conflict, and no other
create with an exhausted capacity, if and only if the store has room or the
identifier is free.  After any sequence of calls on a new store it has room
while fewer entries are live than it may hold.
-/
theorem conflicts_reported_iff {request : StoreRequest} {key : StoreKey}
    (creating : request.spec.action = .create)
    (addressed : storeKeyOf request.spec request.params request.request request.response =
      some key) :
    (∀ store, ConflictReported store request key ↔
      store.count < store.limit ∨ store.read key = none) ∧
    ∀ limit (calls : List StoreCall),
      let store := stateAfter Store.exec (Store.new limit) calls
      ConflictReported store request key ↔
        FiniteMap.size store.entries < limit ∨ store.read key = none := by
  refine ⟨fun store => conflictReported_iff store creating addressed, fun limit calls => ?_⟩
  intro store
  have room : store.count < store.limit ↔ FiniteMap.size store.entries < limit :=
    room_iff limit calls
  rw [conflictReported_iff store creating addressed, room]

/-- A request that creates a user named by its body. -/
def createAda : StoreRequest where
  spec := ⟨"/users", .create, none, some ⟨.request, "/id"⟩⟩
  params := ∅
  request := some (.object [("id", .string "ada")])
  response := .null
  createValue := .followKeySource

theorem createAda_addressed :
    storeKeyOf createAda.spec createAda.params createAda.request createAda.response =
      some ⟨"/users", "ada"⟩ := by decide

/-- With room for another entry the second create of a user is a conflict. -/
theorem conflict_reported_with_room :
    ConflictReported (createAda.apply (Store.new 2)).1 createAda ⟨"/users", "ada"⟩ :=
  ((conflicts_reported_iff (by rfl) createAda_addressed).1 _).mpr
    (.inl (by decide))

/-- In a full store the second create of a user is reported as an exhausted capacity. -/
theorem conflict_hidden_when_full :
    let store := (createAda.apply (Store.new 1)).1
    (store.read ⟨"/users", "ada"⟩).isSome = true ∧
      (createAda.apply store).2 = .error (.storeCapExceeded 1) ∧
      ¬ ConflictReported store createAda ⟨"/users", "ada"⟩ := by
  intro store
  have present : (store.read ⟨"/users", "ada"⟩).isSome = true := by decide
  have answered : (createAda.apply store).2 = .error (.storeCapExceeded 1) := by decide
  refine ⟨present, answered, fun reported => ?_⟩
  cases answered.symm.trans (reported.taken present).1

end SpecMock.Runtime
