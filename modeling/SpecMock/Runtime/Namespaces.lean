import SpecMock.Library.Machine
import SpecMock.Library.Template
import SpecMock.Runtime.StoreActions

/-!
# Namespaces of different parents

The namespace of a nested collection is its path template with the parents'
identifiers in place.  Where every placeholder fills a whole segment, the
segments of the namespace give the identifiers back, so the collections of
different parents have different namespaces, and requests about one of them
neither see nor change what is stored for the other.
-/

namespace SpecMock.Runtime

open SpecMock.Library SpecMock.Core

theorem bindChars_plain (params : PathParams) (fuel : Nat) {char : Char} (plain : char ≠ '{')
    (rest : List Char) :
    bindChars params (fuel + 1) (char :: rest) = char :: bindChars params (fuel + 1) rest := by
  have apart : (char != '{') = true := by simpa using plain
  simp only [bindChars, List.takeWhile_cons, List.dropWhile_cons, apart, if_true]
  cases rest.dropWhile fun other => other != '{' with
  | nil => rfl
  | cons brace inside =>
      dsimp only
      cases inside.dropWhile fun other => other != '}' <;> rfl

theorem bindChars_hole (params : PathParams) (fuel : Nat) {name : List Char}
    (undivided : '}' ∉ name) (rest : List Char) :
    bindChars params (fuel + 1) (Template.braced name ++ rest) =
      boundText params name ++ bindChars params fuel rest := by
  have inside : ∀ char ∈ name, (char != '}') = true := by
    intro char member
    simpa using fun same : char = '}' => undivided (same ▸ member)
  have shape : Template.braced name ++ rest = '{' :: (name ++ '}' :: rest) := by
    simp [Template.braced]
  simp [bindChars, shape, List.takeWhile_append_of_pos inside, List.dropWhile_append_of_pos inside]

theorem bindChars_unclosed (params : PathParams) (fuel : Nat) {rest : List Char}
    (unclosed : '}' ∉ rest) : bindChars params (fuel + 1) ('{' :: rest) = '{' :: rest := by
  have never : rest.dropWhile (fun char => char != '}') = [] := by
    apply List.dropWhile_eq_nil_iff.mpr
    intro char member
    simpa using fun same : char = '}' => unclosed (same ▸ member)
  simp [bindChars, never]

/-- Binding a template fills its holes with the bound texts. -/
theorem bindChars_eq_fill (params : PathParams) {chars : List Char} {fuel : Nat}
    (enough : chars.length ≤ fuel) :
    bindChars params fuel chars = Template.fill (boundText params) (Template.scan chars) := by
  induction chars using Template.chars_induction generalizing fuel with
  | nil => cases fuel <;> rfl
  | plain char rest plain ih =>
      cases fuel with
      | zero => cases enough
      | succ fuel =>
          have behind : rest.length ≤ fuel + 1 := Nat.le_of_lt enough
          rw [bindChars_plain params fuel plain, Template.scan_plain plain, Template.fill_text,
            ih behind]
  | hole name rest undivided ih =>
      cases fuel with
      | zero => cases enough
      | succ fuel =>
          have behind : rest.length ≤ fuel := by
            simp only [Template.braced, List.length_append, List.length_cons] at enough
            omega
          rw [bindChars_hole params fuel undivided, Template.scan_hole undivided,
            Template.fill_hole, ih behind]
  | unclosed rest unclosed =>
      cases fuel with
      | zero => cases enough
      | succ fuel =>
          rw [bindChars_unclosed params fuel unclosed, Template.scan_unclosed unclosed,
            Template.fill_map_text]

/-- The tokens of a path template. -/
def templateTokens (template : String) : List Template.Token := Template.scan template.toList

/-- The names between the brace pairs of a template. -/
def placeholders (template : String) : List String :=
  (Template.holes (templateTokens template)).map String.ofList

theorem bindNamespace_toList (template : String) (params : PathParams) :
    (bindNamespace template params).toList =
      Template.fill (boundText params) (templateTokens template) := by
  rw [bindNamespace, String.toList_ofList, bindChars_eq_fill params (Nat.le_refl _)]
  rfl

/-- Between two slashes stands either no placeholder or one and nothing else. -/
def WholeSegments (template : String) : Prop :=
  ∀ part ∈ (templateTokens template).splitOn (.text '/'),
    Template.holes part = [] ∨ ∃ name, part = [.hole name]

/-- Every placeholder is bound to a text without a slash. -/
def BindsAll (template : String) (params : PathParams) : Prop :=
  ∀ name ∈ placeholders template, ∃ value, params.lookup name = some value ∧ '/' ∉ value.toList

/-- Some placeholder of the template is bound differently. -/
def Apart (template : String) (left right : PathParams) : Prop :=
  ∃ name ∈ placeholders template, left.lookup name ≠ right.lookup name

theorem boundText_of_lookup {params : PathParams} {name : List Char} {value : String}
    (bound : params.lookup (String.ofList name) = some value) :
    boundText params name = value.toList := by
  rw [boundText, bound]

theorem BindsAll.boundText {template : String} {params : PathParams}
    (binds : BindsAll template params) {name : List Char}
    (member : name ∈ Template.holes (templateTokens template)) :
    ∃ value, params.lookup (String.ofList name) = some value ∧
      boundText params name = value.toList ∧ '/' ∉ value.toList := by
  obtain ⟨value, bound, undivided⟩ := binds _ (List.mem_map_of_mem member)
  exact ⟨value, bound, boundText_of_lookup bound, undivided⟩

/-- The segments of a namespace are those of its template with the bound texts in place. -/
theorem splitOn_bindNamespace {template : String} {params : PathParams}
    (binds : BindsAll template params) :
    (bindNamespace template params).toList.splitOn '/' =
      ((templateTokens template).splitOn (.text '/')).map
        (Template.fill (boundText params)) := by
  rw [bindNamespace_toList]
  apply Template.splitOn_fill
  intro name member
  obtain ⟨value, _, text, undivided⟩ := binds.boundText member
  rwa [text]

/-- A namespace determines what its placeholders are bound to. -/
theorem bindNamespace_injective {template : String} (whole : WholeSegments template)
    {left right : PathParams} (bindsLeft : BindsAll template left)
    (bindsRight : BindsAll template right)
    (same : bindNamespace template left = bindNamespace template right) :
    ∀ name ∈ placeholders template, left.lookup name = right.lookup name := by
  have segments := congrArg (fun ns : String => ns.toList.splitOn '/') same
  simp only [splitOn_bindNamespace bindsLeft, splitOn_bindNamespace bindsRight] at segments
  intro placeholder member
  obtain ⟨name, inside, rfl⟩ := List.mem_map.mp member
  rw [← Template.holes_splitOn '/'] at inside
  obtain ⟨part, between, held⟩ := List.mem_flatMap.mp inside
  have filled := List.map_inj_left.mp segments part between
  obtain ⟨value, bound, text, _⟩ := bindsLeft.boundText (by
    rw [← Template.holes_splitOn '/']
    exact inside)
  obtain ⟨other, otherBound, otherText, _⟩ := bindsRight.boundText (by
    rw [← Template.holes_splitOn '/']
    exact inside)
  rcases whole part between with none | ⟨alone, rfl⟩
  · rw [none] at held
    cases held
  · obtain rfl : name = alone := by simpa using held
    have texts : value.toList = other.toList := by
      simpa [← text, ← otherText] using filled
    rw [bound, otherBound, String.toList_injective texts]

/-- Two stores hold the same resources in a namespace, in the same order. -/
structure AgreeAt (ns : String) (left right : Store) : Prop where
  read : ∀ id, left.read ⟨ns, id⟩ = right.read ⟨ns, id⟩
  indexed : left.indexed ns = right.indexed ns

namespace AgreeAt

variable {ns : String} {store left right : Store} {key : StoreKey}

theorem refl (store : Store) : AgreeAt ns store store := ⟨fun _ => rfl, rfl⟩

theorem trans {middle : Store} (before : AgreeAt ns left middle) (after : AgreeAt ns middle right) :
    AgreeAt ns left right :=
  ⟨fun id => (before.read id).trans (after.read id), before.indexed.trans after.indexed⟩

theorem list (agree : AgreeAt ns left right) : left.list ns = right.list ns := by
  rw [Store.list_eq, Store.list_eq, agree.indexed]
  exact List.filterMap_congr fun id _ => agree.read id

/-- Keys of another namespace are not those of this one. -/
theorem key_ne (other : key.ns ≠ ns) (id : String) : StoreKey.mk ns id ≠ key := by
  rintro rfl
  exact other rfl

theorem create (store : Store) (other : key.ns ≠ ns) (value : Value) :
    AgreeAt ns (store.create key value).1 store := by
  rcases store.create_cases key value with ⟨_, full⟩ | ⟨_, _, taken⟩ |
    ⟨_, _, after, created, filed, indexed, _⟩
  · rw [full]
    exact refl store
  · rw [taken]
    exact refl store
  · rw [created]
    refine ⟨fun id => ?_, ?_⟩
    · rw [Store.read, filed]
      exact AList.lookup_insert_ne (key_ne other id)
    · rw [indexed, if_neg other, List.append_nil]

theorem update (store : Store) (other : key.ns ≠ ns) (value : Value) :
    AgreeAt ns (store.update key value).1 store := by
  rcases store.update_cases key value with ⟨_, absent⟩ | ⟨_, replaced⟩
  · rw [absent]
    exact refl store
  · rw [replaced]
    exact ⟨fun id => AList.lookup_insert_ne (key_ne other id), rfl⟩

theorem delete (store : Store) (other : key.ns ≠ ns) : AgreeAt ns (store.delete key).1 store := by
  rcases store.delete_cases key with ⟨_, absent⟩ | ⟨_, after, deleted, erased, indexed, _⟩
  · rw [absent]
    exact refl store
  · rw [deleted]
    refine ⟨fun id => ?_, ?_⟩
    · rw [Store.read, erased]
      exact AList.lookup_erase_ne (key_ne other id)
    · rw [indexed, if_neg (Ne.symm other)]

end AgreeAt

/-- The store's part of a request. -/
structure StoreRequest where
  spec : StoreSpec
  params : PathParams
  request : Option Value
  response : Value
  createValue : CreateValue

namespace StoreRequest

def ns (request : StoreRequest) : String := bindNamespace request.spec.resource request.params

def apply (request : StoreRequest) (store : Store) :
    Store × Except StatefulFailure Resolution :=
  applyStore store request.spec request.params request.request request.response
    request.createValue

/-- The answer that reports how an operation on a key went. -/
def report (key : StoreKey) (outcome : Resolution) :
    Except StoreError Unit → Except StatefulFailure Resolution
  | .ok () => .ok outcome
  | .error error => .error (mapStoreError error key)

/-- What a request does with any store: a listing, nothing, or one operation on a key. -/
inductive Performs (request : StoreRequest) : Prop where
  | lists (listed : ∀ store, request.apply store =
      (store, .ok (.body (.array (store.list request.ns)))))
  | nothing (failure : StatefulFailure)
      (missing : ∀ store, request.apply store = (store, .error failure))
  | creates (key : StoreKey) (value : Value) (inside : key.ns = request.ns)
      (creating : request.spec.action = .create)
      (created : ∀ store, request.apply store =
        ((store.create key value).1, report key (.body value) (store.create key value).2))
  | reads (key : StoreKey) (inside : key.ns = request.ns)
      (answered : ∀ store, request.apply store = (store,
        match store.read key with
        | some value => .ok (.body value)
        | none => .error (.resourceNotFound key.toText)))
  | updates (key : StoreKey) (value : Value) (inside : key.ns = request.ns)
      (updated : ∀ store, request.apply store =
        ((store.update key value).1, report key (.body value) (store.update key value).2))
  | deletes (key : StoreKey) (inside : key.ns = request.ns)
      (deleted : ∀ store, request.apply store =
        ((store.delete key).1, report key .empty (store.delete key).2))

theorem performs (request : StoreRequest) : request.Performs := by
  obtain ⟨spec, params, body, response, createValue⟩ := request
  by_cases listing : spec.action = .list
  · refine .lists fun store => ?_
    simp only [apply, applyStore, listing]
    rfl
  cases addressed : storeKeyOf spec params body response with
  | none => exact .nothing _ fun store =>
      applyStore_of_unaddressed listing addressed store createValue
  | some key =>
      cases action : spec.action with
      | list => exact absurd action listing
      | create =>
          have keyed := (storeKeyOf_of_create action).symm.trans addressed
          obtain ⟨id, resolved, rfl⟩ := Option.map_eq_some_iff.mp keyed
          refine .creates ⟨bindNamespace spec.resource params, id⟩
            (createdValue spec body response createValue id) rfl action fun store => ?_
          simp only [apply, applyStore, action, resolved]
          rcases store.create _ _ with ⟨after, error | done⟩ <;> rfl
      | read =>
          have keyed := (storeKeyOf_of_keyed (.inl action)).symm.trans addressed
          obtain ⟨id, resolved, rfl⟩ := Option.map_eq_some_iff.mp keyed
          refine .reads ⟨bindNamespace spec.resource params, id⟩ rfl fun store => ?_
          simp only [apply, applyStore, action, resolved]
          cases store.read ⟨bindNamespace spec.resource params, id⟩ <;> rfl
      | update =>
          have keyed := (storeKeyOf_of_keyed (.inr (.inl action))).symm.trans addressed
          obtain ⟨id, resolved, rfl⟩ := Option.map_eq_some_iff.mp keyed
          refine .updates ⟨bindNamespace spec.resource params, id⟩ (body.getD .null) rfl
            fun store => ?_
          simp only [apply, applyStore, action, resolved]
          rcases store.update _ _ with ⟨after, error | done⟩ <;> rfl
      | delete =>
          have keyed := (storeKeyOf_of_keyed (.inr (.inr action))).symm.trans addressed
          obtain ⟨id, resolved, rfl⟩ := Option.map_eq_some_iff.mp keyed
          refine .deletes ⟨bindNamespace spec.resource params, id⟩ rfl fun store => ?_
          simp only [apply, applyStore, action, resolved]
          rcases store.delete _ with ⟨after, error | done⟩ <;> rfl

/-- A request leaves every other namespace as it is. -/
theorem agreeAt_apply (request : StoreRequest) {ns : String} (other : request.ns ≠ ns)
    (store : Store) : AgreeAt ns (request.apply store).1 store := by
  cases request.performs with
  | lists listed =>
      rw [listed]
      exact .refl store
  | nothing failure missing =>
      rw [missing]
      exact .refl store
  | creates key value inside _ created =>
      rw [created]
      exact .create store (inside ▸ other) value
  | reads key inside answered =>
      rw [answered]
      exact .refl store
  | updates key value inside updated =>
      rw [updated]
      exact .update store (inside ▸ other) value
  | deletes key inside deleted =>
      rw [deleted]
      exact .delete store (inside ▸ other)

/-- Requests about other namespaces leave a namespace as it is. -/
theorem agreeAt_stateAfter {ns : String} {others : List StoreRequest}
    (apart : ∀ other ∈ others, other.ns ≠ ns) (store : Store) :
    AgreeAt ns (stateAfter (fun store other => other.apply store) store others) store := by
  induction others generalizing store with
  | nil => exact .refl store
  | cons other rest ih =>
      obtain ⟨first, later⟩ := List.forall_mem_cons.mp apart
      exact (ih later _).trans (other.agreeAt_apply first store)

theorem limit_stateAfter (store : Store) (requests : List StoreRequest) :
    (stateAfter (fun store other => StoreRequest.apply other store) store requests).limit =
      store.limit := by
  induction requests generalizing store with
  | nil => rfl
  | cons request rest ih => exact (ih _).trans (limit_applyStore _ _ _ _ _ _)

/-- The answer of a request depends on its own namespace, a create's also on the room left. -/
theorem answer_congr (request : StoreRequest) {left right : Store}
    (agree : AgreeAt request.ns left right) (limits : left.limit = right.limit)
    (room : request.spec.action = .create →
      (left.count < left.limit ↔ right.count < right.limit)) :
    (request.apply left).2 = (request.apply right).2 := by
  have held : ∀ key : StoreKey, key.ns = request.ns → left.read key = right.read key := by
    rintro ⟨ns, id⟩ rfl
    exact agree.read id
  cases request.performs with
  | lists listed => simp only [listed, agree.list]
  | nothing failure missing => simp only [missing]
  | reads key inside answered => simp only [answered, held key inside]
  | creates key value inside creating created =>
      have full : right.limit ≤ left.count ↔ right.limit ≤ right.count := by
        rw [← not_iff_not, Nat.not_le, Nat.not_le, ← room creating, limits]
      simp only [created, Store.reply_create, held key inside, limits, full]
  | updates key value inside updated =>
      simp only [updated, Store.reply_update, held key inside]
  | deletes key inside deleted =>
      simp only [deleted, Store.reply_delete, held key inside]

end StoreRequest

/--
Where every placeholder fills a whole segment, equal namespaces have equal
parents.  Whatever requests under other parents do, the collection of a parent
keeps its resources and their order, and a request under that parent is
answered the same, up to the room the whole store has left for a create.
-/
theorem parents_never_alias {template : String} (whole : WholeSegments template) :
    (∀ left right, BindsAll template left → BindsAll template right →
      bindNamespace template left = bindNamespace template right →
      ∀ name ∈ placeholders template, left.lookup name = right.lookup name) ∧
    ∀ (store : Store) (others : List StoreRequest) (mine : StoreRequest),
      mine.spec.resource = template → BindsAll template mine.params →
      (∀ other ∈ others, other.spec.resource = template ∧ BindsAll template other.params ∧
        Apart template other.params mine.params) →
      let after := stateAfter (fun store other => StoreRequest.apply other store) store others
      (∀ id, after.read ⟨mine.ns, id⟩ = store.read ⟨mine.ns, id⟩) ∧
      after.list mine.ns = store.list mine.ns ∧
      ((mine.spec.action = .create →
          (after.count < after.limit ↔ store.count < store.limit)) →
        (mine.apply after).2 = (mine.apply store).2) := by
  refine ⟨fun left right => bindNamespace_injective whole, ?_⟩
  intro store others mine resource binds elsewhere after
  have apart : ∀ other ∈ others, other.ns ≠ mine.ns := by
    intro other member same
    obtain ⟨otherResource, otherBinds, name, placed, differs⟩ := elsewhere other member
    unfold StoreRequest.ns at same
    rw [resource, otherResource] at same
    exact differs (bindNamespace_injective whole otherBinds binds same name placed)
  have agree : AgreeAt mine.ns after store := StoreRequest.agreeAt_stateAfter apart store
  refine ⟨agree.read, agree.list, fun room => ?_⟩
  exact mine.answer_congr agree (StoreRequest.limit_stateAfter store others) room

/-- A request to delete an order of a user. -/
def deleteOrder (user order : String) : StoreRequest where
  spec := ⟨"/users/{user}/orders", .delete, some "order", none⟩
  params := ((∅ : PathParams).insert "user" user).insert "order" order
  request := none
  response := .null
  createValue := .followKeySource

/-- A store with one order of one user. -/
def adasOrder : Store := ((Store.new 4).create ⟨"/users/ada/orders", "1"⟩ (.string "first")).1

/-- The order of a user survives that another user deletes the order of that identifier. -/
theorem orders_of_users_apart :
    (∀ left right, BindsAll "/users/{user}/orders" left → BindsAll "/users/{user}/orders" right →
      bindNamespace "/users/{user}/orders" left = bindNamespace "/users/{user}/orders" right →
      ∀ name ∈ placeholders "/users/{user}/orders", left.lookup name = right.lookup name) ∧
    (stateAfter (fun store other => StoreRequest.apply other store) adasOrder
      [deleteOrder "bob" "1"]).read ⟨(deleteOrder "ada" "1").ns, "1"⟩ =
        some (.string "first") := by
  have whole : WholeSegments "/users/{user}/orders" := by
    have parts : (templateTokens "/users/{user}/orders").splitOn (.text '/') =
        [[], "users".toList.map .text, [.hole "user".toList], "orders".toList.map .text] := by
      decide
    unfold WholeSegments
    rw [parts]
    simp [Template.holes]
  have names : placeholders "/users/{user}/orders" = ["user"] := by decide
  have binds : ∀ user order, '/' ∉ user.toList →
      BindsAll "/users/{user}/orders" (deleteOrder user order).params := by
    intro user order undivided name member
    rw [names, List.mem_singleton] at member
    exact ⟨user, by rw [member]; rfl, undivided⟩
  have elsewhere : ∀ other ∈ [deleteOrder "bob" "1"],
      other.spec.resource = "/users/{user}/orders" ∧
        BindsAll "/users/{user}/orders" other.params ∧
        Apart "/users/{user}/orders" other.params (deleteOrder "ada" "1").params := by
    intro other member
    rw [List.mem_singleton] at member
    subst member
    exact ⟨rfl, binds "bob" "1" (by decide), "user", by simp [names], by decide⟩
  obtain ⟨injective, separate⟩ := parents_never_alias whole
  obtain ⟨kept, _⟩ := separate adasOrder [deleteOrder "bob" "1"] (deleteOrder "ada" "1") rfl
    (binds "ada" "1" (by decide)) elsewhere
  refine ⟨injective, (kept "1").trans ?_⟩
  have ns : (deleteOrder "ada" "1").ns = "/users/ada/orders" := by decide
  rw [ns]
  rfl

end SpecMock.Runtime
