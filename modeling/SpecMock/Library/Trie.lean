import Mathlib.Data.List.Basic
import Mathlib.Data.List.Induction

/-!
# Tries with ordered edges

Items are filed under paths of keys, one after the other; a node keeps its
edges in the order in which they came up.  The trie of a list of routes is
determined by the list: the child behind a key is the trie of the routes that
continue with that key.
-/

namespace SpecMock.Library

inductive Trie (κ β : Type) where
  | node (edges : List (κ × Trie κ β)) (items : List β)

namespace Trie

variable {κ β : Type}

def empty : Trie κ β := .node [] []

/-- The edges of a node, in the order in which they were added. -/
def edges : Trie κ β → List (κ × Trie κ β)
  | .node edges _ => edges

/-- The items that end at a node, in the order in which they were added. -/
def items : Trie κ β → List β
  | .node _ items => items

variable [DecidableEq κ]

/-- Change the child behind a key, adding the edge if it is missing. -/
def updateEdge (key : κ) (change : Trie κ β → Trie κ β) :
    List (κ × Trie κ β) → List (κ × Trie κ β)
  | [] => [(key, change empty)]
  | edge :: rest =>
      if edge.1 = key then (edge.1, change edge.2) :: rest
      else edge :: updateEdge key change rest

/-- File an item under a path. -/
def insert : List κ → β → Trie κ β → Trie κ β
  | [], item, .node edges items => .node edges (items ++ [item])
  | key :: rest, item, .node edges items => .node (updateEdge key (insert rest item) edges) items

/-- File the items of a list of routes one after the other. -/
def build (routes : List (List κ × β)) : Trie κ β :=
  routes.foldl (fun trie route => insert route.1 route.2 trie) empty

/-- Add a key to a list of distinct keys. -/
def addKey (keys : List κ) (key : κ) : List κ := if key ∈ keys then keys else keys ++ [key]

/-- The keys that routes start with, each once, in the order in which they come up. -/
def heads (routes : List (List κ × β)) : List κ :=
  (routes.filterMap fun route => route.1.head?).foldl addKey []

/-- The routes that start with a key, without it. -/
def under (key : κ) (routes : List (List κ × β)) : List (List κ × β) :=
  routes.filterMap fun route =>
    match route.1 with
    | [] => none
    | first :: rest => if first = key then some (rest, route.2) else none

/-- The items filed under a path. -/
def itemsAt (path : List κ) (routes : List (List κ × β)) : List β :=
  routes.filterMap fun route => if route.1 = path then some route.2 else none

theorem mem_under {key : κ} {routes : List (List κ × β)} {path : List κ} {item : β} :
    (path, item) ∈ under key routes ↔ (key :: path, item) ∈ routes := by
  unfold under
  rw [List.mem_filterMap]
  constructor
  · rintro ⟨⟨whole, found⟩, member, taken⟩
    cases whole with
    | nil => cases taken
    | cons first rest =>
        simp only at taken
        split at taken
        next same =>
          cases taken
          exact same ▸ member
        next => cases taken
  · exact fun member => ⟨_, member, by simp⟩

theorem mem_itemsAt {path : List κ} {routes : List (List κ × β)} {item : β} :
    item ∈ itemsAt path routes ↔ (path, item) ∈ routes := by
  unfold itemsAt
  rw [List.mem_filterMap]
  constructor
  · rintro ⟨⟨whole, found⟩, member, taken⟩
    simp only at taken
    split at taken
    next same =>
      cases taken
      exact same ▸ member
    next => cases taken
  · exact fun member => ⟨_, member, by simp⟩

theorem itemsAt_under (key : κ) (path : List κ) (routes : List (List κ × β)) :
    itemsAt path (under key routes) = itemsAt (key :: path) routes := by
  unfold itemsAt under
  rw [List.filterMap_filterMap]
  apply List.filterMap_congr
  intro route _
  obtain ⟨whole, item⟩ := route
  cases whole with
  | nil => simp
  | cons first rest =>
      by_cases same : first = key
      · simp [same]
      · simp [same]

theorem mem_addKey {keys : List κ} {key other : κ} :
    other ∈ addKey keys key ↔ other ∈ keys ∨ other = key := by
  unfold addKey
  split
  next present =>
    constructor
    · exact .inl
    · rintro (member | rfl)
      · exact member
      · exact present
  next => simp

theorem addKey_nodup {keys : List κ} (distinct : keys.Nodup) (key : κ) :
    (addKey keys key).Nodup := by
  unfold addKey
  split
  · exact distinct
  next absent =>
    rw [List.nodup_append]
    refine ⟨distinct, List.pairwise_singleton _ _, fun other member single inside equal => ?_⟩
    rw [List.mem_singleton] at inside
    exact absent (inside ▸ equal ▸ member)

theorem heads_snoc (routes : List (List κ × β)) (path : List κ) (item : β) :
    heads (routes ++ [(path, item)]) =
      match path with
      | [] => heads routes
      | key :: _ => addKey (heads routes) key := by
  unfold heads
  cases path with
  | nil =>
      rw [List.filterMap_append, List.foldl_append]
      rfl
  | cons key rest =>
      rw [List.filterMap_append, List.foldl_append]
      rfl

theorem heads_nodup (routes : List (List κ × β)) : (heads routes).Nodup := by
  induction routes using List.reverseRecOn with
  | nil => exact List.nodup_nil
  | append_singleton routes route ih =>
      obtain ⟨path, item⟩ := route
      rw [heads_snoc]
      cases path with
      | nil => exact ih
      | cons key rest => exact addKey_nodup ih key

theorem mem_heads {routes : List (List κ × β)} {key : κ} :
    key ∈ heads routes ↔ ∃ path item, (key :: path, item) ∈ routes := by
  induction routes using List.reverseRecOn with
  | nil => simp [heads]
  | append_singleton routes route ih =>
      obtain ⟨path, item⟩ := route
      rw [heads_snoc]
      cases path with
      | nil => simp [ih]
      | cons first rest =>
          simp only [mem_addKey, ih, List.mem_append, List.mem_singleton, Prod.mk.injEq,
            List.cons.injEq]
          constructor
          · rintro (⟨path, found, member⟩ | rfl)
            · exact ⟨path, found, .inl member⟩
            · exact ⟨rest, item, .inr ⟨⟨rfl, rfl⟩, rfl⟩⟩
          · rintro ⟨path, found, member | ⟨⟨rfl, _⟩, _⟩⟩
            · exact .inl ⟨path, found, member⟩
            · exact .inr rfl

/-- A key that no route starts with has no routes behind it. -/
theorem under_of_not_mem_heads {routes : List (List κ × β)} {key : κ}
    (absent : key ∉ heads routes) : under key routes = [] := by
  apply List.eq_nil_iff_forall_not_mem.mpr
  rintro ⟨path, item⟩ member
  exact absent (mem_heads.mpr ⟨path, item, mem_under.mp member⟩)

theorem under_snoc (key : κ) (routes : List (List κ × β)) (path : List κ) (item : β) :
    under key (routes ++ [(path, item)]) =
      match path with
      | [] => under key routes
      | first :: rest => if first = key then under key routes ++ [(rest, item)]
          else under key routes := by
  unfold under
  cases path with
  | nil => simp
  | cons first rest =>
      by_cases same : first = key
      · simp [List.filterMap_append, same]
      · simp [List.filterMap_append, same]

theorem build_snoc (routes : List (List κ × β)) (path : List κ) (item : β) :
    build (routes ++ [(path, item)]) = insert path item (build routes) := by
  simp [build]

theorem edges_insert_cons (key : κ) (rest : List κ) (item : β) (trie : Trie κ β) :
    (insert (key :: rest) item trie).edges = updateEdge key (insert rest item) trie.edges := by
  cases trie
  rfl

theorem items_insert_cons (key : κ) (rest : List κ) (item : β) (trie : Trie κ β) :
    (insert (key :: rest) item trie).items = trie.items := by
  cases trie
  rfl

theorem edges_insert_nil (item : β) (trie : Trie κ β) :
    (insert [] item trie).edges = trie.edges := by
  cases trie
  rfl

theorem items_insert_nil (item : β) (trie : Trie κ β) :
    (insert [] item trie).items = trie.items ++ [item] := by
  cases trie
  rfl

/-- Updating one edge of a node whose edges are given key by key. -/
theorem updateEdge_map (key : κ) (change : Trie κ β → Trie κ β) (child : κ → Trie κ β)
    {keys : List κ} (distinct : keys.Nodup) (missing : key ∉ keys → child key = empty) :
    updateEdge key change (keys.map fun other => (other, child other)) =
      (addKey keys key).map fun other =>
        (other, if other = key then change (child other) else child other) := by
  induction keys with
  | nil =>
      have nothing : child key = empty := missing List.not_mem_nil
      simp [updateEdge, addKey, nothing]
  | cons first rest ih =>
      obtain ⟨absent, distinctRest⟩ := List.nodup_cons.mp distinct
      by_cases same : first = key
      · subst same
        have others : ∀ other ∈ rest, ¬ other = first := fun other member equal =>
          absent (equal ▸ member)
        have kept : (rest.map fun other => (other, child other)) = rest.map fun other =>
            (other, if other = first then change (child other) else child other) :=
          List.map_congr_left fun other member => by rw [if_neg (others other member)]
        simp [updateEdge, addKey, kept]
      · have differs : key ≠ first := Ne.symm same
        have onward := ih distinctRest fun away => missing (by simp [differs, away])
        have extended : addKey (first :: rest) key = first :: addKey rest key := by
          by_cases present : key ∈ rest
          · simp [addKey, present]
          · simp [addKey, present, differs]
        rw [List.map_cons, updateEdge, if_neg same, onward, extended, List.map_cons, if_neg same]

/-- The edges of a built trie are the keys that routes start with, each with its routes. -/
theorem edges_build (routes : List (List κ × β)) :
    (build routes).edges = (heads routes).map fun key => (key, build (under key routes)) := by
  induction routes using List.reverseRecOn with
  | nil => rfl
  | append_singleton routes route ih =>
      obtain ⟨path, item⟩ := route
      rw [build_snoc, heads_snoc]
      cases path with
      | nil =>
          rw [edges_insert_nil, ih]
          exact List.map_congr_left fun key _ => by rw [under_snoc]
      | cons key rest =>
          rw [edges_insert_cons, ih, updateEdge_map key (insert rest item) _ (heads_nodup routes)]
          · apply List.map_congr_left
            intro other _
            rw [under_snoc]
            by_cases same : other = key
            · simp [same, build_snoc]
            · have differs : ¬ key = other := fun equal => same equal.symm
              simp [same, differs]
          · intro absent
            rw [under_of_not_mem_heads absent]
            rfl

/-- The items at the root of a built trie are those of the routes that end there. -/
theorem items_build (routes : List (List κ × β)) :
    (build routes).items = itemsAt [] routes := by
  induction routes using List.reverseRecOn with
  | nil => rfl
  | append_singleton routes route ih =>
      obtain ⟨path, item⟩ := route
      rw [build_snoc]
      cases path with
      | nil =>
          rw [items_insert_nil, ih]
          simp [itemsAt, List.filterMap_append]
      | cons key rest =>
          rw [items_insert_cons, ih]
          simp [itemsAt, List.filterMap_append]

/-- Of the routes that begin with one of two paths, the first one begins with the former. -/
def ComesUpFirst (routes : List (List κ × β)) (first second : List κ) : Prop :=
  ∃ route, routes.find? (fun route => first.isPrefixOf route.1 || second.isPrefixOf route.1) =
    some route ∧ first.isPrefixOf route.1 = true

/-- Behind a key the question is the same, about longer paths. -/
theorem comesUpFirst_under (key : κ) (routes : List (List κ × β)) (first second : List κ) :
    ComesUpFirst (under key routes) first second ↔
      ComesUpFirst routes (key :: first) (key :: second) := by
  induction routes with
  | nil => simp [ComesUpFirst, under]
  | cons route rest ih =>
      obtain ⟨path, item⟩ := route
      cases path with
      | nil => simpa [ComesUpFirst, under] using ih
      | cons head tail =>
          by_cases same : head = key
          · subst same
            by_cases begins : (first.isPrefixOf tail || second.isPrefixOf tail) = true
            · simp [ComesUpFirst, under, begins]
            · simpa [ComesUpFirst, under, begins] using ih
          · have differs : ¬ key = head := fun equal => same equal.symm
            simpa [ComesUpFirst, under, same, differs] using ih

theorem mem_foldl_addKey {keys : List κ} {other : κ} :
    other ∈ keys.foldl addKey [] ↔ other ∈ keys := by
  induction keys using List.reverseRecOn with
  | nil => simp
  | append_singleton keys key ih =>
      rw [List.foldl_append]
      simp [mem_addKey, ih]

/-- Of two keys, the one that is met first keeps the lower place. -/
theorem idxOf_foldl_addKey_lt {keys : List κ} {first second : κ} (differs : first ≠ second) :
    (keys.foldl addKey []).idxOf first < (keys.foldl addKey []).idxOf second ↔
      keys.find? (fun key => key == first || key == second) = some first := by
  induction keys using List.reverseRecOn with
  | nil => simp
  | append_singleton keys key ih =>
      have met := @mem_foldl_addKey κ _ keys
      rw [List.foldl_append, List.foldl_cons, List.foldl_nil, List.find?_append]
      generalize keys.foldl addKey [] = seen at ih met
      by_cases known : key ∈ seen
      · rw [addKey, if_pos known, ih]
        cases found : keys.find? (fun key => key == first || key == second) with
        | some other => rfl
        | none =>
            have missed := List.find?_eq_none.mp found key (met.mp known)
            simp only [Bool.or_eq_true, beq_iff_eq, not_or] at missed
            simp [missed]
      · rw [addKey, if_neg known]
        cases found : keys.find? (fun key => key == first || key == second) with
        | some other =>
            rw [found] at ih
            have chosen := List.find?_some found
            have listed := met.mpr (List.mem_of_find?_eq_some found)
            rw [Option.some_or]
            refine Iff.trans ?_ ih
            rcases Bool.or_eq_true_iff.mp chosen with isFirst | isSecond
            · obtain rfl := eq_of_beq isFirst
              rw [List.idxOf_append_of_mem listed]
              by_cases apart : second ∈ seen
              · rw [List.idxOf_append_of_mem apart]
              · have inside := List.idxOf_lt_length_of_mem listed
                rw [List.idxOf_append_of_notMem apart, List.idxOf_of_notMem apart]
                omega
            · obtain rfl := eq_of_beq isSecond
              rw [List.idxOf_append_of_mem listed]
              by_cases apart : first ∈ seen
              · rw [List.idxOf_append_of_mem apart]
              · have inside := List.idxOf_lt_length_of_mem listed
                rw [List.idxOf_append_of_notMem apart, List.idxOf_of_notMem apart]
                omega
        | none =>
            have missed := List.find?_eq_none.mp found
            have absent : first ∉ seen := fun member => by simpa using missed _ (met.mp member)
            have apart : second ∉ seen := fun member => by simpa using missed _ (met.mp member)
            simp only [List.idxOf_append_of_notMem absent, List.idxOf_append_of_notMem apart]
            by_cases here : key = first
            · simp [here, differs]
            · by_cases there : key = second
              · simp [there, Ne.symm differs]
              · simp [here, there]

/-- The order of the edges of a node is that in which their keys come up. -/
theorem comesUpFirst_iff_idxOf {routes : List (List κ × β)} {first second : κ}
    (differs : first ≠ second) :
    ComesUpFirst routes [first] [second] ↔
      (heads routes).idxOf first < (heads routes).idxOf second := by
  unfold heads
  rw [idxOf_foldl_addKey_lt differs]
  induction routes with
  | nil => simp [ComesUpFirst]
  | cons route rest ih =>
      obtain ⟨path, item⟩ := route
      cases path with
      | nil => simpa [ComesUpFirst] using ih
      | cons head tail =>
          by_cases here : head = first
          · simp [ComesUpFirst, here]
          · by_cases there : head = second
            · have apart : ¬ second = first := Ne.symm differs
              simp [ComesUpFirst, there, apart, differs]
            · have notFirst := Ne.symm here
              have notSecond := Ne.symm there
              simpa [ComesUpFirst, *] using ih

end Trie

end SpecMock.Library
