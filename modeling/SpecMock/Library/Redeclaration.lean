import Mathlib.Data.List.Basic
import Mathlib.Data.List.Pairwise

/-!
# Redeclaration

A list is extended by declarations, each of which drives the entries of its key
out of the list and lands at the end.  Of the entries that were there before,
those of the other keys stay in their order; behind them stands one entry of
each declared key, its last declaration, in the order of the last declarations.
-/

namespace SpecMock.Library.Redeclaration

variable {α κ : Type} (key : α → κ)

/-- The last entry of one key comes before the last entry of another. -/
def LastBefore (entries : List α) (first second : κ) : Prop :=
  ∃ before behind, entries = before ++ behind ∧ first ∈ before.map key ∧
    first ∉ behind.map key ∧ second ∈ behind.map key

theorem LastBefore.cons {key : α → κ} {entries : List α} {first second : κ}
    (before : LastBefore key entries first second) (entry : α) :
    LastBefore key (entry :: entries) first second := by
  obtain ⟨front, behind, rfl, declared, gone, follows⟩ := before
  refine ⟨entry :: front, behind, rfl, ?_, gone, follows⟩
  exact List.mem_cons_of_mem _ declared

variable [DecidableEq κ]

/-- Drive out the entries of the key, then append the declaration. -/
def redeclare (entries : List α) (declaration : α) : List α :=
  entries.filter (fun entry => decide (key entry ≠ key declaration)) ++ [declaration]

def redeclareAll (entries declared : List α) : List α := declared.foldl (redeclare key) entries

/-- The entries of one key. -/
def entriesOf (entries : List α) (wanted : κ) : List α :=
  entries.filter fun entry => decide (key entry = wanted)

/-- The entries whose keys are not declared. -/
def undeclared (entries declared : List α) : List α :=
  entries.filter fun entry => decide (key entry ∉ declared.map key)

/-- The entries that are the last ones of their keys. -/
def lastDeclared : List α → List α
  | [] => []
  | entry :: rest =>
      if key entry ∈ rest.map key then lastDeclared rest else entry :: lastDeclared rest

/-- What becomes of a list when others are declared over it. -/
structure Redeclares (inherited declared merged : List α) : Prop where
  /-- A declared key has one entry, the last declaration. -/
  single : ∀ wanted ∈ declared.map key, ∃ last,
    (entriesOf key declared wanted).getLast? = some last ∧ entriesOf key merged wanted = [last]
  /-- Any other key has the entries it had before. -/
  inherits : ∀ wanted ∉ declared.map key,
    entriesOf key merged wanted = entriesOf key inherited wanted
  /-- What is kept stands in its order, then the declarations in that of the last ones. -/
  arranged : ∃ later, merged = undeclared key inherited declared ++ later ∧
    (∀ entry ∈ later, entry ∈ declared) ∧
    later.Pairwise fun first second => LastBefore key declared (key first) (key second)

variable {key}

theorem entriesOf_append (entries others : List α) (wanted : κ) :
    entriesOf key (entries ++ others) wanted =
      entriesOf key entries wanted ++ entriesOf key others wanted :=
  List.filter_append entries others

theorem entriesOf_cons_self (entry : α) (rest : List α) :
    entriesOf key (entry :: rest) (key entry) = entry :: entriesOf key rest (key entry) :=
  List.filter_cons_of_pos (decide_eq_true rfl)

theorem entriesOf_cons_of_ne {entry : α} {wanted : κ} (apart : key entry ≠ wanted)
    (rest : List α) : entriesOf key (entry :: rest) wanted = entriesOf key rest wanted :=
  List.filter_cons_of_neg (by simpa using apart)

theorem entriesOf_eq_nil {entries : List α} {wanted : κ} (absent : wanted ∉ entries.map key) :
    entriesOf key entries wanted = [] := by
  refine List.filter_eq_nil_iff.mpr fun entry member same => absent ?_
  rw [← of_decide_eq_true same]
  exact List.mem_map_of_mem member

theorem entriesOf_ne_nil {entries : List α} {wanted : κ} (declared : wanted ∈ entries.map key) :
    entriesOf key entries wanted ≠ [] := by
  obtain ⟨entry, member, rfl⟩ := List.mem_map.mp declared
  exact List.ne_nil_of_mem (List.mem_filter.mpr ⟨member, decide_eq_true rfl⟩)

theorem entriesOf_undeclared {inherited declared : List α} {wanted : κ}
    (other : wanted ∉ declared.map key) :
    entriesOf key (undeclared key inherited declared) wanted = entriesOf key inherited wanted := by
  unfold entriesOf undeclared
  rw [List.filter_filter]
  refine List.filter_congr fun entry _ => ?_
  by_cases same : key entry = wanted
  · simp only [same, other, not_false_eq_true, decide_true, Bool.and_self]
  · simp only [same, decide_false, Bool.false_and]

theorem entriesOf_undeclared_of_mem {inherited declared : List α} {wanted : κ}
    (redeclared : wanted ∈ declared.map key) :
    entriesOf key (undeclared key inherited declared) wanted = [] := by
  refine List.filter_eq_nil_iff.mpr fun entry member same => ?_
  have kept := of_decide_eq_true (List.mem_filter.mp member).2
  exact kept (of_decide_eq_true same ▸ redeclared)

/-- Of a key exactly the last entry is left. -/
theorem entriesOf_lastDeclared (entries : List α) (wanted : κ) :
    entriesOf key (lastDeclared key entries) wanted =
      (entriesOf key entries wanted).getLast?.toList := by
  induction entries with
  | nil => rfl
  | cons entry rest ih =>
      unfold lastDeclared
      by_cases again : key entry ∈ rest.map key
      · rw [if_pos again, ih]
        by_cases same : key entry = wanted
        · subst same
          rw [entriesOf_cons_self, List.getLast?_cons_of_ne_nil (entriesOf_ne_nil again)]
        · rw [entriesOf_cons_of_ne same]
      · rw [if_neg again]
        by_cases same : key entry = wanted
        · subst same
          rw [entriesOf_cons_self, entriesOf_cons_self, ih, entriesOf_eq_nil again]
          rfl
        · rw [entriesOf_cons_of_ne same, entriesOf_cons_of_ne same, ih]

theorem mem_of_mem_lastDeclared {entries : List α} {entry : α}
    (member : entry ∈ lastDeclared key entries) : entry ∈ entries := by
  induction entries with
  | nil => cases member
  | cons first rest ih =>
      unfold lastDeclared at member
      split at member
      · exact List.mem_cons_of_mem _ (ih member)
      · rcases List.mem_cons.mp member with rfl | later
        · exact List.mem_cons_self
        · exact List.mem_cons_of_mem _ (ih later)

theorem pairwise_lastDeclared (entries : List α) :
    (lastDeclared key entries).Pairwise fun first second =>
      LastBefore key entries (key first) (key second) := by
  induction entries with
  | nil => exact List.Pairwise.nil
  | cons entry rest ih =>
      have others := ih.imp fun before => LastBefore.cons before entry
      unfold lastDeclared
      split
      · exact others
      next last =>
        refine List.pairwise_cons.mpr ⟨fun second member => ?_, others⟩
        refine ⟨[entry], rest, rfl, List.mem_singleton_self _, last, ?_⟩
        exact List.mem_map_of_mem (mem_of_mem_lastDeclared member)

/-- The key of a declaration joins those of the declarations behind it. -/
theorem undeclared_redeclare (entries : List α) (declaration : α) (rest : List α) :
    undeclared key (redeclare key entries declaration) rest =
      undeclared key entries (declaration :: rest) ++ undeclared key [declaration] rest := by
  unfold undeclared redeclare
  rw [List.filter_append, List.filter_filter]
  congr 1
  refine List.filter_congr fun entry _ => ?_
  rw [Bool.and_comm, ← Bool.decide_and, decide_eq_decide, List.map_cons, List.mem_cons, not_or]

/-- A declaration is driven out again if a later one has its key. -/
theorem lastDeclared_cons (declaration : α) (rest : List α) :
    lastDeclared key (declaration :: rest) =
      undeclared key [declaration] rest ++ lastDeclared key rest := by
  rw [lastDeclared, undeclared, List.filter_singleton]
  by_cases again : key declaration ∈ rest.map key
  · simp only [again, not_true_eq_false, decide_false, if_pos]
    rfl
  · simp only [again, not_false_eq_true, decide_true, if_neg]
    rfl

/-- What is not declared, then the last declarations. -/
theorem redeclareAll_eq (entries declared : List α) :
    redeclareAll key entries declared =
      undeclared key entries declared ++ lastDeclared key declared := by
  induction declared generalizing entries with
  | nil =>
      have all : undeclared key entries [] = entries :=
        List.filter_eq_self.mpr fun _ _ => decide_eq_true List.not_mem_nil
      rw [all]
      exact (List.append_nil entries).symm
  | cons declaration rest ih =>
      calc redeclareAll key entries (declaration :: rest)
          = redeclareAll key (redeclare key entries declaration) rest := rfl
        _ = undeclared key (redeclare key entries declaration) rest ++ lastDeclared key rest :=
            ih _
        _ = undeclared key entries (declaration :: rest) ++
              (undeclared key [declaration] rest ++ lastDeclared key rest) := by
            rw [undeclared_redeclare, List.append_assoc]
        _ = _ := by rw [lastDeclared_cons]

theorem redeclares_redeclareAll (inherited declared : List α) :
    Redeclares key inherited declared (redeclareAll key inherited declared) where
  single wanted redeclared := by
    obtain ⟨last, found⟩ := Option.ne_none_iff_exists'.mp
      (mt List.getLast?_eq_none_iff.mp (entriesOf_ne_nil redeclared))
    refine ⟨last, found, ?_⟩
    rw [redeclareAll_eq, entriesOf_append, entriesOf_undeclared_of_mem redeclared,
      entriesOf_lastDeclared, found]
    rfl
  inherits wanted other := by
    rw [redeclareAll_eq, entriesOf_append, entriesOf_undeclared other, entriesOf_lastDeclared,
      entriesOf_eq_nil other]
    exact List.append_nil _
  arranged := ⟨lastDeclared key declared, redeclareAll_eq inherited declared,
    fun _ => mem_of_mem_lastDeclared, pairwise_lastDeclared declared⟩

end SpecMock.Library.Redeclaration
