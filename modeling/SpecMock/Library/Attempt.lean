import Mathlib.Data.List.Forall2

/-!
# Attempts

A computation that works on a state, may fail, and on failure leaves the state
as far as it got.  Two attempts on different states are compared by a relation
of the states: they succeed or fail alike and keep the relation, in every run or
in those that keep a condition to their end.
-/

namespace SpecMock.Library

/-- A result with a continuation is a success where both are. -/
theorem bind_eq_ok {ε α β : Type} {first : Except ε α} {next : α → Except ε β} {result : β} :
    (first >>= next) = .ok result ↔ ∃ value, first = .ok value ∧ next value = .ok result := by
  cases first with
  | error error => exact iff_of_false (by rintro ⟨⟩) (by rintro ⟨_, ⟨⟩, _⟩)
  | ok value => simp [bind, Except.bind]

/-- What comes out of a list of items comes from one of them. -/
theorem exists_of_mem_right {α β : Type} {becomes : α → β → Prop} {items : List α}
    {results : List β} (each : List.Forall₂ becomes items results) {result : β}
    (member : result ∈ results) : ∃ item ∈ items, becomes item result := by
  induction each with
  | nil => cases member
  | cons first _ ih =>
      rcases List.mem_cons.mp member with rfl | later
      · exact ⟨_, List.mem_cons_self, first⟩
      · obtain ⟨item, inside, holds⟩ := ih later
        exact ⟨item, List.mem_cons_of_mem _ inside, holds⟩

/-- What holds of every item, whatever it became, holds of the items. -/
theorem exists_forall₂ {α β : Type} {comes : β → α → Prop} {items : List α}
    (each : ∀ item ∈ items, ∃ result, comes result item) :
    ∃ results, List.Forall₂ comes results items := by
  induction items with
  | nil => exact ⟨[], .nil⟩
  | cons item rest ih =>
      obtain ⟨⟨result, first⟩, others⟩ := List.forall_mem_cons.mp each
      obtain ⟨results, later⟩ := ih others
      exact ⟨result :: results, .cons first later⟩

theorem forall_of_forall₂ {α β : Type} {holds : α → Prop} {items : List α} {results : List β}
    (each : List.Forall₂ (fun item _ => holds item) items results) :
    ∀ item ∈ items, holds item := by
  induction each with
  | nil => simp
  | cons first _ ih => exact List.forall_mem_cons.mpr ⟨first, ih⟩

/-- A computation on a state that may fail; a failure keeps the state reached. -/
def Attempt (ε σ α : Type) : Type := σ → Except ε α × σ

namespace Attempt

variable {ε σ τ α β : Type}

def succeed (value : α) : Attempt ε σ α := fun state => (.ok value, state)

def fail (failure : ε) : Attempt ε σ α := fun state => (.error failure, state)

/-- Go on with the value of the first attempt, if it succeeds. -/
def andThen (first : Attempt ε σ α) (next : α → Attempt ε σ β) : Attempt ε σ β := fun state =>
  match first state with
  | (.ok value, middle) => next value middle
  | (.error failure, middle) => (.error failure, middle)

instance : Monad (Attempt ε σ) where
  pure := succeed
  bind := andThen

/-- A value that may be missing. -/
def demand (failure : ε) : Option α → Attempt ε σ α
  | some value => succeed value
  | none => fail failure

/-- A value that may have failed to come about. -/
def ofExcept : Except ε α → Attempt ε σ α
  | .ok value => succeed value
  | .error failure => fail failure

/-- Work through a list from left to right, up to the first failure. -/
def each (work : α → Attempt ε σ β) : List α → Attempt ε σ (List β)
  | [] => pure []
  | item :: rest => do
      let value ← work item
      let values ← each work rest
      pure (value :: values)

theorem bind_ok {first : Attempt ε σ α} {next : α → Attempt ε σ β} {state last : σ} {value : β} :
    (first >>= next) state = (.ok value, last) ↔
      ∃ found middle, first state = (.ok found, middle) ∧
        next found middle = (.ok value, last) := by
  change andThen first next state = _ ↔ _
  unfold andThen
  rcases first state with ⟨_ | found, middle⟩
  · simp
  · simp

theorem pure_ok {value found : α} {state last : σ} :
    (pure value : Attempt ε σ α) state = (.ok found, last) ↔ value = found ∧ state = last := by
  change (Except.ok value, state) = _ ↔ _
  simp

/-- Whenever the attempt succeeds, its value has the property. -/
def Ensures (required : α → Prop) (attempt : Attempt ε σ α) : Prop :=
  ∀ state value last, attempt state = (.ok value, last) → required value

theorem ensures_pure {required : α → Prop} {value : α} (holds : required value) :
    Ensures required (pure value : Attempt ε σ α) := by
  intro state found last succeeded
  obtain ⟨rfl, _⟩ := pure_ok.mp succeeded
  exact holds

theorem ensures_fail {required : α → Prop} (failure : ε) :
    Ensures required (fail failure : Attempt ε σ α) := by
  intro state value last succeeded
  cases succeeded

theorem Ensures.bind {expected : α → Prop} {required : β → Prop} {first : Attempt ε σ α}
    {next : α → Attempt ε σ β} (before : Ensures expected first)
    (after : ∀ value, expected value → Ensures required (next value)) :
    Ensures required (first >>= next) := by
  intro state value last succeeded
  obtain ⟨found, middle, begun, ended⟩ := bind_ok.mp succeeded
  exact after found (before state found middle begun) middle value last ended

theorem ensures_demand {required : α → Prop} (failure : ε) {value : Option α}
    (holds : ∀ found, value = some found → required found) :
    Ensures required (demand failure value : Attempt ε σ α) := by
  cases value with
  | none => exact ensures_fail failure
  | some found => exact ensures_pure (holds found rfl)

/-- Every value of the list has the property that goes with its item. -/
theorem ensures_each (required : α → β → Prop) {work : α → Attempt ε σ β} (items : List α)
    (each : ∀ item, Ensures (required item) (work item)) :
    Ensures (List.Forall₂ required items) (Attempt.each work items) := by
  induction items with
  | nil => exact ensures_pure .nil
  | cons item rest ih =>
      refine (each item).bind fun value holds => ?_
      refine ih.bind fun values others => ?_
      exact ensures_pure (.cons holds others)

/-- If every item succeeds without touching the state, so does the list. -/
theorem each_of_idle {work : α → Attempt ε σ β} (result : α → β) {items : List α}
    (idle : ∀ item ∈ items, ∀ state, work item state = (.ok (result item), state)) (state : σ) :
    each work items state = (.ok (items.map result), state) := by
  induction items with
  | nil => rfl
  | cons item rest ih =>
      obtain ⟨first, others⟩ := List.forall_mem_cons.mp idle
      exact bind_ok.mpr ⟨_, _, first state, bind_ok.mpr ⟨_, _, ih others, rfl⟩⟩

/-- From related states the attempts end alike, in related states. -/
def Simulates (related : σ → τ → Prop) (left : Attempt ε σ α) (right : Attempt ε τ α) : Prop :=
  ∀ state other, related state other →
    (left state).1 = (right other).1 ∧ related (left state).2 (right other).2

/--
If the condition holds at the end of the first attempt, then it has held from
the start on, and from related states the attempts end alike, in related states.
-/
structure SimulatesWhile (holds : σ → Prop) (related : σ → τ → Prop) (left : Attempt ε σ α)
    (right : Attempt ε τ α) : Prop where
  held : ∀ state, holds (left state).2 → holds state
  alike : ∀ state other, related state other → holds (left state).2 →
    (left state).1 = (right other).1 ∧ related (left state).2 (right other).2

theorem simulates_iff {related : σ → τ → Prop} {left : Attempt ε σ α} {right : Attempt ε τ α} :
    Simulates related left right ↔ SimulatesWhile (fun _ => True) related left right :=
  ⟨fun simulates => ⟨fun _ _ => trivial, fun state other begins _ => simulates state other begins⟩,
    fun simulates state other begins => simulates.alike state other begins trivial⟩

section Simulates

variable {holds : σ → Prop} {related : σ → τ → Prop}

theorem simulates_pure (value : α) :
    SimulatesWhile holds related (pure value : Attempt ε σ α) (pure value) :=
  ⟨fun _ held => held, fun _ _ begins _ => ⟨rfl, begins⟩⟩

theorem simulates_fail (failure : ε) :
    SimulatesWhile holds related (fail failure : Attempt ε σ α) (fail failure) :=
  ⟨fun _ held => held, fun _ _ begins _ => ⟨rfl, begins⟩⟩

theorem SimulatesWhile.bind {first : Attempt ε σ α} {other : Attempt ε τ α}
    {next : α → Attempt ε σ β} {following : α → Attempt ε τ β}
    (before : SimulatesWhile holds related first other)
    (after : ∀ value, SimulatesWhile holds related (next value) (following value)) :
    SimulatesWhile holds related (first >>= next) (other >>= following) := by
  have middle : ∀ state, holds ((first >>= next) state).2 → holds (first state).2 := by
    intro state ended
    change holds (andThen first next state).2 at ended
    unfold andThen at ended
    split at ended
    next value reached went =>
      rw [went]
      exact (after value).held _ ended
    next failure reached went =>
      rw [went]
      exact ended
  refine ⟨fun state ended => before.held state (middle state ended), ?_⟩
  intro state start begins ended
  obtain ⟨alike, meets⟩ := before.alike state start begins (middle state ended)
  change holds (andThen first next state).2 at ended
  change (andThen first next state).1 = (andThen other following start).1 ∧
    related (andThen first next state).2 (andThen other following start).2
  unfold andThen at ended ⊢
  generalize first state = left at alike meets ended
  generalize other start = right at alike meets
  obtain ⟨outcome, reached⟩ := left
  obtain ⟨_, arrived⟩ := right
  cases alike
  cases outcome with
  | error failure => exact ⟨rfl, meets⟩
  | ok value => exact (after value).alike reached arrived meets ended

theorem simulates_demand (failure : ε) (value : Option α) :
    SimulatesWhile holds related (demand failure value) (demand failure value) := by
  cases value with
  | none => exact simulates_fail failure
  | some found => exact simulates_pure found

theorem simulates_each {work : α → Attempt ε σ β} {labour : α → Attempt ε τ β} (items : List α)
    (alike : ∀ item, SimulatesWhile holds related (work item) (labour item)) :
    SimulatesWhile holds related (each work items) (each labour items) := by
  induction items with
  | nil => exact simulates_pure []
  | cons item rest ih =>
      refine (alike item).bind fun value => ?_
      exact ih.bind fun values => simulates_pure (value :: values)

end Simulates

end Attempt

end SpecMock.Library
