import Mathlib.Control.Monad.Basic
import Mathlib.Data.List.Basic

/-!
# Draws

Computations that draw from a stream and may fail.  What a computation ensures
is stated for every stream: a property of the value if it succeeds, and a
condition under which alone it may fail.  A script is a stream that leads to a
wanted value.
-/

namespace SpecMock.Library

/-- A computation that draws from a stream of type `σ`. -/
abbrev Drawing (σ ε α : Type) : Type := StateT σ (Except ε) α

namespace Drawing

variable {σ ε α β : Type}

/-- Every success has the property, and a failure needs the condition. -/
def Ensures (program : Drawing σ ε α) (holds : α → Prop) (fails : Prop) : Prop :=
  ∀ stream, match program stream with
    | .ok result => holds result.1
    | .error _ => fails

theorem bind_run (first : Drawing σ ε α) (next : α → Drawing σ ε β) (stream : σ) :
    (first >>= next) stream = (match first stream with
      | .ok result => next result.1 result.2
      | .error error => .error error) := by
  change Except.bind (first stream) _ = _
  cases first stream <;> rfl

theorem bind_eq_ok {first : Drawing σ ε α} {next : α → Drawing σ ε β} {stream last : σ}
    {value : β} : (first >>= next) stream = .ok (value, last) ↔
      ∃ found middle, first stream = .ok (found, middle) ∧
        next found middle = .ok (value, last) := by
  rw [bind_run]
  cases first stream with
  | error error => simp
  | ok result =>
      constructor
      · intro done
        exact ⟨_, _, rfl, done⟩
      · rintro ⟨found, middle, ⟨rfl⟩, done⟩
        exact done

theorem map_eq_ok {change : α → β} {program : Drawing σ ε α} {stream last : σ} {value : β} :
    (change <$> program) stream = .ok (value, last) ↔
      ∃ found, program stream = .ok (found, last) ∧ change found = value := by
  rw [map_eq_pure_bind, bind_eq_ok]
  constructor
  · rintro ⟨found, middle, run, done⟩
    cases done
    exact ⟨found, run, rfl⟩
  · rintro ⟨found, run, rfl⟩
    exact ⟨found, last, run, rfl⟩

variable {holds : α → Prop} {fails : Prop}

theorem ensures_pure {value : α} (valid : holds value) :
    Ensures (pure value : Drawing σ ε α) holds fails := fun _ => valid

theorem ensures_throw {error : ε} (failed : fails) :
    Ensures (throw error : Drawing σ ε α) holds fails := fun _ => failed

theorem Ensures.bind {program : Drawing σ ε α} {next : α → Drawing σ ε β}
    {required : β → Prop} (before : Ensures program holds fails)
    (after : ∀ value, holds value → Ensures (next value) required fails) :
    Ensures (program >>= next) required fails := by
  intro stream
  have begun := before stream
  rw [bind_run]
  cases run : program stream with
  | error error =>
      rw [run] at begun
      exact begun
  | ok result =>
      rw [run] at begun
      exact after result.1 begun result.2

theorem Ensures.mono {program : Drawing σ ε α} {required : α → Prop} {allowed : Prop}
    (ensures : Ensures program holds fails) (weaker : ∀ value, holds value → required value)
    (excuse : fails → allowed) : Ensures program required allowed := by
  intro stream
  have given := ensures stream
  cases run : program stream with
  | error error =>
      rw [run] at given
      exact excuse given
  | ok result =>
      rw [run] at given
      exact weaker result.1 given

/-- A property of the items worked through so far and of their result. -/
theorem ensures_foldlM {step : β → α → Drawing σ ε β} {items : List α} {start : β}
    (invariant : List α → β → Prop) (initial : invariant [] start)
    (preserved : ∀ done item left value, items = done ++ item :: left → invariant done value →
      Ensures (step value item) (invariant (done ++ [item])) fails) :
    Ensures (items.foldlM step start) (invariant items) fails := by
  suffices onward : ∀ left done value, items = done ++ left → invariant done value →
      Ensures (left.foldlM step value) (invariant items) fails by
    exact onward items [] start rfl initial
  intro left
  induction left with
  | nil =>
      intro done value split holds
      rw [List.append_nil] at split
      exact ensures_pure (split ▸ holds)
  | cons item rest ih =>
      intro done value split holds
      rw [List.foldlM_cons]
      refine (preserved done item rest value split holds).bind fun next kept => ?_
      exact ih (done ++ [item]) next (by simp [split]) kept

/-- A fold over what is seen of a state is what is seen of the fold over the state. -/
theorem map_foldlM {γ : Type} {step : β → α → Drawing σ ε β} {seen : γ → α → Drawing σ ε γ}
    (view : β → γ) {items : List α}
    (agrees : ∀ item ∈ items, ∀ value, seen (view value) item = view <$> step value item)
    (start : β) : items.foldlM seen (view start) = view <$> items.foldlM step start := by
  induction items generalizing start with
  | nil => rfl
  | cons item rest ih =>
      obtain ⟨first, others⟩ := List.forall_mem_cons.mp agrees
      rw [List.foldlM_cons, List.foldlM_cons, first, bind_map_left, map_bind]
      exact congrArg (step start item >>= ·) (funext fun value => ih others value)

section Optional

variable {needed : Prop} [Decidable needed] {draw : Drawing σ ε Bool}

/-- A step that is taken if it is needed, and else if it is drawn. -/
theorem ensures_optional {take : Drawing σ ε α} {skip : α}
    (drawn : Ensures draw (fun _ => True) fails) (taken : Ensures take holds fails)
    (skipped : ¬ needed → holds skip) :
    Ensures (do
      let included ← if needed then pure true else draw
      if included then take else return skip) holds fails := by
  by_cases must : needed
  · rw [if_pos must, pure_bind]
    exact taken
  · rw [if_neg must]
    refine drawn.bind fun included _ => ?_
    cases included with
    | false => exact ensures_pure (skipped must)
    | true => exact taken

/-- What is seen of a step is seen of an optional step. -/
theorem map_optional (view : β → α) {take : Drawing σ ε α} {step : Drawing σ ε β} {skip : β}
    (taken : take = view <$> step) :
    (do
      let included ← if needed then pure true else draw
      if included then take else return view skip) = view <$> (do
        let included ← if needed then pure true else draw
        if included then step else return skip) := by
  by_cases must : needed
  · rw [if_pos must, if_pos must, pure_bind, pure_bind]
    exact taken
  · rw [if_neg must, if_neg must, map_bind]
    refine bind_congr fun included => ?_
    cases included with
    | false => exact (map_pure _ _).symm
    | true => exact taken

end Optional

section Scripts

variable {τ : Type}

/-- A script is used up by a computation with a value, whatever comes after it. -/
def Leads (program : Drawing (List τ) ε α) (script : List τ) (value : α) : Prop :=
  ∀ rest, program (script ++ rest) = .ok (value, rest)

theorem leads_pure (value : α) : Leads (pure value : Drawing (List τ) ε α) [] value :=
  fun _ => rfl

theorem Leads.bind {program : Drawing (List τ) ε α} {next : α → Drawing (List τ) ε β}
    {script more : List τ} {found : α} {value : β} (first : Leads program script found)
    (second : Leads (next found) more value) :
    Leads (program >>= next) (script ++ more) value := by
  intro rest
  rw [List.append_assoc, bind_run, first]
  exact second rest

end Scripts

end Drawing

end SpecMock.Library
