import Mathlib.Algebra.Group.Units.Basic
import Mathlib.Algebra.Ring.Basic
import Mathlib.Data.List.Basic
import Mathlib.Data.List.Induction
import Mathlib.Data.Nat.Cast.Basic
import Mathlib.Data.Nat.Digits.Defs

/-!
# Numerals in a ring

The value of digits in a base, the most significant digit first.  Where the base
is a unit, no digit gets lost behind the ones that follow it, and natural
numerals without a leading zero have different values.
-/

namespace SpecMock.Library.Numerals

variable {R σ : Type}

/-- The value of digits behind the value of the digits in front of them. -/
def value [Semiring R] (base : R) (digit : σ → R) (start : R) (symbols : List σ) : R :=
  symbols.foldl (fun number symbol => number * base + digit symbol) start

theorem value_append [Semiring R] (base : R) (digit : σ → R) (start : R)
    (first second : List σ) : value base digit start (first ++ second) =
      value base digit (value base digit start first) second := List.foldl_append

/-- A numeral of natural digits has the value of its natural number. -/
theorem natCast_value [Semiring R] (base start : Nat) (digit : σ → Nat) (symbols : List σ) :
    ((value base digit start symbols : Nat) : R) =
      value (base : R) (fun symbol => (digit symbol : R)) (start : R) symbols := by
  induction symbols generalizing start with
  | nil => rfl
  | cons symbol rest ih =>
      have step : ((start * base + digit symbol : Nat) : R) = start * base + digit symbol := by
        rw [Nat.cast_add, Nat.cast_mul]
      exact (ih _).trans (congrArg (fun number => value (base : R) _ number rest) step)

section Ring

variable [Ring R] {base : R} {digit : σ → R}

/-- What stands in front is not lost behind further digits. -/
theorem value_injective (unit : IsUnit base) (symbols : List σ) :
    Function.Injective fun start => value base digit start symbols := by
  induction symbols with
  | nil => exact fun _ _ same => same
  | cons symbol rest ih =>
      intro first second same
      exact unit.mul_left_injective (add_right_cancel (ih same))

/-- Numerals that differ in one digit have one value only if the digits have. -/
theorem value_digit_inj (unit : IsUnit base) (start : R) (before after : List σ)
    {first second : σ} : value base digit start (before ++ first :: after) =
      value base digit start (before ++ second :: after) ↔ digit first = digit second := by
  constructor
  · intro same
    rw [value_append, value_append] at same
    exact add_left_cancel (value_injective unit after same)
  · intro same
    rw [value_append, value_append]
    exact congrArg (fun number => value base digit (_ + number) after) same

end Ring

section Nat

variable {base : Nat} {digit : σ → Nat}

theorem value_eq_ofDigits (base : Nat) (digit : σ → Nat) (symbols : List σ) :
    value base digit 0 symbols = Nat.ofDigits base (symbols.reverse.map digit) := by
  induction symbols using List.reverseRecOn with
  | nil => rfl
  | append_singleton symbols symbol ih =>
      calc
        value base digit 0 (symbols ++ [symbol]) =
            value base digit 0 symbols * base + digit symbol := value_append ..
        _ = digit symbol + base * Nat.ofDigits base (symbols.reverse.map digit) := by
          rw [ih, Nat.add_comm, Nat.mul_comm]
        _ = Nat.ofDigits base ((symbols ++ [symbol]).reverse.map digit) := by
          rw [List.reverse_append, List.reverse_singleton, List.singleton_append, List.map_cons,
            Nat.ofDigits_cons]

theorem value_lt (large : 1 < base) {symbols : List σ}
    (small : ∀ symbol ∈ symbols, digit symbol < base) :
    value base digit 0 symbols < base ^ symbols.length := by
  rw [value_eq_ofDigits]
  refine (Nat.ofDigits_lt_base_pow_length large ?_).trans_eq (by simp)
  simpa using small

/-- Numerals of positive digits have different values. -/
theorem eq_of_value_eq (large : 1 < base) (injective : Function.Injective digit)
    {first second : List σ} (lower : ∀ symbol ∈ first, 0 < digit symbol ∧ digit symbol < base)
    (upper : ∀ symbol ∈ second, 0 < digit symbol ∧ digit symbol < base)
    (same : value base digit 0 first = value base digit 0 second) : first = second := by
  have read : ∀ {symbols : List σ},
      (∀ symbol ∈ symbols, 0 < digit symbol ∧ digit symbol < base) →
        Nat.digits base (value base digit 0 symbols) = symbols.reverse.map digit := by
    intro symbols bounded
    rw [value_eq_ofDigits]
    have each : ∀ number ∈ symbols.reverse.map digit, 0 < number ∧ number < base := by
      simpa using bounded
    refine Nat.digits_ofDigits base large _ (fun number member => (each number member).2) ?_
    exact fun nonempty => (each _ (List.getLast_mem nonempty)).1.ne'
  have digits := congrArg (Nat.digits base) same
  rw [read lower, read upper] at digits
  exact List.reverse_injective (List.map_injective_iff.mpr injective digits)

end Nat

end SpecMock.Library.Numerals
