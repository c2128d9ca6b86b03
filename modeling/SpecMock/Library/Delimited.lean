import SpecMock.Library.SelfDelimiting

/-!
# Codes that are delimited by what follows

Some codes are told apart only where they stop: a number is followed by no
digit.  Among codes of this kind are self-delimiting codes, runs over an
alphabet that what follows does not continue, and sequences up to a symbol that
begins none of their codes.
-/

namespace SpecMock.Library.SelfDelimiting

variable {α σ : Type}

/-- The code is told apart from those of the domain where both are followed by what may follow. -/
def Delimited (follows : List σ → Prop) (domain : α → Prop) (code : α → List σ) (value : α) :
    Prop :=
  ∀ other rest more, domain other → follows rest → follows more →
    code value ++ rest = code other ++ more → value = other ∧ rest = more

theorem Separated.delimited {domain : α → Prop} {code : α → List σ} {value : α}
    (separated : Separated domain code value) (follows : List σ → Prop) :
    Delimited follows domain code value :=
  fun other rest more known _ _ same => separated other rest more known same

/-- What reads the code back, whatever follows it, tells it apart. -/
theorem separated_of_read {domain : α → Prop} {code : α → List σ} {value : α}
    (read : List σ → Option (α × List σ)) (reads : ∀ rest, read (code value ++ rest) =
      some (value, rest))
    (others : ∀ other, domain other → ∀ rest, read (code other ++ rest) = some (other, rest)) :
    Separated domain code value := by
  intro other rest more known same
  have found := reads rest
  rw [same, others other known, Option.some.injEq, Prod.mk.injEq] at found
  exact ⟨found.1.symm, found.2.symm⟩

/-- Nothing follows, or a symbol outside the alphabet. -/
def Breaks (alphabet : σ → Bool) (rest : List σ) : Prop :=
  ∀ symbol ∈ rest.head?, alphabet symbol = false

theorem takeWhile_append_of_breaks {alphabet : σ → Bool} {run rest : List σ}
    (spelled : ∀ symbol ∈ run, alphabet symbol = true) (breaks : Breaks alphabet rest) :
    (run ++ rest).takeWhile alphabet = run := by
  rw [List.takeWhile_append_of_pos spelled]
  cases rest with
  | nil => exact List.append_nil run
  | cons symbol rest =>
      have outside : alphabet symbol = false := breaks symbol rfl
      rw [List.takeWhile_cons_of_neg (by simp [outside]), List.append_nil]

/-- Runs over an alphabet are told apart if they differ and nothing continues them. -/
theorem eq_of_runs {alphabet : σ → Bool} {first second rest more : List σ}
    (spelled : ∀ symbol ∈ first, alphabet symbol = true)
    (written : ∀ symbol ∈ second, alphabet symbol = true) (breaks : Breaks alphabet rest)
    (stops : Breaks alphabet more) (same : first ++ rest = second ++ more) :
    first = second ∧ rest = more := by
  have runs := congrArg (List.takeWhile alphabet) same
  rw [takeWhile_append_of_breaks spelled breaks, takeWhile_append_of_breaks written stops] at runs
  subst runs
  exact ⟨rfl, List.append_cancel_left same⟩

/-- Codes one after the other, up to a symbol that begins none of them. -/
theorem eq_of_flatMap_stop (follows : List σ → Prop) (domain : α → Prop) {code : α → List σ}
    {stop : σ} (closes : ∀ rest, follows (stop :: rest))
    (opens : ∀ value, domain value → ∀ rest, follows (code value ++ rest))
    (starts : ∀ value, domain value → ∃ symbol behind, code value = symbol :: behind ∧
      symbol ≠ stop)
    {values others : List α} (each : ∀ value ∈ values, domain value ∧
      Delimited follows domain code value) (known : ∀ other ∈ others, domain other)
    {rest more : List σ}
    (same : values.flatMap code ++ stop :: rest = others.flatMap code ++ stop :: more) :
    values = others ∧ rest = more := by
  have behind : ∀ codes : List α, (∀ value ∈ codes, domain value) → ∀ rest,
      follows (codes.flatMap code ++ stop :: rest) := by
    intro codes inside rest
    cases codes with
    | nil => exact closes rest
    | cons value codes =>
        rw [List.flatMap_cons, List.append_assoc]
        exact opens value (inside value List.mem_cons_self) _
  induction values generalizing others with
  | nil =>
      cases others with
      | nil => exact ⟨rfl, (List.cons.inj same).2⟩
      | cons other others =>
          obtain ⟨symbol, later, begun, differs⟩ := starts other (known other List.mem_cons_self)
          rw [List.flatMap_cons, begun] at same
          exact absurd (List.cons.inj same).1.symm differs
  | cons value values ih =>
      obtain ⟨⟨inside, delimited⟩, later⟩ := List.forall_mem_cons.mp each
      cases others with
      | nil =>
          obtain ⟨symbol, after, begun, differs⟩ := starts value inside
          rw [List.flatMap_cons, begun] at same
          exact absurd (List.cons.inj same).1 differs
      | cons other others =>
          obtain ⟨here, there⟩ := List.forall_mem_cons.mp known
          rw [List.flatMap_cons, List.flatMap_cons, List.append_assoc, List.append_assoc] at same
          obtain ⟨rfl, tails⟩ := delimited other _ _ here
            (behind values (fun value member => (later value member).1) rest)
            (behind others there more) same
          obtain ⟨rfl, rests⟩ := ih later there tails
          exact ⟨rfl, rests⟩

end SpecMock.Library.SelfDelimiting
