import Mathlib.Data.List.Basic
import Mathlib.Data.List.Infix

/-!
# Self-delimiting codes

The code of a value is told apart from the codes of other values when, whatever
follows the two codes, equal symbols come from the same value with the same
rest.  Codes of fixed width and terminated codes are of this kind, and tags and
counts carry the property from parts to what is made of them.
-/

namespace SpecMock.Library.SelfDelimiting

variable {α β σ : Type}

/-- The code of the value is told apart from those of the domain. -/
def Separated (domain : α → Prop) (code : α → List σ) (value : α) : Prop :=
  ∀ other rest more, domain other → code value ++ rest = code other ++ more →
    value = other ∧ rest = more

/-- A code that is told apart is no proper part of another one. -/
theorem Separated.eq_of_part {domain : α → Prop} {code : α → List σ} {value other : α}
    (separated : Separated domain code value) (known : domain other)
    (part : code value <+: code other) : value = other := by
  obtain ⟨rest, same⟩ := part
  exact (separated other rest [] known (by rw [same, List.append_nil])).1

/-- Codes of one width are told apart if they differ. -/
theorem separated_of_width {domain : α → Prop} {code : α → List σ} {width : Nat}
    (wide : ∀ value, (code value).length = width) {value : α}
    (injective : ∀ other, domain other → code value = code other → value = other) :
    Separated domain code value := by
  intro other rest more known same
  obtain ⟨codes, rests⟩ := List.append_inj same (by rw [wide, wide])
  exact ⟨injective other known codes, rests⟩

/-- What precedes the first occurrence of a symbol is determined. -/
theorem eq_of_append_cons {stop : σ} {first second rest more : List σ} (absent : stop ∉ first)
    (missing : stop ∉ second) (same : first ++ stop :: rest = second ++ stop :: more) :
    first = second ∧ rest = more := by
  induction first generalizing second with
  | nil =>
      cases second with
      | nil => exact ⟨rfl, (List.cons.inj same).2⟩
      | cons symbol second => exact absurd (List.cons.inj same).1 (List.ne_of_not_mem_cons missing)
  | cons symbol first ih =>
      cases second with
      | nil => exact absurd (List.cons.inj same).1.symm (List.ne_of_not_mem_cons absent)
      | cons other second =>
          obtain ⟨rfl, rests⟩ := List.cons.inj same
          obtain ⟨rfl, behind⟩ := ih (List.not_mem_of_not_mem_cons absent)
            (List.not_mem_of_not_mem_cons missing) rests
          exact ⟨rfl, behind⟩

/-- Codes that end with a symbol found nowhere else in them are told apart if they differ. -/
theorem separated_of_terminated {domain : α → Prop} {code : α → List σ} {stop : σ}
    (absent : ∀ value, stop ∉ code value) {value : α}
    (injective : ∀ other, domain other → code value = code other → value = other) :
    Separated domain (fun value => code value ++ [stop]) value := by
  intro other rest more known same
  rw [List.append_assoc, List.append_assoc] at same
  obtain ⟨codes, rests⟩ := eq_of_append_cons (absent value) (absent other) same
  exact ⟨injective other known codes, rests⟩

/-- Codes one after the other. -/
theorem Separated.pair {domain : α → Prop} {code : α → List σ} {among : β → Prop}
    {label : β → List σ} {value : α} {mark : β} (first : Separated domain code value)
    (second : Separated among label mark) :
    Separated (fun pair : α × β => domain pair.1 ∧ among pair.2)
      (fun pair => code pair.1 ++ label pair.2) (value, mark) := by
  rintro ⟨other, sign⟩ rest more ⟨known, listed⟩ same
  rw [List.append_assoc, List.append_assoc] at same
  obtain ⟨rfl, behind⟩ := first other _ _ known same
  obtain ⟨rfl, rests⟩ := second sign _ _ listed behind
  exact ⟨rfl, rests⟩

/-- As many codes one after the other. -/
theorem eq_of_flatMap {domain : α → Prop} {code : α → List σ} {values others : List α}
    (each : ∀ value ∈ values, Separated domain code value)
    (known : ∀ other ∈ others, domain other) (counted : values.length = others.length)
    {rest more : List σ} (same : values.flatMap code ++ rest = others.flatMap code ++ more) :
    values = others ∧ rest = more := by
  induction values generalizing others with
  | nil =>
      obtain rfl := List.length_eq_zero_iff.mp counted.symm
      exact ⟨rfl, same⟩
  | cons value values ih =>
      cases others with
      | nil => cases counted
      | cons other others =>
          obtain ⟨first, later⟩ := List.forall_mem_cons.mp each
          obtain ⟨here, there⟩ := List.forall_mem_cons.mp known
          rw [List.flatMap_cons, List.flatMap_cons, List.append_assoc, List.append_assoc] at same
          obtain ⟨rfl, behind⟩ := first other _ _ here same
          obtain ⟨rfl, rests⟩ := ih later there (Nat.succ.inj counted) behind
          exact ⟨rfl, rests⟩

/-- Codes behind their count. -/
theorem separated_counted {domain : α → Prop} {code : α → List σ} {small : Nat → Prop}
    {count : Nat → List σ} {values : List α}
    (counts : Separated small count values.length)
    (each : ∀ value ∈ values, Separated domain code value) :
    Separated (fun others : List α => small others.length ∧ ∀ other ∈ others, domain other)
      (fun others => count others.length ++ others.flatMap code) values := by
  rintro others rest more ⟨few, known⟩ same
  rw [List.append_assoc, List.append_assoc] at same
  obtain ⟨counted, behind⟩ := counts _ _ _ few same
  exact eq_of_flatMap each known counted behind

end SpecMock.Library.SelfDelimiting
