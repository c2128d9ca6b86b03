import Mathlib.Data.String.Basic

/-!
# Tilde escapes

Keys written between slashes: a tilde and a slash inside a key are written with
a tilde in front of a digit.  Decoding reads the escapes in one pass from left
to right and leaves every other tilde as it stands.
-/

namespace SpecMock.Library.Tilde

def escapeChar (char : Char) : List Char :=
  if char = '~' then ['~', '0'] else if char = '/' then ['~', '1'] else [char]

def escape (key : List Char) : List Char := key.flatMap escapeChar

def decode : List Char → List Char
  | '~' :: '0' :: rest => '~' :: decode rest
  | '~' :: '1' :: rest => '/' :: decode rest
  | char :: rest => char :: decode rest
  | [] => []

@[simp]
theorem decode_nil : decode [] = [] := rfl

@[simp]
theorem decode_tilde (rest : List Char) : decode ('~' :: '0' :: rest) = '~' :: decode rest := rfl

@[simp]
theorem decode_slash (rest : List Char) : decode ('~' :: '1' :: rest) = '/' :: decode rest := rfl

theorem decode_other {char : Char} {rest : List Char}
    (notTilde : ∀ more, char = '~' → rest = '0' :: more → False)
    (notSlash : ∀ more, char = '~' → rest = '1' :: more → False) :
    decode (char :: rest) = char :: decode rest := by
  rw [decode]
  · exact notTilde
  · exact notSlash

theorem decode_plain {char : Char} (plain : char ≠ '~') (rest : List Char) :
    decode (char :: rest) = char :: decode rest :=
  decode_other (fun _ tilde => absurd tilde plain) fun _ tilde => absurd tilde plain

/-- Decoding undoes escaping. -/
theorem decode_escape_append (key rest : List Char) :
    decode (escape key ++ rest) = key ++ decode rest := by
  induction key with
  | nil => rfl
  | cons char others ih =>
      change decode (escapeChar char ++ escape others ++ rest) = char :: (others ++ decode rest)
      rw [List.append_assoc, ← ih]
      by_cases tilde : char = '~'
      · subst tilde
        exact decode_tilde _
      by_cases slash : char = '/'
      · subst slash
        exact decode_slash _
      · rw [escapeChar, if_neg tilde, if_neg slash]
        exact decode_plain tilde _

theorem decode_escape (key : List Char) : decode (escape key) = key := by
  simpa using decode_escape_append key []

/-- There is no slash in an escaped key. -/
theorem slash_not_mem_escape (key : List Char) : '/' ∉ escape key := by
  intro member
  obtain ⟨char, _, written⟩ := List.mem_flatMap.mp member
  unfold escapeChar at written
  split at written
  · simp at written
  · split at written
    · simp at written
    next plain => exact plain (List.mem_singleton.mp written).symm

/-- Without a tilde there is nothing to decode. -/
theorem decode_of_not_mem {chars : List Char} (plain : '~' ∉ chars) : decode chars = chars := by
  induction chars with
  | nil => rfl
  | cons char rest ih =>
      rw [decode_plain (fun tilde => plain (tilde ▸ List.mem_cons_self)),
        ih fun member => plain (List.mem_cons_of_mem _ member)]

theorem length_decode_le (chars : List Char) : (decode chars).length ≤ chars.length := by
  induction chars using decode.induct with
  | case1 rest ih => simp only [decode_tilde, List.length_cons]; omega
  | case2 rest ih => simp only [decode_slash, List.length_cons]; omega
  | case3 char rest notTilde notSlash ih =>
      rw [decode_other notTilde notSlash, List.length_cons, List.length_cons]
      omega
  | case4 => rfl

/-- A text that decodes to neither a tilde nor a slash has no escapes. -/
theorem decode_eq_self_of_not_mem {chars : List Char} (noTilde : '~' ∉ decode chars)
    (noSlash : '/' ∉ decode chars) : decode chars = chars := by
  induction chars using decode.induct with
  | case1 rest ih => simp at noTilde
  | case2 rest ih => simp at noSlash
  | case3 char rest notTilde notSlash ih =>
      rw [decode_other notTilde notSlash] at noTilde noSlash ⊢
      rw [ih (fun member => noTilde (List.mem_cons_of_mem _ member))
        fun member => noSlash (List.mem_cons_of_mem _ member)]
  | case4 => exact decode_nil

/-- Decoding changes a text exactly when an escape stands in it. -/
theorem decode_eq_self {chars : List Char} :
    decode chars = chars ↔ ¬ ['~', '0'] <:+: chars ∧ ¬ ['~', '1'] <:+: chars := by
  induction chars using decode.induct with
  | case1 rest ih =>
      have shorter := length_decode_le rest
      refine iff_of_false (fun same => ?_) (fun absent => absent.1 ⟨[], rest, rfl⟩)
      have lengths := congrArg List.length same
      simp only [decode_tilde, List.length_cons] at lengths
      omega
  | case2 rest ih =>
      have shorter := length_decode_le rest
      refine iff_of_false (fun same => ?_) (fun absent => absent.2 ⟨[], rest, rfl⟩)
      have lengths := congrArg List.length same
      simp only [decode_slash, List.length_cons] at lengths
      omega
  | case3 char rest notTilde notSlash ih =>
      rw [decode_other notTilde notSlash, List.cons_inj_right, ih, List.infix_cons_iff,
        List.infix_cons_iff]
      have first : ∀ digit, (∀ more, char = '~' → rest = digit :: more → False) →
          ¬ ['~', digit] <+: char :: rest := by
        rintro digit other ⟨more, same⟩
        cases same
        exact other more rfl rfl
      simp only [first '0' notTilde, first '1' notSlash, false_or]
  | case4 => simp

end SpecMock.Library.Tilde
