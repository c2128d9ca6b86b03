import SpecMock.Library.Text

/-!
# Tokens

The tokens of a text are the runs of characters between white space.  A text is
the tokens of what is before a blank and of what is behind it, so tokens that
are put together with single blanks are found again.
-/

namespace SpecMock.Library.Text

/-- The tokens among some characters. -/
def tokenChars (chars : List Char) : List (List Char) :=
  (chars.splitOnP isWhiteSpace).filter fun token => decide (token ≠ [])

/-- `str::split_whitespace`. -/
def splitWhitespace (text : String) : List String :=
  (tokenChars text.toList).map String.ofList

/-- Not empty and without white space. -/
def IsToken (token : String) : Prop :=
  token ≠ "" ∧ ∀ char ∈ token.toList, isWhiteSpace char = false

theorem tokenChars_append_cons {blank : Char} (white : isWhiteSpace blank = true)
    (before behind : List Char) :
    tokenChars (before ++ blank :: behind) = tokenChars before ++ tokenChars behind := by
  unfold tokenChars
  rw [List.splitOnP_append_cons before behind white, List.filter_append]

theorem tokenChars_of_plain {chars : List Char} (nonempty : chars ≠ [])
    (plain : ∀ char ∈ chars, isWhiteSpace char = false) : tokenChars chars = [chars] := by
  unfold tokenChars
  rw [List.splitOnP_eq_singleton plain, List.filter_singleton]
  simp [nonempty]

theorem plain_of_mem_splitOnP {chars part : List Char}
    (member : part ∈ chars.splitOnP isWhiteSpace) : ∀ char ∈ part, isWhiteSpace char = false := by
  induction chars generalizing part with
  | nil =>
      rw [List.splitOnP_nil, List.mem_singleton] at member
      subst member
      exact nofun
  | cons first rest ih =>
      rw [List.splitOnP_cons_eq_if_modifyHead] at member
      split at member
      · rcases List.mem_cons.mp member with rfl | later
        · exact nofun
        · exact ih later
      next plain =>
        obtain ⟨head, others, parts⟩ :=
          List.exists_cons_of_ne_nil (List.splitOnP_ne_nil isWhiteSpace rest)
        rw [parts, List.modifyHead_cons] at member
        rcases List.mem_cons.mp member with rfl | later
        · intro char inside
          rcases List.mem_cons.mp inside with rfl | deeper
          · simpa using plain
          · exact ih (parts ▸ List.mem_cons_self) char deeper
        · exact ih (parts ▸ List.mem_cons_of_mem _ later)

/-- Every token of a text is one. -/
theorem isToken_of_mem {text token : String} (member : token ∈ splitWhitespace text) :
    IsToken token := by
  obtain ⟨chars, listed, rfl⟩ := List.mem_map.mp member
  obtain ⟨part, nonempty⟩ := List.mem_filter.mp listed
  refine ⟨fun empty => of_decide_eq_true nonempty ?_, ?_⟩
  · exact String.ofList_eq_empty_iff.mp empty
  · rw [String.toList_ofList]
    exact plain_of_mem_splitOnP part

/-- Tokens between blanks are found again. -/
theorem splitWhitespace_joined {tokens : List String} (each : ∀ token ∈ tokens, IsToken token) :
    splitWhitespace (joined ' ' tokens) = tokens := by
  have found : ∀ tokens : List String, (∀ token ∈ tokens, IsToken token) →
      tokenChars ([' '].intercalate (tokens.map String.toList)) = tokens.map String.toList := by
    intro tokens
    induction tokens with
    | nil => exact fun _ => rfl
    | cons token rest ih =>
        intro each
        obtain ⟨⟨nonempty, plain⟩, later⟩ := List.forall_mem_cons.mp each
        have alone : tokenChars token.toList = [token.toList] :=
          tokenChars_of_plain (fun empty => nonempty (String.toList_eq_nil_iff.mp empty)) plain
        cases rest with
        | nil => simpa [List.intercalate] using alone
        | cons next rest =>
            have parts : [' '].intercalate ((token :: next :: rest).map String.toList) =
                token.toList ++ ' ' :: [' '].intercalate ((next :: rest).map String.toList) := by
              simp [List.intercalate]
            rw [parts, tokenChars_append_cons (by decide), alone, ih later]
            rfl
  unfold splitWhitespace joined
  rw [String.toList_ofList, found tokens each, List.map_map]
  exact (List.map_congr_left fun token _ => String.ofList_toList).trans (List.map_id _)

end SpecMock.Library.Text
