import Mathlib.Data.String.Basic
import Mathlib.Data.List.DropRight
import Mathlib.Data.List.TakeWhile

/-!
# Text

Cutting text at a separator, joining the pieces again and trimming the ends of
a text.  The functions work on the characters of a string, so they compute in
proofs.
-/

namespace SpecMock.Library.Text

/-- The pieces between the occurrences of a separator. -/
def pieces (separator : Char) (text : String) : List String :=
  (text.toList.splitOn separator).map String.ofList

/-- The text with the given pieces between separators. -/
def joined (separator : Char) (parts : List String) : String :=
  String.ofList ([separator].intercalate (parts.map String.toList))

/-- The non-empty pieces of a text. -/
def words (separator : Char) (text : String) : List String :=
  (pieces separator text).filter fun piece => decide (piece ≠ "")

/-- The text without the characters at both ends that satisfy `drop`. -/
def trimEnds (drop : Char → Bool) (text : String) : String :=
  String.ofList (((text.toList.dropWhile drop).reverse.dropWhile drop).reverse)

/-- The parts before and after the first occurrence of a separator. -/
def splitOnce (separator : Char) (text : String) : Option (String × String) :=
  match text.toList.dropWhile fun char => char != separator with
  | [] => none
  | _ :: after =>
      some (String.ofList (text.toList.takeWhile fun char => char != separator),
        String.ofList after)

/-- What follows a prefix, if the text starts with it. -/
def stripPrefix (start text : String) : Option String :=
  if start.toList <+: text.toList then some (String.ofList (text.toList.drop start.toList.length))
  else none

/-- Characters with the Unicode property `White_Space`. -/
def isWhiteSpace (char : Char) : Bool :=
  let code := char.toNat
  (0x09 ≤ code && code ≤ 0x0d) || code == 0x20 || code == 0x85 || code == 0xa0 ||
    code == 0x1680 || (0x2000 ≤ code && code ≤ 0x200a) || code == 0x2028 || code == 0x2029 ||
    code == 0x202f || code == 0x205f || code == 0x3000

def trim (text : String) : String := trimEnds isWhiteSpace text

theorem pieces_ne_nil (separator : Char) (text : String) : pieces separator text ≠ [] := by
  simp [pieces]

/-- There is no separator inside a piece. -/
theorem separator_not_mem_of_mem_splitOn {separator : Char} {chars part : List Char}
    (member : part ∈ chars.splitOn separator) : separator ∉ part := by
  induction chars generalizing part with
  | nil => simp_all [List.splitOn_nil]
  | cons char rest ih =>
      rw [List.splitOn_cons_eq_if_modifyHead] at member
      split at member
      next =>
        rcases List.mem_cons.mp member with rfl | later
        · exact List.not_mem_nil
        · exact ih later
      next differs =>
        obtain ⟨first, others, split⟩ :=
          List.exists_cons_of_ne_nil (List.splitOn_ne_nil separator rest)
        rw [split, List.modifyHead_cons] at member
        rcases List.mem_cons.mp member with rfl | later
        · have apart : ¬ separator = char := fun same => differs (by simp [same])
          have inside := ih (split ▸ List.mem_cons_self)
          simp [apart, inside]
        · exact ih (split ▸ List.mem_cons_of_mem _ later)

theorem separator_not_mem_of_mem_pieces {separator : Char} {text piece : String}
    (member : piece ∈ pieces separator text) : separator ∉ piece.toList := by
  obtain ⟨chars, part, rfl⟩ := List.mem_map.mp member
  rw [String.toList_ofList]
  exact separator_not_mem_of_mem_splitOn part

/-- Pieces without separators are the pieces of the text they make. -/
theorem pieces_joined {separator : Char} {parts : List String}
    (undivided : ∀ part ∈ parts, separator ∉ part.toList) (nonempty : parts ≠ []) :
    pieces separator (joined separator parts) = parts := by
  have split : ([separator].intercalate (parts.map String.toList)).splitOn separator =
      parts.map String.toList :=
    List.splitOn_intercalate separator (by simpa using undivided) (by simpa using nonempty)
  rw [pieces, joined, String.toList_ofList, split, List.map_map]
  exact List.map_id'' (fun part => String.ofList_toList) parts

/-- A text is joined from its pieces. -/
theorem joined_pieces (separator : Char) (text : String) :
    joined separator (pieces separator text) = text := by
  have parts : (pieces separator text).map String.toList = text.toList.splitOn separator := by
    rw [pieces, List.map_map]
    exact List.map_id'' (fun part => String.toList_ofList) _
  rw [joined, parts, List.intercalate_splitOn, String.ofList_toList]

/-- A text without separators is its only piece. -/
theorem pieces_undivided {separator : Char} {text : String} (undivided : separator ∉ text.toList) :
    pieces separator text = [text] := by
  have alone : joined separator [text] = text := by simp [joined]
  have split : pieces separator (joined separator [text]) = [text] :=
    pieces_joined (by simpa using undivided) (List.cons_ne_nil _ _)
  rwa [alone] at split

/-- The first piece starts the text. -/
theorem headD_pieces_prefix (separator : Char) (text default : String) :
    ((pieces separator text).headD default).toList <+: text.toList := by
  have joins := joined_pieces separator text
  cases parts : pieces separator text with
  | nil => exact absurd parts (pieces_ne_nil separator text)
  | cons first rest =>
      rw [parts, joined] at joins
      rw [← joins, String.toList_ofList, List.headD_cons, List.map_cons]
      cases rest with
      | nil => simp
      | cons next others =>
          rw [List.map_cons, List.intercalate_cons_cons, List.append_assoc]
          exact List.prefix_append _ _

/-- Without separators, what starts the characters starts their first piece. -/
theorem prefix_head_splitOn {separator : Char} {part chars first : List Char}
    {others : List (List Char)} (undivided : separator ∉ part) (start : part <+: chars)
    (split : chars.splitOn separator = first :: others) : part <+: first := by
  induction chars generalizing part first others with
  | nil =>
      rw [List.prefix_nil.mp start]
      exact List.nil_prefix
  | cons char rest ih =>
      cases part with
      | nil => exact List.nil_prefix
      | cons head tail =>
          obtain ⟨same, later⟩ := List.cons_prefix_cons.mp start
          subst same
          have apart : ¬ (head == separator) = true := by
            intro equal
            exact undivided (beq_iff_eq.mp equal ▸ List.mem_cons_self)
          obtain ⟨next, rests, splitRest⟩ :=
            List.exists_cons_of_ne_nil (List.splitOn_ne_nil separator rest)
          rw [List.splitOn_cons_eq_if_modifyHead, if_neg apart, splitRest, List.modifyHead_cons]
            at split
          cases split
          have undividedTail : separator ∉ tail :=
            fun member => undivided (List.mem_cons_of_mem _ member)
          exact List.cons_prefix_cons.mpr ⟨rfl, ih undividedTail later splitRest⟩

/-- Without separators, what lies within the characters lies within one of their pieces. -/
theorem exists_infix_splitOn {separator : Char} {part chars : List Char}
    (undivided : separator ∉ part) (inside : part <:+: chars) :
    ∃ piece ∈ chars.splitOn separator, part <:+: piece := by
  induction chars with
  | nil => exact ⟨[], by simp, inside⟩
  | cons char rest ih =>
      obtain ⟨first, others, split⟩ :=
        List.exists_cons_of_ne_nil (List.splitOn_ne_nil separator (char :: rest))
      rcases List.infix_cons_iff.mp inside with start | later
      · refine ⟨first, split ▸ List.mem_cons_self, ?_⟩
        exact (prefix_head_splitOn undivided start split).isInfix
      · obtain ⟨piece, member, within⟩ := ih later
        rw [List.splitOn_cons_eq_if_modifyHead]
        split
        next => exact ⟨piece, List.mem_cons_of_mem _ member, within⟩
        next =>
          obtain ⟨next, rests, splitRest⟩ :=
            List.exists_cons_of_ne_nil (List.splitOn_ne_nil separator rest)
          rw [splitRest] at member ⊢
          rw [List.modifyHead_cons]
          rcases List.mem_cons.mp member with rfl | tail
          · exact ⟨char :: piece, List.mem_cons_self, within.trans (List.suffix_cons _ _).isInfix⟩
          · exact ⟨piece, List.mem_cons_of_mem _ tail, within⟩

theorem infix_intercalate {part : List Char} {parts : List (List Char)} (between : List Char)
    (member : part ∈ parts) : part <:+: between.intercalate parts := by
  induction parts with
  | nil => cases member
  | cons first rest ih =>
      cases rest with
      | nil =>
          have only : between.intercalate [first] = part := by
            rw [List.mem_singleton.mp member, List.intercalate_singleton]
          exact only ▸ List.infix_rfl
      | cons next others =>
          rw [List.intercalate_cons_cons]
          rcases List.mem_cons.mp member with rfl | later
          · exact ⟨[], between ++ between.intercalate (next :: others), by simp⟩
          · exact (ih later).trans (List.suffix_append _ _).isInfix

/-- A text without separators lies within a text exactly if it lies within one of the pieces. -/
theorem infix_iff_pieces {separator : Char} {part text : String}
    (undivided : separator ∉ part.toList) :
    part.toList <:+: text.toList ↔ ∃ piece ∈ pieces separator text,
      part.toList <:+: piece.toList := by
  constructor
  · intro inside
    obtain ⟨piece, member, within⟩ := exists_infix_splitOn undivided inside
    refine ⟨String.ofList piece, List.mem_map_of_mem member, ?_⟩
    rwa [String.toList_ofList]
  · rintro ⟨piece, member, within⟩
    refine within.trans ?_
    rw [← joined_pieces separator text, joined, String.toList_ofList]
    exact infix_intercalate [separator] (List.mem_map_of_mem (f := String.toList) member)

/-- The text with a separator in front of every part. -/
def rooted (separator : Char) (parts : List String) : String :=
  String.ofList (parts.flatMap fun part => separator :: part.toList)

/-- Rooted parts are the joined parts behind one more separator. -/
theorem rooted_toList {separator : Char} {parts : List String} (nonempty : parts ≠ []) :
    (rooted separator parts).toList = separator :: (joined separator parts).toList := by
  rw [rooted, joined, String.toList_ofList, String.toList_ofList]
  induction parts with
  | nil => exact absurd rfl nonempty
  | cons part rest ih =>
      rw [List.flatMap_cons, List.map_cons, List.cons_append]
      cases rest with
      | nil => simp
      | cons next others =>
          rw [ih (List.cons_ne_nil _ _), List.map_cons, List.intercalate_cons_cons]
          simp

/-- What follows a leading separator is cut into the parts of a rooted text. -/
theorem rooted_pieces {separator : Char} {text : String} {rest : List Char}
    (leading : text.toList = separator :: rest) :
    rooted separator (pieces separator (String.ofList rest)) = text := by
  apply String.toList_injective
  rw [rooted_toList (pieces_ne_nil _ _), joined_pieces, String.toList_ofList, leading]

theorem mem_of_mem_trimEnds {drop : Char → Bool} {text : String} {char : Char}
    (member : char ∈ (trimEnds drop text).toList) : char ∈ text.toList := by
  rw [trimEnds, String.toList_ofList, List.mem_reverse] at member
  have kept := List.mem_reverse.mp ((List.dropWhile_sublist drop).subset member)
  exact (List.dropWhile_sublist drop).subset kept

/-- A trimmed text is a part of the text. -/
theorem trimEnds_infix (drop : Char → Bool) (text : String) :
    (trimEnds drop text).toList <:+: text.toList := by
  rw [trimEnds, String.toList_ofList]
  have back := List.rdropWhile_prefix drop (l := text.toList.dropWhile drop)
  exact back.isInfix.trans (List.dropWhile_suffix drop).isInfix

/-- Trimming leaves nothing to trim. -/
theorem trimEnds_idem (drop : Char → Bool) (text : String) :
    trimEnds drop (trimEnds drop text) = trimEnds drop text := by
  have front : ((text.toList.dropWhile drop).rdropWhile drop).dropWhile drop =
      (text.toList.dropWhile drop).rdropWhile drop := by
    rw [List.dropWhile_eq_self_iff]
    intro nonempty
    have start := List.rdropWhile_prefix drop (l := text.toList.dropWhile drop)
    have inside : 0 < (text.toList.dropWhile drop).length :=
      Nat.lt_of_lt_of_le nonempty start.length_le
    rw [start.getElem nonempty]
    have idem := List.dropWhile_idempotent drop text.toList
    exact List.dropWhile_eq_self_iff.mp idem inside
  have back := List.rdropWhile_idempotent drop (text.toList.dropWhile drop)
  unfold trimEnds
  simp only [String.toList_ofList]
  change String.ofList ((((text.toList.dropWhile drop).rdropWhile drop).dropWhile drop).rdropWhile
    drop) = _
  rw [front, back]
  rfl

/-- Without a separator nothing is split off. -/
theorem splitOnce_undivided {separator : Char} {text : String}
    (undivided : separator ∉ text.toList) : splitOnce separator text = none := by
  have all : text.toList.dropWhile (fun char => char != separator) = [] := by
    rw [List.dropWhile_eq_nil_iff]
    intro char member
    exact bne_iff_ne.mpr fun same => undivided (same ▸ member)
  rw [splitOnce, all]

/-- A text is split at the separator behind a part that has none. -/
theorem splitOnce_append {separator : Char} {first : String} (undivided : separator ∉ first.toList)
    (second : String) : splitOnce separator (first ++ String.singleton separator ++ second) =
      some (first, second) := by
  have plain : ∀ char ∈ first.toList, (char != separator) = true := by
    intro char member
    exact bne_iff_ne.mpr fun same => undivided (same ▸ member)
  have chars : (first ++ String.singleton separator ++ second).toList =
      first.toList ++ separator :: second.toList := by simp
  rw [splitOnce, chars, List.dropWhile_append_of_pos plain, List.takeWhile_append_of_pos plain,
    List.dropWhile_cons_of_neg (by simp), List.takeWhile_cons_of_neg (by simp), List.append_nil,
    String.ofList_toList]
  exact congrArg (fun after => some (first, after)) String.ofList_toList

/-- A separator splits the text. -/
theorem splitOnce_ne_none {separator : Char} {text : String}
    (divided : separator ∈ text.toList) : splitOnce separator text ≠ none := by
  unfold splitOnce
  split
  next all =>
    have apart := List.dropWhile_eq_nil_iff.mp all separator divided
    simp at apart
  next => simp

/-- The first part of a split is a part of the text, without the separator. -/
theorem mem_of_splitOnce {separator : Char} {text : String} {parts : String × String}
    (split : splitOnce separator text = some parts) {char : Char}
    (member : char ∈ parts.1.toList) : char ≠ separator ∧ char ∈ text.toList := by
  unfold splitOnce at split
  split at split
  · cases split
  · cases split
    rw [String.toList_ofList] at member
    have apart := List.mem_takeWhile_imp (p := fun char => char != separator) member
    exact ⟨bne_iff_ne.mp apart, (List.takeWhile_sublist _).subset member⟩

theorem filter_splitOn_dropWhile (separator : Char) (chars : List Char) :
    ((chars.dropWhile fun char => char == separator).splitOn separator).filter
        (fun part => decide (part ≠ [])) =
      (chars.splitOn separator).filter fun part => decide (part ≠ []) := by
  induction chars with
  | nil => rfl
  | cons char rest ih =>
      rw [List.dropWhile_cons]
      split
      next same =>
        rw [ih, List.splitOn_cons_eq_if_modifyHead, if_pos same]
        simp
      next => rfl

theorem filter_splitOn_rdropWhile (separator : Char) (chars : List Char) :
    ((chars.rdropWhile fun char => char == separator).splitOn separator).filter
        (fun part => decide (part ≠ [])) =
      (chars.splitOn separator).filter fun part => decide (part ≠ []) := by
  induction chars using List.reverseRecOn with
  | nil => rfl
  | append_singleton rest char ih =>
      rw [List.rdropWhile_concat]
      split
      next same =>
        rw [ih, List.splitOn_append_cons_of_beq rest [] same]
        simp
      next => rfl

/-- Separators at the ends of a text do not change its words. -/
theorem words_trimEnds (separator : Char) (text : String) :
    words separator (trimEnds (fun char => char == separator) text) = words separator text := by
  have trimmed := (filter_splitOn_rdropWhile separator _).trans
    (filter_splitOn_dropWhile separator text.toList)
  have nonempty : ((fun piece => decide (piece ≠ "")) ∘ String.ofList) =
      fun part : List Char => decide (part ≠ []) := by
    funext part
    simp
  simp only [words, pieces, List.filter_map, nonempty, trimEnds, String.toList_ofList]
  exact congrArg _ trimmed

/-- Different numbers are written differently. -/
theorem toString_injective : Function.Injective (toString : Nat → String) := by
  intro first second same
  have digits : Nat.toDigits 10 first = Nat.toDigits 10 second := by
    rw [← Nat.toList_repr, ← Nat.toList_repr]
    exact congrArg String.toList same
  have values := congrArg (fun digits => Nat.ofDigitChars 10 digits 0) digits
  simpa using values

theorem toString_int_injective : Function.Injective (toString : Int → String) := by
  have unsigned : ∀ value below : Nat, (toString value : String) ≠ "-" ++ toString below := by
    intro value below same
    have sign : '-' ∈ (toString value).toList := by simp [same]
    rw [show (toString value).toList = Nat.toDigits 10 value from Nat.toList_repr] at sign
    exact absurd (Nat.isDigit_of_mem_toDigits (by decide) (by decide) sign) (by decide)
  intro first second same
  cases first with
  | ofNat first =>
      cases second with
      | ofNat second => exact congrArg Int.ofNat (toString_injective same)
      | negSucc second => exact absurd same (unsigned first (second + 1))
  | negSucc first =>
      cases second with
      | ofNat second => exact absurd same.symm (unsigned second (first + 1))
      | negSucc second =>
          have digits : "-" ++ toString (first + 1) = "-" ++ toString (second + 1) := same
          have values := toString_injective ((String.append_right_inj "-").mp digits)
          rw [Nat.succ.inj values]

theorem digitChar_of_isDigit {char : Char} (digit : char.isDigit = true) :
    char.toNat - '0'.toNat < 10 ∧ Nat.digitChar (char.toNat - '0'.toNat) = char := by
  obtain ⟨low, high⟩ := Char.isDigit_iff_toNat.mp digit
  have value : char.toNat - '0'.toNat < 10 := by
    change char.toNat ≤ 57 at high
    change char.toNat - 48 < 10
    omega
  refine ⟨value, Char.toNat_inj.mp ?_⟩
  have written := Nat.toNat_digitChar_of_lt_ten value
  rw [written]
  change 48 ≤ char.toNat at low
  change 48 + (char.toNat - 48) = char.toNat
  omega

/-- Digits are written like their value, behind zeros. -/
theorem leading_zeros {digits : List Char} (nonempty : digits ≠ [])
    (decimal : ∀ digit ∈ digits, digit.isDigit = true) :
    ∃ zeros, digits =
      List.replicate zeros '0' ++ Nat.toDigits 10 (Nat.ofDigitChars 10 digits 0) := by
  induction digits using List.reverseRecOn with
  | nil => exact absurd rfl nonempty
  | append_singleton front last ih =>
      obtain ⟨below, written⟩ := digitChar_of_isDigit (decimal last (by simp))
      have value : Nat.ofDigitChars 10 (front ++ [last]) 0 =
          10 * Nat.ofDigitChars 10 front 0 + (last.toNat - '0'.toNat) := by
        rw [Nat.ofDigitChars_append, Nat.ofDigitChars_cons, Nat.ofDigitChars_nil]
      have alone : Nat.toDigits 10 (last.toNat - '0'.toNat) = [last] := by
        rw [Nat.toDigits_of_lt_base below, written]
      rw [value]
      by_cases empty : front = []
      · subst empty
        exact ⟨0, by simpa using alone.symm⟩
      obtain ⟨zeros, split⟩ := ih empty fun digit member => decimal digit (by simp [member])
      rcases Nat.eq_zero_or_pos (Nat.ofDigitChars 10 front 0) with zero | positive
      · -- So far there were only zeros.
        rw [zero, Nat.toDigits_zero, ← List.replicate_succ'] at split
        refine ⟨zeros + 1, ?_⟩
        rw [zero, Nat.mul_zero, Nat.zero_add, alone, ← split]
      · refine ⟨zeros, ?_⟩
        rw [← Nat.toDigits_append_toDigits (by omega) positive below, alone, ← List.append_assoc,
          ← split]

/-- A prefix is stripped from what it begins, and from nothing else. -/
theorem stripPrefix_eq_some_iff {start text rest : String} :
    stripPrefix start text = some rest ↔ text = start ++ rest := by
  unfold stripPrefix
  constructor
  · intro stripped
    split at stripped
    next within =>
      obtain ⟨behind, shape⟩ := within
      cases stripped
      apply String.toList_injective
      rw [String.toList_append, String.toList_ofList, ← shape, List.drop_left]
    next => cases stripped
  · rintro rfl
    rw [String.toList_append, if_pos (List.prefix_append _ _), List.drop_left,
      String.ofList_toList]

end SpecMock.Library.Text
