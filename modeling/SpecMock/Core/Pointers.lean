import SpecMock.Core.RefResolver
import SpecMock.Library.Tilde

/-!
# What pointers address

A path of object keys and array indices leads from a document to one of its
nodes, and a pointer writes a path with a slash in front of every step.  The
resolver finds the node of every path from its pointer, the path of a single
empty key apart, and finds nothing where no path is spelled.
-/

namespace SpecMock.Core

open SpecMock.Library

/-- One step into a document: a member of an object or an item of an array. -/
inductive PathStep where
  | key (name : String)
  | index (position : Nat)
  deriving DecidableEq

/-- The node that a path leads to. -/
def Value.nodeAt : Value → List PathStep → Option Value
  | node, [] => some node
  | .object members, .key name :: rest => (members.lookup name).bind fun child => child.nodeAt rest
  | .array items, .index position :: rest => items[position]?.bind fun child => child.nodeAt rest
  | _, _ :: _ => none

/-- The length of every array in a value is a machine word. -/
def ArraysFit (value : Value) : Prop :=
  ∀ path items, value.nodeAt path = some (.array items) → items.length < 2 ^ 64

/-- A document, with arrays that a machine can hold. -/
structure Document where
  value : Value
  arrays : ArraysFit value

/-- A step as a segment of a pointer: keys are escaped, indices are decimal numbers. -/
def encodeStep : PathStep → String
  | .key name => String.ofList (Tilde.escape name.toList)
  | .index position => toString position

/-- The pointer of a path. -/
def encodePointer (path : List PathStep) : String := Text.rooted '/' (path.map encodeStep)

/--
A segment spells a key if it decodes to it, and an index if it is the index
behind zeros and at most one plus sign.
-/
def SpelledBy : PathStep → String → Prop
  | .key name, segment => '/' ∉ segment.toList ∧ Tilde.decode segment.toList = name.toList
  | .index position, segment => ∃ sign zeros, (sign = [] ∨ sign = ['+']) ∧
      segment.toList = sign ++ (List.replicate zeros '0' ++ (toString position).toList)

/-- A pointer spells a path step by step. -/
def Spells (pointer : String) (path : List PathStep) : Prop :=
  ∃ segments, List.Forall₂ SpelledBy path segments ∧ pointer = Text.rooted '/' segments

theorem spelledBy_encodeStep (step : PathStep) : SpelledBy step (encodeStep step) := by
  cases step with
  | key name =>
      refine ⟨?_, ?_⟩
      · simpa [encodeStep] using Tilde.slash_not_mem_escape name.toList
      · simpa [encodeStep] using Tilde.decode_escape name.toList
  | index position => exact ⟨[], 0, .inl rfl, by simp [encodeStep]⟩

/-- The pointer of a path spells it. -/
theorem spells_encodePointer (path : List PathStep) : Spells (encodePointer path) path :=
  ⟨path.map encodeStep, List.forall₂_map_right_iff.mpr
    (List.forall₂_same.mpr fun step _ => spelledBy_encodeStep step), rfl⟩

theorem replaceEscape_code (code char : Char) (rest : List Char) :
    replaceEscape code char ('~' :: code :: rest) = char :: replaceEscape code char rest := by
  rw [replaceEscape, if_pos rfl]

theorem replaceEscape_plain {code char first : Char} (plain : first ≠ '~') (rest : List Char) :
    replaceEscape code char (first :: rest) = first :: replaceEscape code char rest := by
  rw [replaceEscape]
  exact fun _ _ tilde => absurd tilde plain

/-- A tilde in front of no code is kept. -/
theorem replaceEscape_tilde {code char : Char} {rest : List Char}
    (apart : ∀ more, rest ≠ code :: more) :
    replaceEscape code char ('~' :: rest) = '~' :: replaceEscape code char rest := by
  cases rest with
  | nil => rfl
  | cons next others =>
      rw [replaceEscape, if_neg]
      rintro rfl
      exact apart others rfl

/-- What the first character of a segment is read as. -/
theorem head_replaceEscape {code char first : Char} {chars rest : List Char}
    (read : replaceEscape code char chars = first :: rest) :
    first = char ∨ ∃ more, chars = first :: more := by
  cases chars with
  | nil => cases read
  | cons head tail =>
      by_cases tilde : head = '~'
      · subst tilde
        by_cases escaped : ∃ more, tail = code :: more
        · obtain ⟨more, rfl⟩ := escaped
          rw [replaceEscape_code] at read
          exact .inl (List.cons.inj read).1.symm
        · rw [replaceEscape_tilde fun more same => escaped ⟨more, same⟩] at read
          exact .inr ⟨tail, by rw [(List.cons.inj read).1]⟩
      · rw [replaceEscape_plain tilde] at read
        exact .inr ⟨tail, by rw [(List.cons.inj read).1]⟩

/-- Replacing `~1` and then `~0` decodes a segment in one pass. -/
theorem replaceEscape_replaceEscape (chars : List Char) :
    replaceEscape '0' '~' (replaceEscape '1' '/' chars) = Tilde.decode chars := by
  induction chars using Tilde.decode.induct with
  | case1 rest ih =>
      have zero : '0' ≠ '~' := by decide
      rw [Tilde.decode_tilde, replaceEscape_tilde (by simp), replaceEscape_plain zero,
        replaceEscape_code, ih]
  | case2 rest ih =>
      rw [Tilde.decode_slash, replaceEscape_code, replaceEscape_plain (by decide), ih]
  | case3 char rest notTilde notSlash ih =>
      rw [Tilde.decode_other notTilde notSlash]
      by_cases tilde : char = '~'
      · subst tilde
        rw [replaceEscape_tilde fun more same => notSlash more rfl same, replaceEscape_tilde, ih]
        intro more read
        rcases head_replaceEscape read with zero | ⟨others, same⟩
        · exact absurd zero (by decide)
        · exact notTilde others rfl same
      · rw [replaceEscape_plain tilde, replaceEscape_plain tilde, ih]
  | case4 => rfl

theorem unescapeSegment_toList (segment : String) :
    (unescapeSegment segment).toList = Tilde.decode segment.toList := by
  rw [unescapeSegment, String.toList_ofList, replaceEscape_replaceEscape]

/-- A number below the word size, written in digits behind at most one plus sign. -/
theorem parseUsize_eq_some {text : String} {value : Nat} :
    parseUsize text = some value ↔ ∃ sign digits, (sign = [] ∨ sign = ['+']) ∧
      text.toList = sign ++ digits ∧ digits ≠ [] ∧ (∀ digit ∈ digits, digit.isDigit = true) ∧
      Nat.ofDigitChars 10 digits 0 = value ∧ value < 2 ^ 64 := by
  have numeral : ∀ digits : List Char,
      (if digits ≠ [] ∧ digits.all Char.isDigit then
        if Nat.ofDigitChars 10 digits 0 < 2 ^ 64 then some (Nat.ofDigitChars 10 digits 0) else none
      else none) = some value ↔
      digits ≠ [] ∧ (∀ digit ∈ digits, digit.isDigit = true) ∧
        Nat.ofDigitChars 10 digits 0 = value ∧ value < 2 ^ 64 := by
    intro digits
    simp only [List.all_eq_true]
    split
    next decimal =>
      rw [and_iff_right decimal.1, and_iff_right decimal.2]
      split
      next word =>
        rw [Option.some.injEq]
        exact ⟨fun same => ⟨same, same ▸ word⟩, fun held => held.1⟩
      next large => exact iff_of_false (by simp) fun held => large (held.1 ▸ held.2)
    next other => exact iff_of_false (by simp) fun held => other ⟨held.1, held.2.1⟩
  have plus : '+'.isDigit = false := by decide
  unfold parseUsize
  simp only [← Nat.ofDigitChars_eq_foldl]
  split
  next rest signed =>
    rw [numeral, signed]
    constructor
    · exact fun held => ⟨['+'], rest, .inr rfl, rfl, held⟩
    · rintro ⟨sign, digits, rfl | rfl, split, nonempty, decimal, held⟩
      · rw [List.nil_append] at split
        have digit := decimal '+' (split ▸ List.mem_cons_self)
        rw [plus] at digit
        cases digit
      · rw [(List.cons.inj split).2]
        exact ⟨nonempty, decimal, held⟩
  next unsigned =>
    rw [numeral]
    constructor
    · exact fun held => ⟨[], text.toList, .inl rfl, rfl, held⟩
    · rintro ⟨sign, digits, rfl | rfl, split, held⟩
      · rw [split]
        exact held
      · exact absurd split (unsigned digits)

/-- The resolver reads exactly the spellings of an index, up to the word size. -/
theorem parseUsize_iff_spelled {segment : String} {position : Nat} (word : position < 2 ^ 64) :
    parseUsize segment = some position ↔ SpelledBy (.index position) segment := by
  rw [parseUsize_eq_some]
  have decimals : (toString position).toList = Nat.toDigits 10 position := Nat.toList_repr
  simp only [SpelledBy, decimals]
  constructor
  · rintro ⟨sign, digits, signed, written, nonempty, decimal, rfl, _⟩
    obtain ⟨zeros, split⟩ := Text.leading_zeros nonempty decimal
    exact ⟨sign, zeros, signed, by rw [written, ← split]⟩
  · rintro ⟨sign, zeros, signed, written⟩
    refine ⟨sign, _, signed, written, by simp [Nat.toDigits_ne_nil], ?_, ?_, word⟩
    · intro digit member
      rcases List.mem_append.mp member with zero | other
      · rw [(List.mem_replicate.mp zero).2]
        rfl
      · exact Nat.isDigit_of_mem_toDigits (by omega) (by omega) other
    · rw [Nat.ofDigitChars_append, Nat.ofDigitChars_replicate_zero, Nat.mul_zero,
        Nat.ofDigitChars_ten_toDigits]

/-- Indices are spelled with digits and a plus sign. -/
theorem mem_spelled_index {segment : String} {position : Nat}
    (spelled : SpelledBy (.index position) segment) {char : Char}
    (member : char ∈ segment.toList) : char = '+' ∨ char.isDigit = true := by
  obtain ⟨sign, zeros, signed, written⟩ := spelled
  have decimals : (toString position).toList = Nat.toDigits 10 position := Nat.toList_repr
  rw [written, decimals] at member
  rcases List.mem_append.mp member with front | other
  · rcases signed with rfl | rfl
    · cases front
    · exact .inl (List.mem_singleton.mp front)
  · refine .inr ?_
    rcases List.mem_append.mp other with zero | digit
    · rw [(List.mem_replicate.mp zero).2]
      rfl
    · exact Nat.isDigit_of_mem_toDigits (by omega) (by omega) digit

theorem not_mem_spelled_index {segment : String} {position : Nat}
    (spelled : SpelledBy (.index position) segment) {char : Char}
    (other : ¬ (char = '+' ∨ char.isDigit = true)) : char ∉ segment.toList :=
  mt (mem_spelled_index spelled) other

/-- The segments that spell a path hold no slash. -/
theorem slash_not_mem_of_spelled {path : List PathStep} {segments : List String}
    (spelled : List.Forall₂ SpelledBy path segments) :
    ∀ segment ∈ segments, '/' ∉ segment.toList := by
  induction spelled with
  | nil => exact fun segment member => nomatch member
  | @cons step segment rest segments spells others ih =>
      refine List.forall_mem_cons.mpr ⟨?_, ih⟩
      cases step with
      | key name => exact spells.1
      | index position => exact not_mem_spelled_index spells (by decide)

/-- In the spelling of an index there is nothing to unescape, before or after. -/
theorem unescapeSegment_of_spelled_index {segment : String} {position : Nat}
    (spelled : SpelledBy (.index position) segment ∨
      SpelledBy (.index position) (unescapeSegment segment)) :
    unescapeSegment segment = segment := by
  apply String.toList_injective
  rw [unescapeSegment_toList]
  rcases spelled with spelled | spelled
  · have noTilde : '~' ∉ segment.toList := not_mem_spelled_index spelled (by decide)
    exact Tilde.decode_of_not_mem noTilde
  · have noTilde : '~' ∉ (unescapeSegment segment).toList :=
      not_mem_spelled_index spelled (by decide)
    have noSlash : '/' ∉ (unescapeSegment segment).toList :=
      not_mem_spelled_index spelled (by decide)
    rw [unescapeSegment_toList] at noTilde noSlash
    exact Tilde.decode_eq_self_of_not_mem noTilde noSlash

theorem ArraysFit.member {members : List (String × Value)} {name : String} {child : Value}
    (fit : ArraysFit (.object members)) (found : members.lookup name = some child) :
    ArraysFit child := by
  intro path items reached
  refine fit (.key name :: path) items ?_
  rw [Value.nodeAt, found]
  exact reached

theorem ArraysFit.item {items : List Value} {position : Nat} {child : Value}
    (fit : ArraysFit (.array items)) (found : items[position]? = some child) :
    position < 2 ^ 64 ∧ ArraysFit child := by
  obtain ⟨inside, _⟩ := List.getElem?_eq_some_iff.mp found
  refine ⟨lt_trans inside (fit [] items rfl), ?_⟩
  intro path others reached
  refine fit (.index position :: path) others ?_
  rw [Value.nodeAt, found]
  exact reached

theorem arraysFit_string (text : String) : ArraysFit (.string text) := by
  intro path items reached
  match path with
  | [] => cases reached
  | .key _ :: _ => cases reached
  | .index _ :: _ => cases reached

theorem arraysFit_array {items : List Value} (short : items.length < 2 ^ 64)
    (each : ∀ item ∈ items, ArraysFit item) : ArraysFit (.array items) := by
  intro path others reached
  match path with
  | [] =>
      cases reached
      exact short
  | .key _ :: _ => cases reached
  | .index _ :: rest =>
      obtain ⟨child, found, below⟩ := Option.bind_eq_some_iff.mp reached
      exact each child (List.mem_of_getElem? found) rest others below

theorem arraysFit_object {members : List (String × Value)}
    (each : ∀ member ∈ members, ArraysFit member.2) : ArraysFit (.object members) := by
  intro path items reached
  match path with
  | [] => cases reached
  | .index _ :: _ => cases reached
  | .key name :: rest =>
      obtain ⟨child, found, below⟩ := Option.bind_eq_some_iff.mp reached
      exact each (name, child) (SortedEntries.mem_of_lookup found) rest items below

/-- The resolver follows every spelling of a path to the node of the path. -/
theorem descend_of_spelled {value node : Value} {path : List PathStep} {segments : List String}
    (fit : ArraysFit value) (spelled : List.Forall₂ SpelledBy path segments)
    (reached : value.nodeAt path = some node) :
    descend value (segments.map unescapeSegment) = some node := by
  induction spelled generalizing value with
  | nil => simpa [Value.nodeAt, descend] using reached
  | @cons step segment rest segments spells others ih =>
      cases step with
      | key name =>
          have unescaped : unescapeSegment segment = name := by
            apply String.toList_injective
            rw [unescapeSegment_toList, spells.2]
          cases value with
          | object members =>
              obtain ⟨child, found, onward⟩ := Option.bind_eq_some_iff.mp reached
              rw [List.map_cons, unescaped, descend, found]
              exact ih (fit.member found) onward
          | null | bool | number | string | array => simp [Value.nodeAt] at reached
      | index position =>
          cases value with
          | array items =>
              obtain ⟨child, found, onward⟩ := Option.bind_eq_some_iff.mp reached
              obtain ⟨word, inner⟩ := fit.item found
              rw [List.map_cons, unescapeSegment_of_spelled_index (.inl spells), descend,
                (parseUsize_iff_spelled word).mpr spells, Option.bind_some, found]
              exact ih inner onward
          | null | bool | number | string | object => simp [Value.nodeAt] at reached

/-- Where the resolver finds a node, its segments spell a path to it. -/
theorem spelled_of_descend {value node : Value} {segments : List String}
    (undivided : ∀ segment ∈ segments, '/' ∉ segment.toList)
    (found : descend value (segments.map unescapeSegment) = some node) :
    ∃ path, List.Forall₂ SpelledBy path segments ∧ value.nodeAt path = some node := by
  induction segments generalizing value with
  | nil => exact ⟨[], .nil, by simpa [Value.nodeAt, descend] using found⟩
  | cons segment rest ih =>
      obtain ⟨noSlash, undividedRest⟩ := List.forall_mem_cons.mp undivided
      rw [List.map_cons] at found
      cases value with
      | object members =>
          rw [descend] at found
          cases inside : members.lookup (unescapeSegment segment) with
          | none => simp [inside] at found
          | some child =>
              rw [inside] at found
              obtain ⟨path, spelled, reached⟩ := ih undividedRest found
              refine ⟨.key (unescapeSegment segment) :: path, .cons ⟨noSlash, ?_⟩ spelled, ?_⟩
              · exact (unescapeSegment_toList segment).symm
              · rw [Value.nodeAt, inside]
                exact reached
      | array items =>
          rw [descend] at found
          cases inside : (parseUsize (unescapeSegment segment)).bind (items[·]?) with
          | none => simp [inside] at found
          | some child =>
              rw [inside] at found
              obtain ⟨position, read, here⟩ := Option.bind_eq_some_iff.mp inside
              obtain ⟨path, spelled, reached⟩ := ih undividedRest found
              obtain ⟨_, _, _, _, _, _, _, word⟩ := parseUsize_eq_some.mp read
              have spells := (parseUsize_iff_spelled word).mp read
              rw [unescapeSegment_of_spelled_index (.inr spells)] at spells
              refine ⟨.index position :: path, .cons spells spelled, ?_⟩
              rw [Value.nodeAt, here]
              exact reached
      | null | bool | number | string => simp [descend] at found

/-- Only the segments of a lone slash join to nothing. -/
theorem joined_eq_empty {segments : List String} (nonempty : segments ≠ [])
    (undivided : ∀ segment ∈ segments, '/' ∉ segment.toList)
    (empty : Text.joined '/' segments = "") : segments = [""] := by
  have split := Text.pieces_joined undivided nonempty
  rw [empty] at split
  exact split.symm

/-- A pointer with a leading slash is followed along the segments behind it. -/
theorem resolvePointer_rooted {value : Value} {segments : List String} (nonempty : segments ≠ [])
    (undivided : ∀ segment ∈ segments, '/' ∉ segment.toList) (rooted : segments ≠ [""]) :
    resolvePointer value (Text.rooted '/' segments) =
      descend value (segments.map unescapeSegment) := by
  have leading : (Text.rooted '/' segments).toList = '/' :: (Text.joined '/' segments).toList :=
    Text.rooted_toList nonempty
  have inside : ¬ (Text.rooted '/' segments = "" ∨ Text.rooted '/' segments = "/") := by
    rintro (empty | slash)
    · rw [empty] at leading
      cases leading
    · rw [slash] at leading
      have rest := (List.cons.inj leading).2
      exact rooted (joined_eq_empty nonempty undivided (String.toList_eq_nil_iff.mp rest.symm))
  have stripped : Text.stripPrefix "/" (Text.rooted '/' segments) =
      some (Text.joined '/' segments) := by
    have first : "/".toList <+: (Text.rooted '/' segments).toList := ⟨_, leading.symm⟩
    rw [Text.stripPrefix, if_pos first, leading]
    exact congrArg some String.ofList_toList
  rw [resolvePointer, if_neg inside, stripped, Option.getD_some,
    Text.pieces_joined undivided nonempty]

/-- The resolver finds the node of every spelled path but that of a lone slash. -/
theorem resolvePointer_of_spells {document : Document} {pointer : String} {path : List PathStep}
    {node : Value} (spells : Spells pointer path) (beyond : pointer ≠ "/")
    (reached : document.value.nodeAt path = some node) :
    resolvePointer document.value pointer = some node := by
  obtain ⟨segments, spelled, rfl⟩ := spells
  by_cases empty : segments = []
  · subst empty
    cases spelled
    exact reached
  · have undivided := slash_not_mem_of_spelled spelled
    rw [resolvePointer_rooted empty undivided, descend_of_spelled document.arrays spelled reached]
    rintro rfl
    exact beyond rfl

/-- Where the resolver finds a node behind more than a slash, the pointer spells a path to it. -/
theorem spells_of_resolvePointer {value node : Value} {pointer : String}
    (leading : pointer.toList.head? = some '/') (beyond : pointer ≠ "/")
    (found : resolvePointer value pointer = some node) :
    ∃ path, Spells pointer path ∧ value.nodeAt path = some node := by
  obtain ⟨rest, split⟩ := List.head?_eq_some_iff.mp leading
  have written := Text.rooted_pieces split
  have undivided : ∀ segment ∈ Text.pieces '/' (String.ofList rest), '/' ∉ segment.toList :=
    fun segment member => Text.separator_not_mem_of_mem_pieces member
  have rooted : Text.pieces '/' (String.ofList rest) ≠ [""] := by
    intro lone
    rw [lone] at written
    exact beyond written.symm
  rw [← written, resolvePointer_rooted (Text.pieces_ne_nil _ _) undivided rooted] at found
  obtain ⟨path, spelled, reached⟩ := spelled_of_descend undivided found
  exact ⟨path, ⟨_, spelled, written.symm⟩, reached⟩

/-- The pointer of a path is a lone slash only if the path is a single empty key. -/
theorem encodePointer_ne_slash {path : List PathStep} (other : path ≠ [.key ""]) :
    encodePointer path ≠ "/" := by
  intro slash
  cases path with
  | nil => cases congrArg String.toList slash
  | cons step rest =>
      have leading : (encodePointer (step :: rest)).toList =
          '/' :: (Text.joined '/' (encodeStep step :: rest.map encodeStep)).toList :=
        Text.rooted_toList (List.cons_ne_nil _ _)
      rw [slash] at leading
      have empty := (List.cons.inj leading).2.symm
      rw [Text.joined, String.toList_ofList] at empty
      cases rest with
      | nil =>
          have alone : encodeStep step = "" := by simpa using empty
          cases step with
          | key name =>
              have plain := Tilde.decode_escape name.toList
              have none : Tilde.escape name.toList = [] := by simpa [encodeStep] using alone
              rw [none, Tilde.decode_nil] at plain
              exact other (by rw [String.toList_eq_nil_iff.mp plain.symm])
          | index position =>
              have digits := congrArg String.toList alone
              exact absurd digits (by simp [encodeStep, Nat.toDigits_ne_nil])
      | cons next others => simp [List.intercalate_cons_cons] at empty

/--
The resolver finds the node of every path from the pointer of the path, except
that a lone slash stands for the whole document; a pointer with more than a
slash that spells no path of the document has no node.
-/
theorem resolvePointer_follows_paths (document : Document) :
    (∀ path node, path ≠ [.key ""] → document.value.nodeAt path = some node →
      resolvePointer document.value (encodePointer path) = some node) ∧
    resolvePointer document.value "/" = some document.value ∧
    ∀ pointer, pointer.toList.head? = some '/' → pointer ≠ "/" →
      (∀ path, Spells pointer path → document.value.nodeAt path = none) →
      resolvePointer document.value pointer = none := by
  refine ⟨?_, rfl, ?_⟩
  · intro path node other reached
    exact resolvePointer_of_spells (spells_encodePointer path) (encodePointer_ne_slash other)
      reached
  · intro pointer leading beyond absent
    cases found : resolvePointer document.value pointer with
    | none => rfl
    | some node =>
        obtain ⟨path, spells, reached⟩ := spells_of_resolvePointer leading beyond found
        rw [absent path spells] at reached
        cases reached

/-- Two tags under a key with a slash. -/
def tagged : Document where
  value := .object [("a/b", .array [.string "new", .string "hot"])]
  arrays := arraysFit_object (List.forall_mem_singleton.mpr (arraysFit_array (by decide)
    (List.forall_mem_cons.mpr ⟨arraysFit_string _,
      List.forall_mem_singleton.mpr (arraysFit_string _)⟩)))

theorem resolvePointer_follows_paths_tagged :
    encodePointer [.key "a/b", .index 1] = "/a~1b/1" ∧
      resolvePointer tagged.value "/a~1b/1" = some (.string "hot") ∧
      resolvePointer tagged.value "/" = some tagged.value := by
  obtain ⟨paths, root, -⟩ := resolvePointer_follows_paths tagged
  have pointer : encodePointer [.key "a/b", .index 1] = "/a~1b/1" := by decide
  have found := paths [.key "a/b", .index 1] (.string "hot") (by decide) rfl
  exact ⟨pointer, pointer ▸ found, root⟩

/-- The pointer of a member with an empty key finds the document instead. -/
theorem lone_slash_misses_member :
    let document : Value := .object [("", .bool true)]
    document.nodeAt [.key ""] = some (.bool true) ∧ encodePointer [.key ""] = "/" ∧
      resolvePointer document (encodePointer [.key ""]) ≠ some (.bool true) := by
  refine ⟨rfl, rfl, ?_⟩
  intro found
  cases found

end SpecMock.Core
