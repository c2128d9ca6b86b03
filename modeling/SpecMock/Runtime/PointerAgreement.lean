import SpecMock.Core.Pointers
import SpecMock.Runtime.Addressing

/-!
# Two readings of a pointer

Identifiers are read through pointers that only look into objects, take their
segments as they are written and skip every leading slash.  References are
resolved through pointers that also step into arrays and unescape their
segments.  The two readings agree on every document exactly for the pointers
whose segments leave nothing to unescape and nothing to take for an index.
-/

namespace SpecMock.Runtime

open SpecMock.Library SpecMock.Core

/-- The text of a node: strings as they are, other values but null in their JSON form. -/
def IsTextOf : Value → String → Prop
  | .null, _ => False
  | .string text, other => other = text
  | value, other => other = value.toText

/-- What the identifier reads is the text of the node that the resolver finds, if it is not null. -/
def AgreesOn (document : Value) (pointer : String) : Prop :=
  ∀ text, pointerValue document pointer = some text ↔
    ∃ node, resolvePointer document pointer = some node ∧ IsTextOf node text

/-- No escape stands in the segment, and it is no index. -/
structure PlainSegment (segment : String) : Prop where
  tilde : ¬ ['~', '0'] <:+: segment.toList
  slash : ¬ ['~', '1'] <:+: segment.toList
  index : parseUsize segment = none

/-- The whole document, or plain segments behind one slash, the first of them not empty. -/
def PlainPointer (pointer : String) : Prop :=
  pointer = "" ∨ ∃ first rest, pointer.toList = '/' :: first :: rest ∧ first ≠ '/' ∧
    ∀ segment ∈ Text.pieces '/' (String.ofList (first :: rest)), PlainSegment segment

theorem identifierText_eq_some {node : Value} {text : String} :
    identifierText node = some text ↔ IsTextOf node text := by
  cases node with
  | null => simp [identifierText, IsTextOf]
  | string content => simp [identifierText, IsTextOf, eq_comm]
  | bool | number | array | object => simp [identifierText, IsTextOf, eq_comm]

theorem agreesOn_iff {document : Value} {pointer : String} :
    AgreesOn document pointer ↔
      pointerValue document pointer = (resolvePointer document pointer).bind identifierText := by
  constructor
  · intro agrees
    apply Option.ext
    intro text
    rw [agrees text, Option.bind_eq_some_iff]
    simp only [identifierText_eq_some]
  · intro same text
    rw [same, Option.bind_eq_some_iff]
    simp only [identifierText_eq_some]

theorem pointerValue_of_rooted {document : Value} {pointer : String} {first : Char}
    {rest : List Char} (written : pointer.toList = '/' :: first :: rest) (single : first ≠ '/') :
    pointerValue document pointer =
      (follow document (Text.pieces '/' (String.ofList (first :: rest)))).bind identifierText := by
  have nonempty : pointer ≠ "" := by
    rintro rfl
    cases written
  have segments : pointerSegments pointer = Text.pieces '/' (String.ofList (first :: rest)) := by
    have kept : (first == '/') = false := by simpa using single
    simp [pointerSegments, written, Text.pieces, kept]
  rw [pointerValue, if_neg nonempty, segments]
  cases follow document _ <;> rfl

theorem resolvePointer_of_written {document : Value} {pointer : String} {rest : List Char}
    (written : pointer.toList = '/' :: rest) (beyond : rest ≠ []) :
    resolvePointer document pointer =
      descend document ((Text.pieces '/' (String.ofList rest)).map unescapeSegment) := by
  rw [← Text.rooted_pieces written]
  refine resolvePointer_rooted (Text.pieces_ne_nil _ _)
    (fun segment member => Text.separator_not_mem_of_mem_pieces member) ?_
  intro lone
  have joined := Text.joined_pieces '/' (String.ofList rest)
  rw [lone] at joined
  have empty := congrArg String.toList joined
  rw [String.toList_ofList] at empty
  exact beyond empty.symm

theorem PlainSegment.unescaped {segment : String} (plain : PlainSegment segment) :
    unescapeSegment segment = segment := by
  apply String.toList_injective
  rw [unescapeSegment_toList]
  exact Tilde.decode_eq_self.mpr ⟨plain.tilde, plain.slash⟩

/-- Along plain segments both readings look into objects only. -/
theorem descend_eq_follow {document : Value} {segments : List String}
    (plain : ∀ segment ∈ segments, PlainSegment segment) :
    descend document (segments.map unescapeSegment) = follow document segments := by
  induction segments generalizing document with
  | nil => simp [descend, follow]
  | cons segment rest ih =>
      obtain ⟨here, later⟩ := List.forall_mem_cons.mp plain
      rw [List.map_cons, here.unescaped]
      cases document with
      | object members =>
          rw [descend, follow, Value.get]
          cases members.lookup segment with
          | none => rfl
          | some child => exact ih later
      | array items => simp [descend, follow, Value.get, here.index]
      | null | bool | number | string => simp [descend, follow, Value.get]

theorem PlainPointer.agreesOn {pointer : String} (plain : PlainPointer pointer)
    (document : Value) : AgreesOn document pointer := by
  rw [agreesOn_iff]
  rcases plain with rfl | ⟨first, rest, written, single, segments⟩
  · rfl
  · rw [pointerValue_of_rooted written single,
      resolvePointer_of_written written (List.cons_ne_nil _ _), descend_eq_follow segments]

/-- A document with a node under every key: an item where the key is an index, else a member. -/
def exemplar : List String → Value
  | [] => .bool true
  | key :: rest =>
      match parseUsize key with
      | some position => .array (List.replicate position .null ++ [exemplar rest])
      | none => .object [(key, exemplar rest)]

/-- The resolver finds the innermost node. -/
theorem descend_exemplar (keys : List String) :
    descend (exemplar keys) keys = some (.bool true) := by
  induction keys with
  | nil => simp [descend, exemplar]
  | cons key rest ih =>
      unfold exemplar
      cases read : parseUsize key with
      | none => simpa [descend] using ih
      | some position => simpa [descend, read] using ih

/-- Looking into objects only leads along the keys, and not past an index. -/
theorem follow_exemplar {keys segments : List String} {node : Value}
    (found : follow (exemplar keys) segments = some node) :
    ∃ others, keys = segments ++ others ∧ node = exemplar others ∧
      ∀ segment ∈ segments, parseUsize segment = none := by
  induction segments generalizing keys with
  | nil => exact ⟨keys, rfl, (Option.some.inj found).symm, fun segment member => nomatch member⟩
  | cons segment rest ih =>
      cases keys with
      | nil => simp [exemplar, follow, Value.get] at found
      | cons key keys =>
          unfold exemplar at found
          cases read : parseUsize key with
          | some position => simp [read, follow, Value.get] at found
          | none =>
              by_cases same : segment = key
              · subst same
                simp only [read, follow, Value.get, List.lookup_cons_self] at found
                obtain ⟨others, rfl, inner, plain⟩ := ih found
                exact ⟨others, rfl, inner, List.forall_mem_cons.mpr ⟨read, plain⟩⟩
              · have apart : (segment == key) = false := by simpa using same
                simp [read, follow, Value.get, List.lookup_cons, apart] at found

/-- Short of the innermost node the text is that of an object or of an array. -/
theorem identifierText_exemplar {keys : List String} (nonempty : keys ≠ []) :
    identifierText (exemplar keys) ≠ identifierText (.bool true) := by
  cases keys with
  | nil => exact absurd rfl nonempty
  | cons key rest =>
      intro same
      have texts := congrArg (Option.map String.toList) same
      unfold exemplar at texts
      cases read : parseUsize key with
      | none => simp [read, identifierText, Value.toText] at texts
      | some position => simp [read, identifierText, Value.toText] at texts

/-- The exemplar of its keys tells a pointer apart unless it follows all the keys. -/
theorem not_agreesOn_exemplar {pointer : String} {keys segments : List String}
    (resolved : resolvePointer (exemplar keys) pointer = descend (exemplar keys) keys)
    (identified : pointerValue (exemplar keys) pointer =
      (follow (exemplar keys) segments).bind identifierText)
    (astray : ∀ others, keys = segments ++ others →
      (∀ segment ∈ segments, parseUsize segment = none) → others ≠ []) :
    ¬ AgreesOn (exemplar keys) pointer := by
  rw [agreesOn_iff, resolved, identified, descend_exemplar, Option.bind_some]
  cases found : follow (exemplar keys) segments with
  | none => simp [identifierText]
  | some node =>
      obtain ⟨others, split, rfl, plain⟩ := follow_exemplar found
      exact identifierText_exemplar (astray others split plain)

/-- Behind a second slash the resolver has an empty key, which the identifier skips. -/
theorem exists_disagreement_of_slashes {pointer : String} {rest : List Char}
    (written : pointer.toList = '/' :: '/' :: rest) :
    ∃ document, ¬ AgreesOn document pointer := by
  have cut : Text.pieces '/' (String.ofList ('/' :: rest)) =
      "" :: Text.pieces '/' (String.ofList rest) := by
    rw [Text.pieces, String.toList_ofList, List.splitOn_cons_eq_if_modifyHead]
    simp [Text.pieces]
  let keys := "" :: (Text.pieces '/' (String.ofList rest)).map unescapeSegment
  have resolved : resolvePointer (exemplar keys) pointer = descend (exemplar keys) keys := by
    rw [resolvePointer_of_written written (List.cons_ne_nil _ _), cut]
    rfl
  have identified : pointerValue (exemplar keys) pointer =
      (follow (exemplar keys) (pointerSegments pointer)).bind identifierText := by
    have nonempty : pointer ≠ "" := by
      rintro rfl
      cases written
    rw [pointerValue, if_neg nonempty]
    cases follow (exemplar keys) (pointerSegments pointer) <;> rfl
  refine ⟨exemplar keys, not_agreesOn_exemplar resolved identified ?_⟩
  rintro others split plain rfl
  rw [List.append_nil] at split
  have skipped : pointerSegments pointer =
      ((rest.dropWhile fun char => char == '/').splitOn '/').map String.ofList := by
    simp [pointerSegments, written]
  rw [skipped] at split
  cases left : rest.dropWhile fun char => char == '/' with
  | nil =>
      rw [left] at split
      have short := congrArg List.length split
      have pieces := List.length_pos_of_ne_nil (Text.pieces_ne_nil '/' (String.ofList rest))
      simp [keys] at short
      exact absurd short (Text.pieces_ne_nil _ _)
  | cons char others =>
      have apart : (char == '/') = false := by
        have kept := List.head?_dropWhile_not (fun char => char == '/') rest
        rw [left] at kept
        simpa using kept
      rw [left, List.splitOn_cons_eq_if_modifyHead, apart] at split
      obtain ⟨first, more, tail⟩ := List.exists_cons_of_ne_nil (List.splitOn_ne_nil '/' others)
      rw [tail] at split
      have empty := congrArg String.toList (List.cons.inj split).1
      simp at empty

/-- An escape or an index among the segments leads the two readings apart. -/
theorem exists_disagreement_of_segment {pointer : String} {first : Char} {rest : List Char}
    (written : pointer.toList = '/' :: first :: rest) (single : first ≠ '/') {segment : String}
    (member : segment ∈ Text.pieces '/' (String.ofList (first :: rest)))
    (other : ¬ PlainSegment segment) : ∃ document, ¬ AgreesOn document pointer := by
  let segments := Text.pieces '/' (String.ofList (first :: rest))
  refine ⟨exemplar (segments.map unescapeSegment), not_agreesOn_exemplar
    (resolvePointer_of_written written (List.cons_ne_nil _ _))
    (pointerValue_of_rooted written single) ?_⟩
  rintro others split plain rfl
  rw [List.append_nil] at split
  have unescaped : unescapeSegment segment = segment :=
    List.map_inj_left.mp (split.trans (List.map_id segments).symm) segment member
  have decoded := congrArg String.toList unescaped
  rw [unescapeSegment_toList] at decoded
  obtain ⟨tilde, slash⟩ := Tilde.decode_eq_self.mp decoded
  exact other ⟨tilde, slash, plain segment member⟩

/--
For a pointer that validation accepts, the identifier is the text of the node
that the resolver finds, in every document, if and only if the pointer is plain.
-/
theorem agreesOn_all_iff {pointer : String} (valid : isValidPointer pointer = true) :
    (∀ document, AgreesOn document pointer) ↔ PlainPointer pointer := by
  constructor
  · intro agrees
    by_contra other
    suffices apart : ∃ document, ¬ AgreesOn document pointer by
      obtain ⟨document, differs⟩ := apart
      exact differs (agrees document)
    cases written : pointer.toList with
    | nil => exact absurd (.inl (String.toList_eq_nil_iff.mp written)) other
    | cons char chars =>
        obtain rfl : char = '/' := by simpa [isValidPointer, written] using valid
        cases chars with
        | nil =>
            -- A lone slash is the whole document to the resolver.
            obtain rfl : pointer = "/" := String.toList_injective written
            refine ⟨.bool true, fun agrees => ?_⟩
            have read := (agrees "true").mpr ⟨.bool true, rfl, rfl⟩
            cases read
        | cons first rest =>
            by_cases double : first = '/'
            · subst double
              exact exists_disagreement_of_slashes written
            · have unplain : ∃ segment ∈ Text.pieces '/' (String.ofList (first :: rest)),
                  ¬ PlainSegment segment := by
                by_contra all
                refine other (.inr ⟨first, rest, written, double, fun segment member => ?_⟩)
                by_contra unplain
                exact all ⟨segment, member, unplain⟩
              obtain ⟨segment, member, unplain⟩ := unplain
              exact exists_disagreement_of_segment written double member unplain
  · exact fun plain document => plain.agreesOn document

/-- A pointer to a member of a member is plain, and the two agree on it in every document. -/
theorem member_pointer_agrees :
    isValidPointer "/user/id" = true ∧ PlainPointer "/user/id" ∧
      ∀ document, AgreesOn document "/user/id" := by
  have plain : PlainPointer "/user/id" := by
    refine .inr ⟨'u', "ser/id".toList, rfl, by decide, ?_⟩
    intro segment member
    have parts : Text.pieces '/' (String.ofList ('u' :: "ser/id".toList)) = ["user", "id"] := by
      decide
    rw [parts, List.mem_cons, List.mem_singleton] at member
    rcases member with rfl | rfl
    · exact ⟨by decide, by decide, rfl⟩
    · exact ⟨by decide, by decide, rfl⟩
  have valid : isValidPointer "/user/id" = true := by decide
  exact ⟨valid, plain, (agreesOn_all_iff valid).mpr plain⟩

/-- The identifier of the first item of a list is not found. -/
theorem item_pointer_disagrees :
    isValidPointer "/items/0/id" = true ∧
      ¬ AgreesOn (.object [("items", .array [.object [("id", .string "a")]])]) "/items/0/id" := by
  refine ⟨rfl, fun agrees => ?_⟩
  have read := (agrees "a").mpr ⟨.string "a", rfl, rfl⟩
  cases read

end SpecMock.Runtime
