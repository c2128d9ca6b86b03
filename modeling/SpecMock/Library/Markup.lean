import Mathlib.Data.List.TakeWhile

/-!
# Markup

Elements with a name and either elements or a text inside, written between a
tag that opens and a tag that closes.  The grammar is given by rules, and a
reader that decides it: what the reader accepts is what the rules derive, with
the same elements.
-/

namespace SpecMock.Library.Markup

def isLetter (char : Char) : Bool :=
  ('a' ≤ char && char ≤ 'z') || ('A' ≤ char && char ≤ 'Z')

def isNameStart (char : Char) : Bool := isLetter char || char == '_'

def isNameChar (char : Char) : Bool :=
  isLetter char || char.isDigit || char == '_' || char == '-' || char == '.'

def isName : List Char → Bool
  | [] => false
  | first :: rest => isNameStart first && rest.all isNameChar

/-- A letter or an underscore, followed by letters, digits, underscores, hyphens and dots. -/
abbrev Name := {chars : List Char // isName chars = true}

theorem isNameChar_of_isNameStart {char : Char} (start : isNameStart char = true) :
    isNameChar char = true := by
  simp only [isNameStart, isNameChar, Bool.or_eq_true] at start ⊢
  rcases start with letter | underscore
  · exact .inl (.inl (.inl (.inl letter)))
  · exact .inl (.inl (.inr underscore))

theorem Name.all_isNameChar (name : Name) : ∀ char ∈ name.1, isNameChar char = true := by
  obtain ⟨chars, valid⟩ := name
  cases chars with
  | nil => exact fun char member => absurd member List.not_mem_nil
  | cons first rest =>
      simp only [isName, Bool.and_eq_true, List.all_eq_true] at valid
      exact List.forall_mem_cons.mpr ⟨isNameChar_of_isNameStart valid.1, valid.2⟩

/-- The predefined entities by their names. -/
def entities : List (List Char × Char) :=
  [("amp".toList, '&'), ("lt".toList, '<'), ("gt".toList, '>'), ("quot".toList, '"'),
    ("apos".toList, '\'')]

/-- A text with entities for some of its characters. -/
inductive TextCode : List Char → List Char → Prop where
  | nil : TextCode [] []
  | plain {char : Char} {code text : List Char} (notOpen : char ≠ '<') (notEscape : char ≠ '&')
      (rest : TextCode code text) : TextCode (char :: code) (char :: text)
  | entity {name code text : List Char} {meant : Char} (listed : (name, meant) ∈ entities)
      (rest : TextCode code text) : TextCode ('&' :: (name ++ ';' :: code)) (meant :: text)

/-- Read a text; inside an entity the part of its name that has been read is known. -/
def decodeText : Option (List Char) → List Char → Option (List Char)
  | none, [] => some []
  | some _, [] => none
  | none, char :: rest =>
      if char = '&' then decodeText (some []) rest
      else if char = '<' then none
      else (decodeText none rest).map (char :: ·)
  | some name, char :: rest =>
      if char = ';' then
        (entities.lookup name).bind fun meant => (decodeText none rest).map (meant :: ·)
      else decodeText (some (name ++ [char])) rest

/-- Every entity has one meaning, and its name no character that stands for markup. -/
theorem entities_apart : ∀ entity ∈ entities, entities.lookup entity.1 = some entity.2 ∧
    ';' ∉ entity.1 ∧ '<' ∉ entity.1 := by decide

theorem decodeText_name {name : List Char} (closed : ';' ∉ name) (before rest : List Char) :
    decodeText (some before) (name ++ ';' :: rest) =
      (entities.lookup (before ++ name)).bind fun meant =>
        (decodeText none rest).map (meant :: ·) := by
  induction name generalizing before with
  | nil => simp [decodeText]
  | cons char others ih =>
      rw [List.mem_cons, not_or] at closed
      rw [List.cons_append, decodeText, if_neg (Ne.symm closed.1), ih closed.2, List.append_assoc,
        List.singleton_append]

theorem decodeText_of_textCode {code text : List Char} (written : TextCode code text) :
    decodeText none code = some text := by
  induction written with
  | nil => rfl
  | plain notOpen notEscape _ ih => rw [decodeText, if_neg notEscape, if_neg notOpen, ih]; rfl
  | entity listed _ ih =>
      obtain ⟨meaning, closed, -⟩ := entities_apart _ listed
      rw [decodeText, if_pos rfl, decodeText_name closed, List.nil_append, meaning, ih]
      rfl

/-- A code of a text, behind the part of the name of an entity that has been read. -/
def Continues : Option (List Char) → List Char → List Char → Prop
  | none, code, text => TextCode code text
  | some before, code, text => ∃ name meant rest others, code = name ++ ';' :: rest ∧
      entities.lookup (before ++ name) = some meant ∧ text = meant :: others ∧
        TextCode rest others

theorem continues_of_decodeText {pending : Option (List Char)} {code text : List Char}
    (read : decodeText pending code = some text) : Continues pending code text := by
  induction code generalizing pending text with
  | nil =>
      cases pending with
      | none =>
          cases read
          exact .nil
      | some before => cases read
  | cons char rest ih =>
      cases pending with
      | none =>
          rw [decodeText] at read
          split at read
          next escape =>
            obtain ⟨name, meant, behind, others, rfl, found, rfl, written⟩ := ih read
            subst escape
            obtain ⟨before, after, listed, -⟩ := List.lookup_eq_some_iff.mp found
            exact TextCode.entity (listed ▸ List.mem_append_right _ List.mem_cons_self) written
          next notEscape =>
            split at read
            next => cases read
            next notOpen =>
              obtain ⟨others, decoded, rfl⟩ := Option.map_eq_some_iff.mp read
              exact TextCode.plain notOpen notEscape (ih decoded)
      | some before =>
          rw [decodeText] at read
          split at read
          next closed =>
            obtain ⟨meant, found, continued⟩ := Option.bind_eq_some_iff.mp read
            obtain ⟨others, decoded, rfl⟩ := Option.map_eq_some_iff.mp continued
            exact ⟨[], meant, rest, others, by rw [closed]; rfl, by simpa using found, rfl,
              ih decoded⟩
          next =>
            obtain ⟨name, meant, behind, others, rfl, found, rfl, written⟩ := ih read
            exact ⟨char :: name, meant, behind, others, rfl, by simpa using found, rfl, written⟩

theorem decodeText_eq_some_iff {code text : List Char} :
    decodeText none code = some text ↔ TextCode code text :=
  ⟨fun read => continues_of_decodeText read, decodeText_of_textCode⟩

/-- No tag begins inside a text. -/
theorem TextCode.all_ne_open {code text : List Char} (written : TextCode code text) :
    ∀ char ∈ code, char ≠ '<' := by
  induction written with
  | nil => exact fun char member => absurd member List.not_mem_nil
  | plain notOpen _ _ ih => exact List.forall_mem_cons.mpr ⟨notOpen, ih⟩
  | entity listed _ ih =>
      have name := (entities_apart _ listed).2.2
      refine List.forall_mem_cons.mpr ⟨by decide, List.forall_mem_append.mpr ⟨?_, ?_⟩⟩
      · exact fun char member same => name (same ▸ member)
      · exact List.forall_mem_cons.mpr ⟨by decide, ih⟩

/-- An element with a text inside, which may be empty, or with elements inside. -/
inductive Element where
  | leaf (name : Name) (text : List Char)
  | node (name : Name) (first : Element) (rest : List Element)

/-- The element of a name with some elements inside. -/
def Element.ofChildren (name : Name) : List Element → Element
  | [] => .leaf name []
  | first :: rest => .node name first rest

def openTag (name : Name) : List Char := '<' :: (name.1 ++ ['>'])

def closeTag (name : Name) : List Char := '<' :: '/' :: (name.1 ++ ['>'])

/-- Elements in a row, as they are written. -/
inductive Forest : List Char → List Element → Prop where
  | nil : Forest [] []
  | leaf (name : Name) {code text others : List Char} {elements : List Element}
      (inside : TextCode code text) (behind : Forest others elements) :
      Forest (openTag name ++ (code ++ (closeTag name ++ others))) (.leaf name text :: elements)
  | node (name : Name) {content others : List Char} {first : Element}
      {rest elements : List Element} (inside : Forest content (first :: rest))
      (behind : Forest others elements) :
      Forest (openTag name ++ (content ++ (closeTag name ++ others)))
        (.node name first rest :: elements)

/-- One element and nothing else. -/
def Document (chars : List Char) (element : Element) : Prop := Forest chars [element]

/-- The name up to the end of a tag. -/
def readName (chars : List Char) : Option (Name × List Char) :=
  match chars.dropWhile isNameChar with
  | '>' :: behind =>
      if valid : isName (chars.takeWhile isNameChar) = true then
        some (⟨chars.takeWhile isNameChar, valid⟩, behind)
      else none
  | _ => none

def readOpen : List Char → Option (Name × List Char)
  | '<' :: rest => readName rest
  | _ => none

def readClose (name : Name) : List Char → Option (List Char)
  | '<' :: '/' :: rest =>
      match readName rest with
      | some (closed, behind) => if closed = name then some behind else none
      | none => none
  | _ => none

/-- What an element holds: the elements that were found inside, else a text. -/
def readContent (name : Name) : List Element → List Char → Option (Element × List Char)
  | first :: rest, chars => some (.node name first rest, chars)
  | [], chars => (decodeText none (chars.takeWhile (· != '<'))).map fun text =>
      (.leaf name text, chars.dropWhile (· != '<'))

/-- The elements that stand in front. -/
def readForest : Nat → List Char → Option (List Element × List Char)
  | 0, _ => none
  | fuel + 1, chars =>
      match readOpen chars with
      | none => some ([], chars)
      | some (name, inside) => do
          let (children, after) ← readForest fuel inside
          let (element, closing) ← readContent name children after
          let behind ← readClose name closing
          let (elements, rest) ← readForest fuel behind
          return (element :: elements, rest)

/-- The element that a text consists of. -/
def readDocument (chars : List Char) : Option Element :=
  match readForest (chars.length + 1) chars with
  | some ([element], []) => some element
  | _ => none

theorem readName_append (name : Name) (rest : List Char) :
    readName (name.1 ++ '>' :: rest) = some (name, rest) := by
  have stops : isNameChar '>' = false := by decide
  have taken : (name.1 ++ '>' :: rest).takeWhile isNameChar = name.1 := by
    rw [List.takeWhile_append_of_pos name.all_isNameChar,
      List.takeWhile_cons_of_neg (by simp [stops]),
      List.append_nil]
  have dropped : (name.1 ++ '>' :: rest).dropWhile isNameChar = '>' :: rest := by
    rw [List.dropWhile_append_of_pos name.all_isNameChar,
      List.dropWhile_cons_of_neg (by simp [stops])]
  rw [readName, dropped]
  simp only [taken]
  exact dif_pos name.2

theorem readOpen_append (name : Name) (rest : List Char) :
    readOpen (openTag name ++ rest) = some (name, rest) := by
  simpa [openTag, readOpen] using readName_append name rest

theorem readClose_append (name : Name) (rest : List Char) :
    readClose name (closeTag name ++ rest) = some rest := by
  simp [closeTag, readClose, readName_append name rest]

theorem eq_of_readName {chars rest : List Char} {name : Name}
    (read : readName chars = some (name, rest)) : chars = name.1 ++ '>' :: rest := by
  unfold readName at read
  split at read
  next behind dropped =>
    split at read
    next valid =>
      cases read
      rw [← dropped, List.takeWhile_append_dropWhile]
    next => cases read
  next => cases read

theorem eq_of_readOpen {chars rest : List Char} {name : Name}
    (read : readOpen chars = some (name, rest)) : chars = openTag name ++ rest := by
  unfold readOpen at read
  split at read
  next inside => simp [openTag, eq_of_readName read]
  next => cases read

theorem eq_of_readClose {chars rest : List Char} {name : Name}
    (read : readClose name chars = some rest) : chars = closeTag name ++ rest := by
  unfold readClose at read
  split at read
  next inside =>
    split at read
    next closed behind named =>
      split at read
      next same =>
        cases read
        simp [closeTag, eq_of_readName named, same]
      next => cases read
    next => cases read
  next => cases read

/-- No element begins with a tag that closes one. -/
theorem readOpen_closeTag (name : Name) (rest : List Char) :
    readOpen (closeTag name ++ rest) = none := by
  have slash : isNameChar '/' = false := by decide
  simp [closeTag, readOpen, readName, slash]

theorem readOpen_of_textCode {code text : List Char} (written : TextCode code text)
    {rest : List Char}
    (closed : readOpen rest = none) : readOpen (code ++ rest) = none := by
  cases code with
  | nil => exact closed
  | cons char others =>
      have notOpen := written.all_ne_open char List.mem_cons_self
      rw [List.cons_append, readOpen]
      exact fun inside same => notOpen (List.cons.inj same).1

theorem readContent_text (name : Name) {code text : List Char} (written : TextCode code text)
    (rest : List Char) :
    readContent name [] (code ++ (closeTag name ++ rest)) =
      some (.leaf name text, closeTag name ++ rest) := by
  have inside : ∀ char ∈ code, (char != '<') = true := by
    intro char member
    simpa using written.all_ne_open char member
  rw [readContent, List.takeWhile_append_of_pos inside, List.dropWhile_append_of_pos inside]
  simp [closeTag, decodeText_of_textCode written]

/-- What the grammar derives is read, with fuel for every character. -/
theorem readForest_of_forest {chars : List Char} {elements : List Element}
    (forest : Forest chars elements) {fuel : Nat} (enough : chars.length < fuel) {rest : List Char}
    (closed : readOpen rest = none) : readForest fuel (chars ++ rest) = some (elements, rest) := by
  induction forest generalizing fuel rest with
  | nil =>
      obtain ⟨fuel, rfl⟩ := Nat.exists_eq_succ_of_ne_zero (Nat.ne_of_gt enough)
      rw [List.nil_append, readForest, closed]
  | @leaf name code text others elements inside _ ih =>
      obtain ⟨fuel, rfl⟩ := Nat.exists_eq_succ_of_ne_zero (Nat.ne_of_gt (Nat.zero_lt_of_lt enough))
      simp only [List.length_append, openTag, closeTag, List.length_cons] at enough
      simp only [List.append_assoc]
      obtain ⟨smaller, rfl⟩ : ∃ smaller, fuel = smaller + 1 := ⟨fuel - 1, by omega⟩
      have none : readForest (smaller + 1) (code ++ (closeTag name ++ (others ++ rest))) =
          some ([], code ++ (closeTag name ++ (others ++ rest))) := by
        rw [readForest, readOpen_of_textCode inside (readOpen_closeTag name _)]
      rw [readForest, readOpen_append]
      simp only [none, Option.bind_eq_bind, Option.bind_some, readContent_text name inside,
        readClose_append, ih (show _ < smaller + 1 by omega) closed]
      rfl
  | node name _ _ ihInside ihBehind =>
      obtain ⟨fuel, rfl⟩ := Nat.exists_eq_succ_of_ne_zero (Nat.ne_of_gt (Nat.zero_lt_of_lt enough))
      simp only [List.length_append, openTag, closeTag, List.length_cons] at enough
      simp only [List.append_assoc]
      rw [readForest, readOpen_append]
      simp only [ihInside (show _ < fuel by omega) (readOpen_closeTag name _), Option.bind_eq_bind,
        Option.bind_some, readContent, readClose_append,
        ihBehind (show _ < fuel by omega) closed]
      rfl

/-- What is read in front is derived by the grammar. -/
theorem forest_of_readForest {fuel : Nat} {chars rest : List Char} {elements : List Element}
    (read : readForest fuel chars = some (elements, rest)) :
    ∃ front, chars = front ++ rest ∧ Forest front elements := by
  induction fuel generalizing chars rest elements with
  | zero => cases read
  | succ fuel ih =>
      rw [readForest] at read
      split at read
      next =>
        cases read
        exact ⟨[], rfl, .nil⟩
      next name inside opened =>
        simp only [Option.bind_eq_bind, Option.bind_eq_some_iff, Prod.exists] at read
        obtain ⟨children, after, within, element, closing, content, behind, closed, others, left,
          continued, result⟩ := read
        cases result
        obtain ⟨held, rfl, derived⟩ := ih within
        obtain ⟨front, rfl, rest⟩ := ih continued
        rw [eq_of_readOpen opened]
        cases children with
        | nil =>
            cases derived
            obtain ⟨text, decoded, same⟩ := Option.map_eq_some_iff.mp content
            cases same
            have closes := eq_of_readClose closed
            refine ⟨_, ?_, Forest.leaf name (decodeText_eq_some_iff.mp decoded) rest⟩
            simp only [List.nil_append, List.append_assoc]
            rw [← closes, List.takeWhile_append_dropWhile]
        | cons first more =>
            cases content
            refine ⟨_, ?_, Forest.node name derived rest⟩
            rw [eq_of_readClose closed]
            simp

/-- The reader accepts what the grammar derives, with the same element. -/
theorem readDocument_eq_some_iff {chars : List Char} {element : Element} :
    readDocument chars = some element ↔ Document chars element := by
  unfold readDocument
  constructor
  · intro read
    split at read
    next found parsed =>
      cases read
      obtain ⟨front, whole, derived⟩ := forest_of_readForest parsed
      rw [List.append_nil] at whole
      exact whole ▸ derived
    next => cases read
  · intro document
    have closed : readOpen [] = none := rfl
    have parsed := readForest_of_forest document (Nat.lt_succ_self _) closed
    rw [List.append_nil] at parsed
    rw [parsed]

/-- The grammar is unambiguous. -/
theorem Document.unique {chars : List Char} {element other : Element}
    (document : Document chars element) (again : Document chars other) : element = other :=
  Option.some.inj ((readDocument_eq_some_iff.mpr document).symm.trans
    (readDocument_eq_some_iff.mpr again))

end SpecMock.Library.Markup
