import Mathlib.Data.List.Basic
import Mathlib.Data.List.Flatten

/-!
# Text templates

A template is read from left to right: an opening brace with a closing brace
somewhere behind it starts a hole, named by what stands between the two, and
everything else is text.  The tokens of a template determine its text, and the
tokens between two separators are those of the text between them as long as no
hole holds a separator.
-/

namespace SpecMock.Library.Template

inductive Token where
  | text (char : Char)
  | hole (name : List Char)
  deriving DecidableEq

/-- Read the rest of a template, inside of a hole whose name so far is given backwards. -/
def scanFrom : Option (List Char) → List Char → List Token
  | none, [] => []
  | some name, [] => .text '{' :: name.reverse.map .text
  | none, char :: rest =>
      if char = '{' then scanFrom (some []) rest else .text char :: scanFrom none rest
  | some name, char :: rest =>
      if char = '}' then .hole name.reverse :: scanFrom none rest
      else scanFrom (some (char :: name)) rest

def scan (chars : List Char) : List Token := scanFrom none chars

/-- The text of tokens, given what stands for a hole. -/
def fill (value : List Char → List Char) (tokens : List Token) : List Char :=
  tokens.flatMap fun token =>
    match token with
    | .text char => [char]
    | .hole name => value name

/-- A hole as it is written. -/
def braced (name : List Char) : List Char := '{' :: name ++ ['}']

/-- The names of the holes, in their order. -/
def holes (tokens : List Token) : List (List Char) :=
  tokens.filterMap fun token =>
    match token with
    | .text _ => none
    | .hole name => some name

@[simp] theorem fill_nil (value : List Char → List Char) : fill value [] = [] := rfl
@[simp] theorem fill_text (value : List Char → List Char) (char : Char) (rest : List Token) :
    fill value (.text char :: rest) = char :: fill value rest := rfl
@[simp] theorem fill_hole (value : List Char → List Char) (name : List Char) (rest : List Token) :
    fill value (.hole name :: rest) = value name ++ fill value rest := rfl

@[simp] theorem holes_nil : holes [] = [] := rfl
@[simp] theorem holes_text (char : Char) (rest : List Token) :
    holes (.text char :: rest) = holes rest := rfl
@[simp] theorem holes_hole (name : List Char) (rest : List Token) :
    holes (.hole name :: rest) = name :: holes rest := rfl

theorem mem_holes {tokens : List Token} {name : List Char} :
    name ∈ holes tokens ↔ .hole name ∈ tokens := by
  unfold holes
  rw [List.mem_filterMap]
  constructor
  · rintro ⟨token, member, named⟩
    cases token with
    | text char => cases named
    | hole other => exact Option.some.inj named ▸ member
  · exact fun member => ⟨_, member, rfl⟩

/-- Only what stands for the holes of the tokens matters. -/
theorem fill_congr {left right : List Char → List Char} {tokens : List Token}
    (same : ∀ name ∈ holes tokens, left name = right name) :
    fill left tokens = fill right tokens := by
  induction tokens with
  | nil => rfl
  | cons token rest ih =>
      cases token with
      | text char => rw [fill_text, fill_text, ih same]
      | hole name =>
          obtain ⟨here, later⟩ := List.forall_mem_cons.mp same
          rw [fill_hole, fill_hole, here, ih later]

theorem fill_of_no_holes (value : List Char → List Char) {tokens : List Token}
    (plain : holes tokens = []) : fill value tokens = fill braced tokens :=
  fill_congr fun name member => absurd member (by simp [plain])

theorem fill_map_text (value : List Char → List Char) (chars : List Char) :
    fill value (chars.map .text) = chars := by
  rw [fill, List.flatMap_map]
  exact List.flatMap_singleton' chars

/-- A hole is at most as long as the text around it. -/
theorem length_le_fill {value : List Char → List Char} {tokens : List Token} {name : List Char}
    (member : name ∈ holes tokens) : (value name).length ≤ (fill value tokens).length := by
  obtain ⟨before, after, rfl⟩ := List.append_of_mem (mem_holes.mp member)
  simp only [fill, List.flatMap_append, List.flatMap_cons, List.length_append]
  omega

theorem scan_cons (char : Char) (rest : List Char) :
    scan (char :: rest) =
      if char = '{' then scanFrom (some []) rest else .text char :: scan rest := rfl

theorem scanFrom_nil (name : List Char) :
    scanFrom (some name) [] = .text '{' :: name.reverse.map .text := rfl

theorem scanFrom_cons (name : List Char) (char : Char) (rest : List Char) :
    scanFrom (some name) (char :: rest) =
      if char = '}' then .hole name.reverse :: scan rest
      else scanFrom (some (char :: name)) rest := rfl

theorem scan_plain {char : Char} (plain : char ≠ '{') (rest : List Char) :
    scan (char :: rest) = .text char :: scan rest := by
  rw [scan_cons, if_neg plain]

theorem scanFrom_hole {name : List Char} (undivided : '}' ∉ name) (before rest : List Char) :
    scanFrom (some before) (name ++ '}' :: rest) = .hole (before.reverse ++ name) :: scan rest := by
  induction name generalizing before with
  | nil => simp [scanFrom_cons]
  | cons char others ih =>
      obtain ⟨apart, later⟩ := not_or.mp (List.mem_cons.not.mp undivided)
      rw [List.cons_append, scanFrom_cons, if_neg (Ne.symm apart), ih later]
      simp

theorem scan_hole {name : List Char} (undivided : '}' ∉ name) (rest : List Char) :
    scan (braced name ++ rest) = .hole name :: scan rest := by
  have read := scanFrom_hole undivided [] rest
  simpa [scan_cons, braced] using read

theorem scanFrom_unclosed {rest : List Char} (unclosed : '}' ∉ rest) (before : List Char) :
    scanFrom (some before) rest = .text '{' :: (before.reverse ++ rest).map .text := by
  induction rest generalizing before with
  | nil => simp [scanFrom_nil]
  | cons char others ih =>
      obtain ⟨apart, later⟩ := not_or.mp (List.mem_cons.not.mp unclosed)
      rw [scanFrom_cons, if_neg (Ne.symm apart), ih later]
      simp

theorem scan_unclosed {rest : List Char} (unclosed : '}' ∉ rest) :
    scan ('{' :: rest) = ('{' :: rest).map .text := by
  have read := scanFrom_unclosed unclosed []
  simpa [scan_cons] using read

/-- A template begins with a character of text, with a hole, or with a brace never closed. -/
theorem chars_induction {motive : List Char → Prop} (nil : motive [])
    (plain : ∀ char rest, char ≠ '{' → motive rest → motive (char :: rest))
    (hole : ∀ name rest, '}' ∉ name → motive rest → motive (braced name ++ rest))
    (unclosed : ∀ rest, '}' ∉ rest → motive ('{' :: rest)) (chars : List Char) :
    motive chars := by
  induction size : chars.length using Nat.strongRecOn generalizing chars with
  | _ length ih =>
      subst size
      cases chars with
      | nil => exact nil
      | cons char rest =>
          by_cases brace : char = '{'
          · subst brace
            by_cases closed : '}' ∈ rest
            · obtain ⟨name, after, rfl, first⟩ := List.eq_append_cons_of_mem closed
              have shape : '{' :: (name ++ '}' :: after) = braced name ++ after := by
                simp [braced]
              rw [shape]
              refine hole name after first (ih after.length ?_ after rfl)
              simp only [List.length_cons, List.length_append]
              omega
            · exact unclosed rest closed
          · exact plain char rest brace (ih rest.length (Nat.lt_succ_self _) rest rfl)

/-- A template is the text of its tokens, the holes as they are written. -/
theorem written_scan (chars : List Char) : fill braced (scan chars) = chars := by
  induction chars using chars_induction with
  | nil => rfl
  | plain char rest plain ih => rw [scan_plain plain, fill_text, ih]
  | hole name rest undivided ih => rw [scan_hole undivided, fill_hole, ih]
  | unclosed rest unclosed => rw [scan_unclosed unclosed, fill_map_text]

/-- No name closes its hole, and no brace of the text is closed behind it. -/
structure Canonical (tokens : List Token) : Prop where
  undivided : ∀ name, .hole name ∈ tokens → '}' ∉ name
  unclosed : tokens.Pairwise fun left right =>
    left = .text '{' → right ≠ .text '}' ∧ ∀ name, right ≠ .hole name

theorem Canonical.sublist {tokens part : List Token} (canonical : Canonical tokens)
    (sublist : part.Sublist tokens) : Canonical part where
  undivided name member := canonical.undivided name (sublist.subset member)
  unclosed := canonical.unclosed.sublist sublist

theorem canonical_scan (chars : List Char) : Canonical (scan chars) := by
  induction chars using chars_induction with
  | nil => exact ⟨fun name member => (nomatch member), List.Pairwise.nil⟩
  | plain char rest plain ih =>
      rw [scan_plain plain]
      refine ⟨fun name member => ih.undivided name ?_, List.pairwise_cons.mpr ⟨?_, ih.unclosed⟩⟩
      · simpa using member
      · exact fun token _ brace => absurd (Token.text.inj brace) plain
  | hole name rest undivided ih =>
      rw [scan_hole undivided]
      refine ⟨fun other member => ?_, List.pairwise_cons.mpr ⟨?_, ih.unclosed⟩⟩
      · rcases List.mem_cons.mp member with here | later
        · exact Token.hole.inj here ▸ undivided
        · exact ih.undivided other later
      · exact fun token _ brace => nomatch brace
  | unclosed rest unclosed =>
      rw [scan_unclosed unclosed]
      have never : '}' ∉ '{' :: rest := by simpa using unclosed
      refine ⟨fun name member => ?_, List.pairwise_of_forall_mem_list ?_⟩
      · obtain ⟨char, _, clash⟩ := List.mem_map.mp member
        cases clash
      · intro left _ right member _
        obtain ⟨char, inside, rfl⟩ := List.mem_map.mp member
        refine ⟨fun closing => never (Token.text.inj closing ▸ inside), ?_⟩
        exact fun name clash => nomatch clash

/-- Tokens without holes are the characters of their text. -/
theorem map_text_fill {value : List Char → List Char} {tokens : List Token}
    (plain : ∀ name, .hole name ∉ tokens) : (fill value tokens).map .text = tokens := by
  induction tokens with
  | nil => rfl
  | cons token rest ih =>
      have others := ih fun name member => plain name (List.mem_cons_of_mem _ member)
      cases token with
      | hole name => exact absurd List.mem_cons_self (plain name)
      | text char => rw [fill_text, List.map_cons, others]

/-- Canonical tokens are those of their text. -/
theorem scan_written {tokens : List Token} (canonical : Canonical tokens) :
    scan (fill braced tokens) = tokens := by
  induction tokens with
  | nil => rfl
  | cons token rest ih =>
      have others := ih (canonical.sublist (List.sublist_cons_self token rest))
      cases token with
      | hole name =>
          rw [fill_hole, scan_hole (canonical.undivided name List.mem_cons_self), others]
      | text char =>
          by_cases brace : char = '{'
          · subst brace
            have behind := (List.pairwise_cons.mp canonical.unclosed).1
            have written : (fill braced rest).map .text = rest :=
              map_text_fill fun name member => (behind _ member rfl).2 name rfl
            have unclosed : '}' ∉ fill braced rest := by
              intro inside
              have member : .text '}' ∈ rest := written ▸ List.mem_map_of_mem inside
              exact (behind _ member rfl).1 rfl
            rw [fill_text, scan_unclosed unclosed, List.map_cons, written]
          · rw [fill_text, scan_plain brace, others]

theorem splitOn_append_of_not_mem {α : Type} [DecidableEq α] {separator : α} {front : List α}
    (absent : separator ∉ front) (rest : List α) :
    (front ++ rest).splitOn separator = (rest.splitOn separator).modifyHead (front ++ ·) := by
  induction front with
  | nil =>
      change rest.splitOn separator = (rest.splitOn separator).modifyHead fun part => part
      cases rest.splitOn separator <;> rfl
  | cons item others ih =>
      obtain ⟨apart, later⟩ := not_or.mp (List.mem_cons.not.mp absent)
      have differs : ¬ (item == separator) = true := by simpa using Ne.symm apart
      rw [List.cons_append, List.splitOn_cons_eq_if_modifyHead, if_neg differs, ih later]
      cases rest.splitOn separator <;> rfl

/-- Cutting a filled template fills the tokens between the separators. -/
theorem splitOn_fill {value : List Char → List Char} {separator : Char} {tokens : List Token}
    (undivided : ∀ name ∈ holes tokens, separator ∉ value name) :
    (fill value tokens).splitOn separator =
      (tokens.splitOn (.text separator)).map (fill value) := by
  induction tokens with
  | nil => simp
  | cons token rest ih =>
      cases token with
      | text char =>
          have others := ih undivided
          rw [fill_text, List.splitOn_cons_eq_if_modifyHead, List.splitOn_cons_eq_if_modifyHead,
            others]
          by_cases same : char = separator
          · simp [same]
          · have differs : ¬ Token.text char = .text separator :=
              fun clash => same (Token.text.inj clash)
            simp only [beq_iff_eq, same, differs, if_false]
            cases rest.splitOn (Token.text separator) <;> rfl
      | hole name =>
          obtain ⟨here, later⟩ := List.forall_mem_cons.mp undivided
          have differs : ¬ (Token.hole name == .text separator) = true := by simp
          rw [fill_hole, splitOn_append_of_not_mem here, ih later,
            List.splitOn_cons_eq_if_modifyHead, if_neg differs]
          cases rest.splitOn (Token.text separator) <;> rfl

theorem sublist_of_mem_splitOn {α : Type} [DecidableEq α] {separator : α} {items part : List α}
    (member : part ∈ items.splitOn separator) : part.Sublist items := by
  induction items generalizing part with
  | nil =>
      rw [List.splitOn_nil, List.mem_singleton] at member
      exact member ▸ List.Sublist.refl []
  | cons item rest ih =>
      rw [List.splitOn_cons_eq_if_modifyHead] at member
      split at member
      next =>
        rcases List.mem_cons.mp member with rfl | later
        · exact List.nil_sublist _
        · exact (ih later).cons item
      next =>
        obtain ⟨first, others, split⟩ :=
          List.exists_cons_of_ne_nil (List.splitOn_ne_nil separator rest)
        rw [split, List.modifyHead_cons] at member
        rcases List.mem_cons.mp member with rfl | later
        · exact (ih (split ▸ List.mem_cons_self)).cons_cons item
        · exact (ih (split ▸ List.mem_cons_of_mem _ later)).cons item

/-- The holes of a template are those between its separators. -/
theorem holes_splitOn (separator : Char) (tokens : List Token) :
    (tokens.splitOn (.text separator)).flatMap holes = holes tokens := by
  induction tokens with
  | nil => rfl
  | cons token rest ih =>
      obtain ⟨first, others, split⟩ :=
        List.exists_cons_of_ne_nil (List.splitOn_ne_nil (Token.text separator) rest)
      rw [split, List.flatMap_cons] at ih
      rw [List.splitOn_cons_eq_if_modifyHead]
      split
      next same =>
        rw [beq_iff_eq.mp same, List.flatMap_cons, split, List.flatMap_cons, ih]
        rfl
      next =>
        rw [split, List.modifyHead_cons, List.flatMap_cons]
        cases token with
        | text char => exact ih
        | hole name => exact congrArg (name :: ·) ih

/-- Without a separator in a hole the text between separators has the tokens between them. -/
theorem splitOn_written {separator : Char} {chars : List Char}
    (undivided : ∀ name ∈ holes (scan chars), separator ∉ braced name) :
    (chars.splitOn separator).map scan = (scan chars).splitOn (.text separator) := by
  have cut := splitOn_fill undivided
  rw [written_scan] at cut
  rw [cut, List.map_map]
  refine (List.map_congr_left fun part member => ?_).trans (List.map_id _)
  exact scan_written ((canonical_scan chars).sublist (sublist_of_mem_splitOn member))

end SpecMock.Library.Template
