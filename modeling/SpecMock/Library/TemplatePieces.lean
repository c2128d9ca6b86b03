import SpecMock.Library.SelfDelimiting
import SpecMock.Library.Template

/-!
# Pieces of a template

A template is cut into literal texts, names between an opening brace and the
next closing one, and the tail behind a brace that is never closed.  There is
exactly one way to cut it, and filling the pieces in one pass is filling the
tokens of a scan.
-/

namespace SpecMock.Library.Template

open SelfDelimiting

inductive Piece where
  | literal (text : List Char)
  | token (name : List Char)
  /-- What stands behind the brace that is never closed. -/
  | tail (rest : List Char)
  deriving DecidableEq

/-- The pieces of a template, with a literal text in front of every token and at the end. -/
inductive Tokenises : List Char → List Piece → Prop where
  | literal {text : List Char} (plain : '{' ∉ text) : Tokenises text [.literal text]
  | tail {text rest : List Char} (plain : '{' ∉ text) (unclosed : '}' ∉ rest) :
      Tokenises (text ++ '{' :: rest) [.literal text, .tail rest]
  | token {text name rest : List Char} {pieces : List Piece} (plain : '{' ∉ text)
      (undivided : '}' ∉ name) (further : Tokenises rest pieces) :
      Tokenises (text ++ '{' :: (name ++ '}' :: rest)) (.literal text :: .token name :: pieces)

/-- The text of a piece, given what stands for a name. -/
def Piece.fill (value : List Char → List Char) : Piece → List Char
  | .literal text => text
  | .token name => value name
  | .tail rest => '{' :: rest

/-- The pieces in one pass, each replaced on its own. -/
def fillPieces (value : List Char → List Char) (pieces : List Piece) : List Char :=
  pieces.flatMap (Piece.fill value)

/-- Putting a character of text in front. -/
theorem Tokenises.cons {char : Char} (plain : char ≠ '{') {chars : List Char}
    {pieces : List Piece} (cut : Tokenises chars pieces) :
    ∃ pieces, Tokenises (char :: chars) pieces := by
  have longer : ∀ {text : List Char}, '{' ∉ text → '{' ∉ char :: text := fun absent member =>
    (List.mem_cons.mp member).elim (fun same => plain same.symm) absent
  cases cut with
  | literal absent => exact ⟨_, .literal (longer absent)⟩
  | tail absent unclosed => exact ⟨_, .tail (longer absent) unclosed⟩
  | token absent undivided further => exact ⟨_, .token (longer absent) undivided further⟩

theorem exists_tokenises (chars : List Char) : ∃ pieces, Tokenises chars pieces := by
  induction chars using chars_induction with
  | nil => exact ⟨_, .literal List.not_mem_nil⟩
  | plain char rest plain ih =>
      obtain ⟨pieces, cut⟩ := ih
      exact cut.cons plain
  | hole name rest undivided ih =>
      obtain ⟨pieces, cut⟩ := ih
      have shape : braced name ++ rest = [] ++ '{' :: (name ++ '}' :: rest) := by simp [braced]
      rw [shape]
      exact ⟨_, .token List.not_mem_nil undivided cut⟩
  | unclosed rest unclosed => exact ⟨_, @Tokenises.tail [] rest List.not_mem_nil unclosed⟩

theorem Tokenises.shape {chars : List Char} {pieces : List Piece}
    (cut : Tokenises chars pieces) :
    ('{' ∉ chars ∧ pieces = [.literal chars]) ∨
    (∃ text rest, '{' ∉ text ∧ '}' ∉ rest ∧ chars = text ++ '{' :: rest ∧
      pieces = [.literal text, .tail rest]) ∨
    ∃ text name rest behind, '{' ∉ text ∧ '}' ∉ name ∧ Tokenises rest behind ∧
      chars = text ++ '{' :: (name ++ '}' :: rest) ∧
      pieces = .literal text :: .token name :: behind := by
  cases cut with
  | literal plain => exact .inl ⟨plain, rfl⟩
  | tail plain unclosed => exact .inr (.inl ⟨_, _, plain, unclosed, rfl, rfl⟩)
  | token plain undivided further =>
      exact .inr (.inr ⟨_, _, _, _, plain, undivided, further, rfl, rfl⟩)

/-- There is no other way to cut a template. -/
theorem Tokenises.unique {chars : List Char} {pieces others : List Piece}
    (cut : Tokenises chars pieces) (other : Tokenises chars others) : pieces = others := by
  induction cut generalizing others with
  | literal plain =>
      rcases other.shape with ⟨-, rfl⟩ | ⟨text, rest, -, -, rfl, -⟩ |
        ⟨text, name, rest, behind, -, -, -, rfl, -⟩
      · rfl
      · exact absurd (by simp) plain
      · exact absurd (by simp) plain
  | tail plain unclosed =>
      rcases other.shape with ⟨absent, -⟩ | ⟨_, _, also, -, same, rfl⟩ |
        ⟨_, _, _, _, also, -, -, same, -⟩
      · exact absurd (by simp) absent
      · obtain ⟨rfl, rfl⟩ := eq_of_append_cons plain also same
        rfl
      · obtain ⟨-, rfl⟩ := eq_of_append_cons plain also same
        exact absurd (by simp) unclosed
  | token plain undivided further ih =>
      rcases other.shape with ⟨absent, -⟩ | ⟨_, _, also, unclosed, same, -⟩ |
        ⟨_, _, _, _, also, whole, behind, same, rfl⟩
      · exact absurd (by simp) absent
      · obtain ⟨-, rfl⟩ := eq_of_append_cons plain also same
        exact absurd (by simp) unclosed
      · obtain ⟨rfl, inside⟩ := eq_of_append_cons plain also same
        obtain ⟨rfl, rfl⟩ := eq_of_append_cons undivided whole inside
        rw [ih behind]

theorem existsUnique_tokenises (chars : List Char) : ∃! pieces, Tokenises chars pieces := by
  obtain ⟨pieces, cut⟩ := exists_tokenises chars
  exact ⟨pieces, cut, fun _ other => other.unique cut⟩

theorem scan_append_plain {text : List Char} (plain : '{' ∉ text) (rest : List Char) :
    scan (text ++ rest) = text.map .text ++ scan rest := by
  induction text with
  | nil => rfl
  | cons char text ih =>
      obtain ⟨apart, others⟩ := not_or.mp (List.mem_cons.not.mp plain)
      rw [List.cons_append, scan_plain (Ne.symm apart), ih others, List.map_cons, List.cons_append]

theorem fill_append (value : List Char → List Char) (first second : List Token) :
    fill value (first ++ second) = fill value first ++ fill value second := List.flatMap_append

/-- Filling the pieces is filling the tokens of a scan. -/
theorem Tokenises.fill_scan {chars : List Char} {pieces : List Piece}
    (cut : Tokenises chars pieces) (value : List Char → List Char) :
    fill value (scan chars) = fillPieces value pieces := by
  induction cut with
  | @literal text plain =>
      have read := scan_append_plain plain []
      rw [List.append_nil] at read
      rw [read, fill_append, fill_map_text]
      rfl
  | tail plain unclosed =>
      rw [scan_append_plain plain, scan_unclosed unclosed, fill_append, fill_map_text,
        fill_map_text]
      simp [fillPieces, Piece.fill]
  | @token text name rest pieces plain undivided further ih =>
      have shape : '{' :: (name ++ '}' :: rest) = braced name ++ rest := by simp [braced]
      rw [shape, scan_append_plain plain, scan_hole undivided, fill_append, fill_map_text,
        fill_hole, ih]
      rfl

/-- The pieces as they are written make the template. -/
theorem Tokenises.fillPieces_braced {chars : List Char} {pieces : List Piece}
    (cut : Tokenises chars pieces) : fillPieces braced pieces = chars := by
  rw [← cut.fill_scan, written_scan]

end SpecMock.Library.Template
