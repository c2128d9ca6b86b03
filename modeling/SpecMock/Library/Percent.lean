import Mathlib.Data.String.Basic

/-!
# Percent encoding

Text as it stands in a URI.  The unreserved characters stand for themselves;
any other character is written as the bytes of its UTF-8 encoding, a percent
sign and two hexadecimal digits each.
-/

namespace SpecMock.Library.Percent

/-- The characters that stand for themselves. -/
def isUnreserved (char : Char) : Bool :=
  char.isAlphanum || char == '-' || char == '.' || char == '_' || char == '~'

/-- The upper case hexadecimal digits. -/
def hexDigit (digit : Nat) : Char :=
  if digit < 10 then Char.ofNat (48 + digit) else Char.ofNat (55 + digit)

def encodeByte (byte : UInt8) : List Char :=
  ['%', hexDigit (byte.toNat / 16), hexDigit (byte.toNat % 16)]

def encodeChar (char : Char) : List Char :=
  if isUnreserved char then [char] else (String.utf8EncodeChar char).flatMap encodeByte

/-- The encoding of a text as data inside a URI. -/
def encode (text : String) : String := String.ofList (text.toList.flatMap encodeChar)

example : encode "a b/é" = "a%20b%2F%C3%A9" := by decide

theorem isUnreserved_hexDigit : ∀ digit < 16, isUnreserved (hexDigit digit) = true := by decide

theorem mem_encodeByte {byte : UInt8} {char : Char} (member : char ∈ encodeByte byte) :
    isUnreserved char = true ∨ char = '%' := by
  have bounded := byte.toNat_lt
  simp only [encodeByte, List.mem_cons, List.not_mem_nil, or_false] at member
  rcases member with rfl | rfl | rfl
  · exact .inr rfl
  · exact .inl (isUnreserved_hexDigit _ (by omega))
  · exact .inl (isUnreserved_hexDigit _ (by omega))

/-- An encoding is written with unreserved characters and percent signs. -/
theorem mem_encode {text : String} {char : Char} (member : char ∈ (encode text).toList) :
    isUnreserved char = true ∨ char = '%' := by
  rw [encode, String.toList_ofList] at member
  obtain ⟨original, _, written⟩ := List.mem_flatMap.mp member
  unfold encodeChar at written
  split at written
  next plain =>
    rw [List.mem_singleton] at written
    exact .inl (written ▸ plain)
  next =>
    obtain ⟨byte, _, digit⟩ := List.mem_flatMap.mp written
    exact mem_encodeByte digit

theorem length_encodeChar_of_reserved {char : Char} (reserved : isUnreserved char = false) :
    3 ≤ (encodeChar char).length := by
  have bytes : 0 < (String.utf8EncodeChar char).length := by
    rw [String.length_utf8EncodeChar]
    exact char.utf8Size_pos
  obtain ⟨byte, rest, written⟩ := List.exists_cons_of_length_pos bytes
  simp [encodeChar, reserved, written, encodeByte]

theorem length_encodeChar_pos (char : Char) : 0 < (encodeChar char).length := by
  cases reserved : isUnreserved char with
  | true => simp [encodeChar, reserved]
  | false => exact Nat.lt_of_lt_of_le (by omega) (length_encodeChar_of_reserved reserved)

theorem length_le_flatMap_encodeChar (chars : List Char) :
    chars.length ≤ (chars.flatMap encodeChar).length := by
  induction chars with
  | nil => exact Nat.le_refl 0
  | cons char rest ih =>
      have first := length_encodeChar_pos char
      simp only [List.flatMap_cons, List.length_append, List.length_cons]
      omega

theorem flatMap_encodeChar_eq_self {chars : List Char} :
    chars.flatMap encodeChar = chars ↔ ∀ char ∈ chars, isUnreserved char = true := by
  induction chars with
  | nil => simp
  | cons char rest ih =>
      rw [List.flatMap_cons, List.forall_mem_cons]
      cases reserved : isUnreserved char with
      | true => simp [encodeChar, reserved, ih]
      | false =>
          have first := length_encodeChar_of_reserved reserved
          have others := length_le_flatMap_encodeChar rest
          refine iff_of_false (fun same => ?_) (by simp)
          have lengths := congrArg List.length same
          simp only [List.length_append, List.length_cons] at lengths
          omega

/-- A text is its own encoding when all its characters are unreserved, and only then. -/
theorem encode_eq_self {text : String} :
    encode text = text ↔ ∀ char ∈ text.toList, isUnreserved char = true := by
  rw [← flatMap_encodeChar_eq_self, encode, ← String.toList_inj, String.toList_ofList]

theorem encode_ne_empty {text : String} (nonempty : text ≠ "") : encode text ≠ "" := by
  intro empty
  have none := length_le_flatMap_encodeChar text.toList
  have written : text.toList.flatMap encodeChar = [] := by
    simpa [encode] using congrArg String.toList empty
  rw [written] at none
  exact nonempty (String.toList_eq_nil_iff.mp (List.length_eq_zero_iff.mp (Nat.le_zero.mp none)))

end SpecMock.Library.Percent
