import Mathlib.Data.String.Basic

/-!
# UTF-8 by bytes

Texts as lists of the bytes of their encoding.  A byte below 128 is a character
of its own, and the bytes of any other character are at least 128.
-/

namespace SpecMock.Library.Utf8

/-- The bytes of characters. -/
def encode (chars : List Char) : List UInt8 := chars.flatMap String.utf8EncodeChar

theorem encode_nil : encode [] = [] := rfl

theorem encode_cons (char : Char) (rest : List Char) :
    encode (char :: rest) = String.utf8EncodeChar char ++ encode rest := List.flatMap_cons

theorem encode_append (first second : List Char) :
    encode (first ++ second) = encode first ++ encode second := List.flatMap_append

theorem toByteArray_eq (text : String) : text.toByteArray = ⟨(encode text.toList).toArray⟩ := by
  rw [← String.utf8Encode_toList]
  apply ByteArray.ext
  rw [List.utf8Encode, List.data_toByteArray]
  rfl

/-- Bytes are decoded to the text that they encode. -/
theorem fromUTF8?_eq_some_iff {bytes : List UInt8} {text : String} :
    String.fromUTF8? ⟨bytes.toArray⟩ = some text ↔ encode text.toList = bytes := by
  have own : text.toByteArray = ⟨bytes.toArray⟩ ↔ encode text.toList = bytes := by
    rw [toByteArray_eq, ByteArray.mk.injEq]
    simp
  rw [← own, String.fromUTF8?]
  constructor
  · intro found
    split at found
    · cases found
      rfl
    · cases found
  · intro same
    have valid : ByteArray.IsValidUTF8 ⟨bytes.toArray⟩ :=
      .intro text.toList (by rw [String.utf8Encode_toList, same])
    rw [dif_pos valid]
    exact congrArg some (String.toByteArray_inj.mp same.symm)

theorem encode_injective : Function.Injective fun text : String => encode text.toList := by
  intro first second same
  have found := fromUTF8?_eq_some_iff.mpr same
  exact Option.some.inj (found.symm.trans (fromUTF8?_eq_some_iff.mpr rfl))

/-- The bytes are the encoding of some text. -/
def IsText (bytes : List UInt8) : Prop := ∃ chars, encode chars = bytes

theorem fromUTF8?_ne_none_iff {bytes : List UInt8} :
    String.fromUTF8? ⟨bytes.toArray⟩ ≠ none ↔ IsText bytes := by
  rw [Option.ne_none_iff_exists']
  constructor
  · rintro ⟨text, found⟩
    exact ⟨text.toList, fromUTF8?_eq_some_iff.mp found⟩
  · rintro ⟨chars, written⟩
    refine ⟨String.ofList chars, fromUTF8?_eq_some_iff.mpr ?_⟩
    rw [String.toList_ofList, written]

theorem utf8EncodeChar_of_ascii {char : Char} (ascii : char.toNat < 128) :
    String.utf8EncodeChar char = [UInt8.ofNat char.toNat] := by
  have small : char.val.toNat ≤ 127 := by
    change char.val.toNat < 128 at ascii
    omega
  rw [String.utf8EncodeChar, if_pos small]
  rfl

/-- The bytes of a longer encoding are above those of ASCII, and below 248. -/
theorem bounds_of_mem_utf8EncodeChar {char : Char} (wide : 128 ≤ char.toNat) {byte : UInt8}
    (member : byte ∈ String.utf8EncodeChar char) : 128 ≤ byte.toNat ∧ byte.toNat < 248 := by
  have large : ¬ char.val.toNat ≤ 127 := by
    change 128 ≤ char.val.toNat at wide
    omega
  rw [String.utf8EncodeChar, if_neg large] at member
  split at member
  · simp only [List.mem_cons, List.not_mem_nil, or_false] at member
    rcases member with rfl | rfl <;> rw [UInt8.toNat_ofNat'] <;> omega
  · split at member
    · simp only [List.mem_cons, List.not_mem_nil, or_false] at member
      rcases member with rfl | rfl | rfl <;> rw [UInt8.toNat_ofNat'] <;> omega
    · simp only [List.mem_cons, List.not_mem_nil, or_false] at member
      rcases member with rfl | rfl | rfl | rfl <;> rw [UInt8.toNat_ofNat'] <;> omega

theorem le_of_mem_utf8EncodeChar {char : Char} (wide : 128 ≤ char.toNat) {byte : UInt8}
    (member : byte ∈ String.utf8EncodeChar char) : 128 ≤ byte.toNat :=
  (bounds_of_mem_utf8EncodeChar wide member).1

/-- The bytes from 248 on are in no encoding. -/
theorem lt_of_mem_utf8EncodeChar {char : Char} {byte : UInt8}
    (member : byte ∈ String.utf8EncodeChar char) : byte.toNat < 248 := by
  rcases Nat.lt_or_ge char.toNat 128 with ascii | wide
  · rw [utf8EncodeChar_of_ascii ascii, List.mem_singleton] at member
    rw [member, UInt8.toNat_ofNat']
    omega
  · exact (bounds_of_mem_utf8EncodeChar wide member).2

theorem lt_of_mem_encode {chars : List Char} {byte : UInt8} (member : byte ∈ encode chars) :
    byte.toNat < 248 := by
  obtain ⟨char, -, coded⟩ := List.mem_flatMap.mp member
  exact lt_of_mem_utf8EncodeChar coded

/-- A byte below 128 is the encoding of its character. -/
theorem utf8EncodeChar_byte {byte : UInt8} (ascii : byte.toNat < 128) :
    String.utf8EncodeChar (Char.ofNat byte.toNat) = [byte] := by
  have code : (Char.ofNat byte.toNat).toNat = byte.toNat := by
    rw [Char.ofNat, dif_pos (Or.inl (by omega) : byte.toNat.isValidChar)]
    rfl
  rw [utf8EncodeChar_of_ascii (by rw [code]; exact ascii), code]
  simp

/-- Only a character below 128 has its byte in its encoding. -/
theorem ne_of_mem_utf8EncodeChar {char sign : Char} (ascii : sign.toNat < 128)
    (differs : char ≠ sign) :
    ∀ byte ∈ String.utf8EncodeChar char, byte ≠ UInt8.ofNat sign.toNat := by
  rintro byte member rfl
  by_cases small : char.toNat < 128
  · rw [utf8EncodeChar_of_ascii small, List.mem_singleton] at member
    have codes := congrArg UInt8.toNat member
    rw [UInt8.toNat_ofNat', UInt8.toNat_ofNat'] at codes
    exact differs (Char.toNat_inj.mp (by omega))
  · have large := le_of_mem_utf8EncodeChar (not_lt.mp small) member
    rw [UInt8.toNat_ofNat'] at large
    omega

/-- A byte below 128 is the first character of what it begins. -/
theorem exists_of_encode_cons {chars : List Char} {byte : UInt8} {bytes : List UInt8}
    (begins : encode chars = byte :: bytes) (ascii : byte.toNat < 128) :
    ∃ char rest, chars = char :: rest ∧ String.utf8EncodeChar char = [byte] ∧
      encode rest = bytes := by
  cases chars with
  | nil => cases begins
  | cons char rest =>
      rw [encode_cons] at begins
      by_cases small : char.toNat < 128
      · rw [utf8EncodeChar_of_ascii small] at begins
        obtain ⟨same, further⟩ := List.cons.inj begins
        exact ⟨char, rest, rfl, by rw [utf8EncodeChar_of_ascii small, same], further⟩
      · obtain ⟨first, others, written⟩ :=
          List.exists_cons_of_ne_nil (String.utf8EncodeChar_ne_nil (c := char))
        rw [written] at begins
        have same := (List.cons.inj begins).1
        have member : first ∈ String.utf8EncodeChar char := by
          rw [written]
          exact List.mem_cons_self
        have large := le_of_mem_utf8EncodeChar (not_lt.mp small) member
        rw [same] at large
        omega

theorem IsText.append {first second : List UInt8} (text : IsText first) (other : IsText second) :
    IsText (first ++ second) := by
  obtain ⟨chars, rfl⟩ := text
  obtain ⟨more, rfl⟩ := other
  exact ⟨chars ++ more, encode_append chars more⟩

theorem isText_byte {byte : UInt8} (ascii : byte.toNat < 128) : IsText [byte] :=
  ⟨[Char.ofNat byte.toNat], by
    rw [encode_cons, utf8EncodeChar_byte ascii, encode_nil, List.append_nil]⟩

/-- A byte below 128 parts a text into texts. -/
theorem isText_append_cons_iff {first second : List UInt8} {byte : UInt8}
    (ascii : byte.toNat < 128) :
    IsText (first ++ byte :: second) ↔ IsText first ∧ IsText second := by
  constructor
  · rintro ⟨chars, written⟩
    induction chars generalizing first with
    | nil => cases first <;> cases written
    | cons char rest ih =>
        cases first with
        | nil =>
            obtain ⟨_, _, split, -, further⟩ := exists_of_encode_cons written ascii
            exact ⟨⟨[], rfl⟩, _, further⟩
        | cons start first =>
            rw [encode_cons] at written
            rcases List.append_eq_append_iff.mp written with
              ⟨between, front, behind⟩ | ⟨between, front, behind⟩
            · -- The character is in front of the byte.
              obtain ⟨text, other⟩ := ih behind
              rw [front]
              exact ⟨IsText.append ⟨[char], by rw [encode_cons, encode_nil, List.append_nil]⟩ text,
                other⟩
            · -- The byte would be one of several bytes of the character.
              cases between with
              | nil =>
                  rw [List.append_nil] at front
                  obtain ⟨text, other⟩ := @ih [] behind.symm
                  exact ⟨⟨[char], by rw [encode_cons, encode_nil, List.append_nil, front]⟩, other⟩
              | cons within between =>
                  obtain ⟨rfl, -⟩ := List.cons.inj behind
                  by_cases small : char.toNat < 128
                  · rw [utf8EncodeChar_of_ascii small] at front
                    simp at front
                  · have large := @le_of_mem_utf8EncodeChar char (not_lt.mp small) byte
                      (by simp [front])
                    omega
  · rintro ⟨text, other⟩
    exact text.append ((isText_byte ascii).append other)

end SpecMock.Library.Utf8
