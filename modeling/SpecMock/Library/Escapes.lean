import SpecMock.Library.Percent
import SpecMock.Library.Utf8

/-!
# Escapes

A decoder replaces a percent sign, with the two bytes behind it, by the byte
that the pair is read as, and copies every other byte.  What the readers of two
decoders make of pairs decides what the decoders make of a text.
-/

namespace SpecMock.Library.Escapes

/-- What a pair of bytes behind a percent sign is read as, if it is an escape. -/
abbrev PairReader : Type := UInt8 → UInt8 → Option UInt8

def unescape (read : PairReader) : List UInt8 → List UInt8
  | [] => []
  | byte :: high :: low :: rest =>
      if byte = 37 then
        match read high low with
        | some decoded => decoded :: unescape read rest
        | none => byte :: unescape read (high :: low :: rest)
      else byte :: unescape read (high :: low :: rest)
  | byte :: rest => byte :: unescape read rest

/-- Somewhere a percent sign stands in front of a pair of the kind. -/
def HasEscape (kind : UInt8 → UInt8 → Prop) (bytes : List UInt8) : Prop :=
  ∃ before high low after, bytes = before ++ 37 :: high :: low :: after ∧ kind high low

section Has

variable {kind other : UInt8 → UInt8 → Prop}

theorem HasEscape.cons {bytes : List UInt8} (has : HasEscape kind bytes) (byte : UInt8) :
    HasEscape kind (byte :: bytes) := by
  obtain ⟨before, high, low, after, rfl, holds⟩ := has
  exact ⟨byte :: before, high, low, after, rfl, holds⟩

theorem HasEscape.imp {bytes : List UInt8} (has : HasEscape kind bytes)
    (weaker : ∀ high low, kind high low → other high low) : HasEscape other bytes := by
  obtain ⟨before, high, low, after, split, holds⟩ := has
  exact ⟨before, high, low, after, split, weaker high low holds⟩

theorem hasEscape_cons {byte high low : UInt8} {rest : List UInt8} :
    HasEscape kind (byte :: high :: low :: rest) ↔
      (byte = 37 ∧ kind high low) ∨ HasEscape kind (high :: low :: rest) := by
  constructor
  · rintro ⟨before, high', low', after, split, holds⟩
    cases before with
    | nil =>
        cases split
        exact .inl ⟨rfl, holds⟩
    | cons first before =>
        exact .inr ⟨before, high', low', after, (List.cons.inj split).2, holds⟩
  · rintro (⟨rfl, holds⟩ | later)
    · exact ⟨[], high, low, rest, rfl, holds⟩
    · exact later.cons byte

/-- A percent sign needs two bytes behind it. -/
theorem not_hasEscape_short {bytes : List UInt8} (short : bytes.length < 3) :
    ¬ HasEscape kind bytes := by
  rintro ⟨before, high, low, after, rfl, -⟩
  simp only [List.length_append, List.length_cons] at short
  omega

/-- The bytes of a pair do not begin an escape unless they are percent signs. -/
theorem hasEscape_cons_cons {high low : UInt8} (plain : high ≠ 37 ∧ low ≠ 37) {rest : List UInt8} :
    HasEscape kind (high :: low :: rest) ↔ HasEscape kind rest := by
  constructor
  · rintro ⟨before, high', low', after, split, holds⟩
    cases before with
    | nil => exact absurd (List.cons.inj split).1 plain.1
    | cons first before =>
        cases before with
        | nil => exact absurd (List.cons.inj (List.cons.inj split).2).1 plain.2
        | cons second before =>
            have deeper := (List.cons.inj (List.cons.inj split).2).2
            exact ⟨before, high', low', after, deeper, holds⟩
  · exact fun has => (has.cons low).cons high

end Has

variable {read more : PairReader}

theorem unescape_cons_of_ne {byte : UInt8} (plain : byte ≠ 37) (rest : List UInt8) :
    unescape read (byte :: rest) = byte :: unescape read rest := by
  cases rest with
  | nil => rfl
  | cons high rest =>
      cases rest with
      | nil => rfl
      | cons low rest => rw [unescape, if_neg plain]

theorem unescape_of_some {high low decoded : UInt8} (found : read high low = some decoded)
    (rest : List UInt8) :
    unescape read (37 :: high :: low :: rest) = decoded :: unescape read rest := by
  rw [unescape, if_pos rfl, found]

theorem unescape_of_none {high low : UInt8} (missed : read high low = none)
    (rest : List UInt8) :
    unescape read (37 :: high :: low :: rest) = 37 :: unescape read (high :: low :: rest) := by
  rw [unescape, if_pos rfl, missed]

/-- Bytes are looked at one by one, except behind a percent sign that begins an escape. -/
theorem escapeInduction {motive : List UInt8 → Prop} (read : PairReader) (nil : motive [])
    (escape : ∀ high low decoded rest, read high low = some decoded → motive rest →
      motive (37 :: high :: low :: rest))
    (other : ∀ high low rest, read high low = none → motive (high :: low :: rest) →
      motive (37 :: high :: low :: rest))
    (plain : ∀ byte rest, byte ≠ 37 ∨ rest.length < 2 → motive rest → motive (byte :: rest))
    (bytes : List UInt8) : motive bytes := by
  induction bytes using unescape.induct read with
  | case1 => exact nil
  | case2 high low rest decoded found ih => exact escape high low decoded rest found ih
  | case3 high low rest missed ih => exact other high low rest missed ih
  | case4 byte high low rest differs ih => exact plain byte _ (.inl differs) ih
  | case5 byte rest short ih =>
      refine plain byte rest (.inr ?_) ih
      match rest with
      | [] => decide
      | [_] => exact Nat.one_lt_two
      | high :: low :: rest => exact (short high low rest rfl).elim

theorem unescape_cons_of_plain {byte : UInt8} {rest : List UInt8}
    (plain : byte ≠ 37 ∨ rest.length < 2) :
    unescape read (byte :: rest) = byte :: unescape read rest := by
  rcases plain with differs | short
  · exact unescape_cons_of_ne differs rest
  · match rest with
    | [] => rfl
    | [_] => rfl
    | _ :: _ :: rest =>
        simp only [List.length_cons] at short
        omega

theorem hasEscape_of_plain {kind : UInt8 → UInt8 → Prop} {byte : UInt8} {rest : List UInt8}
    (plain : byte ≠ 37 ∨ rest.length < 2) :
    HasEscape kind (byte :: rest) ↔ HasEscape kind rest := by
  constructor
  · rintro ⟨before, high, low, after, split, holds⟩
    cases before with
    | nil =>
        cases split
        rcases plain with differs | short
        · exact absurd rfl differs
        · simp only [List.length_cons] at short
          omega
    | cons first before => exact ⟨before, high, low, after, (List.cons.inj split).2, holds⟩
  · exact fun has => has.cons byte

/-- The second reader reads what the first one does, and no pairs with percent signs. -/
structure Extends (read more : PairReader) : Prop where
  kept : ∀ high low decoded, read high low = some decoded → more high low = some decoded
  plain : ∀ high low decoded, more high low = some decoded → high ≠ 37 ∧ low ≠ 37

/-- A pair that only the second reader reads. -/
def Extra (read more : PairReader) (high low : UInt8) : Prop :=
  read high low = none ∧ (more high low).isSome = true

section Extends

variable (extends_ : Extends read more) {bytes : List UInt8}

include extends_

theorem Extends.missed {high low : UInt8} (missed : more high low = none) :
    read high low = none := by
  cases found : read high low with
  | none => rfl
  | some decoded => exact nomatch missed.symm.trans (extends_.kept high low decoded found)

/-- Where there is no pair of the second reader alone, the decoders agree. -/
theorem unescape_eq_of_extends (none : ¬ HasEscape (Extra read more) bytes) :
    unescape more bytes = unescape read bytes := by
  induction bytes using escapeInduction more with
  | nil => rfl
  | escape high low decoded rest found ih =>
      cases own : read high low with
      | none =>
          exact absurd (hasEscape_cons.mpr (.inl ⟨rfl, own, by rw [found]; rfl⟩)) none
      | some byte =>
          cases found.symm.trans (extends_.kept high low byte own)
          rw [unescape_of_some found, unescape_of_some own,
            ih fun has => none (((has.cons low).cons high).cons 37)]
  | other high low rest missed ih =>
      rw [unescape_of_none missed, unescape_of_none (extends_.missed missed),
        ih fun has => none (has.cons 37)]
  | plain byte rest copied ih =>
      rw [unescape_cons_of_plain copied, unescape_cons_of_plain copied,
        ih fun has => none (has.cons byte)]

theorem length_unescape_extends_le :
    (unescape more bytes).length ≤ (unescape read bytes).length := by
  induction bytes using escapeInduction more with
  | nil => exact Nat.le_refl 0
  | escape high low decoded rest found ih =>
      rw [unescape_of_some found]
      cases own : read high low with
      | none =>
          obtain ⟨first, second⟩ := extends_.plain high low decoded found
          rw [unescape_of_none own, unescape_cons_of_ne first, unescape_cons_of_ne second]
          simp only [List.length_cons]
          omega
      | some byte =>
          rw [unescape_of_some own]
          exact Nat.succ_le_succ ih
  | other high low rest missed ih =>
      rw [unescape_of_none missed, unescape_of_none (extends_.missed missed)]
      exact Nat.succ_le_succ ih
  | plain byte rest copied ih =>
      rw [unescape_cons_of_plain copied, unescape_cons_of_plain copied]
      exact Nat.succ_le_succ ih

/-- A pair of the second reader alone makes its text the shorter one. -/
theorem length_unescape_extends_lt (has : HasEscape (Extra read more) bytes) :
    (unescape more bytes).length < (unescape read bytes).length := by
  induction bytes using escapeInduction more with
  | nil => exact absurd has (not_hasEscape_short (by decide))
  | escape high low decoded rest found ih =>
      obtain ⟨first, second⟩ := extends_.plain high low decoded found
      rw [unescape_of_some found]
      cases own : read high low with
      | none =>
          have bound : (unescape more rest).length ≤ (unescape read rest).length :=
            length_unescape_extends_le extends_
          rw [unescape_of_none own, unescape_cons_of_ne first, unescape_cons_of_ne second]
          simp only [List.length_cons]
          omega
      | some byte =>
          rw [unescape_of_some own]
          rcases hasEscape_cons.mp has with ⟨-, alone, -⟩ | later
          · exact nomatch alone.symm.trans own
          · exact Nat.succ_lt_succ (ih ((hasEscape_cons_cons ⟨first, second⟩).mp later))
  | other high low rest missed ih =>
      rw [unescape_of_none missed, unescape_of_none (extends_.missed missed)]
      rcases hasEscape_cons.mp has with ⟨-, -, here⟩ | later
      · rw [missed] at here
        cases here
      · exact Nat.succ_lt_succ (ih later)
  | plain byte rest copied ih =>
      rw [unescape_cons_of_plain copied, unescape_cons_of_plain copied]
      exact Nat.succ_lt_succ (ih ((hasEscape_of_plain copied).mp has))

/--
Where the pairs of the second reader are read as ASCII from ASCII, the decoders
make a text of the same bytes.
-/
theorem isText_unescape_iff (ascii : ∀ high low decoded, more high low = some decoded →
      high.toNat < 128 ∧ low.toNat < 128)
    (alone : ∀ high low decoded, read high low = none → more high low = some decoded →
      decoded.toNat < 128) (before : List UInt8) :
    Utf8.IsText (before ++ unescape more bytes) ↔ Utf8.IsText (before ++ unescape read bytes) := by
  induction bytes using escapeInduction more generalizing before with
  | nil => exact Iff.rfl
  | escape high low decoded rest found ih =>
      rw [unescape_of_some found]
      cases own : read high low with
      | some byte =>
          cases found.symm.trans (extends_.kept high low byte own)
          rw [unescape_of_some own, List.append_cons _ _ (unescape more rest),
            List.append_cons _ _ (unescape read rest)]
          exact ih (before ++ [decoded])
      | none =>
          obtain ⟨first, second⟩ := extends_.plain high low decoded found
          obtain ⟨upper, lower⟩ := ascii high low decoded found
          have rest_iff := ih []
          rw [List.nil_append, List.nil_append] at rest_iff
          rw [unescape_of_none own, unescape_cons_of_ne first, unescape_cons_of_ne second,
            Utf8.isText_append_cons_iff (alone high low decoded own found),
            Utf8.isText_append_cons_iff (by decide), rest_iff,
            ← List.nil_append (high :: low :: _), Utf8.isText_append_cons_iff upper,
            ← List.nil_append (low :: _), Utf8.isText_append_cons_iff lower]
          have empty : Utf8.IsText [] := ⟨[], rfl⟩
          simp [empty]
  | other high low rest missed ih =>
      rw [unescape_of_none missed, unescape_of_none (extends_.missed missed),
        List.append_cons _ _ (unescape more _), List.append_cons _ _ (unescape read _)]
      exact ih (before ++ [37])
  | plain byte rest copied ih =>
      rw [unescape_cons_of_plain copied, unescape_cons_of_plain copied,
        List.append_cons _ _ (unescape more rest), List.append_cons _ _ (unescape read rest)]
      exact ih (before ++ [byte])

end Extends

/-- A reader of plain pairs reads more than one that reads nothing. -/
theorem extends_none (plain : ∀ high low decoded, read high low = some decoded →
    high ≠ 37 ∧ low ≠ 37) : Extends (fun _ _ => none) read where
  kept _ _ _ found := nomatch found
  plain := plain

theorem unescape_none (bytes : List UInt8) : unescape (fun _ _ => none) bytes = bytes := by
  induction bytes using escapeInduction fun _ _ => none with
  | nil => rfl
  | escape _ _ _ _ found => cases found
  | other high low rest missed ih => rw [unescape_of_none missed, ih]
  | plain byte rest copied ih => rw [unescape_cons_of_plain copied, ih]

/-- A text is its own decoding if there is no escape in it, and only then. -/
theorem unescape_eq_self_iff (plain : ∀ high low decoded, read high low = some decoded →
    high ≠ 37 ∧ low ≠ 37) {bytes : List UInt8} : unescape read bytes = bytes ↔
      ¬ HasEscape (fun high low => (read high low).isSome = true) bytes := by
  have extends_ := extends_none plain
  constructor
  · intro same has
    have shorter := length_unescape_extends_lt extends_ (has.imp fun _ _ found => ⟨rfl, found⟩)
    rw [unescape_none, same] at shorter
    exact Nat.lt_irrefl _ shorter
  · intro clear
    have same := unescape_eq_of_extends extends_ fun has => clear (has.imp fun _ _ extra => extra.2)
    rwa [unescape_none] at same

def digitValue (digit : UInt8) : Option Nat :=
  let code := digit.toNat
  if 48 ≤ code ∧ code ≤ 57 then some (code - 48)
  else if 65 ≤ code ∧ code ≤ 70 then some (code - 55)
  else if 97 ≤ code ∧ code ≤ 102 then some (code - 87)
  else none

/-- Two hexadecimal digits. -/
def hexPair : PairReader := fun high low =>
  match digitValue high, digitValue low with
  | some first, some second => some (UInt8.ofNat (16 * first + second))
  | _, _ => none

theorem digitValue_bounds {digit : UInt8} {value : Nat} (found : digitValue digit = some value) :
    digit.toNat < 128 ∧ digit ≠ 37 ∧ digit ≠ 43 ∧ value < 16 := by
  have bounds : 48 ≤ digit.toNat ∧ digit.toNat < 128 ∧ value < 16 := by
    unfold digitValue at found
    dsimp only at found
    split at found
    · cases found
      omega
    · split at found
      · cases found
        omega
      · split at found
        · cases found
          omega
        · cases found
  have apart : ∀ sign : UInt8, sign.toNat < 48 → digit ≠ sign := by
    rintro _ small rfl
    omega
  exact ⟨bounds.2.1, apart 37 (by decide), apart 43 (by decide), bounds.2.2⟩

theorem hexPair_eq_some {high low decoded : UInt8} (found : hexPair high low = some decoded) :
    ∃ first second, digitValue high = some first ∧ digitValue low = some second ∧
      decoded = UInt8.ofNat (16 * first + second) := by
  unfold hexPair at found
  cases first : digitValue high with
  | none => simp [first] at found
  | some high =>
      cases second : digitValue low with
      | none => simp [first, second] at found
      | some low =>
          simp only [first, second, Option.some.injEq] at found
          exact ⟨high, low, rfl, rfl, found.symm⟩

/-- The digits of a pair are no percent signs. -/
theorem hexPair_plain (high low decoded : UInt8) (found : hexPair high low = some decoded) :
    high ≠ 37 ∧ low ≠ 37 := by
  obtain ⟨first, second, upper, lower, -⟩ := hexPair_eq_some found
  exact ⟨(digitValue_bounds upper).2.1, (digitValue_bounds lower).2.1⟩

theorem digitValue_hexDigit : ∀ digit < 16,
    String.utf8EncodeChar (Percent.hexDigit digit) =
        [UInt8.ofNat (Percent.hexDigit digit).toNat] ∧
      digitValue (UInt8.ofNat (Percent.hexDigit digit).toNat) = some digit := by
  decide

/-- A code of bytes: an escape stands for its byte, any byte but a percent sign for itself. -/
inductive Escaped : List UInt8 → List UInt8 → Prop where
  | nil : Escaped [] []
  | plain {byte : UInt8} {code bytes : List UInt8} (differs : byte ≠ 37)
      (rest : Escaped code bytes) : Escaped (byte :: code) (byte :: bytes)
  | escape {high low byte : UInt8} {code bytes : List UInt8} (read : hexPair high low = some byte)
      (rest : Escaped code bytes) : Escaped (37 :: high :: low :: code) (byte :: bytes)

namespace Escaped

variable {code bytes : List UInt8}

/-- Every decoder that knows the escapes decodes the code. -/
theorem unescape_eq (escaped : Escaped code bytes)
    (kept : ∀ high low decoded, hexPair high low = some decoded → read high low = some decoded) :
    unescape read code = bytes := by
  induction escaped with
  | nil => rfl
  | plain differs _ ih => rw [unescape_cons_of_ne differs, ih]
  | escape pair _ ih => rw [unescape_of_some (kept _ _ _ pair), ih]

/-- The percent signs of the code stand in front of escapes. -/
theorem exists_of_hasEscape (escaped : Escaped code bytes) {kind : UInt8 → UInt8 → Prop}
    (has : HasEscape kind code) : ∃ high low, kind high low ∧ (hexPair high low).isSome = true := by
  induction escaped with
  | nil => exact absurd has (not_hasEscape_short (by decide))
  | plain differs _ ih => exact ih ((hasEscape_of_plain (.inl differs)).mp has)
  | @escape high low byte _ _ pair _ ih =>
      rcases hasEscape_cons.mp has with ⟨-, here⟩ | later
      · exact ⟨high, low, here, by rw [pair]; rfl⟩
      · exact ih ((hasEscape_cons_cons (hexPair_plain high low byte pair)).mp later)

theorem append_plain (escaped : Escaped code bytes) {first : List UInt8}
    (plain : ∀ byte ∈ first, byte ≠ 37) : Escaped (first ++ code) (first ++ bytes) := by
  induction first with
  | nil => exact escaped
  | cons byte first ih =>
      obtain ⟨differs, others⟩ := List.forall_mem_cons.mp plain
      exact .plain differs (ih others)

theorem append_encodeByte (escaped : Escaped code bytes) (byte : UInt8) :
    Escaped (Utf8.encode (Percent.encodeByte byte) ++ code) (byte :: bytes) := by
  have bound := byte.toNat_lt
  obtain ⟨high, highValue⟩ := digitValue_hexDigit (byte.toNat / 16) (by omega)
  obtain ⟨low, lowValue⟩ := digitValue_hexDigit (byte.toNat % 16) (by omega)
  have read : hexPair (UInt8.ofNat (Percent.hexDigit (byte.toNat / 16)).toNat)
      (UInt8.ofNat (Percent.hexDigit (byte.toNat % 16)).toNat) = some byte := by
    rw [hexPair, highValue, lowValue]
    refine congrArg some (UInt8.toNat_inj.mp ?_)
    rw [UInt8.toNat_ofNat']
    omega
  have written : Utf8.encode (Percent.encodeByte byte) =
      [37, UInt8.ofNat (Percent.hexDigit (byte.toNat / 16)).toNat,
        UInt8.ofNat (Percent.hexDigit (byte.toNat % 16)).toNat] := by
    rw [Percent.encodeByte, Utf8.encode_cons, Utf8.encode_cons, Utf8.encode_cons, high, low]
    rfl
  rw [written]
  exact .escape read escaped

theorem append_encodeBytes (escaped : Escaped code bytes) (first : List UInt8) :
    Escaped (Utf8.encode (first.flatMap Percent.encodeByte) ++ code) (first ++ bytes) := by
  induction first with
  | nil => exact escaped
  | cons byte first ih =>
      rw [List.flatMap_cons, Utf8.encode_append, List.append_assoc]
      exact ih.append_encodeByte byte

end Escaped

/-- The encoding of a text is a code of its bytes. -/
theorem escaped_encode (text : String) :
    Escaped (Utf8.encode (Percent.encode text).toList) (Utf8.encode text.toList) := by
  rw [Percent.encode, String.toList_ofList]
  induction text.toList with
  | nil => exact .nil
  | cons char rest ih =>
      rw [List.flatMap_cons, Utf8.encode_append, Utf8.encode_cons]
      cases reserved : Percent.isUnreserved char with
      | true =>
          have plain : char ≠ '%' := by
            rintro rfl
            exact absurd reserved (by decide)
          rw [Percent.encodeChar, if_pos reserved, Utf8.encode_cons, Utf8.encode_nil,
            List.append_nil]
          exact ih.append_plain (Utf8.ne_of_mem_utf8EncodeChar (by decide) plain)
      | false =>
          rw [Percent.encodeChar, if_neg (by rw [reserved]; exact Bool.false_ne_true)]
          exact ih.append_encodeBytes (String.utf8EncodeChar char)

end SpecMock.Library.Escapes
