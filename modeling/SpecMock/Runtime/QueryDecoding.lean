import SpecMock.Library.Escapes
import SpecMock.Runtime.Handshake

/-!
# Query values

The handshake decodes the values of its query parameters.  What was encoded is
always read back, but the decoder takes a plus sign for the first digit of an
escape, and it gives up where the bytes behind a percent sign, or all decoded
bytes, are no text; the handshake then takes the value as it stands, and another
value may name the same session.
-/

namespace SpecMock.Runtime

open SpecMock.Library SpecMock.Core Escapes

/-- The value that the handshake takes from the text of a query value. -/
def extracted (value : String) : String := (percentDecode value).getD value

/-- A percent sign in front of two hexadecimal digits stands for a byte, and all else for itself. -/
def decodedBytes (value : String) : List UInt8 := unescape hexPair (utf8Bytes value)

/-- The pair is no text on its own. -/
def Undecodable (high low : UInt8) : Prop := fromUtf8 [high, low] = none

/-- The pair is two hexadecimal digits. -/
def IsEscape (high low : UInt8) : Prop := (hexPair high low).isSome = true

/-- The pair is a plus sign and a hexadecimal digit. -/
def IsSigned (high low : UInt8) : Prop := high = 43 ∧ (digitValue low).isSome = true

/--
A pair stops the decoder where there is nothing to replace; or no pair stops it,
none has a sign, and the decoded bytes are a text.
-/
def Readable (value : String) : Prop :=
  (HasEscape Undecodable (utf8Bytes value) ∧ ¬ HasEscape IsEscape (utf8Bytes value)) ∨
    (¬ HasEscape Undecodable (utf8Bytes value) ∧ ¬ HasEscape IsSigned (utf8Bytes value) ∧
      fromUtf8 (decodedBytes value) ≠ none)

theorem hexValue_eq (digit : UInt8) : hexValue digit = digitValue digit := rfl

/-- The code reads a pair as a signed digit, or as two digits. -/
theorem fromHexPair_eq_some_iff {high low decoded : UInt8} :
    fromHexPair high low = some decoded ↔
      hexPair high low = some decoded ∨
        (high = 43 ∧ ∃ digit, digitValue low = some digit ∧ decoded = UInt8.ofNat digit) := by
  by_cases sign : high = 43
  · have none : hexPair high low = none := by
      rw [sign]
      rfl
    rw [fromHexPair, if_pos sign, none, hexValue_eq]
    simp [sign, eq_comm]
  · rw [fromHexPair, if_neg sign]
    simp only [hexValue_eq, sign, false_and, or_false]
    rfl

theorem fromHexPair_extends : Extends hexPair fromHexPair where
  kept high low decoded found := fromHexPair_eq_some_iff.mpr (.inl found)
  plain high low decoded found := by
    rcases fromHexPair_eq_some_iff.mp found with pair | ⟨rfl, digit, lower, -⟩
    · exact hexPair_plain high low decoded pair
    · exact ⟨by decide, (digitValue_bounds lower).2.1⟩

/-- The pairs that only the code reads have a sign. -/
theorem extra_iff {high low : UInt8} : Extra hexPair fromHexPair high low ↔ IsSigned high low := by
  constructor
  · rintro ⟨missed, read⟩
    obtain ⟨decoded, found⟩ := Option.isSome_iff_exists.mp read
    rcases fromHexPair_eq_some_iff.mp found with pair | ⟨sign, digit, lower, -⟩
    · exact nomatch missed.symm.trans pair
    · exact ⟨sign, by rw [lower]; rfl⟩
  · rintro ⟨rfl, read⟩
    obtain ⟨digit, lower⟩ := Option.isSome_iff_exists.mp read
    refine ⟨rfl, Option.isSome_iff_exists.mpr ⟨UInt8.ofNat digit, ?_⟩⟩
    exact fromHexPair_eq_some_iff.mpr (.inr ⟨rfl, digit, lower, rfl⟩)

/-- Only text is read behind a percent sign, and it stands for a byte of ASCII if signed. -/
theorem fromUtf8_pair {high low : UInt8} (upper : high.toNat < 128) (lower : low.toNat < 128) :
    fromUtf8 [high, low] ≠ none := by
  refine Utf8.fromUTF8?_ne_none_iff.mpr ?_
  refine ⟨[Char.ofNat high.toNat, Char.ofNat low.toNat], ?_⟩
  rw [Utf8.encode_cons, Utf8.encode_cons, Utf8.utf8EncodeChar_byte upper,
    Utf8.utf8EncodeChar_byte lower]
  rfl

theorem fromHexPair_ascii {high low decoded : UInt8} (found : fromHexPair high low = some decoded) :
    high.toNat < 128 ∧ low.toNat < 128 := by
  rcases fromHexPair_eq_some_iff.mp found with pair | ⟨rfl, digit, lower, -⟩
  · obtain ⟨first, second, upper, lower, -⟩ := hexPair_eq_some pair
    exact ⟨(digitValue_bounds upper).1, (digitValue_bounds lower).1⟩
  · exact ⟨by decide, (digitValue_bounds lower).1⟩

theorem percentDecodeBytes_of_plain {byte : UInt8} {rest : List UInt8}
    (plain : byte ≠ 37 ∨ rest.length < 2) :
    percentDecodeBytes (byte :: rest) = (percentDecodeBytes rest).map (byte :: ·) := by
  match rest with
  | [] => rfl
  | [_] => rfl
  | high :: low :: rest =>
      rcases plain with differs | short
      · rw [percentDecodeBytes, if_neg differs]
      · simp only [List.length_cons] at short
        omega

/-- The code gives up at a pair that is no text, and else decodes what it reads. -/
theorem percentDecodeBytes_spec (bytes : List UInt8) :
    (HasEscape Undecodable bytes → percentDecodeBytes bytes = none) ∧
      (¬ HasEscape Undecodable bytes →
        percentDecodeBytes bytes = some (unescape fromHexPair bytes)) := by
  induction bytes using escapeInduction fromHexPair with
  | nil => exact ⟨fun has => absurd has (not_hasEscape_short (by decide)), fun _ => rfl⟩
  | escape high low decoded rest found ih =>
      obtain ⟨upper, lower⟩ := fromHexPair_ascii found
      have text := fromUtf8_pair upper lower
      have code : percentDecodeBytes (37 :: high :: low :: rest) =
          (percentDecodeBytes rest).map (decoded :: ·) := by
        rw [percentDecodeBytes, if_pos rfl, if_neg (by simpa using text), found]
      have has : HasEscape Undecodable (37 :: high :: low :: rest) ↔
          HasEscape Undecodable rest := by
        rw [hasEscape_cons, hasEscape_cons_cons (fromHexPair_extends.plain high low decoded found)]
        exact or_iff_right fun here => text here.2
      rw [has, code, unescape_of_some found]
      exact ⟨fun later => by rw [ih.1 later]; rfl, fun later => by rw [ih.2 later]; rfl⟩
  | other high low rest missed ih =>
      rw [hasEscape_cons, unescape_of_none missed]
      by_cases text : fromUtf8 [high, low] = none
      · have stops : percentDecodeBytes (37 :: high :: low :: rest) = none := by
          rw [percentDecodeBytes, if_pos rfl, if_pos (by simpa using text)]
        exact ⟨fun _ => stops, fun has => absurd (.inl ⟨rfl, text⟩) has⟩
      · have code : percentDecodeBytes (37 :: high :: low :: rest) =
            (percentDecodeBytes (high :: low :: rest)).map (37 :: ·) := by
          rw [percentDecodeBytes, if_pos rfl, if_neg (by simpa using text), missed]
        have has : ((37 : UInt8) = 37 ∧ Undecodable high low) ∨
            HasEscape Undecodable (high :: low :: rest) ↔
              HasEscape Undecodable (high :: low :: rest) :=
          or_iff_right fun here => text here.2
        rw [has, code]
        exact ⟨fun later => by rw [ih.1 later]; rfl, fun later => by rw [ih.2 later]; rfl⟩
  | plain byte rest copied ih =>
      rw [hasEscape_of_plain copied, percentDecodeBytes_of_plain copied,
        unescape_cons_of_plain copied]
      exact ⟨fun later => by rw [ih.1 later]; rfl, fun later => by rw [ih.2 later]; rfl⟩

theorem fromUtf8_eq_some_iff {bytes : List UInt8} {text : String} :
    fromUtf8 bytes = some text ↔ utf8Bytes text = bytes := Utf8.fromUTF8?_eq_some_iff

theorem utf8Bytes_injective : Function.Injective utf8Bytes := Utf8.encode_injective

/-- Without a percent sign the decoder of bytes would change nothing either. -/
theorem extracted_eq (value : String) :
    extracted value = ((percentDecodeBytes (utf8Bytes value)).bind fromUtf8).getD value := by
  unfold extracted percentDecode
  split
  next => rfl
  next absent =>
    have plain : ∀ kind, ¬ HasEscape kind (utf8Bytes value) := by
      rintro kind ⟨before, high, low, after, split, -⟩
      have sign : (37 : UInt8) ∈ utf8Bytes value := by simp [split]
      obtain ⟨char, member, coded⟩ := List.mem_flatMap.mp sign
      refine @Utf8.ne_of_mem_utf8EncodeChar char '%' (by decide) ?_ _ coded rfl
      rintro rfl
      exact absent member
    have same : unescape fromHexPair (utf8Bytes value) = utf8Bytes value :=
      (unescape_eq_self_iff fromHexPair_extends.plain).mpr (plain _)
    rw [(percentDecodeBytes_spec _).2 (plain _), same, Option.bind_some,
      fromUtf8_eq_some_iff.mpr rfl]
    rfl

theorem extracted_of_stopped {value : String} (stopped : HasEscape Undecodable (utf8Bytes value)) :
    extracted value = value := by
  rw [extracted_eq, (percentDecodeBytes_spec _).1 stopped]
  rfl

theorem extracted_of_open {value : String} (clear : ¬ HasEscape Undecodable (utf8Bytes value)) :
    extracted value = (fromUtf8 (unescape fromHexPair (utf8Bytes value))).getD value := by
  rw [extracted_eq, (percentDecodeBytes_spec _).2 clear, Option.bind_some]

theorem fromUtf8_eq_none_iff {bytes : List UInt8} :
    fromUtf8 bytes = none ↔ ¬ Utf8.IsText bytes := by
  rw [← Utf8.fromUTF8?_ne_none_iff, not_not]
  rfl

/-- The signs do not decide whether the decoded bytes are a text. -/
theorem fromUtf8_unescape_eq_none_iff (bytes : List UInt8) :
    fromUtf8 (unescape fromHexPair bytes) = none ↔ fromUtf8 (unescape hexPair bytes) = none := by
  rw [fromUtf8_eq_none_iff, fromUtf8_eq_none_iff]
  refine not_congr (isText_unescape_iff fromHexPair_extends ?_ ?_ [])
  · exact fun high low decoded found => fromHexPair_ascii found
  · intro high low decoded missed found
    rcases fromHexPair_eq_some_iff.mp found with pair | ⟨-, digit, lower, rfl⟩
    · exact nomatch missed.symm.trans pair
    · have below := (digitValue_bounds lower).2.2.2
      rw [UInt8.toNat_ofNat']
      omega

/-- The decoded bytes are what is extracted if the value is readable, and only then. -/
theorem utf8Bytes_extracted_iff (value : String) :
    utf8Bytes (extracted value) = decodedBytes value ↔ Readable value := by
  have plain : decodedBytes value = utf8Bytes value ↔ ¬ HasEscape IsEscape (utf8Bytes value) :=
    unescape_eq_self_iff hexPair_plain
  unfold Readable
  cases text : fromUtf8 (decodedBytes value) with
  | none =>
      have other : ∀ own : String, utf8Bytes own ≠ decodedBytes value := by
        intro own same
        rw [fromUtf8_eq_some_iff.mpr same] at text
        cases text
      refine iff_of_false (other _) ?_
      rintro (⟨-, unescaped⟩ | ⟨-, -, decoded⟩)
      · exact other value (plain.mpr unescaped).symm
      · exact decoded rfl
  | some decoded =>
      have bytes := fromUtf8_eq_some_iff.mp text
      rw [← bytes, utf8Bytes_injective.eq_iff]
      by_cases stopped : HasEscape Undecodable (utf8Bytes value)
      · rw [extracted_of_stopped stopped, ← plain, ← bytes]
        simp only [stopped, true_and, not_true, false_and, or_false]
        exact ⟨fun same => same ▸ rfl, fun same => (utf8Bytes_injective same).symm⟩
      · rw [extracted_of_open stopped]
        simp only [stopped, false_and, not_false_eq_true, true_and, false_or, ne_eq, reduceCtorEq,
          and_true]
        by_cases signed : HasEscape IsSigned (utf8Bytes value)
        · refine iff_of_false (fun same => ?_) fun clear => clear signed
          have shorter := length_unescape_extends_lt fromHexPair_extends
            (signed.imp fun high low => extra_iff.mpr)
          obtain ⟨other, found⟩ := Option.ne_none_iff_exists'.mp fun none =>
            absurd ((fromUtf8_unescape_eq_none_iff _).mp none) (by
              rw [← decodedBytes, text]
              simp)
          rw [found, Option.getD_some] at same
          rw [← fromUtf8_eq_some_iff.mp found, ← decodedBytes, ← bytes, same] at shorter
          exact Nat.lt_irrefl _ shorter
        · refine iff_of_true ?_ signed
          rw [unescape_eq_of_extends fromHexPair_extends fun has =>
            signed (has.imp fun high low => extra_iff.mp), ← decodedBytes, text]
          rfl

/-- What was encoded is read back. -/
theorem extracted_encode (text : String) : extracted (Percent.encode text) = text := by
  have escaped : Escaped (utf8Bytes (Percent.encode text)) (utf8Bytes text) := escaped_encode text
  have clear : ¬ HasEscape Undecodable (utf8Bytes (Percent.encode text)) := by
    intro has
    obtain ⟨high, low, undecodable, read⟩ := escaped.exists_of_hasEscape has
    obtain ⟨decoded, pair⟩ := Option.isSome_iff_exists.mp read
    obtain ⟨upper, lower⟩ := fromHexPair_ascii (fromHexPair_extends.kept high low decoded pair)
    exact fromUtf8_pair upper lower undecodable
  rw [extracted_of_open clear, escaped.unescape_eq fromHexPair_extends.kept,
    fromUtf8_eq_some_iff.mpr rfl]
  rfl

/-- The value of a parameter that stands alone in its query. -/
theorem queryParam_single {name value : String} (joined : '&' ∉ name.toList)
    (undivided : '=' ∉ name.toList) (whole : '&' ∉ value.toList) :
    queryParam (some (name ++ "=" ++ value)) name =
      if extracted value = "" then none else some (extracted value) := by
  have pieces : Text.pieces '&' (name ++ "=" ++ value) = [name ++ "=" ++ value] :=
    Text.pieces_undivided (by simp [joined, whole])
  have split : Text.splitOnce '=' (name ++ "=" ++ value) = some (name, value) :=
    Text.splitOnce_append undivided value
  rw [queryParam, Option.bind_some, pieces, List.findSome?_singleton, split]
  change (if name = name ∧ extracted value ≠ "" then some (extracted value) else none) = _
  by_cases empty : extracted value = ""
  · rw [if_neg (by simp [empty]), if_pos empty]
  · rw [if_pos ⟨rfl, empty⟩, if_neg empty]

/--
What a client encodes is read back, and the bytes of a value are decoded exactly
if it is readable.  So readable values of one session decode to the same bytes.
-/
theorem query_value_decoded {name : String} (joined : '&' ∉ name.toList)
    (undivided : '=' ∉ name.toList) (value : String) :
    (value ≠ "" → queryParam (some (name ++ "=" ++ Percent.encode value)) name = some value) ∧
    (utf8Bytes (extracted value) = decodedBytes value ↔ Readable value) ∧
    ∀ other session : String, '&' ∉ value.toList → '&' ∉ other.toList →
      Readable value → Readable other →
        queryParam (some (name ++ "=" ++ value)) name = some session →
          queryParam (some (name ++ "=" ++ other)) name = some session →
            decodedBytes value = decodedBytes other := by
  refine ⟨?_, utf8Bytes_extracted_iff value, ?_⟩
  · intro nonempty
    have whole : '&' ∉ (Percent.encode value).toList := by
      intro member
      rcases Percent.mem_encode member with unreserved | sign
      · exact absurd unreserved (by decide)
      · exact absurd sign (by decide)
    rw [queryParam_single joined undivided whole, extracted_encode, if_neg nonempty]
  · intro other session whole also readable again named renamed
    have read : ∀ {raw : String}, '&' ∉ raw.toList →
        queryParam (some (name ++ "=" ++ raw)) name = some session → extracted raw = session := by
      intro raw whole named
      rw [queryParam_single joined undivided whole] at named
      split at named
      · cases named
      · exact Option.some.inj named
    calc
      decodedBytes value = utf8Bytes (extracted value) :=
        ((utf8Bytes_extracted_iff value).mpr readable).symm
      _ = utf8Bytes (extracted other) := by rw [read whole named, read also renamed]
      _ = decodedBytes other := (utf8Bytes_extracted_iff other).mpr again

theorem spacedSession_read :
    queryParam (some "session=room%20%C3%A9") "session" = some "room é" :=
  (@query_value_decoded "session" (by decide) (by decide) "room é").1 (by decide)

/--
A percent sign in front of a sign and a digit is replaced, as an escape with a
zero is.  A value of no text names the session that an escaped percent sign does.
-/
theorem signedEscape_replaced :
    (queryParam (some "session=%+5") "session" = some "\x05" ∧
      queryParam (some "session=%05") "session" = some "\x05" ∧
      decodedBytes "%+5" = utf8Bytes "%+5" ∧ decodedBytes "%05" = [5] ∧
      utf8Bytes (extracted "%+5") ≠ decodedBytes "%+5") ∧
    queryParam (some "session=%FF") "session" = some "%FF" ∧
      queryParam (some "session=%25FF") "session" = some "%FF" ∧
      decodedBytes "%FF" = [255] ∧ decodedBytes "%25FF" = utf8Bytes "%FF" := by
  decide

end SpecMock.Runtime
