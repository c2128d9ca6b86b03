import SpecMock.Runtime.Handler

/-!
# The WebSocket handshake

A client chooses the scenario and the session of its connection with query
parameters.  A connection without a session is given a key of its own, the next
one of a counter of 64 bits that wraps around.
-/

namespace SpecMock.Runtime

open SpecMock.Library SpecMock.Core

/-- The bytes of a text in UTF-8. -/
def utf8Bytes (text : String) : List UInt8 := text.toList.flatMap String.utf8EncodeChar

/-- The text with the given bytes, if they are UTF-8. -/
def fromUtf8 (bytes : List UInt8) : Option String := String.fromUTF8? ⟨bytes.toArray⟩

def hexValue (digit : UInt8) : Option Nat :=
  let code := digit.toNat
  if 48 ≤ code ∧ code ≤ 57 then some (code - 48)
  else if 65 ≤ code ∧ code ≤ 70 then some (code - 55)
  else if 97 ≤ code ∧ code ≤ 102 then some (code - 87)
  else none

/-- `u8::from_str_radix` of two characters: digits, or a plus sign and a digit. -/
def fromHexPair (high low : UInt8) : Option UInt8 :=
  if high = 43 then (hexValue low).map UInt8.ofNat
  else
    match hexValue high, hexValue low with
    | some first, some second => some (UInt8.ofNat (16 * first + second))
    | _, _ => none

/-- Decode escapes; a percent sign that starts none is kept, unless no text can follow it. -/
def percentDecodeBytes : List UInt8 → Option (List UInt8)
  | [] => some []
  | byte :: high :: low :: rest =>
      if byte = 37 then
        if (fromUtf8 [high, low]).isNone then none
        else
          match fromHexPair high low with
          | some decoded => (percentDecodeBytes rest).map (decoded :: ·)
          | none => (percentDecodeBytes (high :: low :: rest)).map (byte :: ·)
      else (percentDecodeBytes (high :: low :: rest)).map (byte :: ·)
  | byte :: rest => (percentDecodeBytes rest).map (byte :: ·)

/-- Minimal percent-decoding for a query value. -/
def percentDecode (value : String) : Option String :=
  if '%' ∈ value.toList then (percentDecodeBytes (utf8Bytes value)).bind fromUtf8 else none

/-- The first value of a name in a query that is not empty. -/
def queryParam (query : Option String) (name : String) : Option String :=
  query.bind fun query => (Text.pieces '&' query).findSome? fun pair =>
    match Text.splitOnce '=' pair with
    | none => none
    | some (key, raw) =>
        let value := (percentDecode raw).getD raw
        if key = name ∧ value ≠ "" then some value else none

example : queryParam (some "scenario=&session=a%2fb%+1%zz") "session" = some "a/b\x01%zz" := by
  decide

/-- The key minted at a value of the counter. -/
def mintedKey (index : BitVec 64) : String := "ws-" ++ toString index.toNat

/-- The key for a connection without a session, and the counter after it. -/
def freshWsSession (wsSessions : BitVec 64) : String × BitVec 64 :=
  (mintedKey wsSessions, wsSessions + 1)

/-- Different values of the counter give different keys. -/
theorem mintedKey_injective : Function.Injective mintedKey := by
  intro first second same
  have digits : toString first.toNat = toString second.toNat := by
    have chars := congrArg String.toList same
    rw [mintedKey, mintedKey, String.toList_append, String.toList_append] at chars
    exact String.toList_inj.mp (List.append_cancel_left chars)
  exact BitVec.eq_of_toNat_eq (Text.toString_injective digits)

/-- The key of requests that name no session is never minted. -/
theorem mintedKey_ne_defaultSession (index : BitVec 64) : mintedKey index ≠ defaultSession := by
  intro same
  have first := congrArg (fun key : String => key.toList.head?) same
  simp [mintedKey, defaultSession] at first

/-- The keys minted by the first connections of a server. -/
def mintedKeys (count : Nat) : List String :=
  (List.range count).map fun index => mintedKey (BitVec.ofNat 64 index)

theorem mintedKeys_succ (count : Nat) :
    mintedKeys (count + 1) = mintedKeys count ++ [mintedKey (BitVec.ofNat 64 count)] := by
  simp [mintedKeys, List.range_succ]

/-- No key is minted twice until the counter wraps around. -/
theorem nodup_mintedKeys_iff {count : Nat} : (mintedKeys count).Nodup ↔ count ≤ 2 ^ 64 := by
  constructor
  · intro distinct
    by_contra exceeded
    have wrapped := List.inj_on_of_nodup_map distinct (x := 0) (y := 2 ^ 64)
      (List.mem_range.mpr (by omega)) (List.mem_range.mpr (by omega)) (by rfl)
    omega
  · intro within
    refine List.Nodup.map_on ?_ List.nodup_range
    intro first firstRange second secondRange same
    have values := congrArg BitVec.toNat (mintedKey_injective same)
    have bounds := And.intro (List.mem_range.mp firstRange) (List.mem_range.mp secondRange)
    simp only [BitVec.toNat_ofNat] at values
    omega

/-- Below `2 ^ 64` connections, the keys count up from zero. -/
theorem mem_mintedKeys {count : Nat} (within : count ≤ 2 ^ 64) {key : String} :
    key ∈ mintedKeys count ↔ ∃ index < count, key = "ws-" ++ toString index := by
  have plain : ∀ index < count, mintedKey (BitVec.ofNat 64 index) = "ws-" ++ toString index := by
    intro index below
    rw [mintedKey, BitVec.toNat_ofNat, Nat.mod_eq_of_lt (by omega)]
  constructor
  · intro member
    obtain ⟨index, range, rfl⟩ := List.mem_map.mp member
    exact ⟨index, List.mem_range.mp range, plain index (List.mem_range.mp range)⟩
  · rintro ⟨index, below, rfl⟩
    exact List.mem_map.mpr ⟨index, List.mem_range.mpr below, plain index below⟩

end SpecMock.Runtime
