import Mathlib.Data.BitVec
import SpecMock.Library.Numerals
import SpecMock.Library.Utf8
import SpecMock.Runtime.Handler

/-!
# Seeds of short texts

The hash of a text is the value of its bytes in base 131, modulo `2 ^ 64`, under
the seed of the server.  The base is odd, so one changed byte always changes the
hash; and nine bytes of ASCII make a number below the modulus, so that short
texts have seeds of their own.
-/

namespace SpecMock.Runtime

open SpecMock.Library SpecMock.Core

def byteDigit (byte : UInt8) : BitVec 64 := BitVec.ofNat 64 byte.toNat

/-- The hash of bytes under a seed. -/
def hashBytes (seed : BitVec 64) (bytes : List UInt8) : BitVec 64 :=
  seed ^^^ Numerals.value 131#64 byteDigit 0#64 bytes

theorem deterministicHash_eq (seed : BitVec 64) (input : String) :
    deterministicHash seed input = hashBytes seed (Utf8.encode input.toList) := rfl

/-- Strings of one length that differ in one position. -/
def DifferOnce (first second : List UInt8) : Prop :=
  ∃ before old new after, first = before ++ old :: after ∧ second = before ++ new :: after ∧
    old ≠ new

theorem isUnit_base : IsUnit (131#64) := .of_mul_eq_one 281629680514649643#64 (by decide)

theorem byteDigit_injective : Function.Injective byteDigit := by
  intro first second same
  have numbers := congrArg BitVec.toNat same
  have below := first.toNat_lt
  have small := second.toNat_lt
  simp only [byteDigit, BitVec.toNat_ofNat] at numbers
  exact UInt8.toNat_inj.mp (by omega)

theorem hashBytes_differOnce {seed : BitVec 64} {first second : List UInt8}
    (differ : DifferOnce first second) : hashBytes seed first ≠ hashBytes seed second := by
  obtain ⟨before, old, new, after, rfl, rfl, apart⟩ := differ
  intro same
  have values := (BitVec.xor_right_inj seed).mp same
  exact apart (byteDigit_injective ((Numerals.value_digit_inj isUnit_base _ _ _).mp values))

/-- At most nine bytes of ASCII without NUL. -/
structure ShortText (text : String) : Prop where
  ascii : ∀ char ∈ text.toList, 0 < char.toNat ∧ char.toNat < 128
  short : (Utf8.encode text.toList).length ≤ 9

theorem ShortText.bytes {text : String} (short : ShortText text) :
    ∀ byte ∈ Utf8.encode text.toList, 0 < byte.toNat ∧ byte.toNat < 131 := by
  intro byte member
  obtain ⟨char, listed, coded⟩ := List.mem_flatMap.mp member
  obtain ⟨positive, ascii⟩ := short.ascii char listed
  rw [Utf8.utf8EncodeChar_of_ascii ascii, List.mem_singleton] at coded
  rw [coded, UInt8.toNat_ofNat']
  omega

/-- The hash is the number that the bytes make, reduced to sixty-four bits. -/
theorem hashBytes_eq_ofNat (seed : BitVec 64) (bytes : List UInt8) :
    hashBytes seed bytes =
      seed ^^^ BitVec.ofNat 64 (Numerals.value 131 UInt8.toNat 0 bytes) := by
  have reduced := Numerals.natCast_value (R := BitVec 64) 131 0 UInt8.toNat bytes
  exact congrArg (seed ^^^ ·) reduced.symm

theorem deterministicHash_injOn (seed : BitVec 64) :
    Set.InjOn (deterministicHash seed) {text | ShortText text} := by
  intro first short second brief same
  rw [deterministicHash_eq, deterministicHash_eq, hashBytes_eq_ofNat, hashBytes_eq_ofNat,
    BitVec.xor_right_inj] at same
  have below : ∀ {text : String}, ShortText text →
      Numerals.value 131 UInt8.toNat 0 (Utf8.encode text.toList) < 2 ^ 64 := by
    intro text short
    calc
      _ < 131 ^ (Utf8.encode text.toList).length :=
        Numerals.value_lt (by decide) fun byte member => (short.bytes byte member).2
      _ ≤ 131 ^ 9 := Nat.pow_le_pow_right (by decide) short.short
      _ < 2 ^ 64 := by decide
  have numbers := congrArg BitVec.toNat same
  rw [BitVec.toNat_ofNat, BitVec.toNat_ofNat, Nat.mod_eq_of_lt (below short),
    Nat.mod_eq_of_lt (below brief)] at numbers
  refine Utf8.encode_injective (Numerals.eq_of_value_eq (by decide) ?_ short.bytes brief.bytes
    numbers)
  exact fun _ _ => UInt8.toNat_inj.mp

/--
Byte strings that differ in one position have different hashes, and so have short
texts; so a server has different seeds for the short paths of a method.
-/
theorem generationSeeds_apart (seed : BitVec 64) :
    (∀ first second, DifferOnce first second → hashBytes seed first ≠ hashBytes seed second) ∧
    (∀ input, deterministicHash seed input = hashBytes seed (Utf8.encode input.toList)) ∧
    Set.InjOn (deterministicHash seed) {text | ShortText text} ∧
    ∀ openapi method path other, ShortText (method ++ path) → ShortText (method ++ other) →
      HttpServer.seedOf ⟨seed, openapi⟩ method path =
        HttpServer.seedOf ⟨seed, openapi⟩ method other → path = other := by
  refine ⟨fun first second => hashBytes_differOnce, deterministicHash_eq seed,
    deterministicHash_injOn seed, ?_⟩
  intro openapi method path other short brief same
  exact (String.append_right_inj method).mp (deterministicHash_injOn seed short brief same)

end SpecMock.Runtime
