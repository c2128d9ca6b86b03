import Mathlib.Algebra.Group.Nat.Defs
import Mathlib.Data.List.Induction
import Mathlib.Data.Nat.Init

/-!
# Lengths in front

A string of bytes that travels behind its length.  The length is written with
a fixed number of bytes, the most significant one first, so that a reader
knows where the string ends, whatever follows it.
-/

namespace SpecMock.Library.LengthPrefix

/-- The number that bytes write, the most significant byte first. -/
def read (bytes : List UInt8) : Nat :=
  bytes.foldl (fun number byte => number * 256 + byte.toNat) 0

/-- The low bytes of a number. -/
def write : Nat → Nat → List UInt8
  | 0, _ => []
  | width + 1, number => write width (number / 256) ++ [UInt8.ofNat number]

@[simp]
theorem read_nil : read [] = 0 := rfl

@[simp]
theorem read_append_singleton (bytes : List UInt8) (byte : UInt8) :
    read (bytes ++ [byte]) = read bytes * 256 + byte.toNat := by
  simp [read, List.foldl_append]

@[simp]
theorem length_write (width number : Nat) : (write width number).length = width := by
  induction width generalizing number with
  | zero => rfl
  | succ width ih => simp [write, ih]

theorem read_lt (bytes : List UInt8) : read bytes < 256 ^ bytes.length := by
  induction bytes using List.reverseRecOn with
  | nil => exact Nat.one_pos
  | append_singleton bytes byte ih =>
      have bounded := byte.toNat_lt
      rw [read_append_singleton, List.length_append, List.length_singleton, Nat.pow_succ]
      omega

/-- Bytes of a fixed width hold a number up to its high part. -/
theorem read_write (width number : Nat) : read (write width number) = number % 256 ^ width := by
  induction width generalizing number with
  | zero => simp [write, Nat.mod_one]
  | succ width ih =>
      rw [write, read_append_singleton, ih, Nat.pow_succ', Nat.mod_mul]
      simp only [UInt8.toNat_ofNat']
      omega

theorem write_read (bytes : List UInt8) : write bytes.length (read bytes) = bytes := by
  induction bytes using List.reverseRecOn with
  | nil => rfl
  | append_singleton bytes byte ih =>
      have bounded := byte.toNat_lt
      have high : (read bytes * 256 + byte.toNat) / 256 = read bytes := by omega
      have low : UInt8.ofNat (read bytes * 256 + byte.toNat) = byte := by
        apply UInt8.toNat_inj.mp
        simp only [UInt8.toNat_ofNat']
        omega
      rw [List.length_append, List.length_singleton, read_append_singleton, write, high, ih, low]

/-- The length modulo what the width holds, and the string. -/
def encode (width : Nat) (payload : List UInt8) : List UInt8 :=
  write width payload.length ++ payload

/-- The string in front, if the bytes hold as much as its length says. -/
def decode (width : Nat) (bytes : List UInt8) : Option (List UInt8) :=
  if bytes.length < width then none
  else if bytes.length < width + read (bytes.take width) then none
  else some ((bytes.drop width).take (read (bytes.take width)))

theorem decode_encode_append {width : Nat} {payload : List UInt8}
    (fits : payload.length < 256 ^ width) (rest : List UInt8) :
    decode width (encode width payload ++ rest) = some payload := by
  have front : (encode width payload ++ rest).take width = write width payload.length := by
    rw [encode, List.append_assoc, List.take_left' (length_write _ _)]
  have behind : (encode width payload ++ rest).drop width = payload ++ rest := by
    rw [encode, List.append_assoc, List.drop_left' (length_write _ _)]
  have length : (encode width payload ++ rest).length =
      width + payload.length + rest.length := by
    simp [encode, Nat.add_assoc]
  rw [decode, front, behind, length, read_write, Nat.mod_eq_of_lt fits,
    if_neg (by omega), if_neg (by omega), List.take_left' rfl]

/-- What is decoded stands in front as it is encoded. -/
theorem encode_of_decode {width : Nat} {bytes payload : List UInt8}
    (decoded : decode width bytes = some payload) :
    payload.length < 256 ^ width ∧ ∃ rest, bytes = encode width payload ++ rest := by
  unfold decode at decoded
  split at decoded
  next => cases decoded
  next long =>
    split at decoded
    next => cases decoded
    next enough =>
      have header : (bytes.take width).length = width := by
        rw [List.length_take]
        omega
      have length : payload.length = read (bytes.take width) := by
        rw [← Option.some.inj decoded, List.length_take, List.length_drop]
        omega
      have written : write width payload.length = bytes.take width := by
        have read := write_read (bytes.take width)
        rwa [header, ← length] at read
      have bounded := read_lt (bytes.take width)
      rw [header, ← length] at bounded
      have taken : (bytes.drop width).take payload.length = payload := by
        rw [length]
        exact Option.some.inj decoded
      refine ⟨bounded, (bytes.drop width).drop payload.length, ?_⟩
      calc
        bytes = bytes.take width ++ bytes.drop width := (List.take_append_drop _ _).symm
        _ = bytes.take width ++ ((bytes.drop width).take payload.length ++
            (bytes.drop width).drop payload.length) := by
          rw [List.take_append_drop payload.length]
        _ = encode width payload ++ (bytes.drop width).drop payload.length := by
          rw [taken, encode, written, List.append_assoc]

/-- A string is decoded from what begins with its encoding, and from nothing else. -/
theorem decode_eq_some_iff {width : Nat} {bytes payload : List UInt8} :
    decode width bytes = some payload ↔
      payload.length < 256 ^ width ∧ ∃ rest, bytes = encode width payload ++ rest := by
  refine ⟨encode_of_decode, ?_⟩
  rintro ⟨fits, rest, rfl⟩
  exact decode_encode_append fits rest

end SpecMock.Library.LengthPrefix
