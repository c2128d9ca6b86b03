import SpecMock.Library.LengthPrefix
import SpecMock.Runtime.GrpcCall

/-!
# gRPC frames

A frame is a flag and a message behind its length.  Its length has four bytes,
so every message below `2 ^ 32` bytes comes back from its frame, and a frame is
accepted only for the message that it holds.
-/

namespace SpecMock.Runtime

open SpecMock.Library

theorem bigEndian_eq_read (first second third fourth : UInt8) :
    bigEndian first second third fourth = LengthPrefix.read [first, second, third, fourth] := by
  simp [bigEndian, LengthPrefix.read]

theorem encodeGrpcUnaryFrame_eq (payload : List UInt8) :
    encodeGrpcUnaryFrame payload = 0 :: LengthPrefix.encode 4 payload := by
  simp [encodeGrpcUnaryFrame, LengthPrefix.encode, LengthPrefix.write, Nat.div_div_eq_div_mul]

/-- A string behind a length of four bytes. -/
theorem decode_four (first second third fourth : UInt8) (rest : List UInt8) :
    LengthPrefix.decode 4 (first :: second :: third :: fourth :: rest) =
      if rest.length < bigEndian first second third fourth then none
      else some (rest.take (bigEndian first second third fourth)) := by
  rw [bigEndian_eq_read, LengthPrefix.decode, if_neg (by simp)]
  refine if_congr ?_ rfl rfl
  simp only [List.length_cons, List.take_succ_cons, List.take_zero]
  omega

/-- Behind a flag of zero, a frame is a string behind its length. -/
theorem decodeGrpcUnaryFrame_eq_ok_iff {bytes payload : List UInt8} :
    decodeGrpcUnaryFrame bytes = .ok payload ↔
      ∃ behind, bytes = 0 :: behind ∧ LengthPrefix.decode 4 behind = some payload := by
  unfold decodeGrpcUnaryFrame
  split
  next flag first second third fourth rest =>
    by_cases plain : flag = 0
    · subst plain
      simp only [ne_eq, not_true_eq_false, if_false, List.cons.injEq, true_and, exists_eq_left',
        decode_four]
      split <;> simp
    · simp [plain]
  next short =>
    refine iff_of_false (by simp) ?_
    rintro ⟨behind, rfl, decoded⟩
    match behind with
    | first :: second :: third :: fourth :: rest => exact short _ _ _ _ _ _ rfl
    | [] | [_] | [_, _] | [_, _, _] => simp [LengthPrefix.decode] at decoded

/-- A message is decoded from what begins with its frame, and from nothing else. -/
theorem decodeGrpcUnaryFrame_eq_ok_iff_frame {bytes payload : List UInt8} :
    decodeGrpcUnaryFrame bytes = .ok payload ↔
      payload.length < 2 ^ 32 ∧ ∃ rest, bytes = encodeGrpcUnaryFrame payload ++ rest := by
  rw [decodeGrpcUnaryFrame_eq_ok_iff]
  constructor
  · rintro ⟨behind, rfl, held⟩
    obtain ⟨fits, rest, rfl⟩ := LengthPrefix.decode_eq_some_iff.mp held
    exact ⟨fits, rest, by rw [encodeGrpcUnaryFrame_eq, List.cons_append]⟩
  · rintro ⟨fits, rest, rfl⟩
    refine ⟨LengthPrefix.encode 4 payload ++ rest, ?_, ?_⟩
    · rw [encodeGrpcUnaryFrame_eq, List.cons_append]
    · exact LengthPrefix.decode_eq_some_iff.mpr ⟨fits, rest, rfl⟩

/-- The bytes end before their header or before the message that it announces. -/
def TruncatedFrame (bytes : List UInt8) : Prop :=
  bytes.length < 5 ∨ bytes.length < 5 + LengthPrefix.read ((bytes.drop 1).take 4)

/-- The flag in front is not zero. -/
def CompressedFrame (bytes : List UInt8) : Prop := ∃ flag rest, bytes = flag :: rest ∧ flag ≠ 0

/-- What is truncated or compressed is refused, and nothing else. -/
theorem decodeGrpcUnaryFrame_error_iff {bytes : List UInt8} :
    (∃ message, decodeGrpcUnaryFrame bytes = .error message) ↔
      TruncatedFrame bytes ∨ CompressedFrame bytes := by
  unfold decodeGrpcUnaryFrame
  split
  next flag first second third fourth rest =>
    have truncated : TruncatedFrame (flag :: first :: second :: third :: fourth :: rest) ↔
        rest.length < bigEndian first second third fourth := by
      simp only [TruncatedFrame, bigEndian_eq_read, List.length_cons, List.drop_succ_cons,
        List.drop_zero, List.take_succ_cons, List.take_zero]
      omega
    have compressed : CompressedFrame (flag :: first :: second :: third :: fourth :: rest) ↔
        flag ≠ 0 := by simp [CompressedFrame]
    rw [truncated, compressed]
    by_cases plain : flag = 0
    · by_cases longer : rest.length < bigEndian first second third fourth
      · simp [plain, longer]
      · simp [plain, longer]
    · simp [plain]
  next short =>
    refine iff_of_true ⟨_, rfl⟩ (.inl (.inl ?_))
    match bytes with
    | flag :: first :: second :: third :: fourth :: rest => exact absurd rfl (short _ _ _ _ _ _)
    | [] | [_] | [_, _] | [_, _, _] | [_, _, _, _] => simp

/--
A message below `2 ^ 32` bytes comes back from its frame, whatever follows it.
Bytes are accepted for the message they begin with the frame of, and are
refused when they are truncated or compressed.
-/
theorem grpcFrames_roundTrip :
    (∀ payload : List UInt8, payload.length < 2 ^ 32 → ∀ suffix,
      decodeGrpcUnaryFrame (encodeGrpcUnaryFrame payload ++ suffix) = .ok payload) ∧
    (∀ bytes payload, payload.length < 2 ^ 32 →
      (decodeGrpcUnaryFrame bytes = .ok payload ↔
        ∃ rest, bytes = encodeGrpcUnaryFrame payload ++ rest)) ∧
    (∀ bytes payload, decodeGrpcUnaryFrame bytes = .ok payload →
      payload.length < 2 ^ 32 ∧ ∃ rest, bytes = encodeGrpcUnaryFrame payload ++ rest) ∧
    ∀ bytes, (∃ message, decodeGrpcUnaryFrame bytes = .error message) ↔
      TruncatedFrame bytes ∨ CompressedFrame bytes := by
  refine ⟨?_, ?_, ?_, fun bytes => decodeGrpcUnaryFrame_error_iff⟩
  · intro payload fits suffix
    exact decodeGrpcUnaryFrame_eq_ok_iff_frame.mpr ⟨fits, suffix, rfl⟩
  · intro bytes payload fits
    rw [decodeGrpcUnaryFrame_eq_ok_iff_frame]
    exact and_iff_right fits
  · exact fun bytes payload => decodeGrpcUnaryFrame_eq_ok_iff_frame.mp

/-- A message of three bytes comes back from its frame. -/
theorem threeBytes_roundTrip :
    decodeGrpcUnaryFrame (encodeGrpcUnaryFrame [10, 1, 97] ++ [0]) = .ok [10, 1, 97] :=
  grpcFrames_roundTrip.1 [10, 1, 97] (by decide) [0]

end SpecMock.Runtime
