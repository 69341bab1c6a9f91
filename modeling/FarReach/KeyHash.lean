import FarReach.Key
import FarReach.CrcShift

namespace FarReach

open CrcShift

def crc32Poly : BitVec 32 := 0xEDB88320#32

theorem crc32Bit_toBitVec (crc : UInt32) : (crc32Bit crc).toBitVec = shift crc32Poly crc.toBitVec := by
  have low : crc.toBitVec &&& 1#32 = BitVec.setWidth 32 (BitVec.ofBool (crc.toBitVec.getLsbD 0)) :=
    BitVec.and_one_eq_setWidth_ofBool_getLsbD
  unfold crc32Bit shift crc32Poly
  simp only [UInt32.toBitVec_xor, UInt32.toBitVec_and, UInt32.toBitVec_sub, UInt32.toBitVec_shiftRight,
    UInt32.toBitVec_ofNat]
  rw [low]
  cases crc.toBitVec.getLsbD 0 <;> simp

theorem crc32Byte_toBitVec (crc : UInt32) (byte : UInt8) :
    (crc32Byte crc byte).toBitVec = (shift crc32Poly)^[8] (crc.toBitVec ^^^ byte.toBitVec.setWidth 32) := by
  have steps : ∀ (n : Nat) (crc : UInt32), ((List.range n).foldl (fun crc _ => crc32Bit crc) crc).toBitVec =
      (shift crc32Poly)^[n] crc.toBitVec := by
    intro n
    induction n with
    | zero => exact fun _ => rfl
    | succ n ih =>
      intro crc
      rw [List.range_succ, List.foldl_append, List.foldl_cons, List.foldl_nil, crc32Bit_toBitVec, ih,
        Function.iterate_succ_apply']
  unfold crc32Byte
  rw [steps]
  rfl

/-- A byte that follows some steps could have gone in before them. -/
theorem crc32Byte_absorbed {crc : UInt32} {state : BitVec 32} {n : Nat} (small : n ≤ 24)
    (stepped : crc.toBitVec = (shift crc32Poly)^[n] state) (byte : UInt8) :
    (crc32Byte crc byte).toBitVec = (shift crc32Poly)^[8 + n] (state ^^^ byte.toBitVec.setWidth 32 <<< n) := by
  have fits : (byte.toBitVec.setWidth 32).toNat * 2 ^ n < 2 ^ 32 := by
    have below : (byte.toBitVec.setWidth 32).toNat < 2 ^ 8 := by
      rw [BitVec.toNat_setWidth]
      have bound := byte.toBitVec.isLt
      omega
    calc (byte.toBitVec.setWidth 32).toNat * 2 ^ n < 2 ^ 8 * 2 ^ n := by gcongr
      _ ≤ 2 ^ 8 * 2 ^ 24 := by gcongr; omega
      _ = 2 ^ 32 := by norm_num
  rw [crc32Byte_toBitVec, stepped, iterate_shift_absorb _ _ _ fits, ← Function.iterate_add_apply]

def lowBytes (word : BitVec 32) : List UInt8 :=
  [⟨word.setWidth 8⟩, ⟨(word >>> 8).setWidth 8⟩, ⟨(word >>> 16).setWidth 8⟩, ⟨(word >>> 24).setWidth 8⟩]

theorem foldl_crc32Byte_lowBytes (crc : UInt32) (word : BitVec 32) :
    ((lowBytes word).foldl crc32Byte crc).toBitVec = (shift crc32Poly)^[32] (crc.toBitVec ^^^ word) := by
  have whole : crc.toBitVec ^^^ (word.setWidth 8).setWidth 32 <<< 0 ^^^ ((word >>> 8).setWidth 8).setWidth
      32 <<< 8 ^^^ ((word >>> 16).setWidth 8).setWidth 32 <<< 16 ^^^ ((word >>> 24).setWidth 8).setWidth 32 <<< 24 =
        crc.toBitVec ^^^ word := by
    ext i inside
    simp only [BitVec.getElem_xor, BitVec.getElem_shiftLeft, BitVec.getElem_setWidth, BitVec.getLsbD_setWidth,
      BitVec.getLsbD_ushiftRight]
    grind
  have first := crc32Byte_absorbed (by omega : 0 ≤ 24) (rfl : crc.toBitVec = (shift crc32Poly)^[0] crc.toBitVec)
    ⟨word.setWidth 8⟩
  have second := crc32Byte_absorbed (by omega) first ⟨(word >>> 8).setWidth 8⟩
  have third := crc32Byte_absorbed (by omega) second ⟨(word >>> 16).setWidth 8⟩
  have fourth := crc32Byte_absorbed (by omega) third ⟨(word >>> 24).setWidth 8⟩
  rw [← whole]
  exact fourth

/-- The word whose two halves, low half first and each with its high byte first, are the bytes of
`word` from the low end. -/
def swapBytes (word : BitVec 32) : UInt32 :=
  ⟨(word.setWidth 8).setWidth 32 <<< 8 ||| ((word >>> 8).setWidth 8).setWidth 32 |||
    ((word >>> 16).setWidth 8).setWidth 32 <<< 24 ||| ((word >>> 24).setWidth 8).setWidth 32 <<< 16⟩

theorem toUInt16_mask (word : UInt32) : (word &&& 0xFFFF).toUInt16 = word.toUInt16 := by
  have mask : word.toNat % 65536 &&& 65535 = word.toNat % 65536 % 2 ^ 16 := Nat.and_two_pow_sub_one_eq_mod _ 16
  apply UInt16.toNat_inj.mp
  simpa using mask

theorem serialize_swapBytes (word : BitVec 32) :
    Key.bytes16 (swapBytes word &&& 0xFFFF).toUInt16 ++ Key.bytes16 ((swapBytes word >>> 16) &&& 0xFFFF).toUInt16 =
      lowBytes word := by
  rw [toUInt16_mask, toUInt16_mask]
  unfold Key.bytes16 lowBytes swapBytes
  simp only [List.cons_append, List.nil_append, List.cons.injEq, and_true]
  refine ⟨?_, ?_, ?_, ?_⟩ <;> apply UInt8.toBitVec_inj.mp <;> ext i inside <;>
    simp [BitVec.getElem_setWidth, BitVec.getLsbD_setWidth] <;> grind

/-- Every CRC is the hash of a key. -/
theorem exists_hashBycrc32 (hash : UInt32) : ∃ key : Key, key.hashBycrc32 = hash := by
  have proper : crc32Poly.msb = true := by decide
  -- the state behind the first twelve bytes of a key whose low words are zero
  generalize reached : (Key.bytes32 0 ++ Key.bytes32 0 ++ Key.bytes32 0).foldl crc32Byte 0xFFFFFFFF = crc
  obtain ⟨state, steps⟩ := iterate_shift_surjective proper 32 (~~~ hash).toBitVec
  refine ⟨⟨0, 0, 0, swapBytes (crc.toBitVec ^^^ state)⟩, ?_⟩
  have final : ((lowBytes (crc.toBitVec ^^^ state)).foldl crc32Byte crc) = ~~~ hash := by
    apply UInt32.toBitVec_inj.mp
    rw [foldl_crc32Byte_lowBytes, ← BitVec.xor_assoc, BitVec.xor_self, BitVec.zero_xor, steps]
  unfold Key.hashBycrc32 crc32 Key.serialize
  dsimp only
  rw [List.append_assoc, serialize_swapBytes, List.foldl_append, reached, final, UInt32.not_not]

end FarReach
