import FarReach.Key
import FarReach.KvStore
import FarReach.DynamicArray

namespace FarReach

open Bytes DynamicArray

namespace Key

theorem bytes32_eq (word : UInt32) : bytes32 word = bigEndian 4 word.toNat := by
  simp only [bytes32, bigEndian, littleEndian, List.reverse_cons, List.reverse_nil, List.nil_append,
    List.cons_append, List.cons.injEq, and_true]
  refine ⟨?_, ?_, ?_, ?_⟩ <;> refine UInt8.toNat_inj.mp ?_ <;> simp [Nat.shiftRight_eq_div_pow] <;> omega

theorem bytes16_eq (half : UInt16) : bytes16 half = bigEndian 2 half.toNat := by
  simp only [bytes16, bigEndian, littleEndian, List.reverse_cons, List.reverse_nil, List.nil_append,
    List.cons_append, List.cons.injEq, and_true]
  refine ⟨?_, ?_⟩ <;> refine UInt8.toNat_inj.mp ?_ <;> simp [Nat.shiftRight_eq_div_pow]

@[simp] theorem length_bytes32 (word : UInt32) : (bytes32 word).length = 4 := rfl

@[simp] theorem length_bytes16 (half : UInt16) : (bytes16 half).length = 2 := rfl

@[simp] theorem length_serialize (key : Key) : key.serialize.length = 16 := rfl

/-- `Key::dynamic_serialize`: the parts of `serialize`, copied one by one. -/
def dynamicSerialize (key : Key) (buf : DynamicArray) (offset : Nat) : Option (DynamicArray × Nat) := do
  let buf ← buf.dynamicMemcpy offset (bytes32 key.keylolo)
  let buf ← buf.dynamicMemcpy (offset + 4) (bytes32 key.keylohi)
  let buf ← buf.dynamicMemcpy (offset + 8) (bytes32 key.keyhilo)
  let buf ← buf.dynamicMemcpy (offset + 12) (bytes16 (key.keyhihi &&& 0xFFFF).toUInt16)
  let buf ← buf.dynamicMemcpy (offset + 14) (bytes16 ((key.keyhihi >>> 16) &&& 0xFFFF).toUInt16)
  some (buf, 16)

theorem writes_dynamicSerialize (key : Key) (buf : DynamicArray) (offset : Nat) :
    Writes buf offset key.serialize (key.dynamicSerialize buf offset) (·, 16) := by
  unfold serialize dynamicSerialize
  simp only [List.append_assoc]
  refine (writes_dynamicMemcpy _ _ _).bind fun _ _ => ?_
  refine (writes_dynamicMemcpy _ _ _).bind fun _ _ => ?_
  refine (writes_dynamicMemcpy _ _ _).bind fun _ _ => ?_
  refine (writes_dynamicMemcpy _ _ _).bind fun _ _ => ?_
  exact (writes_dynamicMemcpy _ _ _).finish (·, 16)

/-- `Key::deserialize` of the bytes at `off`; `INVARIANT` aborts on a short buffer. -/
def deserialize (array : List UInt8) (off buflen : Nat) : Option (Key × Nat) := do
  guard (16 ≤ buflen)
  let keylolo ← readAt array off 4
  let keylohi ← readAt array (off + 4) 4
  let keyhilo ← readAt array (off + 8) 4
  let keyhihilo ← readAt array (off + 12) 2
  let keyhihihi ← readAt array (off + 14) 2
  let keyhihi := (ofBigEndian keyhihihi).toUInt32 <<< 16 ||| (ofBigEndian keyhihilo).toUInt32
  some (⟨(ofBigEndian keylolo).toUInt32, (ofBigEndian keylohi).toUInt32, (ofBigEndian keyhilo).toUInt32, keyhihi⟩, 16)

theorem ofBigEndian_bytes32 (word : UInt32) : (ofBigEndian (bytes32 word)).toUInt32 = word := by
  rw [bytes32_eq, ofBigEndian_bigEndian word.toNat_lt]
  simp

theorem ofBigEndian_bytes16 (half : UInt16) : ofBigEndian (bytes16 half) = half.toNat := by
  rw [bytes16_eq, ofBigEndian_bigEndian half.toNat_lt]

theorem join_halves (word : UInt32) :
    ((word >>> 16) &&& 0xFFFF).toUInt16.toNat.toUInt32 <<< 16 ||| (word &&& 0xFFFF).toUInt16.toNat.toUInt32 =
      word := by
  have bound := word.toNat_lt
  have mask : ∀ n : Nat, n &&& 65535 = n % 65536 := fun n => Nat.and_two_pow_sub_one_eq_mod n 16
  have low : word.toNat % 65536 % 4294967296 < 2 ^ 16 := by omega
  refine UInt32.toNat_inj.mp ?_
  simp only [UInt32.toNat_or, UInt32.toNat_shiftLeft, Nat.toUInt32_eq, UInt32.toNat_ofNat', UInt32.toNat_toUInt16,
    UInt32.toNat_and, UInt32.toNat_shiftRight, UInt32.reduceToNat, Nat.shiftRight_eq_div_pow, mask, Nat.reducePow,
    Nat.reduceMod, Nat.mod_mod]
  rw [Nat.mod_eq_of_lt (by rw [Nat.shiftLeft_eq]; omega), ← Nat.shiftLeft_add_eq_or_of_lt low, Nat.shiftLeft_eq]
  omega

theorem deserialize_of_holds {key : Key} {array : List UInt8} {off buflen : Nat}
    (holds : Holds array off key.serialize) (long : 16 ≤ buflen) :
    Key.deserialize array off buflen = some (key, 16) := by
  simp only [serialize, holds_append, List.length_append, length_bytes32, length_bytes16, Nat.reduceAdd] at holds
  obtain ⟨⟨⟨⟨lolo, lohi⟩, hilo⟩, hihilo⟩, hihihi⟩ := holds
  have loloRead := lolo.readAt (length_bytes32 _) (by decide)
  have lohiRead := lohi.readAt (length_bytes32 _) (by decide)
  have hiloRead := hilo.readAt (length_bytes32 _) (by decide)
  have hihiloRead := hihilo.readAt (length_bytes16 _) (by decide)
  have hihihiRead := hihihi.readAt (length_bytes16 _) (by decide)
  unfold deserialize
  rw [loloRead, lohiRead, hiloRead, hihiloRead, hihihiRead]
  simp only [guard, long, if_true, Option.pure_def, Option.bind_eq_bind, Option.bind_some, ofBigEndian_bytes32,
    ofBigEndian_bytes16, join_halves]

end Key

namespace Val

/-- `Val::get_padding_size`: values of at most 128 bytes are padded to a multiple of 8. -/
def getPaddingSize (vallen : Nat) : Nat :=
  if vallen ≤ 128 then if vallen % 8 ≠ 0 then 8 - vallen % 8 else 0 else 0

/-- The bytes `serialize` produces: 16-bit big-endian length, data, zero padding. -/
def serialize (val : Val) : List UInt8 :=
  bigEndian 2 val.length ++ (val ++ List.replicate (getPaddingSize val.length) 0)

theorem length_serialize (val : Val) : (serialize val).length = 2 + val.length + getPaddingSize val.length := by
  simp only [serialize, List.length_append, length_bigEndian, List.length_replicate]
  omega

def dynamicSerializeData (val : Val) (buf : DynamicArray) (offset : Nat) : Option DynamicArray :=
  if 0 < val.length then do
    let buf ← buf.dynamicMemcpy offset val
    if 0 < getPaddingSize val.length then
      buf.dynamicMemset (offset + val.length) 0 (getPaddingSize val.length)
    else some buf
  else some buf

def dynamicSerialize (val : Val) (buf : DynamicArray) (offset : Nat) : Option (DynamicArray × Nat) := do
  let buf ← buf.dynamicMemcpy offset (bigEndian 2 val.length)
  let buf ← dynamicSerializeData val buf (offset + 2)
  some (buf, 2 + val.length + getPaddingSize val.length)

theorem writes_dynamicSerializeData {val : Val} (nonempty : 0 < val.length) (buf : DynamicArray) (offset : Nat) :
    Writes buf offset (val ++ List.replicate (getPaddingSize val.length) 0)
      (dynamicSerializeData val buf offset) id := by
  unfold dynamicSerializeData
  rw [if_pos nonempty]
  by_cases padded : 0 < getPaddingSize val.length
  · refine (writes_dynamicMemcpy _ _ _).bind fun _ _ => ?_
    rw [if_pos padded]
    exact writes_dynamicMemset _ _ _ _
  · have unpadded : getPaddingSize val.length = 0 := by omega
    simp only [unpadded, lt_self_iff_false, if_false, List.replicate_zero, List.append_nil]
    exact (writes_dynamicMemcpy _ _ _).finish id

theorem writes_dynamicSerialize (val : Val) (buf : DynamicArray) (offset : Nat) :
    Writes buf offset (serialize val) (dynamicSerialize val buf offset)
      (·, 2 + val.length + getPaddingSize val.length) := by
  unfold serialize dynamicSerialize
  by_cases nonempty : 0 < val.length
  · refine (writes_dynamicMemcpy _ _ _).bind fun _ _ => ?_
    exact (writes_dynamicSerializeData nonempty _ _).finish (·, 2 + val.length + getPaddingSize val.length)
  · -- an empty value is written as its length alone
    have empty : val = [] := List.eq_nil_of_length_eq_zero (by omega)
    subst empty
    exact (writes_dynamicMemcpy _ _ _).finish (·, 2)

def deserializeVal (array : List UInt8) (off buflen valLength : Nat) : Option (Val × Nat) :=
  if 0 < valLength then do
    guard (valLength + getPaddingSize valLength ≤ buflen)
    let val ← readAt array off valLength
    some (val, valLength + getPaddingSize valLength)
  else some ([], 0)

def deserialize (array : List UInt8) (off buflen : Nat) : Option (Val × Nat) := do
  guard (2 ≤ buflen)
  let vallen ← readAt array off 2
  let (val, valSize) ← deserializeVal array (off + 2) (buflen - 2) (ofBigEndian vallen)
  some (val, 2 + valSize)

theorem deserialize_of_holds {val : Val} {array : List UInt8} {off buflen : Nat} (short : val.length < 65536)
    (holds : Holds array off (serialize val)) (long : (serialize val).length ≤ buflen) :
    deserialize array off buflen = some (val, (serialize val).length) := by
  rw [length_serialize] at long ⊢
  simp only [serialize, holds_append, length_bigEndian] at holds
  obtain ⟨length, data, _⟩ := holds
  have lengthRead := length.readAt (length_bigEndian _ _) (by decide)
  unfold deserialize deserializeVal
  rw [lengthRead]
  have lengthBack : ofBigEndian (bigEndian 2 val.length) = val.length := ofBigEndian_bigEndian short
  simp only [guard, show 2 ≤ buflen by omega, if_true, Option.pure_def, Option.bind_eq_bind, Option.bind_some,
    lengthBack]
  by_cases nonempty : 0 < val.length
  · have dataRead := data.readAt rfl nonempty
    have room : val.length + getPaddingSize val.length ≤ buflen - 2 := by omega
    simp only [nonempty, room, if_true, dataRead, Option.bind_some, Nat.add_assoc]
  · have empty : val = [] := List.eq_nil_of_length_eq_zero (by omega)
    subst empty
    rfl

theorem length_of_deserialize {val : Val} {array : List UInt8} {off buflen size : Nat}
    (decoded : deserialize array off buflen = some (val, size)) : val.length < 65536 := by
  unfold deserialize at decoded
  simp only [Option.bind_eq_bind, Option.bind_eq_some_iff, Option.some.injEq, Prod.mk.injEq] at decoded
  obtain ⟨_, _, vallen, lengthRead, ⟨data, datasize⟩, dataRead, rfl, _⟩ := decoded
  have two : vallen.length ≤ 2 := by
    unfold readAt at lengthRead
    split at lengthRead
    · cases lengthRead
      exact List.length_take_le ..
    · cases lengthRead
  have bound : ofBigEndian vallen < 65536 := by
    have small := ofLittleEndian_lt vallen.reverse
    rw [List.length_reverse] at small
    exact small.trans_le (Nat.pow_le_pow_right (by decide) two)
  unfold deserializeVal at dataRead
  split at dataRead
  · simp only [Option.bind_eq_bind, Option.bind_eq_some_iff, Option.some.injEq, Prod.mk.injEq] at dataRead
    obtain ⟨_, _, read, inside, rfl, _⟩ := dataRead
    unfold readAt at inside
    split at inside
    · cases inside
      exact (List.length_take_le ..).trans_lt bound
    · cases inside
  · cases dataRead
    decide

/-- The bytes of a value in a large packet: the length takes 32 bits there. -/
def largeBytes (val : Val) : List UInt8 :=
  bigEndian 4 val.length ++ (val ++ List.replicate (getPaddingSize val.length) 0)

theorem length_largeBytes (val : Val) : (largeBytes val).length = 4 + val.length + getPaddingSize val.length := by
  simp only [largeBytes, List.length_append, length_bigEndian, List.length_replicate]
  omega

def serializeLarge (val : Val) (buflen : Nat) : Option (List UInt8) := do
  guard (4 + val.length + getPaddingSize val.length ≤ buflen)
  some (largeBytes val)

def dynamicSerializeLarge (val : Val) (buf : DynamicArray) (offset : Nat) : Option (DynamicArray × Nat) := do
  let buf ← buf.dynamicMemcpy offset (bigEndian 4 val.length)
  let buf ← dynamicSerializeData val buf (offset + 4)
  some (buf, 4 + val.length + getPaddingSize val.length)

theorem writes_dynamicSerializeLarge (val : Val) (buf : DynamicArray) (offset : Nat) :
    Writes buf offset (largeBytes val) (dynamicSerializeLarge val buf offset)
      (·, 4 + val.length + getPaddingSize val.length) := by
  unfold largeBytes dynamicSerializeLarge
  by_cases nonempty : 0 < val.length
  · refine (writes_dynamicMemcpy _ _ _).bind fun _ _ => ?_
    exact (writes_dynamicSerializeData nonempty _ _).finish (·, 4 + val.length + getPaddingSize val.length)
  · have empty : val = [] := List.eq_nil_of_length_eq_zero (by omega)
    subst empty
    exact (writes_dynamicMemcpy _ _ _).finish (·, 4)

/-- `Val::deserialize_large`; the data behind the length is read as `deserialize_val` does. -/
def deserializeLarge (array : List UInt8) (off buflen : Nat) : Option (Val × Nat) := do
  guard (4 ≤ buflen)
  let vallen ← readAt array off 4
  let (val, valSize) ← deserializeVal array (off + 4) (buflen - 4) (ofBigEndian vallen)
  some (val, 4 + valSize)

theorem deserializeLarge_of_holds {val : Val} {array : List UInt8} {off buflen : Nat} (short : val.length < 2 ^ 32)
    (holds : Holds array off (largeBytes val)) (long : (largeBytes val).length ≤ buflen) :
    deserializeLarge array off buflen = some (val, (largeBytes val).length) := by
  rw [length_largeBytes] at long ⊢
  simp only [largeBytes, holds_append, length_bigEndian] at holds
  obtain ⟨length, data, _⟩ := holds
  have lengthRead := length.readAt (length_bigEndian _ _) (by decide)
  have lengthBack : ofBigEndian (bigEndian 4 val.length) = val.length := ofBigEndian_bigEndian short
  have header : 4 ≤ buflen := by omega
  unfold deserializeLarge deserializeVal
  simp only [guard, header, if_true, Option.pure_def, Option.bind_eq_bind, Option.bind_some, lengthRead, lengthBack]
  by_cases nonempty : 0 < val.length
  · have dataRead := data.readAt rfl nonempty
    have room : val.length + getPaddingSize val.length ≤ buflen - 4 := by omega
    simp only [nonempty, room, if_true, dataRead, Option.bind_some, Nat.add_assoc]
  · have empty : val = [] := List.eq_nil_of_length_eq_zero (by omega)
    subst empty
    rfl

end Val

end FarReach
