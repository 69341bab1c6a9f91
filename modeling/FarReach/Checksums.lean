import FarReach.ByteOrder
import FarReach.CrcPolynomial
import FarReach.KeyHash
import FarReach.LargevaluePackets
import FarReach.OnesComplement

namespace FarReach

open Bytes CrcShift OnesComplement Polynomial

/-- The loop of `crc32` over the memory behind `message + i`. There is no result if it reads outside the message or
the `int` index overflows; `int(size)` is negative from 2^31 on. -/
def crc32Loop (size : UInt32) : List UInt8 → Int → UInt32 → Option UInt32
  | [], _, _ => none
  | byte :: rest, i, crc =>
    let crc := crc32Byte crc byte
    if i + 1 = 2 ^ 31 then none
    else if i + 1 = size.toInt32.toInt then some (~~~ crc)
    else crc32Loop size rest (i + 1) crc

def crc32Call (message : List UInt8) : Option UInt32 := crc32Loop message.length.toUInt32 message 0 0xFFFFFFFF

def load (bytes : List UInt8) : UInt64 := (ofLittleEndian bytes).toUInt64

/-- The main loop of `cksum16`: the bytes it leaves and the sum. -/
def cksumLoop (buf : List UInt8) (sum : UInt64) : List UInt8 × UInt64 :=
  if 8 ≤ buf.length then cksumLoop (buf.drop 8) (addCarry sum (load (buf.take 8)))
  else (buf, sum)
termination_by buf.length
decreasing_by
  rw [List.length_drop]
  omega

def addTail (len width : Nat) (state : List UInt8 × UInt64) : List UInt8 × UInt64 :=
  if len &&& width ≠ 0 then (state.1.drop width, addCarry state.2 (load (state.1.take width))) else state

def cksumSum (buf : List UInt8) : UInt64 :=
  let (tail, sum) := cksumLoop buf 0
  (addTail tail.length 1 (addTail tail.length 2 (addTail tail.length 4 (tail, sum)))).2

def cksum16 (buf : List UInt8) : UInt16 :=
  let sum := cksumSum buf
  let t1 := addCarry sum.toUInt32 (sum >>> 32).toUInt32
  let t3 := addCarry t1.toUInt16 (t1 >>> 16).toUInt16
  ntohs (~~~ t3)

noncomputable def crc32Generator : (ZMod 2)[X] :=
  X ^ 32 + X ^ 26 + X ^ 23 + X ^ 22 + X ^ 16 + X ^ 12 + X ^ 11 + X ^ 10 + X ^ 8 + X ^ 7 + X ^ 5 +
    X ^ 4 + X ^ 2 + X + 1

/-- The reflected CRC-32: the remainder of the message, followed by 32 zero bits and with its first 32 bits
complemented, is complemented in turn. -/
noncomputable def crc32Reference (message : List UInt8) : UInt32 :=
  ⟨~~~ register 32 ((X ^ 32 * messagePolynomial (message.map UInt8.toBitVec) +
    X ^ (8 * message.length) * ∑ i ∈ Finset.range 32, X ^ i) %ₘ crc32Generator)⟩

/-- The sum of the 16-bit words in network order, the last one padded with a zero byte. -/
def wordSum : List UInt8 → Nat
  | [] => 0
  | [byte] => 256 * byte.toNat
  | high :: low :: rest => 256 * high.toNat + low.toNat + wordSum rest

/-- RFC 1071: the complement of the sum of the words with end-around carries. -/
def internetChecksum (bytes : List UInt8) : UInt16 := ~~~ (foldCarries (wordSum bytes)).toUInt16

section Crc

def crc32Exponents : Finset Nat := {26, 23, 22, 16, 12, 11, 10, 8, 7, 5, 4, 2, 1, 0}

theorem reflected_crc32Poly : reflected crc32Poly = ∑ i ∈ crc32Exponents, X ^ i := by
  have bits : ∀ i < 32, crc32Poly.getLsbD (32 - 1 - i) = decide (i ∈ crc32Exponents) := by decide
  have below : (Finset.range 32).filter (· ∈ crc32Exponents) = crc32Exponents := by decide
  rw [← below, Finset.sum_filter, reflected]
  refine Finset.sum_congr rfl fun i inside => ?_
  rw [bits i (Finset.mem_range.mp inside)]
  by_cases present : i ∈ crc32Exponents
  · simp [present, coefficient]
  · simp [present, coefficient]

theorem generator_crc32Poly : generator crc32Poly = crc32Generator := by
  rw [generator, reflected_crc32Poly, crc32Exponents, crc32Generator]
  simp [add_assoc]

theorem reflected_allOnes : reflected (BitVec.allOnes 32) = ∑ i ∈ Finset.range 32, X ^ i := by
  refine Finset.sum_congr rfl fun i inside => ?_
  rw [Finset.mem_range] at inside
  rw [BitVec.getLsbD_allOnes, decide_eq_true (by omega)]
  simp [coefficient]

/-- The fold over the message feeds the register of the polynomial. -/
theorem foldl_crc32Byte_eq_feed (message : List UInt8) (crc : UInt32) :
    (message.foldl crc32Byte crc).toBitVec = (message.map UInt8.toBitVec).foldl (feed crc32Poly) crc.toBitVec := by
  induction message generalizing crc with
  | nil => rfl
  | cons byte message ih =>
    rw [List.foldl_cons, ih, crc32Byte_toBitVec, List.map_cons, List.foldl_cons, feed]

theorem crc32_eq_reference (message : List UInt8) : crc32 message = crc32Reference message := by
  refine UInt32.toBitVec_inj.mp ?_
  have ones : (0xFFFFFFFF : UInt32).toBitVec = BitVec.allOnes 32 := by decide
  have divided := foldl_crc32Byte_eq_feed message 0xFFFFFFFF
  rw [foldl_feed_eq (by decide), generator_crc32Poly, List.length_map, add_comm, ones, reflected_allOnes] at divided
  rw [crc32, crc32Reference, UInt32.toBitVec_not, divided]

theorem toInt_size (size : UInt32) :
    size.toInt32.toInt = if size.toNat < 2 ^ 31 then (size.toNat : Int) else size.toNat - 2 ^ 32 := by
  have bound := size.toNat_lt
  change size.toBitVec.toInt = _
  rw [BitVec.toInt_eq_toNat_cond]
  change (if 2 * size.toNat < 2 ^ 32 then (size.toNat : Int) else size.toNat - (2 ^ 32 : Nat)) = _
  split <;> split <;> omega

/-- The loop stops behind the last byte, unless the index overflows before. -/
theorem crc32Loop_eq {size : UInt32} {message : List UInt8} {i : Nat} {crc : UInt32} (nonempty : message ≠ [])
    (counted : i + message.length = size.toNat) :
    crc32Loop size message i crc = if size.toNat < 2 ^ 31 then some (~~~ message.foldl crc32Byte crc) else none := by
  have bound := size.toNat_lt
  have int := toInt_size size
  induction message generalizing i crc with
  | nil => exact absurd rfl nonempty
  | cons byte rest ih =>
    rw [List.length_cons] at counted
    unfold crc32Loop
    by_cases overflows : (i : Int) + 1 = 2 ^ 31
    · rw [if_pos overflows, if_neg (by omega)]
    · rw [if_neg overflows]
      by_cases last : (i : Int) + 1 = size.toInt32.toInt
      · have fits : size.toNat < 2 ^ 31 ∧ rest.length = 0 := by
          rw [int] at last
          split at last <;> omega
        rw [if_pos last, if_pos fits.1, List.eq_nil_of_length_eq_zero fits.2, List.foldl_cons, List.foldl_nil]
      · rw [if_neg last]
        by_cases done : rest = []
        · subst done
          rw [List.length_nil] at counted
          have large : ¬ size.toNat < 2 ^ 31 := by
            rw [int] at last
            split at last <;> omega
          rw [if_neg large, crc32Loop]
        · exact @ih (i + 1) (crc32Byte crc byte) done (by omega)

end Crc

section Cksum

def arithmetic64 : WordArithmetic UInt64 (2 ^ 64) :=
  ⟨UInt64.toNat, UInt64.toNat_add, fun _ _ => UInt64.lt_iff_toNat_lt, rfl, UInt64.toNat_lt⟩

def arithmetic32 : WordArithmetic UInt32 (2 ^ 32) :=
  ⟨UInt32.toNat, UInt32.toNat_add, fun _ _ => UInt32.lt_iff_toNat_lt, rfl, UInt32.toNat_lt⟩

def arithmetic16 : WordArithmetic UInt16 (2 ^ 16) :=
  ⟨UInt16.toNat, UInt16.toNat_add, fun _ _ => UInt16.lt_iff_toNat_lt, rfl, UInt16.toNat_lt⟩

/-- A chunk is added: the sum and the bytes behind it stand for what the sum and all bytes stood for. A chunk of odd
width must be the last. -/
theorem stands_chunk {bytes : List UInt8} {sum : UInt64} {width : Nat} (inside : width ≤ bytes.length)
    (small : width ≤ 8) (divides : 65535 ∣ 256 ^ width - 1 ∨ bytes.length = width) :
    Stands 65535 (sum.toNat + ofLittleEndian bytes)
      ((addCarry sum (load (bytes.take width))).toNat + ofLittleEndian (bytes.drop width)) := by
  have length : (bytes.take width).length = width := by
    rw [List.length_take]
    omega
  have loaded : (load (bytes.take width)).toNat = ofLittleEndian (bytes.take width) := by
    have bound := ofLittleEndian_lt (bytes.take width)
    have most : 256 ^ (bytes.take width).length ≤ 256 ^ 8 := Nat.pow_le_pow_right (by decide) (by omega)
    rw [load, Nat.toUInt64_eq, UInt64.toNat_ofNat']
    exact Nat.mod_eq_of_lt (bound.trans_le most)
  have parts : ofLittleEndian bytes = ofLittleEndian (bytes.take width) + 256 ^ width * ofLittleEndian
      (bytes.drop width) := by
    have joined := ofLittleEndian_append (bytes.take width) (bytes.drop width)
    rwa [List.take_append_drop, length] at joined
  have digits : Stands 65535 (ofLittleEndian bytes)
      (ofLittleEndian (bytes.take width) + ofLittleEndian (bytes.drop width)) := by
    rw [parts]
    rcases divides with divides | last
    · exact stands_digits divides (Nat.pow_pos (by decide)) _ _
    · rw [List.drop_eq_nil_of_le last.le]
      exact Stands.refl _ _
  have carried := arithmetic64.stands_addCarry (by decide : 65535 ∣ 2 ^ 64 - 1) sum (load (bytes.take width))
  change Stands 65535 (sum.toNat + (load (bytes.take width)).toNat) (addCarry sum (load (bytes.take width))).toNat
      at carried
  rw [loaded] at carried
  have split := (Stands.refl 65535 sum.toNat).add digits
  rw [← Nat.add_assoc] at split
  exact split.trans (carried.add (Stands.refl _ _))

theorem stands_cksumLoop (buf : List UInt8) (sum : UInt64) :
    Stands 65535 (sum.toNat + ofLittleEndian buf)
      ((cksumLoop buf sum).2.toNat + ofLittleEndian (cksumLoop buf sum).1) ∧ (cksumLoop buf sum).1.length < 8 := by
  fun_induction cksumLoop buf sum with
  | case1 buf sum long ih => exact ⟨(stands_chunk long le_rfl (Or.inl (by decide))).trans ih.1, ih.2⟩
  | case2 buf sum short => exact ⟨Stands.refl _ _, Nat.lt_of_not_le short⟩

def bytesBehind (len width left : Nat) : Nat := if len &&& width ≠ 0 then left - width else left

theorem length_addTail (len width : Nat) (state : List UInt8 × UInt64) :
    (addTail len width state).1.length = bytesBehind len width state.1.length := by
  unfold addTail bytesBehind
  split
  · exact List.length_drop
  · rfl

theorem stands_addTail {len width : Nat} {state : List UInt8 × UInt64} (small : width ≤ 8)
    (inside : len &&& width ≠ 0 → width ≤ state.1.length)
    (divides : 65535 ∣ 256 ^ width - 1 ∨ (len &&& width ≠ 0 → state.1.length = width)) :
    Stands 65535 (state.2.toNat + ofLittleEndian state.1)
      ((addTail len width state).2.toNat + ofLittleEndian (addTail len width state).1) := by
  unfold addTail
  by_cases present : len &&& width ≠ 0
  · rw [if_pos present]
    exact stands_chunk (inside present) small (divides.imp_right fun last => last present)
  · rw [if_neg present]
    exact Stands.refl _ _

/-- The bits of a length below 8 name the parts that the tail has. -/
theorem bytesBehind_spec : ∀ len < 8, (len &&& 4 ≠ 0 → 4 ≤ len) ∧ (len &&& 2 ≠ 0 → 2 ≤ bytesBehind len 4 len) ∧
    (len &&& 1 ≠ 0 → bytesBehind len 2 (bytesBehind len 4 len) = 1) ∧
    bytesBehind len 1 (bytesBehind len 2 (bytesBehind len 4 len)) = 0 := by
  decide

theorem stands_cksumSum (buf : List UInt8) : Stands 65535 (ofLittleEndian buf) (cksumSum buf).toNat := by
  obtain ⟨looped, short⟩ := stands_cksumLoop buf 0
  unfold cksumSum
  generalize cksumLoop buf 0 = state at looped short ⊢
  obtain ⟨tail, sum⟩ := state
  obtain ⟨four, two, one, none⟩ := bytesBehind_spec tail.length short
  have afterFour := @stands_addTail tail.length 4 (tail, sum) (by decide) four (Or.inl (by decide))
  have afterTwo := @stands_addTail tail.length 2 (addTail tail.length 4 (tail, sum)) (by decide)
    (by rw [length_addTail]; exact two) (Or.inl (by decide))
  have left : (addTail tail.length 2 (addTail tail.length 4 (tail, sum))).1.length =
      bytesBehind tail.length 2 (bytesBehind tail.length 4 tail.length) := by
    rw [length_addTail, length_addTail]
  have afterOne := @stands_addTail tail.length 1 (addTail tail.length 2 (addTail tail.length 4 (tail, sum)))
    (by decide) (fun present => by rw [left]; exact (one present).ge) (Or.inr fun present => left.trans (one present))
  have empty : (addTail tail.length 1 (addTail tail.length 2 (addTail tail.length 4 (tail, sum)))).1 = [] := by
    refine List.eq_nil_of_length_eq_zero ?_
    rw [length_addTail, left]
    exact none
  rw [empty] at afterOne
  have whole := looped.trans (afterFour.trans (afterTwo.trans afterOne))
  rw [show (0 : UInt64).toNat = 0 from rfl, Nat.zero_add] at whole
  exact whole

theorem stands_halves32 (sum : UInt64) :
    Stands 65535 sum.toNat (addCarry sum.toUInt32 (sum >>> 32).toUInt32).toNat := by
  have bound := sum.toNat_lt
  have carried := arithmetic32.stands_addCarry (by decide : 65535 ∣ 2 ^ 32 - 1) sum.toUInt32 (sum >>> 32).toUInt32
  change Stands 65535 (sum.toUInt32.toNat + (sum >>> 32).toUInt32.toNat) _ at carried
  have high : (sum >>> 32).toUInt32.toNat = sum.toNat / 2 ^ 32 := by
    rw [UInt64.toNat_toUInt32, UInt64.toNat_shiftRight, Nat.shiftRight_eq_div_pow]
    simp only [UInt64.reduceToNat, Nat.reduceMod]
    omega
  rw [UInt64.toNat_toUInt32, high] at carried
  have digits := @stands_digits 65535 (2 ^ 32) (by decide) (by decide) (sum.toNat % 2 ^ 32) (sum.toNat / 2 ^ 32)
  rw [Nat.mod_add_div] at digits
  exact digits.trans carried

theorem stands_halves16 (sum : UInt32) :
    Stands 65535 sum.toNat (addCarry sum.toUInt16 (sum >>> 16).toUInt16).toNat := by
  have bound := sum.toNat_lt
  have carried := arithmetic16.stands_addCarry (by decide : 65535 ∣ 2 ^ 16 - 1) sum.toUInt16 (sum >>> 16).toUInt16
  change Stands 65535 (sum.toUInt16.toNat + (sum >>> 16).toUInt16.toNat) _ at carried
  have high : (sum >>> 16).toUInt16.toNat = sum.toNat / 2 ^ 16 := by
    rw [UInt32.toNat_toUInt16, UInt32.toNat_shiftRight, Nat.shiftRight_eq_div_pow]
    simp only [UInt32.reduceToNat, Nat.reduceMod]
    omega
  rw [UInt32.toNat_toUInt16, high] at carried
  have digits := @stands_digits 65535 (2 ^ 16) (by decide) (by decide) (sum.toNat % 2 ^ 16) (sum.toNat / 2 ^ 16)
  rw [Nat.mod_add_div] at digits
  exact digits.trans carried

/-- The words in network order are those in the host's order with their bytes swapped. -/
theorem stands_wordSum (buf : List UInt8) : Stands 65535 (wordSum buf) (256 * ofLittleEndian buf) := by
  fun_induction wordSum buf with
  | case1 => exact Stands.refl _ _
  | case2 byte =>
    rw [ofLittleEndian, ofLittleEndian, Nat.mul_zero, Nat.add_zero]
    exact Stands.refl _ _
  | case3 high low rest ih =>
    have digits := @stands_digits 65535 65536 (by decide) (by decide) (256 * high.toNat)
      (low.toNat + 256 * ofLittleEndian rest)
    have same : 256 * ofLittleEndian (high :: low :: rest) =
        256 * high.toNat + 65536 * (low.toNat + 256 * ofLittleEndian rest) := by
      rw [ofLittleEndian, ofLittleEndian]
      ring
    have more := (Stands.refl 65535 (256 * high.toNat + low.toNat)).add ih
    rw [← Nat.add_assoc] at digits
    rw [same]
    exact more.trans digits.symm

/-- Swapped bytes: a multiplication by 256 with end-around carries. -/
theorem stands_ntohs (half : UInt16) : Stands 65535 (256 * half.toNat) (ntohs half).toNat := by
  have digits := @stands_digits 65535 65536 (by decide) (by decide) (256 * (half.toNat % 256)) (half.toNat / 256)
  have same : 256 * half.toNat = 256 * (half.toNat % 256) + 65536 * (half.toNat / 256) := by omega
  rw [toNat_ntohs, same, Nat.mul_comm (half.toNat % 256)]
  exact digits

theorem ntohs_not (half : UInt16) : ntohs (~~~ half) = ~~~ ntohs half := by
  have bound := half.toNat_lt
  refine UInt16.toNat_inj.mp ?_
  rw [toNat_ntohs, UInt16.toNat_not, UInt16.toNat_not, toNat_ntohs]
  simp only [UInt16.size]
  omega

theorem cksum16_eq_internetChecksum (buf : List UInt8) : cksum16 buf = internetChecksum buf := by
  have folded := (stands_cksumSum buf).trans ((stands_halves32 _).trans (stands_halves16 _))
  unfold cksum16 internetChecksum
  generalize isWord : addCarry (addCarry (cksumSum buf).toUInt32 (cksumSum buf >>> 32).toUInt32).toUInt16
    (addCarry (cksumSum buf).toUInt32 (cksumSum buf >>> 32).toUInt32 >>> 16).toUInt16 = t3 at *
  change ntohs (~~~ addCarry (addCarry (cksumSum buf).toUInt32 (cksumSum buf >>> 32).toUInt32).toUInt16
    (addCarry (cksumSum buf).toUInt32 (cksumSum buf >>> 32).toUInt32 >>> 16).toUInt16) = _
  rw [isWord, ntohs_not]
  have swapped := (stands_wordSum buf).trans ((folded.mul_left 256).trans (stands_ntohs t3))
  obtain ⟨reference, small⟩ := stands_foldCarries (wordSum buf)
  have bound := (ntohs t3).toNat_lt
  have equal := swapped.unique reference (by omega) small
  congr 1
  refine UInt16.toNat_inj.mp ?_
  rw [equal, Nat.toUInt16_eq, UInt16.toNat_ofNat', Nat.mod_eq_of_lt (by omega)]

end Cksum

/-- For a nonempty message, `crc32` returns the remainder of the polynomial division exactly if an `int` can count the
bytes, and `cksum16` the checksum of RFC 1071 for every length it can be given. -/
theorem key_hashes_eq_references (message : List UInt8) (nonempty : message ≠ [])
    (counted : message.length < 2 ^ 32) :
    (crc32Call message = some (crc32Reference message) ↔ message.length < 2 ^ 31) ∧
      cksum16 message = internetChecksum message := by
  have size : message.length.toUInt32.toNat = message.length := by
    rw [Nat.toUInt32_eq, UInt32.toNat_ofNat', Nat.mod_eq_of_lt counted]
  have loop := @crc32Loop_eq message.length.toUInt32 message 0 0xFFFFFFFF nonempty (by omega)
  rw [size] at loop
  refine ⟨?_, cksum16_eq_internetChecksum message⟩
  have call : crc32Call message = if message.length < 2 ^ 31 then some (crc32 message) else none := loop
  rw [call, ← crc32_eq_reference]
  by_cases small : message.length < 2 ^ 31
  · rw [if_pos small]
    exact ⟨fun _ => small, fun _ => rfl⟩
  · rw [if_neg small]
    exact ⟨nofun, fun fits => absurd fits small⟩

theorem key_hashes_eq_references_key :
    crc32Call [0, 0, 0, 0, 0, 0, 0, 0, 24, 116, 81, 121, 111, 223, 55, 56] =
      some (crc32Reference [0, 0, 0, 0, 0, 0, 0, 0, 24, 116, 81, 121, 111, 223, 55, 56]) :=
  (key_hashes_eq_references [0, 0, 0, 0, 0, 0, 0, 0, 24, 116, 81, 121, 111, 223, 55, 56] (by decide)
    (by decide)).1.mpr (by decide)

/-- For a message of 2^31 bytes, which the 32-bit size can express, the index overflows. -/
theorem crc32_overflows :
    ∃ message : List UInt8, message.length = 2 ^ 31 ∧ crc32Call message = none := by
  refine ⟨List.replicate (2 ^ 31) 0, List.length_replicate, ?_⟩
  generalize long : List.replicate (2 ^ 31) (0 : UInt8) = message
  have length : message.length = 2 ^ 31 := by
    rw [← long]
    exact List.length_replicate
  have size : message.length.toUInt32.toNat = 2 ^ 31 := by
    rw [length, Nat.toUInt32_eq, UInt32.toNat_ofNat', Nat.mod_eq_of_lt (by decide)]
  have loop := @crc32Loop_eq message.length.toUInt32 message 0 0xFFFFFFFF
    (List.ne_nil_of_length_pos (by rw [length]; decide)) (by rw [size, length, Nat.zero_add])
  rw [size] at loop
  exact loop

end FarReach
