import FarReach.PacketClasses

namespace FarReach

open Bytes Layouts

def ntohl (word : UInt32) : UInt32 := (ofBigEndian (littleEndian 4 word.toNat)).toUInt32

def copyHalf (data : List UInt8) (off : Nat) : Option UInt16 :=
  (readAt data off 2).map fun bytes => (ofLittleEndian bytes).toUInt16

def copyWord (data : List UInt8) (off : Nat) : Option UInt32 :=
  (readAt data off 4).map fun bytes => (ofLittleEndian bytes).toUInt32

structure RecoverPkt where
  hdr : Ophdr
  val : Val
  seq : UInt32
  freeidx : UInt16
  stat : Bool
  cacheFrequency : UInt32
  largevalueseq : UInt32
  vallen : UInt16
  regMeta : UInt16

def PacketType.backup : PacketType := .other 0x009f (by decide)

/-- The backup header as the switch fills it in, in the network's order. -/
structure BackupHdr where
  cacheFrequency : UInt32
  largevalueseq : UInt32
  vallen : UInt16
  regMeta : UInt16

def BackupHdr.bytes (backup : BackupHdr) : List UInt8 :=
  bigEndian 4 backup.cacheFrequency.toNat ++ (bigEndian 4 backup.largevalueseq.toNat ++
    (bigEndian 2 backup.vallen.toNat ++ bigEndian 2 backup.regMeta.toNat))

def BackupHdr.fill (backup : BackupHdr) (packet : List UInt8 × Nat) : List UInt8 :=
  overwrite packet.1 (packet.2 - 12) backup.bytes

namespace RecoverPkt

def make (key : Key) (val : Val) (seq : UInt32) (freeidx : UInt16) (stat : Bool) : Option RecoverPkt :=
  if val.length ≤ 128 then some ⟨.make .backup key, val, seq, freeidx, stat, 0, 0, 0, 0⟩ else none

def object (pkt : RecoverPkt) : PacketObject
  | .hdr => pkt.hdr
  | .val => pkt.val
  | .seq => pkt.seq
  | .idx => pkt.freeidx
  | .stat => pkt.stat
  | member => PacketClass.initial member

/-- The steps of `serialize`: those of a `CACHE_POP_INSWITCH`, and a backup header of zeros. -/
def puts (method : Method) : Puts :=
  ([.field .hdr, .field .val, .filler shadowtype] : Puts) ++ seqPuts method ++
    ([.filler (zeros method.getInswitchPrevBytes), .field .idx, .field .stat, .filler (zeros 2),
      .gap method.getStatPaddingBytes, .filler (zeros 4), .filler (zeros 4), .filler (zeros 4)] : Puts)

def serialize (method : Method) (pkt : RecoverPkt) (buf : List UInt8) : Option (List UInt8 × Nat) :=
  putAll (Member.codec method) pkt.object (puts method) (buf, 0)

def size (method : Method) (pkt : RecoverPkt) : Nat := extent (Member.codec method) pkt.object (puts method)

/-- `deserialize`. Every conversion from the network's order ends in `_seq`. -/
def deserialize (method : Method) (pkt : RecoverPkt) (data : List UInt8) (recvSize : Nat) : Option RecoverPkt := do
  let (hdr, tmpOphdrsize) ← Ophdr.deserializeOphdr method data recvSize
  let off := tmpOphdrsize
  let (val, tmpValsize) ← Val.deserialize data off (recvSize - off)
  let pkt := { pkt with hdr := hdr, val := val }
  -- the shadow type, both words of the sequence header and the front of the in-switch header are skipped
  let off := off + tmpValsize + 2 + 4 + 4 + method.getInswitchPrevBytes
  let freeidx ← copyHalf data off
  let pkt := { pkt with freeidx := freeidx, seq := ntohl freeidx.toUInt32 }
  -- so is the status header
  let off := off + 2 + 4
  let cacheFrequency ← copyWord data off
  let pkt := { pkt with cacheFrequency := cacheFrequency, seq := ntohl cacheFrequency }
  let off := off + 4
  let largevalueseq ← copyWord data off
  let pkt := { pkt with largevalueseq := largevalueseq, seq := ntohl largevalueseq }
  let off := off + 4
  let vallen ← copyHalf data off
  let pkt := { pkt with vallen := vallen, seq := ntohl vallen.toUInt32 }
  let off := off + 2
  let regMeta ← copyHalf data off
  some { pkt with regMeta := regMeta, seq := ntohl regMeta.toUInt32 }

end RecoverPkt

/-- A half word whose bytes were copied from the network without a conversion. -/
def swapHalf (half : UInt16) : UInt16 := (ofLittleEndian (bigEndian 2 half.toNat)).toUInt16

def swapWord (word : UInt32) : UInt32 := (ofLittleEndian (bigEndian 4 word.toNat)).toUInt32

section Copies

variable {data : List UInt8} {off : Nat}

theorem copyHalf_of_holds {half : UInt16} (holds : Holds data off (bigEndian 2 half.toNat)) :
    copyHalf data off = some (swapHalf half) := by
  unfold copyHalf
  rw [holds.readAt (length_bigEndian _ _) (by decide)]
  rfl

theorem copyWord_of_holds {word : UInt32} (holds : Holds data off (bigEndian 4 word.toNat)) :
    copyWord data off = some (swapWord word) := by
  unfold copyWord
  rw [holds.readAt (length_bigEndian _ _) (by decide)]
  rfl

end Copies

/-- Bytes in the network's order that are read in the host's order give the number back if both orders
are the same for it. -/
theorem ofLittleEndian_bigEndian_eq_iff {width n : Nat} (fits : n < 256 ^ width) :
    ofLittleEndian (bigEndian width n) = n ↔ bigEndian width n = littleEndian width n := by
  constructor
  · intro same
    have back := littleEndian_ofLittleEndian (bigEndian width n)
    rw [length_bigEndian, same] at back
    exact back.symm
  · intro same
    rw [same, ofLittleEndian_littleEndian fits]

theorem ofLittleEndian_bigEndian_lt (width n : Nat) : ofLittleEndian (bigEndian width n) < 256 ^ width := by
  simpa using ofLittleEndian_lt (bigEndian width n)

theorem swapHalf_toNat (half : UInt16) : (swapHalf half).toNat = ofLittleEndian (bigEndian 2 half.toNat) := by
  have bound := ofLittleEndian_bigEndian_lt 2 half.toNat
  simp only [swapHalf, Nat.toUInt16_eq, UInt16.toNat_ofNat', Nat.reducePow] at bound ⊢
  omega

theorem swapWord_toNat (word : UInt32) : (swapWord word).toNat = ofLittleEndian (bigEndian 4 word.toNat) := by
  have bound := ofLittleEndian_bigEndian_lt 4 word.toNat
  simp only [swapWord, Nat.toUInt32_eq, UInt32.toNat_ofNat', Nat.reducePow] at bound ⊢
  omega

theorem swapHalf_eq_iff (half : UInt16) :
    swapHalf half = half ↔ bigEndian 2 half.toNat = littleEndian 2 half.toNat := by
  rw [← ofLittleEndian_bigEndian_eq_iff half.toNat_lt, ← swapHalf_toNat, UInt16.toNat_inj]

theorem swapWord_eq_iff (word : UInt32) :
    swapWord word = word ↔ bigEndian 4 word.toNat = littleEndian 4 word.toNat := by
  rw [← ofLittleEndian_bigEndian_eq_iff word.toNat_lt, ← swapWord_toNat, UInt32.toNat_inj]

/-- A half word that is copied and then converted as a word ends in the upper half. -/
theorem ntohl_swapHalf (half : UInt16) : ntohl (swapHalf half).toUInt32 = half.toUInt32 <<< 16 := by
  have bound := half.toNat_lt
  have small := ofLittleEndian_bigEndian_lt 2 half.toNat
  have low := littleEndian_ofLittleEndian (bigEndian 2 half.toNat)
  rw [length_bigEndian] at low
  have bytes : littleEndian 4 (ofLittleEndian (bigEndian 2 half.toNat)) = bigEndian 2 half.toNat ++ [0, 0] := by
    generalize ofLittleEndian (bigEndian 2 half.toNat) = raw at small low ⊢
    have zero : raw / 256 / 256 = 0 := by omega
    rw [← low]
    simp [littleEndian, zero]
  have value : ofBigEndian (bigEndian 2 half.toNat ++ [0, 0]) = 65536 * half.toNat := by
    have back := ofLittleEndian_littleEndian (show half.toNat < 256 ^ 2 from bound)
    simp only [ofBigEndian, bigEndian, List.reverse_append, List.reverse_reverse]
    simp only [List.reverse_cons, List.reverse_nil, List.nil_append, List.cons_append, ofLittleEndian,
      UInt8.toNat_zero]
    omega
  apply UInt32.toNat_inj.mp
  unfold ntohl
  rw [UInt16.toNat_toUInt32, swapHalf_toNat, bytes, value]
  simp [UInt32.toNat_shiftLeft, Nat.shiftLeft_eq]
  omega

namespace RecoverPkt

/-- What `deserialize` makes of the bytes of a packet: the slot index and the backup header with their bytes
swapped, the register flags as sequence number, and the status the object had. -/
def received (pkt sent : RecoverPkt) (backup : BackupHdr) : RecoverPkt where
  hdr := sent.hdr.received .farreach
  val := sent.val
  seq := backup.regMeta.toUInt32 <<< 16
  freeidx := swapHalf sent.freeidx
  stat := pkt.stat
  cacheFrequency := swapWord backup.cacheFrequency
  largevalueseq := swapWord backup.largevalueseq
  vallen := swapHalf backup.vallen
  regMeta := swapHalf backup.regMeta

theorem deserialize_of_holds (pkt : RecoverPkt) {sent : RecoverPkt} {backup : BackupHdr} {data : List UInt8}
    {size : Nat} (short : sent.val.length ≤ 128) (hdr : Holds data 0 (sent.hdr.bytes .farreach))
    (val : Holds data 18 (Val.serialize sent.val))
    (freeidx : Holds data (18 + (Val.serialize sent.val).length + 28) (bigEndian 2 sent.freeidx.toNat))
    (header : Holds data (18 + (Val.serialize sent.val).length + 34) backup.bytes)
    (room : 18 + (Val.serialize sent.val).length + 46 ≤ size) :
    pkt.deserialize .farreach data size = some (pkt.received sent backup) := by
  have hdrRead := Ophdr.deserializeOphdr_of_holds hdr (show 18 ≤ size by omega)
  have valRead := Val.deserialize_of_holds (by omega) val (show (Val.serialize sent.val).length ≤ size - 18 by omega)
  simp only [BackupHdr.bytes, holds_append, length_bigEndian] at header
  obtain ⟨frequency, largevalueseq, vallen, regMeta⟩ := header
  have freeidxRead := copyHalf_of_holds freeidx
  have frequencyRead := copyWord_of_holds frequency
  have largevalueseqRead := copyWord_of_holds largevalueseq
  have vallenRead := copyHalf_of_holds vallen
  have regMetaRead := copyHalf_of_holds regMeta
  simp only [Nat.add_assoc, Nat.reduceAdd] at freeidxRead frequencyRead largevalueseqRead vallenRead regMetaRead
  unfold deserialize
  simp only [hdrRead, Method.getOphdrsize, valRead, Option.bind_eq_bind, Option.bind_some, Nat.add_assoc,
    Nat.reduceAdd, Method.getInswitchPrevBytes, freeidxRead, frequencyRead, largevalueseqRead, vallenRead,
      regMetaRead, ntohl_swapHalf]
  rfl

theorem size_eq (pkt : RecoverPkt) : pkt.size .farreach = 18 + (Val.serialize pkt.val).length + 46 := by
  have hdr : (pkt.hdr.bytes .farreach).length = 18 := Ophdr.length_bytes .farreach pkt.hdr
  simp [size, extent, puts, seqPuts, Put.size, Member.codec, ophdrCodec, object, hdr, valCodec, wordCodec, halfCodec,
    boolCodec, Codec.fixed, boolByte, shadowtype, zeros, Method.getInswitchPrevBytes, Method.getStatPaddingBytes]
  omega

/-- Where `serialize` puts the fields that `deserialize` reads. -/
theorem serialize_of_fits {pkt : RecoverPkt} {buf : List UInt8} (fits : pkt.size .farreach ≤ buf.length) :
    ∃ data, pkt.serialize .farreach buf = some (data, pkt.size .farreach) ∧ data.length = buf.length ∧
      Holds data 0 (pkt.hdr.bytes .farreach) ∧ Holds data 18 (Val.serialize pkt.val) ∧
      Holds data (18 + (Val.serialize pkt.val).length + 28) (bigEndian 2 pkt.freeidx.toNat) := by
  obtain ⟨data, wrote, length, laid, _⟩ := putAll_of_fits (show 0 + pkt.size .farreach ≤ buf.length by omega)
  rw [Nat.zero_add] at wrote
  refine ⟨data, wrote, length, ?_⟩
  have hdr : (pkt.hdr.bytes .farreach).length = 18 := Ophdr.length_bytes .farreach pkt.hdr
  simp only [puts, seqPuts, if_true, List.cons_append, List.nil_append, Laid, Put.bytes, Put.size, Member.codec,
    ophdrCodec, object, hdr, valCodec, wordCodec, halfCodec, Codec.fixed, length_bigEndian, shadowtype, zeros,
    Method.getInswitchPrevBytes, Nat.zero_add] at laid
  obtain ⟨first, second, _, _, _, _, index, _⟩ := laid
  refine ⟨first, second, ?_⟩
  have off : 18 + (Val.serialize pkt.val).length + 2 + 4 + 4 + 18 = 18 + (Val.serialize pkt.val).length + 28 := by
    omega
  rwa [off] at index

/-- What `deserialize` should return for a packet with a backup header. -/
structure Recovers (sent : RecoverPkt) (backup : BackupHdr) (received : RecoverPkt) : Prop where
  key : received.hdr.key = sent.hdr.key
  val : received.val = sent.val
  seq : received.seq = sent.seq
  freeidx : received.freeidx = sent.freeidx
  stat : received.stat = sent.stat
  cacheFrequency : received.cacheFrequency = backup.cacheFrequency
  largevalueseq : received.largevalueseq = backup.largevalueseq
  vallen : received.vallen = backup.vallen
  regMeta : received.regMeta = backup.regMeta

/-- The values that survive: the sequence number has the register flags in its upper half and zeros below, the status
is the one the object has already, and the other numbers have the same bytes in both orders. -/
structure Palindromic (pkt sent : RecoverPkt) (backup : BackupHdr) : Prop where
  seq : sent.seq = backup.regMeta.toUInt32 <<< 16
  stat : sent.stat = pkt.stat
  freeidx : bigEndian 2 sent.freeidx.toNat = littleEndian 2 sent.freeidx.toNat
  cacheFrequency : bigEndian 4 backup.cacheFrequency.toNat = littleEndian 4 backup.cacheFrequency.toNat
  largevalueseq : bigEndian 4 backup.largevalueseq.toNat = littleEndian 4 backup.largevalueseq.toNat
  vallen : bigEndian 2 backup.vallen.toNat = littleEndian 2 backup.vallen.toNat
  regMeta : bigEndian 2 backup.regMeta.toNat = littleEndian 2 backup.regMeta.toNat

theorem recovers_received_iff (pkt sent : RecoverPkt) (backup : BackupHdr) :
    sent.Recovers backup (pkt.received sent backup) ↔ pkt.Palindromic sent backup := by
  constructor
  · intro holds
    exact ⟨holds.seq.symm, holds.stat.symm, (swapHalf_eq_iff _).mp holds.freeidx,
      (swapWord_eq_iff _).mp holds.cacheFrequency, (swapWord_eq_iff _).mp holds.largevalueseq,
      (swapHalf_eq_iff _).mp holds.vallen, (swapHalf_eq_iff _).mp holds.regMeta⟩
  · intro holds
    exact ⟨Ophdr.received_key .farreach sent.hdr, rfl, holds.seq.symm, (swapHalf_eq_iff _).mpr holds.freeidx,
      holds.stat.symm, (swapWord_eq_iff _).mpr holds.cacheFrequency, (swapWord_eq_iff _).mpr holds.largevalueseq,
      (swapHalf_eq_iff _).mpr holds.vallen, (swapHalf_eq_iff _).mpr holds.regMeta⟩

/-- A packet is recovered from its bytes, whatever the switch has filled in, exactly if its values are among those
that survive. -/
theorem recoverPkt_roundTrips_iff (key : Key) (val : Val) (seq : UInt32) (freeidx : UInt16) (stat : Bool)
    (pkt sent : RecoverPkt) (backup : BackupHdr) (buf : List UInt8) (made : make key val seq freeidx stat = some sent)
    (fits : sent.size .farreach ≤ buf.length) :
    (∃ packet received, sent.serialize .farreach buf = some packet ∧
        pkt.deserialize .farreach (backup.fill packet) packet.2 = some received ∧ sent.Recovers backup received) ↔
      pkt.Palindromic sent backup := by
  have short : sent.val.length ≤ 128 := by
    unfold make at made
    split at made
    · rename_i short
      cases made
      exact short
    · cases made
  obtain ⟨data, wrote, length, hdr, value, index⟩ := serialize_of_fits fits
  have size := sent.size_eq
  have start : sent.size .farreach - 12 = 18 + (Val.serialize sent.val).length + 34 := by omega
  have hdrLength : (sent.hdr.bytes .farreach).length = 18 := Ophdr.length_bytes .farreach sent.hdr
  have backupLength : backup.bytes.length = 12 := by simp [BackupHdr.bytes]
  have read : pkt.deserialize .farreach (backup.fill (data, sent.size .farreach)) (sent.size .farreach) =
      some (pkt.received sent backup) := by
    unfold BackupHdr.fill
    dsimp only
    rw [start]
    refine deserialize_of_holds pkt short ?_ ?_ ?_ ?_ (by omega)
    · exact hdr.overwrite (Or.inl (by omega))
    · exact value.overwrite (Or.inl (by omega))
    · exact index.overwrite (Or.inl (by rw [length_bigEndian]; omega))
    · exact holds_overwrite (by omega)
  rw [← recovers_received_iff]
  constructor
  · rintro ⟨packet, received, wroteToo, readToo, holds⟩
    rw [wrote] at wroteToo
    cases wroteToo
    rw [read] at readToo
    cases readToo
    exact holds
  · intro holds
    exact ⟨_, _, wrote, read, holds⟩

def blank : RecoverPkt := ⟨.make .backup ⟨0, 0, 0, 0⟩, [], 0, 0, false, 0, 0, 0, 0⟩

/-- The numbers read the same in both orders, and the sequence number repeats the register flags. -/
theorem recoverPkt_roundTrips_iff_palindromes :
    ∃ sent packet received, make ⟨1, 2, 3, 4⟩ [7, 8] 0x01010000 0x0202 false = some sent ∧
      sent.serialize .farreach (List.replicate 80 0) = some packet ∧
      blank.deserialize .farreach (BackupHdr.fill ⟨0x03000003, 0, 0, 0x0101⟩ packet) packet.2 = some received ∧
      sent.Recovers ⟨0x03000003, 0, 0, 0x0101⟩ received := by
  refine ⟨⟨.make .backup ⟨1, 2, 3, 4⟩, [7, 8], 0x01010000, 0x0202, false, 0, 0, 0, 0⟩, ?_⟩
  obtain ⟨packet, received, outcome⟩ := (recoverPkt_roundTrips_iff ⟨1, 2, 3, 4⟩ [7, 8] 0x01010000 0x0202 false blank _
    ⟨0x03000003, 0, 0, 0x0101⟩ (List.replicate 80 0) rfl (by rw [size_eq]; decide)).mpr
    ⟨by decide, rfl, by decide, by decide, by decide, by decide, by decide⟩
  exact ⟨packet, received, rfl, outcome⟩

/-- A packet with sequence number 5 for slot 1 of a live record comes back with sequence number 0, slot 256 and a
deleted status. -/
theorem recoverPkt_loses_fields :
    ∃ sent packet received, make ⟨1, 2, 3, 4⟩ [7, 8] 5 1 true = some sent ∧
      sent.serialize .farreach (List.replicate 80 0) = some packet ∧
      blank.deserialize .farreach (BackupHdr.fill ⟨9, 0, 0, 0⟩ packet) packet.2 = some received ∧
      received.seq = 0 ∧ received.freeidx = 256 ∧ received.stat = false ∧ received.cacheFrequency = 0x09000000 := by
  have outcome : ((make ⟨1, 2, 3, 4⟩ [7, 8] 5 1 true).bind fun sent =>
      (sent.serialize .farreach (List.replicate 80 0)).bind fun packet =>
        (blank.deserialize .farreach (BackupHdr.fill ⟨9, 0, 0, 0⟩ packet) packet.2).map fun received =>
          (received.seq, received.freeidx, received.stat, received.cacheFrequency)) =
      some (0, 256, false, 0x09000000) := by
    decide +kernel
  obtain ⟨sent, made, outcome⟩ := Option.bind_eq_some_iff.mp outcome
  obtain ⟨packet, serialized, outcome⟩ := Option.bind_eq_some_iff.mp outcome
  obtain ⟨received, deserialized, fields⟩ := Option.map_eq_some_iff.mp outcome
  simp only [Prod.mk.injEq] at fields
  exact ⟨sent, packet, received, made, serialized, deserialized, fields⟩

end RecoverPkt

end FarReach
