import FarReach.Layouts
import FarReach.ScanResponse

namespace FarReach

open Bytes Layouts ScanResponseSplit

namespace Method

/-- `get_inswitch_prev_bytes`: the bytes of the in-switch header before the index. -/
def getInswitchPrevBytes : Method → Nat
  | farreach => 18
  | nocache => 14
  | netcache => 26
  | distfarreach => 14
  | distnocache => 14
  | distcache => 26

def getCloneBytes : Method → Nat
  | farreach => 8
  | nocache => 4
  | netcache => 8
  | distfarreach => 18
  | distnocache => 14
  | distcache => 18

def getStatPaddingBytes : Method → Nat
  | farreach | nocache | netcache | distfarreach | distnocache | distcache => 1

end Method

/-- `_pairnum` and `_pairs` of a scan response. -/
structure ScanPairs where
  pairnum : Int32
  pairs : List WireRecord

/-- The data members of the packet classes; each class has some of them. -/
inductive Member where
  | hdr
  | shadowtype
  | val
  | seq
  | snapshotToken
  | stat
  | nodeidxForeval
  | spineload
  | leafload
  | endkey
  | idx
  | serveridx
  | kvidx
  | victimkey
  | victimidx
  | curScanidx
  | maxScannum
  | curScanswitchidx
  | maxScanswitchnum
  | snapshotid
  | pairs
  deriving DecidableEq, Repr

abbrev Member.Value : Member → Type
  | hdr => Ophdr
  | shadowtype => PacketType
  | val => Val
  | seq | snapshotToken | spineload | leafload => UInt32
  | stat => Bool
  | endkey | victimkey => Key
  | nodeidxForeval | idx | serveridx | kvidx | victimidx | curScanidx | maxScannum | curScanswitchidx
  | maxScanswitchnum => UInt16
  | snapshotid => Int32
  | pairs => ScanPairs

/-- An object of a packet class: a value for every data member. -/
abbrev PacketObject := (member : Member) → member.Value

section Codecs

/-- `htons` and `ntohs` around a copy. -/
def halfCodec : Codec UInt16 :=
  Codec.fixed 2 (fun half => bigEndian 2 half.toNat) (fun bytes => (ofBigEndian bytes).toUInt16) (by decide)
    (fun _ => length_bigEndian _ _) toUInt16_ofBigEndian

/-- `htonl` and `ntohl` around a copy. -/
def wordCodec : Codec UInt32 :=
  Codec.fixed 4 (fun word => bigEndian 4 word.toNat) (fun bytes => (ofBigEndian bytes).toUInt32) (by decide)
    (fun _ => length_bigEndian _ _) toUInt32_ofBigEndian

def boolCodec : Codec Bool :=
  Codec.fixed 1 boolByte (fun bytes => ofLittleEndian bytes != 0) Nat.one_pos (fun _ => rfl) fun flag => by
    cases flag <;> rfl

/-- A copy in the host's order, between end hosts. -/
def hostHalfCodec : Codec UInt16 :=
  Codec.fixed 2 (fun half => littleEndian 2 half.toNat) (fun bytes => (ofLittleEndian bytes).toUInt16) (by decide)
    (fun _ => length_littleEndian _ _) toUInt16_ofLittleEndian

def hostIntCodec : Codec Int32 :=
  Codec.fixed 4 intBytes ofIntBytes (by decide) (fun _ => length_littleEndian _ _) ofIntBytes_intBytes

def typeCodec : Codec PacketType :=
  Codec.fixed 2 (fun type => bigEndian 2 type.code.toNat) (fun bytes => .ofCode (ofBigEndian bytes).toUInt16)
    (by decide) (fun _ => length_bigEndian _ _) fun type => by
      rw [toUInt16_ofBigEndian, PacketType.ofCode_code]

def keyCodec : Codec Key where
  Valid _ := True
  encode := Key.serialize
  decode data off recvSize := (Key.deserialize data off (recvSize - off)).map fun read => (read.1, off + read.2)
  arrives := id
  decode_of_holds := by
    intro data off size key _ holds room
    rw [Key.length_serialize] at room ⊢
    rw [Key.deserialize_of_holds holds (by omega)]
    rfl

def valCodec : Codec Val where
  Valid val := val.length ≤ 128
  encode := Val.serialize
  decode data off recvSize := (Val.deserialize data off (recvSize - off)).map fun read => (read.1, off + read.2)
  arrives := id
  decode_of_holds := by
    intro data off size val short holds room
    rw [Val.deserialize_of_holds (by omega) holds (by omega)]
    rfl

theorem holds_drop {data bytes : List UInt8} {off : Nat} (holds : Holds data off bytes) :
    Holds (data.drop off) 0 bytes := by
  intro i byte found
  rw [List.getElem?_drop, Nat.zero_add]
  exact holds i byte found

/-- `serialize_ophdr` and `deserialize_ophdr`: the indexes that the method does not send do not arrive. -/
def ophdrCodec (method : Method) : Codec Ophdr where
  Valid _ := True
  encode := Ophdr.bytes method
  decode data off recvSize :=
    (Ophdr.deserializeOphdr method (data.drop off) recvSize).map fun read => (read.1, off + read.2)
  arrives := Ophdr.received method
  decode_of_holds := by
    intro data off size hdr _ holds room
    rw [Ophdr.length_bytes] at room ⊢
    rw [Ophdr.deserializeOphdr_of_holds (holds_drop holds) (by omega)]
    rfl

/-- A pair as it arrives: with the sequence number and the status of an empty record. -/
def receivedPair (pair : WireRecord) : WireRecord := { pair with seq := 0, stat := false }

def deserializeScanPairs (data : List UInt8) (recvSize : Nat) : Nat → Nat → Option (List WireRecord × Nat)
  | 0, off => some ([], off)
  | pairnum + 1, off => do
    let (key, tmpPairKeysize) ← Key.deserialize data off (recvSize - off)
    let off := off + tmpPairKeysize
    let (val, tmpPairValsize) ← Val.deserializeLarge data off (recvSize - off)
    let (pairs, off) ← deserializeScanPairs data recvSize pairnum (off + tmpPairValsize)
    some (⟨key, val, 0, false⟩ :: pairs, off)

/-- The number of pairs and the pairs; `resize` throws for a negative number. -/
def ScanPairs.deserialize (data : List UInt8) (off recvSize : Nat) : Option (ScanPairs × Nat) := do
  let num ← readAt data off 4
  let pairnum := (ofBigEndian num).toUInt32.toInt32
  guard (0 ≤ pairnum)
  let (pairs, off) ← deserializeScanPairs data recvSize pairnum.toNatClampNeg (off + 4)
  some (⟨pairnum, pairs⟩, off)

def ScanPairs.bytes (scan : ScanPairs) : List UInt8 :=
  bigEndian 4 scan.pairnum.toUInt32.toNat ++ scan.pairs.flatMap pairBytes

/-- The number that the constructor checks, and no more pairs than an `int32_t` counts. -/
structure ScanPairs.Counted (scan : ScanPairs) : Prop where
  pairnum : scan.pairnum = Int32.ofNat scan.pairs.length
  few : scan.pairs.length < 2 ^ 31
  short : ∀ pair ∈ scan.pairs, pair.val.length ≤ 128

theorem deserializeScanPairs_of_holds {data : List UInt8} {off size : Nat} {pairs : List WireRecord}
    (short : ∀ pair ∈ pairs, pair.val.length < 2 ^ 32) (holds : Holds data off (pairs.flatMap pairBytes))
    (room : off + (pairs.flatMap pairBytes).length ≤ size) :
    deserializeScanPairs data size pairs.length off =
      some (pairs.map receivedPair, off + (pairs.flatMap pairBytes).length) := by
  induction pairs generalizing off with
  | nil => rfl
  | cons pair pairs ih =>
    have pairShort := short pair (List.mem_cons_self ..)
    rw [List.flatMap_cons, List.length_append, ← Nat.add_assoc] at room
    rw [List.flatMap_cons, holds_append] at holds
    obtain ⟨first, rest⟩ := holds
    have restRead := ih (fun later member => short later (List.mem_cons_of_mem _ member)) rest room
    have pairSize : (pairBytes pair).length = 16 + (Val.largeBytes pair.val).length := by
      rw [pairBytes, List.length_append, Key.length_serialize]
    rw [pairBytes, holds_append, Key.length_serialize] at first
    have keyRead := Key.deserialize_of_holds first.1 (show 16 ≤ size - off by omega)
    have valRead := Val.deserializeLarge_of_holds pairShort first.2
      (show (Val.largeBytes pair.val).length ≤ size - (off + 16) by omega)
    rw [pairSize, ← Nat.add_assoc] at restRead
    have total : off + (16 + (Val.largeBytes pair.val).length + (pairs.flatMap pairBytes).length) =
        off + 16 + (Val.largeBytes pair.val).length + (pairs.flatMap pairBytes).length := by omega
    simp only [List.length_cons, deserializeScanPairs, keyRead, valRead, restRead, Option.bind_eq_bind,
      Option.bind_some, List.flatMap_cons, List.length_append, pairSize, List.map_cons, receivedPair, total]

/-- The pairs come back for values of any length that four bytes can count. -/
theorem ScanPairs.deserialize_of_counts {data : List UInt8} {off size : Nat} {scan : ScanPairs}
    (pairnum : scan.pairnum = Int32.ofNat scan.pairs.length) (few : scan.pairs.length < 2 ^ 31)
    (short : ∀ pair ∈ scan.pairs, pair.val.length < 2 ^ 32) (holds : Holds data off scan.bytes)
    (room : off + scan.bytes.length ≤ size) :
    ScanPairs.deserialize data off size =
      some (⟨scan.pairnum, scan.pairs.map receivedPair⟩, off + scan.bytes.length) := by
  rw [bytes, List.length_append, length_bigEndian, ← Nat.add_assoc] at room
  rw [bytes, holds_append, length_bigEndian] at holds
  have numRead := holds.1.readAt (length_bigEndian _ _) (by decide)
  have numBack : (ofBigEndian (bigEndian 4 scan.pairnum.toUInt32.toNat)).toUInt32.toInt32 = scan.pairnum := by
    rw [toUInt32_ofBigEndian]
    simp
  have count : scan.pairnum.toInt = scan.pairs.length := by
    rw [pairnum, Int32.toInt_ofNat_of_lt few]
  have nonnegative : 0 ≤ scan.pairnum := by
    rw [Int32.le_iff_toInt_le, count]
    exact Int.natCast_nonneg _
  have clamped : scan.pairnum.toNatClampNeg = scan.pairs.length := by
    rw [Int32.toNatClampNeg, count]
    exact Int.toNat_natCast _
  have pairsRead := deserializeScanPairs_of_holds short holds.2 room
  unfold deserialize
  simp only [numRead, Option.bind_eq_bind, Option.bind_some, numBack, guard, nonnegative, if_true, Option.pure_def,
    clamped, pairsRead, bytes, List.length_append, length_bigEndian, Nat.add_assoc]

theorem ScanPairs.deserialize_of_holds {data : List UInt8} {off size : Nat} {scan : ScanPairs}
    (counted : scan.Counted) (holds : Holds data off scan.bytes) (room : off + scan.bytes.length ≤ size) :
    ScanPairs.deserialize data off size =
      some (⟨scan.pairnum, scan.pairs.map receivedPair⟩, off + scan.bytes.length) := by
  refine deserialize_of_counts counted.pairnum counted.few (fun pair member => ?_) holds room
  exact (counted.short pair member).trans_lt (by decide)

def pairsCodec : Codec ScanPairs where
  Valid := ScanPairs.Counted
  encode := ScanPairs.bytes
  decode := ScanPairs.deserialize
  arrives scan := ⟨scan.pairnum, scan.pairs.map receivedPair⟩
  decode_of_holds := ScanPairs.deserialize_of_holds

def Member.codec (method : Method) : (member : Member) → Codec member.Value
  | .hdr => ophdrCodec method
  | .shadowtype => typeCodec
  | .val => valCodec
  | .seq | .snapshotToken | .spineload | .leafload => wordCodec
  | .stat => boolCodec
  | .endkey | .victimkey => keyCodec
  | .nodeidxForeval | .idx | .serveridx | .kvidx | .curScanidx | .maxScannum | .curScanswitchidx
  | .maxScanswitchnum => halfCodec
  | .victimidx => hostHalfCodec
  | .snapshotid => hostIntCodec
  | .pairs => pairsCodec

end Codecs

abbrev Puts := List (Put Member.Value)

abbrev Takes := List (Take Member)

/-- The type once more, behind the header or the value. -/
def shadowtype : Filler PacketObject :=
  ⟨2, fun object => bigEndian 2 (object .hdr).type.code.toNat, fun _ => length_bigEndian _ _⟩

def zeros (size : Nat) : Filler PacketObject :=
  ⟨size, fun _ => List.replicate size 0, fun _ => List.length_replicate ..⟩

section Layouts

variable (method : Method)

/-- `seq_hdr` with a snapshot token of 0. -/
def seqPuts : Puts := .field .seq :: if method = .farreach then [.filler (zeros 4)] else []

def seqTakes : Takes := .field .seq :: if method = .farreach then [.skip 4] else []

/-- `stat_hdr`; its padding is left as the buffer has it. -/
def statPuts : Puts := [.field .stat, .field .nodeidxForeval, .gap method.getStatPaddingBytes]

def statTakes : Takes := [.field .stat, .field .nodeidxForeval, .skip method.getStatPaddingBytes]

def GetRequest.puts : Puts :=
  .field .hdr :: if method = .distcache then [.filler shadowtype, .field .spineload, .field .leafload] else []

def GetRequest.takes : Takes :=
  .field .hdr :: if method = .distcache then [.skip 2, .field .spineload, .field .leafload] else []

def PutRequest.puts : Puts := [.field .hdr, .field .val, .filler shadowtype]

def PutRequest.takes : Takes := [.field .hdr, .field .val, .skip 2]

def DelRequest.puts : Puts := [.field .hdr]

def DelRequest.takes : Takes := [.field .hdr]

def ScanRequest.puts : Puts := [.field .hdr, .field .endkey]

def ScanRequest.takes : Takes := [.field .hdr, .field .endkey]

def GetResponse.puts : Puts :=
  ([.field .hdr, .field .val, .filler shadowtype] : Puts) ++ statPuts method ++
    if method = .distcache then [.field .spineload, .field .leafload] else []

def GetResponse.takes : Takes :=
  ([.field .hdr, .field .val, .skip 2] : Takes) ++ statTakes method ++
    if method = .distcache then [.field .spineload, .field .leafload] else []

def GetResponseSeq.puts : Puts :=
  ([.field .hdr, .field .val, .filler shadowtype] : Puts) ++ seqPuts method ++ statPuts method

def GetResponseSeq.takes : Takes :=
  ([.field .hdr, .field .val, .skip 2] : Takes) ++ seqTakes method ++ statTakes method

/-- `PutResponse` and `DelResponse`, which is written out a second time. -/
def PutResponse.puts : Puts := ([.field .hdr, .filler shadowtype] : Puts) ++ statPuts method

def PutResponse.takes : Takes := ([.field .hdr, .skip 2] : Takes) ++ statTakes method

def PutResponseSeq.puts : Puts := ([.field .hdr, .filler shadowtype] : Puts) ++ seqPuts method ++ statPuts method

def PutResponseSeq.takes : Takes := ([.field .hdr, .skip 2] : Takes) ++ seqTakes method ++ statTakes method

def scanswitchPuts : Puts :=
  if method.isSingleswitch then [] else [.field .curScanswitchidx, .field .maxScanswitchnum]

def scanswitchTakes : Takes :=
  if method.isSingleswitch then [] else [.field .curScanswitchidx, .field .maxScanswitchnum]

def ScanResponseSplit.puts : Puts :=
  ([.field .hdr, .field .endkey, .filler (zeros method.getSplitPrevBytes), .field .curScanidx,
    .field .maxScannum] : Puts) ++ scanswitchPuts method ++ [.field .nodeidxForeval, .field .snapshotid,
      .field .pairs]

def ScanResponseSplit.takes : Takes :=
  ([.field .hdr, .field .endkey, .skip method.getSplitPrevBytes, .field .curScanidx, .field .maxScannum] : Takes) ++
    scanswitchTakes method ++ [.field .nodeidxForeval, .field .snapshotid, .field .pairs]

def PutRequestSeq.puts : Puts :=
  ([.field .hdr, .field .val, .filler shadowtype, .field .seq] : Puts) ++
    if method = .farreach then [.field .snapshotToken] else []

def PutRequestSeq.takes : Takes :=
  ([.field .hdr, .field .val, .skip 2, .field .seq] : Takes) ++ if method = .farreach
    then [.field .snapshotToken] else []

/-- The layout of the four case-1 packets. -/
def GetResponseLatestSeqInswitchCase1.puts : Puts :=
  ([.field .hdr, .field .val, .filler shadowtype] : Puts) ++ seqPuts method ++
    [.filler (zeros method.getInswitchPrevBytes), .field .idx, .field .stat, .filler (zeros 2),
      .gap method.getStatPaddingBytes, .filler (zeros method.getCloneBytes)]

/-- The decoder stops behind the status. -/
def GetResponseLatestSeqInswitchCase1.takes : Takes :=
  ([.field .hdr, .field .val, .skip 2] : Takes) ++ seqTakes method ++
    [.skip method.getInswitchPrevBytes, .field .idx, .field .stat]

/-- `CachePop` and `CacheEvict`, which is written out a second time. -/
def CachePop.puts : Puts := [.field .hdr, .field .val, .field .seq, .field .stat, .field .serveridx]

def CachePop.takes : Takes := [.field .hdr, .field .val, .field .seq, .field .stat, .field .serveridx]

def WarmupRequest.puts : Puts := [.field .hdr]

def WarmupRequest.takes : Takes := [.field .hdr]

def NetcacheCachePop.puts : Puts := [.field .hdr, .field .serveridx]

def NetcacheCachePop.takes : Takes := [.field .hdr, .field .serveridx]

def NetcacheCachePopFinish.puts : Puts := [.field .hdr, .field .serveridx, .field .kvidx]

def NetcacheCachePopFinish.takes : Takes := [.field .hdr, .field .serveridx, .field .kvidx]

/-- The clone header is passed over, not written. -/
def NetcacheWarmupRequestInswitchPop.puts : Puts :=
  [.field .hdr, .filler shadowtype, .filler (zeros method.getInswitchPrevBytes), .filler (zeros 2),
    .gap method.getCloneBytes]

def NetcacheWarmupRequestInswitchPop.takes : Takes :=
  [.field .hdr, .field .shadowtype, .skip method.getInswitchPrevBytes, .skip 2, .skip method.getCloneBytes]

def DistcacheCacheEvictVictim.puts : Puts := [.field .hdr, .field .victimkey, .field .victimidx]

def DistcacheCacheEvictVictim.takes : Takes := [.field .hdr, .field .victimkey, .field .victimidx]

end Layouts

/-- The classes of small packets that have a constructor from fields and one from received bytes. -/
inductive PacketClass where
  | getRequest
  | putRequest
  | delRequest
  | scanRequest
  | getResponse
  | getResponseSeq
  | getResponseServerSeq
  | putResponse
  | putResponseSeq
  | putResponseServerSeq
  | delResponse
  | delResponseSeq
  | delResponseServerSeq
  | scanResponseSplit
  | putRequestSeq
  | getResponseLatestSeqInswitchCase1
  | getResponseDeletedSeqInswitchCase1
  | putRequestSeqInswitchCase1
  | delRequestSeqInswitchCase1
  | cachePop
  | cachePopAck
  | cacheEvict
  | cacheEvictAck
  | cacheEvictCase2
  | warmupRequest
  | warmupAck
  | loadAck
  | netcacheCachePop
  | netcacheCachePopAck
  | netcacheCachePopAckNLatest
  | netcacheCachePopFinish
  | netcacheCachePopFinishAck
  | netcacheCacheEvict
  | netcacheCacheEvictAck
  | netcacheWarmupRequestInswitchPop
  | distcacheCacheEvictVictim
  | distcacheCacheEvictVictimAck
  | distcacheInvalidate
  | distcacheInvalidateAck
  deriving DecidableEq, Repr

namespace PacketClass

def code : PacketClass → UInt16
  | getRequest => 0x0030
  | putRequest => 0x0001
  | delRequest => 0x0040
  | scanRequest => 0x0010
  | getResponse => 0x0009
  | getResponseSeq => 0x006b
  | getResponseServerSeq => 0x009b
  | putResponse => 0x0008
  | putResponseSeq => 0x000a
  | putResponseServerSeq => 0x002a
  | delResponse => 0x0018
  | delResponseSeq => 0x001a
  | delResponseServerSeq => 0x003a
  | scanResponseSplit => 0x0080
  | putRequestSeq => 0x0003
  | getResponseLatestSeqInswitchCase1 => 0x002f
  | getResponseDeletedSeqInswitchCase1 => 0x003f
  | putRequestSeqInswitchCase1 => 0x004f
  | delRequestSeqInswitchCase1 => 0x005f
  | cachePop => 0x0090
  | cachePopAck => 0x00f0
  | cacheEvict => 0x00a0
  | cacheEvictAck => 0x00b0
  | cacheEvictCase2 => 0x00c0
  | warmupRequest => 0x0000
  | warmupAck => 0x00d0
  | loadAck => 0x00e0
  | netcacheCachePop => 0x0130
  | netcacheCachePopAck => 0x0140
  | netcacheCachePopAckNLatest => 0x0330
  | netcacheCachePopFinish => 0x0150
  | netcacheCachePopFinishAck => 0x0160
  | netcacheCacheEvict => 0x0170
  | netcacheCacheEvictAck => 0x0180
  | netcacheWarmupRequestInswitchPop => 0x0074
  | distcacheCacheEvictVictim => 0x0250
  | distcacheCacheEvictVictimAck => 0x0260
  | distcacheInvalidate => 0x0280
  | distcacheInvalidateAck => 0x0290

def type (cls : PacketClass) : PacketType := .ofCode cls.code

def usedBy (cls : PacketClass) (method : Method) : Bool :=
  match cls with
  | getResponseSeq | putResponseSeq | delResponseSeq | getResponseLatestSeqInswitchCase1
  | getResponseDeletedSeqInswitchCase1 | putRequestSeqInswitchCase1 | delRequestSeqInswitchCase1
  | cacheEvictCase2 => method = .farreach ∨ method = .distfarreach
  | getResponseServerSeq | putResponseServerSeq | delResponseServerSeq => method = .distfarreach
  | netcacheCachePop | netcacheCachePopAck | netcacheCachePopFinish | netcacheCachePopFinishAck | netcacheCacheEvict
  | netcacheCacheEvictAck | netcacheWarmupRequestInswitchPop => method = .netcache ∨ method = .distcache
  | netcacheCachePopAckNLatest => method = .netcache
  | distcacheCacheEvictVictim | distcacheCacheEvictVictimAck | distcacheInvalidate
  | distcacheInvalidateAck => method = .distcache
  | _ => true

def puts (method : Method) : PacketClass → Puts
  | getRequest => GetRequest.puts method
  | putRequest => PutRequest.puts
  | delRequest => DelRequest.puts
  | scanRequest => ScanRequest.puts
  | getResponse => GetResponse.puts method
  | getResponseSeq | getResponseServerSeq => GetResponseSeq.puts method
  | putResponse | delResponse => PutResponse.puts method
  | putResponseSeq | putResponseServerSeq | delResponseSeq | delResponseServerSeq => PutResponseSeq.puts method
  | scanResponseSplit => ScanResponseSplit.puts method
  | putRequestSeq => PutRequestSeq.puts method
  | getResponseLatestSeqInswitchCase1 | getResponseDeletedSeqInswitchCase1 | putRequestSeqInswitchCase1
  | delRequestSeqInswitchCase1 => GetResponseLatestSeqInswitchCase1.puts method
  | cachePop | cacheEvict | cacheEvictCase2 | netcacheCachePopAck | netcacheCachePopAckNLatest => CachePop.puts
  | warmupRequest | warmupAck | loadAck | cachePopAck | cacheEvictAck | distcacheCacheEvictVictimAck
  | distcacheInvalidate | distcacheInvalidateAck => WarmupRequest.puts
  | netcacheCachePop | netcacheCachePopFinishAck | netcacheCacheEvict | netcacheCacheEvictAck => NetcacheCachePop.puts
  | netcacheCachePopFinish => NetcacheCachePopFinish.puts
  | netcacheWarmupRequestInswitchPop => NetcacheWarmupRequestInswitchPop.puts method
  | distcacheCacheEvictVictim => DistcacheCacheEvictVictim.puts

def takes (method : Method) : PacketClass → Takes
  | getRequest => GetRequest.takes method
  | putRequest => PutRequest.takes
  | delRequest => DelRequest.takes
  | scanRequest => ScanRequest.takes
  | getResponse => GetResponse.takes method
  | getResponseSeq | getResponseServerSeq => GetResponseSeq.takes method
  | putResponse | delResponse => PutResponse.takes method
  | putResponseSeq | putResponseServerSeq | delResponseSeq | delResponseServerSeq => PutResponseSeq.takes method
  | scanResponseSplit => ScanResponseSplit.takes method
  | putRequestSeq => PutRequestSeq.takes method
  | getResponseLatestSeqInswitchCase1 | getResponseDeletedSeqInswitchCase1 | putRequestSeqInswitchCase1
  | delRequestSeqInswitchCase1 => GetResponseLatestSeqInswitchCase1.takes method
  | cachePop | cacheEvict | cacheEvictCase2 | netcacheCachePopAck | netcacheCachePopAckNLatest => CachePop.takes
  | warmupRequest | warmupAck | loadAck | cachePopAck | cacheEvictAck | distcacheCacheEvictVictimAck
  | distcacheInvalidate | distcacheInvalidateAck => WarmupRequest.takes
  | netcacheCachePop | netcacheCachePopFinishAck | netcacheCacheEvict | netcacheCacheEvictAck =>
    NetcacheCachePop.takes
  | netcacheCachePopFinish => NetcacheCachePopFinish.takes
  | netcacheWarmupRequestInswitchPop => NetcacheWarmupRequestInswitchPop.takes method
  | distcacheCacheEvictVictim => DistcacheCacheEvictVictim.takes

/-- `size()` of the classes whose codecs check it. -/
def checkedSize (method : Method) : PacketClass → Option Nat
  | getRequest => some (method.getOphdrsize + if method = .distcache then 2 + 4 + 4 else 0)
  | delRequest => some method.getOphdrsize
  | scanRequest => some (method.getOphdrsize + 16)
  | putResponse | delResponse => some (method.getOphdrsize + 2 + 1 + 2 + method.getStatPaddingBytes)
  | putResponseSeq | putResponseServerSeq | delResponseSeq | delResponseServerSeq =>
    some (method.getOphdrsize + 2 + 4 + 1 + 2 + method.getStatPaddingBytes + if method = .farreach then 4 else 0)
  | scanResponseSplit =>
    some (method.getOphdrsize + 16 + method.getSplitPrevBytes + 2 + 2 + 2 + 4 + 4 +
      if method.isSingleswitch then 0 else 2 + 2)
  | warmupRequest | warmupAck | loadAck | cachePopAck | cacheEvictAck | distcacheCacheEvictVictimAck
  | distcacheInvalidate | distcacheInvalidateAck => some method.getOphdrsize
  | netcacheCachePop | netcacheCachePopFinishAck | netcacheCacheEvict | netcacheCacheEvictAck =>
    some (method.getOphdrsize + 2)
  | netcacheCachePopFinish => some (method.getOphdrsize + 2 + 2)
  | netcacheWarmupRequestInswitchPop =>
    some (method.getOphdrsize + 2 + method.getInswitchPrevBytes + 2 + method.getCloneBytes)
  | distcacheCacheEvictVictim => some (method.getOphdrsize + 16 + 2)
  | _ => none

/-- The classes whose decoder wants exactly `size()` bytes, not at least as many. -/
def exactSize : PacketClass → Bool
  | delRequest | scanRequest | netcacheCachePop | netcacheCachePopFinishAck | netcacheCacheEvict
  | netcacheCacheEvictAck | netcacheCachePopFinish => true
  | _ => false

def accountsFor (cls : PacketClass) (method : Method) (recvSize : Nat) : Bool :=
  match cls.checkedSize method with
  | none => true
  | some mySize => if cls.exactSize then mySize = recvSize else mySize ≤ recvSize

/-- What `serialize` returns when `begin` has come so far: `sizeof(begin - data)` is the size of a pointer
difference. -/
def returned (cls : PacketClass) (written : Nat) : Nat :=
  match cls with
  | netcacheWarmupRequestInswitchPop => 8
  | _ => written

def write (method : Method) (cls : PacketClass) (object : PacketObject) (data : List UInt8) :
    Option (List UInt8 × Nat) := do
  guard (∀ mySize ∈ cls.checkedSize method, mySize ≤ data.length)
  putAll (Member.codec method) object (cls.puts method) (data, 0)

/-- `serialize` into a buffer of `max_size` bytes: the buffer behind it and the length returned. -/
def serialize (method : Method) (cls : PacketClass) (object : PacketObject) (data : List UInt8) :
    Option (List UInt8 × Nat) := do
  let (data, written) ← cls.write method object data
  some (data, cls.returned written)

/-- What `Packet()` and the default constructors leave; members without an initial value are 0 here. -/
def initial : PacketObject
  | .hdr => ⟨.ofCode 0, 0, 0, 0, ⟨0, 0, 0, 0⟩⟩
  | .shadowtype => .ofCode 0
  | .val => []
  | .stat => false
  | .endkey | .victimkey => ⟨0, 0, 0, 0⟩
  | .seq | .snapshotToken | .spineload | .leafload => (0 : UInt32)
  | .nodeidxForeval | .idx | .serveridx | .kvidx | .victimidx | .curScanidx | .maxScannum | .curScanswitchidx
  | .maxScanswitchnum => (0 : UInt16)
  | .snapshotid => (0 : Int32)
  | .pairs => ⟨0, []⟩

/-- `deserialize`; one class reads its type a second time, from the shadow type. -/
def deserialize (method : Method) (cls : PacketClass) (data : List UInt8) (recvSize : Nat) : Option PacketObject := do
  guard (cls.accountsFor method recvSize)
  let (object, _) ← takeAll (Member.codec method) data recvSize (cls.takes method) (initial, 0)
  match cls with
  | netcacheWarmupRequestInswitchPop =>
    some (Function.update object .hdr { object .hdr with type := object .shadowtype })
  | _ => some object

def acceptsFields (cls : PacketClass) (object : PacketObject) : Bool :=
  match cls with
  | putRequest | getResponse | getResponseSeq | getResponseServerSeq | putRequestSeq
  | getResponseLatestSeqInswitchCase1 | getResponseDeletedSeqInswitchCase1 | putRequestSeqInswitchCase1
  | delRequestSeqInswitchCase1 | cachePop | netcacheCachePopAck => (object .val).length ≤ 128
  | netcacheCachePopAckNLatest => (object .val).length = 0
  | scanResponseSplit => 0 ≤ object .snapshotid
  | _ => true

def ofData (method : Method) (cls : PacketClass) (data : List UInt8) (recvSize : Nat) : Option PacketObject := do
  guard (cls.usedBy method)
  let object ← cls.deserialize method data recvSize
  guard ((object .hdr).type = cls.type)
  guard (cls.acceptsFields object)
  some object

/-- The fields of a class in a method: the loads are for several switches with DistCache, the snapshot token
for FarReach. -/
def members (method : Method) : PacketClass → List Member
  | getRequest => .hdr :: if method = .distcache then [.spineload, .leafload] else []
  | putRequest => [.hdr, .val]
  | delRequest => [.hdr]
  | scanRequest => [.hdr, .endkey]
  | getResponse => [.hdr, .val, .stat, .nodeidxForeval] ++ if method = .distcache then [.spineload, .leafload] else []
  | getResponseSeq | getResponseServerSeq => [.hdr, .val, .seq, .stat, .nodeidxForeval]
  | putResponse | delResponse => [.hdr, .stat, .nodeidxForeval]
  | putResponseSeq | putResponseServerSeq | delResponseSeq | delResponseServerSeq =>
    [.hdr, .seq, .stat, .nodeidxForeval]
  | scanResponseSplit =>
    [.hdr, .endkey, .curScanidx, .maxScannum] ++
      (if method.isSingleswitch then [] else [.curScanswitchidx, .maxScanswitchnum]) ++
      [.nodeidxForeval, .snapshotid, .pairs]
  | putRequestSeq => [.hdr, .val, .seq] ++ if method = .farreach then [.snapshotToken] else []
  | getResponseLatestSeqInswitchCase1 | getResponseDeletedSeqInswitchCase1 | putRequestSeqInswitchCase1
  | delRequestSeqInswitchCase1 => [.hdr, .val, .seq, .idx, .stat]
  | cachePop | cacheEvict | cacheEvictCase2 | netcacheCachePopAck | netcacheCachePopAckNLatest =>
    [.hdr, .val, .seq, .stat, .serveridx]
  | warmupRequest | warmupAck | loadAck | cachePopAck | cacheEvictAck | distcacheCacheEvictVictimAck
  | distcacheInvalidate | distcacheInvalidateAck | netcacheWarmupRequestInswitchPop => [.hdr]
  | netcacheCachePop | netcacheCachePopFinishAck | netcacheCacheEvict | netcacheCacheEvictAck => [.hdr, .serveridx]
  | netcacheCachePopFinish => [.hdr, .serveridx, .kvidx]
  | distcacheCacheEvictVictim => [.hdr, .victimkey, .victimidx]

/-- What a class's constructor from fields makes, with values of at most 128 bytes. -/
structure Constructs (method : Method) (cls : PacketClass) (object : PacketObject) : Prop where
  usedBy : cls.usedBy method = true
  type : (object .hdr).type = cls.type
  val : Member.val ∈ cls.members method → (object .val).length ≤ 128
  nlatest : cls = netcacheCachePopAckNLatest → object .val = []
  snapshotid : cls = scanResponseSplit → 0 ≤ object .snapshotid
  pairnum : cls = scanResponseSplit → (object .pairs).pairnum = Int32.ofNat (object .pairs).pairs.length
  pairs : cls = scanResponseSplit → ∀ pair ∈ (object .pairs).pairs, pair.val.length ≤ 128

/-- The received object has the sent one's value of a member; of the header, what belongs to the method. -/
def SameMember (method : Method) (sent received : PacketObject) : Member → Prop
  | .hdr => received .hdr = (sent .hdr).received method
  | member => received member = sent member

/-- The packet goes through a buffer: `serialize` returns how far it has written, and the constructor from as many
bytes makes an object with the same fields. -/
def RoundTrips (method : Method) (cls : PacketClass) (object : PacketObject) (data : List UInt8) : Prop :=
  ∃ after written received, cls.write method object data = some (after, written) ∧
    cls.serialize method object data = some (after, written) ∧
    cls.ofData method after written = some received ∧
    ∀ member ∈ cls.members method, SameMember method object received member

section Layout

variable {method : Method} {cls : PacketClass}

/-- Every other decoder goes along its encoder. -/
theorem follows_takes_puts (regular : cls ≠ netcacheWarmupRequestInswitchPop) :
    Follows (cls.takes method) (cls.puts method) := by
  cases cls with
  | netcacheWarmupRequestInswitchPop => exact absurd rfl regular
  | _ => cases method <;> decide

/-- It reads the fields of its class. -/
theorem taken_takes (regular : cls ≠ netcacheWarmupRequestInswitchPop) :
    taken (cls.takes method) = cls.members method := by
  cases cls with
  | netcacheWarmupRequestInswitchPop => exact absurd rfl regular
  | _ => cases method <;> rfl

end Layout

def width (method : Method) (object : PacketObject) : Member → Nat
  | .hdr => method.getOphdrsize
  | .val => (Val.serialize (object .val)).length
  | .stat => 1
  | .endkey | .victimkey => 16
  | .seq | .snapshotToken | .spineload | .leafload | .snapshotid => 4
  | .shadowtype | .nodeidxForeval | .idx | .serveridx | .kvidx | .victimidx | .curScanidx | .maxScannum
  | .curScanswitchidx | .maxScanswitchnum => 2
  | .pairs => (object .pairs).bytes.length

def putWidth (method : Method) (object : PacketObject) : Put Member.Value → Nat
  | .field member => width method object member
  | .filler fixed => fixed.size
  | .gap size => size

section Size

variable {method : Method} {cls : PacketClass} {object : PacketObject}

theorem length_encode (member : Member) :
    ((member.codec method).encode (object member)).length = width method object member := by
  cases member with
  | hdr => exact Ophdr.length_bytes method _
  | seq | snapshotToken | spineload | leafload => exact length_bigEndian 4 _
  | nodeidxForeval | idx | serveridx | kvidx | curScanidx | maxScannum | curScanswitchidx | maxScanswitchnum
  | shadowtype => exact length_bigEndian 2 _
  | victimidx | snapshotid => exact length_littleEndian _ _
  | val | stat | endkey | victimkey | pairs => rfl

theorem extent_eq (puts : Puts) :
    extent (Member.codec method) object puts = (puts.map (putWidth method object)).sum := by
  have same : Put.size (Member.codec method) object = putWidth method object := by
    funext put
    cases put with
    | field member => exact length_encode member
    | filler fixed => rfl
    | gap size => rfl
  rw [extent, same]

theorem length_bytes_pairs (scan : ScanPairs) : 4 + 20 * scan.pairs.length ≤ scan.bytes.length := by
  rw [ScanPairs.bytes, List.length_append, length_bigEndian]
  induction scan.pairs with
  | nil => exact le_refl _
  | cons pair pairs ih =>
    simp only [List.flatMap_cons, List.length_append, List.length_cons, pairBytes,
      Key.length_serialize, Val.length_largeBytes]
    omega

/-- `size()` is what the encoder writes, and of a scan response what it writes before the pairs. -/
theorem checkedSize_spec {mySize : Nat} (checked : cls.checkedSize method = some mySize) :
    mySize ≤ extent (Member.codec method) object (cls.puts method) ∧
      (cls.exactSize = true → mySize = extent (Member.codec method) object (cls.puts method)) := by
  rw [extent_eq]
  cases cls with
  | scanResponseSplit =>
    have pairs := length_bytes_pairs (object .pairs)
    refine ⟨?_, nofun⟩
    cases Option.some.inj checked
    simp only [puts, ScanResponseSplit.puts, scanswitchPuts]
    split <;> simp [putWidth, width, zeros] <;> omega
  | _ =>
    suffices same : mySize = ((PacketClass.puts method _).map (putWidth method object)).sum
        from ⟨same.le, fun _ => same⟩
    cases method <;> cases checked <;> rfl

end Size

end PacketClass

end FarReach
