import FarReach.PacketFormat
import FarReach.UpstreamBackups

namespace FarReach

open Bytes DynamicArray Ophdr

def ntohs (half : UInt16) : UInt16 := half <<< 8 ||| half >>> 8

def bytesLeft (size off : Nat) : Nat := (((size : Int) - off) % 2 ^ 32).toNat

namespace PacketFormat

/-- The fields `PutRequestLargevalue` and `LoadRequest` have in common. -/
structure LargevalueRequest where
  hdr : Ophdr
  val : Val
  clientLogicalIdx : UInt16
  fragseq : UInt32
  deriving DecidableEq, Repr

namespace LargevalueRequest

def bodyBytes (request : LargevalueRequest) : List UInt8 :=
  bigEndian 2 request.clientLogicalIdx.toNat ++ (bigEndian 4 request.fragseq.toNat ++ request.val.largeBytes)

def dynamicSerialize (method : Method) (request : LargevalueRequest) (buf : DynamicArray) :
    Option (DynamicArray × Nat) := do
  let (buf, tmpoff) ← request.hdr.dynamicSerializeOphdr method buf
  let buf ← buf.dynamicMemcpy tmpoff (bigEndian 2 request.clientLogicalIdx.toNat)
  let buf ← buf.dynamicMemcpy (tmpoff + 2) (bigEndian 4 request.fragseq.toNat)
  let (buf, tmpValsize) ← request.val.dynamicSerializeLarge buf (tmpoff + 2 + 4)
  some (buf, tmpoff + 2 + 4 + tmpValsize)

def serialize (method : Method) (request : LargevalueRequest) (maxSize : Nat) : Option (List UInt8) := do
  let ophdr ← request.hdr.serializeOphdr method maxSize
  let begin := ophdr ++ (bigEndian 2 request.clientLogicalIdx.toNat ++ bigEndian 4 request.fragseq.toNat)
  let val ← request.val.serializeLarge (bytesLeft maxSize begin.length)
  some (begin ++ val)

/-- The fields behind the headers, as every `deserialize` reads them: the 32-bit number is converted with
`ntohs`, which takes the low half of the word in memory. -/
def deserializeBody (hdr : Ophdr) (data : List UInt8) (begin recvSize : Nat) : Option LargevalueRequest := do
  let clientLogicalIdx ← readAt data begin 2
  let fragseq ← readAt data (begin + 2) 4
  let (val, _) ← Val.deserializeLarge data (begin + 2 + 4) (bytesLeft recvSize (begin + 2 + 4))
  some ⟨hdr, val, (ofBigEndian clientLogicalIdx).toUInt16,
    (ntohs (ofLittleEndian fragseq).toUInt32.toUInt16).toUInt32⟩

def deserialize (method : Method) (data : List UInt8) (recvSize : Nat) : Option LargevalueRequest := do
  let (hdr, tmpOphdrsize) ← deserializeOphdr method data recvSize
  deserializeBody hdr data tmpOphdrsize recvSize

end LargevalueRequest

namespace PutRequestLargevalue

def make (key : Key) (val : Val) (clientLogicalIdx : UInt16) (fragseq : UInt32) : Option LargevalueRequest := do
  guard (128 < val.length)
  some ⟨.make .putreqLargevalue key, val, clientLogicalIdx, fragseq⟩

def size (method : Method) : Nat := method.getOphdrsize + 2 + 4 + 4 + 128

def dynamicSerialize (method : Method) (request : LargevalueRequest) (buf : DynamicArray) :
    Option (DynamicArray × Nat) :=
  request.dynamicSerialize method buf

def serialize (method : Method) (request : LargevalueRequest) (maxSize : Nat) : Option (List UInt8) := do
  guard (size method ≤ maxSize)
  request.serialize method maxSize

def deserialize (method : Method) (data : List UInt8) (recvSize : Nat) : Option LargevalueRequest := do
  guard (size method ≤ recvSize)
  LargevalueRequest.deserialize method data recvSize

def ofData (method : Method) (data : List UInt8) (recvSize : Nat) : Option LargevalueRequest := do
  let request ← deserialize method data recvSize
  guard (request.hdr.type = .putreqLargevalue)
  guard (128 < request.val.length)
  some request

end PutRequestLargevalue

namespace LoadRequest

def make (key : Key) (val : Val) (clientLogicalIdx : UInt16) (fragseq : UInt32) : LargevalueRequest :=
  ⟨.make .loadreq key, val, clientLogicalIdx, fragseq⟩

def dynamicSerialize (method : Method) (request : LargevalueRequest) (buf : DynamicArray) :
    Option (DynamicArray × Nat) :=
  request.dynamicSerialize method buf

def serialize (method : Method) (request : LargevalueRequest) (maxSize : Nat) : Option (List UInt8) :=
  request.serialize method maxSize

def ofData (method : Method) (data : List UInt8) (recvSize : Nat) : Option LargevalueRequest := do
  let request ← LargevalueRequest.deserialize method data recvSize
  guard (request.hdr.type = .loadreq)
  some request

end LoadRequest

structure PutRequestLargevalueSeq extends LargevalueRequest where
  seq : UInt32
  snapshotToken : UInt32
  deriving DecidableEq, Repr

namespace PutRequestLargevalueSeq

/-- The methods whose constructors for a type with a sequence number pass their `INVARIANT`. -/
def allows (method : Method) (type : PacketType) : Bool :=
  match type with
  | .putreqLargevalueSeq => true
  | .putreqLargevalueSeqCached => method == .netcache || method == .distcache
  | .putreqLargevalueSeqCase3 | .putreqLargevalueSeqBeingevicted | .putreqLargevalueSeqCase3Beingevicted =>
    method == .farreach || method == .distfarreach
  | _ => false

/-- The constructors of `PutRequestLargevalueSeq` and of the classes derived from it. -/
def make (method : Method) (type : PacketType) (key : Key) (val : Val) (seq : UInt32) (clientLogicalIdx : UInt16)
    (fragseq : UInt32) : Option PutRequestLargevalueSeq := do
  guard (allows method type)
  guard (128 < val.length)
  some ⟨⟨.make type key, val, clientLogicalIdx, fragseq⟩, seq, 0⟩

def size (method : Method) : Nat := method.getOphdrsize + method.seqHdrsize + 2 + 4 + 4 + 128

def seqBytes (method : Method) (request : PutRequestLargevalueSeq) : List UInt8 :=
  bigEndian 2 request.hdr.type.code.toNat ++ (bigEndian 4 request.seq.toNat ++
    if method = .farreach then bigEndian 4 request.snapshotToken.toNat else [])

def serialize (method : Method) (request : PutRequestLargevalueSeq) (maxSize : Nat) : Option (List UInt8) := do
  guard (size method ≤ maxSize)
  let ophdr ← request.hdr.serializeOphdr method maxSize
  let begin := ophdr ++ (request.seqBytes method ++
    (bigEndian 2 request.clientLogicalIdx.toNat ++ bigEndian 4 request.fragseq.toNat))
  let val ← request.val.serializeLarge (bytesLeft maxSize begin.length)
  some (begin ++ val)

/-- The bytes of the token, which only FarReach reads. -/
def tokenAt (method : Method) (data : List UInt8) (begin : Nat) : Option (List UInt8) :=
  if method = .farreach then readAt data begin 4 else some []

/-- Where no token is read, 0 stands for the field left unset. -/
def deserialize (method : Method) (data : List UInt8) (recvSize : Nat) : Option PutRequestLargevalueSeq := do
  guard (size method ≤ recvSize)
  let (hdr, tmpOphdrsize) ← deserializeOphdr method data recvSize
  let begin := tmpOphdrsize + 2
  let seq ← readAt data begin 4
  let snapshotToken ← tokenAt method data (begin + 4)
  let request ← LargevalueRequest.deserializeBody hdr data (tmpOphdrsize + method.seqHdrsize) recvSize
  some ⟨request, (ofBigEndian seq).toUInt32, (ofBigEndian snapshotToken).toUInt32⟩

def ofData (method : Method) (type : PacketType) (data : List UInt8) (recvSize : Nat) :
    Option PutRequestLargevalueSeq := do
  guard (allows method type)
  let request ← deserialize method data recvSize
  guard (request.hdr.type = type)
  guard (128 < request.val.length)
  some request

end PutRequestLargevalueSeq

end PacketFormat

namespace JavaValue

def serializeLarge (value : JavaValue) (offset maxSize : Nat) : Option (List UInt8) := do
  guard ((value.valLength ≠ 0 ∧ value.valData.isSome) ∨ (value.valLength = 0 ∧ value.valData.isNone))
  guard (offset + (4 + value.valLength + Val.getPaddingSize value.valLength) ≤ maxSize)
  some value.val.largeBytes

/-- `Value.dynamicSerializeLarge`: the padding is written with `set`. -/
def dynamicSerializeLarge (value : JavaValue) (buf : DynamicArray) (offset : Nat) : Option (DynamicArray × Nat) := do
  guard ((value.valLength ≠ 0 ∧ value.valData.isSome) ∨ (value.valLength = 0 ∧ value.valData.isNone))
  let paddingSize := Val.getPaddingSize value.valLength
  let buf ← buf.dynamicMemcpy offset (bigEndian 4 value.valLength)
  let buf ←
    if 0 < value.valLength then do
      let buf ← buf.dynamicMemcpy (offset + 4) value.val
      (List.range paddingSize).foldlM (fun buf i => buf.set (offset + 4 + value.valLength + i) 0) buf
    else some buf
  some (buf, 4 + value.valLength + paddingSize)

end JavaValue

/-- The fields `PutRequestLargeValue` and `LoadRequest` of the client library have in common. -/
structure JavaRequest where
  hdr : Ophdr
  val : JavaValue
  clientLogicalIdx : UInt16
  fragseq : UInt32
  deriving DecidableEq, Repr

namespace JavaRequest

/-- `PutRequestLargeValue`, whose constructor asserts a large value. -/
def putRequestLargeValue (key : Key) (val : JavaValue) (clientLogicalIdx : UInt16) (fragseq : UInt32) :
    Option JavaRequest := do
  let valData ← val.valData
  guard (128 < valData.length)
  some ⟨.make .putreqLargevalue key, val, clientLogicalIdx, fragseq⟩

def loadRequest (key : Key) (val : JavaValue) (clientLogicalIdx : UInt16) (fragseq : UInt32) : JavaRequest :=
  ⟨.make .loadreq key, val, clientLogicalIdx, fragseq⟩

/-- `serialize` of both; neither checks its size. -/
def serialize (method : Method) (request : JavaRequest) (maxSize : Nat) : Option (List UInt8) := do
  let ophdr ← request.hdr.serializeOphdr method maxSize
  let begin := ophdr ++ (bigEndian 2 request.clientLogicalIdx.toNat ++ bigEndian 4 request.fragseq.toNat)
  let val ← request.val.serializeLarge begin.length maxSize
  some (begin ++ val)

def dynamicSerialize (method : Method) (request : JavaRequest) (buf : DynamicArray) : Option (DynamicArray × Nat) :=
  do
  let (buf, offset) ← request.hdr.dynamicSerializeOphdr method buf
  let buf ← buf.dynamicMemcpy offset (bigEndian 2 request.clientLogicalIdx.toNat)
  let buf ← buf.dynamicMemcpy (offset + 2) (bigEndian 4 request.fragseq.toNat)
  let (buf, tmpValSize) ← request.val.dynamicSerializeLarge buf (offset + 2 + 4)
  some (buf, offset + 2 + 4 + tmpValSize)

end JavaRequest

/-- What a sender puts into every large-value packet. -/
structure LargevalueFields where
  key : Key
  val : Val
  clientLogicalIdx : UInt16
  fragseq : UInt32
  deriving DecidableEq, Repr

/-- Where an encoder writes: a growing array, or a buffer of fixed size. -/
inductive Target where
  | dynamic (buf : DynamicArray)
  | fixed (maxSize : UInt32)

def Target.limit : Target → Nat
  | dynamic buf => buf.maxcapability
  | fixed maxSize => maxSize.toNat

/-- Run the encoder that belongs to the target; the result is the memory and the size written. -/
def Target.write (target : Target) (dynamicSerialize : DynamicArray → Option (DynamicArray × Nat))
    (serialize : Nat → Option (List UInt8)) : Option (List UInt8 × Nat) :=
  match target with
  | dynamic buf => (dynamicSerialize buf).map fun result => (result.1.array, result.2)
  | fixed maxSize => (serialize maxSize.toNat).map fun bytes => (bytes, bytes.length)

/-- The encoders of large-value packets in the server's and in the client library's language. A PUT with a
sequence number is written to a fixed buffer only. -/
inductive LargevalueEncoder where
  | putRequestLargevalue (target : Target)
  | putRequestLargevalueSeq (type : PacketType) (seq : UInt32) (maxSize : UInt32)
  | loadRequest (target : Target)
  | javaPutRequestLargeValue (target : Target)
  | javaLoadRequest (target : Target)

namespace LargevalueEncoder

open PacketFormat

def type : LargevalueEncoder → PacketType
  | putRequestLargevalue _ | javaPutRequestLargeValue _ => .putreqLargevalue
  | putRequestLargevalueSeq type _ _ => type
  | loadRequest _ | javaLoadRequest _ => .loadreq

def limit : LargevalueEncoder → Nat
  | putRequestLargevalue target | loadRequest target | javaPutRequestLargeValue target | javaLoadRequest target =>
    target.limit
  | putRequestLargevalueSeq _ _ maxSize => maxSize.toNat

def seq : LargevalueEncoder → Option UInt32
  | putRequestLargevalueSeq _ seq _ => some seq
  | _ => none

def UsedBy (encoder : LargevalueEncoder) (method : Method) : Prop :=
  match encoder with
  | putRequestLargevalueSeq type _ _ => PutRequestLargevalueSeq.allows method type = true
  | _ => True

def packetSize (method : Method) (encoder : LargevalueEncoder) (fields : LargevalueFields) : Nat :=
  method.getFragHdrsize encoder.type + 4 + fields.val.length

def encode (method : Method) (encoder : LargevalueEncoder) (fields : LargevalueFields) : Option (List UInt8 × Nat) :=
  match encoder with
  | putRequestLargevalue target => do
    let request ← PutRequestLargevalue.make fields.key fields.val fields.clientLogicalIdx fields.fragseq
    target.write (PutRequestLargevalue.dynamicSerialize method request)
      (PutRequestLargevalue.serialize method request)
  | putRequestLargevalueSeq type seq maxSize => do
    let request ← PutRequestLargevalueSeq.make method type fields.key fields.val seq fields.clientLogicalIdx
      fields.fragseq
    let bytes ← request.serialize method maxSize.toNat
    some (bytes, bytes.length)
  | loadRequest target =>
    let request := LoadRequest.make fields.key fields.val fields.clientLogicalIdx fields.fragseq
    target.write (LoadRequest.dynamicSerialize method request) (LoadRequest.serialize method request)
  | javaPutRequestLargeValue target => do
    let request ← JavaRequest.putRequestLargeValue fields.key ⟨some fields.val⟩ fields.clientLogicalIdx fields.fragseq
    target.write (request.dynamicSerialize method) (request.serialize method)
  | javaLoadRequest target =>
    let request := JavaRequest.loadRequest fields.key ⟨some fields.val⟩ fields.clientLogicalIdx fields.fragseq
    target.write (request.dynamicSerialize method) (request.serialize method)

def decode (method : Method) (encoder : LargevalueEncoder) (data : List UInt8) (recvSize : Nat) :
    Option (LargevalueFields × Option UInt32) :=
  match encoder with
  | putRequestLargevalue _ | javaPutRequestLargeValue _ => do
    let request ← PutRequestLargevalue.ofData method data recvSize
    some (⟨request.hdr.key, request.val, request.clientLogicalIdx, request.fragseq⟩, none)
  | putRequestLargevalueSeq type _ _ => do
    let request ← PutRequestLargevalueSeq.ofData method type data recvSize
    some (⟨request.hdr.key, request.val, request.clientLogicalIdx, request.fragseq⟩, some request.seq)
  | loadRequest _ | javaLoadRequest _ => do
    let request ← LoadRequest.ofData method data recvSize
    some (⟨request.hdr.key, request.val, request.clientLogicalIdx, request.fragseq⟩, none)

/-- The decoder returns what was sent, and on every fragment of the packet, which starts with its header, the
two peekers return what the decoder returns. -/
def DecodesBack (method : Method) (encoder : LargevalueEncoder) (fields : LargevalueFields) (data : List UInt8)
    (size : Nat) : Prop :=
  encoder.decode method data size = some (fields, encoder.seq) ∧
    ∀ decoded, encoder.decode method data size = some decoded →
      ∀ fragment, data.take (method.getFragHdrsize encoder.type) <+: fragment →
        getPacketClientlogicalidx method fragment = some decoded.1.clientLogicalIdx ∧
          getPacketFragseq method fragment = some decoded.1.fragseq

end LargevalueEncoder

open LargevalueEncoder PacketFormat

theorem bytesLeft_eq {size off : Nat} (inside : off ≤ size) (bounded : size < 2 ^ 32) :
    bytesLeft size off = size - off := by
  unfold bytesLeft
  omega

theorem getPaddingSize_large {vallen : Nat} (large : 128 < vallen) : Val.getPaddingSize vallen = 0 := by
  unfold Val.getPaddingSize
  rw [if_neg (by omega)]

theorem toNat_ntohs (half : UInt16) : (ntohs half).toNat = half.toNat % 256 * 256 + half.toNat / 256 := by
  have bound := half.toNat_lt
  have high : half.toNat / 256 < 2 ^ 8 := by omega
  unfold ntohs
  simp only [UInt16.toNat_or, UInt16.toNat_shiftLeft, UInt16.toNat_shiftRight, UInt16.reduceToNat, Nat.reduceMod,
    Nat.shiftRight_eq_div_pow, Nat.shiftLeft_eq, Nat.reducePow]
  have low : half.toNat * 256 % 65536 = half.toNat % 256 * 256 := by omega
  rw [low, ← Nat.shiftLeft_eq _ 8, ← Nat.shiftLeft_add_eq_or_of_lt high, Nat.shiftLeft_eq]

/-- `ntohs` of a 32-bit number in network order leaves its high half. -/
theorem ntohs_fragseq (fragseq : UInt32) :
    (ntohs (ofLittleEndian (bigEndian 4 fragseq.toNat)).toUInt32.toUInt16).toUInt32 = fragseq >>> 16 := by
  have bound := fragseq.toNat_lt
  refine UInt32.toNat_inj.mp ?_
  simp only [UInt16.toNat_toUInt32, toNat_ntohs, UInt32.toNat_toUInt16, Nat.toUInt32_eq, UInt32.toNat_ofNat',
    UInt32.toNat_shiftRight, UInt32.reduceToNat, Nat.reduceMod, Nat.shiftRight_eq_div_pow, bigEndian, littleEndian,
    List.reverse_cons, List.reverse_nil, List.nil_append, List.cons_append, ofLittleEndian, Nat.toUInt8_eq,
    UInt8.toNat_ofNat', Nat.reducePow, Nat.div_div_eq_div_mul, Nat.reduceMul]
  obtain ⟨high, isHigh⟩ : ∃ high, high = fragseq.toNat / 65536 := ⟨_, rfl⟩
  have first : fragseq.toNat / 16777216 = high / 256 := by omega
  have small : high < 65536 := by omega
  have half : ∀ low, (high / 256 % 256 + 256 * (high % 256 + 256 * low)) % 4294967296 % 65536 =
      high / 256 + 256 * (high % 256) := by
    intro low
    have joined : high / 256 % 256 + 256 * (high % 256 + 256 * low) =
        high / 256 + 256 * (high % 256) + 65536 * low := by omega
    rw [Nat.mod_mod_of_dvd _ (by decide), joined, Nat.add_mul_mod_self_left]
    omega
  rw [← isHigh, first, half]
  omega

namespace LargevalueEncoder

def request (encoder : LargevalueEncoder) (fields : LargevalueFields) : LargevalueRequest :=
  ⟨.make encoder.type fields.key, fields.val, fields.clientLogicalIdx, fields.fragseq⟩

def seqBytes (method : Method) (encoder : LargevalueEncoder) (fields : LargevalueFields) : List UInt8 :=
  match encoder.seq with
  | some seq => PutRequestLargevalueSeq.seqBytes method ⟨encoder.request fields, seq, 0⟩
  | none => []

def headBytes (method : Method) (encoder : LargevalueEncoder) (fields : LargevalueFields) : List UInt8 :=
  (encoder.request fields).hdr.bytes method ++ (encoder.seqBytes method fields ++
    (bigEndian 2 fields.clientLogicalIdx.toNat ++ bigEndian 4 fields.fragseq.toNat))

def packetBytes (method : Method) (encoder : LargevalueEncoder) (fields : LargevalueFields) : List UInt8 :=
  encoder.headBytes method fields ++ Val.largeBytes fields.val

end LargevalueEncoder

section Requests

variable {method : Method} {data : List UInt8}

theorem Method.getFragHdrsize_seq (method : Method) {type : PacketType} (seq : type.isPutreqLargevalueSeq = true) :
    method.getFragHdrsize type = method.getOphdrsize + method.seqHdrsize + 2 + 4 := by
  cases type <;> simp_all [PacketType.isPutreqLargevalueSeq, Method.getFragHdrsize]

namespace PacketFormat.LargevalueRequest

variable {request : LargevalueRequest}

theorem length_bodyBytes (request : LargevalueRequest) :
    request.bodyBytes.length = 2 + (4 + (4 + request.val.length + Val.getPaddingSize request.val.length)) := by
  simp only [bodyBytes, List.length_append, length_bigEndian, Val.length_largeBytes]

theorem writes_dynamicSerialize (request : LargevalueRequest) (buf : DynamicArray) :
    Writes buf 0 (request.hdr.bytes method ++ request.bodyBytes) (request.dynamicSerialize method buf)
      (·, (request.hdr.bytes method ++ request.bodyBytes).length) := by
  have total : method.getOphdrsize + 2 + 4 + (4 + request.val.length + Val.getPaddingSize request.val.length) =
      (request.hdr.bytes method ++ request.bodyBytes).length := by
    rw [List.length_append, length_bytes, length_bodyBytes]
    omega
  rw [← total]
  unfold bodyBytes dynamicSerialize
  refine (writes_dynamicSerializeOphdr _ _ _).bind fun _ _ => ?_
  rw [length_bytes, Nat.zero_add]
  refine (writes_dynamicMemcpy _ _ _).bind fun _ _ => ?_
  rw [length_bigEndian]
  refine (writes_dynamicMemcpy _ _ _).bind fun _ _ => ?_
  rw [length_bigEndian]
  exact (Val.writes_dynamicSerializeLarge _ _ _).finish
    fun pair => (pair.1, method.getOphdrsize + 2 + 4 + pair.2)

theorem serialize_eq {maxSize : Nat} (bounded : maxSize < 2 ^ 32)
    (fits : (request.hdr.bytes method ++ request.bodyBytes).length ≤ maxSize) :
    request.serialize method maxSize = some (request.hdr.bytes method ++ request.bodyBytes) := by
  rw [List.length_append, length_bytes, length_bodyBytes] at fits
  have ophdr : request.hdr.serializeOphdr method maxSize = some (request.hdr.bytes method) := by
    have room : method.getOphdrsize ≤ maxSize := by omega
    simp [serializeOphdr, guard, room]
  have left : bytesLeft maxSize (method.getOphdrsize + (2 + 4)) = maxSize - (method.getOphdrsize + (2 + 4)) :=
    bytesLeft_eq (by omega) bounded
  have val : request.val.serializeLarge (bytesLeft maxSize (method.getOphdrsize + (2 + 4))) =
      some (Val.largeBytes request.val) := by
    have room : 4 + request.val.length + Val.getPaddingSize request.val.length ≤
        maxSize - (method.getOphdrsize + (2 + 4)) := by omega
    simp [Val.serializeLarge, guard, left, room]
  unfold serialize
  simp only [ophdr, Option.bind_eq_bind, Option.bind_some, List.length_append, length_bytes, length_bigEndian, val,
    bodyBytes, List.append_assoc]

/-- The decoders keep the high half of the fragment number. -/
theorem deserializeBody_of_holds {begin recvSize : Nat} (hdr : Ophdr) (holds : Holds data begin request.bodyBytes)
    (size : begin + request.bodyBytes.length = recvSize) (bounded : recvSize < 2 ^ 32) :
    deserializeBody hdr data begin recvSize =
      some ⟨hdr, request.val, request.clientLogicalIdx, request.fragseq >>> 16⟩ := by
  rw [length_bodyBytes] at size
  simp only [bodyBytes, holds_append, length_bigEndian] at holds
  obtain ⟨idx, fragseq, val⟩ := holds
  have valSize := Val.length_largeBytes request.val
  have idxRead := idx.readAt (length_bigEndian _ _) (by decide)
  have fragseqRead := fragseq.readAt (length_bigEndian _ _) (by decide)
  have left : bytesLeft recvSize (begin + 2 + 4) = recvSize - (begin + 2 + 4) := bytesLeft_eq (by omega) bounded
  have valRead := Val.deserializeLarge_of_holds (by omega) val
    (show (Val.largeBytes request.val).length ≤ recvSize - (begin + 2 + 4) by omega)
  have idxBack := toUInt16_ofBigEndian request.clientLogicalIdx
  unfold deserializeBody
  simp only [idxRead, fragseqRead, left, valRead, Option.bind_eq_bind, Option.bind_some, idxBack, ntohs_fragseq]

theorem deserialize_of_holds {recvSize : Nat} (holds : Holds data 0 (request.hdr.bytes method ++ request.bodyBytes))
    (size : (request.hdr.bytes method ++ request.bodyBytes).length = recvSize) (bounded : recvSize < 2 ^ 32) :
    deserialize method data recvSize =
      some ⟨request.hdr.received method, request.val, request.clientLogicalIdx, request.fragseq >>> 16⟩ := by
  rw [holds_append, length_bytes, Nat.zero_add] at holds
  rw [List.length_append, length_bytes] at size
  obtain ⟨header, body⟩ := holds
  have headerRead := deserializeOphdr_of_holds header (show method.getOphdrsize ≤ recvSize by omega)
  have bodyRead := deserializeBody_of_holds (request.hdr.received method) body size bounded
  simp only [deserialize, headerRead, Option.bind_eq_bind, Option.bind_some, bodyRead]

end PacketFormat.LargevalueRequest

namespace PacketFormat.PutRequestLargevalueSeq

variable {request : PutRequestLargevalueSeq}

theorem length_seqBytes (method : Method) (request : PutRequestLargevalueSeq) :
    (request.seqBytes method).length = method.seqHdrsize := by
  unfold seqBytes Method.seqHdrsize
  split <;> simp

theorem isPutreqLargevalueSeq_of_allows {type : PacketType} (allowed : allows method type = true) :
    type.isPutreqLargevalueSeq = true := by
  cases type <;> simp_all [allows, PacketType.isPutreqLargevalueSeq]

theorem serialize_eq {maxSize : Nat} (large : 128 < request.val.length) (bounded : maxSize < 2 ^ 32)
    (fits : (request.hdr.bytes method ++ (request.seqBytes method ++ request.bodyBytes)).length ≤ maxSize) :
    request.serialize method maxSize =
      some (request.hdr.bytes method ++ (request.seqBytes method ++ request.bodyBytes)) := by
  have noPadding := getPaddingSize_large large
  simp only [List.length_append, length_bytes, length_seqBytes, LargevalueRequest.length_bodyBytes,
    noPadding] at fits
  have room : size method ≤ maxSize := by
    unfold size
    omega
  have inside : method.getOphdrsize ≤ maxSize := by omega
  have left : bytesLeft maxSize (method.getOphdrsize + (method.seqHdrsize + (2 + 4))) =
      maxSize - (method.getOphdrsize + (method.seqHdrsize + (2 + 4))) := bytesLeft_eq (by omega) bounded
  have valRoom : 4 + request.val.length ≤ maxSize - (method.getOphdrsize + (method.seqHdrsize + (2 + 4))) := by omega
  unfold serialize
  simp only [guard, room, inside, if_true, Option.pure_def, Option.bind_eq_bind, Option.bind_some, serializeOphdr,
    List.length_append, length_bytes, length_seqBytes, length_bigEndian, left, Val.serializeLarge, noPadding,
    Nat.add_zero, valRoom, LargevalueRequest.bodyBytes, List.append_assoc]

theorem deserialize_of_holds {recvSize : Nat} (large : 128 < request.val.length)
    (holds : Holds data 0 (request.hdr.bytes method ++ (request.seqBytes method ++ request.bodyBytes)))
    (size : (request.hdr.bytes method ++ (request.seqBytes method ++ request.bodyBytes)).length = recvSize)
    (bounded : recvSize < 2 ^ 32) :
    ∃ snapshotToken, deserialize method data recvSize = some
      ⟨⟨request.hdr.received method, request.val, request.clientLogicalIdx, request.fragseq >>> 16⟩, request.seq,
        snapshotToken⟩ := by
  simp only [holds_append, length_bytes, Nat.zero_add, length_seqBytes] at holds
  simp only [List.length_append, length_bytes, length_seqBytes] at size
  obtain ⟨header, seqHdr, body⟩ := holds
  have bodySize := request.length_bodyBytes
  have room : PutRequestLargevalueSeq.size method ≤ recvSize := by
    unfold PutRequestLargevalueSeq.size
    omega
  have headerRead := deserializeOphdr_of_holds header (show method.getOphdrsize ≤ recvSize by omega)
  have bodyRead := LargevalueRequest.deserializeBody_of_holds (request.hdr.received method) body (by omega) bounded
  simp only [seqBytes, holds_append, length_bigEndian] at seqHdr
  obtain ⟨_, seq, token⟩ := seqHdr
  have seqRead := seq.readAt (length_bigEndian _ _) (by decide)
  have seqBack := toUInt32_ofBigEndian request.seq
  obtain ⟨tokenBytes, tokenRead⟩ : ∃ bytes, tokenAt method data (method.getOphdrsize + 2 + 4) = some bytes := by
    unfold tokenAt
    split
    · rename_i farreach
      rw [if_pos farreach] at token
      exact ⟨_, token.readAt (length_bigEndian _ _) (by decide)⟩
    · exact ⟨[], rfl⟩
  refine ⟨(ofBigEndian tokenBytes).toUInt32, ?_⟩
  simp only [deserialize, guard, room, if_true, Option.pure_def, headerRead, Option.bind_eq_bind, Option.bind_some,
    seqRead, tokenRead, bodyRead, seqBack]

end PacketFormat.PutRequestLargevalueSeq

/-- A large value has no padding, and both languages write it alike. -/
theorem JavaValue.dynamicSerializeLarge_eq {val : Val} (large : 128 < val.length) (buf : DynamicArray)
    (offset : Nat) :
    dynamicSerializeLarge ⟨some val⟩ buf offset = Val.dynamicSerializeLarge val buf offset := by
  have noPadding := getPaddingSize_large large
  have positive : 0 < val.length := by omega
  have nonempty : val ≠ [] := List.ne_nil_of_length_pos positive
  simp only [dynamicSerializeLarge, Val.dynamicSerializeLarge, Val.dynamicSerializeData, valLength, JavaValue.val,
    Option.getD_some, noPadding, positive, if_true, guard, List.range_zero, List.foldlM_nil,
      lt_self_iff_false, if_false]
  simp [nonempty]

theorem JavaValue.serializeLarge_eq {val : Val} (large : 128 < val.length) {offset maxSize : Nat}
    (inside : offset ≤ maxSize) (bounded : maxSize < 2 ^ 32) :
    serializeLarge ⟨some val⟩ offset maxSize = Val.serializeLarge val (bytesLeft maxSize offset) := by
  have nonempty : val ≠ [] := List.ne_nil_of_length_pos (by omega)
  have same : offset + (4 + val.length + Val.getPaddingSize val.length) ≤ maxSize ↔
      4 + val.length + Val.getPaddingSize val.length ≤ maxSize - offset := by omega
  rw [bytesLeft_eq inside bounded]
  simp [serializeLarge, Val.serializeLarge, valLength, JavaValue.val, guard, nonempty, same]

theorem JavaRequest.dynamicSerialize_eq {hdr : Ophdr} {val : Val} {clientLogicalIdx : UInt16} {fragseq : UInt32}
    (large : 128 < val.length) (buf : DynamicArray) :
    JavaRequest.dynamicSerialize method ⟨hdr, ⟨some val⟩, clientLogicalIdx, fragseq⟩ buf =
      LargevalueRequest.dynamicSerialize method ⟨hdr, val, clientLogicalIdx, fragseq⟩ buf := by
  simp only [JavaRequest.dynamicSerialize, LargevalueRequest.dynamicSerialize,
    JavaValue.dynamicSerializeLarge_eq large]

theorem JavaRequest.serialize_eq {hdr : Ophdr} {val : Val} {clientLogicalIdx : UInt16} {fragseq : UInt32}
    {maxSize : Nat} (large : 128 < val.length) (bounded : maxSize < 2 ^ 32)
    (room : method.getOphdrsize + (2 + 4) ≤ maxSize) :
    JavaRequest.serialize method ⟨hdr, ⟨some val⟩, clientLogicalIdx, fragseq⟩ maxSize =
      LargevalueRequest.serialize method ⟨hdr, val, clientLogicalIdx, fragseq⟩ maxSize := by
  have inside : method.getOphdrsize ≤ maxSize := by omega
  have begin : (hdr.bytes method ++ (bigEndian 2 clientLogicalIdx.toNat ++ bigEndian 4 fragseq.toNat)).length ≤
      maxSize := by
    simpa only [List.length_append, length_bytes, length_bigEndian] using room
  simp only [JavaRequest.serialize, LargevalueRequest.serialize, serializeOphdr, guard, inside, if_true,
    Option.pure_def, Option.bind_eq_bind, Option.bind_some, JavaValue.serializeLarge_eq large begin bounded]

theorem Target.write_eq {target : Target} {bytes : List UInt8}
    {dynamicSerialize : DynamicArray → Option (DynamicArray × Nat)} {serialize : Nat → Option (List UInt8)}
    (dynamic : ∀ buf, Writes buf 0 bytes (dynamicSerialize buf) (·, bytes.length))
    (fixed : ∀ maxSize, maxSize < 2 ^ 32 → bytes.length ≤ maxSize → serialize maxSize = some bytes)
    (fits : bytes.length ≤ target.limit) :
    ∃ data, target.write dynamicSerialize serialize = some (data, bytes.length) ∧ bytes <+: data := by
  cases target with
  | dynamic buf =>
    obtain ⟨after, done, wrote⟩ := (dynamic buf).1 (by simpa [Target.limit] using fits)
    exact ⟨after.array, by simp [Target.write, done], holds_zero_iff.mp wrote.holds⟩
  | fixed maxSize =>
    have done := fixed maxSize.toNat maxSize.toNat_lt fits
    exact ⟨bytes, by simp [Target.write, done], List.prefix_rfl⟩

/-- The client library writes the bytes of the server's encoders. -/
theorem JavaRequest.write_eq {request : LargevalueRequest} {target : Target} (large : 128 < request.val.length)
    (header : method.getOphdrsize + (2 + 4) ≤ (request.hdr.bytes method ++ request.bodyBytes).length)
    (fits : (request.hdr.bytes method ++ request.bodyBytes).length ≤ target.limit) :
    let java : JavaRequest := ⟨request.hdr, ⟨some request.val⟩, request.clientLogicalIdx, request.fragseq⟩
    ∃ data, target.write (java.dynamicSerialize method) (java.serialize method) =
        some (data, (request.hdr.bytes method ++ request.bodyBytes).length) ∧
      request.hdr.bytes method ++ request.bodyBytes <+: data := by
  refine Target.write_eq (fun buf => ?_) (fun maxSize bounded room => ?_) fits
  · rw [JavaRequest.dynamicSerialize_eq large]
    exact LargevalueRequest.writes_dynamicSerialize _ _
  · rw [JavaRequest.serialize_eq large bounded (header.trans room)]
    exact LargevalueRequest.serialize_eq bounded room

end Requests

namespace LargevalueEncoder

variable {method : Method} {encoder : LargevalueEncoder} {fields : LargevalueFields} {data : List UInt8}

theorem length_headBytes (used : encoder.UsedBy method) :
    (encoder.headBytes method fields).length = method.getFragHdrsize encoder.type := by
  simp only [headBytes, List.length_append, length_bytes, length_bigEndian]
  cases encoder with
  | putRequestLargevalueSeq =>
    rw [type, method.getFragHdrsize_seq (PutRequestLargevalueSeq.isPutreqLargevalueSeq_of_allows used), seqBytes]
    simp only [seq, PutRequestLargevalueSeq.length_seqBytes]
    omega
  | _ => rfl

theorem length_packetBytes (used : encoder.UsedBy method) (large : 128 < fields.val.length) :
    (encoder.packetBytes method fields).length = encoder.packetSize method fields := by
  simp only [packetBytes, List.length_append, length_headBytes used, Val.length_largeBytes,
    getPaddingSize_large large, packetSize]
  omega

theorem packetBytes_eq :
    encoder.packetBytes method fields = (encoder.request fields).hdr.bytes method ++
      (encoder.seqBytes method fields ++ (encoder.request fields).bodyBytes) := by
  simp only [packetBytes, headBytes, List.append_assoc, LargevalueRequest.bodyBytes, request]

theorem packetBytes_plain (plain : encoder.seq = none) :
    encoder.packetBytes method fields =
      (encoder.request fields).hdr.bytes method ++ (encoder.request fields).bodyBytes := by
  simp only [packetBytes_eq, seqBytes, plain, List.nil_append]

/-- Every encoder writes a packet that fits its target, and all write the same bytes. -/
theorem encode_eq (large : 128 < fields.val.length) (used : encoder.UsedBy method)
    (fits : encoder.packetSize method fields ≤ encoder.limit) :
    ∃ data, encoder.encode method fields = some (data, encoder.packetSize method fields) ∧
      encoder.packetBytes method fields <+: data := by
  rw [← length_packetBytes used large] at fits ⊢
  have header : method.getOphdrsize + (2 + 4) ≤
      ((encoder.request fields).hdr.bytes method ++ (encoder.request fields).bodyBytes).length := by
    rw [List.length_append, length_bytes, LargevalueRequest.length_bodyBytes]
    omega
  cases encoder with
  | putRequestLargevalueSeq kind number maxSize =>
    rw [packetBytes_eq] at fits ⊢
    have done := @PutRequestLargevalueSeq.serialize_eq method
      ⟨request (putRequestLargevalueSeq kind number maxSize) fields, number, 0⟩ _ large maxSize.toNat_lt fits
    refine ⟨_, ?_, List.prefix_rfl⟩
    have made : PutRequestLargevalueSeq.make method kind fields.key fields.val number fields.clientLogicalIdx
        fields.fragseq = some ⟨request (putRequestLargevalueSeq kind number maxSize) fields, number, 0⟩ := by
      have allowed : PutRequestLargevalueSeq.allows method kind = true := used
      simp [PutRequestLargevalueSeq.make, guard, allowed, large, request, type]
    simp only [encode, made, Option.bind_eq_bind, Option.bind_some, done, seqBytes, seq]
  | putRequestLargevalue target =>
    rw [packetBytes_plain rfl] at fits ⊢
    have made : PutRequestLargevalue.make fields.key fields.val fields.clientLogicalIdx fields.fragseq =
        some (request (putRequestLargevalue target) fields) := by
      simp [PutRequestLargevalue.make, guard, large, request, type]
    simp only [encode, made, Option.bind_eq_bind, Option.bind_some]
    refine Target.write_eq (LargevalueRequest.writes_dynamicSerialize _) (fun maxSize bounded room => ?_) fits
    have enough : PutRequestLargevalue.size method ≤ maxSize := by
      simp only [List.length_append, length_bytes, LargevalueRequest.length_bodyBytes, request] at room
      unfold PutRequestLargevalue.size
      omega
    simp only [PutRequestLargevalue.serialize, guard, enough, if_true, Option.pure_def, Option.bind_eq_bind,
      Option.bind_some, LargevalueRequest.serialize_eq bounded room]
  | loadRequest target =>
    rw [packetBytes_plain rfl] at fits ⊢
    exact Target.write_eq (LargevalueRequest.writes_dynamicSerialize _)
      (fun maxSize bounded room => LargevalueRequest.serialize_eq bounded room) fits
  | javaPutRequestLargeValue target =>
    rw [packetBytes_plain rfl] at fits ⊢
    have made : JavaRequest.putRequestLargeValue fields.key ⟨some fields.val⟩ fields.clientLogicalIdx fields.fragseq =
        some ⟨.make .putreqLargevalue fields.key, ⟨some fields.val⟩, fields.clientLogicalIdx, fields.fragseq⟩ := by
      simp [JavaRequest.putRequestLargeValue, guard, large]
    simp only [encode, made, Option.bind_eq_bind, Option.bind_some]
    exact @JavaRequest.write_eq method (request (javaPutRequestLargeValue target) fields) target large header fits
  | javaLoadRequest target =>
    rw [packetBytes_plain rfl] at fits ⊢
    exact @JavaRequest.write_eq method (request (javaLoadRequest target) fields) target large header fits

theorem limit_lt (encoder : LargevalueEncoder) : encoder.limit < 2 ^ 32 := by
  have each : ∀ target : Target, target.limit < 2 ^ 32 := by
    intro target
    cases target with
    | dynamic buf =>
      have bounded := buf.bounded
      simp only [Target.limit]
      omega
    | fixed maxSize => exact maxSize.toNat_lt
  cases encoder with
  | putRequestLargevalueSeq _ _ maxSize => exact maxSize.toNat_lt
  | _ target => exact each target

/-- The server decodes every packet, but only to the high half of its fragment number. -/
theorem decode_of_written (large : 128 < fields.val.length) (used : encoder.UsedBy method)
    (fits : encoder.packetSize method fields ≤ encoder.limit) (written : encoder.packetBytes method fields <+: data) :
    encoder.decode method data (encoder.packetSize method fields) =
      some ({ fields with fragseq := fields.fragseq >>> 16 }, encoder.seq) := by
  have bounded := fits.trans_lt encoder.limit_lt
  have size := length_packetBytes used large
  have holds := holds_zero_iff.mpr written
  cases encoder with
  | putRequestLargevalueSeq kind number maxSize =>
    rw [packetBytes_eq] at holds size
    have allowed : PutRequestLargevalueSeq.allows method kind = true := used
    obtain ⟨token, read⟩ := @PutRequestLargevalueSeq.deserialize_of_holds method data
      ⟨request (putRequestLargevalueSeq kind number maxSize) fields, number, 0⟩ _ large holds size bounded
    simp only [decode, PutRequestLargevalueSeq.ofData, guard, allowed, if_true, read, Option.pure_def,
      Option.bind_eq_bind, Option.bind_some, request, received_type, received_key, type, Ophdr.make, large, seq]
  | putRequestLargevalue target | javaPutRequestLargeValue target =>
    rw [packetBytes_plain rfl] at holds size
    have read := LargevalueRequest.deserialize_of_holds holds size bounded
    have enough : PutRequestLargevalue.size method ≤ method.getFragHdrsize .putreqLargevalue + 4 +
        fields.val.length := by
      simp only [PutRequestLargevalue.size, Method.getFragHdrsize]
      omega
    simp only [packetSize, type] at read ⊢
    simp only [decode, PutRequestLargevalue.ofData, PutRequestLargevalue.deserialize, guard, enough, if_true, read,
      Option.pure_def, Option.bind_eq_bind, Option.bind_some, request, received_type, received_key, type,
      Ophdr.make, large, seq]
  | loadRequest target | javaLoadRequest target =>
    rw [packetBytes_plain rfl] at holds size
    have read := LargevalueRequest.deserialize_of_holds holds size bounded
    simp only [decode, LoadRequest.ofData, read, Option.pure_def, Option.bind_eq_bind, Option.bind_some,
      guard, request, received_type, received_key, type, Ophdr.make, if_true, seq]

/-- A fragment that starts with the header of the packet shows the client index and the fragment number. -/
theorem peek_of_header {fragment : List UInt8} (used : encoder.UsedBy method)
    (starts : encoder.headBytes method fields <+: fragment) :
    getPacketClientlogicalidx method fragment = some fields.clientLogicalIdx ∧
      getPacketFragseq method fragment = some fields.fragseq := by
  have holds := holds_zero_iff.mpr starts
  simp only [headBytes, holds_append, length_bytes, Nat.zero_add, length_bigEndian] at holds
  obtain ⟨header, _, idx, fragseq⟩ := holds
  have typeRead : getPacketType fragment = some encoder.type := getPacketType_of_holds header
  have off : clientlogicalidxOff method encoder.type =
      some (method.getOphdrsize + (encoder.seqBytes method fields).length) := by
    cases encoder with
    | putRequestLargevalueSeq kind =>
      have isSeq := PutRequestLargevalueSeq.isPutreqLargevalueSeq_of_allows used
      have notPut : kind ≠ .putreqLargevalue := by
        intro put
        rw [put] at isSeq
        cases isSeq
      simp only [clientlogicalidxOff, type, notPut, if_false, isSeq, if_true, seqBytes, seq,
        PutRequestLargevalueSeq.length_seqBytes]
    | _ => rfl
  have idxRead := idx.readAt (length_bigEndian _ _) (by decide)
  have fragseqRead := fragseq.readAt (length_bigEndian _ _) (by decide)
  have idxBack := toUInt16_ofBigEndian fields.clientLogicalIdx
  have fragseqBack := toUInt32_ofBigEndian fields.fragseq
  simp only [getPacketClientlogicalidx, getPacketFragseq, typeRead, off, Option.bind_eq_bind,
    Option.bind_some, idxRead, fragseqRead, idxBack, fragseqBack, and_self]

end LargevalueEncoder

theorem shiftRight_eq_self_iff (fragseq : UInt32) : fragseq >>> 16 = fragseq ↔ fragseq = 0 := by
  have bound := fragseq.toNat_lt
  rw [← UInt32.toNat_inj, ← UInt32.toNat_inj]
  simp only [UInt32.toNat_shiftRight, UInt32.reduceToNat, Nat.reduceMod, Nat.shiftRight_eq_div_pow, Nat.reducePow]
  omega

/-- A large-value packet that fits its target is written by every encoder, and is decoded to what was sent, in
agreement with the peekers, exactly when its fragment number is 0. -/
theorem largevalue_decodes_back_iff (method : Method) (encoder : LargevalueEncoder) (fields : LargevalueFields)
    (large : 128 < fields.val.length) (used : encoder.UsedBy method)
    (fits : encoder.packetSize method fields ≤ encoder.limit) :
    ∃ data size, encoder.encode method fields = some (data, size) ∧
      (encoder.DecodesBack method fields data size ↔ fields.fragseq = 0) := by
  obtain ⟨data, written, starts⟩ := encode_eq large used fits
  refine ⟨data, _, written, ?_⟩
  have decoded := decode_of_written large used fits starts
  unfold DecodesBack
  rw [decoded, ← shiftRight_eq_self_iff]
  constructor
  · rintro ⟨same, _⟩
    exact congrArg (fun result => result.1.fragseq) (Option.some.inj same)
  · intro kept
    refine ⟨by rw [kept], ?_⟩
    rintro result isResult fragment begins
    cases isResult
    have head : encoder.headBytes method fields <+: fragment := by
      have cut := List.prefix_iff_eq_take.mp ((List.prefix_append _ _).trans starts)
      rw [length_headBytes used] at cut
      rwa [← cut] at begins
    have peeked := peek_of_header used head
    rwa [← kept] at peeked

/-- A PUT of 129 bytes with fragment number 0, written by the client library. -/
theorem largevalue_decodes_back_zero :
    ∃ data size, encode .farreach (.javaPutRequestLargeValue (.dynamic backupBuffer))
        ⟨⟨1, 2, 3, 4⟩, List.replicate 129 7, 5, 0⟩ = some (data, size) ∧
      DecodesBack .farreach (.javaPutRequestLargeValue (.dynamic backupBuffer))
        ⟨⟨1, 2, 3, 4⟩, List.replicate 129 7, 5, 0⟩ data size := by
  have limit : LargevalueEncoder.limit (.javaPutRequestLargeValue (.dynamic backupBuffer)) = 8388608 := rfl
  have fits : packetSize .farreach (.javaPutRequestLargeValue (.dynamic backupBuffer))
      ⟨⟨1, 2, 3, 4⟩, List.replicate 129 7, 5, 0⟩ ≤ 8388608 := by
    simp only [packetSize, LargevalueEncoder.type, Method.getFragHdrsize, Method.getOphdrsize, List.length_replicate]
    omega
  obtain ⟨data, size, written, back⟩ := largevalue_decodes_back_iff .farreach
    (.javaPutRequestLargeValue (.dynamic backupBuffer)) ⟨⟨1, 2, 3, 4⟩, List.replicate 129 7, 5, 0⟩
    (by simp) trivial (limit ▸ fits)
  exact ⟨data, size, written, back.mpr rfl⟩

/-- The first retry of a load request has fragment number 1, which the server reads as 0. -/
theorem largevalue_fragseq_lost :
    ∃ data size, encode .farreach (.loadRequest (.fixed 1000)) ⟨⟨1, 2, 3, 4⟩, List.replicate 129 7, 5, 1⟩ =
        some (data, size) ∧
      (decode .farreach (.loadRequest (.fixed 1000)) data size).map (fun decoded => decoded.1.fragseq) = some 0 ∧
      getPacketFragseq .farreach data = some 1 ∧
      ¬ DecodesBack .farreach (.loadRequest (.fixed 1000)) ⟨⟨1, 2, 3, 4⟩, List.replicate 129 7, 5, 1⟩ data size := by
  have large : 128 < (List.replicate 129 (7 : UInt8)).length := by simp
  have fits : packetSize .farreach (.loadRequest (.fixed 1000)) ⟨⟨1, 2, 3, 4⟩, List.replicate 129 7, 5,
      1⟩ ≤ 1000 := by
    simp only [packetSize, LargevalueEncoder.type, Method.getFragHdrsize, Method.getOphdrsize, List.length_replicate]
    omega
  obtain ⟨data, written, starts⟩ := @encode_eq .farreach (.loadRequest (.fixed 1000))
    ⟨⟨1, 2, 3, 4⟩, List.replicate 129 7, 5, 1⟩ large trivial fits
  have decoded := @decode_of_written .farreach (.loadRequest (.fixed 1000))
    ⟨⟨1, 2, 3, 4⟩, List.replicate 129 7, 5, 1⟩ data large trivial fits starts
  have peeked := @peek_of_header .farreach (.loadRequest (.fixed 1000))
    ⟨⟨1, 2, 3, 4⟩, List.replicate 129 7, 5, 1⟩ data trivial ((List.prefix_append _ _).trans starts)
  refine ⟨data, _, written, by rw [decoded]; rfl, peeked.2, ?_⟩
  intro back
  have same := decoded.symm.trans back.1
  have fragseq : (1 : UInt32) >>> 16 = 1 := congrArg (fun result => result.1.fragseq) (Option.some.inj same)
  exact absurd fragseq (by decide)

end FarReach
