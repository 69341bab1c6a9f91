import FarReach.LargevaluePackets
import FarReach.PacketClasses
import FarReach.Splices

namespace FarReach

open Bytes DynamicArray

structure GetResponseLargevalue where
  hdr : Ophdr
  val : Val
  stat : Bool
  nodeidxForeval : UInt16
  spineload : UInt32
  leafload : UInt32
  deriving DecidableEq, Repr

/-- `GetResponseLargevalueSeq`, of FarReach with one or more switches. -/
structure GetResponseLargevalueSeq extends GetResponseLargevalue where
  seq : UInt32
  deriving DecidableEq, Repr

/-- `memcpy` into the caller's buffer; a write outside it has no result. -/
def copyInto (data : List UInt8) (off : Nat) (bytes : List UInt8) : Option (List UInt8) :=
  if off + bytes.length ≤ data.length then some (overwrite data off bytes) else none

def statAt (data : List UInt8) (off : Nat) : Option (Bool × UInt16) := do
  let stat ← readAt data off 1
  let nodeidxForeval ← readAt data (off + 1) 2
  some (ofLittleEndian stat != 0, (ofBigEndian nodeidxForeval).toUInt16)

/-- The loads that only DistCache reads; the others keep the 0 of an empty object. -/
def loadsAt (method : Method) (data : List UInt8) (off : Nat) : Option (UInt32 × UInt32) :=
  if method = .distcache then do
    let spineload ← readAt data off 4
    let leafload ← readAt data (off + 4) 4
    some ((ofBigEndian spineload).toUInt32, (ofBigEndian leafload).toUInt32)
  else some (0, 0)

namespace GetResponseLargevalue

/-- `size()`, with a value of the most bytes a switch stores. -/
def size (method : Method) : Nat :=
  method.getOphdrsize + 4 + 128 + 1 + 2 + method.getStatPaddingBytes + if method = .distcache then 4 + 4 else 0

/-- Status, server and padding in `dynamic_serialize`: the padding is added to the offset and not written. -/
def dynamicSerializeStat (method : Method) (response : GetResponseLargevalue) (buf : DynamicArray) (tmpoff : Nat) :
    Option (DynamicArray × Nat) := do
  let buf ← buf.dynamicMemcpy tmpoff (boolByte response.stat)
  let buf ← buf.dynamicMemcpy (tmpoff + 1) (bigEndian 2 response.nodeidxForeval.toNat)
  some (buf, tmpoff + 1 + 2 + method.getStatPaddingBytes)

def dynamicSerializeLoads (method : Method) (response : GetResponseLargevalue) (buf : DynamicArray) (tmpoff : Nat) :
    Option (DynamicArray × Nat) :=
  if method = .distcache then do
    let buf ← buf.dynamicMemcpy tmpoff (bigEndian 4 response.spineload.toNat)
    let buf ← buf.dynamicMemcpy (tmpoff + 4) (bigEndian 4 response.leafload.toNat)
    some (buf, tmpoff + 4 + 4)
  else some (buf, tmpoff)

def dynamicSerialize (method : Method) (response : GetResponseLargevalue) (buf : DynamicArray) :
    Option (DynamicArray × Nat) := do
  let (buf, tmpoff) ← response.hdr.dynamicSerializeOphdr method buf
  let (buf, tmpValsize) ← response.val.dynamicSerializeLarge buf tmpoff
  let (buf, tmpoff) ← response.dynamicSerializeStat method buf (tmpoff + tmpValsize)
  response.dynamicSerializeLoads method buf tmpoff

def serializeStat (method : Method) (response : GetResponseLargevalue) (data : List UInt8) (begin : Nat) :
    Option (List UInt8 × Nat) := do
  let data ← copyInto data begin (boolByte response.stat)
  let data ← copyInto data (begin + 1) (bigEndian 2 response.nodeidxForeval.toNat)
  some (data, begin + 1 + 2 + method.getStatPaddingBytes)

def serializeLoads (method : Method) (response : GetResponseLargevalue) (data : List UInt8) (begin : Nat) :
    Option (List UInt8 × Nat) :=
  if method = .distcache then do
    let data ← copyInto data begin (bigEndian 4 response.spineload.toNat)
    let data ← copyInto data (begin + 4) (bigEndian 4 response.leafload.toNat)
    some (data, begin + 4 + 4)
  else some (data, begin)

def serialize (method : Method) (response : GetResponseLargevalue) (data : List UInt8) (maxSize : Nat) :
    Option (List UInt8 × Nat) := do
  guard (size method ≤ maxSize)
  let ophdr ← response.hdr.serializeOphdr method maxSize
  let data ← copyInto data 0 ophdr
  let val ← response.val.serializeLarge (bytesLeft maxSize ophdr.length)
  let data ← copyInto data ophdr.length val
  let (data, begin) ← response.serializeStat method data (ophdr.length + val.length)
  response.serializeLoads method data begin

def deserialize (method : Method) (data : List UInt8) (recvSize : Nat) : Option GetResponseLargevalue := do
  guard (size method ≤ recvSize)
  let (hdr, tmpOphdrsize) ← Ophdr.deserializeOphdr method data recvSize
  let (val, tmpValsize) ← Val.deserializeLarge data tmpOphdrsize (bytesLeft recvSize tmpOphdrsize)
  let begin := tmpOphdrsize + tmpValsize
  let (stat, nodeidxForeval) ← statAt data begin
  let (spineload, leafload) ← loadsAt method data (begin + 1 + 2 + method.getStatPaddingBytes)
  some ⟨hdr, val, stat, nodeidxForeval, spineload, leafload⟩

def ofData (method : Method) (data : List UInt8) (recvSize : Nat) : Option GetResponseLargevalue := do
  let response ← deserialize method data recvSize
  guard (response.hdr.type = .getresLargevalue)
  guard (128 < response.val.length)
  some response

/-- The constructor; `_globalswitchidx` is what the memory of the object held. -/
def make (globalswitchidx : UInt16) (key : Key) (val : Val) (stat : Bool) (nodeidxForeval : UInt16) :
    Option GetResponseLargevalue := do
  guard (128 < val.length)
  some ⟨⟨.getresLargevalue, globalswitchidx, 0, 0, key⟩, val, stat, nodeidxForeval, 0, 0⟩

/-- What a constructor can make; only DistCache's servers set the loads. -/
structure Constructed (method : Method) (response : GetResponseLargevalue) : Prop where
  type : response.hdr.type = .getresLargevalue
  large : 128 < response.val.length
  loads : method ≠ .distcache → response.spineload = 0 ∧ response.leafload = 0

/-- What arrives: the switch indexes that the method does not send are 0. -/
def received (method : Method) (response : GetResponseLargevalue) : GetResponseLargevalue :=
  { response with hdr := response.hdr.received method }

end GetResponseLargevalue

namespace GetResponseLargevalueSeq

def size (method : Method) : Nat :=
  method.getOphdrsize + 4 + 128 + 4 + 1 + 2 + method.getStatPaddingBytes

def dynamicSerialize (method : Method) (response : GetResponseLargevalueSeq) (buf : DynamicArray) :
    Option (DynamicArray × Nat) := do
  let (buf, tmpoff) ← response.hdr.dynamicSerializeOphdr method buf
  let (buf, tmpValsize) ← response.val.dynamicSerializeLarge buf tmpoff
  let tmpoff := tmpoff + tmpValsize
  let buf ← buf.dynamicMemcpy tmpoff (bigEndian 4 response.seq.toNat)
  response.dynamicSerializeStat method buf (tmpoff + 4)

def serialize (method : Method) (response : GetResponseLargevalueSeq) (data : List UInt8) (maxSize : Nat) :
    Option (List UInt8 × Nat) := do
  guard (size method ≤ maxSize)
  let ophdr ← response.hdr.serializeOphdr method maxSize
  let data ← copyInto data 0 ophdr
  let val ← response.val.serializeLarge (bytesLeft maxSize ophdr.length)
  let data ← copyInto data ophdr.length val
  let begin := ophdr.length + val.length
  let data ← copyInto data begin (bigEndian 4 response.seq.toNat)
  response.serializeStat method data (begin + 4)

def deserialize (method : Method) (data : List UInt8) (recvSize : Nat) : Option GetResponseLargevalueSeq := do
  guard (size method ≤ recvSize)
  let (hdr, tmpOphdrsize) ← Ophdr.deserializeOphdr method data recvSize
  let (val, tmpValsize) ← Val.deserializeLarge data tmpOphdrsize (bytesLeft recvSize tmpOphdrsize)
  let begin := tmpOphdrsize + tmpValsize
  let seq ← readAt data begin 4
  let (stat, nodeidxForeval) ← statAt data (begin + 4)
  let (spineload, leafload) ← loadsAt method data (begin + 4 + 1 + 2 + method.getStatPaddingBytes)
  some ⟨⟨hdr, val, stat, nodeidxForeval, spineload, leafload⟩, (ofBigEndian seq).toUInt32⟩

def ofData (method : Method) (data : List UInt8) (recvSize : Nat) : Option GetResponseLargevalueSeq := do
  guard (method = .farreach ∨ method = .distfarreach)
  let response ← deserialize method data recvSize
  guard (response.hdr.type = .getresLargevalueSeq)
  guard (128 < response.val.length)
  some response

def make (method : Method) (globalswitchidx : UInt16) (key : Key) (val : Val) (seq : UInt32) (stat : Bool)
    (nodeidxForeval : UInt16) : Option GetResponseLargevalueSeq := do
  guard (128 < val.length)
  guard (method = .farreach ∨ method = .distfarreach)
  some ⟨⟨⟨.getresLargevalueSeq, globalswitchidx, 0, 0, key⟩, val, stat, nodeidxForeval, 0, 0⟩, seq⟩

structure Constructed (method : Method) (response : GetResponseLargevalueSeq) : Prop where
  method : method = .farreach ∨ method = .distfarreach
  type : response.hdr.type = .getresLargevalueSeq
  large : 128 < response.val.length
  loads : response.spineload = 0 ∧ response.leafload = 0

def received (method : Method) (response : GetResponseLargevalueSeq) : GetResponseLargevalueSeq :=
  { response with hdr := response.hdr.received method }

end GetResponseLargevalueSeq

/-- The encoders of a packet class and the constructor from received bytes. -/
structure ResponseCodec (Response : Type) where
  dynamicSerialize : Response → DynamicArray → Option (DynamicArray × Nat)
  serialize : Response → List UInt8 → Nat → Option (List UInt8 × Nat)
  ofData : List UInt8 → Nat → Option Response

def GetResponseLargevalue.codec (method : Method) : ResponseCodec GetResponseLargevalue :=
  ⟨dynamicSerialize method, serialize method, ofData method⟩

def GetResponseLargevalueSeq.codec (method : Method) : ResponseCodec GetResponseLargevalueSeq :=
  ⟨dynamicSerialize method, serialize method, ofData method⟩

namespace ResponseCodec

variable {Response : Type} (codec : ResponseCodec Response)

/-- Into a cleared array and into the caller's buffer, both encoders write the response and return the size; what the
decoder gets from `size` bytes of either is `arrives`. -/
structure Delivers (response arrives : Response) (buf : DynamicArray) (data : List UInt8) (after : DynamicArray)
    (written : List UInt8) (size : Nat) : Prop where
  dynamicSerialize : codec.dynamicSerialize response buf.clear = some (after, size)
  serialize : codec.serialize response data data.length = some (written, size)
  ofArray : codec.ofData after.array size = some arrives
  ofBuffer : codec.ofData written size = some arrives

/-- The returned size is the size of the array, and both encoders leave the same bytes. -/
def ReportsLength (response arrives : Response) (buf : DynamicArray) (data : List UInt8) : Prop :=
  ∃ after written size, codec.Delivers response arrives buf data after written size ∧ size = after.cursize ∧
    after.array.take size = written.take size

end ResponseCodec

theorem DynamicArray.zeroed_clear (buf : DynamicArray) : buf.clear.Zeroed := by
  intro i _ inside
  change i < (List.replicate buf.mincapability (0 : UInt8)).length at inside
  change (List.replicate buf.mincapability (0 : UInt8))[i]? = some 0
  rw [List.length_replicate] at inside
  exact List.getElem?_replicate_of_lt inside

namespace GetResponseLargevalue

/-- Everything before the padding; a number may stand behind the value. -/
def frontBytes (method : Method) (response : GetResponseLargevalue) (seqBytes : List UInt8) : List UInt8 :=
  response.hdr.bytes method ++ (response.val.largeBytes ++ (seqBytes ++
    (boolByte response.stat ++ bigEndian 2 response.nodeidxForeval.toNat)))

def loadBytes (method : Method) (response : GetResponseLargevalue) : List UInt8 :=
  if method = .distcache then bigEndian 4 response.spineload.toNat ++ bigEndian 4 response.leafload.toNat else []

/-- The end of what is written: the padding counts only where something follows it. -/
def extent (method : Method) (response : GetResponseLargevalue) : Nat :=
  if method = .distcache then (response.frontBytes method []).length + method.getStatPaddingBytes + 4 + 4
  else (response.frontBytes method []).length

section Encoders

variable {method : Method} {response : GetResponseLargevalue}

theorem getStatPaddingBytes_eq (method : Method) : method.getStatPaddingBytes = 1 := by
  cases method <;> rfl

theorem length_frontBytes (large : 128 < response.val.length) (seqBytes : List UInt8) :
    (response.frontBytes method seqBytes).length =
      method.getOphdrsize + (4 + response.val.length) + seqBytes.length + 1 + 2 := by
  have stat : (boolByte response.stat).length = 1 := rfl
  simp only [frontBytes, List.length_append, Ophdr.length_bytes, Val.length_largeBytes, getPaddingSize_large large,
    length_bigEndian, stat]
  omega

theorem writes_dynamicSerializeStat (buf : DynamicArray) (tmpoff : Nat) :
    Writes buf tmpoff (boolByte response.stat ++ bigEndian 2 response.nodeidxForeval.toNat)
      (response.dynamicSerializeStat method buf tmpoff) (·, tmpoff + 1 + 2 + method.getStatPaddingBytes) := by
  unfold dynamicSerializeStat
  refine (writes_dynamicMemcpy _ _ _).bind fun _ _ => ?_
  exact (writes_dynamicMemcpy _ _ _).finish (·, tmpoff + 1 + 2 + method.getStatPaddingBytes)

def dynamicSerializeFront (method : Method) (response : GetResponseLargevalue) (buf : DynamicArray) :
    Option (DynamicArray × Nat) := do
  let (buf, tmpoff) ← response.hdr.dynamicSerializeOphdr method buf
  let (buf, tmpValsize) ← response.val.dynamicSerializeLarge buf tmpoff
  response.dynamicSerializeStat method buf (tmpoff + tmpValsize)

theorem dynamicSerialize_eq (buf : DynamicArray) :
    response.dynamicSerialize method buf =
      (response.dynamicSerializeFront method buf).bind fun front => response.dynamicSerializeLoads method
        front.1 front.2 := by
  simp only [dynamicSerialize, dynamicSerializeFront, Option.bind_eq_bind, Option.bind_assoc]

theorem writes_dynamicSerializeFront (large : 128 < response.val.length) (buf : DynamicArray) :
    Writes buf 0 (response.frontBytes method []) (response.dynamicSerializeFront method buf)
      (·, (response.frontBytes method []).length + method.getStatPaddingBytes) := by
  rw [length_frontBytes large]
  unfold frontBytes dynamicSerializeFront
  refine (Ophdr.writes_dynamicSerializeOphdr _ _ _).bind fun _ _ => ?_
  rw [Ophdr.length_bytes, Nat.zero_add]
  refine (Val.writes_dynamicSerializeLarge _ _ _).bind fun _ _ => ?_
  rw [Val.length_largeBytes, getPaddingSize_large large]
  exact writes_dynamicSerializeStat _ _

theorem copyInto_of_fits {data bytes : List UInt8} {off : Nat} (fits : off + bytes.length ≤ data.length) :
    copyInto data off bytes = some (overwrite data off bytes) := if_pos fits

theorem serializeStat_of_fits {data : List UInt8} {begin : Nat} (fits : begin + 3 ≤ data.length) :
    response.serializeStat method data begin =
      some (overwrite data begin (boolByte response.stat ++ bigEndian 2 response.nodeidxForeval.toNat),
        begin + 1 + 2 + method.getStatPaddingBytes) := by
  have stat : (boolByte response.stat).length = 1 := rfl
  unfold serializeStat
  rw [copyInto_of_fits (by omega), Option.bind_eq_bind, Option.bind_some,
    copyInto_of_fits (by rw [length_overwrite, length_bigEndian]; omega), ← overwrite_overwrite, stat]
  rfl

theorem serializeLoads_of_fits {data : List UInt8} {begin : Nat}
    (fits : method = .distcache → begin + 4 + 4 ≤ data.length) :
    response.serializeLoads method data begin =
      some (overwrite data begin (response.loadBytes method), begin + (response.loadBytes method).length) := by
  unfold serializeLoads loadBytes
  split
  · rename_i distcache
    have room := fits distcache
    rw [copyInto_of_fits (by rw [length_bigEndian]; omega), Option.bind_eq_bind, Option.bind_some,
      copyInto_of_fits (by rw [length_overwrite, length_bigEndian]; omega), ← overwrite_overwrite, List.length_append,
      length_bigEndian, length_bigEndian]
    rfl
  · rw [overwrite_nil]
    rfl

/-- What the copies into the buffer amount to before the padding. -/
theorem overwrite_frontBytes (data : List UInt8) (large : 128 < response.val.length) (seqBytes : List UInt8) :
    overwrite (overwrite (overwrite (overwrite data 0 (response.hdr.bytes method)) method.getOphdrsize
      response.val.largeBytes) (method.getOphdrsize + (4 + response.val.length)) seqBytes)
      (method.getOphdrsize + (4 + response.val.length) + seqBytes.length)
      (boolByte response.stat ++ bigEndian 2 response.nodeidxForeval.toNat) =
    overwrite data 0 (response.frontBytes method seqBytes) := by
  rw [overwrite_overwrite, frontBytes, ← overwrite_overwrite data, Ophdr.length_bytes, Nat.zero_add,
    ← overwrite_overwrite (overwrite data 0 (response.hdr.bytes method)), Val.length_largeBytes,
    getPaddingSize_large large, Nat.add_zero]

/-- The fixed-buffer encoder, in a buffer with room for the packet. -/
theorem serialize_of_fits {data : List UInt8} (large : 128 < response.val.length) (bounded : data.length < 2 ^ 32)
    (fits : response.extent method ≤ data.length) :
    response.serialize method data data.length =
      some (overwrite (overwrite data 0 (response.frontBytes method []))
          ((response.frontBytes method []).length + method.getStatPaddingBytes) (response.loadBytes method),
        (response.frontBytes method []).length + method.getStatPaddingBytes +
          (response.loadBytes method).length) := by
  have length := @length_frontBytes method response large []
  rw [List.length_nil] at length
  have padding := getStatPaddingBytes_eq method
  have room : (response.frontBytes method []).length ≤ data.length ∧
      (method = .distcache → (response.frontBytes method []).length + method.getStatPaddingBytes + 4 + 4 ≤
        data.length) := by
    unfold extent at fits
    split at fits
    · exact ⟨by omega, fun _ => fits⟩
    · rename_i other
      exact ⟨fits, fun distcache => absurd distcache other⟩
  have sized : size method ≤ data.length := by
    unfold size
    split
    · have behind := room.2 (by assumption)
      omega
    · omega
  have hdrFits : method.getOphdrsize ≤ data.length := by omega
  have valFits : 4 + response.val.length + Val.getPaddingSize response.val.length ≤
      data.length - method.getOphdrsize := by
    rw [getPaddingSize_large large]
    omega
  have front := @overwrite_frontBytes method response data large []
  rw [overwrite_nil, List.length_nil, Nat.add_zero] at front
  unfold serialize
  simp only [guard, sized, if_true, Ophdr.serializeOphdr, hdrFits, Option.pure_def, Option.bind_eq_bind,
    Option.bind_some, Ophdr.length_bytes, bytesLeft_eq hdrFits bounded, Val.serializeLarge, valFits]
  rw [copyInto_of_fits (by rw [Ophdr.length_bytes]; omega), Option.bind_some, copyInto_of_fits (by
    rw [length_overwrite, Val.length_largeBytes]; omega), Option.bind_some, Val.length_largeBytes,
    getPaddingSize_large large, Nat.add_zero, serializeStat_of_fits (by simp only [length_overwrite]; omega),
    Option.bind_some, front, ← length]
  refine serializeLoads_of_fits fun distcache => ?_
  rw [length_overwrite]
  exact room.2 distcache

end Encoders

theorem constructed_of_make (method : Method) {globalswitchidx : UInt16} {key : Key} {val : Val} {stat : Bool}
    {nodeidxForeval : UInt16} {response : GetResponseLargevalue}
    (made : make globalswitchidx key val stat nodeidxForeval = some response) : response.Constructed method := by
  unfold make at made
  by_cases large : 128 < val.length
  · simp only [guard, large, if_true, Option.pure_def, Option.bind_eq_bind, Option.bind_some, Option.some.injEq]
      at made
    subst made
    exact ⟨rfl, large, fun _ => ⟨rfl, rfl⟩⟩
  · simp [guard, large] at made

section Decoder

variable {method : Method} {response : GetResponseLargevalue} {data : List UInt8} {recvSize : Nat}

theorem statAt_of_holds {off : Nat}
    (holds : Holds data off (boolByte response.stat ++ bigEndian 2 response.nodeidxForeval.toNat)) :
    statAt data off = some (response.stat, response.nodeidxForeval) := by
  rw [holds_append] at holds
  have statRead := holds.1.readAt (show (boolByte response.stat).length = 1 from rfl) (by decide)
  have nodeRead := holds.2.readAt (length_bigEndian _ _) (by decide)
  have statBack : (ofLittleEndian (boolByte response.stat) != 0) = response.stat := by
    cases response.stat <;> rfl
  change readAt data (off + 1) 2 = _ at nodeRead
  simp only [statAt, statRead, nodeRead, Option.bind_eq_bind, Option.bind_some, statBack, toUInt16_ofBigEndian]

theorem loadsAt_of_holds {off : Nat} (loads : method ≠ .distcache → response.spineload = 0 ∧ response.leafload = 0)
    (holds : Holds data off (response.loadBytes method)) :
    loadsAt method data off = some (response.spineload, response.leafload) := by
  unfold loadBytes at holds
  unfold loadsAt
  split
  · rename_i distcache
    rw [if_pos distcache, holds_append, length_bigEndian] at holds
    have spineRead := holds.1.readAt (length_bigEndian _ _) (by decide)
    have leafRead := holds.2.readAt (length_bigEndian _ _) (by decide)
    simp only [spineRead, leafRead, Option.bind_eq_bind, Option.bind_some, toUInt32_ofBigEndian]
  · rename_i other
    rw [(loads other).1, (loads other).2]

theorem front_of_holds {seqBytes : List UInt8} (large : 128 < response.val.length)
    (holds : Holds data 0 (response.frontBytes method seqBytes)) :
    Holds data 0 (response.hdr.bytes method) ∧ Holds data method.getOphdrsize response.val.largeBytes ∧
      Holds data (method.getOphdrsize + (4 + response.val.length)) seqBytes ∧
      Holds data (method.getOphdrsize + (4 + response.val.length) + seqBytes.length)
        (boolByte response.stat ++ bigEndian 2 response.nodeidxForeval.toNat) := by
  rw [frontBytes, holds_append, holds_append, holds_append, Ophdr.length_bytes, Nat.zero_add, Val.length_largeBytes,
    getPaddingSize_large large, Nat.add_zero] at holds
  exact holds

theorem head_of_holds {seqBytes : List UInt8} (large : 128 < response.val.length) (bounded : recvSize < 2 ^ 32)
    (holds : Holds data 0 (response.frontBytes method seqBytes))
    (long : (response.frontBytes method seqBytes).length ≤ recvSize) :
    Ophdr.deserializeOphdr method data recvSize = some (response.hdr.received method, method.getOphdrsize) ∧
      Val.deserializeLarge data method.getOphdrsize (bytesLeft recvSize method.getOphdrsize) =
        some (response.val, 4 + response.val.length) := by
  obtain ⟨hdr, val, _⟩ := front_of_holds large holds
  rw [length_frontBytes large] at long
  have valLength : response.val.largeBytes.length = 4 + response.val.length := by
    rw [Val.length_largeBytes, getPaddingSize_large large, Nat.add_zero]
  have valRead := @Val.deserializeLarge_of_holds _ _ _ (recvSize - method.getOphdrsize) (by omega) val
    (by rw [valLength]; omega)
  rw [valLength] at valRead
  rw [bytesLeft_eq (by omega) bounded]
  exact ⟨Ophdr.deserializeOphdr_of_holds hdr (by omega), valRead⟩

theorem ofData_of_holds (made : response.Constructed method) (bounded : recvSize < 2 ^ 32)
    (holds : Holds data 0 (response.frontBytes method []))
    (loads : Holds data ((response.frontBytes method []).length + method.getStatPaddingBytes)
      (response.loadBytes method))
    (long : (response.frontBytes method []).length + method.getStatPaddingBytes + (response.loadBytes method).length ≤
      recvSize) :
    ofData method data recvSize = some (response.received method) := by
  have length := @length_frontBytes method response made.large []
  have large := made.large
  rw [List.length_nil, Nat.add_zero] at length
  obtain ⟨hdrRead, valRead⟩ := @head_of_holds _ _ _ recvSize [] made.large bounded holds (by omega)
  have statRead := statAt_of_holds (front_of_holds made.large holds).2.2.2
  rw [List.length_nil, Nat.add_zero] at statRead
  have loadsRead := loadsAt_of_holds made.loads loads
  rw [length] at loadsRead
  have loadsLength : (response.loadBytes method).length = if method = .distcache then 4 + 4 else 0 := by
    unfold loadBytes
    split <;> simp
  have sized : size method ≤ recvSize := by
    unfold size
    rw [← loadsLength]
    omega
  simp only [ofData, deserialize, guard, sized, if_true, hdrRead, valRead, statRead, loadsRead, Ophdr.received_type,
    made.type, made.large, Option.pure_def, Option.bind_eq_bind, Option.bind_some, received]

end Decoder

end GetResponseLargevalue

namespace GetResponseLargevalueSeq

open GetResponseLargevalue

theorem constructed_of_make {method : Method} {globalswitchidx : UInt16} {key : Key} {val : Val} {seq : UInt32}
    {stat : Bool} {nodeidxForeval : UInt16} {response : GetResponseLargevalueSeq}
    (made : make method globalswitchidx key val seq stat nodeidxForeval = some response) :
    response.Constructed method := by
  unfold make at made
  by_cases large : 128 < val.length
  · by_cases used : method = .farreach ∨ method = .distfarreach
    · simp only [guard, large, used, if_true, Option.pure_def, Option.bind_eq_bind, Option.bind_some,
        Option.some.injEq] at made
      subst made
      exact ⟨used, rfl, large, rfl, rfl⟩
    · simp [guard, used] at made
  · simp [guard, large] at made

variable {method : Method} {response : GetResponseLargevalueSeq}

def bytes (method : Method) (response : GetResponseLargevalueSeq) : List UInt8 :=
  response.frontBytes method (bigEndian 4 response.seq.toNat)

theorem length_bytes (large : 128 < response.val.length) :
    (response.bytes method).length = method.getOphdrsize + (4 + response.val.length) + 4 + 1 + 2 := by
  rw [bytes, length_frontBytes large, length_bigEndian]

theorem writes_dynamicSerialize (large : 128 < response.val.length) (buf : DynamicArray) :
    Writes buf 0 (response.bytes method) (response.dynamicSerialize method buf)
      (·, (response.bytes method).length + method.getStatPaddingBytes) := by
  rw [length_bytes large]
  unfold bytes frontBytes dynamicSerialize
  refine (Ophdr.writes_dynamicSerializeOphdr _ _ _).bind fun _ _ => ?_
  rw [Ophdr.length_bytes, Nat.zero_add]
  refine (Val.writes_dynamicSerializeLarge _ _ _).bind fun _ _ => ?_
  rw [Val.length_largeBytes, getPaddingSize_large large]
  refine (writes_dynamicMemcpy _ _ _).bind fun _ _ => ?_
  rw [length_bigEndian]
  exact writes_dynamicSerializeStat _ _

theorem serialize_of_fits {data : List UInt8} (large : 128 < response.val.length) (bounded : data.length < 2 ^ 32)
    (fits : (response.bytes method).length ≤ data.length) :
    response.serialize method data data.length =
      some (overwrite data 0 (response.bytes method), (response.bytes method).length +
        method.getStatPaddingBytes) := by
  have length := @length_bytes method response large
  have padding := getStatPaddingBytes_eq method
  have sized : size method ≤ data.length := by
    unfold size
    omega
  have hdrFits : method.getOphdrsize ≤ data.length := by omega
  have valFits : 4 + response.val.length + Val.getPaddingSize response.val.length ≤
      data.length - method.getOphdrsize := by
    rw [getPaddingSize_large large]
    omega
  have front := @overwrite_frontBytes method _ data large (bigEndian 4 response.seq.toNat)
  rw [length_bigEndian] at front
  unfold serialize
  simp only [guard, sized, if_true, Ophdr.serializeOphdr, hdrFits, Option.pure_def, Option.bind_eq_bind,
    Option.bind_some, Ophdr.length_bytes, bytesLeft_eq hdrFits bounded, Val.serializeLarge, valFits]
  rw [copyInto_of_fits (by rw [Ophdr.length_bytes]; omega), Option.bind_some,
    copyInto_of_fits (by rw [length_overwrite, Val.length_largeBytes]; omega), Option.bind_some,
    Val.length_largeBytes, getPaddingSize_large large, Nat.add_zero,
    copyInto_of_fits (by simp only [length_overwrite, length_bigEndian]; omega), Option.bind_some,
    serializeStat_of_fits (by simp only [length_overwrite]; omega), front, length]
  rfl

theorem ofData_of_holds {data : List UInt8} {recvSize : Nat} (made : response.Constructed method)
    (bounded : recvSize < 2 ^ 32) (holds : Holds data 0 (response.bytes method))
    (long : (response.bytes method).length + method.getStatPaddingBytes ≤ recvSize) :
    ofData method data recvSize = some (response.received method) := by
  have length := @length_bytes method response made.large
  have large := made.large
  have front : Holds data 0 (response.frontBytes method (bigEndian 4 response.seq.toNat)) := holds
  obtain ⟨_, _, seq, stat⟩ := front_of_holds made.large front
  obtain ⟨hdrRead, valRead⟩ := @head_of_holds _ _ _ recvSize _ made.large bounded front (by
    change (response.bytes method).length ≤ recvSize
    omega)
  have seqRead := seq.readAt (length_bigEndian _ _) (by decide)
  have statRead := statAt_of_holds stat
  rw [length_bigEndian] at statRead
  have loads : ∀ off, loadsAt method data off = some (response.spineload, response.leafload) := by
    intro off
    rw [loadsAt, made.loads.1, made.loads.2, if_neg]
    rcases made.method with rfl | rfl <;> decide
  have sized : size method ≤ recvSize := by
    unfold size
    omega
  simp only [ofData, deserialize, guard, made.method, sized, if_true, hdrRead, valRead, seqRead, statRead, loads,
    Ophdr.received_type, made.type, made.large, toUInt32_ofBigEndian, Option.pure_def, Option.bind_eq_bind,
    Option.bind_some, received]

end GetResponseLargevalueSeq

section Lengths

variable {method : Method} {buf : DynamicArray} {data : List UInt8}

/-- The encoders are functions: there is one array, one buffer and one size to compare. -/
theorem ResponseCodec.Delivers.reportsLength_iff {Response : Type} {codec : ResponseCodec Response}
    {response arrives : Response} {after : DynamicArray} {written : List UInt8} {size : Nat}
    (delivers : codec.Delivers response arrives buf data after written size) :
    codec.ReportsLength response arrives buf data ↔
      size = after.cursize ∧ after.array.take size = written.take size := by
  constructor
  · rintro ⟨otherAfter, otherWritten, otherSize, other, same⟩
    have sameArray := other.dynamicSerialize
    have sameBuffer := other.serialize
    rw [delivers.dynamicSerialize] at sameArray
    rw [delivers.serialize] at sameBuffer
    cases sameArray
    cases sameBuffer
    exact same
  · exact fun same => ⟨after, written, size, delivers, same⟩

theorem take_of_holds {array bytes : List UInt8} (holds : Holds array 0 bytes) : array.take bytes.length = bytes := by
  obtain ⟨rest, rfl⟩ := holds_zero_iff.mp holds
  exact List.take_left' rfl

theorem GetResponseLargevalue.length_loadBytes_distcache {response : GetResponseLargevalue} :
    (response.loadBytes .distcache).length = 4 + 4 := by
  rw [loadBytes, if_pos rfl, List.length_append, length_bigEndian, length_bigEndian]

/-- With a number, both encoders deliver, and the returned size is one more than the size of the array. -/
theorem GetResponseLargevalueSeq.delivers {response : GetResponseLargevalueSeq} (made : response.Constructed method)
    (arrayFits : (response.bytes method).length ≤ buf.maxcapability) (bounded : data.length < 2 ^ 32)
    (fits : (response.bytes method).length ≤ data.length) :
    ∃ after written, (codec method).Delivers response (response.received method) buf data after written
      (after.cursize + method.getStatPaddingBytes) := by
  have small := buf.bounded
  have padding := GetResponseLargevalue.getStatPaddingBytes_eq method
  obtain ⟨after, dynamic, wrote⟩ := (@writes_dynamicSerialize method response made.large buf.clear).1 (by
    rw [Nat.zero_add]
    exact arrayFits)
  have cursize : after.cursize = (response.bytes method).length := by
    rw [wrote.cursize, Nat.zero_add]
    exact Nat.zero_max _
  have held : Holds (overwrite data 0 (response.bytes method)) 0 (response.bytes method) := holds_overwrite (by omega)
  refine ⟨after, overwrite data 0 (response.bytes method), ?_⟩
  rw [cursize]
  exact ⟨dynamic, serialize_of_fits made.large bounded fits, ofData_of_holds made (by omega) wrote.holds le_rfl,
    ofData_of_holds made (by omega) held le_rfl⟩

/-- Without DistCache's loads the same holds of a response without a number. -/
theorem GetResponseLargevalue.delivers {response : GetResponseLargevalue} (made : response.Constructed method)
    (other : method ≠ .distcache) (arrayFits : response.extent method ≤ buf.maxcapability)
    (bounded : data.length < 2 ^ 32) (fits : response.extent method ≤ data.length) :
    ∃ after written, (codec method).Delivers response (response.received method) buf data after written
      (after.cursize + method.getStatPaddingBytes) := by
  have small := buf.bounded
  have padding := getStatPaddingBytes_eq method
  have noLoads : response.loadBytes method = [] := if_neg other
  have written := serialize_of_fits made.large bounded fits
  rw [extent, if_neg other] at arrayFits fits
  obtain ⟨after, dynamic, wrote⟩ := (@writes_dynamicSerializeFront method response made.large buf.clear).1 (by
    rw [Nat.zero_add]
    exact arrayFits)
  have cursize : after.cursize = (response.frontBytes method []).length := by
    rw [wrote.cursize, Nat.zero_add]
    exact Nat.zero_max _
  have held : Holds (overwrite data 0 (response.frontBytes method [])) 0 (response.frontBytes method []) :=
    holds_overwrite (by omega)
  have nothing : ∀ array off, Holds array off (response.loadBytes method) := by
    intro array off
    rw [noLoads]
    exact nofun
  have none : (response.loadBytes method).length = 0 := by rw [noLoads, List.length_nil]
  rw [none, Nat.add_zero, noLoads, overwrite_nil] at written
  refine ⟨after, overwrite data 0 (response.frontBytes method []), ?_⟩
  rw [cursize]
  refine ⟨?_, written, ofData_of_holds made (by omega) wrote.holds (nothing _ _) (by omega),
    ofData_of_holds made (by omega) held (nothing _ _) (by omega)⟩
  change response.dynamicSerialize method buf.clear = _
  rw [dynamicSerialize_eq, dynamic, Option.bind_some, dynamicSerializeLoads, if_neg other]

/-- In DistCache the loads follow the padding, so that the array counts it, with a byte of 0. -/
theorem GetResponseLargevalue.dynamicSerialize_distcache {response : GetResponseLargevalue} {front : List UInt8}
    (large : 128 < response.val.length) (isFront : response.frontBytes .distcache [] = front)
    (fits : front.length + 1 + 4 + 4 ≤ buf.maxcapability) :
    ∃ after, response.dynamicSerialize .distcache buf.clear = some (after, after.cursize) ∧
      after.cursize = front.length + 1 + (4 + 4) ∧ Holds after.array 0 front ∧ Holds after.array front.length [0] ∧
      Holds after.array (front.length + 1) (response.loadBytes .distcache) := by
  obtain ⟨middle, dynamic, wrote⟩ := (@writes_dynamicSerializeFront .distcache response large buf.clear).1 (by
    rw [isFront, Nat.zero_add]
    change _ ≤ buf.maxcapability
    omega)
  rw [isFront] at dynamic wrote
  have capability : middle.maxcapability = buf.maxcapability := wrote.maxcapability
  have zeroed := wrote.zeroed (zeroed_clear buf)
  have cursize : middle.cursize = front.length := by
    rw [wrote.cursize, Nat.zero_add]
    exact Nat.zero_max _
  obtain ⟨spined, spine, wroteSpine⟩ := (writes_dynamicMemcpy middle (front.length + 1)
    (bigEndian 4 response.spineload.toNat)).1 (by rw [length_bigEndian]; omega)
  have room := wroteSpine.fits
  have gap := wroteSpine.zeros zeroed front.length cursize.le (by omega) (Or.inl (Nat.lt_succ_self _))
  have spinedCapability := wroteSpine.maxcapability
  obtain ⟨after, leaf, wroteLeaf⟩ := (writes_dynamicMemcpy spined (front.length + 1 + 4)
    (bigEndian 4 response.leafload.toNat)).1 (by rw [length_bigEndian]; omega)
  have wroteLoads : Wrote middle (front.length + 1) (response.loadBytes .distcache) after := by
    rw [loadBytes, if_pos rfl]
    refine wroteSpine.append ?_
    rw [length_bigEndian]
    exact wroteLeaf
  have total : after.cursize = front.length + 1 + (4 + 4) := by
    rw [wroteLoads.cursize, cursize, length_loadBytes_distcache]
    omega
  refine ⟨after, ?_, total, wroteLoads.frame _ _ wrote.holds (Or.inl (by omega)),
    wroteLeaf.frame _ _ (holds_singleton_iff.mpr gap) (Or.inl (by simp)), wroteLoads.holds⟩
  rw [dynamicSerialize_eq, dynamic, Option.bind_some, dynamicSerializeLoads, if_pos rfl, total]
  change (middle.dynamicMemcpy (front.length + 1) (bigEndian 4 response.spineload.toNat)).bind _ = _
  rw [spine, Option.bind_some]
  change (spined.dynamicMemcpy (front.length + 1 + 4) (bigEndian 4 response.leafload.toNat)).bind _ = _
  rw [leaf, Option.bind_some]
  rfl

/-- The caller's buffer keeps its byte between the front and the loads. -/
theorem GetResponseLargevalue.holds_serialized {front loads : List UInt8} {byte : UInt8}
    (fits : front.length + 1 + loads.length ≤ data.length) (old : data[front.length]? = some byte) :
    Holds (overwrite (overwrite data 0 front) (front.length + 1) loads) 0 front ∧
      Holds (overwrite (overwrite data 0 front) (front.length + 1) loads) front.length [byte] ∧
      Holds (overwrite (overwrite data 0 front) (front.length + 1) loads) (front.length + 1) loads := by
  refine ⟨?_, ?_, ?_⟩
  · exact (holds_overwrite (by omega)).overwrite (Or.inl (by omega))
  · exact ((holds_singleton_iff.mpr old).overwrite (Or.inr (by omega))).overwrite (Or.inl (by simp))
  · exact holds_overwrite (by rw [length_overwrite]; omega)

theorem take_of_holds_parts {array front back : List UInt8} {byte : UInt8} (first : Holds array 0 front)
    (between : Holds array front.length [byte]) (last : Holds array (front.length + 1) back) :
    array.take (front.length + 1 + back.length) = front ++ ([byte] ++ back) := by
  have whole : Holds array 0 (front ++ ([byte] ++ back)) := by
    rw [holds_append, holds_append, Nat.zero_add]
    exact ⟨first, between, last⟩
  rw [← take_of_holds whole, List.length_append, List.length_append, List.length_singleton, Nat.add_assoc]

/-- So in DistCache the sizes agree, and the bytes but for the one at the padding. -/
theorem GetResponseLargevalue.delivers_distcache {response : GetResponseLargevalue} {byte : UInt8}
    (made : response.Constructed .distcache) (arrayFits : response.extent .distcache ≤ buf.maxcapability)
    (bounded : data.length < 2 ^ 32) (fits : response.extent .distcache ≤ data.length)
    (old : data[(response.frontBytes .distcache []).length]? = some byte) :
    ∃ after written, (codec .distcache).Delivers response (response.received .distcache) buf data after written
        after.cursize ∧
      after.array.take after.cursize = response.frontBytes .distcache [] ++ ([0] ++ response.loadBytes .distcache) ∧
      written.take after.cursize = response.frontBytes .distcache [] ++
        ([byte] ++ response.loadBytes .distcache) := by
  have small := buf.bounded
  have written := serialize_of_fits made.large bounded fits
  have loads : (response.loadBytes .distcache).length = 4 + 4 := length_loadBytes_distcache
  have padding : Method.getStatPaddingBytes .distcache = 1 := rfl
  rw [extent, if_pos rfl] at arrayFits fits
  rw [loads] at written
  generalize isFront : response.frontBytes .distcache [] = front at *
  rw [padding] at arrayFits fits written
  obtain ⟨after, dynamic, total, frontHeld, gap, behind⟩ := dynamicSerialize_distcache made.large isFront arrayFits
  obtain ⟨heldFront, heldOld, heldLoads⟩ :=
    @holds_serialized _ front (response.loadBytes .distcache) byte (by omega) old
  have ofArray := take_of_holds_parts frontHeld gap behind
  have ofBuffer := take_of_holds_parts heldFront heldOld heldLoads
  rw [loads, ← total] at ofArray ofBuffer
  have decodes : ∀ {array : List UInt8}, Holds array 0 front →
      Holds array (front.length + 1) (response.loadBytes .distcache) →
      ofData .distcache array after.cursize = some (response.received .distcache) := by
    intro array first last
    refine ofData_of_holds made (by omega) ?_ ?_ ?_ <;> rw [isFront]
    · exact first
    · exact last
    · rw [loads, total, padding]
  refine ⟨after, _, ⟨dynamic, ?_, decodes frontHeld behind, decodes heldFront heldLoads⟩, ofArray, ofBuffer⟩
  rw [total]
  exact written

end Lengths

/-- Both classes, every method: both encoders return the same size, and the decoder gets the response from either. The
size is that of the array, and the bytes are the same, exactly in DistCache and without a number, if the byte of the
caller's buffer at the padding is 0 already. -/
theorem getres_largevalue_length_iff (method : Method) (buf : DynamicArray) (data : List UInt8)
    (bounded : data.length < 2 ^ 32) :
    (∀ response : GetResponseLargevalue, response.Constructed method → response.extent method ≤ buf.maxcapability →
      response.extent method ≤ data.length →
      (∃ after written size, (GetResponseLargevalue.codec method).Delivers response
        (response.received method) buf data after written size) ∧
      ((GetResponseLargevalue.codec method).ReportsLength response (response.received method) buf data ↔
        method = .distcache ∧ data[method.getOphdrsize + (4 + response.val.length) + 1 + 2]? = some 0)) ∧
    ∀ response : GetResponseLargevalueSeq, response.Constructed method →
      (response.bytes method).length ≤ buf.maxcapability → (response.bytes method).length ≤ data.length →
      (∃ after written size, (GetResponseLargevalueSeq.codec method).Delivers response
        (response.received method) buf data after written size) ∧
      ¬ (GetResponseLargevalueSeq.codec method).ReportsLength response (response.received method) buf data := by
  have padding := GetResponseLargevalue.getStatPaddingBytes_eq method
  refine ⟨fun response made arrayFits fits => ?_, fun response made arrayFits fits => ?_⟩
  · have length := @GetResponseLargevalue.length_frontBytes method response made.large []
    rw [List.length_nil, Nat.add_zero] at length
    by_cases distcache : method = .distcache
    · subst distcache
      have inside : (response.frontBytes .distcache []).length < data.length := by
        rw [GetResponseLargevalue.extent, if_pos rfl] at fits
        omega
      obtain ⟨after, written, delivers, ofArray, ofBuffer⟩ :=
        GetResponseLargevalue.delivers_distcache made arrayFits bounded fits (List.getElem?_eq_getElem inside)
      refine ⟨⟨_, _, _, delivers⟩, ?_⟩
      rw [delivers.reportsLength_iff, ofArray, ofBuffer, ← length, List.getElem?_eq_getElem inside]
      simp [eq_comm]
    · obtain ⟨after, written, delivers⟩ := GetResponseLargevalue.delivers made distcache arrayFits bounded fits
      refine ⟨⟨_, _, _, delivers⟩, ?_⟩
      rw [delivers.reportsLength_iff]
      exact ⟨fun same => by omega, fun both => absurd both.1 distcache⟩
  · obtain ⟨after, written, delivers⟩ := GetResponseLargevalueSeq.delivers made arrayFits bounded fits
    refine ⟨⟨_, _, _, delivers⟩, ?_⟩
    rw [delivers.reportsLength_iff]
    omega

theorem getres_largevalue_length_distcache :
    (GetResponseLargevalue.codec .distcache).ReportsLength
      ⟨.make .getresLargevalue ⟨1, 2, 3, 4⟩, List.replicate 129 7, true, 3, 5, 6⟩
      ⟨.make .getresLargevalue ⟨1, 2, 3, 4⟩, List.replicate 129 7, true, 3, 5, 6⟩
      (allocated 40960 8388608 (by decide) (by decide) (by decide)) (List.replicate 200 0) := by
  have large : 128 < (List.replicate 129 (7 : UInt8)).length := by
    rw [List.length_replicate]
    decide
  have extent : GetResponseLargevalue.extent .distcache
      ⟨.make .getresLargevalue ⟨1, 2, 3, 4⟩, List.replicate 129 7, true, 3, 5, 6⟩ = 167 := by
    rw [GetResponseLargevalue.extent, if_pos rfl, GetResponseLargevalue.length_frontBytes large]
    simp only [List.length_replicate]
    rfl
  have both := (getres_largevalue_length_iff .distcache (allocated 40960 8388608 (by decide) (by decide) (by decide))
    (List.replicate 200 0) (by rw [List.length_replicate]; decide)).1
    ⟨.make .getresLargevalue ⟨1, 2, 3, 4⟩, List.replicate 129 7, true, 3, 5, 6⟩
    ⟨rfl, large, fun other => absurd rfl other⟩ (by rw [extent]; change _ ≤ 8388608; decide)
    (by rw [extent, List.length_replicate]; decide)
  refine both.2.mpr ⟨rfl, ?_⟩
  exact List.getElem?_replicate_of_lt (by simp only [List.length_replicate]; decide)

/-- FarReach's response with 129 bytes fills 158 bytes of the array and returns 159; without a number, in a method
without loads, it is 154 and 155. -/
theorem getres_largevalue_length_short :
    (∃ after, GetResponseLargevalueSeq.dynamicSerialize .farreach
        ⟨⟨.make .getresLargevalueSeq ⟨1, 2, 3, 4⟩, List.replicate 129 7, true, 3, 0, 0⟩, 9⟩
        (allocated 40960 8388608 (by decide) (by decide) (by decide)) = some (after, 159) ∧ after.cursize = 158) ∧
    ∃ after, GetResponseLargevalue.dynamicSerialize .nocache
        ⟨.make .getresLargevalue ⟨1, 2, 3, 4⟩, List.replicate 129 7, true, 3, 0, 0⟩
        (allocated 40960 8388608 (by decide) (by decide) (by decide)) = some (after, 155) ∧ after.cursize = 154 := by
  have large : 128 < (List.replicate 129 (7 : UInt8)).length := by
    rw [List.length_replicate]
    decide
  constructor
  · have length := @GetResponseLargevalueSeq.length_bytes .farreach
      ⟨⟨.make .getresLargevalueSeq ⟨1, 2, 3, 4⟩, List.replicate 129 7, true, 3, 0, 0⟩, 9⟩ large
    simp only [List.length_replicate] at length
    obtain ⟨after, dynamic, wrote⟩ := (@GetResponseLargevalueSeq.writes_dynamicSerialize .farreach
      ⟨⟨.make .getresLargevalueSeq ⟨1, 2, 3, 4⟩, List.replicate 129 7, true, 3, 0, 0⟩, 9⟩ large
      (allocated 40960 8388608 (by decide) (by decide) (by decide))).1 (by rw [length]; change _ ≤ 8388608; decide)
    have cursize := wrote.cursize
    rw [length] at dynamic cursize
    exact ⟨after, dynamic, cursize⟩
  · have length := @GetResponseLargevalue.length_frontBytes .nocache
      ⟨.make .getresLargevalue ⟨1, 2, 3, 4⟩, List.replicate 129 7, true, 3, 0, 0⟩ large []
    simp only [List.length_replicate, List.length_nil] at length
    obtain ⟨after, dynamic, wrote⟩ := (@GetResponseLargevalue.writes_dynamicSerializeFront .nocache
      ⟨.make .getresLargevalue ⟨1, 2, 3, 4⟩, List.replicate 129 7, true, 3, 0, 0⟩ large
      (allocated 40960 8388608 (by decide) (by decide) (by decide))).1 (by rw [length]; change _ ≤ 8388608; decide)
    have cursize := wrote.cursize
    rw [length] at dynamic cursize
    refine ⟨after, ?_, cursize⟩
    rw [GetResponseLargevalue.dynamicSerialize_eq, dynamic]
    rfl

end FarReach
