import FarReach.FieldCodec

namespace FarReach

open Bytes DynamicArray

/-- The methods a deployment can run, `method_t` without INVALID_ID. -/
inductive Method where
  | farreach
  | nocache
  | netcache
  | distfarreach
  | distnocache
  | distcache
  deriving DecidableEq, Repr

namespace Method

def isSingleswitch : Method → Bool
  | farreach | nocache | netcache => true
  | distfarreach | distnocache | distcache => false

def getOphdrsize : Method → Nat
  | farreach | nocache | netcache => 2 + 16
  | distfarreach | distnocache => 2 + 2 + 16
  | distcache => 2 + 2 + 2 + 16

def getSplitPrevBytes : Method → Nat
  | farreach | nocache | netcache => 3
  | distfarreach | distnocache | distcache => 4

end Method

/-- The codes of the packet types the receivers tell apart. -/
def namedCodes : List UInt16 :=
  [0x02d0, 0x0032, 0x0042, 0x0052, 0x0082, 0x0092, 0x0310, 0x0300, 0x0350, 0x0360, 0x0080]

/-- `packet_type_t`: the large-value packets and the scan response by name, all others by code. -/
inductive PacketType where
  | putreqLargevalue
  | putreqLargevalueSeq
  | putreqLargevalueSeqCached
  | putreqLargevalueSeqCase3
  | putreqLargevalueSeqBeingevicted
  | putreqLargevalueSeqCase3Beingevicted
  | loadreq
  | getresLargevalue
  | getresLargevalueSeq
  | getresLargevalueServerSeq
  | scanresSplit
  | other (code : UInt16) (unnamed : code ∉ namedCodes)
  deriving DecidableEq, Repr

namespace PacketType

def code : PacketType → UInt16
  | putreqLargevalue => 0x02d0
  | putreqLargevalueSeq => 0x0032
  | putreqLargevalueSeqCached => 0x0042
  | putreqLargevalueSeqCase3 => 0x0052
  | putreqLargevalueSeqBeingevicted => 0x0082
  | putreqLargevalueSeqCase3Beingevicted => 0x0092
  | loadreq => 0x0310
  | getresLargevalue => 0x0300
  | getresLargevalueSeq => 0x0350
  | getresLargevalueServerSeq => 0x0360
  | scanresSplit => 0x0080
  | other code _ => code

def ofCode (code : UInt16) : PacketType :=
  if one : code = 0x02d0 then putreqLargevalue
  else if two : code = 0x0032 then putreqLargevalueSeq
  else if three : code = 0x0042 then putreqLargevalueSeqCached
  else if four : code = 0x0052 then putreqLargevalueSeqCase3
  else if five : code = 0x0082 then putreqLargevalueSeqBeingevicted
  else if six : code = 0x0092 then putreqLargevalueSeqCase3Beingevicted
  else if seven : code = 0x0310 then loadreq
  else if eight : code = 0x0300 then getresLargevalue
  else if nine : code = 0x0350 then getresLargevalueSeq
  else if ten : code = 0x0360 then getresLargevalueServerSeq
  else if eleven : code = 0x0080 then scanresSplit
  else other code (by
    simp [namedCodes, one, two, three, four, five, six, seven, eight, nine, ten, eleven])

@[simp] theorem ofCode_code (type : PacketType) : ofCode type.code = type := by
  cases type with
  | other code unnamed =>
    have apart := unnamed
    simp only [namedCodes, List.mem_cons, List.not_mem_nil, or_false, not_or] at apart
    obtain ⟨one, two, three, four, five, six, seven, eight, nine, ten, eleven⟩ := apart
    unfold PacketType.code ofCode
    rw [dif_neg one, dif_neg two, dif_neg three, dif_neg four, dif_neg five, dif_neg six, dif_neg seven,
      dif_neg eight, dif_neg nine, dif_neg ten, dif_neg eleven]
  | _ => rfl

def isPutreqLargevalueSeq : PacketType → Bool
  | putreqLargevalueSeq | putreqLargevalueSeqCached | putreqLargevalueSeqCase3 | putreqLargevalueSeqBeingevicted
  | putreqLargevalueSeqCase3Beingevicted => true
  | _ => false

def isSameOptype (type1 type2 : PacketType) : Bool :=
  if type1.isPutreqLargevalueSeq && type2.isPutreqLargevalueSeq then true else type1 == type2

/-- `optype_with_clientlogicalidx_list`: the large packets sent to a server. -/
def isPacketWithClientlogicalidx (type : PacketType) : Bool :=
  [putreqLargevalue, putreqLargevalueSeq, putreqLargevalueSeqCached, putreqLargevalueSeqCase3,
    putreqLargevalueSeqBeingevicted, putreqLargevalueSeqCase3Beingevicted, loadreq].contains type

def isPacketWithLargevalue (type : PacketType) : Bool :=
  [putreqLargevalue, putreqLargevalueSeq, putreqLargevalueSeqCached, putreqLargevalueSeqCase3,
    putreqLargevalueSeqBeingevicted, putreqLargevalueSeqCase3Beingevicted, loadreq, getresLargevalue,
    getresLargevalueSeq, getresLargevalueServerSeq].contains type

theorem isSameOptype_self (type : PacketType) : type.isSameOptype type = true := by
  unfold isSameOptype
  split
  · rfl
  · exact beq_self_eq_true type

theorem isSameOptype_iff {type1 type2 : PacketType} : type1.isSameOptype type2 = true ↔
    type1 = type2 ∨ type1.isPutreqLargevalueSeq = true ∧ type2.isPutreqLargevalueSeq = true := by
  unfold isSameOptype
  split
  · rename_i both
    rw [Bool.and_eq_true] at both
    exact iff_of_true rfl (Or.inr both)
  · rename_i notBoth
    rw [Bool.and_eq_true] at notBoth
    rw [beq_iff_eq]
    exact ⟨Or.inl, fun same => same.resolve_right notBoth⟩

theorem isSameOptype_symm {type1 type2 : PacketType} (same : type1.isSameOptype type2 = true) :
    type2.isSameOptype type1 = true := by
  rw [isSameOptype_iff] at same ⊢
  rcases same with rfl | both
  · exact Or.inl rfl
  · exact Or.inr both.symm

theorem isSameOptype_trans {type1 type2 type3 : PacketType} (first : type1.isSameOptype type2 = true)
    (second : type2.isSameOptype type3 = true) : type1.isSameOptype type3 = true := by
  rw [isSameOptype_iff] at first second ⊢
  rcases first with rfl | both
  · exact second
  · rcases second with rfl | bothNext
    · exact Or.inr both
    · exact Or.inr ⟨both.1, bothNext.2⟩

theorem isPacketWithClientlogicalidx_of_seq {type : PacketType} (seq : type.isPutreqLargevalueSeq = true) :
    type.isPacketWithClientlogicalidx = true := by
  cases type <;> first | rfl | cases seq

theorem isPacketWithLargevalue_of_clientlogicalidx {type : PacketType}
    (client : type.isPacketWithClientlogicalidx = true) : type.isPacketWithLargevalue = true := by
  cases type <;> first | rfl | simp [isPacketWithClientlogicalidx] at client

end PacketType

namespace Method

/-- The shadow type and the sequence header: a snapshot token follows the number in FarReach. -/
def seqHdrsize (method : Method) : Nat := 2 + 4 + if method = .farreach then 4 else 0

/-- `get_frag_hdrsize`: 0, with a warning, for a type it does not list. -/
def getFragHdrsize (method : Method) (type : PacketType) : Nat :=
  match type with
  | .putreqLargevalue | .loadreq => method.getOphdrsize + 2 + 4
  | .putreqLargevalueSeq | .putreqLargevalueSeqCached | .putreqLargevalueSeqCase3
  | .putreqLargevalueSeqBeingevicted | .putreqLargevalueSeqCase3Beingevicted =>
    method.getOphdrsize + method.seqHdrsize + 2 + 4
  | .getresLargevalue | .getresLargevalueSeq | .getresLargevalueServerSeq => method.getOphdrsize
  | .scanresSplit | .other _ _ => 0

/-- `get_frag_totalsize`: a switch widens the fragments of a PUT by the headers it adds. -/
def getFragTotalsize (method : Method) (type : PacketType) (fragMaxsize : Nat) : Nat :=
  if type.isPutreqLargevalueSeq then
    fragMaxsize + method.getFragHdrsize .putreqLargevalueSeq - method.getFragHdrsize .putreqLargevalue
  else fragMaxsize

end Method

theorem Method.getFragHdrsize_of_seq (method : Method) {type : PacketType} (seq : type.isPutreqLargevalueSeq = true) :
    method.getFragHdrsize type = method.getFragHdrsize .putreqLargevalueSeq := by
  cases type <;> first | rfl | cases seq

/-- Types that a server takes for the same have fragments of the same layout. -/
theorem Method.layout_of_sameOptype (method : Method) {type1 type2 : PacketType}
    (same : type1.isSameOptype type2 = true) (fragMaxsize : Nat) :
    method.getFragHdrsize type1 = method.getFragHdrsize type2 ∧
      method.getFragTotalsize type1 fragMaxsize = method.getFragTotalsize type2 fragMaxsize := by
  rcases PacketType.isSameOptype_iff.mp same with rfl | ⟨seq1, seq2⟩
  · exact ⟨rfl, rfl⟩
  · refine ⟨?_, ?_⟩
    · rw [method.getFragHdrsize_of_seq seq1, method.getFragHdrsize_of_seq seq2]
    · rw [Method.getFragTotalsize, Method.getFragTotalsize, if_pos seq1, if_pos seq2]

/-- The fields of `Packet`: what `op_hdr` carries. -/
structure Ophdr where
  type : PacketType
  globalswitchidx : UInt16
  spineswitchidx : UInt16
  leafswitchidx : UInt16
  key : Key
  deriving DecidableEq, Repr

namespace Ophdr

def make (type : PacketType) (key : Key) : Ophdr := ⟨type, 0, 0, 0, key⟩

def switchBytes (method : Method) (hdr : Ophdr) : List UInt8 :=
  if method.isSingleswitch then []
  else if method = .distcache then bigEndian 2 hdr.spineswitchidx.toNat ++ bigEndian 2 hdr.leafswitchidx.toNat
  else bigEndian 2 hdr.globalswitchidx.toNat

def bytes (method : Method) (hdr : Ophdr) : List UInt8 :=
  bigEndian 2 hdr.type.code.toNat ++ (hdr.switchBytes method ++ hdr.key.serialize)

def serializeOphdr (method : Method) (hdr : Ophdr) (maxSize : Nat) : Option (List UInt8) := do
  guard (method.getOphdrsize ≤ maxSize)
  some (hdr.bytes method)

def dynamicSerializeSwitchidxs (method : Method) (hdr : Ophdr) (buf : DynamicArray) (tmpoff : Nat) :
    Option (DynamicArray × Nat) :=
  if method.isSingleswitch then some (buf, tmpoff)
  else if method = .distcache then do
    let buf ← buf.dynamicMemcpy tmpoff (bigEndian 2 hdr.spineswitchidx.toNat)
    let buf ← buf.dynamicMemcpy (tmpoff + 2) (bigEndian 2 hdr.leafswitchidx.toNat)
    some (buf, tmpoff + 4)
  else do
    let buf ← buf.dynamicMemcpy tmpoff (bigEndian 2 hdr.globalswitchidx.toNat)
    some (buf, tmpoff + 2)

def dynamicSerializeOphdr (method : Method) (hdr : Ophdr) (buf : DynamicArray) : Option (DynamicArray × Nat) := do
  let buf ← buf.dynamicMemcpy 0 (bigEndian 2 hdr.type.code.toNat)
  let (buf, tmpoff) ← hdr.dynamicSerializeSwitchidxs method buf 2
  let (buf, tmpKeysize) ← hdr.key.dynamicSerialize buf tmpoff
  some (buf, tmpoff + tmpKeysize)

def deserializeHalf (data : List UInt8) (off recvSize : Nat) : Option UInt16 := do
  guard (off + 2 ≤ recvSize)
  let half ← readAt data off 2
  some (ofBigEndian half).toUInt16

/-- The switch indexes the method receives, and the offset behind them; the others stay 0. -/
def deserializeSwitchidxs (method : Method) (data : List UInt8) (recvSize : Nat) :
    Option (UInt16 × UInt16 × UInt16 × Nat) :=
  if method.isSingleswitch then some (0, 0, 0, 2)
  else if method = .distcache then do
    let spineswitchidx ← deserializeHalf data 2 recvSize
    let leafswitchidx ← deserializeHalf data 4 recvSize
    some (0, spineswitchidx, leafswitchidx, 6)
  else do
    let globalswitchidx ← deserializeHalf data 2 recvSize
    some (globalswitchidx, 0, 0, 4)

def deserializeOphdr (method : Method) (data : List UInt8) (recvSize : Nat) : Option (Ophdr × Nat) := do
  guard (method.getOphdrsize ≤ recvSize)
  let type ← deserializeHalf data 0 recvSize
  let (globalswitchidx, spineswitchidx, leafswitchidx, tmpoff) ← deserializeSwitchidxs method data recvSize
  let (key, tmpKeysize) ← Key.deserialize data tmpoff (recvSize - tmpoff)
  some (⟨.ofCode type, globalswitchidx, spineswitchidx, leafswitchidx, key⟩, tmpoff + tmpKeysize)

/-- What arrives of a header: the indexes the method does not send are 0. -/
def received (method : Method) (hdr : Ophdr) : Ophdr :=
  if method.isSingleswitch then { hdr with globalswitchidx := 0, spineswitchidx := 0, leafswitchidx := 0 }
  else if method = .distcache then { hdr with globalswitchidx := 0 }
  else { hdr with spineswitchidx := 0, leafswitchidx := 0 }

theorem length_bytes (method : Method) (hdr : Ophdr) : (hdr.bytes method).length = method.getOphdrsize := by
  cases method <;> simp [bytes, switchBytes, Method.isSingleswitch, Method.getOphdrsize]

theorem writes_dynamicSerializeSwitchidxs (method : Method) (hdr : Ophdr) {buf : DynamicArray} {tmpoff : Nat}
    (used : tmpoff ≤ buf.cursize) :
    Writes buf tmpoff (hdr.switchBytes method) (hdr.dynamicSerializeSwitchidxs method buf tmpoff)
      (·, tmpoff + (hdr.switchBytes method).length) := by
  unfold switchBytes dynamicSerializeSwitchidxs
  split
  · exact writes_nil used (·, tmpoff)
  · split
    · refine (writes_dynamicMemcpy _ _ _).bind fun _ _ => ?_
      rw [length_bigEndian]
      exact (writes_dynamicMemcpy _ _ _).finish (·, tmpoff + 4)
    · rw [length_bigEndian]
      exact (writes_dynamicMemcpy _ _ _).finish (·, tmpoff + 2)

theorem writes_dynamicSerializeOphdr (method : Method) (hdr : Ophdr) (buf : DynamicArray) :
    Writes buf 0 (hdr.bytes method) (hdr.dynamicSerializeOphdr method buf) (·, method.getOphdrsize) := by
  have size := length_bytes method hdr
  unfold bytes dynamicSerializeOphdr at *
  refine (writes_dynamicMemcpy _ _ _).bind fun after wrote => ?_
  have used : 2 ≤ after.cursize := by
    have cursize := wrote.cursize
    rw [length_bigEndian] at cursize
    omega
  rw [length_bigEndian]
  refine (writes_dynamicSerializeSwitchidxs method hdr used).bind fun switched _ => ?_
  have total : 2 + (hdr.switchBytes method).length + 16 = method.getOphdrsize := by
    simp only [List.length_append, length_bigEndian, Key.length_serialize] at size
    omega
  rw [← total]
  exact (Key.writes_dynamicSerialize hdr.key switched _).finish fun pair =>
    (pair.1, 2 + (hdr.switchBytes method).length + pair.2)

theorem deserializeHalf_of_holds {data : List UInt8} {off recvSize : Nat} {half : UInt16}
    (holds : Holds data off (bigEndian 2 half.toNat)) (long : off + 2 ≤ recvSize) :
    deserializeHalf data off recvSize = some half := by
  have read := holds.readAt (length_bigEndian _ _) (by decide)
  have back := toUInt16_ofBigEndian half
  simp [deserializeHalf, guard, long, read, back]

theorem deserializeSwitchidxs_of_holds {method : Method} {hdr : Ophdr} {data : List UInt8} {recvSize : Nat}
    (holds : Holds data 2 (hdr.switchBytes method)) (long : method.getOphdrsize ≤ recvSize) :
    deserializeSwitchidxs method data recvSize = some ((hdr.received method).globalswitchidx,
      (hdr.received method).spineswitchidx, (hdr.received method).leafswitchidx,
        2 + (hdr.switchBytes method).length) := by
  have one : 20 ≤ recvSize → Holds data 2 (bigEndian 2 hdr.globalswitchidx.toNat) →
      deserializeHalf data 2 recvSize = some hdr.globalswitchidx :=
    fun room held => deserializeHalf_of_holds held (by omega)
  cases method with
  | farreach | nocache | netcache => rfl
  | distfarreach | distnocache =>
    have read := one long holds
    simp [deserializeSwitchidxs, Method.isSingleswitch, read, received, switchBytes]
  | distcache =>
    have room : 22 ≤ recvSize := long
    obtain ⟨spine, leaf⟩ := holds_append.mp holds
    rw [length_bigEndian] at leaf
    have spineRead := deserializeHalf_of_holds spine (show 2 + 2 ≤ recvSize by omega)
    have leafRead := deserializeHalf_of_holds leaf (show 4 + 2 ≤ recvSize by omega)
    simp [deserializeSwitchidxs, Method.isSingleswitch, spineRead, leafRead, received, switchBytes]

theorem received_key (method : Method) (hdr : Ophdr) : (hdr.received method).key = hdr.key := by
  cases method <;> rfl

theorem received_type (method : Method) (hdr : Ophdr) : (hdr.received method).type = hdr.type := by
  cases method <;> rfl

theorem deserializeOphdr_of_holds {method : Method} {hdr : Ophdr} {data : List UInt8} {recvSize : Nat}
    (holds : Holds data 0 (hdr.bytes method)) (long : method.getOphdrsize ≤ recvSize) :
    deserializeOphdr method data recvSize = some (hdr.received method, method.getOphdrsize) := by
  have size := length_bytes method hdr
  simp only [bytes, holds_append, length_bigEndian, Nat.zero_add] at holds
  simp only [bytes, List.length_append, length_bigEndian, Key.length_serialize] at size
  obtain ⟨type, switches, key⟩ := holds
  have typeRead := deserializeHalf_of_holds type (show 0 + 2 ≤ recvSize by omega)
  have switchesRead := deserializeSwitchidxs_of_holds switches long
  have keyRead := Key.deserialize_of_holds key (show 16 ≤ recvSize - (2 + (hdr.switchBytes method).length) by omega)
  have total : 2 + (hdr.switchBytes method).length + 16 = method.getOphdrsize := by omega
  unfold deserializeOphdr
  simp only [guard, long, if_true, Option.pure_def, Option.bind_eq_bind, Option.bind_some, typeRead,
    switchesRead, keyRead, total, PacketType.ofCode_code]
  rw [← received_type method hdr, ← received_key method hdr]

end Ophdr

def getPacketType (data : List UInt8) : Option PacketType := do
  let type ← Ophdr.deserializeHalf data 0 data.length
  some (.ofCode type)

def getPacketKey (method : Method) (data : List UInt8) : Option Key := do
  let (key, _) ← Key.deserialize data (method.getOphdrsize - 16) (data.length - (method.getOphdrsize - 16))
  some key

def clientlogicalidxOff (method : Method) (type : PacketType) : Option Nat :=
  if type = .putreqLargevalue then some method.getOphdrsize
  else if type.isPutreqLargevalueSeq then some (method.getOphdrsize + method.seqHdrsize)
  else if type = .loadreq then some method.getOphdrsize
  else none

def getPacketClientlogicalidx (method : Method) (data : List UInt8) : Option UInt16 := do
  let type ← getPacketType data
  let prevbytes ← clientlogicalidxOff method type
  let idx ← readAt data prevbytes 2
  some (ofBigEndian idx).toUInt16

def getPacketFragseq (method : Method) (data : List UInt8) : Option UInt32 := do
  let type ← getPacketType data
  let prevbytes ← clientlogicalidxOff method type
  let fragseq ← readAt data (prevbytes + 2) 4
  some (ofBigEndian fragseq).toUInt32

theorem getPacketType_of_holds {method : Method} {hdr : Ophdr} {data : List UInt8}
    (holds : Holds data 0 (hdr.bytes method)) : getPacketType data = some hdr.type := by
  have long : 0 + (hdr.bytes method).length ≤ data.length := by
    refine holds.end_le (List.ne_nil_of_length_pos ?_)
    rw [Ophdr.length_bytes]
    cases method <;> decide
  rw [Ophdr.bytes, holds_append] at holds
  rw [Ophdr.length_bytes] at long
  have room : 0 + 2 ≤ data.length := by
    cases method <;> simp only [Method.getOphdrsize] at long <;> omega
  simp [getPacketType, Ophdr.deserializeHalf_of_holds holds.1 room]

theorem getPacketKey_of_holds {method : Method} {hdr : Ophdr} {data : List UInt8}
    (holds : Holds data 0 (hdr.bytes method)) : getPacketKey method data = some hdr.key := by
  have size := Ophdr.length_bytes method hdr
  have long : 0 + (hdr.bytes method).length ≤ data.length := by
    refine holds.end_le (List.ne_nil_of_length_pos ?_)
    rw [size]
    cases method <;> decide
  simp only [Ophdr.bytes, List.length_append, length_bigEndian, Key.length_serialize] at size
  rw [Ophdr.bytes, holds_append, holds_append, length_bigEndian] at holds
  have off : 0 + 2 + (hdr.switchBytes method).length = method.getOphdrsize - 16 := by omega
  have key := holds.2.2
  rw [off] at key
  rw [Ophdr.length_bytes] at long
  have read := Key.deserialize_of_holds key (show 16 ≤ data.length - (method.getOphdrsize - 16) by omega)
  simp [getPacketKey, read]

section Peek

variable {method : Method} {header data : List UInt8} (starts : header <+: data)
include starts

theorem getPacketType_of_starts (long : 2 ≤ header.length) : getPacketType data = getPacketType header := by
  have length := starts.length_le
  have read := readAt_of_starts starts (show 0 + 2 ≤ header.length by omega)
  unfold getPacketType Ophdr.deserializeHalf
  rw [read]
  simp [guard, show 2 ≤ data.length by omega, long]

theorem getPacketKey_of_starts (long : method.getOphdrsize ≤ header.length) :
    getPacketKey method data = getPacketKey method header := by
  have length := starts.length_le
  have ophdr : 18 ≤ method.getOphdrsize := by cases method <;> decide
  have read : ∀ off len, off + len ≤ 16 → readAt data (method.getOphdrsize - 16 + off) len =
      readAt header (method.getOphdrsize - 16 + off) len :=
    fun off len inside => readAt_of_starts starts (by omega)
  have first := read 0 4 (by decide)
  rw [Nat.add_zero] at first
  unfold getPacketKey Key.deserialize
  rw [first, read 4 4 (by decide), read 8 4 (by decide), read 12 2 (by decide), read 14 2 (by decide)]
  simp only [guard, show 16 ≤ data.length - (method.getOphdrsize - 16) by omega,
    show 16 ≤ header.length - (method.getOphdrsize - 16) by omega, if_true]

omit starts in
theorem clientlogicalidxOff_eq {type : PacketType} {off : Nat} (found : clientlogicalidxOff method type = some off) :
    off + 2 + 4 = method.getFragHdrsize type := by
  cases type <;> simp [clientlogicalidxOff, PacketType.isPutreqLargevalueSeq] at found <;>
    simp [Method.getFragHdrsize, ← found]

/-- A field behind the type-dependent offset is read from the header. -/
theorem readBehind_of_starts {α : Type} {type : PacketType} (isType : getPacketType header = some type)
    (long : 2 ≤ header.length) (size : header.length = method.getFragHdrsize type) {behind width : Nat}
    (inside : behind + width ≤ 2 + 4) (value : List UInt8 → α) :
    (do
      let type ← getPacketType data
      let prevbytes ← clientlogicalidxOff method type
      let bytes ← readAt data (prevbytes + behind) width
      some (value bytes)) =
    (do
      let type ← getPacketType header
      let prevbytes ← clientlogicalidxOff method type
      let bytes ← readAt header (prevbytes + behind) width
      some (value bytes)) := by
  rw [getPacketType_of_starts starts long, isType]
  simp only [Option.bind_eq_bind, Option.bind_some]
  cases found : clientlogicalidxOff method type with
  | none => rfl
  | some off =>
    have offset := clientlogicalidxOff_eq found
    rw [Option.bind_some, Option.bind_some, readAt_of_starts starts (by omega)]

theorem getPacketClientlogicalidx_of_starts {type : PacketType} (isType : getPacketType header = some type)
    (long : 2 ≤ header.length) (size : header.length = method.getFragHdrsize type) :
    getPacketClientlogicalidx method data = getPacketClientlogicalidx method header :=
  @readBehind_of_starts method header data starts UInt16 type isType long size 0 2 (by decide)
    fun idx => (ofBigEndian idx).toUInt16

theorem getPacketFragseq_of_starts {type : PacketType} (isType : getPacketType header = some type)
    (long : 2 ≤ header.length) (size : header.length = method.getFragHdrsize type) :
    getPacketFragseq method data = getPacketFragseq method header :=
  @readBehind_of_starts method header data starts UInt32 type isType long size 2 4 (by decide)
    fun fragseq => (ofBigEndian fragseq).toUInt32

end Peek

end FarReach
