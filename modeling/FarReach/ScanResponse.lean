import FarReach.PacketFormat
import FarReach.SnapshotSenddata

namespace FarReach

open Bytes DynamicArray

structure ScanResponseSplit where
  hdr : Ophdr
  endkey : Key
  curScanidx : UInt16
  maxScannum : UInt16
  curScanswitchidx : UInt16
  maxScanswitchnum : UInt16
  nodeidxForeval : UInt16
  snapshotid : Int32
  pairnum : Int32
  pairs : List WireRecord

namespace ScanResponseSplit

/-- The two constructors; in a single-switch method the scan switch fields are 0. -/
def make (key endkey : Key) (curScanidx maxScannum curScanswitchidx maxScanswitchnum nodeidxForeval : UInt16)
    (snapshotid pairnum : Int32) (pairs : List WireRecord) : Option ScanResponseSplit := do
  guard (0 ≤ snapshotid)
  guard (pairnum = Int32.ofNat pairs.length)
  some ⟨.make .scanresSplit key, endkey, curScanidx, maxScannum, curScanswitchidx, maxScanswitchnum, nodeidxForeval,
    snapshotid, pairnum, pairs⟩

/-- The scan switch fields, which only several switches need. -/
def scanswitchBytes (method : Method) (response : ScanResponseSplit) : List UInt8 :=
  if method.isSingleswitch then []
  else bigEndian 2 response.curScanswitchidx.toNat ++ bigEndian 2 response.maxScanswitchnum.toNat

/-- The fields up to the pairs; the snapshot id is in the server's byte order. -/
def headBytes (method : Method) (response : ScanResponseSplit) : List UInt8 :=
  response.hdr.bytes method ++ (response.endkey.serialize ++ (List.replicate method.getSplitPrevBytes 0 ++
    (bigEndian 2 response.curScanidx.toNat ++ (bigEndian 2 response.maxScannum.toNat ++
      (response.scanswitchBytes method ++ (bigEndian 2 response.nodeidxForeval.toNat ++
        (intBytes response.snapshotid ++ bigEndian 4 response.pairnum.toUInt32.toNat)))))))

/-- A pair is a key and a value: neither sequence number nor status is sent. -/
def pairBytes (pair : WireRecord) : List UInt8 := pair.key.serialize ++ Val.largeBytes pair.val

def bytes (method : Method) (response : ScanResponseSplit) : List UInt8 :=
  response.headBytes method ++ response.pairs.flatMap pairBytes

def dynamicSerializeScanswitch (method : Method) (response : ScanResponseSplit) (buf : DynamicArray) (tmpoff : Nat) :
    Option (DynamicArray × Nat) :=
  if method.isSingleswitch then some (buf, tmpoff)
  else do
    let buf ← buf.dynamicMemcpy tmpoff (bigEndian 2 response.curScanswitchidx.toNat)
    let buf ← buf.dynamicMemcpy (tmpoff + 2) (bigEndian 2 response.maxScanswitchnum.toNat)
    some (buf, tmpoff + 2 + 2)

def serializePair (state : DynamicArray × Nat) (pair : WireRecord) : Option (DynamicArray × Nat) := do
  let (buf, tmpPairKeysize) ← pair.key.dynamicSerialize state.1 state.2
  let (buf, tmpPairValsize) ← Val.dynamicSerializeLarge pair.val buf (state.2 + tmpPairKeysize)
  some (buf, state.2 + tmpPairKeysize + tmpPairValsize)

def dynamicSerialize (method : Method) (response : ScanResponseSplit) (buf : DynamicArray) :
    Option (DynamicArray × Nat) := do
  let (buf, tmpoff) ← response.hdr.dynamicSerializeOphdr method buf
  let (buf, tmpEndkeysize) ← response.endkey.dynamicSerialize buf tmpoff
  let tmpoff := tmpoff + tmpEndkeysize
  let buf ← buf.dynamicMemset tmpoff 0 method.getSplitPrevBytes
  let tmpoff := tmpoff + method.getSplitPrevBytes
  let buf ← buf.dynamicMemcpy tmpoff (bigEndian 2 response.curScanidx.toNat)
  let buf ← buf.dynamicMemcpy (tmpoff + 2) (bigEndian 2 response.maxScannum.toNat)
  let (buf, tmpoff) ← response.dynamicSerializeScanswitch method buf (tmpoff + 2 + 2)
  let buf ← buf.dynamicMemcpy tmpoff (bigEndian 2 response.nodeidxForeval.toNat)
  let buf ← buf.dynamicMemcpy (tmpoff + 2) (intBytes response.snapshotid)
  let buf ← buf.dynamicMemcpy (tmpoff + 2 + 4) (bigEndian 4 response.pairnum.toUInt32.toNat)
  response.pairs.foldlM serializePair (buf, tmpoff + 2 + 4 + 4)

end ScanResponseSplit

/-- How the client's code can stop: `myAssert`, a dereferenced `null`, an access outside an array. -/
inductive JavaError where
  | assertion
  | nullPointer
  | arrayBounds
  deriving DecidableEq, Repr

def javaAssert (assertion : Prop) [Decidable assertion] : Except JavaError Unit :=
  if assertion then .ok () else .error .assertion

def orElseError {α : Type} (result : Option α) (error : JavaError) : Except JavaError α :=
  match result with
  | some value => .ok value
  | none => .error error

/-- `ScanResponseSplit` of the client library; `none` is `null`. -/
structure JavaScanResponseSplit where
  hdr : Ophdr
  endKey : Option Key
  curScanidx : UInt16
  maxScannum : UInt16
  curScanswitchidx : UInt16
  maxScanswitchnum : UInt16
  nodeIdxForEval : UInt16
  snapshotId : Int32
  pairnum : Int32
  pairs : Option (List WireRecord)

namespace JavaScanResponseSplit

/-- The object `super()` leaves: it sets a type of 0 and a key, every other field has its default. -/
def initial : JavaScanResponseSplit :=
  ⟨⟨.ofCode 0, 0, 0, 0, ⟨0, 0, 0, 0⟩⟩, none, 0, 0, 0, 0, 0, 0, 0, none⟩

def size (method : Method) : Nat :=
  method.getOphdrsize + 16 + method.getSplitPrevBytes + 2 + 2 + if method.isSingleswitch then 0 else 2 + 2

def shortAt (data : List UInt8) (tmpoff : Nat) : Except JavaError UInt16 := do
  let bytes ← orElseError (readAt data tmpoff 2) .arrayBounds
  return (ofBigEndian bytes).toUInt16

def deserializeEndKey (response : JavaScanResponseSplit) (data : List UInt8) (tmpoff recvSize : Nat) :
    Except JavaError Key :=
  match response.endKey with
  | none => .error .nullPointer
  | some _ => do
    let (endKey, _) ← orElseError (Key.deserialize data tmpoff (recvSize - tmpoff)) .assertion
    return endKey

def deserializeScanswitch (method : Method) (data : List UInt8) (tmpoff : Nat) :
    Except JavaError (UInt16 × UInt16) :=
  if method.isSingleswitch then .ok (0, 0)
  else do
    let curScanswitchidx ← shortAt data tmpoff
    let maxScanswitchnum ← shortAt data (tmpoff + 2)
    return (curScanswitchidx, maxScanswitchnum)

/-- `deserialize`: it stops behind the scan indexes. -/
def deserialize (method : Method) (response : JavaScanResponseSplit) (data : List UInt8) (recvSize : Nat) :
    Except JavaError JavaScanResponseSplit := do
  javaAssert (size method ≤ recvSize)
  let (hdr, tmpoff) ← orElseError (Ophdr.deserializeOphdr method data recvSize) .assertion
  let endKey ← response.deserializeEndKey data tmpoff recvSize
  let tmpoff := tmpoff + 16 + method.getSplitPrevBytes
  let curScanidx ← shortAt data tmpoff
  let maxScannum ← shortAt data (tmpoff + 2)
  let (curScanswitchidx, maxScanswitchnum) ← deserializeScanswitch method data (tmpoff + 2 + 2)
  return { response with
    hdr := hdr
    endKey := some endKey
    curScanidx := curScanidx
    maxScannum := maxScannum
    curScanswitchidx := curScanswitchidx
    maxScanswitchnum := maxScanswitchnum }

def ofData (method : Method) (data : List UInt8) (recvSize : Nat) : Except JavaError JavaScanResponseSplit := do
  let response ← initial.deserialize method data recvSize
  javaAssert (response.hdr.type = .scanresSplit)
  javaAssert (0 ≤ response.snapshotId)
  return response

/-- The client's object shows what the server put into the response. -/
structure Exposes (decoded : JavaScanResponseSplit) (response : ScanResponseSplit) : Prop where
  endKey : decoded.endKey = some response.endkey
  curScanidx : decoded.curScanidx = response.curScanidx
  maxScannum : decoded.maxScannum = response.maxScannum
  curScanswitchidx : decoded.curScanswitchidx = response.curScanswitchidx
  maxScanswitchnum : decoded.maxScanswitchnum = response.maxScanswitchnum
  nodeIdxForEval : decoded.nodeIdxForEval = response.nodeidxForeval
  snapshotId : decoded.snapshotId = response.snapshotid
  pairnum : decoded.pairnum = response.pairnum
  pairs : decoded.pairs = some response.pairs

end JavaScanResponseSplit

def ScanResponseArrives (method : Method) (response : ScanResponseSplit) (buf : DynamicArray) : Prop :=
  ∃ after size decoded, response.dynamicSerialize method buf = some (after, size) ∧
    JavaScanResponseSplit.ofData method after.array size = .ok decoded ∧ decoded.Exposes response

section Encoder

variable {method : Method} {response : ScanResponseSplit}

theorem ScanResponseSplit.writes_serializePair (pair : WireRecord) (buf : DynamicArray) (offset : Nat) :
    Writes buf offset (pairBytes pair) (serializePair (buf, offset) pair) (·, offset + (pairBytes pair).length) := by
  have total : offset + (pairBytes pair).length =
      offset + 16 + (4 + pair.val.length + Val.getPaddingSize pair.val.length) := by
    simp only [pairBytes, List.length_append, Key.length_serialize, Val.length_largeBytes]
    omega
  rw [total]
  unfold pairBytes serializePair
  refine (Key.writes_dynamicSerialize _ _ _).bind fun _ _ => ?_
  rw [Key.length_serialize]
  exact (Val.writes_dynamicSerializeLarge _ _ _).finish fun written => (written.1, offset + 16 + written.2)

theorem ScanResponseSplit.writes_serializePairs {pairs : List WireRecord} {buf : DynamicArray} {offset : Nat}
    (used : offset ≤ buf.cursize) :
    Writes buf offset (pairs.flatMap pairBytes) (pairs.foldlM serializePair (buf, offset))
      (·, offset + (pairs.flatMap pairBytes).length) :=
  writes_foldlM (fun pair _ => writes_serializePair pair) (Or.inl used)

theorem ScanResponseSplit.writes_dynamicSerializeScanswitch {buf : DynamicArray} {tmpoff : Nat}
    (used : tmpoff ≤ buf.cursize) :
    Writes buf tmpoff (response.scanswitchBytes method) (response.dynamicSerializeScanswitch method buf tmpoff)
      (·, tmpoff + (response.scanswitchBytes method).length) := by
  unfold scanswitchBytes dynamicSerializeScanswitch
  split
  · exact writes_nil used (·, tmpoff)
  · refine (writes_dynamicMemcpy _ _ _).bind fun _ _ => ?_
    rw [length_bigEndian]
    exact (writes_dynamicMemcpy _ _ _).finish (·, tmpoff + 2 + 2)

theorem ScanResponseSplit.writes_dynamicSerialize (buf : DynamicArray) :
    Writes buf 0 (response.bytes method) (response.dynamicSerialize method buf)
      (·, (response.bytes method).length) := by
  obtain ⟨total, isTotal⟩ : ∃ total, total = (response.bytes method).length := ⟨_, rfl⟩
  rw [← isTotal]
  simp only [bytes, headBytes, List.length_append, Ophdr.length_bytes, Key.length_serialize, List.length_replicate,
    length_bigEndian, intBytes, length_littleEndian] at isTotal
  unfold bytes headBytes dynamicSerialize
  simp only [List.append_assoc]
  refine (Ophdr.writes_dynamicSerializeOphdr _ _ _).bind fun _ _ => ?_
  rw [Ophdr.length_bytes, Nat.zero_add]
  refine (Key.writes_dynamicSerialize _ _ _).bind fun _ _ => ?_
  rw [Key.length_serialize]
  refine (writes_dynamicMemset _ _ _ _).bind fun _ _ => ?_
  rw [List.length_replicate]
  refine (writes_dynamicMemcpy _ _ _).bind fun _ _ => ?_
  rw [length_bigEndian]
  refine (writes_dynamicMemcpy _ _ _).bind fun indexed wrote => ?_
  have used := wrote.cursize
  rw [length_bigEndian] at used ⊢
  refine (writes_dynamicSerializeScanswitch (by omega)).bind fun _ _ => ?_
  refine (writes_dynamicMemcpy _ _ _).bind fun _ _ => ?_
  rw [length_bigEndian]
  refine (writes_dynamicMemcpy _ _ _).bind fun _ _ => ?_
  rw [intBytes, length_littleEndian]
  refine (writes_dynamicMemcpy _ _ _).bind fun counted wrote => ?_
  have used := wrote.cursize
  rw [length_bigEndian] at used ⊢
  have end_eq : total = method.getOphdrsize + 16 + method.getSplitPrevBytes + 2 + 2 +
      (response.scanswitchBytes method).length + 2 + 4 + 4 + (response.pairs.flatMap pairBytes).length := by omega
  rw [end_eq]
  exact writes_serializePairs (by omega)

theorem ScanResponseSplit.size_le_length (method : Method) (response : ScanResponseSplit) :
    JavaScanResponseSplit.size method ≤ (response.bytes method).length := by
  simp only [bytes, headBytes, scanswitchBytes, JavaScanResponseSplit.size, List.length_append, Ophdr.length_bytes,
    Key.length_serialize, List.length_replicate, length_bigEndian, intBytes, length_littleEndian]
  split <;> simp only [List.length_nil, List.length_append, length_bigEndian] <;> omega

end Encoder

/-- On a response the server has written, the client's constructor reads the packet header and then
dereferences the end key, which nothing has set. -/
theorem JavaScanResponseSplit.ofData_of_wrote {method : Method} {response : ScanResponseSplit}
    {before after : DynamicArray} (wrote : Wrote before 0 (response.bytes method) after) :
    ofData method after.array (response.bytes method).length = .error .nullPointer := by
  have enough := response.size_le_length method
  have header : Holds after.array 0 (response.hdr.bytes method) := by
    have holds := wrote.holds
    rw [ScanResponseSplit.bytes, ScanResponseSplit.headBytes, List.append_assoc] at holds
    exact (holds_append.mp holds).1
  have long : method.getOphdrsize ≤ (response.bytes method).length := by
    unfold JavaScanResponseSplit.size at enough
    omega
  have headerRead := Ophdr.deserializeOphdr_of_holds header long
  simp only [ofData, deserialize, javaAssert, enough, if_true, headerRead, orElseError, deserializeEndKey, initial]
  rfl

/-- Every response that fits the array is written, the client's constructor fails on it, and so none arrives. -/
theorem scan_response_never_arrives (method : Method) (response : ScanResponseSplit) (buf : DynamicArray)
    (fits : (response.bytes method).length ≤ buf.maxcapability) :
    (∃ after size, response.dynamicSerialize method buf = some (after, size) ∧
      JavaScanResponseSplit.ofData method after.array size = .error .nullPointer) ∧
    ¬ ScanResponseArrives method response buf := by
  have writes := @ScanResponseSplit.writes_dynamicSerialize method response buf
  obtain ⟨after, written, wrote⟩ := writes.1 (by omega)
  have fails := JavaScanResponseSplit.ofData_of_wrote wrote
  refine ⟨⟨after, _, written, fails⟩, ?_⟩
  rintro ⟨other, size, decoded, writtenToo, constructed, _⟩
  rw [written] at writtenToo
  cases writtenToo
  rw [fails] at constructed
  cases constructed

theorem scan_response_never_arrives_pair :
    ¬ ScanResponseArrives .distcache
      ⟨.make .scanresSplit ⟨1, 0, 0, 0⟩, ⟨9, 0, 0, 0⟩, 0, 2, 0, 1, 0, 3, 1, [⟨⟨5, 0, 0, 0⟩, [1, 2, 3], 7, true⟩]⟩
      (allocated 40960 8388608 (by decide) (by decide) (by decide)) := by
  refine (scan_response_never_arrives _ _ _ ?_).2
  change _ ≤ 8388608
  decide +kernel

/-- The empty response of a single server, which the server's constructor accepts: it is written, and the
client's constructor fails. -/
theorem scan_response_empty_fails :
    ∃ response after size,
      ScanResponseSplit.make ⟨1, 0, 0, 0⟩ ⟨9, 0, 0, 0⟩ 0 1 0 0 0 0 0 [] = some response ∧
      response.dynamicSerialize .farreach (allocated 40960 8388608 (by decide) (by decide) (by decide)) =
        some (after, size) ∧
      JavaScanResponseSplit.ofData .farreach after.array size = .error .nullPointer := by
  obtain ⟨after, written, wrote⟩ := (@ScanResponseSplit.writes_dynamicSerialize .farreach
    ⟨.make .scanresSplit ⟨1, 0, 0, 0⟩, ⟨9, 0, 0, 0⟩, 0, 1, 0, 0, 0, 0, 0, []⟩
    (allocated 40960 8388608 (by decide) (by decide) (by decide))).1 (by change _ ≤ 8388608; decide +kernel)
  exact ⟨_, after, _, rfl, written, JavaScanResponseSplit.ofData_of_wrote wrote⟩

end FarReach
