import FarReach.LargevaluePackets
import FarReach.MultisrcReceiver
import FarReach.PacketClasses

namespace FarReach

open Bytes DynamicArray

namespace ScanResponseSplit

section Constructors

variable (method : Method) (key endkey : Key) (curScanidx maxScannum : UInt16)

def makeSingleswitch (nodeidxForeval : UInt16) (snapshotid pairnum : Int32) (pairs : List WireRecord) :
    Option ScanResponseSplit := do
  guard method.isSingleswitch
  make key endkey curScanidx maxScannum 0 0 nodeidxForeval snapshotid pairnum pairs

def makeMultiswitch (curScanswitchidx maxScanswitchnum nodeidxForeval : UInt16) (snapshotid pairnum : Int32)
    (pairs : List WireRecord) : Option ScanResponseSplit := do
  guard ¬ method.isSingleswitch
  make key endkey curScanidx maxScannum curScanswitchidx maxScanswitchnum nodeidxForeval snapshotid pairnum pairs

end Constructors

/-- What the constructors of a method accept. -/
structure Constructed (method : Method) (response : ScanResponseSplit) : Prop where
  hdr : response.hdr = .make .scanresSplit response.hdr.key
  scanswitch : method.isSingleswitch → response.curScanswitchidx = 0 ∧ response.maxScanswitchnum = 0
  snapshotid : 0 ≤ response.snapshotid
  pairnum : response.pairnum = Int32.ofNat response.pairs.length

/-- `size()`: everything but the pairs. -/
def size (method : Method) : Nat :=
  method.getOphdrsize + 16 + method.getSplitPrevBytes + 2 + 2 + 2 + 4 + 4 + if method.isSingleswitch then 0 else 2 + 2

/-- The body of the loop of `serialize`: what lies in the buffer, of which `totalsize` is the length. -/
def appendPair (maxSize : Nat) (written : List UInt8) (pair : WireRecord) : Option (List UInt8) := do
  guard (16 ≤ bytesLeft maxSize written.length)
  let written := written ++ pair.key.serialize
  let val ← Val.serializeLarge pair.val (bytesLeft maxSize written.length)
  some (written ++ val)

/-- `serialize` into a buffer of `maxSize` bytes: the bytes it writes, whose number it returns. -/
def serialize (method : Method) (response : ScanResponseSplit) (maxSize : Nat) : Option (List UInt8) := do
  guard (size method ≤ maxSize)
  let written ← response.hdr.serializeOphdr method maxSize
  guard (16 ≤ bytesLeft maxSize written.length)
  let written := written ++ response.endkey.serialize
  let written := written ++ List.replicate method.getSplitPrevBytes 0
  let written := written ++ bigEndian 2 response.curScanidx.toNat
  let written := written ++ bigEndian 2 response.maxScannum.toNat
  let written := written ++
    if method.isSingleswitch then []
    else bigEndian 2 response.curScanswitchidx.toNat ++ bigEndian 2 response.maxScanswitchnum.toNat
  let written := written ++ bigEndian 2 response.nodeidxForeval.toNat
  let written := written ++ intBytes response.snapshotid
  let written := written ++ bigEndian 4 response.pairnum.toUInt32.toNat
  response.pairs.foldlM (appendPair maxSize) written

def shortAt (data : List UInt8) (off : Nat) : Option UInt16 := do
  let bytes ← readAt data off 2
  some (ofBigEndian bytes).toUInt16

/-- The scan switch fields and the offset behind them; in a single-switch method they stay 0. -/
def deserializeScanswitch (method : Method) (data : List UInt8) (begin : Nat) : Option (UInt16 × UInt16 × Nat) :=
  if method.isSingleswitch then some (0, 0, begin)
  else do
    let curScanswitchidx ← shortAt data begin
    let maxScanswitchnum ← shortAt data (begin + 2)
    some (curScanswitchidx, maxScanswitchnum, begin + 2 + 2)

def deserialize (method : Method) (data : List UInt8) (recvSize : Nat) : Option ScanResponseSplit := do
  guard (size method ≤ recvSize)
  let (hdr, tmpOphdrsize) ← Ophdr.deserializeOphdr method data recvSize
  let (endkey, tmpEndkeysize) ← Key.deserialize data tmpOphdrsize (bytesLeft recvSize tmpOphdrsize)
  let begin := tmpOphdrsize + tmpEndkeysize + method.getSplitPrevBytes
  let curScanidx ← shortAt data begin
  let maxScannum ← shortAt data (begin + 2)
  let (curScanswitchidx, maxScanswitchnum, begin) ← deserializeScanswitch method data (begin + 2 + 2)
  let nodeidxForeval ← shortAt data begin
  let snapshotid ← readAt data (begin + 2) 4
  let (scan, _) ← ScanPairs.deserialize data (begin + 2 + 4) recvSize
  some ⟨hdr, endkey, curScanidx, maxScannum, curScanswitchidx, maxScanswitchnum, nodeidxForeval,
    ofIntBytes snapshotid, scan.pairnum, scan.pairs⟩

def ofData (method : Method) (data : List UInt8) (recvSize : Nat) : Option ScanResponseSplit := do
  let response ← deserialize method data recvSize
  guard (response.hdr.type = .scanresSplit)
  guard (0 ≤ response.snapshotid)
  some response

def getSrcswitchnumOff (method : Method) : Option Nat := do
  guard ¬ method.isSingleswitch
  some (method.getOphdrsize + 16 + method.getSplitPrevBytes + 2 + 2 + 2)

/-- `get_srcswitchid_off`: it adds the size of the packet header a second time. -/
def getSrcswitchidOff (method : Method) : Option Nat := do
  guard ¬ method.isSingleswitch
  some (method.getOphdrsize + 16 + method.getOphdrsize + 2 + 2)

/-- The two encoders write the same bytes, and from these the decoder makes `decoded`. -/
def Transmits (method : Method) (response decoded : ScanResponseSplit) (maxSize : UInt32) (buf : DynamicArray) :
    Prop :=
  ∃ bytes after, response.serialize method maxSize.toNat = some bytes ∧
    response.dynamicSerialize method buf = some (after, bytes.length) ∧ Holds after.array 0 bytes ∧
    ∀ data recvSize, Holds data 0 bytes → bytes.length ≤ recvSize → recvSize < 2 ^ 32 →
      ofData method data recvSize = some decoded

def Locates (method : Method) (bytes : List UInt8) (off : Nat) (field : UInt16) : Prop :=
  off + 2 ≤ getFragHdrsize method ∧ shortAt bytes off = some field

/-- The four offsets; an offset that the method does not publish locates nothing. -/
structure Published (method : Method) (response : ScanResponseSplit) (bytes : List UInt8) : Prop where
  srcnum : Locates method bytes (getSrcnumOff method) response.maxScannum
  srcid : Locates method bytes (getSrcidOff method) response.curScanidx
  srcswitchnum : ∀ off, getSrcswitchnumOff method = some off → Locates method bytes off response.maxScanswitchnum
  srcswitchid : ∀ off, getSrcswitchidOff method = some off → Locates method bytes off response.curScanswitchidx

def CodecAgrees (method : Method) (response : ScanResponseSplit) (maxSize : UInt32) (buf : DynamicArray) : Prop :=
  Transmits method response response maxSize buf ∧
    ∃ bytes, response.serialize method maxSize.toNat = some bytes ∧ Published method response bytes

section Constructors

variable {method : Method} {response : ScanResponseSplit}

theorem constructed_of_make {key endkey : Key}
    {curScanidx maxScannum curScanswitchidx maxScanswitchnum nodeidxForeval : UInt16} {snapshotid pairnum : Int32}
    {pairs : List WireRecord}
    (made : make key endkey curScanidx maxScannum curScanswitchidx maxScanswitchnum nodeidxForeval snapshotid pairnum
      pairs = some response)
    (scanswitch : method.isSingleswitch → curScanswitchidx = 0 ∧ maxScanswitchnum = 0) :
    response.Constructed method := by
  unfold make at made
  by_cases nonnegative : 0 ≤ snapshotid
  · by_cases counted : pairnum = Int32.ofNat pairs.length
    · simp only [guard, nonnegative, counted, if_true, Option.pure_def, Option.bind_eq_bind, Option.bind_some,
        Option.some.injEq] at made
      subst made
      exact ⟨rfl, scanswitch, nonnegative, rfl⟩
    · simp [guard, counted] at made
  · simp [guard, nonnegative] at made

end Constructors

section Encoder

variable {method : Method} {response : ScanResponseSplit} {maxSize : Nat}

theorem length_headBytes (method : Method) (response : ScanResponseSplit) :
    (response.headBytes method).length = size method := by
  simp only [headBytes, scanswitchBytes, size, List.length_append, Ophdr.length_bytes, Key.length_serialize,
    List.length_replicate, length_bigEndian, intBytes, length_littleEndian]
  split <;> simp only [List.length_nil, List.length_append, length_bigEndian] <;> omega

theorem appendPair_of_fits {written : List UInt8} {pair : WireRecord} (bounded : maxSize < 2 ^ 32)
    (fits : (written ++ pairBytes pair).length ≤ maxSize) :
    appendPair maxSize written pair = some (written ++ pairBytes pair) := by
  have parts : (written ++ pairBytes pair).length =
      written.length + 16 + (4 + pair.val.length + Val.getPaddingSize pair.val.length) := by
    simp only [pairBytes, List.length_append, Key.length_serialize, Val.length_largeBytes]
    omega
  have keyLeft := @bytesLeft_eq maxSize written.length (by omega) bounded
  have valLeft := @bytesLeft_eq maxSize (written.length + 16) (by omega) bounded
  have keyFits : 16 ≤ maxSize - written.length := by omega
  have valFits : 4 + pair.val.length + Val.getPaddingSize pair.val.length ≤ maxSize - (written.length + 16) := by
    omega
  simp only [appendPair, guard, keyLeft, keyFits, if_true, Option.pure_def, Option.bind_eq_bind, Option.bind_some,
    List.length_append, Key.length_serialize, valLeft, Val.serializeLarge, valFits, pairBytes, List.append_assoc]

theorem appendPairs_of_fits {pairs : List WireRecord} {written : List UInt8} (bounded : maxSize < 2 ^ 32)
    (fits : (written ++ pairs.flatMap pairBytes).length ≤ maxSize) :
    pairs.foldlM (appendPair maxSize) written = some (written ++ pairs.flatMap pairBytes) := by
  induction pairs generalizing written with
  | nil => simp
  | cons pair pairs ih =>
    rw [List.flatMap_cons, ← List.append_assoc] at fits ⊢
    have first := fits
    rw [List.length_append] at first
    rw [List.foldlM_cons, appendPair_of_fits bounded (by omega)]
    exact ih fits

/-- `serialize` writes the bytes that `dynamic_serialize` writes. -/
theorem serialize_of_fits (bounded : maxSize < 2 ^ 32) (fits : (response.bytes method).length ≤ maxSize) :
    response.serialize method maxSize = some (response.bytes method) := by
  have head := length_headBytes method response
  have long : size method ≤ maxSize := by
    rw [bytes, List.length_append] at fits
    omega
  have hdrFits : method.getOphdrsize ≤ maxSize := by
    unfold size at long
    omega
  have keyFits : 16 ≤ maxSize - method.getOphdrsize := by
    unfold size at long
    omega
  have pairs := @appendPairs_of_fits _ response.pairs (response.headBytes method) bounded fits
  unfold serialize
  simp only [Ophdr.serializeOphdr, guard, long, hdrFits, if_true, Option.pure_def, Option.bind_eq_bind,
    Option.bind_some, Ophdr.length_bytes, bytesLeft_eq hdrFits bounded, keyFits]
  rw [bytes, ← pairs]
  simp only [headBytes, scanswitchBytes, List.append_assoc]

end Encoder

section Decoder

variable {method : Method} {response : ScanResponseSplit} {data : List UInt8} {recvSize : Nat}

theorem shortAt_of_holds {off : Nat} {half : UInt16} (holds : Holds data off (bigEndian 2 half.toNat)) :
    shortAt data off = some half := by
  have read := holds.readAt (length_bigEndian _ _) (by decide)
  simp only [shortAt, read, Option.bind_eq_bind, Option.bind_some, toUInt16_ofBigEndian]

/-- Where the fields of the header of a fragment lie. -/
structure Laid (method : Method) (response : ScanResponseSplit) (data : List UInt8) (splitOff : Nat) : Prop where
  curScanidx : Holds data splitOff (bigEndian 2 response.curScanidx.toNat)
  maxScannum : Holds data (splitOff + 2) (bigEndian 2 response.maxScannum.toNat)
  scanswitch : Holds data (splitOff + 2 + 2) (response.scanswitchBytes method)

theorem laid_of_holds (holds : Holds data 0 (response.bytes method)) :
    Holds data 0 (response.hdr.bytes method) ∧ Holds data method.getOphdrsize response.endkey.serialize ∧
      Laid method response data (method.getOphdrsize + 16 + method.getSplitPrevBytes) ∧
      Holds data (getFragHdrsize method) (bigEndian 2 response.nodeidxForeval.toNat) ∧
      Holds data (getFragHdrsize method + 2) (intBytes response.snapshotid) ∧
      Holds data (getFragHdrsize method + 2 + 4) (ScanPairs.bytes ⟨response.pairnum, response.pairs⟩) := by
  have behind : method.getOphdrsize + 16 + method.getSplitPrevBytes + 2 + 2 +
      (response.scanswitchBytes method).length = getFragHdrsize method := by
    unfold getFragHdrsize scanswitchBytes
    split <;> simp
  rw [bytes, headBytes] at holds
  simp only [List.append_assoc, holds_append, Ophdr.length_bytes, Key.length_serialize, List.length_replicate,
    length_bigEndian, intBytes, length_littleEndian, Nat.zero_add, behind] at holds
  obtain ⟨hdr, endkey, _, curScanidx, maxScannum, scanswitch, nodeidxForeval, snapshotid, pairnum, pairs⟩ := holds
  refine ⟨hdr, endkey, ⟨curScanidx, maxScannum, scanswitch⟩, nodeidxForeval, snapshotid, ?_⟩
  rw [ScanPairs.bytes, holds_append, length_bigEndian]
  exact ⟨pairnum, pairs⟩

theorem deserializeScanswitch_of_laid {splitOff : Nat} (made : response.Constructed method)
    (laid : Laid method response data splitOff) :
    deserializeScanswitch method data (splitOff + 2 + 2) = some (response.curScanswitchidx, response.maxScanswitchnum,
      splitOff + 2 + 2 + if method.isSingleswitch then 0 else 2 + 2) := by
  have scanswitch := laid.scanswitch
  unfold scanswitchBytes at scanswitch
  unfold deserializeScanswitch
  by_cases single : method.isSingleswitch = true
  · rw [if_pos single, if_pos single, (made.scanswitch single).1, (made.scanswitch single).2, Nat.add_zero]
  · rw [if_neg single, holds_append, length_bigEndian] at scanswitch
    rw [if_neg single, if_neg single, shortAt_of_holds scanswitch.1, shortAt_of_holds scanswitch.2]
    rfl

theorem received_make (method : Method) (type : PacketType) (key : Key) :
    (Ophdr.make type key).received method = .make type key := by
  unfold Ophdr.received
  split
  · rfl
  · split <;> rfl

/-- The decoder finds every field again; of the records in the pairs it gets the values only. -/
theorem ofData_of_holds (made : response.Constructed method) (holds : Holds data 0 (response.bytes method))
    (long : (response.bytes method).length ≤ recvSize) (bounded : recvSize < 2 ^ 32) :
    ofData method data recvSize = some { response with pairs := response.pairs.map receivedPair } := by
  obtain ⟨hdr, endkey, laid, nodeidxForeval, snapshotid, pairs⟩ := laid_of_holds holds
  have head := length_headBytes method response
  have pairsLength : getFragHdrsize method + 2 + 4 + (ScanPairs.bytes ⟨response.pairnum, response.pairs⟩).length ≤
      recvSize := by
    rw [bytes, List.length_append, head] at long
    rw [ScanPairs.bytes, List.length_append, length_bigEndian]
    change _ + (4 + (response.pairs.flatMap pairBytes).length) ≤ _
    unfold size at long
    unfold getFragHdrsize
    omega
  have large : size method ≤ recvSize := by
    rw [bytes, List.length_append] at long
    omega
  have hdrFits : method.getOphdrsize ≤ recvSize := by
    unfold size at large
    omega
  have keyFits : 16 ≤ recvSize - method.getOphdrsize := by
    unfold size at large
    omega
  have many := PacketClass.length_bytes_pairs ⟨response.pairnum, response.pairs⟩
  change 4 + 20 * response.pairs.length ≤ _ at many
  have short : ∀ pair ∈ response.pairs, pair.val.length < 2 ^ 32 := by
    intro pair member
    obtain ⟨before, behind, split⟩ := List.append_of_mem member
    rw [bytes, split, List.flatMap_append, List.flatMap_cons] at long
    simp only [List.length_append, pairBytes, Val.length_largeBytes] at long
    omega
  have hdrRead := Ophdr.deserializeOphdr_of_holds hdr hdrFits
  have keyRead := Key.deserialize_of_holds endkey keyFits
  have snapshotRead := snapshotid.readAt (length_littleEndian _ _) (by decide)
  have pairsRead := ScanPairs.deserialize_of_counts made.pairnum (by change response.pairs.length < _; omega)
    short pairs pairsLength
  have behind : method.getOphdrsize + 16 + method.getSplitPrevBytes + 2 + 2 +
      (if method.isSingleswitch then 0 else 2 + 2) = getFragHdrsize method := rfl
  have type : response.hdr.type = .scanresSplit := by
    rw [made.hdr]
    rfl
  have sameHdr : response.hdr.received method = response.hdr := by
    rw [made.hdr]
    exact received_make _ _ _
  simp only [ofData, deserialize, guard, large, if_true, hdrRead, bytesLeft_eq hdrFits bounded, keyRead,
    shortAt_of_holds laid.curScanidx, shortAt_of_holds laid.maxScannum,
    deserializeScanswitch_of_laid made laid, behind, shortAt_of_holds nodeidxForeval, snapshotRead, pairsRead,
    ofIntBytes_intBytes, sameHdr, type, made.snapshotid, Option.pure_def, Option.bind_eq_bind, Option.bind_some]

end Decoder

section Offsets

variable {method : Method} {response : ScanResponseSplit}

/-- Three of the offsets are right for every method. -/
theorem locates_of_bytes (method : Method) (response : ScanResponseSplit) :
    Locates method (response.bytes method) (getSrcnumOff method) response.maxScannum ∧
      Locates method (response.bytes method) (getSrcidOff method) response.curScanidx ∧
      ∀ off, getSrcswitchnumOff method = some off →
        Locates method (response.bytes method) off response.maxScanswitchnum := by
  obtain ⟨_, _, laid, _⟩ := laid_of_holds (holds_zero_iff.mpr (List.prefix_refl (response.bytes method)))
  refine ⟨⟨?_, shortAt_of_holds laid.maxScannum⟩, ⟨?_, shortAt_of_holds laid.curScanidx⟩, fun off published => ?_⟩
  · unfold getSrcnumOff getFragHdrsize
    omega
  · unfold getSrcidOff getFragHdrsize
    omega
  · cases single : method.isSingleswitch with
    | true => simp [getSrcswitchnumOff, guard, single] at published
    | false =>
      simp only [getSrcswitchnumOff, guard, single, Bool.false_eq_true, not_false_eq_true, if_true, Option.pure_def,
        Option.bind_eq_bind, Option.bind_some, Option.some.injEq] at published
      have scanswitch := laid.scanswitch
      rw [scanswitchBytes, single, if_neg Bool.false_ne_true, holds_append, length_bigEndian] at scanswitch
      subst published
      refine ⟨?_, shortAt_of_holds scanswitch.2⟩
      rw [getFragHdrsize, single, if_neg Bool.false_ne_true]

/-- The offset of the switch id lies behind the header of a fragment wherever it is published. -/
theorem published_iff : Published method response (response.bytes method) ↔ method.isSingleswitch := by
  constructor
  · intro published
    cases single : method.isSingleswitch with
    | true => rfl
    | false =>
      have inside := published.srcswitchid (method.getOphdrsize + 16 + method.getOphdrsize + 2 + 2) (by
        simp only [getSrcswitchidOff, guard, single, Bool.false_eq_true, not_false_eq_true, if_true, Option.pure_def,
          Option.bind_eq_bind, Option.bind_some])
      have apart := inside.1
      cases method <;> revert apart single <;> decide
  · intro single
    obtain ⟨srcnum, srcid, srcswitchnum⟩ := locates_of_bytes method response
    refine ⟨srcnum, srcid, srcswitchnum, fun off published => ?_⟩
    simp [getSrcswitchidOff, guard, single] at published

end Offsets

section Agreement

variable {method : Method} {response decoded : ScanResponseSplit} {maxSize : UInt32} {buf : DynamicArray}

theorem transmits_iff (made : response.Constructed method) (fits : (response.bytes method).length ≤ maxSize.toNat)
    (arrayFits : (response.bytes method).length ≤ buf.maxcapability) :
    Transmits method response decoded maxSize buf ↔
      decoded = { response with pairs := response.pairs.map receivedPair } := by
  have bounded := maxSize.toNat_lt
  have written := @serialize_of_fits method response _ bounded fits
  constructor
  · rintro ⟨bytes, after, writtenToo, _, _, decodes⟩
    rw [written, Option.some.injEq] at writtenToo
    subst writtenToo
    have self : Holds (response.bytes method) 0 (response.bytes method) := holds_zero_iff.mpr (List.prefix_refl _)
    have decode := decodes _ _ self le_rfl (by omega)
    rw [ofData_of_holds made self le_rfl (by omega), Option.some.injEq] at decode
    exact decode.symm
  · rintro rfl
    obtain ⟨after, dynamic, wrote⟩ := (@writes_dynamicSerialize method response buf).1 (by omega)
    exact ⟨_, after, written, dynamic, wrote.holds, fun _ _ holds long small => ofData_of_holds made holds long small⟩

theorem map_receivedPair_iff {pairs : List WireRecord} :
    pairs = pairs.map receivedPair ↔ ∀ pair ∈ pairs, pair.seq = 0 ∧ pair.stat = false := by
  have single : ∀ pair : WireRecord, pair = receivedPair pair ↔ pair.seq = 0 ∧ pair.stat = false := by
    rintro ⟨key, val, seq, stat⟩
    simp [receivedPair]
  induction pairs with
  | nil => simp
  | cons pair pairs ih =>
    rw [List.map_cons, List.cons.injEq, single, List.forall_mem_cons]
    exact and_congr Iff.rfl ih

end Agreement

end ScanResponseSplit

/-- For every method, both encoders write the same bytes, the decoder gets every field, key and value back, and three
published offsets are right. With the records' numbers and all four offsets, that is so in single-switch methods for
records with default numbers. -/
theorem scan_response_codec_iff (method : Method) (response : ScanResponseSplit) (maxSize : UInt32)
    (buf : DynamicArray) (made : response.Constructed method) (fits : (response.bytes method).length ≤ maxSize.toNat)
    (arrayFits : (response.bytes method).length ≤ buf.maxcapability) :
    response.Transmits method { response with pairs := response.pairs.map receivedPair } maxSize buf ∧
    (∃ bytes, response.serialize method maxSize.toNat = some bytes ∧
      ScanResponseSplit.Locates method bytes (ScanResponseSplit.getSrcnumOff method) response.maxScannum ∧
      ScanResponseSplit.Locates method bytes (ScanResponseSplit.getSrcidOff method) response.curScanidx ∧
      ∀ off, ScanResponseSplit.getSrcswitchnumOff method = some off →
        ScanResponseSplit.Locates method bytes off response.maxScanswitchnum) ∧
    (response.CodecAgrees method maxSize buf ↔
      method.isSingleswitch ∧ ∀ pair ∈ response.pairs, pair.seq = 0 ∧ pair.stat = false) := by
  have written := @ScanResponseSplit.serialize_of_fits method response _ maxSize.toNat_lt fits
  have transmits := @ScanResponseSplit.transmits_iff method response
  refine ⟨(transmits made fits arrayFits).mpr rfl,
    ⟨_, written, ScanResponseSplit.locates_of_bytes method response⟩, ?_⟩
  have whole : response = { response with pairs := response.pairs.map receivedPair } ↔
      ∀ pair ∈ response.pairs, pair.seq = 0 ∧ pair.stat = false := by
    rw [← ScanResponseSplit.map_receivedPair_iff]
    exact ⟨fun same => congrArg ScanResponseSplit.pairs same, fun same => by rw [← same]⟩
  unfold ScanResponseSplit.CodecAgrees
  rw [transmits made fits arrayFits, whole, and_comm]
  refine and_congr_left fun _ => ?_
  rw [← @ScanResponseSplit.published_iff method response]
  constructor
  · rintro ⟨bytes, writtenToo, published⟩
    rw [written, Option.some.injEq] at writtenToo
    rw [writtenToo]
    exact published
  · exact fun published => ⟨_, written, published⟩

theorem scan_response_codec_two :
    ScanResponseSplit.CodecAgrees .farreach
      ⟨.make .scanresSplit ⟨1, 0, 0, 0⟩, ⟨9, 0, 0, 0⟩, 1, 2, 0, 0, 0, 3, 2,
        [⟨⟨5, 0, 0, 0⟩, [1, 2, 3], 0, false⟩, ⟨⟨6, 0, 0, 0⟩, [], 0, false⟩]⟩ 1000
      (allocated 40960 8388608 (by decide) (by decide) (by decide)) := by
  refine (scan_response_codec_iff _ _ _ _ ⟨rfl, fun _ => ⟨rfl, rfl⟩, by decide, rfl⟩ ?_ ?_).2.2.mpr ⟨rfl, by simp⟩
  · decide +kernel
  · change _ ≤ 8388608
    decide +kernel

/-- A response of two switches: the switch id is looked for at offset 60, and the header of a fragment has 48 bytes.
-/
theorem srcswitchid_behind_header :
    ∃ response, ScanResponseSplit.makeMultiswitch .distfarreach ⟨1, 0, 0, 0⟩ ⟨9, 0, 0, 0⟩ 0 1 1 2 0 3 0 [] =
      some response ∧
      ScanResponseSplit.getSrcswitchidOff .distfarreach = some 60 ∧
      ScanResponseSplit.getFragHdrsize .distfarreach = 48 ∧ (response.serialize .distfarreach 58).isSome ∧
      ∀ maxSize buf, ¬ response.CodecAgrees .distfarreach maxSize buf := by
  refine ⟨_, rfl, rfl, rfl, by decide +kernel, fun maxSize buf agrees => ?_⟩
  obtain ⟨_, bytes, _, published⟩ := agrees
  exact absurd (published.srcswitchid 60 rfl).1 (by decide)

end FarReach
