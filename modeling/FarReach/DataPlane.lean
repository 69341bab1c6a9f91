import FarReach.Bytes
import FarReach.KvStore
import FarReach.MatchTable

namespace FarReach

/-- The operation types that the egress tables match on or write. -/
inductive Optype where
  | getreqInswitch | getresLatestSeqInswitch | getresDeletedSeqInswitch
  | putreqInswitch | delreqInswitch | putreqLargevalueInswitch
  | cachePopInswitch | cacheEvictLoadfreqInswitch | cacheEvictLoaddataInswitch
  | loadsnapshotdataInswitch | setvalidInswitch
  | getresLatestSeqInswitchCase1 | getresDeletedSeqInswitchCase1
  | putreqSeqInswitchCase1 | delreqSeqInswitchCase1
  | cachePopInswitchAck | cacheEvictLoadfreqInswitchAck | cacheEvictLoaddataInswitchAck
  | loadsnapshotdataInswitchAck | setvalidInswitchAck
  | getreq | getreqPop | getreqNlatest | getreqLargevalueblockRecord | getreqBeingevictedRecord
  | getresLatestSeq | getresDeletedSeq | getresSeq
  | putreqSeq | putreqPopSeq | putreqSeqCase3 | putreqPopSeqCase3
  | putreqSeqBeingevicted | putreqSeqCase3Beingevicted | putresSeq
  | delreqSeq | delreqSeqCase3 | delreqSeqBeingevicted | delreqSeqCase3Beingevicted | delresSeq
  | putreqLargevalueSeq | putreqLargevalueSeqCase3
  | putreqLargevalueSeqBeingevicted | putreqLargevalueSeqCase3Beingevicted
  deriving DecidableEq, Repr

/-- The two data planes of the repository. Their P4 programs and controllers differ in a few entries. -/
inductive Platform where
  | bmv2 | tofino
  deriving DecidableEq, Repr

/-- The thirty-two 32-bit words `vallo1`, `valhi1`, ..., `vallo16`, `valhi16`. -/
abbrev ValWords := Fin 32 → UInt32

/-- The header fields that the egress tables read or write. -/
structure Packet where
  optype : Optype
  key : Key
  idx : Nat
  isCached : Bool
  isSampled : Bool
  clientSid : Nat
  snapshotFlag : Bool
  curFragidx : Nat
  validvalue : UInt8
  vallen : Nat
  vals : ValWords
  seq : Nat
  stat : Bool
  assignedseqForFarreach : Nat
  clonenumForPktloss : Nat
  deriving DecidableEq

/-- A packet for an index that carries no value, record or session. The fields of the headers it lacks
are zero; `is_cached` is set by the lookup of the key in ingress. -/
def Packet.bare (optype : Optype) (key : Key) (idx : Nat) (isCached : Bool) : Packet :=
  { optype, key, idx, isCached
    isSampled := false, clientSid := 0, snapshotFlag := false, curFragidx := 0, validvalue := 0
    vallen := 0, vals := fun _ => 0, seq := 0, stat := false
    assignedseqForFarreach := 0, clonenumForPktloss := 0 }

/-- A write whose value fits into the switch. -/
abbrev Packet.IsWrite (packet : Packet) : Prop :=
  packet.optype = .putreqInswitch ∨ packet.optype = .delreqInswitch

/-- A response of the server to a read that found the slot not latest. -/
abbrev Packet.IsResponse (packet : Packet) : Prop :=
  packet.optype = .getresLatestSeqInswitch ∨ packet.optype = .getresDeletedSeqInswitch

/-- `fraginfo_hdr.cur_fragidx` as the tables match it. Only `PUTREQ_LARGEVALUE_INSWITCH` carries the
header, and the field of an absent header is zero. -/
def Packet.fragidx (packet : Packet) : Nat :=
  if packet.optype = .putreqLargevalueInswitch then packet.curFragidx else 0

structure Slot where
  validvalue : UInt8
  latest : Bool
  largevalueseq : Nat
  deleted : Bool
  vallen : Nat
  vals : ValWords
  savedseq : Nat
  case1 : Bool
  deriving DecidableEq

def Slot.initial : Slot :=
  { validvalue := 0, latest := false, largevalueseq := 0, deleted := false, vallen := 0
    vals := fun _ => 0, savedseq := 0, case1 := false }

def valueBytes (vallen : Nat) (vals : ValWords) : Val :=
  ((List.ofFn vals).flatMap fun word => Bytes.bigEndian 4 word.toNat).take vallen

def Slot.record (slot : Slot) : SnapshotRecord :=
  ⟨valueBytes slot.vallen slot.vals, slot.savedseq, !slot.deleted⟩

def Packet.record (packet : Packet) : SnapshotRecord :=
  ⟨valueBytes packet.vallen packet.vals, packet.seq, packet.stat⟩

inductive AccessValMode where
  | notAccess | get | setAndGet | resetAndGet
  deriving DecidableEq, Repr

/-- A packet on its way through the egress registers it reaches, the slot of its index and the
sequence counter of its key, with the metadata gathered so far. -/
structure Traversal where
  packet : Packet
  slot : Slot
  seqReg : Nat
  isHot : Bool
  isLatest : Bool
  largevalueseq : Nat
  isLargevalueblock : Bool
  isDeleted : Bool
  accessValMode : AccessValMode
  isCase1 : Bool

namespace Traversal

def init (packet : Packet) (slot : Slot) (seqReg : Nat) : Traversal :=
  { packet, slot, seqReg
    isHot := false, isLatest := false, largevalueseq := 0, isLargevalueblock := false
    isDeleted := false, accessValMode := .notAccess, isCase1 := false }

@[simp] def noAction (t : Traversal) : Traversal := t

-- regs/validvalue.p4

@[simp] def getValidvalue (t : Traversal) : Traversal :=
  { t with packet := { t.packet with validvalue := t.slot.validvalue } }

@[simp] def setValidvalue (t : Traversal) : Traversal :=
  { t with slot := { t.slot with validvalue := t.packet.validvalue } }

@[simp] def resetMetaValidvalue (t : Traversal) : Traversal :=
  { t with packet := { t.packet with validvalue := 0 } }

-- regs/seq.p4

/-- The counter wraps at the largest positive 32-bit number. -/
def nextSeq (seq : Nat) : Nat := if seq = 0x7FFFFFFF then 0 else seq + 1

@[simp] def assignSeq (t : Traversal) : Traversal :=
  { t with seqReg := nextSeq t.seqReg, packet := { t.packet with seq := nextSeq t.seqReg } }

@[simp] def getSavedseq (t : Traversal) : Traversal :=
  { t with packet := { t.packet with seq := t.slot.savedseq } }

@[simp] def setAndGetSavedseq (t : Traversal) : Traversal :=
  { t with slot := { t.slot with savedseq := t.packet.seq } }

-- regs/latest.p4: the set and reset actions report the new bit

@[simp] def getLatest (t : Traversal) : Traversal := { t with isLatest := t.slot.latest }

@[simp] def setAndGetLatest (t : Traversal) : Traversal :=
  { t with slot := { t.slot with latest := true }, isLatest := true }

@[simp] def resetAndGetLatest (t : Traversal) : Traversal :=
  { t with slot := { t.slot with latest := false }, isLatest := false }

@[simp] def resetIsLatest (t : Traversal) : Traversal := { t with isLatest := false }

-- regs/largevalueseq.p4

@[simp] def getLargevalueseq (t : Traversal) : Traversal := { t with largevalueseq := t.slot.largevalueseq }

@[simp] def resetMetaLargevalueseq (t : Traversal) : Traversal :=
  { t with largevalueseq := 0, isLargevalueblock := false }

@[simp] def setLargevalueseq (t : Traversal) : Traversal :=
  { t with
    slot := { t.slot with largevalueseq := t.packet.seq }
    largevalueseq := 0
    isLargevalueblock := false }

@[simp] def resetLargevalueseq (t : Traversal) : Traversal :=
  { t with
    slot := { t.slot with largevalueseq := 0 }
    largevalueseq := 0
    isLargevalueblock := false
    packet := { t.packet with assignedseqForFarreach := t.packet.seq } }

-- regs/deleted.p4: the set and reset actions report the new bit

@[simp] def getDeleted (t : Traversal) : Traversal := { t with isDeleted := t.slot.deleted }

@[simp] def setAndGetDeleted (t : Traversal) : Traversal :=
  { t with slot := { t.slot with deleted := true }, isDeleted := true }

@[simp] def resetAndGetDeleted (t : Traversal) : Traversal :=
  { t with slot := { t.slot with deleted := false }, isDeleted := false }

@[simp] def resetIsDeleted (t : Traversal) : Traversal := { t with isDeleted := false }

-- regs/val.p4: the length register chooses what the value registers do

@[simp] def getVallen (t : Traversal) : Traversal :=
  { t with packet := { t.packet with vallen := t.slot.vallen }, accessValMode := .get }

@[simp] def setAndGetVallen (t : Traversal) : Traversal :=
  { t with slot := { t.slot with vallen := t.packet.vallen }, accessValMode := .setAndGet }

@[simp] def resetAndGetVallen (t : Traversal) : Traversal :=
  { t with
    slot := { t.slot with vallen := 0 }
    packet := { t.packet with vallen := 0 }
    accessValMode := .resetAndGet }

@[simp] def resetAccessValMode (t : Traversal) : Traversal := { t with accessValMode := .notAccess }

/-- The tables `update_vallo1_tbl` to `update_valhi16_tbl`, which match on `access_val_mode` only and
differ in nothing but the word they work on. -/
@[simp] def updateValTbls (t : Traversal) : Traversal :=
  match t.accessValMode with
  | .notAccess => t
  | .get => { t with packet := { t.packet with vals := t.slot.vals } }
  | .setAndGet => { t with slot := { t.slot with vals := t.packet.vals } }
  | .resetAndGet =>
    { t with packet := { t.packet with vals := fun _ => 0 }, slot := { t.slot with vals := fun _ => 0 } }

-- regs/case1.p4

/-- On bmv2 the action writes `latest_reg` in place of `case1_reg`. Neither platform reads the register. -/
@[simp] def tryCase1 : Platform → Traversal → Traversal
  | .bmv2, t => { t with slot := { t.slot with latest := true }, isCase1 := true }
  | .tofino, t => { t with slot := { t.slot with case1 := true }, isCase1 := true }

@[simp] def resetIsCase1 (t : Traversal) : Traversal := { t with isCase1 := false }

end Traversal

end FarReach
