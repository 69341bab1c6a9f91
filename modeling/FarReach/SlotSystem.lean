import FarReach.Runs
import FarReach.ServerWorker

namespace FarReach

open Traversal

/-- One key, the slot that caches it, the server that owns it, and what is under way between them. A packet
stays on the wire, so it may arrive late, out of order or more than once. `assigned` and `acked` are
the numbers of the writes that the switch has numbered and that a client knows to be done. `missed` are
those of the writes that were numbered behind the record which the last `CACHE_POP_INSWITCH` brought, and
of the writes that have passed since, up to the last one that the slot stored. -/
structure SlotSystem where
  slot : Slot
  seqReg : Nat
  kv : KvStore
  wire : List Packet
  assigned : List Nat
  acked : List Nat
  missed : List Nat

inductive SlotEvent where
  /-- A `CACHE_POP_INSWITCH` or `SETVALID_INSWITCH` of the control plane. -/
  | control (packet : Packet) (counted : Bool)
  /-- A read, a write or a fragment of a large value from a client. -/
  | request (packet : Packet) (counted : Bool)
  /-- The server takes a packet; `payload` is the value of a large one. -/
  | serve (position : Nat) (payload : Val)
  /-- A response of the server comes back to the switch. -/
  | respond (position : Nat) (snapshotFlag counted : Bool)
  /-- The acknowledgement of a write reaches its client. -/
  | acknowledge (position : Nat)
  /-- A write of another key takes a number from the same counter. -/
  | otherKey

/-- The packets that `access_seq_tbl` assigns a number to. -/
abbrev Packet.TakesSeq (packet : Packet) : Prop :=
  packet.IsWrite ∨ packet.optype = .putreqLargevalueInswitch ∧ packet.curFragidx = 0

/-- The ingress pipeline on a response of the server for a cached key. -/
def Packet.inswitch (packet : Packet) (snapshotFlag : Bool) : Option Packet :=
  match packet.optype with
  | .getresLatestSeq =>
    some { packet with optype := .getresLatestSeqInswitch, isCached := true, clientSid := 0, snapshotFlag }
  | .getresDeletedSeq =>
    some { packet with optype := .getresDeletedSeqInswitch, isCached := true, clientSid := 0, snapshotFlag }
  | _ => none

namespace SlotSystem

/-- A packet of the data plane passes the slot; what leaves is on the wire. -/
def pass (config : SwitchConfig) (s : SlotSystem) (packet : Packet) (counted : Bool) : SlotSystem :=
  let outcome := egress config counted s.slot s.seqReg packet
  { s with
    slot := outcome.slot
    seqReg := outcome.seqReg
    wire := s.wire ++ outcome.emitted.map Prod.snd
    assigned := if packet.TakesSeq then outcome.seqReg :: s.assigned else s.assigned
    missed :=
      if packet.IsWrite ∧ s.slot.validvalue = 1 then []
      else if packet.TakesSeq then outcome.seqReg :: s.missed
      else s.missed }

def serve (s : SlotSystem) (request : Packet) (payload : Val) : SlotSystem :=
  let (kv, answer) := serverWorker s.kv request payload
  match answer with
  | some (.packet response) => { s with kv, wire := s.wire ++ [response] }
  | _ => { s with kv }

def step (config : SwitchConfig) (s : SlotSystem) : SlotEvent → SlotSystem
  -- the acknowledgement of a control packet goes to the reflector
  | .control packet counted =>
    { s with
      slot := (egress config counted s.slot s.seqReg packet).slot
      missed := if packet.optype = .cachePopInswitch then s.assigned.filter (packet.seq < ·) else s.missed }
  | .request packet counted => s.pass config packet counted
  | .serve position payload =>
    match s.wire[position]? with
    | some request => s.serve request payload
    | none => s
  | .respond position snapshotFlag counted =>
    match s.wire[position]?.bind (·.inswitch snapshotFlag) with
    | some response => s.pass config response counted
    | none => s
  | .acknowledge position =>
    match s.wire[position]? with
    | some response => if response.optype.isWriteAck then { s with acked := response.seq :: s.acked } else s
    | none => s
  | .otherKey => { s with seqReg := nextSeq s.seqReg }

def Possible (key : Key) : SlotEvent → Prop
  | .control packet _ => packet.optype = .cachePopInswitch ∨ packet.optype = .setvalidInswitch
  | .request packet _ =>
    packet.key = key ∧ packet.isCached = true ∧
      (packet.IsWrite ∨ packet.optype = .putreqLargevalueInswitch ∨ packet.optype = .getreqInswitch)
  | _ => True

instance (key : Key) : (event : SlotEvent) → Decidable (Possible key event)
  | .control _ _ => inferInstanceAs (Decidable (_ ∨ _))
  | .request _ _ => inferInstanceAs (Decidable (_ ∧ _ ∧ _))
  | .serve _ _ | .respond _ _ _ | .acknowledge _ | .otherKey => isTrue trivial

def Current (s : SlotSystem) : Prop := ∀ seq ∈ s.assigned, seq ≤ s.slot.savedseq

/-- The slot may answer a read. -/
abbrev Readable (slot : Slot) : Prop := slot.validvalue = 1 ∨ slot.validvalue = 3

/-- What is asked of the packets. The counter does not wrap; and before a response of the server sets the latest
bit, or a `SETVALID_INSWITCH` opens the slot while the bit is set, no write has passed that is not in the
slot. -/
def Careful (s : SlotSystem) : SlotEvent → Prop
  | .control packet _ =>
    packet.optype = .setvalidInswitch → packet.validvalue = 1 ∨ packet.validvalue = 3 →
      s.slot.latest = true → s.missed = []
  | .request packet _ => packet.TakesSeq → s.seqReg ≠ 0x7FFFFFFF
  | .respond _ _ _ => s.slot.validvalue = 1 → s.slot.latest = false → s.missed = []
  | .otherKey => s.seqReg ≠ 0x7FFFFFFF
  | .serve _ _ | .acknowledge _ => True

instance (s : SlotSystem) : (event : SlotEvent) → Decidable (Careful s event)
  | .control _ _ | .respond _ _ _ => inferInstanceAs (Decidable (_ → _ → _))
  | .request _ _ => inferInstanceAs (Decidable (_ → _))
  | .otherKey => inferInstanceAs (Decidable (_ ≠ _))
  | .serve _ _ | .acknowledge _ => isTrue trivial

/-- A read that is answered from the slot returns a record at least as new as every write that was
acknowledged. -/
def ReadsFresh (config : SwitchConfig) (s : SlotSystem) : Prop :=
  ∀ (packet : Packet) (counted : Bool), packet.optype = .getreqInswitch → packet.isCached = true →
    ∀ answer ∈ (egress config counted s.slot s.seqReg packet).emitted, answer.2.optype = .getresSeq →
      ∀ seq ∈ s.acked, seq ≤ answer.2.seq

/-- Where a run begins: the slot has not served reads yet, and earlier writes of the key, which passed
while it was not cached, have their numbers from the same counter. -/
structure Start (s : SlotSystem) : Prop where
  latest : s.slot.latest = false
  wire : ∀ packet ∈ s.wire, packet.IsStamped → packet.seq ∈ s.assigned
  acked : s.acked ⊆ s.assigned
  assigned : ∀ seq ∈ s.assigned, seq ≤ s.seqReg
  missed : s.missed = s.assigned

end SlotSystem

end FarReach
