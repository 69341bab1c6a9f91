import FarReach.EgressForward
import FarReach.EgressRegisters

namespace FarReach

open Traversal

def Optype.isCase1Report : Optype → Bool
  | .getresLatestSeqInswitchCase1 | .getresDeletedSeqInswitchCase1 => true
  | .putreqSeqInswitchCase1 | .delreqSeqInswitchCase1 => true
  | _ => false

theorem packet_of_mem_emitted {r : Routing} {entry : Port × Packet} (sent : entry ∈ r.emitted) :
    entry.2 = r.packet := by
  simp only [Routing.emitted, List.mem_append, List.mem_map] at sent
  rcases sent with unicast | ⟨sid, -, rfl⟩
  · split at unicast
    · simp at unicast
    · rw [List.mem_singleton.mp unicast]
  · rfl

/-- The forms in which a write whose value fits into the switch goes on to the server. -/
def Optype.isForwardedWrite : Optype → Bool
  | .putreqSeq | .putreqPopSeq | .putreqSeqCase3 | .putreqPopSeqCase3 => true
  | .putreqSeqBeingevicted | .putreqSeqCase3Beingevicted => true
  | .delreqSeq | .delreqSeqCase3 | .delreqSeqBeingevicted | .delreqSeqCase3Beingevicted => true
  | _ => false

/-- The forms in which a fragment of a large value goes on to the server. -/
def Optype.isForwardedFragment : Optype → Bool
  | .putreqLargevalueSeq | .putreqLargevalueSeqCase3 => true
  | .putreqLargevalueSeqBeingevicted | .putreqLargevalueSeqCase3Beingevicted => true
  | _ => false

def Optype.isWriteAck : Optype → Bool
  | .putresSeq | .delresSeq => true
  | _ => false

def Packet.written (packet : Packet) (seq : Nat) : SnapshotRecord :=
  if packet.optype = .delreqInswitch then ⟨[], seq, false⟩
  else ⟨valueBytes packet.vallen packet.vals, seq, true⟩

section Effects

variable {config : SwitchConfig} {counted : Bool} {packet : Packet} {slot : Slot} {seqReg : Nat}

theorem record_write_valid (write : packet.IsWrite) (cached : packet.isCached = true)
    (valid : slot.validvalue = 1) :
    (egress config counted slot seqReg packet).slot.record = packet.written (nextSeq seqReg) := by
  rcases write with put | del
  · rw [egress_eq (registers_put_valid put cached valid)]
    simp [init, Slot.record, Slot.stored, Packet.written, put]
  · rw [egress_eq (registers_del_valid del cached valid)]
    simp [init, Slot.record, Slot.stored, Packet.written, valueBytes, del]

theorem numbered_write (write : packet.IsWrite) (cached : packet.isCached = true) :
    (egress config counted slot seqReg packet).slot.validvalue = slot.validvalue ∧
      (egress config counted slot seqReg packet).seqReg = nextSeq seqReg := by
  by_cases valid : slot.validvalue = 1
  · rcases write with put | del
    · rw [egress_eq (registers_put_valid put cached valid)]
      exact ⟨rfl, rfl⟩
    · rw [egress_eq (registers_del_valid del cached valid)]
      exact ⟨rfl, rfl⟩
  by_cases evicted : slot.validvalue = 3
  · rw [egress_eq (registers_write_evicted write cached evicted)]
    exact ⟨rfl, rfl⟩
  · rw [egress_eq (registers_write_invalid write cached valid evicted)]
    exact ⟨rfl, rfl⟩

/-- A response of the server makes a valid slot the latest, and never changes its record. -/
theorem slot_getres (response : packet.IsResponse) (cached : packet.isCached = true) :
    (egress config counted slot seqReg packet).slot =
        (if slot.validvalue = 1 then { slot with latest := true, largevalueseq := 0 } else slot) ∧
      (egress config counted slot seqReg packet).seqReg = seqReg := by
  by_cases valid : slot.validvalue = 1
  · rw [if_pos valid, egress_eq (registers_getres_valid response cached valid)]
    exact ⟨rfl, rfl⟩
  · rw [if_neg valid, egress_eq (registers_getres_invalid response cached valid)]
    exact ⟨rfl, rfl⟩

theorem record_getres (response : packet.IsResponse) (cached : packet.isCached = true) :
    (egress config counted slot seqReg packet).slot.record = slot.record := by
  rw [(slot_getres response cached).1]
  split <;> rfl

theorem validvalue_getres (response : packet.IsResponse) (cached : packet.isCached = true) :
    (egress config counted slot seqReg packet).slot.validvalue = slot.validvalue := by
  rw [(slot_getres response cached).1]
  split <;> rfl

/-- A response of the server that is for the slot goes no further. It finds the latest bit set and
reports nothing. -/
theorem emitted_getres (response : packet.IsResponse)
    (cached : packet.isCached = true) :
    (egress config counted slot seqReg packet).emitted = [] := by
  have silent := fun key latest => anotherEgPortForwardAction_getres config false key response latest
  have passed : packet.optype ∉ egPortForwardOps := by
    rcases response with live | deleted <;> simp [egPortForwardOps, *]
  by_cases valid : slot.validvalue = 1
  · rw [egress_eq (registers_getres_valid response cached valid)]
    rcases response with live | deleted <;> simp_all [forward, init]
  · rw [egress_eq (registers_getres_invalid response cached valid)]
    rcases response with live | deleted <;> simp_all [forward, init]

section Actions

variable {key : ForwardKey} {r : Routing} (cached : key.isCached = true)
    (stored : key.validvalue ≠ 0 → key.validvalue ≠ 3 →
      r.packet.assignedseqForFarreach = r.packet.seq ∧ key.isCase1 = key.snapshotFlag)
include cached stored

/-- Where a write of a cached key goes: the sequence number it leaves with is the assigned one. -/
theorem putreqAction_kept :
    (putreqAction config key r).packet.seq = r.packet.seq ∧
      (putreqAction config key r).packet.optype.isCase1Report = false := by
  unfold putreqAction
  by_cases invalid : key.validvalue = 0
  · cases flag : key.snapshotFlag <;> simp [Optype.isCase1Report, *]
  by_cases evicted : key.validvalue = 3
  · cases flag : key.snapshotFlag <;> simp [Optype.isCase1Report, *]
  obtain ⟨assigned, case1⟩ := stored invalid evicted
  simp [Optype.isCase1Report, *]

theorem delreqAction_kept :
    (delreqAction config key r).packet.seq = r.packet.seq ∧
      (delreqAction config key r).packet.optype.isCase1Report = false := by
  unfold delreqAction
  by_cases invalid : key.validvalue = 0
  · cases flag : key.snapshotFlag <;> simp [Optype.isCase1Report, *]
  by_cases evicted : key.validvalue = 3
  · cases flag : key.snapshotFlag <;> simp [Optype.isCase1Report, *]
  obtain ⟨assigned, case1⟩ := stored invalid evicted
  simp [Optype.isCase1Report, *]

end Actions

@[simp] theorem packet_dropTbl (r : Routing) : r.dropTbl.packet = r.packet := by
  unfold Routing.dropTbl
  split <;> rfl

theorem forward_write {t : Traversal} (write : t.packet.IsWrite)
    (cached : t.packet.isCached = true)
    (stored : t.packet.validvalue = 1 →
      t.packet.assignedseqForFarreach = t.packet.seq ∧ t.isCase1 = t.packet.snapshotFlag) :
    (t.forward config).packet.seq = t.packet.seq ∧
      (t.forward config).packet.optype.isCase1Report = false := by
  have valid : t.forwardKey ∈ forwardKeys config → t.packet.validvalue ≠ 0 → t.packet.validvalue ≠ 3 →
      t.packet.validvalue = 1 := by
    intro known notInvalid notEvicted
    simpa [notInvalid, notEvicted] using ((mem_forwardKeys config _).mp known).1
  rcases write with put | del
  · simp only [forward, packet_dropTbl]
    simp only [anotherEgPortForward, put]
    rw [anotherEgPortForwardAction_of_absent _ _ _ (by decide)]
    simp only [Routing.noAction, put]
    rw [egPortForwardAction_putreq]
    split
    · rename_i entered
      exact putreqAction_kept cached fun notInvalid notEvicted => stored (valid entered.1 notInvalid notEvicted)
    · exact ⟨rfl, by simp [put, Optype.isCase1Report]⟩
  · simp only [forward, packet_dropTbl]
    simp only [anotherEgPortForward, del]
    rw [anotherEgPortForwardAction_of_absent _ _ _ (by decide)]
    simp only [Routing.noAction, del]
    rw [egPortForwardAction_delreq]
    split
    · rename_i entered
      exact delreqAction_kept cached fun notInvalid notEvicted => stored (valid entered.1 notInvalid notEvicted)
    · exact ⟨rfl, by simp [del, Optype.isCase1Report]⟩

/-- Whatever becomes of a write, it leaves with the sequence number it was assigned, and it is not a
report: `try_case1` answers one, and the entries that report ask for zero. -/
theorem emitted_write (write : packet.IsWrite)
    (cached : packet.isCached = true) {entry : Port × Packet}
    (sent : entry ∈ (egress config counted slot seqReg packet).emitted) :
    entry.2.seq = nextSeq seqReg ∧ entry.2.optype.isCase1Report = false := by
  by_cases valid : slot.validvalue = 1
  · rcases write with put | del
    · rw [egress_eq (registers_put_valid put cached valid)] at sent
      rw [packet_of_mem_emitted sent]
      exact forward_write (Or.inl put) cached fun _ => ⟨rfl, rfl⟩
    · rw [egress_eq (registers_del_valid del cached valid)] at sent
      rw [packet_of_mem_emitted sent]
      exact forward_write (Or.inr del) cached fun _ => ⟨rfl, rfl⟩
  · by_cases evicted : slot.validvalue = 3
    · rw [egress_eq (registers_write_evicted write cached evicted)] at sent
      rw [packet_of_mem_emitted sent]
      exact forward_write write cached fun valid => absurd valid (show (3 : UInt8) ≠ 1 by decide)
    · rw [egress_eq (registers_write_invalid write cached valid evicted)] at sent
      rw [packet_of_mem_emitted sent]
      exact forward_write write cached fun other => absurd other valid

/-- What a read can become: an answer needs the latest bit of a slot that is not invalid. -/
theorem getreqAction_cases (isLargevalueblock : Bool) (key : ForwardKey) (r : Routing)
    (cached : key.isCached = true) :
    (getreqAction isLargevalueblock key r).packet.seq = r.packet.seq ∧
      ((getreqAction isLargevalueblock key r).packet.optype ∈
          [.getreq, .getreqNlatest, .getreqLargevalueblockRecord, .getreqBeingevictedRecord] ∨
        (getreqAction isLargevalueblock key r).packet.optype = .getresSeq ∧ key.isLatest = true ∧
          key.validvalue ≠ 0) := by
  unfold getreqAction
  by_cases invalid : key.validvalue = 0
  · simp [cached, invalid]
  by_cases valid : key.validvalue = 1 <;> cases latest : key.isLatest <;> cases isLargevalueblock <;>
    simp [cached, invalid, valid]

theorem forward_getreq (config : SwitchConfig) (t : Traversal) (get : t.packet.optype = .getreqInswitch)
    (cached : t.packet.isCached = true) :
    (t.forward config).packet.seq = t.packet.seq ∧
      ((t.forward config).packet.optype ∈ [.getreqInswitch, .getreq, .getreqNlatest,
          .getreqLargevalueblockRecord, .getreqBeingevictedRecord] ∨
        (t.forward config).packet.optype = .getresSeq ∧ t.isLatest = true ∧
          (t.packet.validvalue = 1 ∨ t.packet.validvalue = 3)) := by
  simp only [forward, packet_dropTbl, anotherEgPortForward, get]
  rw [anotherEgPortForwardAction_getreq]
  split
  · rename_i entered
    have routed := getreqAction_cases t.isLargevalueblock t.forwardKey ⟨t.packet, false, none⟩ cached
    generalize getreqAction t.isLargevalueblock t.forwardKey ⟨t.packet, false, none⟩ = r at routed
    obtain ⟨seq, other | ⟨answer, latest, notInvalid⟩⟩ := routed
    · have passed : r.packet.optype ∉ egPortForwardOps := by
        simp only [List.mem_cons, List.not_mem_nil, or_false] at other
        rcases other with kind | kind | kind | kind <;> simp [kind]
      rw [egPortForwardAction_of_absent _ _ passed]
      exact ⟨seq, Or.inl (List.mem_cons_of_mem _ other)⟩
    · have passed : r.packet.optype ∉ egPortForwardOps := by simp [answer]
      rw [egPortForwardAction_of_absent _ _ passed]
      refine ⟨seq, Or.inr ⟨answer, latest, ?_⟩⟩
      have listed := ((mem_forwardKeys config _).mp entered.1).1
      simp only [validvalueList, List.mem_cons, List.not_mem_nil, or_false] at listed
      exact listed.resolve_left notInvalid
  · have passed : t.packet.optype ∉ egPortForwardOps := by simp [get]
    simp only [Routing.noAction]
    rw [egPortForwardAction_of_absent _ _ passed]
    exact ⟨rfl, Or.inl (by simp [get])⟩

/-- A read is answered from the slot only if the slot is latest and valid or being evicted, with the
sequence number of the slot; otherwise it goes on to the server. -/
theorem emitted_getreq (get : packet.optype = .getreqInswitch) (cached : packet.isCached = true)
    {entry : Port × Packet} (sent : entry ∈ (egress config counted slot seqReg packet).emitted) :
    entry.2.optype ∈ [.getreqInswitch, .getreq, .getreqNlatest, .getreqLargevalueblockRecord,
        .getreqBeingevictedRecord] ∨
      entry.2.optype = .getresSeq ∧ entry.2.seq = slot.savedseq ∧ slot.latest = true ∧
        (slot.validvalue = 1 ∨ slot.validvalue = 3) := by
  by_cases known : slot.validvalue ∈ validvalueList
  · obtain ⟨isLargevalueblock, largevalueseq, registers⟩ :=
      @registers_getreq config.platform counted packet slot seqReg get cached known
    rw [egress_eq registers] at sent
    rw [packet_of_mem_emitted sent]
    refine (forward_getreq config _ get cached).2.imp id ?_
    rintro ⟨answer, latest, valid⟩
    exact ⟨answer, (forward_getreq config _ get cached).1, latest, valid⟩
  · rw [egress_eq (registers_getreq_unknown get cached known)] at sent
    rw [packet_of_mem_emitted sent]
    refine (forward_getreq config _ get cached).2.imp id ?_
    rintro ⟨-, latest, -⟩
    simp [init] at latest

theorem forward_putreqLargevalue (config : SwitchConfig) (t : Traversal)
    (large : t.packet.optype = .putreqLargevalueInswitch) :
    (t.forward config).packet.seq = t.packet.seq ∧
      (t.forward config).packet.curFragidx = t.packet.curFragidx ∧
      ((t.forward config).packet.optype = .putreqLargevalueInswitch ∨
        (t.forward config).packet.optype.isForwardedFragment = true) := by
  simp only [forward, packet_dropTbl, anotherEgPortForward, large]
  rw [anotherEgPortForwardAction_putreqLargevalue]
  split
  · unfold putreqLargevalueAction
    split_ifs <;> simp [Optype.isForwardedFragment]
  · simp [large]

theorem emitted_putreqLargevalue (large : packet.optype = .putreqLargevalueInswitch)
    (cached : packet.isCached = true) {entry : Port × Packet}
    (sent : entry ∈ (egress config counted slot seqReg packet).emitted) :
    entry.2.curFragidx = packet.curFragidx ∧
      (entry.2.optype = .putreqLargevalueInswitch ∨ entry.2.optype.isForwardedFragment = true) ∧
      (packet.curFragidx = 0 → entry.2.seq = nextSeq seqReg) := by
  by_cases first : packet.curFragidx = 0
  · have reached := (@registers_putreqLargevalue config.platform counted packet slot seqReg large cached first).2.2
    obtain ⟨seq, fragidx, kind⟩ := forward_putreqLargevalue config
      ((init packet slot seqReg).accessRegisters config.platform counted) (by rw [reached]; exact large)
    rw [reached] at seq fragidx
    rw [packet_of_mem_emitted sent]
    exact ⟨fragidx, kind, fun _ => seq⟩
  · rw [egress_eq (registers_putreqLargevalue_rest large cached first)] at sent
    rw [packet_of_mem_emitted sent]
    obtain ⟨-, fragidx, kind⟩ := forward_putreqLargevalue config
      (init { packet with validvalue := slot.validvalue } slot seqReg) large
    exact ⟨fragidx, kind, fun zero => absurd zero first⟩

end Effects

end FarReach
