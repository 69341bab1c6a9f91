import FarReach.EgressEffects

namespace FarReach

open Traversal

/-- A packet that reaches a cached slot after the snapshot flag was set. -/
structure PeriodPacket (packet : Packet) : Prop where
  kind : packet.IsWrite ∨ packet.IsResponse
  cached : packet.isCached = true
  flag : packet.snapshotFlag = true

/-- The registers that the packets of one key reach. -/
structure Registers where
  slot : Slot
  seqReg : Nat

def Registers.step (config : SwitchConfig) (registers : Registers) (arrival : Packet × Bool) : Registers :=
  let outcome := egress config arrival.2 registers.slot registers.seqReg arrival.1
  ⟨outcome.slot, outcome.seqReg⟩

def Registers.reports (config : SwitchConfig) (registers : Registers) (arrival : Packet × Bool) : List Packet :=
  ((egress config arrival.2 registers.slot registers.seqReg arrival.1).emitted.map Prod.snd).filter
    (·.optype.isCase1Report)

def NoReports (config : SwitchConfig) : Registers → List (Packet × Bool) → Prop
  | _, [] => True
  | registers, arrival :: rest =>
    registers.reports config arrival = [] ∧ NoReports config (registers.step config arrival) rest

/-- The first packet that changes the record of the slot reports the record it has replaced, and
nothing is reported after it. -/
def FirstOverwriteReported (config : SwitchConfig) : Registers → List (Packet × Bool) → Prop
  | _, [] => True
  | registers, arrival :: rest =>
    if (registers.step config arrival).slot.record = registers.slot.record then
      FirstOverwriteReported config (registers.step config arrival) rest
    else
      (∃ report ∈ registers.reports config arrival, report.record = registers.slot.record) ∧
        NoReports config (registers.step config arrival) rest

/-- No write of the sequence has another record to store than the one the slot holds when it arrives. -/
def NeverOverwritten (config : SwitchConfig) : Registers → List (Packet × Bool) → Prop
  | _, [] => True
  | registers, arrival :: rest =>
    (arrival.1.IsWrite → arrival.1.written (nextSeq registers.seqReg) = registers.slot.record) ∧
      NeverOverwritten config (registers.step config arrival) rest

section Step

variable (config : SwitchConfig) {registers : Registers} {arrival : Packet × Bool}

theorem validvalue_step (period : PeriodPacket arrival.1) :
    (registers.step config arrival).slot.validvalue = registers.slot.validvalue := by
  rcases period.kind with write | response
  · exact (numbered_write write period.cached).1
  · exact validvalue_getres response period.cached

/-- No packet of a snapshot period reports anything. -/
theorem reports_step (period : PeriodPacket arrival.1) : registers.reports config arrival = [] := by
  unfold Registers.reports
  rcases period.kind with write | response
  · rw [List.filter_eq_nil_iff]
    intro report sent
    obtain ⟨entry, emitted, rfl⟩ := List.mem_map.mp sent
    simp [(emitted_write write period.cached emitted).2]
  · rw [emitted_getres response period.cached]
    rfl

theorem record_step (period : PeriodPacket arrival.1) (valid : registers.slot.validvalue = 1) :
    (registers.step config arrival).slot.record = registers.slot.record ↔
      (arrival.1.IsWrite → arrival.1.written (nextSeq registers.seqReg) = registers.slot.record) := by
  rcases period.kind with write | response
  · have stored : (registers.step config arrival).slot.record = _ :=
      record_write_valid write period.cached valid
    rw [stored]
    exact ⟨fun same _ => same, fun same => same write⟩
  · have kept : (registers.step config arrival).slot.record = _ := record_getres response period.cached
    have notWrite : ¬ arrival.1.IsWrite := by
      rcases response with live | deleted <;> simp [Packet.IsWrite, *]
    simp [kept, notWrite]

end Step

/-- The data plane never reports an overwritten record, so the property is left with the sequences in
which nothing is overwritten. -/
theorem first_overwrite_reported_iff (config : SwitchConfig) (registers : Registers)
    (valid : registers.slot.validvalue = 1) (arrivals : List (Packet × Bool))
    (period : ∀ arrival ∈ arrivals, PeriodPacket arrival.1) :
    FirstOverwriteReported config registers arrivals ↔ NeverOverwritten config registers arrivals := by
  induction arrivals generalizing registers with
  | nil => rfl
  | cons arrival rest ih =>
    have here := period arrival List.mem_cons_self
    have stillValid : (registers.step config arrival).slot.validvalue = 1 := by
      rw [validvalue_step config here, valid]
    have later := ih (registers.step config arrival) stillValid fun other member =>
      period other (List.mem_cons_of_mem _ member)
    unfold FirstOverwriteReported NeverOverwritten
    rw [← record_step config here valid]
    by_cases kept : (registers.step config arrival).slot.record = registers.slot.record
    · rw [if_pos kept, later]
      exact ⟨fun rest => ⟨kept, rest⟩, And.right⟩
    · rw [if_neg kept, reports_step config here]
      simp [kept]

def Slot.sample : Slot := { Slot.initial with validvalue := 1, latest := true, vallen := 1, savedseq := 5 }

/-- Two responses overwrite nothing, and a `PUT` with a `DEL` behind it does. -/
theorem first_overwrite_reported_iff_written :
    let packet (optype : Optype) : Packet × Bool :=
      ({ Packet.bare optype ⟨0, 0, 0, 0⟩ 0 true with clientSid := 1, snapshotFlag := true, vallen := 1 }, false)
    let getres := packet .getresLatestSeqInswitch
    FirstOverwriteReported ⟨.bmv2, [1], 2⟩ ⟨Slot.sample, 7⟩ [getres, getres] ∧
      ¬ FirstOverwriteReported ⟨.bmv2, [1], 2⟩ ⟨Slot.sample, 7⟩
        [packet .putreqInswitch, packet .delreqInswitch, getres] := by
  intro packet getres
  have response : PeriodPacket getres.1 := ⟨Or.inr (Or.inl rfl), rfl, rfl⟩
  have noWrite : ¬ getres.1.IsWrite := by rintro (put | del) <;> contradiction
  constructor
  · rw [first_overwrite_reported_iff _ _ rfl _ (by simp [response])]
    simp [NeverOverwritten, noWrite]
  · have put : PeriodPacket (packet .putreqInswitch).1 := ⟨Or.inl (Or.inl rfl), rfl, rfl⟩
    have del : PeriodPacket (packet .delreqInswitch).1 := ⟨Or.inl (Or.inr rfl), rfl, rfl⟩
    rw [first_overwrite_reported_iff _ _ rfl _ (by simp [response, put, del])]
    exact fun kept => absurd (congrArg SnapshotRecord.seq (kept.1 (Or.inl rfl))) (by decide)

/-- The first `PUT` of a period replaces a record and reports nothing. -/
theorem overwritten_put_not_reported :
    ¬ FirstOverwriteReported ⟨.bmv2, [1], 2⟩ ⟨Slot.sample, 7⟩
      [({ Packet.bare .putreqInswitch ⟨0, 0, 0, 0⟩ 0 true with
          clientSid := 1, snapshotFlag := true, vallen := 1 }, false)] := by
  have period : PeriodPacket { Packet.bare .putreqInswitch ⟨0, 0, 0, 0⟩ 0 true with
      clientSid := 1, snapshotFlag := true, vallen := 1 } := ⟨Or.inl (Or.inl rfl), rfl, rfl⟩
  unfold FirstOverwriteReported
  rw [if_neg]
  · rintro ⟨⟨report, sent, -⟩, -⟩
    rw [reports_step _ period] at sent
    simp at sent
  · intro kept
    have stored := (record_step _ period rfl).mp kept (Or.inl rfl)
    exact absurd (congrArg SnapshotRecord.seq stored) (by decide)

end FarReach
