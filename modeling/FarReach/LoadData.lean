import FarReach.EgressForward
import FarReach.EgressRegisters

namespace FarReach

open MatchTable Traversal

/-- A request to load a slot's record, as the control plane sends it: it carries no value. The key of
an eviction is still cached. -/
structure LoadRequest (packet : Packet) : Prop where
  load : packet.optype = .cacheEvictLoaddataInswitch ∧ packet.isCached = true ∨
    packet.optype = .loadsnapshotdataInswitch
  clientSid : packet.clientSid = 0
  snapshotFlag : packet.snapshotFlag = false
  vallen : packet.vallen = 0

theorem LoadRequest.optype {packet : Packet} (request : LoadRequest packet) :
    packet.optype = .cacheEvictLoaddataInswitch ∨ packet.optype = .loadsnapshotdataInswitch :=
  request.load.imp_left And.left

def loadAckType (platform : Platform) (optype : Optype) : Optype :=
  if platform = .bmv2 ∧ optype = .loadsnapshotdataInswitch then .loadsnapshotdataInswitchAck
  else .cacheEvictLoaddataInswitchAck

/-- Whatever the registers have put into a load request, it is acknowledged to the reflector. -/
theorem forward_load {config : SwitchConfig} {packet : Packet} (request : LoadRequest packet)
    (slot : Slot) (seqReg vallen : Nat) (vals : ValWords) (mode : AccessValMode) :
    ({ init { packet with validvalue := 0, seq := slot.savedseq, vallen, vals } slot seqReg with
        isDeleted := slot.deleted, accessValMode := mode }.forward config).emitted =
      [(.mirror config.reflectorSid,
        { packet with
          optype := loadAckType config.platform packet.optype
          validvalue := 0, seq := slot.savedseq, vallen, vals, stat := !slot.deleted })] := by
  have sid := request.clientSid
  have flag := request.snapshotFlag
  rcases request.load with ⟨evict, cached⟩ | snapshot
  · simp [forward, init, loadAckType, egPortForwardAction, egPortForwardTbl, *]
  · cases platform : config.platform <;>
      simp [forward, init, loadAckType, egPortForwardAction, egPortForwardTbl, *]

section Egress

variable {config : SwitchConfig} {packet : Packet}

theorem egress_load_bmv2 (bmv2 : config.platform = .bmv2) (counted : Bool) (request : LoadRequest packet)
    (slot : Slot) (seqReg : Nat) :
    egress config counted slot seqReg packet =
      ⟨slot, seqReg, [(.mirror config.reflectorSid,
        { packet with
          optype := loadAckType config.platform packet.optype
          validvalue := 0, seq := slot.savedseq, vallen := slot.vallen, vals := slot.vals
          stat := !slot.deleted })]⟩ := by
  rw [egress_eq (bmv2 ▸ registers_load_bmv2 request.optype), forward_load request]
  rfl

theorem egress_load_tofino (tofino : config.platform = .tofino) (counted : Bool)
    (request : LoadRequest packet) (slot : Slot) (seqReg : Nat) :
    egress config counted slot seqReg packet =
      ⟨slot, seqReg, [(.mirror config.reflectorSid,
        { packet with
          optype := loadAckType config.platform packet.optype
          validvalue := 0, seq := slot.savedseq, stat := !slot.deleted })]⟩ := by
  rw [egress_eq (tofino ▸ registers_load_tofino request.optype), forward_load request]
  rfl

end Egress

/-- The type by which the reflector hands the answer of a load to the thread that waits for it: those of
evictions to the popworker, those of snapshots to the loader. -/
def awaitedAck (optype : Optype) : Optype :=
  if optype = .loadsnapshotdataInswitch then .loadsnapshotdataInswitchAck else .cacheEvictLoaddataInswitchAck

/-- The load of a slot is answered, to the thread that waits for it, with the record the slot stores, and
the slot stays as it was. -/
def LoadAnswered (config : SwitchConfig) (counted : Bool) (slot : Slot) (seqReg : Nat) (packet : Packet) :
    Prop :=
  (egress config counted slot seqReg packet).slot = slot ∧
    ∃ answer, (egress config counted slot seqReg packet).emitted = [(.mirror config.reflectorSid, answer)] ∧
      answer.optype = awaitedAck packet.optype ∧ answer.vallen = slot.vallen ∧ answer.record = slot.record

theorem loadAnswered_bmv2 {config : SwitchConfig} (bmv2 : config.platform = .bmv2) (counted : Bool)
    {packet : Packet} (request : LoadRequest packet) (slot : Slot) (seqReg : Nat) :
    LoadAnswered config counted slot seqReg packet := by
  unfold LoadAnswered
  rw [egress_load_bmv2 bmv2 counted request]
  exact ⟨rfl, _, rfl, by simp [loadAckType, awaitedAck, bmv2], rfl, rfl⟩

/-- The Tofino tables answer a load with an empty value, whatever the slot stores, and always as the load
of an eviction. -/
theorem tofino_load_answered_iff {config : SwitchConfig} (tofino : config.platform = .tofino)
    (counted : Bool) {packet : Packet} (request : LoadRequest packet) (slot : Slot) (seqReg : Nat) :
    LoadAnswered config counted slot seqReg packet ↔
      packet.optype = .cacheEvictLoaddataInswitch ∧ slot.vallen = 0 := by
  have ackType : loadAckType config.platform packet.optype = .cacheEvictLoaddataInswitchAck := by
    simp [loadAckType, tofino]
  unfold LoadAnswered
  rw [egress_load_tofino tofino counted request, ackType]
  constructor
  · rintro ⟨-, answer, emitted, awaited, sameLength, -⟩
    simp only [List.cons.injEq, Prod.mk.injEq, and_true, true_and] at emitted
    subst emitted
    refine ⟨request.optype.resolve_right fun snapshot => ?_, sameLength.symm.trans request.vallen⟩
    rw [snapshot] at awaited
    cases awaited
  · rintro ⟨evict, empty⟩
    refine ⟨rfl, _, rfl, by rw [evict]; rfl, request.vallen.trans empty.symm, ?_⟩
    simp [Packet.record, Slot.record, valueBytes, request.vallen, empty]

/-- A record without a value, stored by a `CACHE_POP_INSWITCH`, is answered to the popworker. -/
theorem tofino_load_answered_iff_popped :
    let slot := (egress ⟨.tofino, [1], 2⟩ false Slot.initial 0
      { Packet.bare .cachePopInswitch ⟨7, 0, 0, 0⟩ 0 false with seq := 5, stat := true }).slot
    slot.record = ⟨[], 5, true⟩ ∧
      LoadAnswered ⟨.tofino, [1], 2⟩ false slot 0 (Packet.bare .cacheEvictLoaddataInswitch ⟨7, 0, 0, 0⟩ 0 true) := by
  intro slot
  have request : LoadRequest (Packet.bare .cacheEvictLoaddataInswitch ⟨7, 0, 0, 0⟩ 0 true) :=
    ⟨Or.inl ⟨rfl, rfl⟩, rfl, rfl, rfl⟩
  have stored : slot.vallen = 0 ∧ slot.record = ⟨[], 5, true⟩ := by decide +kernel
  exact ⟨stored.2, (tofino_load_answered_iff rfl false request slot 0).mpr ⟨rfl, stored.1⟩⟩

/-- A value of one byte, stored by a `CACHE_POP_INSWITCH`, is answered as empty. -/
theorem tofino_load_loses_value :
    ¬ LoadAnswered ⟨.tofino, [1], 2⟩ false
      (egress ⟨.tofino, [1], 2⟩ false Slot.initial 0
        { Packet.bare .cachePopInswitch ⟨0, 0, 0, 0⟩ 0 false with vallen := 1, seq := 5, stat := true }).slot
      0 (Packet.bare .cacheEvictLoaddataInswitch ⟨0, 0, 0, 0⟩ 0 true) := by
  have request : LoadRequest (Packet.bare .cacheEvictLoaddataInswitch ⟨0, 0, 0, 0⟩ 0 true) :=
    ⟨Or.inl ⟨rfl, rfl⟩, rfl, rfl, rfl⟩
  rintro ⟨-, answer, emitted, -, sameLength, -⟩
  rw [egress_load_tofino rfl false request] at emitted
  rw [egress_eq (registers_cachePop rfl)] at sameLength
  simp only [List.cons.injEq, Prod.mk.injEq, and_true, true_and] at emitted
  rw [← emitted] at sameLength
  exact absurd sameLength (by decide)

end FarReach
