import FarReach.EgressTables

namespace FarReach

open Traversal Packet

/-- What a write to a valid slot leaves there. The flag `case1` is kept on Tofino only. -/
def Slot.stored (slot : Slot) (platform : Platform) (snapshotFlag : Bool) (seq vallen : Nat)
    (vals : ValWords) (deleted : Bool) : Slot :=
  { slot with
    latest := true, largevalueseq := 0, deleted, vallen, vals, savedseq := seq
    case1 := slot.case1 || (snapshotFlag && decide (platform = .tofino)) }

section Registers

variable {platform : Platform} {counted : Bool} {packet : Packet} {slot : Slot} {seqReg : Nat}

theorem registers_put_valid (put : packet.optype = .putreqInswitch) (cached : packet.isCached = true)
    (valid : slot.validvalue = 1) :
    (init packet slot seqReg).accessRegisters platform counted =
      { init { packet with validvalue := 1, seq := nextSeq seqReg, assignedseqForFarreach := nextSeq seqReg }
          (slot.stored platform packet.snapshotFlag (nextSeq seqReg) packet.vallen packet.vals false)
          (nextSeq seqReg) with
        isLatest := true, accessValMode := .setAndGet, isCase1 := packet.snapshotFlag } := by
  cases platform <;> cases flag : packet.snapshotFlag <;>
    simp [accessRegisters, init, Slot.stored, put, cached, valid, flag, fragidx]

theorem registers_del_valid (del : packet.optype = .delreqInswitch) (cached : packet.isCached = true)
    (valid : slot.validvalue = 1) :
    (init packet slot seqReg).accessRegisters platform counted =
      { init { packet with
            validvalue := 1, seq := nextSeq seqReg, assignedseqForFarreach := nextSeq seqReg
            vallen := 0, vals := fun _ => 0 }
          (slot.stored platform packet.snapshotFlag (nextSeq seqReg) 0 (fun _ => 0) true)
          (nextSeq seqReg) with
        isLatest := true, isDeleted := true, accessValMode := .resetAndGet
        isCase1 := packet.snapshotFlag } := by
  cases platform <;> cases flag : packet.snapshotFlag <;>
    simp [accessRegisters, init, Slot.stored, del, cached, valid, flag, fragidx]

theorem registers_write_evicted (write : packet.IsWrite) (cached : packet.isCached = true)
    (evicted : slot.validvalue = 3) :
    (init packet slot seqReg).accessRegisters platform counted =
      init { packet with validvalue := 3, seq := nextSeq seqReg } { slot with latest := false }
        (nextSeq seqReg) := by
  rcases write with put | del <;> cases platform
  all_goals simp [accessRegisters, init, *, fragidx]

theorem registers_write_invalid (write : packet.IsWrite)
    (cached : packet.isCached = true) (notValid : slot.validvalue ≠ 1) (notEvicted : slot.validvalue ≠ 3) :
    (init packet slot seqReg).accessRegisters platform counted =
      init { packet with validvalue := slot.validvalue, seq := nextSeq seqReg } slot (nextSeq seqReg) := by
  rcases write with put | del <;> cases platform
  all_goals simp [accessRegisters, init, *, fragidx]

/-- A response of the server makes a valid slot latest. The tables that would store its record are
matched on the bit that `set_and_get_latest` has just set, and miss. -/
theorem registers_getres_valid (response : packet.IsResponse)
    (cached : packet.isCached = true) (valid : slot.validvalue = 1) :
    (init packet slot seqReg).accessRegisters platform counted =
      { init { packet with validvalue := 1, assignedseqForFarreach := packet.seq }
          { slot with latest := true, largevalueseq := 0 } seqReg with
        isLatest := true } := by
  rcases response with live | deleted <;> cases platform
  all_goals simp [accessRegisters, init, *, fragidx]

theorem registers_getres_invalid (response : packet.IsResponse)
    (cached : packet.isCached = true) (notValid : slot.validvalue ≠ 1) :
    (init packet slot seqReg).accessRegisters platform counted =
      init { packet with validvalue := slot.validvalue } slot seqReg := by
  rcases response with live | deleted <;> cases platform
  all_goals simp [accessRegisters, init, *, fragidx]

/-- The first fragment of a large value takes the latest bit from a slot that is valid or being
evicted; the other fragments pass. -/
theorem registers_putreqLargevalue (large : packet.optype = .putreqLargevalueInswitch)
    (cached : packet.isCached = true) (first : packet.curFragidx = 0) :
    ((init packet slot seqReg).accessRegisters platform counted).slot =
      (if slot.validvalue = 1 then { slot with latest := false, largevalueseq := nextSeq seqReg }
      else if slot.validvalue = 3 then { slot with latest := false } else slot) ∧
    ((init packet slot seqReg).accessRegisters platform counted).seqReg = nextSeq seqReg ∧
    ((init packet slot seqReg).accessRegisters platform counted).packet =
      { packet with validvalue := slot.validvalue, seq := nextSeq seqReg } := by
  cases platform <;> by_cases valid : slot.validvalue = 1 <;> by_cases evicted : slot.validvalue = 3 <;>
    simp [accessRegisters, init, large, cached, first, valid, evicted, fragidx]

theorem registers_putreqLargevalue_rest (large : packet.optype = .putreqLargevalueInswitch)
    (cached : packet.isCached = true) (rest : packet.curFragidx ≠ 0) :
    (init packet slot seqReg).accessRegisters platform counted =
      init { packet with validvalue := slot.validvalue } slot seqReg := by
  cases platform <;> simp [accessRegisters, init, large, cached, rest, fragidx]

theorem registers_getreq (get : packet.optype = .getreqInswitch) (cached : packet.isCached = true)
    (known : slot.validvalue ∈ validvalueList) :
    ∃ isLargevalueblock largevalueseq,
      (init packet slot seqReg).accessRegisters platform counted =
        { init { packet with
              validvalue := slot.validvalue, seq := slot.savedseq, vallen := slot.vallen, vals := slot.vals }
            slot seqReg with
          isLatest := slot.latest, isDeleted := slot.deleted, accessValMode := .get
          isLargevalueblock, largevalueseq } := by
  simp only [validvalueList, List.mem_cons, List.not_mem_nil, or_false] at known
  by_cases block : slot.largevalueseq = 0 <;> rcases known with invalid | valid | evicted <;> cases platform
  all_goals simp [accessRegisters, init, *, fragidx]

theorem registers_getreq_unknown (get : packet.optype = .getreqInswitch) (cached : packet.isCached = true)
    (unknown : slot.validvalue ∉ validvalueList) :
    (init packet slot seqReg).accessRegisters platform counted =
      init { packet with validvalue := slot.validvalue } slot seqReg := by
  simp only [validvalueList, List.mem_cons, List.not_mem_nil, or_false, not_or] at unknown
  cases platform <;> simp [accessRegisters, init, get, cached, unknown, fragidx]

theorem registers_cachePop (pop : packet.optype = .cachePopInswitch) :
    (init packet slot seqReg).accessRegisters platform counted =
      { init { packet with validvalue := 0, assignedseqForFarreach := packet.seq }
          { slot with
            latest := false, largevalueseq := 0, deleted := !packet.stat, vallen := packet.vallen
            vals := packet.vals, savedseq := packet.seq } seqReg with
        isDeleted := !packet.stat, accessValMode := .setAndGet } := by
  cases platform <;> cases stat : packet.stat <;> cases cached : packet.isCached <;>
    simp [accessRegisters, init, pop, stat, cached, fragidx]

theorem registers_setvalid (set : packet.optype = .setvalidInswitch) :
    (init packet slot seqReg).accessRegisters platform counted =
      init packet { slot with validvalue := packet.validvalue } seqReg := by
  cases platform <;> cases cached : packet.isCached <;>
    simp [accessRegisters, init, set, cached, fragidx]

/-- On bmv2 a load reports the whole record of the slot. -/
theorem registers_load_bmv2
    (load : packet.optype = .cacheEvictLoaddataInswitch ∨ packet.optype = .loadsnapshotdataInswitch) :
    (init packet slot seqReg).accessRegisters .bmv2 counted =
      { init { packet with
            validvalue := 0, seq := slot.savedseq, vallen := slot.vallen, vals := slot.vals } slot seqReg with
        isDeleted := slot.deleted, accessValMode := .get } := by
  rcases load with evict | snapshot <;> cases cached : packet.isCached <;> cases stat : packet.stat
  all_goals simp [accessRegisters, init, *, fragidx]

/-- On Tofino a load finds no entry in `update_vallen_tbl`: its `validvalue` and `is_latest` are
zero, and the entry that was added is for three and one. The value is not read. -/
theorem registers_load_tofino
    (load : packet.optype = .cacheEvictLoaddataInswitch ∨ packet.optype = .loadsnapshotdataInswitch) :
    (init packet slot seqReg).accessRegisters .tofino counted =
      { init { packet with validvalue := 0, seq := slot.savedseq } slot seqReg with
        isDeleted := slot.deleted } := by
  rcases load with evict | snapshot <;> cases cached : packet.isCached <;> cases stat : packet.stat
  all_goals simp [accessRegisters, init, *, fragidx]

end Registers

end FarReach
