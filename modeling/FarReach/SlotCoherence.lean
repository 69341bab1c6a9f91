import FarReach.SlotSystem

namespace FarReach

open Traversal SlotSystem

/-- A slot that answers reads stores a record at least as new as the writes numbered so far. -/
def Slot.Fresh (slot : Slot) (assigned : List Nat) : Prop :=
  slot.latest = true → Readable slot → ∀ seq ∈ assigned, seq ≤ slot.savedseq

theorem Slot.fresh_of_not_latest {slot : Slot} {assigned : List Nat} (clear : slot.latest = false) :
    slot.Fresh assigned := by
  intro latest
  rw [clear] at latest
  cases latest

section Packets

variable {config : SwitchConfig} {counted : Bool} {packet : Packet} {slot : Slot} {seqReg : Nat}
  {assigned : List Nat}

theorem le_nextSeq {seq : Nat} (wrapsNot : seqReg ≠ 0x7FFFFFFF) (below : seq ≤ seqReg) : seq ≤ nextSeq seqReg := by
  unfold nextSeq
  rw [if_neg wrapsNot]
  omega

theorem savedseq_write (write : packet.IsWrite) (cached : packet.isCached = true) (valid : slot.validvalue = 1) :
    (egress config counted slot seqReg packet).slot.savedseq = nextSeq seqReg := by
  rcases write with put | del
  · rw [egress_eq (registers_put_valid put cached valid)]
    rfl
  · rw [egress_eq (registers_del_valid del cached valid)]
    rfl

theorem le_of_mem_numbered {seq : Nat} (wrapsNot : seqReg ≠ 0x7FFFFFFF) (below : ∀ seq ∈ assigned, seq ≤ seqReg)
    (member : seq ∈ nextSeq seqReg :: assigned) : seq ≤ nextSeq seqReg := by
  rcases List.mem_cons.mp member with rfl | earlier
  · exact le_rfl
  · exact le_nextSeq wrapsNot (below seq earlier)

/-- A write is stored by a valid slot, takes the latest bit from a slot that is being evicted, and passes
an invalid one. -/
theorem fresh_write (write : packet.IsWrite) (cached : packet.isCached = true)
    (wrapsNot : seqReg ≠ 0x7FFFFFFF) (below : ∀ seq ∈ assigned, seq ≤ seqReg) :
    (egress config counted slot seqReg packet).slot.Fresh (nextSeq seqReg :: assigned) := by
  by_cases valid : slot.validvalue = 1
  · intro _ _ seq member
    rw [savedseq_write write cached valid]
    exact le_of_mem_numbered wrapsNot below member
  by_cases evicted : slot.validvalue = 3
  · rw [egress_eq (registers_write_evicted write cached evicted)]
    exact Slot.fresh_of_not_latest rfl
  · rw [egress_eq (registers_write_invalid write cached valid evicted)]
    intro _ readable
    exact absurd readable (not_or.mpr ⟨valid, evicted⟩)

theorem seqReg_largevalue (large : packet.optype = .putreqLargevalueInswitch) (cached : packet.isCached = true) :
    (egress config counted slot seqReg packet).seqReg =
      if packet.curFragidx = 0 then nextSeq seqReg else seqReg := by
  by_cases first : packet.curFragidx = 0
  · rw [if_pos first]
    exact (registers_putreqLargevalue large cached first).2.1
  · rw [if_neg first, egress_eq (registers_putreqLargevalue_rest large cached first)]
    rfl

/-- The first fragment of a large value leaves no slot that answers reads. -/
theorem fresh_largevalue (large : packet.optype = .putreqLargevalueInswitch) (cached : packet.isCached = true)
    (first : packet.curFragidx = 0) : (egress config counted slot seqReg packet).slot.Fresh assigned := by
  have reached : (egress config counted slot seqReg packet).slot = _ :=
    (registers_putreqLargevalue large cached first).1
  rw [reached]
  split
  · exact Slot.fresh_of_not_latest rfl
  split
  · exact Slot.fresh_of_not_latest rfl
  · rename_i notValid notEvicted
    intro _ readable
    exact absurd readable (not_or.mpr ⟨notValid, notEvicted⟩)

theorem slot_getreq (get : packet.optype = .getreqInswitch) (cached : packet.isCached = true) :
    (egress config counted slot seqReg packet).slot = slot ∧
      (egress config counted slot seqReg packet).seqReg = seqReg := by
  by_cases known : slot.validvalue ∈ validvalueList
  · obtain ⟨_, _, registers⟩ := @registers_getreq config.platform counted packet slot seqReg get cached known
    rw [egress_eq registers]
    exact ⟨rfl, rfl⟩
  · rw [egress_eq (registers_getreq_unknown get cached known)]
    exact ⟨rfl, rfl⟩

/-- A response finds the newest record in a slot it makes latest, or leaves the slot as it was. -/
theorem fresh_getres (response : packet.IsResponse) (cached : packet.isCached = true)
    (fresh : slot.Fresh assigned)
    (careful : slot.validvalue = 1 → slot.latest = false → ∀ seq ∈ assigned, seq ≤ slot.savedseq) :
    (egress config counted slot seqReg packet).slot.Fresh assigned := by
  rw [(slot_getres response cached).1]
  split
  · rename_i valid
    intro _ _
    cases latest : slot.latest with
    | false => exact careful valid latest
    | true => exact fresh latest (Or.inl valid)
  · exact fresh

/-- What leaves a slot under an assigned number is a write that was numbered just now. -/
theorem stamped_of_emitted (cached : packet.isCached = true)
    (kind : packet.IsWrite ∨ packet.optype = .putreqLargevalueInswitch ∨ packet.optype = .getreqInswitch)
    {entry : Port × Packet} (sent : entry ∈ (egress config counted slot seqReg packet).emitted)
    (stamped : entry.2.IsStamped) : packet.TakesSeq ∧ entry.2.seq = nextSeq seqReg := by
  rcases kind with write | large | get
  · exact ⟨Or.inl write, (emitted_write write cached sent).1⟩
  · obtain ⟨fragidx, form, seq⟩ := emitted_putreqLargevalue large cached sent
    have first : packet.curFragidx = 0 := by
      rw [← fragidx]
      unfold Packet.IsStamped at stamped
      rcases form with kept | forwarded
      · simp [kept, Optype.isWriteAck, Optype.isForwardedWrite, Optype.isForwardedFragment] at stamped
      · revert stamped forwarded
        cases entry.2.optype <;>
          simp [Optype.isWriteAck, Optype.isForwardedWrite, Optype.isForwardedFragment]
    exact ⟨Or.inr ⟨large, first⟩, seq first⟩
  · refine absurd stamped ?_
    unfold Packet.IsStamped
    rcases emitted_getreq get cached sent with passed | ⟨answer, -⟩
    · simp only [List.mem_cons, List.not_mem_nil, or_false] at passed
      rcases passed with kind | kind | kind | kind | kind <;>
        simp [kind, Optype.isWriteAck, Optype.isForwardedWrite, Optype.isForwardedFragment]
    · simp [answer, Optype.isWriteAck, Optype.isForwardedWrite, Optype.isForwardedFragment]

end Packets

namespace SlotSystem

/-- What every step of a careful run keeps. -/
structure Coherent (s : SlotSystem) : Prop where
  wire : ∀ packet ∈ s.wire, packet.IsStamped → packet.seq ∈ s.assigned
  acked : s.acked ⊆ s.assigned
  assigned : ∀ seq ∈ s.assigned, seq ≤ s.seqReg
  fresh : s.slot.Fresh s.assigned
  missed : s.missed = [] → s.Current

theorem Start.coherent {s : SlotSystem} (start : Start s) : Coherent s := by
  refine ⟨start.wire, start.acked, start.assigned, Slot.fresh_of_not_latest start.latest, fun none seq member => ?_⟩
  rw [← start.missed, none] at member
  cases member

section Step

variable {config : SwitchConfig} {s : SlotSystem}

theorem Coherent.control (coherent : Coherent s) {packet : Packet} {counted : Bool}
    (kind : packet.optype = .cachePopInswitch ∨ packet.optype = .setvalidInswitch)
    (careful : Careful s (.control packet counted)) : Coherent (s.step config (.control packet counted)) := by
  rcases kind with pop | setvalid
  · simp only [SlotSystem.step, egress_eq (registers_cachePop pop), if_pos pop]
    refine ⟨coherent.wire, coherent.acked, coherent.assigned, Slot.fresh_of_not_latest rfl, ?_⟩
    intro none seq member
    have covered : seq ≤ packet.seq := by simpa using List.filter_eq_nil_iff.mp none seq member
    exact covered
  · have kept : packet.optype ≠ .cachePopInswitch := by simp [setvalid]
    simp only [SlotSystem.step, egress_eq (registers_setvalid setvalid), if_neg kept]
    refine ⟨coherent.wire, coherent.acked, coherent.assigned, ?_, coherent.missed⟩
    intro latest readable
    exact coherent.missed (careful setvalid readable latest)

/-- A request that is numbered adds its number to the history. -/
theorem Coherent.numbered (coherent : Coherent s) {packet : Packet} {counted : Bool}
    (cached : packet.isCached = true) (takes : packet.TakesSeq) (wrapsNot : s.seqReg ≠ 0x7FFFFFFF)
    (numbered : (egress config counted s.slot s.seqReg packet).seqReg = nextSeq s.seqReg)
    (stamped : ∀ entry ∈ (egress config counted s.slot s.seqReg packet).emitted,
      entry.2.IsStamped → entry.2.seq = nextSeq s.seqReg)
    (fresh : (egress config counted s.slot s.seqReg packet).slot.Fresh (nextSeq s.seqReg :: s.assigned)) :
    Coherent (s.pass config packet counted) := by
  unfold pass
  simp only [if_pos takes, numbered]
  refine ⟨?_, ?_, ?_, fresh, ?_⟩
  · intro other onWire isStamped
    rcases List.mem_append.mp onWire with earlier | sent
    · exact List.mem_cons_of_mem _ (coherent.wire other earlier isStamped)
    · obtain ⟨entry, emitted, rfl⟩ := List.mem_map.mp sent
      rw [stamped entry emitted isStamped]
      exact List.mem_cons_self
  · exact fun seq known => List.mem_cons_of_mem _ (coherent.acked known)
  · exact fun seq => le_of_mem_numbered wrapsNot coherent.assigned
  · -- a write that is not stored is missed
    intro none seq member
    split at none
    · rename_i stored
      simp only [savedseq_write stored.1 cached stored.2]
      exact le_of_mem_numbered wrapsNot coherent.assigned member
    · cases none

theorem Coherent.unnumbered (coherent : Coherent s) {packet : Packet} {counted : Bool}
    (takesNot : ¬ packet.TakesSeq)
    (numbered : (egress config counted s.slot s.seqReg packet).seqReg = s.seqReg)
    (stamped : ∀ entry ∈ (egress config counted s.slot s.seqReg packet).emitted, ¬ entry.2.IsStamped)
    (saved : (egress config counted s.slot s.seqReg packet).slot.savedseq = s.slot.savedseq)
    (fresh : (egress config counted s.slot s.seqReg packet).slot.Fresh s.assigned) :
    Coherent (s.pass config packet counted) := by
  have write : ¬ (packet.IsWrite ∧ s.slot.validvalue = 1) := fun stored => takesNot (Or.inl stored.1)
  unfold pass
  simp only [if_neg takesNot, if_neg write, numbered]
  refine ⟨?_, coherent.acked, coherent.assigned, fresh, ?_⟩
  · intro other onWire isStamped
    rcases List.mem_append.mp onWire with earlier | sent
    · exact coherent.wire other earlier isStamped
    · obtain ⟨entry, emitted, rfl⟩ := List.mem_map.mp sent
      exact absurd isStamped (stamped entry emitted)
  · intro none seq member
    exact saved.symm ▸ coherent.missed none seq member

theorem Coherent.request (coherent : Coherent s) {packet : Packet} {counted : Bool}
    (cached : packet.isCached = true)
    (kind : packet.IsWrite ∨ packet.optype = .putreqLargevalueInswitch ∨ packet.optype = .getreqInswitch)
    (careful : Careful s (.request packet counted)) : Coherent (s.step config (.request packet counted)) := by
  have stamped := fun (entry : Port × Packet)
      (sent : entry ∈ (egress config counted s.slot s.seqReg packet).emitted) =>
    stamped_of_emitted cached kind sent
  by_cases takes : packet.TakesSeq
  · have wrapsNot := careful takes
    have sent := fun entry emitted isStamped => (stamped entry emitted isStamped).2
    rcases takes with write | ⟨large, first⟩
    · exact coherent.numbered cached (Or.inl write) wrapsNot (numbered_write write cached).2 sent
        (fresh_write write cached wrapsNot coherent.assigned)
    · refine coherent.numbered cached (Or.inr ⟨large, first⟩) wrapsNot ?_ sent
        (fresh_largevalue large cached first)
      rw [seqReg_largevalue large cached, if_pos first]
  · have sent := fun entry emitted isStamped => takes (stamped entry emitted isStamped).1
    rcases kind with write | large | get
    · exact absurd (Or.inl write) takes
    · have rest : packet.curFragidx ≠ 0 := fun first => takes (Or.inr ⟨large, first⟩)
      refine coherent.unnumbered takes ?_ sent ?_ ?_
      · rw [seqReg_largevalue large cached, if_neg rest]
      · rw [egress_eq (registers_putreqLargevalue_rest large cached rest)]
        rfl
      · rw [egress_eq (registers_putreqLargevalue_rest large cached rest)]
        exact coherent.fresh
    · obtain ⟨sameSlot, sameSeq⟩ := @slot_getreq config counted packet s.slot s.seqReg get cached
      refine coherent.unnumbered takes sameSeq sent (congrArg Slot.savedseq sameSlot) ?_
      rw [sameSlot]
      exact coherent.fresh

theorem Coherent.serve (coherent : Coherent s) {request : Packet} (onWire : request ∈ s.wire) (payload : Val) :
    Coherent (s.serve request payload) := by
  unfold SlotSystem.serve
  split
  rename_i kv answer worked
  split
  · rename_i response
    refine ⟨?_, coherent.acked, coherent.assigned, coherent.fresh, coherent.missed⟩
    intro other member isStamped
    rcases List.mem_append.mp member with earlier | sent
    · exact coherent.wire other earlier isStamped
    · rw [List.mem_singleton.mp sent] at isStamped ⊢
      obtain ⟨requested, sameSeq⟩ := serverWorker_stamped (by rw [worked]) isStamped
      rw [sameSeq]
      exact coherent.wire request onWire requested
  · exact ⟨coherent.wire, coherent.acked, coherent.assigned, coherent.fresh, coherent.missed⟩

theorem isResponse_inswitch {packet response : Packet} {snapshotFlag : Bool}
    (entered : packet.inswitch snapshotFlag = some response) :
    response.IsResponse ∧ response.isCached = true := by
  unfold Packet.inswitch at entered
  split at entered
  · cases entered
    exact ⟨Or.inl rfl, rfl⟩
  · cases entered
    exact ⟨Or.inr rfl, rfl⟩
  · cases entered

theorem Coherent.respond (coherent : Coherent s) {response : Packet} {counted : Bool}
    (isResponse : response.IsResponse) (cached : response.isCached = true)
    (careful : s.slot.validvalue = 1 → s.slot.latest = false → s.missed = []) :
    Coherent (s.pass config response counted) := by
  have takesNot : ¬ response.TakesSeq := by
    rcases isResponse with live | deleted <;> simp [Packet.TakesSeq, Packet.IsWrite, *]
  refine coherent.unnumbered takesNot (slot_getres isResponse cached).2 ?_ ?_
    (fresh_getres isResponse cached coherent.fresh fun valid clear => coherent.missed (careful valid clear))
  · intro entry sent
    rw [emitted_getres isResponse cached] at sent
    cases sent
  · rw [(slot_getres isResponse cached).1]
    split <;> rfl

theorem Coherent.acknowledge (coherent : Coherent s) {response : Packet} (onWire : response ∈ s.wire)
    (ack : response.optype.isWriteAck = true) : Coherent { s with acked := response.seq :: s.acked } := by
  refine ⟨coherent.wire, ?_, coherent.assigned, coherent.fresh, coherent.missed⟩
  intro seq member
  rcases List.mem_cons.mp member with rfl | earlier
  · exact coherent.wire response onWire (Or.inl ack)
  · exact coherent.acked earlier

theorem Coherent.step (coherent : Coherent s) {key : Key} {event : SlotEvent} (possible : Possible key event)
    (careful : Careful s event) : Coherent (s.step config event) := by
  cases event with
  | control packet counted => exact coherent.control possible careful
  | request packet counted => exact coherent.request possible.2.1 possible.2.2 careful
  | serve position payload =>
    simp only [SlotSystem.step]
    split
    · rename_i request found
      exact coherent.serve (List.mem_of_getElem? found) payload
    · exact coherent
  | respond position snapshotFlag counted =>
    simp only [SlotSystem.step]
    split
    · rename_i response found
      obtain ⟨sent, -, entered⟩ := Option.bind_eq_some_iff.mp found
      obtain ⟨isResponse, cached⟩ := isResponse_inswitch entered
      exact coherent.respond isResponse cached careful
    · exact coherent
  | acknowledge position =>
    simp only [SlotSystem.step]
    split
    · rename_i response found
      split
      · rename_i ack
        exact coherent.acknowledge (List.mem_of_getElem? found) ack
      · exact coherent
    · exact coherent
  | otherKey =>
    exact ⟨coherent.wire, coherent.acked, fun seq member => le_nextSeq careful (coherent.assigned seq member),
      coherent.fresh, coherent.missed⟩

end Step

theorem Coherent.readsFresh {s : SlotSystem} (coherent : Coherent s) (config : SwitchConfig) :
    ReadsFresh config s := by
  intro packet counted get cached answer sent answered seq acked
  rcases emitted_getreq get cached sent with passed | ⟨-, saved, latest, readable⟩
  · rw [answered] at passed
    simp at passed
  · rw [saved]
    exact coherent.fresh latest readable seq (coherent.acked acked)

/-- In a run whose steps are all careful no read is answered with an old record. -/
theorem reads_fresh_of_careful (config : SwitchConfig) (key : Key) {start s : SlotSystem} (begins : Start start)
    (run : Runs.Reaches (step config) (fun s event => Possible key event ∧ Careful s event) start s) :
    ReadsFresh config s := by
  have coherent : Coherent s := run.invariant Coherent begins.coherent
    fun _ _ holds ok => holds.step ok.1 ok.2
  exact coherent.readsFresh config

/-- The server holds the record of a key that the cache is about to take, and nothing is under way. -/
def sample : SlotSystem :=
  { slot := Slot.initial, seqReg := 0
    kv := { db := (∅ : Database).insert ⟨1, 0, 0, 0⟩ ([0], 0), dbseq := 1, deletedSet := .new 1 1, maxseq := 0 }
    wire := [], assigned := [], acked := [], missed := [] }

theorem sample_start : Start sample :=
  ⟨rfl, fun _ onWire => absurd onWire List.not_mem_nil, List.Subset.refl _,
    fun _ member => absurd member List.not_mem_nil, rfl⟩

def samplePop : SlotEvent :=
  .control { Packet.bare .cachePopInswitch ⟨1, 0, 0, 0⟩ 0 false with vallen := 1, stat := true } false

def sampleSetvalid : SlotEvent :=
  .control { Packet.bare .setvalidInswitch ⟨1, 0, 0, 0⟩ 0 false with validvalue := 1 } false

def samplePut : SlotEvent :=
  .request { Packet.bare .putreqInswitch ⟨1, 0, 0, 0⟩ 0 true with clientSid := 1, vallen := 1 } false

def sampleGet : Packet := { Packet.bare .getreqInswitch ⟨1, 0, 0, 0⟩ 0 true with clientSid := 1 }

/-- The slot is filled and made valid, the response to a read makes it the latest, and a write that it stores is
acknowledged. -/
def freshRun : List SlotEvent :=
  [samplePop, sampleSetvalid, .request sampleGet false, .serve 0 [], .respond 1 false false, samplePut,
    .acknowledge 2]

theorem reads_fresh_of_careful_put :
    (freshRun.foldl (step ⟨.bmv2, [1], 2⟩) sample).acked = [1] ∧
      (∃ answer ∈ (egress ⟨.bmv2, [1], 2⟩ false (freshRun.foldl (step ⟨.bmv2, [1], 2⟩) sample).slot
        (freshRun.foldl (step ⟨.bmv2, [1], 2⟩) sample).seqReg sampleGet).emitted,
        answer.2.optype = .getresSeq ∧ answer.2.seq = 1) ∧
      ReadsFresh ⟨.bmv2, [1], 2⟩ (freshRun.foldl (step ⟨.bmv2, [1], 2⟩) sample) := by
  refine ⟨by decide +kernel, by decide +kernel, ?_⟩
  exact reads_fresh_of_careful ⟨.bmv2, [1], 2⟩ ⟨1, 0, 0, 0⟩ sample_start
    (Runs.Reaches.start.foldl freshRun (by decide +kernel))

/-- A `PUT` passes the slot before it is valid, and the server acknowledges it. The response to the next
read finds the slot valid and sets its latest bit, but its record is not stored: the slot then
answers reads with the record of sequence number zero. -/
def staleRun : List SlotEvent :=
  [samplePop, samplePut, .serve 0 [], .acknowledge 1, sampleSetvalid, .request sampleGet false,
    .serve 2 [], .respond 3 false false]

theorem stale_read :
    ¬ ∀ s, Runs.Reaches (step ⟨.bmv2, [1], 2⟩) (fun _ event => Possible ⟨1, 0, 0, 0⟩ event) sample s →
      ReadsFresh ⟨.bmv2, [1], 2⟩ s := by
  intro fresh
  have run := Runs.Reaches.start.foldl staleRun
    (show Runs.AllAllowed (step ⟨.bmv2, [1], 2⟩) (fun _ event => Possible ⟨1, 0, 0, 0⟩ event) sample staleRun
      by decide +kernel)
  have outcome : (∃ answer ∈ (egress ⟨.bmv2, [1], 2⟩ false (staleRun.foldl (step ⟨.bmv2, [1], 2⟩) sample).slot
      (staleRun.foldl (step ⟨.bmv2, [1], 2⟩) sample).seqReg sampleGet).emitted,
      answer.2.optype = .getresSeq ∧ answer.2.seq = 0) ∧
      1 ∈ (staleRun.foldl (step ⟨.bmv2, [1], 2⟩) sample).acked := by
    decide +kernel
  obtain ⟨⟨answer, sent, getres, old⟩, acked⟩ := outcome
  have newest := fresh _ run sampleGet false rfl rfl answer sent getres 1 acked
  omega

end SlotSystem

end FarReach
