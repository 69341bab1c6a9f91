import FarReach.EgressEffects

namespace FarReach

open Traversal Packet

/-- The registers, and what the counters tell, when a clone enters the egress pipeline again. -/
structure Reentry where
  counted : Bool
  slot : Slot
  seqReg : Nat

def reenter (config : SwitchConfig) (meets : Reentry) (packet : Packet) : Routing :=
  ((init packet meets.slot meets.seqReg).accessRegisters config.platform meets.counted).forward config

/-- What leaves without being cloned, by the port that the packet entered the egress pipeline for. -/
def Routing.direct (r : Routing) (port : Port) : List (Port × Packet) := if r.dropped then [] else [(port, r.packet)]

/-- All packets that leave the switch because of one: a clone enters the egress pipeline for the port of its
session, and may be cloned again. -/
inductive CloneChain (config : SwitchConfig) (meets : Nat → Reentry) :
    Nat → Port → Routing → List (Port × Packet) → Prop
  | stop {time port r} : r.mirror = none → CloneChain config meets time port r (r.direct port)
  | clone {time port r sid rest} : r.mirror = some sid →
      CloneChain config meets (time + 1) (.mirror sid) (reenter config (meets time) r.packet) rest →
      CloneChain config meets time port r (r.direct port ++ rest)

def Packet.responseType (packet : Packet) : Optype :=
  if packet.optype = .delreqInswitch then .delresSeq else .putresSeq

/-- Of all packets sent, the reports tell whether the record was deleted, and one is the response to the client. -/
structure AnsweredOnce (t : Traversal) (sent : List (Port × Packet)) : Prop where
  reports : ∀ entry ∈ sent, entry.2.optype.isCase1Report = true → (entry.2.stat = false ↔ t.isDeleted = true)
  response : ∃ response, sent.filter (fun entry => entry.2.optype.isWriteAck) =
    [(.mirror t.packet.clientSid, response)] ∧ response.optype = t.packet.responseType

/-- Whatever the clones meet, the chain ends and the write is answered once. -/
def Answers (config : SwitchConfig) (t : Traversal) : Prop :=
  ∀ meets, ∃ sent, CloneChain config meets 0 .unicast (t.forward config) sent ∧ AnsweredOnce t sent

/-- A write of a client at the forward tables, with a cached valid slot. No `DELREQ_INSWITCH` is hot. -/
structure WriteHit (config : SwitchConfig) (t : Traversal) : Prop where
  write : t.packet.IsWrite
  cached : t.packet.isCached = true
  valid : t.packet.validvalue = 1
  client : t.packet.clientSid ∈ config.clientSids
  session : t.packet.clientSid ≠ 0
  cold : t.packet.optype = .delreqInswitch → t.isHot = false

section Chain

variable {config : SwitchConfig} {meets : Nat → Reentry}

/-- The chain of a packet is determined by what its clones meet. -/
theorem CloneChain.unique {time : Nat} {port : Port} {r : Routing} {first second : List (Port × Packet)}
    (chain : CloneChain config meets time port r first) (other : CloneChain config meets time port r second) :
    first = second := by
  induction chain generalizing second with
  | stop none =>
    cases other with
    | stop => rfl
    | clone some => exact nomatch none.symm.trans some
  | clone some _ ih =>
    cases other with
    | stop none => exact nomatch none.symm.trans some
    | clone same rest =>
      cases Option.some.inj (some.symm.trans same)
      rw [ih rest]

variable {packet : Packet} {arrival : Reentry}

theorem registers_clone (clone : packet.optype.isCase1Report = true ∨ packet.optype.isWriteAck = true)
    {platform : Platform} {counted : Bool} {slot : Slot} {seqReg : Nat} :
    (init packet slot seqReg).accessRegisters platform counted =
      init { packet with validvalue := 0 } slot seqReg := by
  cases optype : packet.optype <;> rw [optype] at clone <;> simp [Optype.isCase1Report, Optype.isWriteAck] at clone
  all_goals cases platform <;> simp [accessRegisters, init, optype, fragidx]

theorem reenter_response (response : packet.optype.isWriteAck = true) :
    reenter config arrival packet = ⟨{ packet with validvalue := 0 }, false, none⟩ := by
  unfold reenter
  rw [registers_clone (.inr response)]
  cases optype : packet.optype <;> rw [optype] at response <;> simp [Optype.isWriteAck] at response
  all_goals simp [forward, init]

/-- The report of a write on its way to the reflector. -/
structure ReportOf (config : SwitchConfig) (packet : Packet) : Prop where
  kind : packet.optype = .putreqSeqInswitchCase1 ∨ packet.optype = .delreqSeqInswitchCase1
  cached : packet.isCached = true
  flag : packet.snapshotFlag = true
  client : packet.clientSid ∈ config.clientSids

theorem ReportOf.isCase1Report (report : ReportOf config packet) : packet.optype.isCase1Report = true := by
  rcases report.kind with put | del
  · rw [put]; rfl
  · rw [del]; rfl

/-- A report that is not the last one goes on to the reflector and is cloned once more. -/
theorem ReportOf.reenter_more (report : ReportOf config packet) (more : packet.clonenumForPktloss ≠ 0) :
    reenter config arrival packet =
      ⟨{ packet with validvalue := 0, clonenumForPktloss := packet.clonenumForPktloss - 1 }, false,
        some config.reflectorSid⟩ := by
  obtain ⟨kind, cached, flag, client⟩ := report
  unfold reenter
  rw [registers_clone (.inl (ReportOf.isCase1Report ⟨kind, cached, flag, client⟩))]
  rcases kind with put | del
  · simp [forward, init, put, egPortForwardAction, egPortForwardTbl, cached, flag, client, more]
  · simp [forward, init, del, egPortForwardAction, egPortForwardTbl, cached, flag, client, more]

/-- What the last clone of a report becomes: the response, but for the entry that the Tofino controller does not
add. -/
def lastClone (config : SwitchConfig) (packet : Packet) : Routing :=
  let r : Routing := ⟨{ packet with validvalue := 0, clonenumForPktloss := 0 }, false, none⟩
  if packet.optype = .putreqSeqInswitchCase1 then
    if config.platform = .bmv2 then Routing.updatePutreqSeqInswitchCase1ToPutresSeqByMirroring packet.clientSid r
    else r
  else Routing.updateDelreqSeqInswitchCase1ToDelresSeqByMirroring packet.clientSid r

theorem ReportOf.reenter_last (report : ReportOf config packet) (last : packet.clonenumForPktloss = 0) :
    reenter config arrival packet = lastClone config packet := by
  obtain ⟨kind, cached, flag, client⟩ := report
  unfold reenter lastClone
  rw [registers_clone (.inl (ReportOf.isCase1Report ⟨kind, cached, flag, client⟩))]
  rcases kind with put | del
  · cases platform : config.platform <;>
      simp [forward, init, put, egPortForwardAction, egPortForwardTbl, cached, flag, client, last, platform]
  · simp [forward, init, del, egPortForwardAction, egPortForwardTbl, cached, flag, client, last]

theorem chain_response {time : Nat} {port : Port} {r : Routing} {sid : Nat} (dropped : r.dropped = true)
    (mirror : r.mirror = some sid) (response : r.packet.optype.isWriteAck = true) :
    CloneChain config meets time port r [(.mirror sid, { r.packet with validvalue := 0 })] := by
  have next : CloneChain config meets (time + 1) (.mirror sid) (reenter config (meets time) r.packet)
      [(.mirror sid, { r.packet with validvalue := 0 })] := by
    rw [reenter_response response]
    exact .stop rfl
  have whole := @CloneChain.clone config meets time port r sid _ mirror next
  unfold Routing.direct at whole
  rwa [if_pos dropped] at whole

/-- The clones of a report in turn: each is sent to the reflector until none is left. -/
theorem ReportOf.chain {ending : List (Port × Packet)} (report : ReportOf config packet)
    (ends : ∀ time, CloneChain config meets time (.mirror config.reflectorSid) (lastClone config packet) ending)
    (time : Nat) :
    ∃ reports, reports.length = packet.clonenumForPktloss ∧
      (∀ entry ∈ reports, entry.2.optype = packet.optype ∧ entry.2.stat = packet.stat) ∧
      CloneChain config meets (time + 1) (.mirror config.reflectorSid) (reenter config (meets time) packet)
        (reports ++ ending) := by
  induction clones : packet.clonenumForPktloss generalizing packet time with
  | zero =>
    refine ⟨[], rfl, by simp, ?_⟩
    rw [report.reenter_last clones]
    exact ends (time + 1)
  | succ n ih =>
    have next : ReportOf config { packet with validvalue := 0, clonenumForPktloss := n } :=
      ⟨report.kind, report.cached, report.flag, report.client⟩
    obtain ⟨reports, length, same, rest⟩ := ih next ends (time + 1) rfl
    refine ⟨(.mirror config.reflectorSid, { packet with validvalue := 0, clonenumForPktloss := n }) :: reports,
      by rw [List.length_cons, length], ?_, ?_⟩
    · intro entry member
      rcases List.mem_cons.mp member with rfl | later
      · exact ⟨rfl, rfl⟩
      · exact same entry later
    · rw [report.reenter_more (by omega), clones]
      exact .clone rfl rest

end Chain

section Writes

variable {config : SwitchConfig} {meets : Nat → Reentry} {t : Traversal}

theorem WriteHit.forward_put (hit : WriteHit config t) (put : t.packet.optype = .putreqInswitch) :
    t.forward config = (putreqAction config t.forwardKey ⟨t.packet, false, none⟩).dropTbl := by
  simp only [forward, anotherEgPortForward, put]
  rw [anotherEgPortForwardAction_of_absent _ _ _ (by decide)]
  simp only [Routing.noAction, put]
  rw [egPortForwardAction_putreq, if_pos (by simp [hit.valid, hit.client, hit.session, put])]

theorem WriteHit.forward_del (hit : WriteHit config t) (del : t.packet.optype = .delreqInswitch) :
    t.forward config = (delreqAction config t.forwardKey ⟨t.packet, false, none⟩).dropTbl := by
  simp only [forward, anotherEgPortForward, del]
  rw [anotherEgPortForwardAction_of_absent _ _ _ (by decide)]
  simp only [Routing.noAction, del]
  rw [egPortForwardAction_delreq, if_pos (by simp [hit.valid, hit.client, hit.session, del, hit.cold del])]

theorem WriteHit.forward_known (hit : WriteHit config t)
    (known : ¬ (t.packet.snapshotFlag = true ∧ t.isCase1 = false)) :
    t.forward config = Routing.resSeqByMirroring t.packet.responseType t.packet.clientSid ⟨t.packet,
      false, none⟩ := by
  have cached := hit.cached
  have valid := hit.valid
  rcases hit.write with put | del
  · rw [hit.forward_put put]
    cases flag : t.packet.snapshotFlag <;> cases case1 : t.isCase1 <;>
      simp_all [putreqAction, responseType]
  · rw [hit.forward_del del]
    cases flag : t.packet.snapshotFlag <;> cases case1 : t.isCase1 <;>
      simp_all [delreqAction, responseType]

/-- The report that the first write of a snapshot period becomes, and its status. -/
def Packet.reportType (packet : Packet) : Optype :=
  if packet.optype = .delreqInswitch then .delreqSeqInswitchCase1 else .putreqSeqInswitchCase1

def reportedStat (config : SwitchConfig) (t : Traversal) : Bool :=
  if t.packet.optype = .delreqInswitch then delreqCase1Stat config.platform t.isDeleted else !t.isDeleted

theorem WriteHit.forward_first (hit : WriteHit config t) (flag : t.packet.snapshotFlag = true)
    (case1 : t.isCase1 = false) :
    t.forward config =
      Routing.case1CloneForPktloss t.packet.reportType 3 config.reflectorSid (reportedStat config t)
        ⟨t.packet, false, none⟩ := by
  rcases hit.write with put | del
  · rw [hit.forward_put put]
    simp [putreqAction, reportType, reportedStat, hit.cached, hit.valid, flag, case1, put]
  · rw [hit.forward_del del]
    simp [delreqAction, reportType, reportedStat, hit.cached, hit.valid, flag, case1, del]

def firstReport (config : SwitchConfig) (t : Traversal) : Packet :=
  { t.packet with optype := t.packet.reportType, stat := reportedStat config t, clonenumForPktloss := 3 }

theorem WriteHit.reportOf (hit : WriteHit config t) (flag : t.packet.snapshotFlag = true) :
    ReportOf config (firstReport config t) := by
  refine ⟨?_, hit.cached, flag, hit.client⟩
  unfold firstReport reportType
  split
  · exact .inr rfl
  · exact .inl rfl

/-- The first write of a period: three reports, and then whatever the last clone becomes. -/
theorem WriteHit.chain_first {ending : List (Port × Packet)} (hit : WriteHit config t)
    (flag : t.packet.snapshotFlag = true) (case1 : t.isCase1 = false)
    (ends : ∀ time, CloneChain config meets time (.mirror config.reflectorSid)
      (lastClone config (firstReport config t)) ending) :
    ∃ reports, reports.length = 3 ∧
      (∀ entry ∈ reports, entry.2.optype = t.packet.reportType ∧ entry.2.stat = reportedStat config t) ∧
      CloneChain config meets 0 .unicast (t.forward config) (reports ++ ending) := by
  obtain ⟨reports, length, same, chain⟩ := (hit.reportOf flag).chain ends 0
  refine ⟨reports, length, same, ?_⟩
  rw [hit.forward_first flag case1]
  exact @CloneChain.clone config meets 0 .unicast _ config.reflectorSid _ rfl chain

theorem isCase1Report_reportType (packet : Packet) : packet.reportType.isCase1Report = true := by
  unfold reportType
  split <;> rfl

theorem isWriteAck_reportType (packet : Packet) : packet.reportType.isWriteAck = false := by
  unfold reportType
  split <;> rfl

theorem isWriteAck_responseType (packet : Packet) : packet.responseType.isWriteAck = true := by
  unfold responseType
  split <;> rfl

theorem isCase1Report_responseType (packet : Packet) : packet.responseType.isCase1Report = false := by
  unfold responseType
  split <;> rfl

theorem filter_reports {reports : List (Port × Packet)}
    (same : ∀ entry ∈ reports, entry.2.optype = t.packet.reportType ∧ entry.2.stat = reportedStat config t) :
    reports.filter (fun entry => entry.2.optype.isWriteAck) = [] := by
  refine List.filter_eq_nil_iff.mpr fun entry member => ?_
  rw [(same entry member).1, isWriteAck_reportType]
  decide

/-- Only the response leaves for a write that nothing is reported for. -/
theorem WriteHit.answers_known (hit : WriteHit config t)
    (known : ¬ (t.packet.snapshotFlag = true ∧ t.isCase1 = false)) : Answers config t := by
  intro meets
  have forwarded := hit.forward_known known
  have dropped : (t.forward config).dropped = true := by rw [forwarded]; rfl
  have mirror : (t.forward config).mirror = some t.packet.clientSid := by rw [forwarded]; rfl
  have optype : (t.forward config).packet.optype = t.packet.responseType := by rw [forwarded]; rfl
  -- nothing else about the forwarded packet matters
  generalize t.forward config = r at dropped mirror optype ⊢
  have response : r.packet.optype.isWriteAck = true := by rw [optype, isWriteAck_responseType]
  refine ⟨_, chain_response dropped mirror response, ?_, ?_⟩
  · intro entry member report
    rw [List.mem_singleton.mp member] at report
    have none : r.packet.optype.isCase1Report = true := report
    rw [optype, isCase1Report_responseType] at none
    cases none
  · refine ⟨_, List.filter_eq_self.mpr ?_, optype⟩
    intro entry member
    rw [List.mem_singleton.mp member]
    exact response

/-- The last clone is answered where its entry was added. -/
theorem WriteHit.answers_first (hit : WriteHit config t) (flag : t.packet.snapshotFlag = true)
    (case1 : t.isCase1 = false) (added : t.packet.optype = .putreqInswitch → config.platform = .bmv2) :
    Answers config t ↔ (reportedStat config t = false ↔ t.isDeleted = true) := by
  have last : lastClone config (firstReport config t) =
      Routing.resSeqByMirroring t.packet.responseType t.packet.clientSid
        ⟨{ firstReport config t with validvalue := 0, clonenumForPktloss := 0 }, false, none⟩ := by
    rcases hit.write with put | del
    · simp [lastClone, firstReport, reportType, responseType, put, added put]
    · simp [lastClone, firstReport, reportType, responseType, del]
  have ends : ∀ meets time, CloneChain config meets time (.mirror config.reflectorSid)
      (lastClone config (firstReport config t)) [(.mirror t.packet.clientSid,
        { (lastClone config (firstReport config t)).packet with validvalue := 0 })] := by
    intro meets time
    exact chain_response (by rw [last]; rfl) (by rw [last]; rfl) (by rw [last]; exact isWriteAck_responseType _)
  have response : (lastClone config (firstReport config t)).packet.optype = t.packet.responseType := by
    rw [last]; rfl
  constructor
  · intro answers
    obtain ⟨reports, length, same, chain⟩ := hit.chain_first flag case1 (ends fun _ => ⟨false, Slot.initial, 0⟩)
    obtain ⟨sent, sentChain, once⟩ := answers fun _ => ⟨false, Slot.initial, 0⟩
    rw [sentChain.unique chain] at once
    obtain ⟨entry, rest, is⟩ := List.exists_cons_of_length_pos (by omega : 0 < reports.length)
    have member : entry ∈ reports := is ▸ List.mem_cons_self
    have told := once.reports entry (List.mem_append_left _ member)
      (by rw [(same entry member).1]; exact isCase1Report_reportType _)
    rwa [(same entry member).2] at told
  · intro told meets
    obtain ⟨reports, length, same, chain⟩ := hit.chain_first flag case1 (ends meets)
    refine ⟨_, chain, ?_, ?_⟩
    · intro entry member report
      rcases List.mem_append.mp member with inside | final
      · rw [(same entry inside).2]
        exact told
      · rw [List.mem_singleton.mp final] at report
        have none : (lastClone config (firstReport config t)).packet.optype.isCase1Report = true := report
        rw [response, isCase1Report_responseType] at none
        cases none
    · refine ⟨{ (lastClone config (firstReport config t)).packet with validvalue := 0 }, ?_, response⟩
      rw [List.filter_append, filter_reports same, List.nil_append]
      refine List.filter_eq_self.mpr fun entry member => ?_
      rw [List.mem_singleton.mp member]
      exact (congrArg Optype.isWriteAck response).trans (isWriteAck_responseType _)

/-- On Tofino the last clone of the report of a PUT goes to the reflector as well, and nobody is answered. -/
theorem WriteHit.not_answers_put (hit : WriteHit config t) (flag : t.packet.snapshotFlag = true)
    (case1 : t.isCase1 = false) (put : t.packet.optype = .putreqInswitch) (tofino : config.platform = .tofino) :
    ¬ Answers config t := by
  intro answers
  have last : lastClone config (firstReport config t) =
      ⟨{ firstReport config t with validvalue := 0, clonenumForPktloss := 0 }, false, none⟩ := by
    simp [lastClone, firstReport, reportType, put, tofino]
  obtain ⟨reports, _, same, chain⟩ := @WriteHit.chain_first config (fun _ => ⟨false, Slot.initial, 0⟩) t
    _ hit flag case1 (fun time => by rw [last]; exact .stop rfl)
  obtain ⟨sent, sentChain, once⟩ := answers fun _ => ⟨false, Slot.initial, 0⟩
  rw [sentChain.unique chain] at once
  obtain ⟨response, only, _⟩ := once.response
  rw [List.filter_append, filter_reports same, List.nil_append] at only
  have none : [((Port.mirror config.reflectorSid,
      { firstReport config t with validvalue := 0, clonenumForPktloss := 0 }) : Port × Packet)].filter
        (fun entry => entry.2.optype.isWriteAck) = [] := by
    refine List.filter_eq_nil_iff.mpr fun entry member => ?_
    rw [List.mem_singleton.mp member]
    exact Bool.eq_false_iff.mp (isWriteAck_reportType t.packet)
  exact nomatch none.symm.trans only

/-- With the tables of Tofino, a write to a cached valid slot is answered exactly once, and its reports are right,
exactly if it is not the first of a snapshot period, or deletes a record that was not deleted. -/
theorem tofino_answers_iff (clientSids : List Nat) (reflectorSid : Nat) (t : Traversal)
    (hit : WriteHit ⟨.tofino, clientSids, reflectorSid⟩ t) :
    Answers ⟨.tofino, clientSids, reflectorSid⟩ t ↔
      t.packet.snapshotFlag = false ∨ t.isCase1 = true ∨
        (t.packet.optype = .delreqInswitch ∧ t.isDeleted = false) := by
  by_cases known : t.packet.snapshotFlag = true ∧ t.isCase1 = false
  · obtain ⟨flag, case1⟩ := known
    rcases hit.write with put | del
    · refine iff_of_false (hit.not_answers_put flag case1 put rfl) ?_
      simp [flag, case1, put]
    · rw [hit.answers_first flag case1 (fun put => absurd (put.symm.trans del) (by decide))]
      simp [reportedStat, del, flag, case1]
  · refine iff_of_true (hit.answers_known known) ?_
    cases flag : t.packet.snapshotFlag with
    | false => exact .inl rfl
    | true =>
      have case1 : t.isCase1 = true := by simpa using fun no => known ⟨flag, no⟩
      exact .inr (.inl case1)

end Writes

/-- A write of the first client that finds its slot valid, latest and deleted while a snapshot is going on. -/
def writeTraversal (optype : Optype) (isCase1 : Bool) : Traversal :=
  { init { bare optype ⟨1, 0, 0, 0⟩ 0 true with clientSid := 1, snapshotFlag := true, validvalue := 1 }
      Slot.initial 0 with
    isLatest := true, isDeleted := true, isCase1 := isCase1 }

theorem writeHit_writeTraversal {optype : Optype} (write : optype = .putreqInswitch ∨ optype = .delreqInswitch)
    (isCase1 : Bool) : WriteHit ⟨.tofino, [1], 2⟩ (writeTraversal optype isCase1) :=
  ⟨write, rfl, rfl, List.mem_singleton.mpr rfl, Nat.one_ne_zero, fun _ => rfl⟩

theorem tofino_answers_iff_reported :
    Answers ⟨.tofino, [1], 2⟩ (writeTraversal .putreqInswitch true) ↔ true = false ∨ true = true ∨
      (Optype.putreqInswitch = .delreqInswitch ∧ true = false) :=
  tofino_answers_iff [1] 2 _ (writeHit_writeTraversal (.inl rfl) true)

/-- The first PUT of a snapshot period gets no response, and the first DEL of a deleted record is reported as the
deletion of a live one. -/
theorem first_write_not_answers :
    ¬ Answers ⟨.tofino, [1], 2⟩ (writeTraversal .putreqInswitch false) ∧
      ¬ Answers ⟨.tofino, [1], 2⟩ (writeTraversal .delreqInswitch false) := by
  refine ⟨(writeHit_writeTraversal (.inl rfl) false).not_answers_put rfl rfl rfl rfl, ?_⟩
  rw [(writeHit_writeTraversal (.inr rfl) false).answers_first rfl rfl nofun]
  decide

end FarReach
