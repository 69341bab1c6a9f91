import FarReach.SnapshotPeriod

namespace FarReach

open SnapshotPeriod Function

/-- The popworker has stored the special case of an index and is about to give it away. -/
def PopworkerStage.Leaving (idx : Nat) : PopworkerStage → Prop
  | .recorded other _ | .invalid other _ | .free other | .popped other _ | .lookedUp other _ => other = idx
  | _ => False

def PopworkerStage.Fits (backup : CacheBackup) (keyarray : Nat → Option Key) : PopworkerStage → Prop
  | .idle => True
  | .evicting idx key | .loaded idx key _ | .recorded idx key | .invalid idx key => keyarray idx = some key
  | .free idx => keyarray idx = none
  | .popped idx key | .lookedUp idx key => keyarray idx = none ∧ key ≠ backup.keyarray idx

namespace SnapshotPeriod

/-- What is known of one backed-up index: its special case is the record of the beginning, or the index
still has its key and nothing but that record was read from it. -/
structure Kept (backup : CacheBackup) (start s : SnapshotPeriod) (idx : Nat) : Prop where
  recorded : ∀ record, s.specialcases idx = some record → record = (start.slots idx).record
  left : s.specialcases idx ≠ none → s.keyarray idx = some (backup.keyarray idx) → s.stage.Leaving idx
  holds : s.specialcases idx = none → s.keyarray idx = some (backup.keyarray idx)
  stays : s.specialcases idx = none → ¬ s.stage.Leaving idx
  acks : s.specialcases idx = none → ∀ ack ∈ s.acks.drop start.acks.length, ack.idx = idx →
    ack.record = (start.slots idx).record
  read : s.specialcases idx = none → ∀ record, s.snapshotRecords idx = some record →
    record = (start.slots idx).record
  evicted : s.specialcases idx = none → ∀ key record, s.stage = .loaded idx key record →
    record = (start.slots idx).record

/-- What every step of a run that reads its slots in time keeps. -/
structure Consistent (backup : CacheBackup) (start s : SnapshotPeriod) : Prop where
  reports : s.reports = []
  leftOver : start.acks.length ≤ s.acks.length
  fits : s.stage.Fits backup s.keyarray
  kept : ∀ idx < backup.emptyIndex, Kept backup start s idx

theorem Begin.consistent {backup : CacheBackup} {start : SnapshotPeriod} (begins : Begin backup start) :
    Consistent backup start start := by
  refine ⟨begins.reports, le_rfl, ?_, fun idx below => ?_⟩
  · rw [begins.stage]
    trivial
  · have none := begins.specialcases idx
    refine ⟨?_, fun some => absurd none some, fun _ => begins.backedUp idx below, ?_, ?_, ?_, ?_⟩
    · intro record found
      rw [none] at found
      cases found
    · intro _
      rw [begins.stage]
      exact id
    · intro _ ack member
      rw [List.drop_length] at member
      cases member
    · intro _ record found
      rw [begins.snapshotRecords idx] at found
      cases found
    · intro _ key record at_stage
      rw [begins.stage] at at_stage
      cases at_stage

section Step

variable {setup : Setup} {start s : SnapshotPeriod}

theorem Consistent.registers (consistent : Consistent setup.backup start s) (slots : Nat → Slot)
    (seqRegs : Nat → Nat) : Consistent setup.backup start { s with slots, seqRegs } :=
  ⟨consistent.reports, consistent.leftOver, consistent.fits, fun idx below =>
    have kept := consistent.kept idx below
    { kept with }⟩

variable {counted : Bool} {idx other : Nat} {backup : CacheBackup} {key : Key} {pop : Packet}

theorem reports_passAt {packet : Packet} (period : PeriodPacket packet) :
    (s.passAt setup idx packet counted).reports = s.reports := by
  have silent := @reports_step setup.config ⟨s.slots idx, s.seqRegs (setup.seqBucket packet.key)⟩
    (packet, counted) period
  unfold passAt egressAt
  unfold Registers.reports at silent
  simp only [silent, List.append_nil]

theorem Consistent.packet (consistent : Consistent setup.backup start s) {packet : Packet}
    (possible : Possible setup s (.packet packet counted)) :
    Consistent setup.backup start (s.step setup (.packet packet counted)) := by
  simp only [step]
  split
  · rename_i idx _
    have period : PeriodPacket { packet with idx, isCached := true } := ⟨possible.1, rfl, possible.2⟩
    have same : s.passAt setup idx { packet with idx, isCached := true } counted =
        { s with
          slots := (s.passAt setup idx { packet with idx, isCached := true } counted).slots
          seqRegs := (s.passAt setup idx { packet with idx, isCached := true } counted).seqRegs } := by
      have silent : (s.passAt setup idx { packet with idx, isCached := true } counted).reports = s.reports :=
        reports_passAt period
      rw [← silent]
      rfl
    rw [same]
    exact consistent.registers _ _
  · exact consistent

/-- A load is answered with the record of its slot. -/
theorem mem_answers {packet answer : Packet} (request : LoadRequest packet)
    (answered : answer ∈ s.answers setup idx packet) :
    answer.idx = packet.idx ∧ answer.record = (s.slots idx).record := by
  unfold answers egressAt at answered
  rw [egress_load_bmv2 setup.bmv2 false request] at answered
  cases List.mem_singleton.mp (List.mem_filter.mp answered).1
  exact ⟨rfl, rfl⟩

theorem Consistent.load (consistent : Consistent setup.backup start s)
    (inTime : ReadInTime setup start s (.load idx)) : Consistent setup.backup start (s.step setup (.load idx)) := by
  simp only [step]
  split
  · refine ⟨consistent.reports, ?_, consistent.fits, fun other below => ?_⟩
    · exact consistent.leftOver.trans (by simp only [List.length_append]; omega)
    have kept := consistent.kept other below
    refine { kept with acks := ?_ }
    intro none ack member same
    rw [List.drop_append_of_le_length consistent.leftOver] at member
    rcases List.mem_append.mp member with earlier | answered
    · exact kept.acks none ack earlier same
    · obtain ⟨index, record⟩ := mem_answers ⟨Or.inr rfl, rfl, rfl, rfl⟩ answered
      obtain rfl : idx = other := index.symm.trans same
      exact record.trans (inTime below none)
  · exact consistent

theorem Consistent.receive (consistent : Consistent setup.backup start s) {position : Nat}
    (fresh : start.acks.length ≤ position) : Consistent setup.backup start (s.step setup (.receive position)) := by
  simp only [step]
  split
  · rename_i ack found
    split
    · refine ⟨consistent.reports, consistent.leftOver, consistent.fits, fun other below => ?_⟩
      have kept := consistent.kept other below
      refine { kept with read := ?_ }
      intro none stored
      dsimp only
      by_cases same : other = ack.idx
      · rw [same, update_self]
        rintro ⟨⟩
        have member : ack ∈ s.acks.drop start.acks.length := by
          refine List.mem_of_getElem? (i := position - start.acks.length) ?_
          rw [List.getElem?_drop, Nat.add_sub_cancel' fresh, found]
        rw [← same]
        exact kept.acks none ack member same.symm
      · rw [update_of_ne same]
        exact kept.read none stored
    · exact consistent
  · exact consistent

theorem Consistent.report (consistent : Consistent setup.backup start s) (position : Nat) :
    Consistent setup.backup start (s.step setup (.report position)) := by
  simp only [step, consistent.reports, List.getElem?_nil]
  exact consistent

/-- A step of the popworker that does not store a special case: its index stays at hand or is given away. -/
theorem Kept.move (kept : Kept backup start s idx) (stage : PopworkerStage)
    (leaves : s.stage.Leaving idx → stage.Leaving idx) (stays : ¬ s.stage.Leaving idx → ¬ stage.Leaving idx)
    (loads : s.specialcases idx = none → ∀ key record, stage = .loaded idx key record →
      record = (start.slots idx).record) (slots : Nat → Slot) (cacheLookup : Key → Option Nat) :
    Kept backup start { s with stage, slots, cacheLookup } idx :=
  { kept with
    left := fun some holds => leaves (kept.left some holds)
    stays := fun none => stays (kept.stays none)
    evicted := loads }

theorem Consistent.evict (consistent : Consistent setup.backup start s) (idx : Nat) :
    Consistent setup.backup start (s.step setup (.evict idx)) := by
  simp only [step]
  split
  · rename_i key found
    split
    · rename_i ready
      refine ⟨consistent.reports, consistent.leftOver, found, fun other below => ?_⟩
      have idle : ¬ s.stage.Leaving other := by
        rw [ready.2]
        exact id
      exact (consistent.kept other below).move (.evicting idx key) (fun leaving => absurd leaving idle)
        (fun _ => id) (fun _ _ _ impossible => by cases impossible) _ _
    · exact consistent
  · exact consistent

theorem Consistent.takeFree (consistent : Consistent setup.backup start s) (idx : Nat) :
    Consistent setup.backup start (s.step setup (.takeFree idx)) := by
  simp only [step]
  split
  · rename_i ready
    refine ⟨consistent.reports, consistent.leftOver, ready.2.2, fun other below => ?_⟩
    have kept := consistent.kept other below
    have idle : ¬ s.stage.Leaving other := by
      rw [ready.2.1]
      exact id
    refine { kept with
      left := fun some holds => absurd (kept.left some holds) idle, stays := ?_
      evicted := fun _ _ _ impossible => by cases impossible }
    -- an index without a key is not one whose special case is still missing
    rintro none same
    have holds := kept.holds none
    rw [← show idx = other from same, ready.2.2] at holds
    cases holds
  · exact consistent

/-- The record that the popworker loads from a victim. -/
theorem Consistent.evicting (consistent : Consistent setup.backup start s)
    (inTime : ReadInTime setup start s (.popworker pop)) (stage : s.stage = .evicting idx key) :
    Consistent setup.backup start (s.popworkerStep setup pop) := by
  have fits := consistent.fits
  rw [stage] at fits
  simp only [popworkerStep, stage]
  split
  · rename_i answer rest answered
    refine ⟨consistent.reports, consistent.leftOver, fits, fun other below => ?_⟩
    refine (consistent.kept other below).move (.loaded idx key answer.record) ?_ (fun _ => id) ?_ _ _
    · rw [stage]
      exact id
    · intro none key' record' same
      cases same
      have given := mem_answers ⟨Or.inl ⟨rfl, rfl⟩, rfl, rfl, rfl⟩ (answered ▸ List.mem_cons_self)
      exact given.2.trans (inTime idx (by rw [stage]; rfl) below none)
  · exact consistent

theorem processSpecialcase_of_ne (backup : CacheBackup) (specialcases : Nat → Option SnapshotRecord) (key : Key)
    (record : SnapshotRecord) (apart : other ≠ idx) :
    processSpecialcase backup specialcases idx key record other = specialcases other := by
  unfold processSpecialcase
  split
  · cases specialcases idx with
    | none => exact update_of_ne apart ..
    | some old =>
      dsimp only
      split
      · exact update_of_ne apart ..
      · rfl
  · rfl

/-- The special case of a victim is the record of the beginning, if the victim is the key that was backed
up; then no special case was stored for the index before. -/
theorem Consistent.loaded (consistent : Consistent setup.backup start s) (pop : Packet) {record : SnapshotRecord}
    (stage : s.stage = .loaded idx key record) :
    Consistent setup.backup start (s.popworkerStep setup pop) := by
  have holdsKey : s.keyarray idx = some key := by
    have fits := consistent.fits
    rwa [stage] at fits
  simp only [popworkerStep, stage]
  refine ⟨consistent.reports, consistent.leftOver, holdsKey, fun other below => ?_⟩
  have kept := consistent.kept other below
  have notLeaving : ¬ s.stage.Leaving other := by
    rw [stage]
    exact id
  by_cases same : other = idx
  · subst same
    by_cases backedUp : setup.backup.keyarray other = key
    · have none : s.specialcases other = none := by
        by_contra some
        exact notLeaving (kept.left some (by rw [backedUp]; exact holdsKey))
      have original := kept.evicted none key record stage
      have stored : processSpecialcase setup.backup s.specialcases other key record =
          update s.specialcases other (some record) := by
        unfold processSpecialcase
        rw [if_pos ⟨below, backedUp⟩, none]
      rw [stored]
      have recorded : update s.specialcases other (some record) other = some record :=
        update_self ..
      refine ⟨?_, fun _ _ => rfl, ?_, ?_, ?_, ?_, ?_⟩
      · intro found special
        cases recorded.symm.trans special
        exact original
      all_goals
        intro missing
        cases recorded.symm.trans missing
    · have untouched : processSpecialcase setup.backup s.specialcases other key record = s.specialcases := by
        unfold processSpecialcase
        rw [if_neg fun both => backedUp both.2]
      have some : s.specialcases other ≠ none := by
        intro none
        have holds := kept.holds none
        rw [holdsKey] at holds
        exact backedUp (Option.some.inj holds).symm
      rw [untouched]
      exact { kept with
        left := fun _ _ => rfl, stays := fun none => absurd none some, evicted := fun none => absurd none some }
  · have untouched := processSpecialcase_of_ne setup.backup s.specialcases key record same
    have elsewhere : ¬ (PopworkerStage.recorded idx key).Leaving other := Ne.symm same
    refine ⟨?_, ?_, ?_, ?_, ?_, ?_, ?_⟩ <;> dsimp only <;> rw [untouched]
    · exact kept.recorded
    · exact fun some holds => absurd (kept.left some holds) notLeaving
    · exact kept.holds
    · exact fun _ => elsewhere
    · exact kept.acks
    · exact kept.read
    · exact fun _ _ _ impossible => by cases impossible

/-- The index changes hands: it has lost its key, or gets another one. -/
theorem Kept.handOver (kept : Kept backup start s other) (leaving : s.stage.Leaving idx)
    (alone : s.stage.Leaving other → other = idx) (stage : PopworkerStage)
    (rests : other ≠ idx → ¬ stage.Leaving other) (key : Option Key) (another : key ≠ some (backup.keyarray idx))
    (loads : ∀ key record, stage ≠ .loaded other key record) (slots : Nat → Slot) (cacheLookup : Key → Option Nat) :
    Kept backup start { s with stage, slots, cacheLookup, keyarray := update s.keyarray idx key } other := by
  by_cases same : other = idx
  · subst same
    have some : s.specialcases other ≠ none := fun none => kept.stays none leaving
    refine { kept with
      left := fun _ holds => ?_, holds := fun none => absurd none some, stays := fun none => absurd none some
      evicted := fun none => absurd none some }
    dsimp only at holds
    rw [update_self] at holds
    exact absurd holds another
  · have untouched : update s.keyarray idx key other = s.keyarray other := update_of_ne same ..
    refine { kept with
      left := fun some holds => ?_, holds := fun none => ?_, stays := fun _ => rests same
      evicted := fun _ key' record found => absurd found (loads key' record) }
    · dsimp only at holds
      rw [untouched] at holds
      exact absurd (alone (kept.left some holds)) same
    · dsimp only
      rw [untouched]
      exact kept.holds none

theorem Consistent.goOn (consistent : Consistent backup start s) (stage : PopworkerStage)
    (fits : stage.Fits backup s.keyarray) (same : ∀ idx, s.stage.Leaving idx ↔ stage.Leaving idx)
    (loads : ∀ idx key record, stage ≠ .loaded idx key record) (slots : Nat → Slot) (cacheLookup : Key → Option Nat) :
    Consistent backup start { s with stage, slots, cacheLookup } :=
  ⟨consistent.reports, consistent.leftOver, fits, fun idx below =>
    (consistent.kept idx below).move stage (same idx).mp (fun stays leaving => stays ((same idx).mpr leaving))
      (fun _ key record found => absurd found (loads idx key record)) slots cacheLookup⟩

theorem Consistent.popworker (consistent : Consistent setup.backup start s)
    (possible : Possible setup s (.popworker pop)) (inTime : ReadInTime setup start s (.popworker pop)) :
    Consistent setup.backup start (s.popworkerStep setup pop) := by
  have fits := consistent.fits
  cases stage : s.stage with
  | idle =>
    simp only [popworkerStep, stage]
    exact consistent
  | evicting idx key => exact consistent.evicting inTime stage
  | loaded idx key record => exact consistent.loaded pop stage
  | recorded idx key =>
    rw [stage] at fits
    simp only [popworkerStep, stage]
    refine consistent.goOn (.invalid idx key) fits (fun other => ?_) (fun _ _ _ impossible => by cases impossible) _ _
    rw [stage]
    exact Iff.rfl
  | invalid idx key =>
    simp only [popworkerStep, stage]
    refine ⟨consistent.reports, consistent.leftOver, update_self .., fun other below => ?_⟩
    refine (consistent.kept other below).handOver (by rw [stage]; rfl) ?_ (.free idx) (fun apart => Ne.symm apart)
      none (by simp) (fun _ _ impossible => by cases impossible) _ _
    rw [stage]
    exact Eq.symm
  | free idx =>
    rw [stage] at fits
    simp only [popworkerStep, stage]
    refine consistent.goOn (.popped idx pop.key) ⟨fits, possible idx (by rw [stage]; rfl)⟩ (fun other => ?_)
      (fun _ _ _ impossible => by cases impossible) _ _
    rw [stage]
    exact Iff.rfl
  | popped idx key =>
    rw [stage] at fits
    simp only [popworkerStep, stage]
    refine consistent.goOn (.lookedUp idx key) fits (fun other => ?_)
      (fun _ _ _ impossible => by cases impossible) _ _
    rw [stage]
    exact Iff.rfl
  | lookedUp idx key =>
    rw [stage] at fits
    simp only [popworkerStep, stage]
    refine ⟨consistent.reports, consistent.leftOver, trivial, fun other below => ?_⟩
    refine (consistent.kept other below).handOver (by rw [stage]; rfl) ?_ .idle (fun _ => id) (some key)
      (fun same => fits.2 (Option.some.inj same)) (fun _ _ impossible => by cases impossible) _ _
    rw [stage]
    exact Eq.symm

theorem Consistent.step (consistent : Consistent setup.backup start s) {event : PeriodEvent}
    (possible : Possible setup s event) (inTime : ReadInTime setup start s event) :
    Consistent setup.backup start (s.step setup event) := by
  cases event with
  | packet packet counted => exact consistent.packet possible
  | snapshotStart =>
    exact ⟨consistent.reports, consistent.leftOver, consistent.fits, fun idx below =>
      have kept := consistent.kept idx below
      { kept with }⟩
  | load idx => exact consistent.load inTime
  | receive position => exact consistent.receive inTime
  | report position => exact consistent.report position
  | evict idx => exact consistent.evict idx
  | takeFree idx => exact consistent.takeFree idx
  | popworker pop => exact consistent.popworker possible inTime

theorem Consistent.pointInTime (consistent : Consistent backup start s) :
    PointInTime backup start s := by
  intro _ _ complete idx below
  have kept := consistent.kept idx below
  unfold rollback
  cases special : s.specialcases idx with
  | some record => rw [Option.some_or, kept.recorded record special]
  | none =>
    rw [Option.none_or]
    obtain ⟨record, read⟩ := Option.isSome_iff_exists.mp (complete idx below)
    rw [read, kept.read special record read]

end Step

/-- In a run in which no slot is read after it was overwritten the snapshot is the cache at the moment the
flag was set. -/
theorem point_in_time_of_read_in_time (setup : Setup) {start s : SnapshotPeriod} (begins : Begin setup.backup start)
    (run : Runs.Reaches (step setup) (fun s event => Possible setup s event ∧ ReadInTime setup start s event)
      start s) :
    PointInTime setup.backup start s := by
  have consistent : Consistent setup.backup start s := run.invariant (Consistent setup.backup start) begins.consistent
    fun _ _ holds ok => holds.step ok.1 ok.2
  exact consistent.pointInTime

/-- Two slots are cached; their records have sequence number five. A load of an earlier snapshot is still
to be answered. -/
def sampleSetup : Setup := ⟨⟨.bmv2, [1], 2⟩, rfl, fun _ => 0, ⟨fun idx => ⟨UInt32.ofNat (idx + 1), 0, 0, 0⟩, 2⟩⟩

def sample : SnapshotPeriod :=
  { slots := fun _ => Slot.sample, seqRegs := fun _ => 7
    cacheLookup := fun key =>
      if key = ⟨1, 0, 0, 0⟩ then some 0 else if key = ⟨2, 0, 0, 0⟩ then some 1 else none
    keyarray := fun idx => if idx < 2 then some (sampleSetup.backup.keyarray idx) else none
    stage := .idle, isSnapshot := false
    acks := [{ Packet.bare .loadsnapshotdataInswitchAck ⟨1, 0, 0, 0⟩ 0 true with seq := 3, stat := true }]
    snapshotRecords := fun _ => none, reports := [], specialcases := fun _ => none }

def overwrite : PeriodEvent :=
  .packet { Packet.bare .putreqInswitch ⟨1, 0, 0, 0⟩ 0 true with
    clientSid := 1, snapshotFlag := true, vallen := 1 } false

theorem sample_begin : Begin sampleSetup.backup sample :=
  ⟨rfl, fun _ => rfl, rfl, fun _ => rfl, fun _ below => if_pos below⟩

/-- The first slot is loaded and then overwritten. The second is evicted, given to another key and only
then loaded. The answer of the earlier snapshot is never received. -/
def keptRun : List PeriodEvent :=
  [.snapshotStart, .load 0, overwrite, .evict 1] ++
    List.replicate 7 (.popworker
      { Packet.bare .cachePopInswitch ⟨9, 0, 0, 0⟩ 0 false with seq := 9, stat := true }) ++
    [.load 1, .receive 2, .receive 1]

theorem point_in_time_of_read_in_time_kept :
    let s := keptRun.foldl (step sampleSetup) sample
    (s.slots 0).savedseq = 8 ∧ (s.snapshotRecords 1).map SnapshotRecord.seq = some 9 ∧
      s.rollback 0 = some Slot.sample.record ∧ s.rollback 1 = some Slot.sample.record := by
  intro s
  have run : Runs.Reaches (step sampleSetup)
      (fun s event => Possible sampleSetup s event ∧ ReadInTime sampleSetup sample s event) sample s :=
    Runs.Reaches.start.foldl keptRun (by decide +kernel)
  have kept := point_in_time_of_read_in_time sampleSetup sample_begin run
  have quiet : s.stage = .idle ∧ s.reports = [] ∧ ∀ idx < 2, (s.snapshotRecords idx).isSome := by decide +kernel
  have changed : (s.slots 0).savedseq = 8 ∧ (s.snapshotRecords 1).map SnapshotRecord.seq = some 9 := by
    decide +kernel
  have restored := kept quiet.1 quiet.2.1 quiet.2.2
  exact ⟨changed.1, changed.2, restored 0 (by decide), restored 1 (by decide)⟩

def overwrittenRun : List PeriodEvent := [overwrite, .snapshotStart, .load 0, .load 1, .receive 1, .receive 2]

theorem overwritten_slot_in_snapshot :
    ¬ ∀ s, Runs.Reaches (step sampleSetup) (Possible sampleSetup) sample s →
      PointInTime sampleSetup.backup sample s := by
  intro always
  have run : Runs.Reaches (step sampleSetup) (Possible sampleSetup) sample
      (overwrittenRun.foldl (step sampleSetup) sample) :=
    Runs.Reaches.start.foldl overwrittenRun (by decide +kernel)
  have quiet : (overwrittenRun.foldl (step sampleSetup) sample).stage = .idle ∧
      (overwrittenRun.foldl (step sampleSetup) sample).reports = [] ∧
      ∀ idx < 2, ((overwrittenRun.foldl (step sampleSetup) sample).snapshotRecords idx).isSome := by decide +kernel
  have different : (overwrittenRun.foldl (step sampleSetup) sample).rollback 0 ≠ some Slot.sample.record := by
    decide +kernel
  exact different (always _ run quiet.1 quiet.2.1 quiet.2.2 0 (by decide))

end SnapshotPeriod

end FarReach
