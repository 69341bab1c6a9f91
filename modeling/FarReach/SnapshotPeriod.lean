import FarReach.Case1Report
import FarReach.LoadData
import FarReach.Runs

namespace FarReach

open Function

/-- What switchos has copied when a snapshot begins: `switchos_perpipeline_cached_keyarray_backup` and
`switchos_perpipeline_cached_empty_index_backup` of one pipeline. -/
structure CacheBackup where
  keyarray : Nat → Key
  emptyIndex : Nat

/-- Where `run_switchos_popworker` is with a population: the victim's slot is being evicted, its record
was loaded, its special case is stored, the slot is invalid, the index is free, the new record is in
the slot, and its key is in the lookup table. -/
inductive PopworkerStage where
  | idle
  | evicting (idx : Nat) (key : Key)
  | loaded (idx : Nat) (key : Key) (record : SnapshotRecord)
  | recorded (idx : Nat) (key : Key)
  | invalid (idx : Nat) (key : Key)
  | free (idx : Nat)
  | popped (idx : Nat) (key : Key)
  | lookedUp (idx : Nat) (key : Key)
  deriving DecidableEq

/-- The index whose slot the popworker loads next. -/
def PopworkerStage.victim : PopworkerStage → Option Nat
  | .evicting idx _ => some idx
  | _ => none

def PopworkerStage.target : PopworkerStage → Option Nat
  | .free idx => some idx
  | _ => none

/-- A pipeline and switchos from the moment the snapshot flag is set. `acks` and `reports` are under way
to the loader and to `run_switchos_specialcaseserver`. -/
structure SnapshotPeriod where
  slots : Nat → Slot
  seqRegs : Nat → Nat
  cacheLookup : Key → Option Nat
  keyarray : Nat → Option Key
  stage : PopworkerStage
  isSnapshot : Bool
  acks : List Packet
  snapshotRecords : Nat → Option SnapshotRecord
  reports : List Packet
  specialcases : Nat → Option SnapshotRecord

/-- `process_specialcase`: of two records for an index the one with the smaller sequence number is
nearer to the beginning of the snapshot. -/
def processSpecialcase (backup : CacheBackup) (specialcases : Nat → Option SnapshotRecord) (idx : Nat) (key : Key)
    (record : SnapshotRecord) : Nat → Option SnapshotRecord :=
  if idx < backup.emptyIndex ∧ backup.keyarray idx = key then
    match specialcases idx with
    | none => update specialcases idx (some record)
    | some old =>
      if record.seq < old.seq then update specialcases idx (some record) else specialcases
  else specialcases

inductive PeriodEvent where
  /-- A packet of a client or of the server for a key that may be cached. -/
  | packet (packet : Packet) (counted : Bool)
  /-- `SNAPSHOT_START`: the popworker is resumed, and the slots are loaded. -/
  | snapshotStart
  /-- The `LOADSNAPSHOTDATA_INSWITCH` of an index passes its slot. -/
  | load (idx : Nat)
  /-- The acknowledgement of a load reaches switchos. -/
  | receive (position : Nat)
  /-- A report reaches `run_switchos_specialcaseserver`. -/
  | report (position : Nat)
  /-- The popworker chooses a victim. -/
  | evict (idx : Nat)
  /-- The popworker takes an index that is still free. -/
  | takeFree (idx : Nat)
  /-- The popworker goes on; `pop` is the record it is asked to cache. -/
  | popworker (pop : Packet)

namespace SnapshotPeriod

/-- What the parts of a pipeline are told once: the tables, the counter of each key, the backup. The
tables are those of bmv2: with Tofino's the loader waits for ever, since the answers to its loads are
typed as answers to the popworker. -/
structure Setup where
  config : SwitchConfig
  bmv2 : config.platform = .bmv2
  seqBucket : Key → Nat
  backup : CacheBackup

def egressAt (setup : Setup) (s : SnapshotPeriod) (idx : Nat) (packet : Packet) (counted : Bool) : Outcome :=
  egress setup.config counted (s.slots idx) (s.seqRegs (setup.seqBucket packet.key)) packet

def passAt (setup : Setup) (s : SnapshotPeriod) (idx : Nat) (packet : Packet) (counted : Bool) : SnapshotPeriod :=
  let outcome := s.egressAt setup idx packet counted
  { s with
    slots := update s.slots idx outcome.slot
    seqRegs := update s.seqRegs (setup.seqBucket packet.key) outcome.seqReg
    reports := s.reports ++ (outcome.emitted.map Prod.snd).filter (·.optype.isCase1Report) }

def setvalid (setup : Setup) (s : SnapshotPeriod) (idx : Nat) (key : Key) (validvalue : UInt8) : SnapshotPeriod :=
  { s with
    slots := update s.slots idx
      (s.egressAt setup idx { Packet.bare .setvalidInswitch key idx true with validvalue } false).slot }

/-- What the reflector hands to the thread that loads an index. -/
def answers (setup : Setup) (s : SnapshotPeriod) (idx : Nat) (packet : Packet) : List Packet :=
  ((s.egressAt setup idx packet false).emitted.map Prod.snd).filter (·.optype = awaitedAck packet.optype)

/-- One step of `run_switchos_popworker`. All its evictions are of case 2: it was stopped until
`is_snapshot` was set. -/
def popworkerStep (setup : Setup) (s : SnapshotPeriod) (pop : Packet) : SnapshotPeriod :=
  match s.stage with
  | .idle => s
  | .evicting idx key =>
    match s.answers setup idx (Packet.bare .cacheEvictLoaddataInswitch key idx true) with
    | answer :: _ => { s with stage := .loaded idx key answer.record }
    | [] => s
  -- the server has acknowledged CACHE_EVICT_CASE2
  | .loaded idx key record =>
    { s with
      specialcases := processSpecialcase setup.backup s.specialcases idx key record
      stage := .recorded idx key }
  | .recorded idx key => { s.setvalid setup idx key 0 with stage := .invalid idx key }
  | .invalid idx key =>
    { s with
      cacheLookup := update s.cacheLookup key none
      keyarray := update s.keyarray idx none
      stage := .free idx }
  | .free idx =>
    { s with
      slots := update s.slots idx
        (s.egressAt setup idx { pop with optype := .cachePopInswitch, idx, isCached := false } false).slot
      stage := .popped idx pop.key }
  | .popped idx key =>
    { s with cacheLookup := update s.cacheLookup key (some idx), stage := .lookedUp idx key }
  | .lookedUp idx key =>
    { s.setvalid setup idx key 1 with keyarray := update s.keyarray idx (some key), stage := .idle }

def step (setup : Setup) (s : SnapshotPeriod) : PeriodEvent → SnapshotPeriod
  | .packet packet counted =>
    match s.cacheLookup packet.key with
    | some idx => s.passAt setup idx { packet with idx, isCached := true } counted
    | none => s
  | .snapshotStart => { s with isSnapshot := true }
  | .load idx =>
    if s.isSnapshot ∧ idx < setup.backup.emptyIndex then
      let key := setup.backup.keyarray idx
      let cached := (s.cacheLookup key).isSome
      { s with acks := s.acks ++ s.answers setup idx (Packet.bare .loadsnapshotdataInswitch key idx cached) }
    else s
  | .receive position =>
    match s.acks[position]? with
    | some ack =>
      if s.snapshotRecords ack.idx = none then
        { s with snapshotRecords := update s.snapshotRecords ack.idx (some ack.record) }
      else s
    | none => s
  | .report position =>
    match s.reports[position]? with
    | some report =>
      { s with
        specialcases := processSpecialcase setup.backup s.specialcases report.idx report.key report.record
        reports := s.reports.eraseIdx position }
    | none => s
  | .evict idx =>
    match s.keyarray idx with
    | some key =>
      if s.isSnapshot ∧ s.stage = .idle then { s.setvalid setup idx key 3 with stage := .evicting idx key } else s
    | none => s
  | .takeFree idx =>
    if s.isSnapshot ∧ s.stage = .idle ∧ s.keyarray idx = none then { s with stage := .free idx } else s
  | .popworker pop => s.popworkerStep setup pop

def rollback (s : SnapshotPeriod) (idx : Nat) : Option SnapshotRecord :=
  (s.specialcases idx).or (s.snapshotRecords idx)

/-- When every load was answered, no report is under way and the popworker is between two populations,
the rollback gives the records of the beginning. -/
def PointInTime (backup : CacheBackup) (start s : SnapshotPeriod) : Prop :=
  s.stage = .idle → s.reports = [] → (∀ idx < backup.emptyIndex, (s.snapshotRecords idx).isSome) →
    ∀ idx < backup.emptyIndex, s.rollback idx = some (start.slots idx).record

/-- The flag has just been set: the popworker is stopped, and the backup describes the cache. Answers to
loads of an earlier snapshot may still be under way. -/
structure Begin (backup : CacheBackup) (s : SnapshotPeriod) : Prop where
  stage : s.stage = .idle
  snapshotRecords : ∀ idx, s.snapshotRecords idx = none
  reports : s.reports = []
  specialcases : ∀ idx, s.specialcases idx = none
  backedUp : ∀ idx < backup.emptyIndex, s.keyarray idx = some (backup.keyarray idx)

/-- The packets of a period are flagged; an index is repopulated with another key. An answer for another
key than the one backed up ends switchos, so that there is no snapshot. -/
def Possible (setup : Setup) (s : SnapshotPeriod) : PeriodEvent → Prop
  | .packet packet _ => (packet.IsWrite ∨ packet.IsResponse) ∧ packet.snapshotFlag = true
  | .receive position => ∀ ack ∈ s.acks[position]?, ack.key = setup.backup.keyarray ack.idx
  | .popworker pop => ∀ idx ∈ s.stage.target, pop.key ≠ setup.backup.keyarray idx
  | _ => True

instance (setup : Setup) (s : SnapshotPeriod) : (event : PeriodEvent) → Decidable (Possible setup s event)
  | .packet _ _ => inferInstanceAs (Decidable (_ ∧ _))
  | .receive _ | .popworker _ => inferInstanceAs (Decidable (∀ _ ∈ _, _))
  | .snapshotStart | .load _ | .report _ | .evict _ | .takeFree _ => isTrue trivial

/-- The record of a slot is as it was when the flag was set. -/
abbrev Unchanged (start s : SnapshotPeriod) (idx : Nat) : Prop := (s.slots idx).record = (start.slots idx).record

/-- No slot is read after it was overwritten, unless its special case is known already, and no answer to
a load of an earlier snapshot is received. -/
def ReadInTime (setup : Setup) (start s : SnapshotPeriod) : PeriodEvent → Prop
  | .load idx => idx < setup.backup.emptyIndex → s.specialcases idx = none → Unchanged start s idx
  | .receive position => start.acks.length ≤ position
  | .popworker _ =>
    ∀ idx ∈ s.stage.victim, idx < setup.backup.emptyIndex → s.specialcases idx = none → Unchanged start s idx
  | _ => True

instance (setup : Setup) (start s : SnapshotPeriod) :
    (event : PeriodEvent) → Decidable (ReadInTime setup start s event)
  | .load _ => inferInstanceAs (Decidable (_ → _ → _))
  | .receive _ => inferInstanceAs (Decidable (_ ≤ _))
  | .popworker _ => inferInstanceAs (Decidable (∀ _ ∈ _, _))
  | .packet _ _ | .snapshotStart | .report _ | .evict _ | .takeFree _ => isTrue trivial

end SnapshotPeriod

end FarReach
