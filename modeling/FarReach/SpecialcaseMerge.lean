import FarReach.OrderedMap
import FarReach.SnapshotPeriod

namespace FarReach

/-- `special_case_t`; the record's status is its `_valid`. -/
structure SpecialCase where
  key : Key
  record : SnapshotRecord
  deriving DecidableEq

/-- The arguments of `process_specialcase`. -/
structure SpecialcaseReport where
  idx : Nat
  special : SpecialCase
  deriving DecidableEq

/-- What was backed up of one pipeline; its empty index is asserted to be at most
`switch_kv_bucket_num`. -/
structure PipelineBackup (bucketNum : Nat) extends CacheBackup where
  within : emptyIndex ≤ bucketNum

variable {bucketNum : Nat}

namespace PipelineBackup

/-- The backed-up array has the key of the report at its index. -/
def Keyed (backup : PipelineBackup bucketNum) (report : SpecialcaseReport) : Prop :=
  backup.keyarray report.idx = report.special.key

instance (backup : PipelineBackup bucketNum) (report : SpecialcaseReport) : Decidable (backup.Keyed report) :=
  inferInstanceAs (Decidable (_ = _))

/-- The report is about a slot that was cached when the snapshot began. -/
def Matches (backup : PipelineBackup bucketNum) (report : SpecialcaseReport) : Prop :=
  report.idx < backup.emptyIndex ∧ backup.Keyed report

instance (backup : PipelineBackup bucketNum) (report : SpecialcaseReport) : Decidable (backup.Matches report) :=
  inferInstanceAs (Decidable (_ ∧ _))

/-- The special cases reported for a backed-up slot, in the order of their arrival. -/
def reported (backup : PipelineBackup bucketNum) (idx : Nat) (reports : List SpecialcaseReport) :
    List SpecialCase :=
  (reports.filter fun report => backup.Matches report ∧ report.idx = idx).map (·.special)

end PipelineBackup

/-- One pipeline's backup and its map of special cases. -/
structure SnapshotPipeline (bucketNum : Nat) where
  backup : PipelineBackup bucketNum
  specialcases : Std.ExtTreeMap Nat SpecialCase

namespace SnapshotPipeline

/-- `SNAPSHOT_CLEANUP` makes a backup and an empty map. -/
def fresh (backup : PipelineBackup bucketNum) : SnapshotPipeline bucketNum := ⟨backup, ∅⟩

/-- The part of `process_specialcase` behind the search for the pipeline. -/
def store (pipeline : SnapshotPipeline bucketNum) (report : SpecialcaseReport) :
    Option (SnapshotPipeline bucketNum) :=
  if pipeline.backup.Matches report then
    match pipeline.specialcases[report.idx]? with
    | none => some { pipeline with specialcases := pipeline.specialcases.insert report.idx report.special }
    | some old =>
      if report.special.record.seq < old.record.seq then
        -- INVARIANT(tmpcase._key == tmpkey)
        if old.key = report.special.key then
          some { pipeline with
            specialcases := pipeline.specialcases.insert report.idx { old with record := report.special.record } }
        else none
      else some pipeline
  else some pipeline

/-- The search takes the first pipeline whose array has the key at the index. -/
def findAndStore (report : SpecialcaseReport) :
    List (SnapshotPipeline bucketNum) → Option (List (SnapshotPipeline bucketNum))
  | [] => some []
  | pipeline :: rest =>
    if pipeline.backup.Keyed report then (pipeline.store report).map (· :: rest)
    else (findAndStore report rest).map (pipeline :: ·)

/-- `process_specialcase` over all pipelines; `none` is a failed `INVARIANT`. -/
def processSpecialcase (pipelines : List (SnapshotPipeline bucketNum)) (report : SpecialcaseReport) :
    Option (List (SnapshotPipeline bucketNum)) :=
  if report.idx < bucketNum then findAndStore report pipelines else none

/-- The rollback of `SNAPSHOT_GETDATA` over the loaded records of a pipeline. -/
def rollback (pipeline : SnapshotPipeline bucketNum) (records : Nat → SnapshotRecord) :
    Option (Nat → SnapshotRecord) :=
  pipeline.specialcases.toList.foldlM (fun records entry =>
    if pipeline.backup.keyarray entry.1 = entry.2.key then
      some (Function.update records entry.1 entry.2.record)
    else none) records

def WellKeyed (pipeline : SnapshotPipeline bucketNum) : Prop :=
  ∀ (idx : Nat) (special : SpecialCase),
    pipeline.specialcases[idx]? = some special → pipeline.backup.keyarray idx = special.key

def Smallest (reported : List SpecialCase) : Option SpecialCase → Prop
  | none => reported = []
  | some special => special ∈ reported ∧
      ∀ other ∈ reported, other = special ∨ special.record.seq < other.record.seq

/-- A pipeline after the reports: its map has for each index the smallest of the reported cases, and the
rollback puts just these over the loaded records. -/
structure Merged (reports : List SpecialcaseReport) (backup : PipelineBackup bucketNum)
    (pipeline : SnapshotPipeline bucketNum) : Prop where
  same : pipeline.backup = backup
  smallest : ∀ idx : Nat, Smallest (backup.reported idx reports) pipeline.specialcases[idx]?
  rollback : ∀ records, ∃ after, pipeline.rollback records = some after ∧
    ∀ idx : Nat, after idx = pipeline.specialcases[idx]?.elim (records idx) SpecialCase.record

def MergesAll (backups : List (PipelineBackup bucketNum)) (reports : List SpecialcaseReport) : Prop :=
  ∃ pipelines, reports.foldlM processSpecialcase (backups.map fresh) = some pipelines ∧
    List.Forall₂ (Merged reports) backups pipelines

/-- A report for a backed-up slot meets no pipeline before it whose array has the same key there. -/
def FirstKeyed (backups : List (PipelineBackup bucketNum)) (reports : List SpecialcaseReport) : Prop :=
  backups.Pairwise fun earlier later => ∀ report ∈ reports, later.Matches report → ¬ earlier.Keyed report

def OneSmallest (reports : List SpecialcaseReport) (backup : PipelineBackup bucketNum) : Prop :=
  ∀ idx, ∀ special ∈ backup.reported idx reports, ∀ other ∈ backup.reported idx reports,
    (∀ third ∈ backup.reported idx reports, special.record.seq ≤ third.record.seq) →
    other.record.seq = special.record.seq → other = special

variable {pipeline : SnapshotPipeline bucketNum} {report : SpecialcaseReport}
    {backup first : PipelineBackup bucketNum} {reports others : List SpecialcaseReport}
    {backups : List (PipelineBackup bucketNum)} {pipelines : List (SnapshotPipeline bucketNum)}

theorem store_spec (keyed : pipeline.WellKeyed) (report : SpecialcaseReport) :
    ∃ next, pipeline.store report = some next ∧ next.backup = pipeline.backup ∧ next.WellKeyed ∧
      ∀ idx : Nat, next.specialcases[idx]? =
        if pipeline.backup.Matches report ∧ report.idx = idx then
          Loops.keepSmaller (·.record.seq) pipeline.specialcases[idx]? report.special
        else pipeline.specialcases[idx]? := by
  unfold store
  by_cases here : pipeline.backup.Matches report
  · rw [if_pos here]
    have key : pipeline.backup.keyarray report.idx = report.special.key := here.2
    have inserted : WellKeyed { pipeline with
        specialcases := pipeline.specialcases.insert report.idx report.special } := by
      intro idx special found
      rw [OrderedMap.lookup_insert] at found
      split at found
      · rename_i same
        rw [same, ← Option.some.inj found]
        exact key
      · exact keyed idx special found
    cases found : pipeline.specialcases[report.idx]? with
    | none =>
      refine ⟨_, rfl, rfl, inserted, ?_⟩
      intro idx
      simp only [OrderedMap.lookup_insert, here, true_and]
      by_cases same : idx = report.idx
      · subst same
        simp [found, Loops.keepSmaller]
      · simp [same, Ne.symm same]
    | some old =>
      have oldKey : old.key = report.special.key := (keyed report.idx old found).symm.trans key
      have replaced : ({ old with record := report.special.record } : SpecialCase) = report.special := by
        rw [oldKey]
      by_cases smaller : report.special.record.seq < old.record.seq
      · refine ⟨{ pipeline with specialcases := pipeline.specialcases.insert report.idx report.special }, ?_, rfl,
          inserted, ?_⟩
        · simp only [if_pos smaller, if_pos oldKey, replaced]
        · intro idx
          simp only [OrderedMap.lookup_insert, here, true_and]
          by_cases same : idx = report.idx
          · subst same
            simp [found, Loops.keepSmaller, smaller]
          · simp [same, Ne.symm same]
      · refine ⟨pipeline, by simp only [if_neg smaller], rfl, keyed, ?_⟩
        intro idx
        simp only [here, true_and]
        by_cases same : report.idx = idx
        · subst same
          simp [found, Loops.keepSmaller, smaller]
        · simp [same]
  · refine ⟨pipeline, if_neg here, rfl, keyed, ?_⟩
    intro idx
    simp [here]

/-- A pipeline of a backup that was given some reports one after the other. -/
structure Holds (backup : PipelineBackup bucketNum) (reports : List SpecialcaseReport)
    (pipeline : SnapshotPipeline bucketNum) : Prop where
  same : pipeline.backup = backup
  keyed : pipeline.WellKeyed
  lookup : ∀ idx : Nat, pipeline.specialcases[idx]? =
    (backup.reported idx reports).foldl (Loops.keepSmaller (·.record.seq)) none

theorem holds_fresh (backup : PipelineBackup bucketNum) : Holds backup [] (fresh backup) where
  same := rfl
  keyed := by
    intro idx special found
    simp [fresh] at found
  lookup := by
    intro idx
    simp [fresh, PipelineBackup.reported]

/-- One report after the other: the map holds for every index the first of the smallest cases. -/
theorem holds_storeAll (backup : PipelineBackup bucketNum) (reports : List SpecialcaseReport) :
    ∃ pipeline, reports.foldlM store (fresh backup) = some pipeline ∧ Holds backup reports pipeline := by
  refine Loops.foldlM_some_of_invariant store (Holds backup) ?_ reports [] (fresh backup) (holds_fresh backup)
  intro done pipeline report holds
  obtain ⟨next, stored, same, keyed, lookup⟩ := store_spec holds.keyed report
  refine ⟨next, stored, same.trans holds.same, keyed, ?_⟩
  intro idx
  rw [lookup, holds.same, holds.lookup]
  unfold PipelineBackup.reported
  rw [List.filter_append, List.map_append, List.foldl_append]
  split
  · rename_i here
    simp [here]
  · rename_i elsewhere
    simp only [List.filter_cons, decide_eq_true_eq, if_neg elsewhere, List.filter_nil, List.map_nil, List.foldl_nil]

theorem backup_store {next : SnapshotPipeline bucketNum} (stored : pipeline.store report = some next) :
    next.backup = pipeline.backup := by
  unfold store at stored
  repeat' split at stored
  all_goals cases stored
  all_goals rfl

/-- The first pipeline gets the reports whose key its array has, the others get the rest. -/
theorem foldlM_processSpecialcase_cons (backup : PipelineBackup bucketNum) (reports : List SpecialcaseReport)
    (inside : ∀ report ∈ reports, report.idx < bucketNum) (pipeline : SnapshotPipeline bucketNum)
    (same : pipeline.backup = backup) (rest : List (SnapshotPipeline bucketNum)) :
    reports.foldlM processSpecialcase (pipeline :: rest) =
      ((reports.filter fun report => backup.Keyed report).foldlM store pipeline).bind fun first =>
        ((reports.filter fun report => ¬ backup.Keyed report).foldlM processSpecialcase rest).map (first :: ·) := by
  induction reports generalizing pipeline rest with
  | nil => rfl
  | cons report later ih =>
    have here := inside report List.mem_cons_self
    have ih := ih fun report member => inside report (List.mem_cons_of_mem _ member)
    have step : processSpecialcase (pipeline :: rest) report =
        if backup.Keyed report then (pipeline.store report).map (· :: rest)
        else (processSpecialcase rest report).map (pipeline :: ·) := by
      unfold processSpecialcase
      rw [if_pos here, if_pos here, findAndStore, same]
    rw [List.foldlM_cons, step]
    by_cases keyed : backup.Keyed report
    · rw [if_pos keyed]
      simp only [List.filter_cons, keyed, decide_true, if_true, not_true, decide_false, Bool.false_eq_true,
        if_false, List.foldlM_cons]
      cases stored : pipeline.store report with
      | none => rfl
      | some next => exact ih next ((backup_store stored).trans same) rest
    · rw [if_neg keyed]
      simp only [List.filter_cons, keyed, decide_false, Bool.false_eq_true, if_false, not_false_iff, decide_true,
        if_true, List.foldlM_cons]
      cases searched : processSpecialcase rest report with
      | none =>
        cases (later.filter fun report => backup.Keyed report).foldlM store pipeline with
        | none => rfl
        | some first => rfl
      | some next => exact ih pipeline same next

/-- Each pipeline holds what it was given of the reports that no pipeline before it took. -/
def Collected : List (PipelineBackup bucketNum) → List SpecialcaseReport → List (SnapshotPipeline bucketNum) → Prop
  | [], _, [] => True
  | backup :: backups, reports, pipeline :: pipelines =>
    Holds backup reports pipeline ∧
      Collected backups (reports.filter fun report => ¬ backup.Keyed report) pipelines
  | _, _, _ => False

theorem reported_filter_keyed (backup : PipelineBackup bucketNum) (idx : Nat) (reports : List SpecialcaseReport) :
    backup.reported idx (reports.filter fun report => backup.Keyed report) = backup.reported idx reports := by
  unfold PipelineBackup.reported
  rw [List.filter_filter]
  congr 1
  refine List.filter_congr fun report _ => ?_
  unfold PipelineBackup.Matches
  by_cases keyed : backup.Keyed report
  · simp [keyed]
  · simp [keyed]

theorem exists_collected (backups : List (PipelineBackup bucketNum)) (reports : List SpecialcaseReport)
    (inside : ∀ report ∈ reports, report.idx < bucketNum) :
    ∃ pipelines, reports.foldlM processSpecialcase (backups.map fresh) = some pipelines ∧
      Collected backups reports pipelines := by
  induction backups generalizing reports with
  | nil =>
    have kept : reports.foldlM processSpecialcase ([] : List (SnapshotPipeline bucketNum)) = some [] := by
      induction reports with
      | nil => rfl
      | cons report later ih =>
        have here : processSpecialcase ([] : List (SnapshotPipeline bucketNum)) report = some [] :=
          if_pos (inside report List.mem_cons_self)
        rw [List.foldlM_cons, here]
        exact ih fun report member => inside report (List.mem_cons_of_mem _ member)
    exact ⟨[], kept, trivial⟩
  | cons backup backups ih =>
    obtain ⟨pipeline, stored, holds⟩ := holds_storeAll backup (reports.filter fun report => backup.Keyed report)
    obtain ⟨pipelines, processed, collected⟩ := ih (reports.filter fun report => ¬ backup.Keyed report)
      fun report member => inside report (List.mem_of_mem_filter member)
    refine ⟨pipeline :: pipelines, ?_, ⟨holds.same, holds.keyed, ?_⟩, collected⟩
    · rw [List.map_cons, foldlM_processSpecialcase_cons backup reports inside (fresh backup) rfl, stored, processed]
      rfl
    · intro idx
      rw [holds.lookup, reported_filter_keyed]

/-- The rollback of a map whose cases have the backed-up keys runs through, and touches their indexes
only. -/
theorem WellKeyed.rollback (keyed : pipeline.WellKeyed) (records : Nat → SnapshotRecord) :
    ∃ after, pipeline.rollback records = some after ∧
      ∀ idx : Nat, after idx = pipeline.specialcases[idx]?.elim (records idx) SpecialCase.record := by
  have listed : ∀ entry, entry ∈ pipeline.specialcases.toList ↔
      pipeline.specialcases[entry.1]? = some entry.2 := by
    intro entry
    exact Std.ExtTreeMap.mem_toList_iff_getElem?_eq_some
  have plain := Loops.foldlM_checked (fun entry : Nat × SpecialCase => pipeline.backup.keyarray entry.1 = entry.2.key)
    (fun records entry => Function.update records entry.1 entry.2.record) pipeline.specialcases.toList records
    (fun entry member => keyed entry.1 entry.2 ((listed entry).mp member))
  refine ⟨_, plain, ?_⟩
  intro idx
  have loop := Loops.foldl_keyed (· = ·) (fun _ => rfl) Eq.trans
    (fun (records : Nat → SnapshotRecord) idx => records idx)
    (fun records (entry : Nat × SpecialCase) => Function.update records entry.1 entry.2.record)
    (fun _ special => special.record) (fun _ _ => True) (fun _ => trivial)
    (fun {records entry _} idx _ => Function.update_apply records entry.1 entry.2.record idx)
    idx pipeline.specialcases.toList records trivial (OrderedMap.toList_distinct pipeline.specialcases)
  cases found : pipeline.specialcases[idx]? with
  | none =>
    refine loop.2 ?_
    intro entry member same
    have held := (listed entry).mp member
    rw [same, found] at held
    cases held
  | some special =>
    obtain ⟨_, _, final⟩ := loop.1 special ((listed (idx, special)).mpr found)
    exact final

theorem Holds.merged_iff (holds : Holds backup reports pipeline) :
    Merged reports backup pipeline ↔ OneSmallest reports backup := by
  constructor
  · intro merged idx special member other otherMember least tied
    have smallest := merged.smallest idx
    cases kept : pipeline.specialcases[idx]? with
    | none =>
      rw [kept] at smallest
      rw [show backup.reported idx reports = [] from smallest] at member
      cases member
    | some best =>
      rw [kept] at smallest
      obtain ⟨inside, unique⟩ := smallest
      have bound := least best inside
      have first : special = best := (unique special member).resolve_right (by omega)
      have second : other = best := (unique other otherMember).resolve_right (by omega)
      rw [first, second]
  · intro one
    refine ⟨holds.same, ?_, holds.keyed.rollback⟩
    intro idx
    obtain ⟨nothing, something⟩ := Loops.foldl_keepSmaller (A := SpecialCase) (·.record.seq)
      (backup.reported idx reports) none
    rw [← holds.lookup] at nothing something
    cases kept : pipeline.specialcases[idx]? with
    | none => exact (nothing.mp kept).2
    | some best =>
      obtain ⟨inside, least⟩ := something best kept
      refine ⟨inside, ?_⟩
      intro other member
      rcases Nat.lt_or_ge best.record.seq other.record.seq with above | tied
      · exact Or.inr above
      · have bound := least other member
        exact Or.inl (one idx best inside other member least (by omega))

theorem mem_reported {idx : Nat} {special : SpecialCase} :
    special ∈ backup.reported idx reports ↔
      ∃ report ∈ reports, backup.Matches report ∧ report.idx = idx ∧ report.special = special := by
  unfold PipelineBackup.reported
  simp only [List.mem_map, List.mem_filter, decide_eq_true_eq]
  constructor
  · rintro ⟨report, ⟨member, here, same⟩, rfl⟩
    exact ⟨report, member, here, same, rfl⟩
  · rintro ⟨report, member, here, same, rfl⟩
    exact ⟨report, ⟨member, here, same⟩, rfl⟩

/-- The reports left over by an earlier pipeline are all reports for a slot, unless it took one of them. -/
theorem reported_filter_not_keyed (apart : ∀ report ∈ reports, backup.Matches report → ¬ first.Keyed report)
    (idx : Nat) :
    backup.reported idx (reports.filter fun report => ¬ first.Keyed report) = backup.reported idx reports := by
  unfold PipelineBackup.reported
  rw [List.filter_filter]
  congr 1
  refine List.filter_congr fun report member => ?_
  by_cases here : backup.Matches report
  · simp [here, apart report member here]
  · simp [here]

/-- A slot whose key an earlier pipeline has at the same index gets none of its reports. -/
theorem reported_filter_taken (here : backup.Matches report) (taken : first.Keyed report)
    (reports : List SpecialcaseReport) :
    backup.reported report.idx (reports.filter fun report => ¬ first.Keyed report) = [] := by
  rw [List.eq_nil_iff_forall_not_mem]
  intro special member
  obtain ⟨other, left, matched, sameIdx, _⟩ := mem_reported.mp member
  have free : ¬ first.Keyed other := by simpa using (List.mem_filter.mp left).2
  have sameKey : other.special.key = report.special.key := by
    have key := matched.2
    unfold PipelineBackup.Keyed at key
    rw [← key, sameIdx, here.2]
  unfold PipelineBackup.Keyed at free taken
  rw [sameIdx, sameKey] at free
  exact free taken

theorem Collected.specialcases_none {backups : List (PipelineBackup bucketNum)}
    {reports : List SpecialcaseReport} {pipelines : List (SnapshotPipeline bucketNum)}
    (collected : Collected backups reports pipelines) {idx : Nat} :
    List.Forall₂ (fun backup pipeline => backup.reported idx reports = [] →
      pipeline.specialcases[idx]? = none) backups pipelines := by
  induction backups generalizing reports pipelines with
  | nil =>
    cases pipelines with
    | nil => exact .nil
    | cons _ _ => exact collected.elim
  | cons backup backups ih =>
    cases pipelines with
    | nil => exact collected.elim
    | cons pipeline pipelines =>
      obtain ⟨holds, rest⟩ := collected
      refine .cons ?_ ((ih rest).imp ?_)
      · intro empty
        rw [holds.lookup, empty]
        rfl
      · intro later pipeline lookup empty
        apply lookup
        rw [List.eq_nil_iff_forall_not_mem] at empty ⊢
        intro special member
        obtain ⟨report, left, here⟩ := mem_reported.mp member
        exact empty special (mem_reported.mpr ⟨report, List.mem_of_mem_filter left, here⟩)

theorem merged_congr {some : List SpecialcaseReport}
    (same : ∀ idx, backup.reported idx some = backup.reported idx others) (pipeline : SnapshotPipeline bucketNum) :
    Merged some backup pipeline ↔ Merged others backup pipeline := by
  constructor
  · intro ⟨kept, smallest, rollback⟩
    exact ⟨kept, fun idx => same idx ▸ smallest idx, rollback⟩
  · intro ⟨kept, smallest, rollback⟩
    exact ⟨kept, fun idx => (same idx).symm ▸ smallest idx, rollback⟩

theorem oneSmallest_congr {some : List SpecialcaseReport}
    (same : ∀ idx, backup.reported idx some = backup.reported idx others) :
    OneSmallest some backup ↔ OneSmallest others backup := by
  unfold OneSmallest
  simp only [same]

/-- A later pipeline that has merged all the reports of its slots lost none of them to the first one. -/
theorem Collected.apart (collected : Collected backups (reports.filter fun report => ¬ first.Keyed report) pipelines)
    (merged : List.Forall₂ (Merged reports) backups pipelines) :
    ∀ later ∈ backups, ∀ report ∈ reports, later.Matches report → ¬ first.Keyed report := by
  intro later inside report member here taken
  obtain ⟨position, found⟩ := List.mem_iff_get.mp inside
  have bound : position.val < pipelines.length := merged.length_eq ▸ position.isLt
  have empty := (List.forall₂_iff_get.mp (@Collected.specialcases_none _ _ _ _ collected report.idx)).2
    position.val position.isLt bound
  have smallest := ((List.forall₂_iff_get.mp merged).2 position.val position.isLt bound).smallest report.idx
  rw [show backups.get ⟨position.val, position.isLt⟩ = later from found] at empty smallest
  rw [empty (reported_filter_taken here taken reports)] at smallest
  have listed : report.special ∈ later.reported report.idx reports :=
    mem_reported.mpr ⟨report, member, here, rfl, rfl⟩
  rw [show later.reported report.idx reports = [] from smallest] at listed
  cases listed

theorem Collected.forall₂_merged_iff (collected : Collected backups reports pipelines) :
    List.Forall₂ (Merged reports) backups pipelines ↔
      FirstKeyed backups reports ∧ ∀ backup ∈ backups, OneSmallest reports backup := by
  induction backups generalizing reports pipelines with
  | nil =>
    cases pipelines with
    | nil => simp [FirstKeyed]
    | cons _ _ => exact collected.elim
  | cons first backups ih =>
    cases pipelines with
    | nil => exact collected.elim
    | cons pipeline pipelines =>
      obtain ⟨holds, rest⟩ := collected
      -- both sides say that the first pipeline takes nothing from the others; then the reports left to
      -- them are as good as all reports
      have split : ∀ apart : (∀ later ∈ backups, ∀ report ∈ reports, later.Matches report → ¬ first.Keyed report),
          (List.Forall₂ (Merged reports) backups pipelines ↔
            FirstKeyed backups reports ∧ ∀ backup ∈ backups, OneSmallest reports backup) := by
        intro apart
        have same : ∀ later ∈ backups, ∀ idx,
            later.reported idx (reports.filter fun report => ¬ first.Keyed report) = later.reported idx reports :=
          fun later inside => reported_filter_not_keyed (apart later inside)
        have merged : List.Forall₂ (Merged reports) backups pipelines ↔
            List.Forall₂ (Merged (reports.filter fun report => ¬ first.Keyed report)) backups pipelines := by
          rw [List.forall₂_iff_get, List.forall₂_iff_get]
          refine and_congr_right fun _ => forall_congr' fun position => forall_congr' fun bound =>
            forall_congr' fun _ => ?_
          exact (merged_congr (same _ (List.get_mem backups ⟨position, bound⟩)) _).symm
        have keyed : FirstKeyed backups (reports.filter fun report => ¬ first.Keyed report) ↔
            FirstKeyed backups reports := by
          unfold FirstKeyed
          refine List.Pairwise.iff_of_mem ?_
          intro earlier later _ laterInside
          constructor
          · intro free report member here
            exact free report
              (List.mem_filter.mpr ⟨member, by simpa using apart later laterInside report member here⟩) here
          · intro free report member here
            exact free report (List.mem_of_mem_filter member) here
        rw [merged, ih rest, keyed]
        refine and_congr_right fun _ => forall_congr' fun backup => forall_congr' fun inside => ?_
        exact oneSmallest_congr (same backup inside)
      rw [List.forall₂_cons, holds.merged_iff, List.forall_mem_cons]
      unfold FirstKeyed
      rw [List.pairwise_cons]
      constructor
      · intro ⟨one, merged⟩
        have apart := rest.apart merged
        obtain ⟨keyed, ones⟩ := (split apart).mp merged
        exact ⟨⟨apart, keyed⟩, one, ones⟩
      · intro ⟨⟨apart, keyed⟩, one, ones⟩
        exact ⟨one, (split apart).mpr ⟨keyed, ones⟩⟩

/-- A report for an index outside of the arrays fails the first `INVARIANT`. -/
theorem inside_of_processed {after : List (SnapshotPipeline bucketNum)}
    (processed : reports.foldlM processSpecialcase pipelines = some after) :
    ∀ report ∈ reports, report.idx < bucketNum := by
  induction reports generalizing pipelines with
  | nil => simp
  | cons report later ih =>
    rw [List.foldlM_cons, Option.bind_eq_bind, Option.bind_eq_some_iff] at processed
    obtain ⟨next, first, rest⟩ := processed
    refine List.forall_mem_cons.mpr ⟨?_, ih rest⟩
    by_contra outside
    unfold processSpecialcase at first
    rw [if_neg outside] at first
    cases first

/-- In any order and with any duplication, the maps hold the smallest of the reported cases of each
backed-up slot, and the rollback writes just these, exactly if every report is for an index of the
arrays, no earlier pipeline has the key of a reported slot at the same index, and the smallest reports
of a slot are one case. -/
theorem mergesAll_iff (backups : List (PipelineBackup bucketNum)) (reports : List SpecialcaseReport) :
    MergesAll backups reports ↔
      (∀ report ∈ reports, report.idx < bucketNum) ∧ FirstKeyed backups reports ∧
        ∀ backup ∈ backups, OneSmallest reports backup := by
  constructor
  · intro ⟨pipelines, processed, merged⟩
    have inside := inside_of_processed processed
    obtain ⟨_, same, collected⟩ := exists_collected backups reports inside
    cases Option.some.inj (same.symm.trans processed)
    exact ⟨inside, collected.forall₂_merged_iff.mp merged⟩
  · intro ⟨inside, free⟩
    obtain ⟨pipelines, processed, collected⟩ := exists_collected backups reports inside
    exact ⟨pipelines, processed, collected.forall₂_merged_iff.mpr free⟩

/-- The unused slots of the first pipeline hold the default key, so its search ends there when that very
key is cached by the second pipeline, and the report is dropped. -/
theorem not_mergesAll_default_key :
    ¬ MergesAll
      ([⟨⟨fun _ => ⟨0, 0, 0, 0⟩, 0⟩, by decide⟩, ⟨⟨fun _ => ⟨0, 0, 0, 0⟩, 1⟩, by decide⟩] : List (PipelineBackup 2))
      [⟨0, ⟨⟨0, 0, 0, 0⟩, ⟨[], 5, true⟩⟩⟩] := by
  intro ⟨pipelines, processed, merged⟩
  cases Option.some.inj processed
  cases merged with
  | cons _ rest =>
    cases rest with
    | cons second _ =>
      have smallest := second.smallest 0
      simp [fresh, Smallest, PipelineBackup.reported, PipelineBackup.Matches, PipelineBackup.Keyed] at smallest

end SnapshotPipeline

end FarReach
