import FarReach.MatchTable

namespace FarReach

/-- The operation type of a packet as it enters the switch. Only the five that
`ptf_snapshotserver` names can have an entry in `snapshot_flag_tbl`. -/
inductive IngressOptype where
  | putreq | delreq | getresLatestSeq | getresDeletedSeq | putreqLargevalue
  | other (optype : Nat)
  deriving DecidableEq, Repr

/-- One pass of a packet through ingress, behind `need_recirculate_tbl`. On Tofino a pass with
`need_recirculate` set only sends the packet to the single ingress pipeline, where it passes again;
on bmv2 the field is never set. -/
structure IngressPass where
  optype : IngressOptype
  needRecirculate : Bool
  deriving DecidableEq, Repr

/-- The entries of `snapshot_flag_tbl`, all of them for `set_snapshot_flag` with a snapshot id. -/
abbrev FlagEntries := List ((IngressOptype × Bool) × Nat)

def snapshotFlagTbl (entries : FlagEntries) (pass : IngressPass) : Bool × Nat :=
  match entries.lookup (pass.optype, pass.needRecirculate) with
  | some snapshotid => (true, snapshotid)
  | none => (false, 0)

/-- What `ptf_snapshotserver` asks the switch to do in one call. -/
inductive TableUpdate where
  | tableAdd (optype : IngressOptype) (snapshotid : Nat)
  | tableDeleteMatch (optype : IngressOptype)
  | registerReset
  deriving DecidableEq, Repr

/-- The switch refuses a second entry for the same key and the removal of an entry that is not there;
`case1_reg` is not part of the table. -/
def TableUpdate.apply (entries : FlagEntries) : TableUpdate → FlagEntries
  | .tableAdd optype snapshotid =>
    if (entries.lookup (optype, false)).isSome then entries else entries ++ [((optype, false), snapshotid)]
  | .tableDeleteMatch optype => entries.filter fun entry => entry.1 ≠ (optype, false)
  | .registerReset => entries

def snapshotOptypes : List IngressOptype :=
  [.putreq, .delreq, .getresLatestSeq, .getresDeletedSeq, .putreqLargevalue]

def setSnapshotFlag (snapshotid : Nat) : List TableUpdate :=
  snapshotOptypes.map fun optype => .tableAdd optype snapshotid

def resetSnapshotFlagAndReg (entries : FlagEntries) : List TableUpdate :=
  (if 0 < entries.length then snapshotOptypes.map .tableDeleteMatch else []) ++ [.registerReset]

/-- The control plane and the data plane take turns in any order. -/
inductive FlagStep where
  | update
  | pass (pass : IngressPass)
  deriving DecidableEq, Repr

/-- The passes of an interleaving in the order of processing, each with the flag it carries on. -/
def observe : List TableUpdate → FlagEntries → List FlagStep → List (IngressPass × Bool)
  | _, _, [] => []
  | [], entries, .update :: rest => observe [] entries rest
  | update :: later, entries, .update :: rest => observe later (update.apply entries) rest
  | updates, entries, .pass pass :: rest =>
    (pass, (snapshotFlagTbl entries pass).1) :: observe updates entries rest

/-- A pass on which a write or a response of the server is processed. -/
def IngressPass.IsCut (pass : IngressPass) : Bool := snapshotOptypes.contains pass.optype && !pass.needRecirculate

def cutFlags (observed : List (IngressPass × Bool)) : List Bool :=
  (observed.filter fun entry => entry.1.IsCut).map Prod.snd

def FlagSuffix (observed : List (IngressPass × Bool)) : Prop :=
  (cutFlags observed).Pairwise fun earlier later => earlier = true → later = true

def FlagPrefix (observed : List (IngressPass × Bool)) : Prop :=
  (cutFlags observed).Pairwise fun earlier later => later = true → earlier = true

/-- For each pass that counts, whether the entry of its type has been updated by then; `pending` are the
types whose update is still to come. -/
def updatedBefore : List IngressOptype → List FlagStep → List Bool
  | _, [] => []
  | pending, .update :: rest => updatedBefore pending.tail rest
  | pending, .pass pass :: rest =>
    if pass.IsCut then decide (pass.optype ∉ pending) :: updatedBefore pending rest else updatedBefore pending rest

/-- Behind a packet that came after the update for its type there is none that came before the update
for its own type. -/
def Undisturbed (schedule : List FlagStep) : Prop :=
  (updatedBefore snapshotOptypes schedule).Pairwise fun earlier later => earlier = true → later = true

instance (observed : List (IngressPass × Bool)) : Decidable (FlagSuffix observed) :=
  inferInstanceAs (Decidable (List.Pairwise _ _))

def flagOf (entries : FlagEntries) (optype : IngressOptype) : Bool := (snapshotFlagTbl entries ⟨optype, false⟩).1

theorem flagOf_eq (entries : FlagEntries) (optype : IngressOptype) :
    flagOf entries optype = (entries.lookup (optype, false)).isSome := by
  unfold flagOf snapshotFlagTbl
  cases entries.lookup (optype, false) <;> rfl

theorem flagOf_tableAdd (snapshotid : Nat) (entries : FlagEntries) (optype other : IngressOptype) :
    flagOf ((TableUpdate.tableAdd optype snapshotid).apply entries) other =
      if other = optype then true else flagOf entries other := by
  simp only [flagOf_eq, TableUpdate.apply]
  by_cases same : other = optype
  · subst same
    cases found : entries.lookup (other, false) with
    | none => simp [found]
    | some _ => simp [found]
  · rw [if_neg same]
    cases found : entries.lookup (optype, false) with
    | none => simp [same]
    | some _ => simp

theorem flagOf_tableDeleteMatch (entries : FlagEntries) (optype other : IngressOptype) :
    flagOf ((TableUpdate.tableDeleteMatch optype).apply entries) other =
      if other = optype then false else flagOf entries other := by
  simp only [flagOf_eq, TableUpdate.apply, MatchTable.lookup_filter_ne, Prod.mk.injEq, and_true]
  split <;> rfl

/-- Updates that give the types one flag value each, one after the other: the packets show which updates
they came behind. -/
theorem cutFlags_observe (final : Bool) (update : IngressOptype → TableUpdate) (tail : List TableUpdate)
    (updates : ∀ entries optype other,
      flagOf ((update optype).apply entries) other = if other = optype then final else flagOf entries other)
    (idle : ∀ last ∈ tail, ∀ entries optype, flagOf (last.apply entries) optype = flagOf entries optype)
    (schedule : List FlagStep) (pending : List IngressOptype) (distinct : pending.Nodup) (entries : FlagEntries)
    (start : ∀ optype ∈ snapshotOptypes, flagOf entries optype = if optype ∈ pending then !final else final) :
    cutFlags (observe (pending.map update ++ tail) entries schedule) =
      (updatedBefore pending schedule).map fun updated => updated == final := by
  -- the table agrees with `pending` at every step of the interleaving
  induction schedule generalizing pending tail entries with
  | nil => cases pending <;> cases tail <;> rfl
  | cons step rest ih =>
    cases step with
    | update =>
      cases pending with
      | nil =>
        cases tail with
        | nil => exact ih [] idle [] distinct entries start
        | cons last more =>
          refine ih more (fun other member => idle other (List.mem_cons_of_mem _ member)) [] distinct
            (last.apply entries) ?_
          intro optype member
          rw [idle last List.mem_cons_self, start optype member]
      | cons optype later =>
        obtain ⟨fresh, distinctLater⟩ := List.nodup_cons.mp distinct
        refine ih tail idle later distinctLater ((update optype).apply entries) ?_
        intro other member
        rw [updates, start other member]
        by_cases same : other = optype
        · subst same
          simp [fresh]
        · simp [same]
    | pass pass =>
      have unfolded : observe (pending.map update ++ tail) entries (.pass pass :: rest) =
          (pass, (snapshotFlagTbl entries pass).1) :: observe (pending.map update ++ tail) entries rest := by
        cases pending <;> cases tail <;> rfl
      have later := ih tail idle pending distinct entries start
      unfold cutFlags at later ⊢
      rw [unfolded, List.filter_cons, updatedBefore]
      by_cases counts : pass.IsCut = true
      · rw [if_pos counts, if_pos counts, List.map_cons, List.map_cons, later]
        have both : pass.optype ∈ snapshotOptypes ∧ pass.needRecirculate = false := by
          simpa [IngressPass.IsCut] using counts
        have flag : (snapshotFlagTbl entries pass).1 = flagOf entries pass.optype := by
          rw [flagOf, ← both.2]
        rw [flag, start pass.optype both.1]
        by_cases waits : pass.optype ∈ pending <;> cases final <;> simp [waits]
      · rw [if_neg counts, if_neg counts, later]

theorem nodup_snapshotOptypes : snapshotOptypes.Nodup := by decide

theorem cutFlags_setSnapshotFlag (snapshotid : Nat) (schedule : List FlagStep) :
    cutFlags (observe (setSnapshotFlag snapshotid) [] schedule) = updatedBefore snapshotOptypes schedule := by
  have flags := cutFlags_observe true (fun optype => .tableAdd optype snapshotid) [] (flagOf_tableAdd snapshotid)
    (by simp) schedule snapshotOptypes nodup_snapshotOptypes [] (fun optype member => by simp [member, flagOf_eq])
  simpa [setSnapshotFlag] using flags

def flaggedEntries (snapshotid : Nat) : FlagEntries := snapshotOptypes.map fun optype => ((optype, false), snapshotid)

theorem cutFlags_resetSnapshotFlagAndReg (snapshotid : Nat) (schedule : List FlagStep) :
    cutFlags (observe (resetSnapshotFlagAndReg (flaggedEntries snapshotid)) (flaggedEntries snapshotid) schedule) =
      (updatedBefore snapshotOptypes schedule).map not := by
  have flags := cutFlags_observe false .tableDeleteMatch [.registerReset] flagOf_tableDeleteMatch
    (by simp [TableUpdate.apply]) schedule snapshotOptypes nodup_snapshotOptypes (flaggedEntries snapshotid)
    (fun optype member => by
      simp only [snapshotOptypes, List.mem_cons, List.not_mem_nil, or_false] at member
      rcases member with rfl | rfl | rfl | rfl | rfl <;> rfl)
  simpa [resetSnapshotFlagAndReg, flaggedEntries, snapshotOptypes] using flags

/-- The flag is a cut of the order of processing, at the set as at the reset, exactly for the
interleavings in which the five updates are not disturbed. -/
theorem snapshot_flag_cut_iff (snapshotid : Nat) (schedule : List FlagStep) :
    (FlagSuffix (observe (setSnapshotFlag snapshotid) [] schedule) ↔ Undisturbed schedule) ∧
      (FlagPrefix (observe (resetSnapshotFlagAndReg (flaggedEntries snapshotid))
        (flaggedEntries snapshotid) schedule) ↔
        Undisturbed schedule) := by
  unfold FlagSuffix FlagPrefix Undisturbed
  constructor
  · rw [cutFlags_setSnapshotFlag]
  · rw [cutFlags_resetSnapshotFlagAndReg, List.pairwise_map]
    have contrapositive : ∀ earlier later : Bool, ((!later) = true → (!earlier) = true) ↔
        (earlier = true → later = true) := by
      decide
    simp only [contrapositive]

/-- A DEL between the first and the second `table_add` misses the flag that the PUT before it carries. -/
theorem snapshot_flag_torn :
    ¬ ∀ schedule, FlagSuffix (observe (setSnapshotFlag 1) [] schedule) ∧
      FlagPrefix (observe (resetSnapshotFlagAndReg (flaggedEntries 1)) (flaggedEntries 1) schedule) := by
  intro always
  exact absurd (always [.update, .pass ⟨.putreq, false⟩, .pass ⟨.delreq, false⟩]).1 (by decide)

end FarReach
