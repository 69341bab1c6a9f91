import FarReach.PeriodCut

namespace FarReach

open PeriodRun (IsCut Ready)

/-- What reaches a server between the control messages. -/
inductive Delivery where
  | work (request : WorkerRequest)
  | evict (evict : CacheEvict)

namespace ServerThreads

def deliver (server : ServerThreads) : Delivery → Option ServerThreads
  | .work request => server.worker request
  | .evict evict => (server.evictserver evict.serveridx evict).map Prod.fst

/-- In period `n` no token is newer than `n`, and only cached keys are evicted. -/
def Allows (n : Int) (server : ServerThreads) : Delivery → Prop
  | .work request => ∀ token ∈ request.token, (token : Int) ≤ n
  | .evict evict => evict.key ∈ server.cachedKeyset

def Delivers (n : Int) (server after : ServerThreads) : Prop :=
  ∃ delivery, server.Allows n delivery ∧ server.deliver delivery = some after

/-- Any number of deliveries. -/
abbrev Serves (n : Int) : ServerThreads → ServerThreads → Prop := Relation.ReflTransGen (Delivers n)

def Alive (n : Int) (server : ServerThreads) : Prop :=
  ∀ delivery, server.Allows n delivery → server.deliver delivery ≠ none

/-- The states after `CLEANUP(n)`, some of `START(n)` and the steps of `SENDDATA(n)`, and deliveries between
them, when the server was between two periods before. -/
inductive Interrupted (n : Int) (ready : ServerThreads) : Phase → ServerThreads → Prop where
  | cleanup {server : ServerThreads} (ran : ready.snapshotserver (.cleanup, n) = some (server, some (.cleanup, n))) :
      Interrupted n ready .cleaned server
  | deliver {phase : Phase} {server after : ServerThreads} (before : Interrupted n ready phase server)
      (ran : server.Delivers n after) : Interrupted n ready phase after
  | start {server after : ServerThreads} (before : Interrupted n ready .cleaned server)
      (ran : server.snapshotserver (.start, n) = some (after, some (.start, n))) : Interrupted n ready .started after
  | senddata {server after : ServerThreads} (before : Interrupted n ready .started server)
      (ran : server.senddataBegin (.senddata, n) = some (after, some (.senddata, n))) :
      Interrupted n ready .receiving after
  | update {server after : ServerThreads} {inswitch : Std.ExtTreeMap Key SnapshotRecord}
      (before : Interrupted n ready .receiving server) (ran : server.senddataUpdate inswitch n = some after) :
      Interrupted n ready .updated after
  | finish {server : ServerThreads} (before : Interrupted n ready .updated server) :
      Interrupted n ready .idle server.senddataFinish

/-- The active snapshot is that of the store at some moment between two states. -/
def BuiltBetween (n : Int) (first last final : ServerThreads) : Prop :=
  ∃ moment database, Serves n first moment ∧ Serves n moment last ∧ final.view.active = some database ∧
    IsCut database final.view.activeDeletedSet moment.kv

/-- `SENDDATA(n)` is acknowledged and activates a snapshot of id `n` that was taken between two states. -/
def Activates (n : Int) (first last server : ServerThreads) : Prop :=
  ∃ receiving, server.senddataBegin (.senddata, n) = some (receiving, some (.senddata, n)) ∧
    ∀ parsed, Serves n receiving parsed → Alive n parsed ∧
      ∀ inswitch, ∃ updated, parsed.senddataUpdate inswitch n = some updated ∧
        ∀ left, Serves n updated left → Alive n left ∧ left.senddataFinish.view.snapshotid = n ∧
          BuiltBetween n first last left.senddataFinish

/-- `CLEANUP(n)`, `START(n)` and `SENDDATA(n)` go through once more, whatever is delivered between them. -/
def Redoable (n : Int) (server : ServerThreads) : Prop :=
  ∃ cleaned, server.snapshotserver (.cleanup, n) = some (cleaned, some (.cleanup, n)) ∧
    ∀ served, Serves n cleaned served → Alive n served ∧
      ∃ started, served.snapshotserver (.start, n) = some (started, some (.start, n)) ∧
        ∀ received, Serves n started received → Alive n received ∧ Activates n cleaned served received

variable {n : Int} {server after : ServerThreads}

theorem alive (n : Int) (server : ServerThreads) : server.Alive n := by
  intro delivery allowed
  cases delivery with
  | work request =>
    obtain ⟨after, ran, _⟩ := server.view_worker request
    simp [deliver, ran]
  | evict evict =>
    obtain ⟨after, ran, _⟩ := server.view_evictserver allowed
    simp [deliver, ran]

/-- What a delivery can do to the snapshots of the server. -/
structure Keeps (n : Int) (before after : ServerThreads) : Prop where
  snapshotSignal : after.snapshotSignal = before.snapshotSignal
  dataSignal : after.dataSignal = before.dataSignal
  view : after.view = before.view ∨ before.view.issnapshot = false ∧ before.view.CanMake ∧
    ∃ token, (token = before.view.snapshottoken ∨ token ≤ n) ∧
      after.view = { before.view.make before.kv with snapshottoken := token }

theorem Delivers.keeps (delivers : server.Delivers n after) : server.Keeps n after := by
  obtain ⟨delivery, allowed, ran⟩ := delivers
  cases delivery with
  | work request =>
    obtain ⟨worked, works, signal, data, viewed, _, _⟩ := server.view_worker request
    cases works.symm.trans ran
    refine ⟨signal, data, ?_⟩
    rw [viewed]
    have allowed : ∀ token ∈ request.token, (token : Int) ≤ n := allowed
    unfold SnapshotView.case3
    generalize request.token = carried at allowed ⊢
    cases carried with
    | none => exact Or.inl rfl
    | some token =>
      cases free : server.view.issnapshot with
      | true => exact Or.inl rfl
      | false =>
        unfold SnapshotView.take
        by_cases takes : server.view.TakesToken token
        · simp only [if_pos takes]
          exact Or.inr ⟨trivial, takes.2, token, Or.inr (allowed token rfl), rfl⟩
        · simp only [if_neg takes]
          exact Or.inl rfl
  | evict evict =>
    obtain ⟨evicted, evicts, signal, data, viewed, _⟩ := server.view_evictserver allowed
    have same : evicted = after := by simpa [deliver, evicts] using ran
    subst same
    refine ⟨signal, data, ?_⟩
    rw [viewed]
    unfold SnapshotView.case2
    split
    · rename_i takes
      exact Or.inr ⟨takes.2.1, takes.2.2, server.view.snapshottoken, Or.inl rfl, rfl⟩
    · exact Or.inl rfl

variable {before ready cleaned : ServerThreads}

theorem Keeps.snapshotid {after : ServerThreads} (keeps : before.Keeps n after) :
    after.view.snapshotid = before.view.snapshotid := by
  rcases keeps.view with same | ⟨_, _, token, _, viewed⟩
  · rw [same]
  · rw [viewed]
    rfl

/-- While no snapshot can be made, deliveries change nothing about snapshots. -/
theorem Serves.same (serves : Serves n before after)
    (blocked : ¬ (before.view.issnapshot = false ∧ before.view.CanMake)) :
    after.view = before.view ∧ after.snapshotSignal = before.snapshotSignal ∧
      after.dataSignal = before.dataSignal := by
  induction serves with
  | refl => exact ⟨rfl, rfl, rfl⟩
  | tail _ delivers ih =>
    obtain ⟨view, signal, data⟩ := ih
    have keeps := delivers.keeps
    refine ⟨?_, keeps.snapshotSignal.trans signal, keeps.dataSignal.trans data⟩
    rcases keeps.view with same | ⟨free, can, _⟩
    · exact same.trans view
    · rw [view] at free can
      exact absurd ⟨free, can⟩ blocked

/-- An acknowledged start finds no data being processed. -/
theorem start_acknowledged (ran : server.snapshotserver (.start, n) = some (after, some (.start, n))) :
    server.view.issnapshot = false ∧ server.snapshotSignal ≠ some (.start, n) := by
  unfold snapshotserver at ran
  split at ran
  · cases ran
  · rename_i fresh
    refine ⟨?_, fun seen => fresh ⟨by simp, seen⟩⟩
    by_contra processing
    have set : server.issnapshot = true := by simpa [view] using processing
    simp [set] at ran

theorem senddata_acknowledged (ran : server.senddataBegin (.senddata, n) = some (after, some (.senddata, n))) :
    server.dataSignal ≠ some (.senddata, n) ∧
      after = { server with dataSignal := some (.senddata, n), issnapshot := true } := by
  unfold senddataBegin at ran
  split at ran
  · cases ran
  · rename_i fresh
    rw [if_pos rfl] at ran
    cases ran
    exact ⟨fresh, rfl⟩

theorem call_dataSignal {A : Type} {program : ServerM A} {value : A}
    (ran : server.call program = some (value, after)) :
    after.dataSignal = server.dataSignal := by
  obtain ⟨_, _, same⟩ := Option.map_eq_some_iff.mp ran
  cases same
  rfl

theorem senddataUpdate_dataSignal {inswitch : Std.ExtTreeMap Key SnapshotRecord}
    (ran : server.senddataUpdate inswitch n = some after) : after.dataSignal = server.dataSignal := by
  unfold senddataUpdate at ran
  simp only [Option.bind_eq_bind, Option.bind_eq_some_iff] at ran
  obtain ⟨⟨_, updated⟩, updates, ⟨_, stopped⟩, stops, same⟩ := ran
  cases same
  exact (call_dataSignal stops).trans (call_dataSignal updates)

theorem snapshotserver_dataSignal {signal : Signal} {ack : Option Signal}
    (ran : server.snapshotserver signal = some (after, ack)) : after.dataSignal = server.dataSignal := by
  unfold snapshotserver at ran
  split at ran
  · cases ran
    rfl
  · obtain ⟨kind, id⟩ := signal
    cases kind with
    | cleanup =>
      simp only [Option.bind_eq_bind, Option.bind_eq_some_iff] at ran
      obtain ⟨⟨_, cleaned⟩, cleans, ⟨_, stopped⟩, stops, same⟩ := ran
      cases same
      have kept := call_dataSignal cleans
      exact (call_dataSignal stops).trans kept
    | start =>
      simp only [Option.bind_eq_bind] at ran
      split at ran
      · cases ran
      · obtain ⟨made, makes, same⟩ := Option.bind_eq_some_iff.mp ran
        cases same
        unfold makeUnderToken at makes
        split at makes
        · obtain ⟨⟨did, called⟩, calls, same⟩ := Option.bind_eq_some_iff.mp makes
          cases same
          have kept := call_dataSignal calls
          split <;> exact kept
        · cases makes
          rfl
    | prepare => cases ran
    | setflag => cases ran
    | getdata => cases ran
    | senddata => cases ran

theorem Interrupted.data {phase : Phase} (reached : Interrupted n ready phase server) (isReady : Ready ready)
    (next : ready.view.snapshotid + 1 = n) :
    (phase = .cleaned ∨ phase = .started) ∧ server.dataSignal ≠ some (.senddata, n) ∧ server.view.snapshotid + 1 = n ∨
      (phase = .receiving ∨ phase = .updated ∨ phase = .idle) ∧ server.dataSignal = some (.senddata, n) := by
  induction reached with
  | @cleanup server ran =>
    obtain ⟨cleaned, cleans, _, data, viewed, _, _⟩ := ready.view_cleanup isReady.nonneg
    rw [next] at cleans
    cases cleans.symm.trans ran
    refine Or.inl ⟨Or.inl rfl, ?_, ?_⟩
    · rw [data]
      intro seen
      have bound := isReady.data n seen
      omega
    · rw [viewed]
      exact next
  | deliver _ delivers ih =>
    have keeps := delivers.keeps
    rw [keeps.dataSignal, keeps.snapshotid]
    exact ih
  | @start server after _ ran ih =>
    obtain ⟨free, fresh⟩ := start_acknowledged ran
    rcases ih with ⟨_, data, same⟩ | ⟨later, _⟩
    · have nonneg : 0 ≤ n := by
        have bound := isReady.nonneg
        omega
      obtain ⟨started, starts, _, steps⟩ := server.view_start nonneg fresh free
      cases starts.symm.trans ran
      refine Or.inl ⟨Or.inr rfl, by rw [steps.dataSignal]; exact data, ?_⟩
      rw [steps.viewed]
      unfold SnapshotView.take
      split <;> exact same
    · rcases later with later | later | later <;> cases later
  | senddata _ ran ih =>
    obtain ⟨_, rfl⟩ := senddata_acknowledged ran
    exact Or.inr ⟨Or.inl rfl, rfl⟩
  | update _ ran ih =>
    rcases ih with ⟨later, _⟩ | ⟨_, data⟩
    · rcases later with later | later <;> cases later
    · exact Or.inr ⟨Or.inr (Or.inl rfl), (senddataUpdate_dataSignal ran).trans data⟩
  | finish _ ih =>
    rcases ih with ⟨later, _⟩ | ⟨_, data⟩
    · rcases later with later | later <;> cases later
    · exact Or.inr ⟨Or.inr (Or.inr rfl), data⟩

/-- A redo between its cleanup and its start: the snapshot is still to be taken, or it was taken at some
moment since the cleanup. -/
structure Redoing (n : Int) (cleaned server : ServerThreads) : Prop where
  snapshotid : server.view.snapshotid + 1 = n
  nonneg : 0 ≤ server.view.snapshotid
  free : server.view.issnapshot = false
  snapshotSignal : server.snapshotSignal = some (.cleanup, n)
  dataSignal : server.dataSignal ≠ some (.senddata, n)
  taken : server.view.snapshottoken < n ∧ server.view.isSnapshot = false ∨
    server.view.isSnapshot = true ∧ ∃ moment database, Serves n cleaned moment ∧ Serves n moment server ∧
      server.view.latest = some database ∧ IsCut database server.view.latestDeletedSet moment.kv

theorem Redoing.delivers (redoing : Redoing n cleaned server) (serves : Serves n cleaned server)
    (delivers : server.Delivers n after) : Redoing n cleaned after := by
  have keeps := delivers.keeps
  rcases keeps.view with same | ⟨free, can, token, _, viewed⟩
  · refine ⟨by rw [same]; exact redoing.snapshotid, by rw [same]; exact redoing.nonneg,
      by rw [same]; exact redoing.free, keeps.snapshotSignal.trans redoing.snapshotSignal,
      by rw [keeps.dataSignal]; exact redoing.dataSignal, ?_⟩
    rw [same]
    refine redoing.taken.imp_right ?_
    rintro ⟨set, moment, database, before, behind, held⟩
    exact ⟨set, moment, database, before, behind.tail delivers, held⟩
  · refine ⟨by rw [viewed]; exact redoing.snapshotid, by rw [viewed]; exact redoing.nonneg,
      by rw [viewed]; exact redoing.free, keeps.snapshotSignal.trans redoing.snapshotSignal,
      by rw [keeps.dataSignal]; exact redoing.dataSignal, ?_⟩
    -- the packet that takes the snapshot is applied behind it
    rw [viewed]
    exact Or.inr ⟨rfl, server, server.kv.db, serves, .single delivers, rfl, rfl, rfl⟩

theorem Redoing.serves (redoing : Redoing n cleaned cleaned) (serves : Serves n cleaned server) :
    Redoing n cleaned server := by
  induction serves with
  | refl => exact redoing
  | tail before delivers ih => exact ih.delivers before delivers

/-- Behind the start a snapshot waits that was taken since the cleanup. -/
theorem Redoing.start {cleaned : ServerThreads} (redoing : Redoing n cleaned server)
    (serves : Serves n cleaned server) :
    ∃ started, server.snapshotserver (.start, n) = some (started, some (.start, n)) ∧
      started.view.snapshotid + 1 = n ∧ started.dataSignal ≠ some (.senddata, n) ∧ started.view.isSnapshot = true ∧
      ∃ moment database, Serves n cleaned moment ∧ Serves n moment server ∧ started.view.latest = some database ∧
        IsCut database started.view.latestDeletedSet moment.kv := by
  have nonneg := redoing.nonneg
  have next := redoing.snapshotid
  obtain ⟨started, ran, _, steps⟩ := server.view_start (by omega : 0 ≤ n)
    (by rw [redoing.snapshotSignal]; simp) redoing.free
  refine ⟨started, ran, ?_⟩
  rw [steps.dataSignal, steps.viewed]
  unfold SnapshotView.take
  rcases redoing.taken with ⟨older, unset⟩ | ⟨set, moment, database, before, behind, held, isCut⟩
  · rw [if_pos ⟨older, by omega, unset⟩]
    exact ⟨next, redoing.dataSignal, rfl, server, server.kv.db, serves, .refl, rfl, rfl, rfl⟩
  · rw [if_neg fun takes => absurd takes.2.2 (by simp [set])]
    exact ⟨next, redoing.dataSignal, set, moment, database, before, behind, held, isCut⟩

theorem activates {served : ServerThreads} (next : server.view.snapshotid + 1 = n)
    (fresh : server.dataSignal ≠ some (.senddata, n))
    (waiting : ∃ moment database, Serves n cleaned moment ∧ Serves n moment served ∧
      server.view.latest = some database ∧ IsCut database server.view.latestDeletedSet moment.kv) :
    Activates n cleaned served server := by
  obtain ⟨moment, database, before, behind, held, isCut⟩ := waiting
  refine ⟨{ server with dataSignal := some (.senddata, n), issnapshot := true }, by simp [senddataBegin, fresh], ?_⟩
  intro parsed serves
  obtain ⟨same, _, _⟩ := serves.same (by simp [view])
  refine ⟨alive n parsed, fun inswitch => ?_⟩
  have latest : parsed.view.latest = some database := by
    rw [same]
    exact held
  have parsedNext : parsed.view.snapshotid + 1 = n := by
    rw [same]
    exact next
  obtain ⟨updated, ran, _, _, viewed, _⟩ := parsed.view_senddataUpdate inswitch (by rw [latest]; simp)
  rw [parsedNext] at ran
  refine ⟨updated, ran, fun left finishing => ?_⟩
  have processing : updated.view.issnapshot = true := by
    rw [viewed]
    unfold SnapshotView.update
    rw [same]
    rfl
  obtain ⟨still, _, _⟩ := finishing.same (by simp [processing])
  refine ⟨alive n left, ?_, moment, database, before, behind, ?_, ?_⟩
  · show left.view.snapshotid = n
    rw [still, viewed]
    exact parsedNext
  · show left.view.active = some database
    rw [still, viewed]
    exact latest
  · show IsCut database left.view.activeDeletedSet moment.kv
    rw [still, viewed]
    unfold SnapshotView.update
    rw [same]
    exact isCut

/-- A redo goes through if no snapshot was taken under the token `n` and the data of `n` has not arrived. -/
theorem redoable (next : server.view.snapshotid + 1 = n) (nonneg : 0 ≤ server.view.snapshotid)
    (older : server.view.snapshottoken < n) (fresh : server.dataSignal ≠ some (.senddata, n)) :
    server.Redoable n := by
  obtain ⟨cleaned, ran, signal, data, viewed, _, _⟩ := server.view_cleanup nonneg
  rw [next] at ran signal
  have redoing : Redoing n cleaned cleaned := by
    refine ⟨?_, ?_, ?_, signal, by rw [data]; exact fresh, Or.inl ⟨?_, ?_⟩⟩ <;> rw [viewed]
    · exact next
    · exact nonneg
    · rfl
    · exact older
    · rfl
  refine ⟨cleaned, ran, fun served serves => ⟨alive n served, ?_⟩⟩
  obtain ⟨started, starts, startedNext, startedFresh, set, waiting⟩ := (redoing.serves serves).start serves
  refine ⟨started, starts, fun received later => ⟨alive n received, ?_⟩⟩
  obtain ⟨same, _, sameData⟩ := later.same (fun both => absurd both.2.2 (by simp [set]))
  refine activates (by rw [same]; exact startedNext) (by rw [sameData]; exact startedFresh) ?_
  rw [same]
  exact waiting

/-- Without a waiting snapshot its files are loaded, which are not there. -/
theorem senddataUpdate_missing (inswitch : Std.ExtTreeMap Key SnapshotRecord) (empty : server.view.latest = none)
    (missing : server.disk (.snapshotdbseq (server.view.snapshotid + 1)) = .missing) :
    server.senddataUpdate inswitch (server.view.snapshotid + 1) = none := by
  have gone : server.disk (.snapshotdbseq (server.wrapper.snapshotid + 1)) = .missing := missing
  have none : server.wrapper.latestSpPtr = none := empty
  have aborts : ¬ Crash.Program.Runs (RocksdbWrapper.updateSnapshot inswitch (server.wrapper.snapshotid + 1))
      server.wrapper server.disk fun _ _ _ => True := by
    unfold RocksdbWrapper.updateSnapshot RocksdbWrapper.adoptServerside RocksdbWrapper.loadServersideSnapshotFiles
    simp [none, gone]
  unfold senddataUpdate
  rw [show server.view.snapshotid = server.wrapper.snapshotid from rfl, server.call_of_abort aborts]
  rfl

/-- The start of a redo takes no snapshot under a token that is remembered. -/
theorem not_redoable (next : server.view.snapshotid + 1 = n) (nonneg : 0 ≤ server.view.snapshotid)
    (remembered : ¬ server.view.snapshottoken < n) : ¬ server.Redoable n := by
  rintro ⟨cleaned, ran, later⟩
  obtain ⟨_, started, starts, later⟩ := later cleaned .refl
  obtain ⟨_, receiving, begins, later⟩ := later started .refl
  obtain ⟨_, later⟩ := later receiving .refl
  obtain ⟨updated, updates, _⟩ := later ∅
  obtain ⟨_, cleans, signal, _, viewed, _, missing⟩ := server.view_cleanup nonneg
  rw [next] at cleans signal missing
  cases cleans.symm.trans ran
  obtain ⟨_, steps⟩ : started.snapshotSignal = some (.start, n) ∧ started.Steps cleaned cleaned.view := by
    obtain ⟨_, again, signal', steps⟩ := cleaned.view_start (by omega : 0 ≤ n) (by rw [signal]; simp)
      (by rw [viewed]; rfl)
    cases again.symm.trans starts
    refine ⟨signal', ?_⟩
    have refused : ¬ cleaned.view.TakesToken n := by
      intro takes
      rw [viewed] at takes
      exact remembered takes.1
    unfold SnapshotView.take at steps
    rwa [if_neg refused] at steps
  obtain ⟨_, rfl⟩ := senddata_acknowledged begins
  have startedNext : started.view.snapshotid + 1 = n := by
    rw [steps.viewed, viewed]
    exact next
  have aborts := @senddataUpdate_missing { started with dataSignal := some (.senddata, n), issnapshot := true } ∅
    (by show started.view.latest = none; rw [steps.viewed, viewed]; rfl)
    (by
      show started.disk (.snapshotdbseq (started.view.snapshotid + 1)) = .missing
      rw [startedNext, steps.disk rfl]
      exact missing)
  rw [show ServerThreads.view { started with dataSignal := some (.senddata, n), issnapshot := true } =
    { started.view with issnapshot := true } from rfl] at aborts
  rw [startedNext] at aborts
  cases aborts.symm.trans updates

/-- Redoing a snapshot goes through exactly if the server has not yet remembered the token of the period,
and not yet got its data. -/
theorem redo_iff {ready : ServerThreads} {phase : Phase} (isReady : Ready ready)
    (next : ready.view.snapshotid + 1 = n) (reached : Interrupted n ready phase server) :
    server.Redoable n ↔ server.snapshottoken < n ∧ server.dataSignal ≠ some (.senddata, n) := by
  have positive := isReady.nonneg
  constructor
  · intro redo
    have fresh : server.dataSignal ≠ some (.senddata, n) := by
      obtain ⟨cleaned, ran, later⟩ := redo
      obtain ⟨_, started, starts, later⟩ := later cleaned .refl
      obtain ⟨_, receiving, begins, _⟩ := later started .refl
      rw [← snapshotserver_dataSignal ran, ← snapshotserver_dataSignal starts]
      exact (senddata_acknowledged begins).1
    refine ⟨?_, fresh⟩
    by_contra remembered
    rcases reached.data isReady next with ⟨_, _, same⟩ | ⟨_, seen⟩
    · exact not_redoable same (by omega) remembered redo
    · exact fresh seen
  · rintro ⟨older, fresh⟩
    rcases reached.data isReady next with ⟨_, _, same⟩ | ⟨_, seen⟩
    · exact redoable same (by omega) older fresh
    · exact absurd seen fresh

/-- The first snapshot can be redone while it has got no further than its cleanup. -/
theorem redo_iff_cleaned :
    ∃ server, Interrupted 1 (PeriodRun.loadedServer ⟨1, 0, 0, 0⟩) .cleaned server ∧ server.Redoable 1 := by
  have isReady := PeriodRun.ready_loadedServer ⟨1, 0, 0, 0⟩
  obtain ⟨cleaned, ran, _, data, viewed, _⟩ := (PeriodRun.loadedServer ⟨1, 0, 0, 0⟩).view_cleanup isReady.nonneg
  have reached : Interrupted 1 (PeriodRun.loadedServer ⟨1, 0, 0, 0⟩) .cleaned cleaned := .cleanup ran
  have older : cleaned.view.snapshottoken < 1 := by
    rw [viewed]
    decide
  exact ⟨cleaned, reached, (redo_iff isReady rfl reached).mpr ⟨older, by rw [data]; decide⟩⟩

/-- Once a period has been started, its token is remembered. -/
theorem started_remembers (isReady : Ready ready) :
    ∃ started, Interrupted (ready.view.snapshotid + 1) ready .started started ∧
      started.view.snapshotid = ready.view.snapshotid ∧ started.view.snapshottoken = ready.view.snapshotid + 1 := by
  have nonneg := isReady.nonneg
  have token := isReady.token
  obtain ⟨cleaned, cleans, signal, _, viewed, _⟩ := ready.view_cleanup nonneg
  obtain ⟨started, starts, _, steps⟩ := cleaned.view_start (by omega : 0 ≤ ready.view.snapshotid + 1)
    (by rw [signal]; simp) (by rw [viewed]; rfl)
  have takes : cleaned.view.TakesToken (ready.view.snapshotid + 1) := by
    rw [viewed]
    exact ⟨Int.lt_add_one_of_le token, fun unset =>
      absurd nonneg (by simp [show ready.view.snapshotid = -1 from unset]), rfl⟩
  refine ⟨started, .start (.cleanup cleans) starts, ?_⟩
  rw [steps.viewed]
  unfold SnapshotView.take
  rw [if_pos takes]
  refine ⟨?_, rfl⟩
  show cleaned.view.snapshotid = _
  rw [viewed]
  rfl

/-- The first snapshot cannot be redone once it has been started. -/
theorem redo_started_aborts :
    ¬ ∀ (n : Int) (ready server : ServerThreads) (phase : Phase), Ready ready → ready.view.snapshotid + 1 = n →
      Interrupted n ready phase server → server.Redoable n := by
  intro always
  have isReady := PeriodRun.ready_loadedServer ⟨1, 0, 0, 0⟩
  obtain ⟨started, reached, same, token⟩ := started_remembers isReady
  have redo := always _ _ started .started isReady rfl reached
  exact not_redoable (congrArg (· + 1) same) (by rw [same]; exact isReady.nonneg)
    (by rw [token]; exact lt_irrefl _) redo

end ServerThreads

end FarReach
