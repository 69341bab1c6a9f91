import FarReach.Runs
import FarReach.ServerView

namespace FarReach

/-- How far a server is with the snapshot of the current period. The data of `SNAPSHOT_SENDDATA` is
processed in several steps, while other threads go on. -/
inductive Phase where
  | idle | cleaned | started | receiving | updated
  deriving DecidableEq, Repr

/-- What a thread of a server works on: a packet of the worker, an eviction with the period it was sent in, or
`SNAPSHOT_START`. -/
inductive Job where
  | work (request : WorkerRequest)
  | evict (message : CacheEvict) (period : Int)
  | start (snapshotid : Int)

inductive CutThread where
  | worker | evictserver | snapshotserver
  deriving DecidableEq

instance : Fintype CutThread := ⟨{.worker, .evictserver, .snapshotserver}, fun thread => by cases thread <;> decide⟩

/-- How far a thread is with its job: at the call of `make_snapshot`, between `test_and_set` and `GetSnapshot`,
behind a snapshot that it has taken, or past all that and at the write. -/
inductive JobStage where
  | calling | claimed | taken | ready
  deriving DecidableEq

namespace Job

def thread : Job → CutThread
  | work _ => .worker
  | evict _ _ => .evictserver
  | start _ => .snapshotserver

def token : Job → Option Int
  | work request => request.token.map Nat.cast
  | evict _ _ => none
  | start snapshotid => some snapshotid

/-- The period whose cut the job fixes, if it is one that should freeze the store. -/
def freezes : Job → Option Int
  | evict message period => if message.case2 then some period else none
  | job => job.token

def Asks (server : ServerThreads) : Job → Prop
  | work request => server.issnapshot = false ∧ ∃ token ∈ request.token, server.snapshottoken < token
  | evict message _ => message.case2 = true ∧ server.issnapshot = false
  | start snapshotid => server.snapshottoken < snapshotid

instance (server : ServerThreads) : (job : Job) → Decidable (job.Asks server)
  | work request => inferInstanceAs (Decidable (_ ∧ ∃ token ∈ request.token, server.snapshottoken < token))
  | evict _ _ => inferInstanceAs (Decidable (_ ∧ _))
  | start _ => inferInstanceAs (Decidable (_ < _))

def begin (server : ServerThreads) : Job → Option ServerThreads
  | work _ => some server
  | evict message _ => if message.key ∈ server.cachedKeyset then some server else none
  | start snapshotid =>
    if server.issnapshot then none else some { server with snapshotSignal := some (.start, snapshotid) }

def remember (server : ServerThreads) (job : Job) : ServerThreads :=
  { server with snapshottoken := job.token.getD server.snapshottoken }

/-- What is left to do: the write, or nothing but the acknowledgement. -/
def complete (server : ServerThreads) : Job → Option ServerThreads
  | work request => (server.apply request.write).map (·.populate request)
  | evict message _ => { server with cachedKeyset := server.cachedKeyset.erase message.key }.apply message.write
  | start _ => some server

end Job

/-- A server and the period it is in, with what each thread is doing and what the period should have frozen: the
store when the first `CASE3` packet, `CASE2` eviction or `SNAPSHOT_START` of the period takes effect. `active` is
the cut of the last period that was completed, `taken` counts the snapshots since the last cleanup. `finishing`
is set if the data thread has not left the last period yet. -/
structure PeriodRun where
  server : Option ServerThreads
  jobs : CutThread → Option (Job × JobStage)
  period : Int
  phase : Phase
  finishing : Bool
  cut : Option KvStore
  active : Option KvStore
  taken : Nat

/-- A thread takes up a job, or goes on with it; and the steps of the other control messages of each period. -/
inductive CutEvent where
  | begin (job : Job)
  | advance (thread : CutThread)
  | cleanup | senddata
  | update (inswitch : Std.ExtTreeMap Key SnapshotRecord)
  | finish

namespace PeriodRun

def Running (run : PeriodRun) (period : Int) : Prop :=
  period = run.period ∧ (run.phase = .cleaned ∨ run.phase = .started ∨ run.phase = .receiving)

instance (run : PeriodRun) (period : Int) : Decidable (run.Running period) := inferInstanceAs (Decidable (_ ∧ _))

def Freezes (run : PeriodRun) (job : Job) : Prop := ∃ period ∈ job.freezes, run.Running period

instance (run : PeriodRun) (job : Job) : Decidable (run.Freezes job) :=
  inferInstanceAs (Decidable (∃ period ∈ job.freezes, run.Running period))

/-- A job takes effect; the first one that should freeze the store fixes the cut. -/
def fixed (run : PeriodRun) (job : Job) (kv : KvStore) : Option KvStore :=
  if run.Freezes job then run.cut.or (some kv) else run.cut

def goOn (run : PeriodRun) (server : ServerThreads) (job : Job) (thread : CutThread) (stage : JobStage) : PeriodRun :=
  { run with server := some server, jobs := Function.update run.jobs thread (some (job, stage)) }

/-- A thread goes on with its job. A job takes effect when its snapshot is taken, or else when it is completed. -/
def advance (run : PeriodRun) (server : ServerThreads) (thread : CutThread) : Option PeriodRun :=
  match run.jobs thread with
  | none => some run
  | some (job, .calling) => do
    let (claimed, after) ← server.call (RocksdbWrapper.claimSnapshot (job.token.getD 0))
    some (run.goOn after job thread (if claimed then .claimed else .ready))
  | some (job, .claimed) => do
    let (_, after) ← server.call RocksdbWrapper.takeSnapshot
    some { run.goOn after job thread .taken with cut := run.fixed job server.kv, taken := run.taken + 1 }
  | some (job, .taken) => some (run.goOn (job.remember server) job thread .ready)
  | some (job, .ready) => do
    let after ← job.complete server
    some { run with
      server := some after
      jobs := Function.update run.jobs thread none
      cut := run.fixed job server.kv
      phase := if thread = .snapshotserver then .started else run.phase }

def stepServer (run : PeriodRun) (server : ServerThreads) : CutEvent → Option PeriodRun
  | .begin job => do
    let after ← job.begin server
    some (run.goOn after job job.thread (if job.Asks server then .calling else .ready))
  | .advance thread => run.advance server thread
  | .cleanup => do
    let (after, _) ← server.snapshotserver (.cleanup, run.period + 1)
    some { run with
      server := some after, period := run.period + 1, phase := .cleaned, finishing := run.phase = .updated
      cut := none, taken := 0 }
  | .senddata => do
    let (after, _) ← server.senddataBegin (.senddata, run.period)
    some { run with server := some after, phase := .receiving }
  | .update inswitch => do
    let after ← server.senddataUpdate inswitch run.period
    some { run with server := some after, phase := .updated, active := run.cut }
  | .finish => some { run with
    server := some server.senddataFinish, phase := if run.phase = .updated then .idle else run.phase
    finishing := false }

def step (run : PeriodRun) (event : CutEvent) : PeriodRun :=
  match run.server with
  | none => run
  | some server => (run.stepServer server event).getD { run with server := none }

/-- A thread has one job at a time. The control messages come in order, for one period after the other, and the
cleanup of the next period may overtake the data of this one; tokens and evictions are at most as new as the
period. -/
def Possible (run : PeriodRun) : CutEvent → Prop
  | .begin job =>
    run.jobs job.thread = none ∧ (∀ period ∈ job.freezes, period ≤ run.period) ∧
      (job.thread = .snapshotserver → run.phase = .cleaned ∧ job.token = some run.period)
  | .advance _ => True
  | .cleanup =>
    run.jobs .snapshotserver = none ∧ (run.phase = .idle ∨ run.phase = .receiving ∨ run.phase = .updated)
  | .senddata => run.phase = .started ∧ run.finishing = false
  | .update _ => run.phase = .receiving
  | .finish => run.phase = .updated ∨ run.finishing = true

def IsCut (database : Database) (deletedSet : DeletedSet) (cut : KvStore) : Prop :=
  database = cut.db ∧ deletedSet.recordsSortedBykey = cut.deletedSet.recordsSortedBykey

/-- The server is up and has taken at most one snapshot in the period; the one that waits to be activated
is the cut of the period, and the active one is the cut of the last completed period. -/
def Exact (run : PeriodRun) : Prop :=
  ∃ server, run.server = some server ∧ run.taken ≤ 1 ∧
    (∀ database, server.view.latest = some database →
      ∃ cut, run.cut = some cut ∧ IsCut database server.view.latestDeletedSet cut) ∧
    ∀ cut, run.active = some cut →
      ∃ database, server.view.active = some database ∧ IsCut database server.view.activeDeletedSet cut

/-- A thread is between `test_and_set` and `GetSnapshot`. -/
def Claimed (run : PeriodRun) (thread : CutThread) : Prop := ∃ job, run.jobs thread = some (job, .claimed)

/-- What is asked of the schedule. An eviction is for a key that the server knows to be cached. A thread that has
passed the checks calls `make_snapshot` while the period of its packet is running, or finds the flag set. No job
that should freeze the store is completed while another thread is between `test_and_set` and `GetSnapshot`. A
cleanup does not come before the data of the last period is in place. -/
def Timely (run : PeriodRun) : CutEvent → Prop
  | .begin (.evict message _) => ∀ server ∈ run.server, message.key ∈ server.cachedKeyset
  | .advance thread =>
    match run.jobs thread with
    | some (job, .calling) => run.Freezes job ∨ ∀ server ∈ run.server, server.view.isSnapshot = true
    | some (job, .ready) => run.Freezes job → ∀ other, ¬ run.Claimed other
    | _ => True
  | .cleanup => run.phase ≠ .receiving
  | _ => True

def Waiting (run : PeriodRun) : Prop := run.phase = .cleaned ∧ run.cut = none

/-- The cut whose snapshot is to be activated. -/
def held (run : PeriodRun) : Option KvStore :=
  match run.phase with
  | .idle | .updated => none
  | .cleaned | .started | .receiving => run.cut

def completed (run : PeriodRun) : Int :=
  match run.phase with
  | .idle | .updated => run.period
  | .cleaned | .started | .receiving => run.period - 1

/-- What is known of the job of a thread. -/
structure JobInv (run : PeriodRun) (thread : CutThread) (job : Job) (stage : JobStage) : Prop where
  nonneg : 0 ≤ job.token.getD 0
  bound : ∀ period ∈ job.freezes, period ≤ run.period
  start : thread = .snapshotserver → run.phase = .cleaned ∧ run.Freezes job
  taken : stage = .taken → run.Freezes job → run.cut ≠ none
  ready : stage = .ready → run.Freezes job → run.cut ≠ none ∨ ∃ other, run.Claimed other

/-- What holds of a server with this view that has got this data last. The flag of `make_snapshot` is set while a
snapshot is there to be activated, or is claimed by a thread, which is then the only one. -/
structure Inv (run : PeriodRun) (view : SnapshotView) (data : Option (ControlType × Int)) : Prop where
  finishing : run.finishing = true → run.phase = .cleaned ∨ run.phase = .started
  nonneg : 0 ≤ view.snapshotid
  snapshotid : view.snapshotid = run.completed
  issnapshot : view.issnapshot = (run.phase = .receiving ∨ run.phase = .updated : Bool)
  token : view.snapshottoken ≤ run.period
  older : run.Waiting → view.snapshottoken < run.period
  received : ∀ id, data = some (.senddata, id) → id ≤ run.period
  fresh : run.phase = .cleaned ∨ run.phase = .started → data ≠ some (.senddata, run.period)
  active : ∀ cut, run.active = some cut →
    ∃ database, view.active = some database ∧ IsCut database view.activeDeletedSet cut
  fixed : run.phase = .started ∨ run.phase = .receiving → run.cut ≠ none
  taken : run.taken ≤ 1
  untaken : run.Waiting → run.taken = 0
  unheld : run.held = none → view.latest = none
  holds : ∀ cut, run.held = some cut →
    ∃ database, view.latest = some database ∧ IsCut database view.latestDeletedSet cut
  flag : view.isSnapshot = true ↔ run.held ≠ none ∨ ∃ thread, run.Claimed thread
  claims : ∀ thread job, run.jobs thread = some (job, .claimed) →
    run.Waiting ∧ run.Freezes job ∧ ∀ other, run.Claimed other → other = thread
  jobs : ∀ thread job stage, run.jobs thread = some (job, stage) → run.JobInv thread job stage

def Safe (run : PeriodRun) : Prop := ∃ server, run.server = some server ∧ run.Inv server.view server.dataSignal

variable {run next : PeriodRun} {server after : ServerThreads} {thread other : CutThread} {job : Job}
    {stage : JobStage}
  {view : SnapshotView} {data : Option (ControlType × Int)}

section Jobs

theorem Inv.waiting (inv : run.Inv view data) (freezes : run.Freezes job) (unfixed : run.cut = none) :
    run.Waiting := by
  obtain ⟨_, _, _, phase | phase | phase⟩ := freezes
  · exact ⟨phase, unfixed⟩
  · exact absurd unfixed (inv.fixed (Or.inl phase))
  · exact absurd unfixed (inv.fixed (Or.inr phase))

theorem held_of_freezes (freezes : run.Freezes job) : run.held = run.cut := by
  obtain ⟨_, _, _, phase | phase | phase⟩ := freezes <;> simp [held, phase]

/-- Only a period that waits for its snapshot has it claimed. -/
theorem Inv.unclaimed (inv : run.Inv view data) (unwaiting : ¬ run.Waiting) (thread : CutThread) (job : Job) :
    run.jobs thread ≠ some (job, .claimed) := fun found => unwaiting (inv.claims thread job found).1

theorem unset_of_unclaimed (unheld : run.held = none)
    (unclaimed : ∀ thread job, run.jobs thread ≠ some (job, .claimed)) :
    ¬ (run.held ≠ none ∨ ∃ thread, run.Claimed thread) := by
  rintro (held | ⟨thread, job, claimed⟩)
  · exact held unheld
  · exact unclaimed thread job claimed

theorem not_claimed (working : run.jobs thread = some (job, stage)) (unclaimed : stage ≠ .claimed) :
    ¬ run.Claimed thread := by
  rintro ⟨_, claimed⟩
  cases working.symm.trans claimed
  exact unclaimed rfl

theorem of_update {entry : Option (Job × JobStage)} {found : Job × JobStage}
    (isFound : Function.update run.jobs thread entry other = some found) :
    other = thread ∧ entry = some found ∨ other ≠ thread ∧ run.jobs other = some found := by
  by_cases same : other = thread
  · subst same
    rw [Function.update_self] at isFound
    exact Or.inl ⟨rfl, isFound⟩
  · rw [Function.update_of_ne same] at isFound
    exact Or.inr ⟨same, isFound⟩

/-- What is known of a job, once the cut is fixed or the job is not one that should freeze the store. -/
theorem JobInv.settled {before : JobStage} (old : run.JobInv thread job before) (later : run.period ≤ next.period)
    (start : thread = .snapshotserver → next.phase = .cleaned ∧ next.Freezes job)
    (fixed : next.Freezes job → next.cut ≠ none) : next.JobInv thread job stage :=
  ⟨old.nonneg, fun period freezes => (old.bound period freezes).trans later, start, fun _ => fixed,
    fun _ freezes => Or.inl (fixed freezes)⟩

/-- A step of one thread that claims nothing and has claimed nothing before. -/
theorem Inv.moves (inv : run.Inv view data) {entry : Option (Job × JobStage)} {token : Int}
    (before : ¬ run.Claimed thread) (behind : ∀ job, entry ≠ some (job, .claimed)) (bound : token ≤ run.period)
    (older : run.Waiting → token < run.period)
    (known : ∀ job stage, entry = some (job, stage) → run.JobInv thread job stage) (server : ServerThreads) :
    { run with server := some server, jobs := Function.update run.jobs thread entry }.Inv
      { view with snapshottoken := token } data := by
  have old {other : CutThread} {job : Job}
      (found : Function.update run.jobs thread entry other = some (job, .claimed)) :
      run.jobs other = some (job, .claimed) :=
    ((of_update found).resolve_left fun here => behind job here.2).2
  have claimed (other : CutThread) : run.Claimed other ↔
      { run with server := some server, jobs := Function.update run.jobs thread entry }.Claimed other := by
    refine ⟨fun ⟨job, found⟩ => ⟨job, ?_⟩, fun ⟨job, found⟩ => ⟨job, old found⟩⟩
    have apart : other ≠ thread := fun same => before (same ▸ ⟨job, found⟩)
    exact (Function.update_of_ne apart ..).trans found
  refine { inv with token := bound, older := older, flag := ?_, claims := ?_, jobs := ?_ }
  · exact inv.flag.trans (or_congr_right (exists_congr claimed))
  · intro other job found
    obtain ⟨waiting, freezes, only⟩ := inv.claims other job (old found)
    exact ⟨waiting, freezes, fun third claim => only third ((claimed third).mpr claim)⟩
  · intro other job stage found
    have kept : run.JobInv other job stage := by
      rcases of_update found with ⟨rfl, here⟩ | ⟨_, there⟩
      · exact known job stage here
      · exact inv.jobs other job stage there
    exact { kept with ready := fun ready freezes =>
      (kept.ready ready freezes).imp_right (Exists.imp fun third => (claimed third).mp) }

theorem step_of_server {event : CutEvent} (up : run.server = some server)
    (ran : run.stepServer server event = some next) : run.step event = next := by
  unfold step
  rw [up]
  dsimp only
  rw [ran]
  rfl

theorem Job.mem_freezes_of_token {token : Int} (found : job.token = some token) : job.freezes = some token := by
  cases job with
  | work request => exact found
  | evict message period => cases found
  | start snapshotid => exact found

/-- A job that should freeze the store is stopped at the checks only if the cut is fixed. -/
theorem Inv.asks (inv : run.Inv server.view data) (freezes : run.Freezes job) (passes : ¬ job.Asks server) :
    run.cut ≠ none := by
  intro unfixed
  have waiting := inv.waiting freezes unfixed
  have free : server.issnapshot = false := inv.issnapshot.trans (by simp [waiting.1])
  have older := inv.older waiting
  obtain ⟨period, found, same, _⟩ := freezes
  rw [← same] at older
  refine passes ?_
  cases job with
  | work request =>
    obtain ⟨token, carried, rfl⟩ := Option.map_eq_some_iff.mp found
    exact ⟨free, token, carried, older⟩
  | evict message sent =>
    have case2 : message.case2 = true := by
      by_contra not
      simp [Job.freezes, not] at found
    exact ⟨case2, free⟩
  | start snapshotid =>
    cases found
    exact older

theorem safe_begin_job (up : run.server = some server) (inv : run.Inv server.view server.dataSignal)
    (possible : run.Possible (.begin job)) (timely : run.Timely (.begin job)) : (run.step (.begin job)).Safe := by
  obtain ⟨idle, bound, starting⟩ := possible
  have begun : ∃ after, job.begin server = some after ∧ after.view = server.view ∧
      after.dataSignal = server.dataSignal := by
    cases job with
    | work request => exact ⟨server, rfl, rfl, rfl⟩
    | evict message period => exact ⟨server, if_pos (timely server up), rfl, rfl⟩
    | start snapshotid =>
      have free : server.issnapshot = false := inv.issnapshot.trans (by simp [(starting rfl).1])
      exact ⟨{ server with snapshotSignal := some (.start, snapshotid) }, if_neg (by simp [free]), rfl, rfl⟩
  obtain ⟨after, ran, viewed, data⟩ := begun
  have stepped : run.step (.begin job) =
      run.goOn after job job.thread (if job.Asks server then .calling else .ready) :=
    step_of_server up (by simp [stepServer, ran])
  refine ⟨after, by rw [stepped]; rfl, ?_⟩
  rw [stepped, viewed, data]
  refine inv.moves (fun claims => ?_) (fun other same => ?_) inv.token inv.older ?_ after
  · obtain ⟨other, claimed⟩ := claims
    rw [idle] at claimed
    cases claimed
  · split at same <;> cases same
  · rintro other stage ⟨⟩
    refine ⟨?_, bound, fun isStart => ?_, fun taken => ?_, fun ready freezes => Or.inl (inv.asks freezes ?_)⟩
    · cases job with
      | work request =>
        show 0 ≤ (request.token.map Nat.cast : Option Int).getD 0
        cases request.token <;> simp
      | evict message period => exact le_rfl
      | start snapshotid =>
        obtain ⟨phase, same⟩ := starting rfl
        have nonneg := inv.nonneg
        have behind := inv.snapshotid
        have current : snapshotid = run.period := Option.some.inj same
        simp only [completed, phase] at behind
        show 0 ≤ snapshotid
        omega
    · obtain ⟨phase, same⟩ := starting isStart
      exact ⟨phase, run.period, Job.mem_freezes_of_token same, rfl, Or.inl phase⟩
    · split at taken <;> cases taken
    · intro asks
      rw [if_pos asks] at ready
      cases ready

/-- The flag was set before: the thread goes on without a snapshot. -/
theorem Inv.refused (inv : run.Inv view data) (calling : run.jobs thread = some (job, .calling))
    (flag : view.isSnapshot = true) : (run.goOn server job thread .ready).Inv view data := by
  have known := inv.jobs thread job .calling calling
  refine inv.moves (not_claimed calling (by decide)) (fun other same => by cases same) inv.token inv.older ?_ server
  rintro other stage ⟨⟩
  refine ⟨known.nonneg, known.bound, known.start, (fun taken => by cases taken), fun _ freezes => ?_⟩
  have set := inv.flag.mp flag
  rwa [held_of_freezes freezes] at set

/-- The thread sets the flag: it is the only one of the period to do so. -/
theorem Inv.claimed (inv : run.Inv view data) (calling : run.jobs thread = some (job, .calling))
    (free : view.isSnapshot = false) (freezes : run.Freezes job) :
    (run.goOn server job thread .claimed).Inv { view with isSnapshot := true } data := by
  have unset : ¬ (run.held ≠ none ∨ ∃ thread, run.Claimed thread) := by
    rw [← inv.flag, free]
    exact Bool.false_ne_true
  obtain ⟨unheld, unclaimed⟩ := not_or.mp unset
  have waiting : run.Waiting := inv.waiting freezes (held_of_freezes freezes ▸ not_not.mp unheld)
  have claims : (run.goOn server job thread .claimed).Claimed thread := ⟨job, Function.update_self ..⟩
  have only : ∀ other, (run.goOn server job thread .claimed).Claimed other → other = thread := by
    rintro other ⟨claiming, claimed⟩
    rcases of_update claimed with ⟨same, _⟩ | ⟨_, there⟩
    · exact same
    · exact absurd ⟨other, claiming, there⟩ unclaimed
  refine { inv with flag := iff_of_true rfl (Or.inr ⟨thread, claims⟩), claims := ?_, jobs := ?_ }
  · intro other claiming claimed
    obtain rfl := only other ⟨claiming, claimed⟩
    cases (Function.update_self ..).symm.trans claimed
    exact ⟨waiting, freezes, only⟩
  · intro other known stage found
    rcases of_update found with ⟨rfl, ⟨⟩⟩ | ⟨_, there⟩
    · have old := inv.jobs other job .calling calling
      exact { old with taken := fun taken => (by cases taken), ready := fun ready => by cases ready }
    · have old := inv.jobs other known stage there
      exact { old with ready := fun _ _ => Or.inr ⟨thread, claims⟩ }

/-- The snapshot is taken, and the cut is fixed at that moment. -/
theorem Inv.takes (inv : run.Inv view data) (claimed : run.jobs thread = some (job, .claimed)) (kv : KvStore) :
    { run.goOn server job thread .taken with cut := run.fixed job kv, taken := run.taken + 1 }.Inv
      { view with latest := some kv.db, latestDeletedSet := view.latestDeletedSet.assign kv.deletedSet } data := by
  obtain ⟨waiting, freezes, only⟩ := inv.claims thread job claimed
  have fixes : run.fixed job kv = some kv := by
    unfold PeriodRun.fixed
    rw [if_pos freezes, waiting.2]
    rfl
  have set : view.isSnapshot = true := inv.flag.mpr (Or.inr ⟨thread, job, claimed⟩)
  have unclaimed : ∀ other claiming,
      Function.update run.jobs thread (some (job, .taken)) other ≠ some (claiming, .claimed) := by
    intro other claiming found
    rcases of_update found with ⟨_, ⟨⟩⟩ | ⟨apart, there⟩
    exact apart (only other ⟨claiming, there⟩)
  rw [fixes, inv.untaken waiting]
  refine { inv with
    older := fun still => (by cases still.2), fixed := fun _ => Option.some_ne_none _, taken := le_rfl
    untaken := fun still => (by cases still.2), unheld := fun none => ?_, holds := fun cut isCut => ?_, flag := ?_
    claims := fun other claiming found => absurd found (unclaimed other claiming), jobs := ?_ }
  · simp [held, goOn, waiting.1] at none
  · simp only [held, goOn, waiting.1] at isCut
    cases isCut
    exact ⟨kv.db, rfl, rfl, rfl⟩
  · exact iff_of_true set (Or.inl (by simp [held, goOn, waiting.1]))
  · intro other known stage found
    obtain ⟨before, old⟩ : ∃ before, run.JobInv other known before := by
      rcases of_update found with ⟨rfl, ⟨⟩⟩ | ⟨_, there⟩
      · exact ⟨_, inv.jobs other job .claimed claimed⟩
      · exact ⟨_, inv.jobs other known stage there⟩
    exact old.settled le_rfl old.start fun _ => Option.some_ne_none _

theorem Inv.remembers (inv : run.Inv server.view data) (taken : run.jobs thread = some (job, .taken)) :
    (run.goOn (job.remember server) job thread .ready).Inv (job.remember server).view data := by
  have known := inv.jobs thread job .taken taken
  have bound (token : Int) (found : job.token = some token) : token ≤ run.period :=
    known.bound token (Job.mem_freezes_of_token found)
  refine inv.moves (not_claimed taken (by decide)) (fun other same => by cases same) ?_ (fun waiting => ?_) ?_
    (job.remember server)
  · unfold Job.remember
    cases found : job.token with
    | none => exact inv.token
    | some token => exact bound token found
  · unfold Job.remember
    cases found : job.token with
    | none => exact inv.older waiting
    | some token =>
      refine lt_of_le_of_ne (bound token found) fun same => ?_
      exact known.taken rfl ⟨token, Job.mem_freezes_of_token found, same, Or.inl waiting.1⟩ waiting.2
  · rintro other stage ⟨⟩
    exact known.settled le_rfl known.start (known.taken rfl)

/-- Nothing but the snapshot server changes the phase, when it completes `SNAPSHOT_START`. -/
theorem Inv.starts (inv : run.Inv view data) (cleaned : run.phase = .cleaned) (fixed : run.cut ≠ none)
    (idle : run.jobs .snapshotserver = none) : { run with phase := .started }.Inv view data := by
  have held : run.held = run.cut := by simp [held, cleaned]
  have unwaiting : ¬ { run with phase := .started }.Waiting := fun waiting => by cases waiting.1
  have unclaimed := inv.unclaimed fun waiting => fixed waiting.2
  refine { inv with
    finishing := fun _ => Or.inr rfl, snapshotid := ?_, issnapshot := ?_, older :=
      fun waiting => absurd waiting unwaiting
    fresh := fun _ => inv.fresh (Or.inl cleaned), fixed := fun _ => fixed
    untaken := fun waiting => absurd waiting unwaiting, unheld := ?_, holds := ?_, flag := ?_
    claims := fun thread job found => absurd found (unclaimed thread job), jobs := fun thread job stage found => ?_ }
  · simpa only [completed, cleaned] using inv.snapshotid
  · simpa [cleaned] using inv.issnapshot
  · exact held ▸ inv.unheld
  · exact held ▸ inv.holds
  · exact held ▸ inv.flag
  · have old := inv.jobs thread job stage found
    refine old.settled le_rfl (fun isStart => ?_) fun _ => fixed
    subst isStart
    cases idle.symm.trans found

/-- The job is done. By then the cut is fixed, if the job is one that should freeze the store. -/
theorem safe_completes (up : run.server = some server) (inv : run.Inv server.view server.dataSignal)
    (ready : run.jobs thread = some (job, .ready)) (timely : run.Freezes job → ∀ other, ¬ run.Claimed other) :
    (run.step (.advance thread)).Safe := by
  have known := inv.jobs thread job .ready ready
  have fixes : run.Freezes job → run.cut ≠ none := fun freezes =>
    (known.ready rfl freezes).resolve_right fun ⟨other, claimed⟩ => timely freezes other claimed
  have kept : run.fixed job server.kv = run.cut := by
    unfold fixed
    split
    · rename_i freezes
      obtain ⟨cut, holds⟩ := Option.ne_none_iff_exists'.mp (fixes freezes)
      rw [holds]
      rfl
    · rfl
  have completes : ∃ after, job.complete server = some after ∧ after.view = server.view ∧
      after.dataSignal = server.dataSignal := by
    cases job with
    | work request =>
      refine ⟨_, by rw [Job.complete, ServerThreads.apply_eq]; rfl, ?_, ?_⟩
      all_goals
        unfold ServerThreads.populate
        split <;> rfl
    | evict message period => exact ⟨_, ServerThreads.apply_eq .., rfl, rfl⟩
    | start snapshotid => exact ⟨server, rfl, rfl, rfl⟩
  obtain ⟨after, ran, viewed, data⟩ := completes
  have stepped : run.step (.advance thread) = { run with
      server := some after, jobs := Function.update run.jobs thread none
      phase := if thread = .snapshotserver then .started else run.phase } :=
    step_of_server up (by simp [stepServer, advance, ready, ran, kept])
  have moved := @Inv.moves run thread server.view server.dataSignal inv none server.view.snapshottoken
    (not_claimed ready (by decide)) (fun other same => by cases same) inv.token inv.older
    (fun other stage same => by cases same) after
  refine ⟨after, by rw [stepped], ?_⟩
  rw [stepped, viewed, data]
  by_cases isStart : thread = .snapshotserver
  · obtain ⟨cleaned, freezes⟩ := known.start isStart
    subst isStart
    have idle : Function.update run.jobs .snapshotserver none .snapshotserver = none := Function.update_self ..
    exact moved.starts cleaned (fixes freezes) idle
  · rw [if_neg isStart]
    exact moved

theorem safe_advance (up : run.server = some server) (inv : run.Inv server.view server.dataSignal)
    (timely : run.Timely (.advance thread)) : (run.step (.advance thread)).Safe := by
  unfold Timely at timely
  dsimp only at timely
  cases working : run.jobs thread with
  | none =>
    have stepped : run.step (.advance thread) = run := step_of_server up (by simp [stepServer, advance, working])
    rw [stepped]
    exact ⟨server, up, inv⟩
  | some entry =>
    obtain ⟨job, stage⟩ := entry
    rw [working] at timely
    cases stage with
    | calling =>
      have ran := server.call_claimSnapshot (inv.jobs thread job .calling working).nonneg
      have started : server.view.snapshotid ≠ -1 := by have := inv.nonneg; omega
      cases flag : server.view.isSnapshot with
      | true =>
        have blocked : ¬ server.CanMake := fun can => by cases flag.symm.trans can.2
        rw [if_neg blocked] at ran
        have stepped : run.step (.advance thread) = run.goOn server job thread .ready :=
          step_of_server up (by simp [stepServer, advance, working, ran])
        rw [stepped]
        exact ⟨server, rfl, inv.refused working flag⟩
      | false =>
        rw [if_pos ⟨started, flag⟩] at ran
        have stepped : run.step (.advance thread) =
            run.goOn { server with wrapper := ServerThreads.claimed server.wrapper } job thread .claimed :=
          step_of_server up (by simp [stepServer, advance, working, ran])
        have freezes : run.Freezes job := timely.resolve_right fun set => by
          rw [set server up] at flag
          cases flag
        rw [stepped]
        exact ⟨_, rfl, inv.claimed working flag freezes⟩
    | claimed =>
      obtain ⟨disk, ran⟩ := server.call_takeSnapshot
      have stepped : run.step (.advance thread) = { run.goOn
            { server with wrapper := ServerThreads.frozen server.wrapper, disk := disk } job thread .taken with
          cut := run.fixed job server.kv, taken := run.taken + 1 } :=
        step_of_server up (by simp [stepServer, advance, working, ran])
      rw [stepped]
      exact ⟨_, rfl, inv.takes working server.kv⟩
    | taken =>
      have stepped : run.step (.advance thread) = run.goOn (job.remember server) job thread .ready :=
        step_of_server up (by simp [stepServer, advance, working])
      rw [stepped]
      exact ⟨_, rfl, inv.remembers working⟩
    | ready => exact safe_completes up inv working timely

end Jobs

section Control

/-- No job is as new as the period that a cleanup opens. -/
theorem safe_cleanup (up : run.server = some server) (inv : run.Inv server.view server.dataSignal)
    (idle : run.jobs .snapshotserver = none) (between : run.phase = .idle ∨ run.phase = .updated) :
    (run.step .cleanup).Safe := by
  have same : server.view.snapshotid = run.period := by
    rw [inv.snapshotid, completed]
    rcases between with phase | phase <;> rw [phase]
  have unclaimed := inv.unclaimed fun waiting => by
    rw [waiting.1] at between
    rcases between with ⟨⟨⟩⟩ | ⟨⟨⟩⟩
  obtain ⟨after, ran, _, data, viewed, _, _⟩ := server.view_cleanup inv.nonneg
  rw [same] at ran
  have stepped : run.step .cleanup = { run with
      server := some after, period := run.period + 1, phase := .cleaned, finishing := run.phase = .updated
      cut := none, taken := 0 } :=
    step_of_server up (by simp [stepServer, ran])
  have newer : run.period < run.period + 1 := Int.lt_succ _
  refine ⟨after, by rw [stepped], ?_⟩
  rw [stepped, viewed, data]
  refine { inv with
    finishing := fun _ => Or.inl rfl, snapshotid := same.trans (add_sub_cancel_right _ _).symm, issnapshot := rfl
    token := inv.token.trans newer.le, older := fun _ => inv.token.trans_lt newer
    received := fun id seen => (inv.received id seen).trans newer.le
    fresh := fun _ seen => absurd (inv.received _ seen) newer.not_ge, fixed := fun phase => ?_, taken := Nat.zero_le 1
    untaken := fun _ => rfl, unheld := fun _ => rfl, holds := fun _ held => (by cases held)
    flag := iff_of_false Bool.false_ne_true (unset_of_unclaimed rfl unclaimed)
    claims := fun thread job found => absurd found (unclaimed thread job), jobs := fun thread job stage found => ?_ }
  · rcases phase with ⟨⟨⟩⟩ | ⟨⟨⟩⟩
  · have old := inv.jobs thread job stage found
    refine old.settled newer.le (fun isStart => ?_) fun ⟨period, freezes, now, _⟩ => ?_
    · subst isStart
      cases idle.symm.trans found
    · have bound := old.bound period freezes
      have now : period = run.period + 1 := now
      omega

theorem safe_senddata (up : run.server = some server) (inv : run.Inv server.view server.dataSignal)
    (started : run.phase = .started) (finished : run.finishing = false) : (run.step .senddata).Safe := by
  have fresh := inv.fresh (Or.inr started)
  have there := inv.fixed (Or.inl started)
  have held : run.held = run.cut := by simp [held, started]
  have stepped : run.step .senddata = { run with
      server := some { server with dataSignal := some (.senddata, run.period), issnapshot := true }
      phase := .receiving } :=
    step_of_server up (by simp [stepServer, ServerThreads.senddataBegin, fresh])
  refine ⟨{ server with dataSignal := some (.senddata, run.period), issnapshot := true }, by rw [stepped], ?_⟩
  rw [stepped]
  refine { inv with
    finishing := by simp [finished], snapshotid := ?_, issnapshot := rfl, older := fun waiting => (by cases waiting.1)
    received := fun id seen => (by cases seen; exact le_rfl), fresh := fun phase => ?_, fixed := fun _ => there
    untaken := fun waiting => (by cases waiting.1), unheld := held ▸ inv.unheld, holds := held ▸ inv.holds
    flag := held ▸ inv.flag, claims := fun thread job found => absurd (inv.claims thread job found).1.2 there
    jobs := fun thread job stage found => ?_ }
  · exact inv.snapshotid.trans (by simp only [completed, started])
  · rcases phase with ⟨⟨⟩⟩ | ⟨⟨⟩⟩
  · have old := inv.jobs thread job stage found
    refine old.settled le_rfl (fun isStart => ?_) fun _ => there
    cases started.symm.trans (old.start isStart).1

theorem safe_update (up : run.server = some server) (inv : run.Inv server.view server.dataSignal)
    (inswitch : Std.ExtTreeMap Key SnapshotRecord) (receiving : run.phase = .receiving) :
    (run.step (.update inswitch)).Safe := by
  have there := inv.fixed (Or.inr receiving)
  obtain ⟨cut, isCut⟩ := Option.ne_none_iff_exists'.mp there
  have held : run.held = some cut := by simp [held, receiving, isCut]
  obtain ⟨database, made, exact⟩ := inv.holds cut held
  have same : server.view.snapshotid + 1 = run.period := by
    rw [inv.snapshotid, completed, receiving]
    exact sub_add_cancel _ _
  obtain ⟨after, ran, _, data, viewed, _⟩ := server.view_senddataUpdate inswitch (by rw [made]; simp)
  rw [same] at ran
  have stepped : run.step (.update inswitch) =
      { run with server := some after, phase := .updated, active := run.cut } :=
    step_of_server up (by simp [stepServer, ran])
  have unclaimed := inv.unclaimed fun waiting => there waiting.2
  refine ⟨after, by rw [stepped], ?_⟩
  rw [stepped, viewed, data]
  refine { inv with
    finishing := fun set => ?_, nonneg := inv.nonneg.trans (Int.le_add_one le_rfl), snapshotid := same
    issnapshot := inv.issnapshot.trans (by simp [receiving]), older := fun waiting => (by cases waiting.1)
    fresh := fun phase => ?_, active := fun other becomes => ?_, fixed := fun _ => there
    untaken := fun waiting => (by cases waiting.1), unheld := fun _ => rfl, holds := fun _ held => (by cases held)
    flag := iff_of_false Bool.false_ne_true (unset_of_unclaimed rfl unclaimed)
    claims := fun thread job found => absurd found (unclaimed thread job), jobs := fun thread job stage found => ?_ }
  · rcases inv.finishing set with phase | phase <;> cases receiving.symm.trans phase
  · rcases phase with ⟨⟨⟩⟩ | ⟨⟨⟩⟩
  · cases isCut.symm.trans becomes
    exact ⟨database, made, exact⟩
  · have old := inv.jobs thread job stage found
    refine old.settled le_rfl (fun isStart => ?_) fun _ => there
    cases receiving.symm.trans (old.start isStart).1

/-- The data thread leaves the period, before the next cleanup or behind it. -/
theorem safe_finish (up : run.server = some server) (inv : run.Inv server.view server.dataSignal)
    (possible : run.phase = .updated ∨ run.finishing = true) : (run.step .finish).Safe := by
  have stepped : run.step .finish = { run with
      server := some server.senddataFinish, phase := if run.phase = .updated then .idle else run.phase
      finishing := false } :=
    step_of_server up rfl
  refine ⟨server.senddataFinish, by rw [stepped], ?_⟩
  rw [stepped]
  by_cases updated : run.phase = .updated
  · rw [if_pos updated]
    have held : run.held = none := by simp [held, updated]
    have unclaimed := inv.unclaimed fun waiting => by cases updated.symm.trans waiting.1
    refine { inv with
      finishing := fun set => (by cases set), snapshotid := inv.snapshotid.trans (by simp [completed, updated])
      issnapshot := rfl, older := fun waiting => (by cases waiting.1), fresh := fun phase => ?_, fixed :=
        fun phase => ?_
      untaken := fun waiting => (by cases waiting.1), unheld := fun _ => inv.unheld held
      holds := fun _ held => (by cases held), flag := ?_
      claims := fun thread job found => absurd found (unclaimed thread job),
        jobs := fun thread job stage found => ?_ }
    · rcases phase with ⟨⟨⟩⟩ | ⟨⟨⟩⟩
    · rcases phase with ⟨⟨⟩⟩ | ⟨⟨⟩⟩
    · have flag := inv.flag
      rw [held] at flag
      exact flag
    · have old := inv.jobs thread job stage found
      refine old.settled le_rfl (fun isStart => ?_) fun ⟨_, _, _, phase⟩ => ?_
      · cases updated.symm.trans (old.start isStart).1
      · rcases phase with ⟨⟨⟩⟩ | ⟨⟨⟩⟩ | ⟨⟨⟩⟩
  · rw [if_neg updated]
    have running := inv.finishing (possible.resolve_left updated)
    refine { inv with
      finishing := fun set => (by cases set), issnapshot := ?_, jobs := fun thread job stage found => ?_ }
    · rcases running with phase | phase <;> simp [phase] <;> rfl
    · have old := inv.jobs thread job stage found
      exact { old with }

end Control

/-- Timely events keep the invariant. -/
theorem safe_step (safe : run.Safe) {event : CutEvent} (possible : run.Possible event) (timely : run.Timely event) :
    (run.step event).Safe := by
  obtain ⟨server, up, inv⟩ := safe
  cases event with
  | begin job => exact safe_begin_job up inv possible timely
  | advance thread => exact safe_advance up inv timely
  | cleanup =>
    rcases possible with ⟨idle, between | receiving | between⟩
    · exact safe_cleanup up inv idle (Or.inl between)
    · exact absurd receiving timely
    · exact safe_cleanup up inv idle (Or.inr between)
  | senddata => exact safe_senddata up inv possible.1 possible.2
  | update inswitch => exact safe_update up inv inswitch possible
  | finish => exact safe_finish up inv possible

theorem Safe.exact (safe : run.Safe) : run.Exact := by
  obtain ⟨server, up, inv⟩ := safe
  refine ⟨server, up, inv.taken, fun database found => ?_, inv.active⟩
  cases held : run.held with
  | none => cases (inv.unheld held).symm.trans found
  | some cut =>
    obtain ⟨other, made, isCut⟩ := inv.holds cut held
    cases made.symm.trans found
    refine ⟨cut, ?_, isCut⟩
    unfold PeriodRun.held at held
    cases phase : run.phase <;> simp_all

structure Ready (server : ServerThreads) : Prop where
  nonneg : 0 ≤ server.view.snapshotid
  token : server.view.snapshottoken ≤ server.view.snapshotid
  data : ∀ id, server.dataSignal = some (.senddata, id) → id ≤ server.view.snapshotid
  unprocessed : server.view.issnapshot = false
  free : server.view.isSnapshot = false
  latest : server.view.latest = none

def begin (server : ServerThreads) : PeriodRun :=
  ⟨some server, fun _ => none, server.view.snapshotid, .idle, false, none, none, 0⟩

theorem safe_begin (ready : Ready server) : (begin server).Safe := by
  refine ⟨server, rfl, fun set => (by cases set), ready.nonneg, rfl, ready.unprocessed, ready.token,
    fun waiting => (by cases waiting.1), ready.data, ?_, fun _ absent => (by cases absent), ?_, Nat.zero_le 1,
    fun _ => rfl, fun _ => ready.latest, fun _ held => (by cases held), ?_, fun _ _ found => (by cases found),
    fun _ _ _ found => (by cases found)⟩
  · rintro (⟨⟨⟩⟩ | ⟨⟨⟩⟩)
  · rintro (⟨⟨⟩⟩ | ⟨⟨⟩⟩)
  · rw [ready.free]
    exact iff_of_false Bool.false_ne_true (unset_of_unclaimed rfl fun _ _ found => by cases found)

/-- The server-side snapshots are the exact cuts of their periods, one each, in the runs in which no thread calls
`make_snapshot` once the period of its packet is over and none that should freeze the store is done while the
snapshot is claimed but not taken. -/
theorem server_side_cut_of_timely (ready : Ready server) {run : PeriodRun}
    (reached : Runs.Reaches step (fun run event => run.Possible event ∧ run.Timely event) (begin server) run) :
    run.Exact := by
  have safe : run.Safe := reached.invariant Safe (safe_begin ready) fun _ _ safe ok => safe_step safe ok.1 ok.2
  exact safe.exact

def loadedServer (cached : Key) : ServerThreads where
  wrapper := { RocksdbWrapper.fresh ∅ 0 0 with snapshotid := 0 }
  disk := fun _ => .missing
  cachedKeyset := {cached}
  issnapshot := false
  snapshottoken := 0
  snapshotSignal := none
  dataSignal := none

theorem ready_loadedServer (cached : Key) : Ready (loadedServer cached) :=
  ⟨Int.le_refl 0, Int.le_refl 0, nofun, rfl, rfl, rfl⟩

instance (run : PeriodRun) (thread : CutThread) : Decidable (run.Claimed thread) :=
  decidable_of_iff ((run.jobs thread).any (·.2 = .claimed) = true) (by
    unfold Claimed
    cases run.jobs thread with
    | none => simp
    | some entry => simp [Prod.ext_iff])

instance (run : PeriodRun) : (event : CutEvent) → Decidable (run.Possible event)
  | .begin job => inferInstanceAs (Decidable (_ ∧ (∀ period ∈ job.freezes, period ≤ run.period) ∧ (_ → _)))
  | .advance _ => isTrue trivial
  | .cleanup | .senddata => inferInstanceAs (Decidable (_ ∧ _))
  | .update _ => inferInstanceAs (Decidable (_ = _))
  | .finish => inferInstanceAs (Decidable (_ ∨ _))

instance (run : PeriodRun) : (event : CutEvent) → Decidable (run.Timely event)
  | .begin (.evict _ _) => inferInstanceAs (Decidable (∀ server ∈ run.server, _))
  | .advance thread => by
    unfold Timely
    dsimp only
    split <;> infer_instance
  | .cleanup => inferInstanceAs (Decidable (_ ≠ _))
  | .begin (.work _) | .begin (.start _) | .senddata | .update _ | .finish => isTrue trivial

/-- A `CASE3` packet claims the snapshot; an eviction is written before it is taken, and the packet behind it. -/
def claimedCut : List CutEvent :=
  [.cleanup, .begin (.work (.put ⟨2, 0, 0, 0⟩ [8] 6 none false)), .advance .worker,
    .begin (.work (.put ⟨3, 0, 0, 0⟩ [9] 7 (some 1) false)), .advance .worker,
    .begin (.evict ⟨⟨1, 0, 0, 0⟩, [7], 5, true, 0, false, by decide⟩ 0), .advance .evictserver,
    .advance .worker, .advance .worker, .advance .worker, .begin (.start 1), .advance .snapshotserver, .senddata,
    .update ∅, .finish]

theorem server_side_cut_of_timely_claimed :
    let run := claimedCut.foldl step (begin (loadedServer ⟨1, 0, 0, 0⟩))
    run.Exact ∧ (run.server.bind fun server => server.view.active.map fun database : Database =>
      [database[(⟨1, 0, 0, 0⟩ : Key)]?, database[(⟨2, 0, 0, 0⟩ : Key)]?, database[(⟨3, 0, 0, 0⟩ : Key)]?]) =
        some [some ([7], 5), some ([8], 6), none] := by
  intro run
  refine ⟨?_, by decide +kernel⟩
  exact server_side_cut_of_timely (ready_loadedServer _) (.foldl .start claimedCut (by decide +kernel))

/-- A `CASE2` eviction of period 0 arrives after the cleanup of period 1, and takes the snapshot before a
write of period 1 that comes ahead of `SNAPSHOT_START`. -/
def lateEviction : List CutEvent :=
  [.cleanup, .begin (.evict ⟨⟨1, 0, 0, 0⟩, [7], 5, true, 0, true, by decide⟩ 0), .advance .evictserver,
    .advance .evictserver, .advance .evictserver, .advance .evictserver,
    .begin (.work (.put ⟨2, 0, 0, 0⟩ [8] 6 none false)), .advance .worker, .begin (.start 1),
      .advance .snapshotserver, .advance .snapshotserver, .senddata, .update ∅]

/-- The snapshot that `SNAPSHOT_SENDDATA` activates lacks the write. -/
theorem server_side_cut_early :
    ¬ ∀ (server : ServerThreads) (run : PeriodRun), Ready server →
      Runs.Reaches step Possible (begin server) run → run.Exact := by
  intro always
  have reached : Runs.Reaches step Possible (begin (loadedServer ⟨1, 0, 0, 0⟩))
      (lateEviction.foldl step (begin (loadedServer ⟨1, 0, 0, 0⟩))) := .foldl .start lateEviction (by decide +kernel)
  obtain ⟨server, up, _, _, active⟩ := always _ _ (ready_loadedServer _) reached
  have activated : (lateEviction.foldl step (begin (loadedServer ⟨1, 0, 0, 0⟩))).active.map
      (fun cut => cut.db[(⟨2, 0, 0, 0⟩ : Key)]?) = some (some ([8], 6)) := by decide +kernel
  have held : (lateEviction.foldl step (begin (loadedServer ⟨1, 0, 0, 0⟩))).server.map
      (fun server => server.view.active.map fun database => database[(⟨2, 0, 0, 0⟩ : Key)]?) = some (some none) := by
    decide +kernel
  obtain ⟨cut, there, written⟩ := Option.map_eq_some_iff.mp activated
  obtain ⟨database, found, same, _⟩ := active cut there
  rw [up, Option.map_some, found, same, Option.map_some, written] at held
  cases held

end PeriodRun

end FarReach
