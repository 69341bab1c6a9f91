import FarReach.ServerThreads
import FarReach.SnapshotLoading

namespace FarReach

/-- What `snapshotserver` meets outside of `switchos`: whether ptf answers its commands, each with the
acknowledgement of that command; the keys cached in each pipeline and their backup; and, from the moment in
which `SNAPSHOT_START` has sent its requests until it is acknowledged, the load of each pipeline. -/
structure Exchange where
  ptf : Bool
  cached : List CacheBackup
  backup : List CacheBackup
  loads : Option (List (CacheBackup × SnapshotLoad))

/-- What happens meanwhile: ptf answers from now on as told, the cached keys change, the load of the pipelines
begins with whatever is under way, and goes on. -/
inductive ExchangeEvent where
  | ptf (answers : Bool)
  | cache (cached : List CacheBackup)
  | begin (network : Nat → LoadNetwork)
  | load (events : Nat → List LoadEvent)

namespace Exchange

def loadsOf (backup : List CacheBackup) (network : Nat → LoadNetwork) : List (CacheBackup × SnapshotLoad) :=
  backup.mapIdx fun pipeidx backup => (backup, SnapshotLoad.start backup (network pipeidx))

def goOn (loads : List (CacheBackup × SnapshotLoad)) (events : Nat → List LoadEvent) :
    List (CacheBackup × SnapshotLoad) :=
  loads.mapIdx fun pipeidx load => (load.1, (events pipeidx).foldl (SnapshotLoad.step load.1) load.2)

/-- The loads begin behind `SNAPSHOT_SETFLAG`. -/
def advance (exchange : Exchange) (signal : Option Signal) : ExchangeEvent → Exchange
  | .ptf answers => { exchange with ptf := answers }
  | .cache cached => { exchange with cached }
  | .begin network =>
    if exchange.loads.isNone ∧ signal.map Prod.fst = some .setflag then
      { exchange with loads := some (loadsOf exchange.backup network) }
    else exchange
  | .load events => { exchange with loads := exchange.loads.map (goOn · events) }

def loading (exchange : Exchange) : Bool :=
  (exchange.loads.getD []).any fun load => load.2.status = .loading

def loaded (exchange : Exchange) : Bool :=
  (exchange.loads.getD []).all fun load => load.2.status = .loaded

/-- `SNAPSHOT_CLEANUP` backs up the cache metadata, and the loads of `SNAPSHOT_START` are over. -/
def handled (exchange : Exchange) (signal : Signal) : Exchange :=
  { exchange with
    backup := if signal.1 = .cleanup then exchange.cached else exchange.backup
    loads := none }

def Sane (exchange : Exchange) : Prop := ∀ load ∈ exchange.loads.getD [], SnapshotLoad.Sane load.1 load.2

/-- What is under way when the loads begin is for the backed-up slots of their pipeline. -/
def Addressed (backup : List CacheBackup) (network : Nat → LoadNetwork) : Prop :=
  ∀ pipeidx pipeline, backup[pipeidx]? = some pipeline →
    pipeline.emptyIndex = 0 ∨ SnapshotLoad.Addressed pipeline (network pipeidx)

theorem sane_loadsOf {backup : List CacheBackup} {network : Nat → LoadNetwork}
    (addressed : Addressed backup network) :
    ∀ load ∈ loadsOf backup network, SnapshotLoad.Sane load.1 load.2 := by
  intro load member
  obtain ⟨pipeidx, inside, rfl⟩ := List.mem_mapIdx.mp member
  exact SnapshotLoad.sane_start (addressed pipeidx _ (List.getElem?_eq_getElem inside))

theorem sane_goOn {loads : List (CacheBackup × SnapshotLoad)}
    (sane : ∀ load ∈ loads, SnapshotLoad.Sane load.1 load.2) (events : Nat → List LoadEvent) :
    ∀ load ∈ goOn loads events, SnapshotLoad.Sane load.1 load.2 := by
  intro load member
  obtain ⟨pipeidx, inside, rfl⟩ := List.mem_mapIdx.mp member
  exact (sane _ (List.getElem_mem inside)).run _

theorem completes {loads : List (CacheBackup × SnapshotLoad)}
    (sane : ∀ load ∈ loads, SnapshotLoad.Sane load.1 load.2) :
    ∃ events, ∀ load ∈ goOn loads events, load.2.status = .loaded := by
  have each : ∀ pipeidx : Nat, ∃ events : List LoadEvent, ∀ load, loads[pipeidx]? = some load →
      (events.foldl (SnapshotLoad.step load.1) load.2).status = .loaded := by
    intro pipeidx
    cases found : loads[pipeidx]? with
    | none => exact ⟨[], by simp⟩
    | some load =>
      obtain ⟨events, loaded⟩ := (sane load (List.mem_of_getElem? found)).completes
      exact ⟨events, by simpa using loaded⟩
  choose events loaded using each
  refine ⟨events, fun load member => ?_⟩
  obtain ⟨pipeidx, inside, rfl⟩ := List.mem_mapIdx.mp member
  exact loaded pipeidx _ (List.getElem?_eq_getElem inside)

variable {exchange : Exchange}

theorem Sane.loaded (sane : exchange.Sane) (ended : exchange.loading = false) : exchange.loaded = true := by
  refine List.all_eq_true.mpr fun load member => decide_eq_true ((sane load member).loaded fun loading => ?_)
  exact absurd (decide_eq_true loading) (List.any_eq_false.mp ended load member)

theorem sane_of_none (none : exchange.loads = none) : exchange.Sane := by
  intro load member
  rw [none] at member
  cases member

end Exchange

/-- The flags that `snapshotserver`, `popworker` and `specialcaseserver` of `switchos` share, which of the
arrays of a snapshot are allocated, and the last signal of `snapshotserver`. -/
structure SwitchosSnapshot where
  isFirstSnapshot : Bool
  isStopCachepop : Bool
  popworkerKnowStopCachepop : Bool
  isSnapshot : Bool
  isSnapshotEnd : Bool
  popworkerKnowSnapshotEnd : Bool
  specialcaseserverKnowSnapshotEnd : Bool
  specialcases : Bool
  backup : Bool
  snapshotData : Bool
  signal : Option Signal
  deriving DecidableEq, Repr

namespace SwitchosSnapshot

def initial : SwitchosSnapshot :=
  ⟨true, false, false, false, false, false, false, false, false, false, none⟩

/-- One turn of the loop of `run_switchos_popworker`, as far as the flags go. -/
def popworker (switchos : SwitchosSnapshot) : SwitchosSnapshot :=
  { switchos with
    popworkerKnowStopCachepop := switchos.popworkerKnowStopCachepop || switchos.isStopCachepop
    popworkerKnowSnapshotEnd := switchos.popworkerKnowSnapshotEnd || switchos.isSnapshotEnd }

/-- One turn of the loop of `run_switchos_specialcaseserver` without a packet. -/
def specialcaseserver (switchos : SwitchosSnapshot) : SwitchosSnapshot :=
  { switchos with
    specialcaseserverKnowSnapshotEnd := switchos.specialcaseserverKnowSnapshotEnd || switchos.isSnapshotEnd }

/-- The other threads are told that the snapshot has ended, and `snapshotserver` waits until both know. -/
def endSnapshot (switchos : SwitchosSnapshot) : SwitchosSnapshot :=
  let told := { switchos with isSnapshotEnd := true, isSnapshot := false }
  { told.popworker.specialcaseserver with
    isSnapshotEnd := false, popworkerKnowSnapshotEnd := false, specialcaseserverKnowSnapshotEnd := false }

/-- The arrays of the last snapshot are freed, once nobody uses them. -/
def endStaleSnapshot (switchos : SwitchosSnapshot) : Option SwitchosSnapshot :=
  if switchos.isFirstSnapshot then some switchos
  else if switchos.backup then
    let told := { switchos with popworkerKnowSnapshotEnd := false, specialcaseserverKnowSnapshotEnd := false }
    some { told.endSnapshot with specialcases := false, backup := false, snapshotData := false }
  else none

/-- `SNAPSHOT_CLEANUP`. Cache population stays stopped until the snapshot has started. -/
def cleanup (switchos : SwitchosSnapshot) : Option SwitchosSnapshot := do
  let switchos ← { switchos with isStopCachepop := false, popworkerKnowStopCachepop := false }.endStaleSnapshot
  if switchos.specialcases || switchos.backup || switchos.snapshotData then none
  else
    let stopped := { switchos with
      isSnapshot := false, isSnapshotEnd := false
      popworkerKnowSnapshotEnd := false, specialcaseserverKnowSnapshotEnd := false
      isFirstSnapshot := false, specialcases := true, isStopCachepop := true }
    some { stopped.popworker with backup := true }

/-- `SNAPSHOT_START`. The arrays for the loaded data are allocated where keys are cached. -/
def start (switchos : SwitchosSnapshot) : Option SwitchosSnapshot :=
  if switchos.isSnapshot = false ∧ switchos.isStopCachepop = true ∧ switchos.popworkerKnowStopCachepop = true then
    some { switchos with
      isSnapshot := true, isStopCachepop := false, popworkerKnowStopCachepop := false, snapshotData := true }
  else none

def getdata (switchos : SwitchosSnapshot) : Option SwitchosSnapshot :=
  if switchos.isSnapshot = true ∧ switchos.isSnapshotEnd = false ∧ switchos.popworkerKnowSnapshotEnd = false ∧
      switchos.specialcaseserverKnowSnapshotEnd = false then
    if switchos.specialcases then some switchos.endSnapshot else none
  else none

/-- `run_switchos_snapshotserver` on one signal, at the end of its exchanges: the new state and the
acknowledgement; `none` if a check fails or the process exits. Every signal begins with a command to ptf, and
`SNAPSHOT_START` loads every pipeline. -/
def snapshotserver (switchos : SwitchosSnapshot) (exchange : Exchange) (signal : Signal) :
    Option (SwitchosSnapshot × Option Signal) :=
  if signal.1 ≠ .cleanup ∧ switchos.signal = some signal then some (switchos, none)
  else if exchange.ptf = false then none
  else
    let switchos := { switchos with signal := some signal }
    match signal.1 with
    | .cleanup => switchos.cleanup.map (·, some signal)
    | .prepare => some (switchos, some signal)
    | .setflag => some (switchos, some signal)
    | .start => if exchange.loaded then switchos.start.map (·, some signal) else none
    | .getdata => switchos.getdata.map (·, some signal)
    | .senddata => none

/-- The thread handles one signal after the other: a signal is read when no load is going on, and
`SNAPSHOT_START` has been handled when its loads have ended. -/
def ready (switchos : SwitchosSnapshot) (exchange : Exchange) (signal : Signal) : Bool :=
  if exchange.loads.isSome then signal.1 = .start && !exchange.loading
  else signal.1 ≠ .start || switchos.signal = some signal

/-- Every snapshot but the first has a backup of the cache metadata to free. -/
def Sound (switchos : SwitchosSnapshot) : Prop :=
  if switchos.isFirstSnapshot then
    switchos.specialcases = false ∧ switchos.backup = false ∧ switchos.snapshotData = false
  else switchos.backup = true

/-- After a cleanup. -/
structure Cleaned (switchos : SwitchosSnapshot) : Prop where
  started : switchos.isFirstSnapshot = false
  backup : switchos.backup = true
  specialcases : switchos.specialcases = true
  isSnapshot : switchos.isSnapshot = false
  isStopCachepop : switchos.isStopCachepop = true
  popworkerKnowStopCachepop : switchos.popworkerKnowStopCachepop = true
  isSnapshotEnd : switchos.isSnapshotEnd = false
  popworkerKnowSnapshotEnd : switchos.popworkerKnowSnapshotEnd = false
  specialcaseserverKnowSnapshotEnd : switchos.specialcaseserverKnowSnapshotEnd = false

/-- While the snapshot is taken. -/
structure Started (switchos : SwitchosSnapshot) : Prop where
  started : switchos.isFirstSnapshot = false
  backup : switchos.backup = true
  specialcases : switchos.specialcases = true
  isSnapshot : switchos.isSnapshot = true
  isSnapshotEnd : switchos.isSnapshotEnd = false
  popworkerKnowSnapshotEnd : switchos.popworkerKnowSnapshotEnd = false
  specialcaseserverKnowSnapshotEnd : switchos.specialcaseserverKnowSnapshotEnd = false

variable {switchos : SwitchosSnapshot} {exchange : Exchange} {n : Int}

theorem Cleaned.sound (cleaned : switchos.Cleaned) : switchos.Sound := by
  unfold Sound
  rw [cleaned.started]
  exact cleaned.backup

/-- The cleanup gets through whatever the last snapshot has left behind. -/
theorem snapshotserver_cleanup (sound : switchos.Sound) (ptf : exchange.ptf = true) (n : Int) :
    ∃ after, switchos.snapshotserver exchange (.cleanup, n) = some (after, some (.cleanup, n)) ∧ after.Cleaned ∧
      after.signal = some (.cleanup, n) := by
  unfold Sound at sound
  unfold snapshotserver cleanup endStaleSnapshot endSnapshot popworker specialcaseserver
  rw [ptf]
  cases first : switchos.isFirstSnapshot with
  | true =>
    rw [first] at sound
    obtain ⟨specialcases, backup, data⟩ := sound
    simp only [specialcases, backup, data]
    exact ⟨_, rfl, ⟨rfl, rfl, rfl, rfl, rfl, by simp, rfl, rfl, rfl⟩, rfl⟩
  | false =>
    rw [first] at sound
    have backup : switchos.backup = true := sound
    simp only [backup]
    exact ⟨_, rfl, ⟨rfl, rfl, rfl, rfl, rfl, by simp, rfl, rfl, rfl⟩, rfl⟩

theorem snapshotserver_repeated {signal : Signal} (seen : switchos.signal = some signal)
    (kind : signal.1 ≠ .cleanup) :
    switchos.snapshotserver exchange signal = some (switchos, none) := by
  unfold snapshotserver
  rw [if_pos ⟨kind, seen⟩]

theorem snapshotserver_start (cleaned : switchos.Cleaned) (fresh : switchos.signal ≠ some (.start, n))
    (ptf : exchange.ptf = true) (loaded : exchange.loaded = true) :
    ∃ after, switchos.snapshotserver exchange (.start, n) = some (after, some (.start, n)) ∧ after.Started ∧
      after.signal = some (.start, n) := by
  unfold snapshotserver start
  simp only [ptf, loaded, fresh, and_false, if_false, cleaned.isSnapshot, cleaned.isStopCachepop,
    cleaned.popworkerKnowStopCachepop, and_self, if_true]
  exact ⟨_, rfl, ⟨cleaned.started, cleaned.backup, cleaned.specialcases, rfl, cleaned.isSnapshotEnd,
    cleaned.popworkerKnowSnapshotEnd, cleaned.specialcaseserverKnowSnapshotEnd⟩, rfl⟩

theorem snapshotserver_getdata (started : switchos.Started) (fresh : switchos.signal ≠ some (.getdata, n))
    (ptf : exchange.ptf = true) :
    ∃ after, switchos.snapshotserver exchange (.getdata, n) = some (after, some (.getdata, n)) ∧ after.Sound ∧
      after.signal = some (.getdata, n) := by
  unfold snapshotserver getdata
  simp only [ptf, fresh, and_false, if_false, started.isSnapshot, started.isSnapshotEnd,
    started.popworkerKnowSnapshotEnd, started.specialcaseserverKnowSnapshotEnd, started.specialcases,
      and_self, if_true]
  refine ⟨_, rfl, ?_, rfl⟩
  show if switchos.isFirstSnapshot then _ else _
  rw [started.started]
  exact started.backup

end SwitchosSnapshot

end FarReach
