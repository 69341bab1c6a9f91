import FarReach.History
import FarReach.SnapshotCalls

namespace FarReach

open Crash Crash.Program RocksdbWrapper

/-- The requests of the snapshot protocol; each is answered by the acknowledgement of the same name. -/
inductive ControlType where
  | cleanup | prepare | setflag | start | getdata | senddata
  deriving DecidableEq, Repr

/-- A request with its snapshot id, or the acknowledgement of one. -/
abbrev Signal := ControlType × Int

def nextSignal : Signal → Signal
  | (.cleanup, snapshotid) => (.prepare, snapshotid)
  | (.prepare, snapshotid) => (.setflag, snapshotid)
  | (.setflag, snapshotid) => (.start, snapshotid)
  | (.start, snapshotid) => (.getdata, snapshotid)
  | (.getdata, snapshotid) => (.senddata, snapshotid)
  | (.senddata, snapshotid) => (.cleanup, snapshotid + 1)

/-- A write that the worker gets: `PUTREQ_SEQ`, `DELREQ_SEQ` and their variants for large values and for
slots that are being evicted. The variants with `CASE3` carry a token; those with `POP` ask for the key to
be cached, unless the workload is static. -/
inductive WorkerRequest where
  | put (key : Key) (val : Val) (seq : Nat) (token : Option Nat) (pop : Bool)
  | del (key : Key) (seq : Nat) (token : Option Nat)
  deriving DecidableEq, Repr

def WorkerRequest.write : WorkerRequest → Write
  | put key val seq _ _ => .put key val seq false
  | del key seq _ => .remove key seq false

def WorkerRequest.token : WorkerRequest → Option Nat
  | put _ _ _ token _ => token
  | del _ _ token => token

/-- `CACHE_EVICT`, or `CACHE_EVICT_CASE2` if `case2` is set; its constructor checks the length of the value. -/
structure CacheEvict where
  key : Key
  val : Val
  seq : Nat
  stat : Bool
  serveridx : Nat
  case2 : Bool
  short : val.length ≤ switchMaxVallen
  deriving DecidableEq, Repr

def CacheEvict.write (evict : CacheEvict) : Write :=
  if evict.stat then .put evict.key evict.val evict.seq true else .remove evict.key evict.seq true

/-- What the threads of one logical server share, and the last signal that `snapshotserver` and
`snapshotdataserver` have seen. -/
structure ServerThreads where
  wrapper : RocksdbWrapper
  disk : ServerDisk
  cachedKeyset : Finset Key
  issnapshot : Bool
  snapshottoken : Int
  snapshotSignal : Option Signal
  dataSignal : Option Signal

namespace ServerThreads

/-- A call of the wrapper; `none` if it aborts the process. -/
def call {A : Type} (server : ServerThreads) (program : ServerM A) : Option (A × ServerThreads) :=
  (program server.wrapper server.disk).result.map fun outcome =>
    (outcome.1, { server with wrapper := outcome.2.1, disk := outcome.2.2 })

def apply (server : ServerThreads) (write : Write) : Option ServerThreads :=
  match write with
  | .put key val seq checkseq => (server.call (RocksdbWrapper.put key val seq checkseq)).map Prod.snd
  | .remove key seq checkseq => (server.call (remove key seq checkseq)).map Prod.snd

/-- A snapshot is made under a token that is newer than the one remembered, and the token is remembered
if it was made. -/
def makeUnderToken (server : ServerThreads) (token : Int) : Option ServerThreads :=
  if token > server.snapshottoken then do
    let (made, server) ← server.call (makeSnapshot token)
    some (if made then { server with snapshottoken := token } else server)
  else some server

/-- A `CASE3` packet makes the server-side snapshot of its period before it is applied. -/
def case3 (server : ServerThreads) : Option Nat → Option ServerThreads
  | none => some server
  | some token => if server.issnapshot then some server else server.makeUnderToken token

def populate (server : ServerThreads) : WorkerRequest → ServerThreads
  | .put key _ _ _ true => { server with cachedKeyset := insert key server.cachedKeyset }
  | _ => server

def worker (server : ServerThreads) (request : WorkerRequest) : Option ServerThreads := do
  let server ← server.case3 request.token
  let server ← server.apply request.write
  some (server.populate request)

/-- An eviction under `CASE2` makes the server-side snapshot, whatever period it belongs to. -/
def case2 (server : ServerThreads) (case2 : Bool) : Option ServerThreads :=
  if case2 && !server.issnapshot then (server.call (makeSnapshot 0)).map Prod.snd else some server

/-- `run_server_evictserver`: the new state and the key that is acknowledged; a message for another server
fails the check, and a key that is not cached ends the process. -/
def evictserver (globalServerLogicalIdx : Nat) (server : ServerThreads) (evict : CacheEvict) :
    Option (ServerThreads × Key) :=
  if evict.serveridx ≠ globalServerLogicalIdx then none
  else if evict.key ∉ server.cachedKeyset then none
  else do
    let server ← server.case2 evict.case2
    let server ← { server with cachedKeyset := server.cachedKeyset.erase evict.key }.apply evict.write
    some (server, evict.key)

/-- `run_server_snapshotserver`: the new state, and the acknowledgement if there is one. A signal that
repeats the last one is dropped, unless it is a cleanup. -/
def snapshotserver (server : ServerThreads) (signal : Signal) : Option (ServerThreads × Option Signal) :=
  if signal.1 ≠ .cleanup ∧ server.snapshotSignal = some signal then some (server, none)
  else
    let server := { server with snapshotSignal := some signal }
    match signal.1 with
    | .cleanup => do
      let (_, server) ← server.call (cleanSnapshot signal.2)
      let (_, server) ← { server with issnapshot := false }.call stopSnapshot
      some (server, some signal)
    | .start =>
      if server.issnapshot then none
      else do
        let server ← server.makeUnderToken signal.2
        some (server, some signal)
    | _ => none

/-- The first part of `run_server_snapshotdataserver`: the acknowledgement goes out before the data is
looked at. -/
def senddataBegin (server : ServerThreads) (signal : Signal) : Option (ServerThreads × Option Signal) :=
  if server.dataSignal = some signal then some (server, none)
  else if signal.1 = .senddata then
    some ({ server with dataSignal := some signal, issnapshot := true }, some signal)
  else none

def senddataUpdate (server : ServerThreads) (inswitch : Std.ExtTreeMap Key SnapshotRecord) (snapshotid : Int) :
    Option ServerThreads := do
  let (_, server) ← server.call (updateSnapshot inswitch snapshotid)
  let (_, server) ← server.call stopSnapshot
  some server

def senddataFinish (server : ServerThreads) : ServerThreads := { server with issnapshot := false }

theorem call_of_result {A : Type} (server : ServerThreads) {program : ServerM A} {value : A}
    {wrapper : RocksdbWrapper} {disk : ServerDisk}
    (ran : (program server.wrapper server.disk).result = some (value, wrapper, disk)) :
    server.call program = some (value, { server with wrapper, disk }) := by
  unfold call
  rw [ran]
  rfl

theorem call_of_abort {A : Type} (server : ServerThreads) {program : ServerM A}
    (aborts : ¬ Runs program server.wrapper server.disk fun _ _ _ => True) : server.call program = none := by
  unfold call
  rw [result_eq_none_iff.mpr aborts]
  rfl

abbrev kv (server : ServerThreads) : KvStore := server.wrapper.toKvStore

def withKv (server : ServerThreads) (kv : KvStore) : ServerThreads :=
  { server with wrapper := { server.wrapper with toKvStore := kv } }

theorem apply_eq (server : ServerThreads) (write : Write) :
    server.apply write = some (server.withKv (write.apply server.kv)) := by
  cases write <;> rfl

def CanMake (server : ServerThreads) : Prop :=
  server.wrapper.snapshotid ≠ -1 ∧ server.wrapper.isSnapshot = false

instance (server : ServerThreads) : Decidable server.CanMake := inferInstanceAs (Decidable (_ ∧ _))

def claimed (wrapper : RocksdbWrapper) : RocksdbWrapper := { wrapper with isSnapshot := true }

def frozen (wrapper : RocksdbWrapper) : RocksdbWrapper :=
  { wrapper with
    latestSpPtr := some wrapper.db
    latestSnapshotDeletedSet := wrapper.latestSnapshotDeletedSet.assign wrapper.deletedSet }

theorem call_claimSnapshot (server : ServerThreads) {tmpsnapshotid : Int} (nonneg : 0 ≤ tmpsnapshotid) :
    server.call (claimSnapshot tmpsnapshotid) =
      if server.CanMake then some (true, { server with wrapper := claimed server.wrapper })
      else some (false, server) := by
  have runs : Runs (claimSnapshot tmpsnapshotid) server.wrapper server.disk fun made wrapper disk =>
      disk = server.disk ∧ (if server.CanMake then made = true ∧ wrapper = claimed server.wrapper
        else made = false ∧ wrapper = server.wrapper) := by
    unfold claimSnapshot CanMake
    by_cases started : server.wrapper.snapshotid = -1
    · simp [nonneg, started]
    · by_cases busy : server.wrapper.isSnapshot = true <;> simp [nonneg, started, busy, claimed]
  obtain ⟨made, wrapper, disk, ran, rfl, outcome⟩ := runs
  rw [server.call_of_result ran]
  split <;> rename_i can
  · rw [if_pos can] at outcome
    rw [outcome.1, outcome.2]
  · rw [if_neg can] at outcome
    rw [outcome.1, outcome.2]

theorem call_takeSnapshot (server : ServerThreads) :
    ∃ disk, server.call takeSnapshot =
      some ((), { server with wrapper := frozen server.wrapper, disk := disk }) := by
  have runs : Runs takeSnapshot server.wrapper server.disk
      fun _ wrapper _ => wrapper = frozen server.wrapper := by
    unfold takeSnapshot
    simp [frozen]
  obtain ⟨_, wrapper, disk, ran, rfl⟩ := runs
  exact ⟨disk, server.call_of_result ran⟩

/-- `make_snapshot` never aborts. It freezes the store, or does nothing at all. -/
theorem call_makeSnapshot (server : ServerThreads) {tmpsnapshotid : Int} (nonneg : 0 ≤ tmpsnapshotid) :
    ∃ disk, server.call (makeSnapshot tmpsnapshotid) =
      if server.CanMake then some (true, { server with wrapper := frozen (claimed server.wrapper), disk := disk })
      else some (false, server) := by
  have runs : Runs (makeSnapshot tmpsnapshotid) server.wrapper server.disk fun made wrapper disk =>
      if server.CanMake then made = true ∧ wrapper = frozen (claimed server.wrapper)
      else made = false ∧ wrapper = server.wrapper ∧ disk = server.disk := by
    unfold makeSnapshot claimSnapshot takeSnapshot CanMake
    by_cases started : server.wrapper.snapshotid = -1
    · simp [nonneg, started]
    · by_cases busy : server.wrapper.isSnapshot = true <;> simp [nonneg, started, busy, frozen, claimed]
  obtain ⟨made, wrapper, disk, ran, outcome⟩ := runs
  refine ⟨disk, ?_⟩
  rw [server.call_of_result ran]
  split <;> rename_i can
  · rw [if_pos can] at outcome
    rw [outcome.1, outcome.2]
  · rw [if_neg can] at outcome
    rw [outcome.1, outcome.2.1, outcome.2.2]

end ServerThreads

end FarReach
