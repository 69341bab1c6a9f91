import FarReach.OpenServer

namespace FarReach

open Crash Crash.Program RocksdbWrapper

/-- A server process with the disk it works on. -/
structure Server where
  wrapper : RocksdbWrapper
  disk : ServerDisk

def Server.loaded (db : Database) (dbseq maxseq : Nat) : Server := ⟨fresh db dbseq maxseq, fun _ => .missing⟩

/-- The states a server goes through when all its calls are `allowed`. A call completes, or the
process dies during a call and is started again; the database keeps its completed writes, and
`maxseq` starts out uninitialised. -/
inductive Server.Reached (allowed : Call → RocksdbWrapper → Prop) : Server → Prop where
  | loaded (db : Database) (dbseq maxseq : Nat) : Reached allowed (Server.loaded db dbseq maxseq)
  | call {server : Server} {wrapper : RocksdbWrapper} {disk : ServerDisk} (call : Call)
      (reached : Reached allowed server) (ok : allowed call server.wrapper)
      (ran : (call.run server.wrapper server.disk).result = some ((), wrapper, disk)) :
      Reached allowed ⟨wrapper, disk⟩
  | crash {server : Server} {wrapper : RocksdbWrapper} {left disk : ServerDisk} {existing : Bool} (call : Call)
      (maxseq : Nat) (reached : Reached allowed server) (ok : allowed call server.wrapper)
      (crashed : left ∈ crashPoints call.run server.wrapper server.disk)
      (opened : (openServer true (fresh server.wrapper.db server.wrapper.dbseq maxseq) left).result =
        some (existing, wrapper, disk)) : Reached allowed ⟨wrapper, disk⟩

def Server.exec (server : Server) : List Call → Option Server
  | [] => some server
  | call :: rest =>
    match (call.run server.wrapper server.disk).result with
    | none => none
    | some (_, wrapper, disk) => Server.exec ⟨wrapper, disk⟩ rest

theorem Server.exec_reached {allowed : Call → RocksdbWrapper → Prop} {server final : Server} {calls : List Call}
    (reached : Server.Reached allowed server) (ok : ∀ call ∈ calls, ∀ wrapper, allowed call wrapper)
    (ran : server.exec calls = some final) : Server.Reached allowed final := by
  induction calls generalizing server with
  | nil =>
    cases ran
    exact reached
  | cons call rest ih =>
    unfold Server.exec at ran
    split at ran
    · cases ran
    · rename_i completed
      exact ih (.call call reached (ok call List.mem_cons_self _) completed)
        (fun later member => ok later (List.mem_cons_of_mem _ member)) ran

def Forward (call : Call) (wrapper : RocksdbWrapper) : Prop := ¬ call.RollsBack wrapper

theorem crashPoint_survives {call : Call} {server : Server} {left : ServerDisk}
    (consistent : Consistent server.wrapper server.disk) (forward : Forward call server.wrapper)
    (crashed : left ∈ crashPoints call.run server.wrapper server.disk) : Survives left := by
  rcases List.mem_cons.mp crashed with rfl | later
  · exact consistent.keeps.survives
  · exact (wp_call consistent forward).1 left later

theorem reached_consistent {server : Server} (reached : Server.Reached Forward server) :
    Consistent server.wrapper server.disk := by
  induction reached with
  | loaded db dbseq maxseq =>
    exact ⟨by simp [Server.loaded, fresh], ⟨by simp [Server.loaded], Or.inl rfl⟩, by simp [Server.loaded, fresh]⟩
  | call call _ forward ran consistent => exact (wp_call consistent forward).2 () _ _ ran
  | @crash server wrapper left disk existing call maxseq _ forward crashed opened consistent =>
    have survives := crashPoint_survives consistent forward crashed
    by_cases torn : left .snapshotid = .empty
    · exact (openServer_torn torn opened).elim
    · obtain ⟨_, _, _, opened', after⟩ := runs_openServer (survives torn) server.wrapper.db
        server.wrapper.dbseq maxseq
      cases opened.symm.trans opened'
      exact after

def NamesExistingFiles (disk : ServerDisk) : Prop :=
  ∀ id, disk .snapshotid = .holds id →
    (disk (.snapshotdbseq id)).exists = true ∧ (disk (.snapshotdeletedset id)).exists = true ∧
      (disk (.snapshotmaxseq id)).exists = true ∧ (disk (.inswitchsnapshot id)).exists = true

theorem Sound.namesExistingFiles {disk : ServerDisk} (sound : Sound disk) : NamesExistingFiles disk := by
  intro id named
  obtain ⟨id', _, missing | ⟨named', _, ⟨dbseq, ⟨pairs, deletedset⟩, maxseq⟩, records, inswitch⟩⟩ := sound
  · rw [missing] at named
    cases named
  · cases named.symm.trans named'
    exact ⟨dbseq, by rw [deletedset]; rfl, maxseq, by rw [inswitch]; rfl⟩

/-- As long as no call rolls back the current snapshot, whatever call a crash interrupts and after
whichever of its file operations, the id file names a complete snapshot and the next `open` gets
through; only a crash between truncating and writing the id file itself is left out. -/
theorem snapshot_files_survive_crash {server : Server} (reached : Server.Reached Forward server) {call : Call}
    (forward : Forward call server.wrapper) {left : ServerDisk}
    (crashed : left ∈ crashPoints call.run server.wrapper server.disk) (untorn : left .snapshotid ≠ .empty)
    (maxseq : Nat) :
    NamesExistingFiles left ∧
      Runs (openServer true) (fresh server.wrapper.db server.wrapper.dbseq maxseq) left fun _ _ _ => True := by
  have sound := crashPoint_survives (reached_consistent reached) forward crashed untorn
  exact ⟨sound.namesExistingFiles, (runs_openServer sound _ _ maxseq).mono fun _ _ _ _ => trivial⟩

/-- The second snapshot is being made when the process dies: the id file names the first one, and its
files are there. -/
theorem snapshot_files_survive_second_snapshot : ∃ (server : Server) (left : ServerDisk),
    left ∈ crashPoints (Call.makeSnapshot 2).run server.wrapper server.disk ∧
      left .snapshotid = .holds 1 ∧ left (.snapshotdbseq 2) = .empty ∧ NamesExistingFiles left := by
  have found : ((Server.loaded ∅ 0 0).exec [.initSnapshot, .makeSnapshot 1, .updateSnapshot ∅ 1, .stopSnapshot]).any
      (fun server => (crashPoints (Call.makeSnapshot 2).run server.wrapper server.disk).any fun left =>
        decide (left .snapshotid = .holds 1) && decide (left (.snapshotdbseq 2) = .empty)) = true := by
    decide
  obtain ⟨server, ran, found⟩ := (Option.any_eq_true _ _).mp found
  obtain ⟨left, crashed, found⟩ := List.any_eq_true.mp found
  simp only [Bool.and_eq_true, decide_eq_true_eq] at found
  have reached : Server.Reached Forward server :=
    Server.exec_reached (.loaded ∅ 0 0) (by simp [Forward, Call.RollsBack]) ran
  exact ⟨server, left, crashed, found.1, found.2,
    (snapshot_files_survive_crash reached (by simp [Forward, Call.RollsBack]) crashed (by simp [found.1]) 0).1⟩

/-- The first snapshot is taken and then rolled back; the process dies after the first file is
removed. The id file still names snapshot 1, whose files are going, and `open` aborts. -/
theorem rollback_crash_breaks_open : ∃ server left,
    Server.Reached (fun _ _ => True) server ∧
      left ∈ crashPoints (Call.cleanSnapshot 1).run server.wrapper server.disk ∧
      left .snapshotid = .holds 1 ∧ ¬ NamesExistingFiles left ∧
      (openServer true (fresh server.wrapper.db server.wrapper.dbseq 0) left).result.isNone = true := by
  have found : ((Server.loaded ∅ 0 0).exec [.initSnapshot, .makeSnapshot 1, .updateSnapshot ∅ 1]).any
      (fun server => (crashPoints (Call.cleanSnapshot 1).run server.wrapper server.disk).any fun left =>
        decide (left .snapshotid = .holds 1) && !(left (.snapshotdbseq 1)).exists &&
          (openServer true (fresh server.wrapper.db server.wrapper.dbseq 0) left).result.isNone) = true := by
    decide
  obtain ⟨server, ran, found⟩ := (Option.any_eq_true _ _).mp found
  obtain ⟨left, crashed, found⟩ := List.any_eq_true.mp found
  simp only [Bool.and_eq_true, decide_eq_true_eq, Bool.not_eq_true'] at found
  obtain ⟨⟨named, gone⟩, aborts⟩ := found
  refine ⟨server, left, Server.exec_reached (.loaded ∅ 0 0) (fun _ _ _ => trivial) ran, crashed, named, ?_, aborts⟩
  intro exist
  rw [(exist 1 named).1] at gone
  cases gone

end FarReach
