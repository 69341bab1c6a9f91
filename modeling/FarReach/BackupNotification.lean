import FarReach.Controller
import FarReach.Runs
import FarReach.SnapshotCrash

namespace FarReach

open Crash Crash.Program

/-- `SNAPSHOT_SENDDATA` for one server, with the number of the `SNAPSHOT_GETDATA_ACK` its records came with. -/
structure SentData where
  snapshotid : Int
  serveridx : Nat
  records : List (Key × SnapshotRecord)
  attempt : Nat

def SentData.inswitchSnapshot (records : List (Key × SnapshotRecord)) : Std.ExtTreeMap Key SnapshotRecord :=
  records.foldl (fun map record => map.insertIfNew record.1 record.2) ∅

/-- An upstream backup notification, with what the disks held when it was sent, and the data that each
server had been given last for each snapshot id. -/
structure Notification where
  snapshotid : Int
  attempt : Nat
  data : SnapshotData
  disk : ControllerDisk
  servers : Nat → ServerDisk
  given : Nat → Int → Option Nat

/-- The controller has stored the data of the snapshot and its id, or every server that owns records of it
has got them and stored them. -/
def Notification.Durable (notification : Notification) : Prop :=
  (notification.disk .snapshotid = .holds notification.snapshotid ∧
    notification.disk (.snapshotdata notification.snapshotid) = .holds notification.data) ∨
  ∀ entry ∈ notification.data, entry.2 ≠ [] →
    notification.servers entry.1 (.inswitchsnapshot notification.snapshotid) =
      .holds (SentData.inswitchSnapshot entry.2).toList ∧
    notification.given entry.1 notification.snapshotid = some notification.attempt

/-- A call of a server completes, or the process dies at one of its crash points and is started again. -/
inductive Ending where
  | completed
  | crashed (point maxseq : Nat)

def Server.ends (server : Server) (call : Call) : Ending → Option Server
  | .completed => (call.run server.wrapper server.disk).result.map fun (_, wrapper, disk) => ⟨wrapper, disk⟩
  | .crashed point maxseq => do
    let left ← (crashPoints call.run server.wrapper server.disk)[point]?
    let (_, wrapper, disk) ← (RocksdbWrapper.openServer true
      (.fresh server.wrapper.db server.wrapper.dbseq maxseq) left).result
    some ⟨wrapper, disk⟩

/-- The controller and the servers. `controller` is `none` while it is down; every message in `sent` may
arrive at any time, any number of times or never. -/
structure BackupRun where
  disk : ControllerDisk
  controller : Option Controller
  servers : Nat → Server
  given : Nat → Int → Option Nat
  sent : List SentData
  attempts : Nat
  notified : List Notification

/-- The controller is started, gets all acknowledgements of a phase, gets the data of the switch, stores the
snapshot or dies at a crash point of that, or dies at another time; a server completes a call or dies in it,
or handles one of the messages sent to it. -/
inductive BackupEvent where
  | load
  | acknowledged
  | getdataAck (data : SnapshotData)
  | update (crash : Option Nat)
  | crash
  | call (serveridx : Nat) (call : Call) (ending : Ending)
  | senddata (message : Nat) (ending : Ending)

namespace BackupRun

/-- A server index that is not valid is passed over with `SERVER_ROTATION`, and fails an `INVARIANT` without
it. -/
abbrev Accepted (rotation : Bool) (valid : List Nat) (data : SnapshotData) : Prop :=
  rotation = true ∨ ∀ entry ∈ data, entry.1 ∈ valid

/-- What `SNAPSHOT_GETDATA_ACK` makes the controller do. The notification of all records goes out at once, and
the data is sent to the valid servers behind it. -/
def getdata (rotation : Bool) (valid : List Nat) (run : BackupRun) (controller : Controller) (data : SnapshotData) :
    BackupRun :=
  if Accepted rotation valid data then
    { run with
      controller := some { controller with phase := .senddata, databuf := data }
      sent := run.sent ++ (data.filter (·.1 ∈ valid)).map fun entry =>
        ⟨controller.snapshotid, entry.1, entry.2, run.attempts⟩
      attempts := run.attempts + 1
      notified := run.notified ++ [⟨controller.snapshotid, run.attempts, data, run.disk,
        fun idx => (run.servers idx).disk, run.given⟩] }
  else { run with controller := none }

def store (run : BackupRun) (controller : Controller) : Option Nat → BackupRun
  | none =>
    match (Controller.updateSnapshotid controller run.disk).result with
    | none => run
    | some (_, after, disk) => { run with disk, controller := some { after with phase := .cleanup } }
  | some point =>
    match (crashPoints Controller.updateSnapshotid controller run.disk)[point]? with
    | none => run
    | some left => { run with disk := left, controller := none }

def stepController (rotation : Bool) (valid : List Nat) (run : BackupRun) (controller : Controller) :
    BackupEvent → BackupRun
  | .acknowledged =>
    if controller.phase = .getdata ∨ controller.phase = .senddata then run
    else
      { run with
        controller := some { controller with phase := (nextSignal (controller.phase, controller.snapshotid)).1 } }
  | .getdataAck data => if controller.phase = .getdata then run.getdata rotation valid controller data else run
  | .update crash => if controller.phase = .senddata then run.store controller crash else run
  | .crash => { run with controller := none }
  | _ => run

def handle (run : BackupRun) (message : SentData) (ending : Ending) : BackupRun :=
  match (run.servers message.serveridx).ends
      (.updateSnapshot (SentData.inswitchSnapshot message.records) message.snapshotid) ending with
  | none => run
  | some server =>
    { run with
      servers := Function.update run.servers message.serveridx server
      given := Function.update run.given message.serveridx
        (Function.update (run.given message.serveridx) message.snapshotid (some message.attempt)) }

def step (rotation : Bool) (valid : List Nat) (run : BackupRun) : BackupEvent → BackupRun
  | .load =>
    match run.controller with
    | none => { run with controller := some (Controller.load run.disk) }
    | some _ => run
  | .call _ (.updateSnapshot _ _) _ => run
  | .call idx call ending =>
    match (run.servers idx).ends call ending with
    | none => run
    | some server => { run with servers := Function.update run.servers idx server }
  | .senddata message ending =>
    match run.sent[message]? with
    | none => run
    | some message => run.handle message ending
  | event =>
    match run.controller with
    | none => run
    | some controller => run.stepController rotation valid controller event

def begin (disk : ControllerDisk) (servers : Nat → Server) : BackupRun :=
  ⟨disk, none, servers, fun _ _ => none, [], 0, []⟩

def Durable (run : BackupRun) : Prop := ∀ notification ∈ run.notified, notification.Durable

/-- The data that the switch sends back when the controller waits for it, and that the controller accepts, has
no records. -/
def Empty (rotation : Bool) (valid : List Nat) (run : BackupRun) : BackupEvent → Prop
  | .getdataAck data => ∀ controller, run.controller = some controller → controller.phase = .getdata →
    Accepted rotation valid data → ∀ entry ∈ data, entry.2 = []
  | _ => True

/-- Only data of earlier attempts is around, and the controller works on a snapshot it has not stored. -/
structure Inv (run : BackupRun) : Prop where
  durable : run.Durable
  sent : ∀ message ∈ run.sent, message.attempt < run.attempts
  given : ∀ idx id attempt, run.given idx id = some attempt → attempt < run.attempts
  unstored : ∀ controller, run.controller = some controller → run.disk .snapshotid ≠ .holds controller.snapshotid

variable {rotation : Bool} {valid : List Nat} {run : BackupRun} {controller : Controller}

theorem Inv.down (inv : run.Inv) (disk : ControllerDisk) : { run with disk, controller := none }.Inv :=
  ⟨inv.durable, inv.sent, inv.given, nofun⟩

theorem Inv.getdata (inv : run.Inv) {data : SnapshotData} (up : run.controller = some controller)
    (empty : Accepted rotation valid data → ∀ entry ∈ data, entry.2 = []) :
    (run.getdata rotation valid controller data).Inv := by
  unfold BackupRun.getdata
  split
  · rename_i known
    refine ⟨?_, ?_, fun idx id attempt got => (inv.given idx id attempt got).trans (Nat.lt_succ_self _), ?_⟩
    · intro notification member
      rcases List.mem_append.mp member with old | new
      · exact inv.durable notification old
      · cases List.mem_singleton.mp new
        exact Or.inr fun entry there records => absurd (empty known entry there) records
    · intro message member
      rcases List.mem_append.mp member with old | new
      · exact (inv.sent message old).trans (Nat.lt_succ_self _)
      · obtain ⟨entry, _, rfl⟩ := List.mem_map.mp new
        exact Nat.lt_succ_self _
    · intro after isUp
      cases isUp
      exact inv.unstored controller up
  · exact inv.down run.disk

theorem Inv.store (inv : run.Inv) (controller : Controller) (crash : Option Nat) :
    (run.store controller crash).Inv := by
  unfold BackupRun.store
  cases crash with
  | none =>
    obtain ⟨_, after, left, ran, next, stored⟩ := Controller.runs_updateSnapshotid controller run.disk
    rw [ran]
    refine ⟨inv.durable, inv.sent, inv.given, ?_⟩
    intro current isUp
    cases isUp
    show left .snapshotid ≠ .holds after.snapshotid
    rw [stored, next]
    simp
  | some point =>
    dsimp only
    split
    · exact inv
    · exact inv.down _

theorem Inv.handle (inv : run.Inv) {message : SentData} (bound : message.attempt < run.attempts) (ending : Ending) :
    (run.handle message ending).Inv := by
  unfold BackupRun.handle
  split
  · exact inv
  · refine ⟨inv.durable, inv.sent, ?_, inv.unstored⟩
    intro idx id attempt got
    dsimp only at got
    by_cases server : idx = message.serveridx
    · subst server
      rw [Function.update_self] at got
      by_cases same : id = message.snapshotid
      · subst same
        rw [Function.update_self] at got
        cases got
        exact bound
      · rw [Function.update_of_ne same] at got
        exact inv.given _ _ _ got
    · rw [Function.update_of_ne server] at got
      exact inv.given _ _ _ got

theorem Inv.servers (inv : run.Inv) (servers : Nat → Server) : { run with servers }.Inv :=
  ⟨inv.durable, inv.sent, inv.given, inv.unstored⟩

theorem Inv.stepController (inv : run.Inv) (up : run.controller = some controller) {event : BackupEvent}
    (empty : run.Empty rotation valid event) : (run.stepController rotation valid controller event).Inv := by
  cases event with
  | acknowledged =>
    unfold BackupRun.stepController
    dsimp only
    split
    · exact inv
    · refine ⟨inv.durable, inv.sent, inv.given, fun current isUp => ?_⟩
      cases isUp
      exact inv.unstored controller up
  | getdataAck data =>
    unfold BackupRun.stepController
    dsimp only
    split
    · rename_i phase
      exact inv.getdata up (empty controller up phase)
    · exact inv
  | update crash =>
    unfold BackupRun.stepController
    dsimp only
    split
    · exact inv.store controller crash
    · exact inv
  | crash => exact inv.down run.disk
  | load => exact inv
  | call idx call ending => exact inv
  | senddata message ending => exact inv

theorem Inv.step (inv : run.Inv) {event : BackupEvent} (empty : run.Empty rotation valid event) :
    (run.step rotation valid event).Inv := by
  have controls : ∀ event : BackupEvent, run.Empty rotation valid event →
      (match run.controller with
        | none => run
        | some controller => run.stepController rotation valid controller event).Inv := by
    intro event empty
    cases up : run.controller with
    | none => exact inv
    | some controller => exact inv.stepController up empty
  cases event with
  | load =>
    unfold BackupRun.step
    dsimp only
    split
    · refine ⟨inv.durable, inv.sent, inv.given, fun current isUp => ?_⟩
      cases isUp
      exact Controller.load_fresh run.disk
    · exact inv
  | call idx call ending =>
    cases call with
    | updateSnapshot map id => exact inv
    | _ =>
      unfold BackupRun.step
      dsimp only
      split
      · exact inv
      · exact inv.servers _
  | senddata message ending =>
    unfold BackupRun.step
    dsimp only
    split
    · exact inv
    · rename_i sent found
      exact inv.handle (inv.sent sent (List.mem_of_getElem? found)) ending
  | acknowledged => exact controls .acknowledged trivial
  | getdataAck data => exact controls (.getdataAck data) empty
  | update crash => exact controls (.update crash) trivial
  | crash => exact controls .crash trivial

/-- A notification of records is never durable when it is sent: nobody has got the data yet. -/
theorem empty_of_durable (inv : run.Inv) {event : BackupEvent}
    (durable : (run.step rotation valid event).Durable) : run.Empty rotation valid event := by
  cases event with
  | getdataAck data =>
    intro controller up phase known entry there
    by_contra records
    have sends : run.step rotation valid (.getdataAck data) = run.getdata rotation valid controller data := by
      unfold BackupRun.step
      dsimp only
      rw [up]
      dsimp only [BackupRun.stepController]
      rw [if_pos phase]
    rw [sends] at durable
    unfold BackupRun.getdata at durable
    rw [if_pos known] at durable
    rcases durable _ (List.mem_append_right _ (List.mem_singleton_self _)) with ⟨stored, _⟩ | owners
    · exact inv.unstored controller up stored
    · have got := (owners entry there records).2
      exact lt_irrefl _ (inv.given _ _ _ got)
  | _ => trivial

theorem inv_begin (disk : ControllerDisk) (servers : Nat → Server) : (begin disk servers).Inv :=
  ⟨nofun, nofun, nofun, nofun⟩

/-- Every notification is durable when it is sent exactly if none of them names a record. -/
theorem notification_durable_iff (rotation : Bool) (valid : List Nat) (disk : ControllerDisk) (servers : Nat → Server)
    (events : List BackupEvent) :
    Runs.Always (step rotation valid) Durable (begin disk servers) events ↔
      Runs.AllAllowed (step rotation valid) (Empty rotation valid) (begin disk servers) events :=
  Runs.always_iff_allAllowed (fun _ inv => inv.durable) (fun _ _ inv => inv.step)
    (fun _ _ inv => empty_of_durable inv) events (inv_begin disk servers)

/-- The first snapshot of a controller and one server that have stored nothing yet. -/
theorem notification_before_store :
    ¬ ∀ (rotation : Bool) (valid : List Nat) (disk : ControllerDisk) (servers : Nat → Server)
        (events : List BackupEvent),
      Runs.Always (step rotation valid) Durable (begin disk servers) events := by
  intro always
  have durable := (always true [0] (fun _ => .missing) (fun _ => .loaded ∅ 0 0)
    [.load, .acknowledged, .acknowledged, .acknowledged, .acknowledged,
      .getdataAck [(0, [(⟨1, 0, 0, 0⟩, ⟨[7], 5, true⟩)])]]).last
  rcases durable _ (List.mem_singleton_self _) with ⟨stored, _⟩ | owners
  · cases stored
  · have stored := (owners _ (List.mem_singleton_self _) (by simp)).1
    cases stored

end BackupRun

end FarReach
