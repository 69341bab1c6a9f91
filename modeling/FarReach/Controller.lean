import FarReach.ServerThreads

namespace FarReach

open Crash Crash.Program

/-- The in-switch snapshot as `SNAPSHOT_GETDATA_ACK` brings it: for each server its records. -/
abbrev SnapshotData := List (Nat × List (Key × SnapshotRecord))

inductive ControllerPath where
  | snapshotid
  | snapshotdata (id : Int)
  deriving DecidableEq, Repr

@[reducible] def ControllerPath.Content : ControllerPath → Type
  | snapshotid => Int
  | snapshotdata _ => SnapshotData

abbrev ControllerDisk := Disk ControllerPath ControllerPath.Content

/-- The snapshot client of the controller, with the request it is waiting for. -/
structure Controller where
  snapshotid : Int
  phase : ControlType
  databuf : SnapshotData

namespace Controller

/-- `controller_load_snapshotid`. Reading an empty file leaves the id as it was initialised. -/
def loadSnapshotid (disk : ControllerDisk) : Int :=
  match disk .snapshotid with
  | .missing => 1
  | .empty => 1 + 1
  | .holds id => id + 1

def load (disk : ControllerDisk) : Controller := ⟨loadSnapshotid disk, .cleanup, []⟩

def updateSnapshotid : Program Controller ControllerDisk Unit := do
  let controller ← getMemory
  store (.snapshotdata controller.snapshotid) controller.databuf
  store .snapshotid controller.snapshotid
  (if controller.snapshotid - 1 > 0 then Program.remove (.snapshotdata (controller.snapshotid - 1)) else pure ())
  modifyMemory fun controller => { controller with snapshotid := controller.snapshotid + 1 }

theorem load_fresh (disk : ControllerDisk) : disk .snapshotid ≠ .holds (load disk).snapshotid := by
  unfold load loadSnapshotid
  cases found : disk .snapshotid with
  | missing => simp
  | empty => simp
  | holds id => simp

theorem runs_updateSnapshotid (controller : Controller) (disk : ControllerDisk) :
    Runs updateSnapshotid controller disk fun _ after left =>
      after.snapshotid = controller.snapshotid + 1 ∧ left .snapshotid = .holds controller.snapshotid := by
  unfold updateSnapshotid
  simp [Function.update]

end Controller

end FarReach
