import FarReach.Controller
import FarReach.Runs

namespace FarReach

open Crash Crash.Program Controller Function

/-- A controller that takes snapshots and crashes: its files, for every id the buffer that was last to be
stored under it, the id that was in the id file when the last update began (0 without a file), and the id
of that update. -/
structure ControllerFiles where
  controller : Controller
  disk : ControllerDisk
  contents : Int → SnapshotData
  stored : Int
  updated : Int

/-- An update with the data of a snapshot runs to its end, or the controller crashes behind as many of its
file operations as `point` says and is started again. -/
inductive UpdateEvent where
  | update (buf : SnapshotData)
  | crash (buf : SnapshotData) (point : Nat)

namespace ControllerFiles

def storedId (disk : ControllerDisk) : Int :=
  match disk .snapshotid with
  | .holds id => id
  | _ => 0

def given (files : ControllerFiles) (buf : SnapshotData) : Controller := { files.controller with databuf := buf }

def leave (files : ControllerFiles) (buf : SnapshotData) (controller : Controller) (left : ControllerDisk) :
    ControllerFiles where
  controller := controller
  disk := left
  contents := Function.update files.contents files.controller.snapshotid buf
  stored := storedId files.disk
  updated := files.controller.snapshotid

def step (files : ControllerFiles) : UpdateEvent → ControllerFiles
  | .update buf =>
    match (updateSnapshotid (files.given buf) files.disk).result with
    | none => files
    | some (_, controller, left) => files.leave buf controller left
  | .crash buf point =>
    let left := crashedAt updateSnapshotid (files.given buf) files.disk point
    files.leave buf (Controller.load left) left

/-- The id file, if there is one, holds an id, and the data file of that id holds what was stored under it. -/
def Complete (disk : ControllerDisk) (contents : Int → SnapshotData) : Prop :=
  disk .snapshotid = .missing ∨
    ∃ id : Int, disk .snapshotid = .holds id ∧ disk (.snapshotdata id) = .holds (contents id)

structure CrashSafe (files : ControllerFiles) : Prop where
  complete : Complete files.disk files.contents
  resumes : loadSnapshotid files.disk = files.stored + 1 ∨
    loadSnapshotid files.disk = files.updated + 1

/-- The operations before it are the opening and the writing of the data file and the opening of the id
file. -/
def tornPoint : Nat := 3

/-- The crash does not fall between the opening and the writing of the id file. -/
def NotTorn (_ : ControllerFiles) : UpdateEvent → Prop
  | .update _ => True
  | .crash _ point => point ≠ tornPoint

section Update

variable (controller : Controller) (disk : ControllerDisk)

def withData : ControllerDisk :=
  Function.update disk (.snapshotdata controller.snapshotid) (.holds controller.databuf)

def withId : ControllerDisk := Function.update (withData controller disk) .snapshotid (.holds controller.snapshotid)

def withoutOld : ControllerDisk :=
  Function.update (withId controller disk) (.snapshotdata (controller.snapshotid - 1)) .missing

/-- The disks an update passes through, and what it leaves. -/
theorem updateSnapshotid_eq :
    updateSnapshotid controller disk =
      ⟨[Function.update disk (.snapshotdata controller.snapshotid) .empty, withData controller disk,
            Function.update (withData controller disk) .snapshotid .empty, withId controller disk] ++
          if controller.snapshotid - 1 > 0 then [withoutOld controller disk] else [],
        some ((), { controller with snapshotid := controller.snapshotid + 1 },
          if controller.snapshotid - 1 > 0 then withoutOld controller disk else withId controller disk)⟩ := by
  have data : Function.update (Function.update disk (.snapshotdata controller.snapshotid) .empty)
      (.snapshotdata controller.snapshotid) (.holds controller.databuf) = withData controller disk :=
    update_idem ..
  have id : Function.update (Function.update (withData controller disk) .snapshotid .empty) .snapshotid
      (.holds controller.snapshotid) = withId controller disk :=
    update_idem ..
  unfold updateSnapshotid
  by_cases old : controller.snapshotid - 1 > 0
  · simp only [bind, andThen, getMemory, store, fileOp, modifyMemory, data, id]
    rw [if_pos old, if_pos old, if_pos old]
    rfl
  · simp only [bind, andThen, getMemory, store, fileOp, modifyMemory, data, id]
    rw [if_neg old, if_neg old, if_neg old]
    rfl

end Update

section Disks

variable {controller : Controller} {disk left : ControllerDisk} {contents : Int → SnapshotData}

theorem storedId_of_complete (complete : Complete disk contents)
    (running : controller.snapshotid = loadSnapshotid disk) :
    controller.snapshotid = storedId disk + 1 := by
  rcases complete with missing | ⟨id, holds, _⟩
  · simp [running, loadSnapshotid, storedId, missing]
  · simp [running, loadSnapshotid, storedId, holds]

/-- The files are complete, and a controller started on them goes on behind the snapshot before the update
or behind the new one. -/
def Leaves (controller : Controller) (disk : ControllerDisk) (contents : Int → SnapshotData) (left : ControllerDisk) :
    Prop :=
  Complete left (Function.update contents controller.snapshotid controller.databuf) ∧
    (loadSnapshotid left = storedId disk + 1 ∨
      loadSnapshotid left = controller.snapshotid + 1)

theorem leaves_of_untouched (complete : Complete disk contents)
    (running : controller.snapshotid = loadSnapshotid disk) (sameId : left .snapshotid = disk .snapshotid)
    (sameData : ∀ id, id ≠ controller.snapshotid → left (.snapshotdata id) = disk (.snapshotdata id)) :
    Leaves controller disk contents left := by
  have next := storedId_of_complete complete running
  constructor
  · rcases complete with missing | ⟨id, holds, data⟩
    · exact Or.inl (sameId.trans missing)
    · have older : id ≠ controller.snapshotid := by
        have stored : storedId disk = id := by simp [storedId, holds]
        omega
      refine Or.inr ⟨id, sameId.trans holds, ?_⟩
      rw [sameData id older, data, update_of_ne older]
  · left
    rw [← next, running]
    unfold loadSnapshotid
    rw [sameId]

theorem leaves_of_renewed (newId : left .snapshotid = .holds controller.snapshotid)
    (newData : left (.snapshotdata controller.snapshotid) = .holds controller.databuf) :
    Leaves controller disk contents left := by
  refine ⟨Or.inr ⟨controller.snapshotid, newId, ?_⟩, Or.inr ?_⟩
  · rw [newData, update_self]
  · simp [loadSnapshotid, newId]

theorem leaves_withId : Leaves controller disk contents (withId controller disk) := by
  refine leaves_of_renewed (update_self ..) ?_
  rw [withId, update_of_ne (by simp), withData, update_self]

theorem leaves_withoutOld : Leaves controller disk contents (withoutOld controller disk) := by
  have other : ControllerPath.snapshotdata controller.snapshotid ≠ .snapshotdata (controller.snapshotid - 1) := by
    simp only [ne_eq, ControllerPath.snapshotdata.injEq]
    omega
  refine leaves_of_renewed ?_ ?_
  · rw [withoutOld, update_of_ne (by simp), withId, update_self]
  · rw [withoutOld, update_of_ne other, withId, update_of_ne (by simp), withData,
      update_self]

theorem leaves_data (complete : Complete disk contents)
    (running : controller.snapshotid = loadSnapshotid disk) (file : File SnapshotData) :
    Leaves controller disk contents (Function.update disk (.snapshotdata controller.snapshotid) file) := by
  refine leaves_of_untouched complete running (update_of_ne (by simp) ..) fun id older => ?_
  exact update_of_ne (by simpa using older) ..

/-- Behind every number of file operations but one, the files are those of the snapshot before or of the
new one. -/
theorem leaves_crashPoint (complete : Complete disk contents)
    (running : controller.snapshotid = loadSnapshotid disk) {point : Nat} (whole : point ≠ tornPoint) :
    Leaves controller disk contents (crashedAt updateSnapshotid controller disk point) := by
  unfold crashedAt
  rw [updateSnapshotid_eq]
  match point with
  | 0 => exact leaves_of_untouched complete running rfl fun _ _ => rfl
  | 1 => exact leaves_data complete running .empty
  | 2 => exact leaves_data complete running _
  | 3 => exact absurd rfl whole
  | 4 => exact leaves_withId
  | later + 5 =>
    by_cases old : controller.snapshotid - 1 > 0
    · simp only [if_pos old, List.cons_append, List.nil_append, List.take_succ_cons, List.take_nil]
      exact leaves_withoutOld
    · simp only [if_neg old, List.append_nil, List.take_succ_cons, List.take_nil]
      exact leaves_withId

theorem tornPoint_empty :
    crashedAt updateSnapshotid controller disk tornPoint .snapshotid = .empty := by
  unfold crashedAt tornPoint
  rw [updateSnapshotid_eq]
  change Function.update (withData controller disk) .snapshotid .empty .snapshotid = .empty
  exact update_self ..

theorem not_complete_of_empty (torn : disk .snapshotid = .empty) : ¬ Complete disk contents := by
  rintro (missing | ⟨id, holds, _⟩)
  · cases torn.symm.trans missing
  · cases torn.symm.trans holds

end Disks

/-- The files are safe, and the controller runs with the id behind the one in its file. -/
def Running (files : ControllerFiles) : Prop :=
  files.CrashSafe ∧ files.controller.snapshotid = loadSnapshotid files.disk

theorem running_leave {files : ControllerFiles} {buf : SnapshotData} {controller : Controller} {left : ControllerDisk}
    (leaves : Leaves (files.given buf) files.disk files.contents left)
    (running : controller.snapshotid = loadSnapshotid left) : (files.leave buf controller left).Running :=
  ⟨⟨leaves.1, leaves.2⟩, running⟩

/-- One update, whether it ends or is cut off, keeps the files safe unless it is cut off between the opening
and the writing of the id file. -/
theorem step_running (files : ControllerFiles) (event : UpdateEvent) (running : files.Running)
    (whole : files.NotTorn event) : (files.step event).Running := by
  obtain ⟨safe, next⟩ := running
  cases event with
  | update buf =>
    simp only [step, updateSnapshotid_eq]
    by_cases old : (files.given buf).snapshotid - 1 > 0
    · rw [if_pos old]
      refine running_leave leaves_withoutOld ?_
      simp [loadSnapshotid, withoutOld, withId]
    · rw [if_neg old]
      refine running_leave leaves_withId ?_
      simp [loadSnapshotid, withId]
  | crash buf point =>
    have given : (files.given buf).snapshotid = loadSnapshotid files.disk := next
    exact running_leave (leaves_crashPoint safe.complete given whole) rfl

theorem notTorn_of_step (files : ControllerFiles) (event : UpdateEvent) (safe : (files.step event).CrashSafe) :
    files.NotTorn event := by
  cases event with
  | update buf => trivial
  | crash buf point =>
    intro torn
    subst torn
    exact not_complete_of_empty tornPoint_empty safe.complete

/-- Throughout a run of updates, crashes and restarts the id file, if there is one, names a snapshot whose
data is complete, and a restart goes on behind the old or the new id, exactly if no crash falls between the
opening and the writing of the id file. -/
theorem controllerFiles_safe_iff (files : ControllerFiles) (safe : files.CrashSafe)
    (next : files.controller.snapshotid = loadSnapshotid files.disk) (events : List UpdateEvent) :
    Runs.Always step CrashSafe files events ↔ Runs.AllAllowed step NotTorn files events :=
  Runs.always_iff_allAllowed (fun _ running => running.1) step_running
    (fun files event _ => notTorn_of_step files event) events ⟨safe, next⟩

def fresh : ControllerFiles := ⟨⟨1, .cleanup, []⟩, fun _ => .missing, fun _ => [], 0, 0⟩

/-- Crashes behind the data file, behind the id file and behind the last operation. -/
theorem controllerFiles_safe_iff_crashes :
    let first : SnapshotData := [(0, [⟨⟨1, 0, 0, 0⟩, [7], 3, true⟩])]
    let second : SnapshotData := [(0, [⟨⟨1, 0, 0, 0⟩, [8], 4, true⟩]), (1, [⟨⟨2, 0, 0, 0⟩, [9], 5, true⟩])]
    Runs.Always step CrashSafe fresh [.update first, .crash second 2, .update second, .crash first 4,
      .crash second 9] :=
  (controllerFiles_safe_iff fresh ⟨Or.inl rfl, Or.inl rfl⟩ rfl _).mpr
    ⟨trivial, by unfold NotTorn; decide, trivial, by unfold NotTorn; decide, by unfold NotTorn; decide, trivial⟩

/-- The third update is cut off with an empty id file. The controller then goes on with 2, an id that was
stored before. -/
theorem torn_id_file_restarts :
    ∃ files, files = [UpdateEvent.update [], .update [], .crash [] 3].foldl step fresh ∧
      files.stored = 2 ∧ files.updated = 3 ∧ files.disk .snapshotid = .empty ∧
      loadSnapshotid files.disk = 2 ∧ ¬ files.CrashSafe := by
  refine ⟨_, rfl, rfl, rfl, rfl, rfl, ?_⟩
  intro safe
  exact not_complete_of_empty rfl safe.complete

end ControllerFiles

end FarReach
