import Mathlib

namespace Crash

/-- What a run of a program shows: the disks a crash could leave behind after each of its file
operations, and its result with the final memory and disk, or `none` if it aborts. -/
structure Outcome (M D A : Type) where
  crashes : List D
  result : Option (A × M × D)

/-- What is left behind: an abort takes the memory, and leaves the disk of the last file operation. -/
def Outcome.left {M D A : Type} (outcome : Outcome M D A) (disk : D) : Option M × D :=
  match outcome.result with
  | some (_, memory', disk') => (some memory', disk')
  | none => (none, outcome.crashes.getLast?.getD disk)

/-- A program over a volatile memory and a disk that survives crashes. -/
def Program (M D A : Type) : Type := M → D → Outcome M D A

namespace Program

variable {M D A B : Type}

def andThen (program : Program M D A) (next : A → Program M D B) : Program M D B := fun memory disk =>
  match (program memory disk).result with
  | none => ⟨(program memory disk).crashes, none⟩
  | some (value, memory', disk') =>
    ⟨(program memory disk).crashes ++ (next value memory' disk').crashes, (next value memory' disk').result⟩

instance : Monad (Program M D) where
  pure value := fun memory disk => ⟨[], some (value, memory, disk)⟩
  bind := andThen

def abort : Program M D A := fun _ _ => ⟨[], none⟩

def check (condition : Bool) : Program M D Unit := if condition then pure () else abort

def getMemory : Program M D M := fun memory disk => ⟨[], some (memory, memory, disk)⟩

def modifyMemory (update : M → M) : Program M D Unit := fun memory disk => ⟨[], some ((), update memory, disk)⟩

def getDisk : Program M D D := fun memory disk => ⟨[], some (disk, memory, disk)⟩

def fileOp (update : D → D) : Program M D Unit := fun memory disk =>
  ⟨[update disk], some ((), memory, update disk)⟩

/-- Every disk a crash during the program, or just before it, can leave behind. -/
def crashPoints (program : Program M D A) (memory : M) (disk : D) : List D :=
  disk :: (program memory disk).crashes

/-- The disk that a crash behind the first `point` file operations leaves, or behind all of them if there are fewer.
-/
def crashedAt (program : Program M D A) (memory : M) (disk : D) (point : Nat) : D :=
  ((program memory disk).crashes.take point).getLastD disk

/-- Weakest precondition: `crash` holds of the disk after every file operation, and `post` of the
result, if there is one. -/
def wp (program : Program M D A) (memory : M) (disk : D) (post : A → M → D → Prop) (crash : D → Prop) : Prop :=
  (∀ left ∈ (program memory disk).crashes, crash left) ∧
    ∀ value memory' disk', (program memory disk).result = some (value, memory', disk') → post value memory' disk'

variable {memory : M} {disk : D} {post : A → M → D → Prop} {crash : D → Prop}

theorem wp_of_outcome {program : Program M D A} {crashes : List D} {value : A} {memory' : M} {disk' : D}
    (ran : program memory disk = ⟨crashes, some (value, memory', disk')⟩) :
    wp program memory disk post crash ↔ (∀ left ∈ crashes, crash left) ∧ post value memory' disk' := by
  unfold wp
  rw [ran]
  refine and_congr_right fun _ => ⟨fun posts => posts value memory' disk' rfl, ?_⟩
  intro holds value' memory'' disk'' same
  cases same
  exact holds

@[simp] theorem wp_pure (value : A) :
    wp (pure value : Program M D A) memory disk post crash ↔ post value memory disk := by
  rw [wp_of_outcome rfl]
  simp

@[simp] theorem wp_bind (program : Program M D B) (next : B → Program M D A) :
    wp (program >>= next) memory disk post crash ↔
      wp program memory disk (fun value memory' disk' => wp (next value) memory' disk' post crash) crash := by
  unfold wp
  change (∀ left ∈ (andThen program next memory disk).crashes, crash left) ∧
    (∀ value memory' disk', (andThen program next memory disk).result = some (value, memory', disk') → _) ↔ _
  unfold andThen
  cases ran : (program memory disk).result with
  | none => simp
  | some final =>
    obtain ⟨value, memory', disk'⟩ := final
    simp only [List.mem_append, Option.some.injEq, Prod.mk.injEq, and_imp]
    constructor
    · rintro ⟨crashes, posts⟩
      refine ⟨fun left member => crashes left (Or.inl member), ?_⟩
      rintro _ _ _ rfl rfl rfl
      exact ⟨fun left member => crashes left (Or.inr member), posts⟩
    · rintro ⟨crashes, rest⟩
      obtain ⟨later, posts⟩ := rest value memory' disk' rfl rfl rfl
      exact ⟨fun left member => member.elim (crashes left) (later left), posts⟩

theorem wp.mono {program : Program M D A} {stronger : A → M → D → Prop}
    (spec : wp program memory disk stronger crash)
    (implies : ∀ value memory' disk', stronger value memory' disk' → post value memory' disk') :
    wp program memory disk post crash :=
  ⟨spec.1, fun value memory' disk' ran => implies value memory' disk' (spec.2 value memory' disk' ran)⟩

@[simp] theorem wp_ite (condition : Prop) [Decidable condition] (yes no : Program M D A) :
    wp (if condition then yes else no) memory disk post crash ↔
      if condition then wp yes memory disk post crash else wp no memory disk post crash := by
  split <;> rfl

@[simp] theorem wp_abort : wp (abort : Program M D A) memory disk post crash ↔ True := by
  simp [wp, abort]

@[simp] theorem wp_getMemory {post : M → M → D → Prop} :
    wp (getMemory : Program M D M) memory disk post crash ↔ post memory memory disk := by
  rw [wp_of_outcome rfl]
  simp

@[simp] theorem wp_getDisk {post : D → M → D → Prop} :
    wp (getDisk : Program M D D) memory disk post crash ↔ post disk memory disk := by
  rw [wp_of_outcome rfl]
  simp

@[simp] theorem wp_modifyMemory {post : Unit → M → D → Prop} (update : M → M) :
    wp (modifyMemory update : Program M D Unit) memory disk post crash ↔ post () (update memory) disk := by
  rw [wp_of_outcome rfl]
  simp

@[simp] theorem wp_fileOp {post : Unit → M → D → Prop} (update : D → D) :
    wp (fileOp update : Program M D Unit) memory disk post crash ↔
      crash (update disk) ∧ post () memory (update disk) := by
  rw [wp_of_outcome rfl]
  simp

@[simp] theorem wp_check {post : Unit → M → D → Prop} (condition : Bool) :
    wp (check condition : Program M D Unit) memory disk post crash ↔
      (condition = true → post () memory disk) := by
  unfold check
  cases condition <;> simp

theorem left_of_abort {program : Program M D A} (aborted : (program memory disk).result = none) :
    ((program memory disk).left disk).1 = none := by
  simp [Outcome.left, aborted]

theorem wp.left {program : Program M D A} (spec : wp program memory disk post crash)
    (completed : (program memory disk).result ≠ none) :
    ∃ value memory', ((program memory disk).left disk).1 = some memory' ∧
      post value memory' ((program memory disk).left disk).2 := by
  cases ran : (program memory disk).result with
  | none => exact absurd ran completed
  | some final =>
    obtain ⟨value, memory', disk'⟩ := final
    refine ⟨value, memory', ?_, ?_⟩
    · simp [Outcome.left, ran]
    · simpa [Outcome.left, ran] using spec.2 value memory' disk' ran

/-- Total correctness: the program does not abort, and its result satisfies `post`. -/
def Runs (program : Program M D A) (memory : M) (disk : D) (post : A → M → D → Prop) : Prop :=
  ∃ value memory' disk', (program memory disk).result = some (value, memory', disk') ∧ post value memory' disk'

theorem runs_of_outcome {program : Program M D A} {crashes : List D} {value : A} {memory' : M} {disk' : D}
    (ran : program memory disk = ⟨crashes, some (value, memory', disk')⟩) :
    Runs program memory disk post ↔ post value memory' disk' := by
  unfold Runs
  rw [ran]
  constructor
  · rintro ⟨value', memory'', disk'', same, holds⟩
    cases same
    exact holds
  · exact fun holds => ⟨value, memory', disk', rfl, holds⟩

theorem result_eq_none_iff {program : Program M D A} :
    (program memory disk).result = none ↔ ¬ Runs program memory disk fun _ _ _ => True := by
  unfold Runs
  constructor
  · rintro aborted ⟨value, memory', disk', ran, _⟩
    cases aborted.symm.trans ran
  · intro never
    cases ran : (program memory disk).result with
    | none => rfl
    | some outcome => exact absurd ⟨outcome.1, outcome.2.1, outcome.2.2, ran, trivial⟩ never

theorem Runs.mono {program : Program M D A} {stronger : A → M → D → Prop}
    (runs : Runs program memory disk stronger)
    (implies : ∀ value memory' disk', stronger value memory' disk' → post value memory' disk') :
    Runs program memory disk post := by
  obtain ⟨value, memory', disk', ran, holds⟩ := runs
  exact ⟨value, memory', disk', ran, implies value memory' disk' holds⟩

/-- Facts established about the one result decide any further statement about it. -/
theorem runs_iff_of_runs {program : Program M D A} {facts : A → M → D → Prop} {claim : Prop}
    (runs : Runs program memory disk facts)
    (decides : ∀ value memory' disk', facts value memory' disk' → (post value memory' disk' ↔ claim)) :
    Runs program memory disk post ↔ claim := by
  obtain ⟨value, memory', disk', ran, holds⟩ := runs
  constructor
  · rintro ⟨_, _, _, ran', after⟩
    cases ran.symm.trans ran'
    exact (decides value memory' disk' holds).mp after
  · intro claimed
    exact ⟨value, memory', disk', ran, (decides value memory' disk' holds).mpr claimed⟩

@[simp] theorem runs_pure (value : A) :
    Runs (pure value : Program M D A) memory disk post ↔ post value memory disk :=
  runs_of_outcome rfl

@[simp] theorem runs_bind (program : Program M D B) (next : B → Program M D A) :
    Runs (program >>= next) memory disk post ↔
      Runs program memory disk fun value memory' disk' => Runs (next value) memory' disk' post := by
  unfold Runs
  change (∃ value memory' disk', (andThen program next memory disk).result = some (value, memory', disk') ∧ _) ↔ _
  unfold andThen
  cases ran : (program memory disk).result with
  | none => simp
  | some final =>
    obtain ⟨value, memory', disk'⟩ := final
    simp

@[simp] theorem runs_ite (condition : Prop) [Decidable condition] (yes no : Program M D A) :
    Runs (if condition then yes else no) memory disk post ↔
      if condition then Runs yes memory disk post else Runs no memory disk post := by
  split <;> rfl

@[simp] theorem runs_getMemory {post : M → M → D → Prop} :
    Runs (getMemory : Program M D M) memory disk post ↔ post memory memory disk :=
  runs_of_outcome rfl

@[simp] theorem runs_getDisk {post : D → M → D → Prop} :
    Runs (getDisk : Program M D D) memory disk post ↔ post disk memory disk :=
  runs_of_outcome rfl

@[simp] theorem runs_modifyMemory {post : Unit → M → D → Prop} (update : M → M) :
    Runs (modifyMemory update : Program M D Unit) memory disk post ↔ post () (update memory) disk :=
  runs_of_outcome rfl

@[simp] theorem runs_fileOp {post : Unit → M → D → Prop} (update : D → D) :
    Runs (fileOp update : Program M D Unit) memory disk post ↔ post () memory (update disk) :=
  runs_of_outcome rfl

@[simp] theorem runs_check {post : Unit → M → D → Prop} (condition : Bool) :
    Runs (check condition : Program M D Unit) memory disk post ↔ condition = true ∧ post () memory disk := by
  unfold check
  cases condition with
  | false => simp [Runs, abort]
  | true => simp

end Program

/-- A file is missing, was created or truncated and not yet written, or holds its content. -/
inductive File (A : Type) where
  | missing
  | empty
  | holds (content : A)
  deriving DecidableEq, Repr

def File.exists {A : Type} : File A → Bool
  | .missing => false
  | _ => true

@[simp] theorem File.exists_missing {A : Type} : (File.missing : File A).exists = false := rfl

@[simp] theorem File.exists_empty {A : Type} : (File.empty : File A).exists = true := rfl

@[simp] theorem File.exists_holds {A : Type} (content : A) : (File.holds content).exists = true := rfl

/-- The files of a disk; each path fixes the type of what is stored under it. -/
abbrev Disk (Path : Type) (Content : Path → Type) : Type := (path : Path) → File (Content path)

namespace Program

variable {M Path : Type} [DecidableEq Path] {Content : Path → Type}

/-- Open with truncation, then write: a crash in between leaves the file empty. -/
def store (path : Path) (content : Content path) : Program M (Disk Path Content) Unit := do
  fileOp (fun disk => Function.update disk path .empty)
  fileOp (fun disk => Function.update disk path (.holds content))

def remove (path : Path) : Program M (Disk Path Content) Unit :=
  fileOp (fun disk => Function.update disk path .missing)

/-- Remove a file that is already there, then create and write it. -/
def recreate (path : Path) (content : Content path) : Program M (Disk Path Content) Unit := do
  let disk ← getDisk
  if (disk path).exists then remove path
  store path content

variable {memory : M} {disk : Disk Path Content} {post : Unit → M → Disk Path Content → Prop}
  {crash : Disk Path Content → Prop}

@[simp] theorem wp_store (path : Path) (content : Content path) :
    wp (store path content) memory disk post crash ↔
      crash (Function.update disk path .empty) ∧ crash (Function.update disk path (.holds content)) ∧
        post () memory (Function.update disk path (.holds content)) := by
  simp [store]

/-- Recreating a file passes through its absence only if it was there. -/
theorem wp_recreate (path : Path) (content : Content path) :
    wp (recreate path content) memory disk post crash ↔
      ((disk path).exists = true → crash (Function.update disk path .missing)) ∧
        crash (Function.update disk path .empty) ∧ crash (Function.update disk path (.holds content)) ∧
        post () memory (Function.update disk path (.holds content)) := by
  by_cases there : (disk path).exists = true <;> simp [recreate, remove, there]

@[simp] theorem runs_store (path : Path) (content : Content path) :
    Runs (store path content) memory disk post ↔
      post () memory (Function.update disk path (.holds content)) := by
  simp [store]

@[simp] theorem runs_remove (path : Path) :
    Runs (remove path) memory disk post ↔ post () memory (Function.update disk path .missing) := by
  simp [remove]

@[simp] theorem runs_recreate (path : Path) (content : Content path) :
    Runs (recreate path content) memory disk post ↔
      post () memory (Function.update disk path (.holds content)) := by
  simp [recreate]

@[simp] theorem wp_remove (path : Path) :
    wp (remove path) memory disk post crash ↔
      crash (Function.update disk path .missing) ∧ post () memory (Function.update disk path .missing) := by
  simp [remove]

end Program

end Crash
