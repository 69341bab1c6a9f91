import FarReach.SnapshotRedo

namespace FarReach

/-- What `snapshotdataserver` is doing: it waits for a message, works on the data of one, or has still to
clear `server_issnapshot`. -/
inductive DataStage where
  | free | parsing (snapshotid : Int) | finishing
  deriving DecidableEq, Repr

/-- The threads of a server, as the controller meets them. -/
structure ServerNode where
  threads : ServerThreads
  stage : DataStage

/-- What a server does between the requests of the controller. -/
inductive ServerEvent where
  | serve (delivery : Delivery)
  | update (inswitch : Std.ExtTreeMap Key SnapshotRecord)
  | finish

namespace ServerNode

def ready (node : ServerNode) (signal : Signal) : Bool := signal.1 ≠ .senddata || node.stage = .free

/-- The new state, and whether the request is acknowledged. `SNAPSHOT_SENDDATA` goes to
`snapshotdataserver`, everything else to `snapshotserver`. -/
def handle (node : ServerNode) (signal : Signal) : Option (ServerNode × Bool) :=
  if signal.1 = .senddata then
    (node.threads.senddataBegin signal).map fun (threads, ack) =>
      (⟨threads, if ack.isSome then .parsing signal.2 else node.stage⟩, ack.isSome)
  else (node.threads.snapshotserver signal).map fun (threads, ack) => (⟨threads, node.stage⟩, ack.isSome)

def advance (node : ServerNode) : ServerEvent → Option ServerNode
  | .serve delivery => (node.threads.deliver delivery).map fun threads => { node with threads }
  | .update inswitch =>
    match node.stage with
    | .parsing snapshotid =>
      (node.threads.senddataUpdate inswitch snapshotid).map fun threads => ⟨threads, .finishing⟩
    | _ => some node
  | .finish =>
    match node.stage with
    | .finishing => some ⟨node.threads.senddataFinish, .free⟩
    | _ => some node

/-- Nothing is newer than period `n`. -/
structure Within (n : Int) (threads : ServerThreads) : Prop where
  nonneg : 0 ≤ threads.view.snapshotid
  token : threads.view.snapshottoken ≤ n
  data : ∀ id, threads.dataSignal = some (.senddata, id) → id ≤ n

/-- Between the data of period `n` and the cleanup of the next one. -/
structure Idle (n : Int) (node : ServerNode) : Prop where
  within : Within n node.threads
  stage : node.stage = .free
  snapshotid : node.threads.view.snapshotid = n
  unprocessed : node.threads.view.issnapshot = false

def Waiting (threads : ServerThreads) : Prop := threads.view.isSnapshot = true ∧ threads.view.latest ≠ none

/-- Between the cleanup and the start of period `n`. -/
structure Cleaned (n : Int) (node : ServerNode) : Prop where
  within : Within n node.threads
  stage : node.stage = .free
  snapshotid : node.threads.view.snapshotid + 1 = n
  unprocessed : node.threads.view.issnapshot = false
  signal : node.threads.snapshotSignal = some (.cleanup, n)
  data : node.threads.dataSignal ≠ some (.senddata, n)
  taken : node.threads.view.isSnapshot = false ∧ node.threads.view.snapshottoken < n ∨ Waiting node.threads

/-- Between the start and the data of period `n`. -/
structure Started (n : Int) (node : ServerNode) : Prop where
  within : Within n node.threads
  stage : node.stage = .free
  snapshotid : node.threads.view.snapshotid + 1 = n
  signal : node.threads.snapshotSignal = some (.start, n)
  data : node.threads.dataSignal ≠ some (.senddata, n)
  waiting : Waiting node.threads

/-- The data of period `n` is being processed. -/
structure Receiving (n : Int) (node : ServerNode) : Prop where
  within : Within n node.threads
  stage : node.stage = .parsing n
  snapshotid : node.threads.view.snapshotid + 1 = n
  data : node.threads.dataSignal = some (.senddata, n)
  waiting : Waiting node.threads

/-- The snapshot of period `n` has been activated. -/
structure Updated (n : Int) (node : ServerNode) : Prop where
  within : Within n node.threads
  stage : node.stage = .finishing
  snapshotid : node.threads.view.snapshotid = n
  data : node.threads.dataSignal = some (.senddata, n)

def Sent (n : Int) (node : ServerNode) : Prop :=
  Receiving n node ∨ Updated n node ∨ Idle n node ∧ node.threads.dataSignal = some (.senddata, n)

/-- The last period was `n`, and its data may still be processed. -/
def Past (n : Int) (node : ServerNode) : Prop := Receiving n node ∨ Updated n node ∨ Idle n node

theorem Sent.past {n : Int} {node : ServerNode} (sent : Sent n node) : Past n node := by
  rcases sent with receiving | updated | ⟨idle, _⟩
  · exact Or.inl receiving
  · exact Or.inr (Or.inl updated)
  · exact Or.inr (Or.inr idle)

variable {n m : Int} {node : ServerNode} {threads after : ServerThreads}

section Deliveries

theorem Within.keeps (within : Within n threads) (keeps : threads.Keeps m after) (bound : m ≤ n) :
    Within n after := by
  refine ⟨by rw [keeps.snapshotid]; exact within.nonneg, ?_, by rw [keeps.dataSignal]; exact within.data⟩
  have token := within.token
  rcases keeps.view with same | ⟨_, _, carried, bounded, viewed⟩
  · rw [same]
    exact token
  · rw [viewed]
    show carried ≤ n
    omega

theorem Waiting.keeps (waiting : Waiting threads) (keeps : threads.Keeps m after) : Waiting after := by
  rcases keeps.view with same | ⟨_, can, _⟩
  · unfold Waiting
    rw [same]
    exact waiting
  · exact absurd can.2 (by simp [waiting.1])

theorem issnapshot_keeps (keeps : threads.Keeps m after) : after.view.issnapshot = threads.view.issnapshot := by
  rcases keeps.view with same | ⟨_, _, carried, _, viewed⟩
  · rw [same]
  · rw [viewed]
    rfl

theorem Idle.keeps (idle : Idle n node) (keeps : node.threads.Keeps m after) (bound : m ≤ n) :
    Idle n { node with threads := after } :=
  ⟨idle.within.keeps keeps bound, idle.stage, keeps.snapshotid.trans idle.snapshotid,
    (issnapshot_keeps keeps).trans idle.unprocessed⟩

theorem Cleaned.keeps (cleaned : Cleaned n node) (keeps : node.threads.Keeps m after) (bound : m ≤ n) :
    Cleaned n { node with threads := after } := by
  refine ⟨cleaned.within.keeps keeps bound, cleaned.stage, ?_, (issnapshot_keeps keeps).trans cleaned.unprocessed,
    keeps.snapshotSignal.trans cleaned.signal, ?_, ?_⟩
  · show after.view.snapshotid + 1 = n
    rw [keeps.snapshotid]
    exact cleaned.snapshotid
  · show after.dataSignal ≠ _
    rw [keeps.dataSignal]
    exact cleaned.data
  · rcases cleaned.taken with untaken | waiting
    · rcases keeps.view with same | ⟨_, _, carried, _, viewed⟩
      · left
        show after.view.isSnapshot = false ∧ after.view.snapshottoken < n
        rw [same]
        exact untaken
      · right
        show after.view.isSnapshot = true ∧ after.view.latest ≠ none
        rw [viewed]
        exact ⟨rfl, by simp [SnapshotView.make]⟩
    · exact Or.inr (waiting.keeps keeps)

theorem token_keeps (keeps : node.threads.Keeps m after) (older : node.threads.view.snapshottoken < n)
    (bound : m < n) :
    after.view.snapshottoken < n := by
  rcases keeps.view with same | ⟨_, _, carried, bounded, viewed⟩
  · rw [same]
    exact older
  · rw [viewed]
    show carried < n
    omega

theorem Started.keeps (started : Started n node) (keeps : node.threads.Keeps m after) (bound : m ≤ n) :
    Started n { node with threads := after } := by
  refine ⟨started.within.keeps keeps bound, started.stage, ?_, keeps.snapshotSignal.trans started.signal, ?_,
    started.waiting.keeps keeps⟩
  · show after.view.snapshotid + 1 = n
    rw [keeps.snapshotid]
    exact started.snapshotid
  · show after.dataSignal ≠ _
    rw [keeps.dataSignal]
    exact started.data

theorem Receiving.keeps (receiving : Receiving n node) (keeps : node.threads.Keeps m after) (bound : m ≤ n) :
    Receiving n { node with threads := after } := by
  refine ⟨receiving.within.keeps keeps bound, receiving.stage, ?_, keeps.dataSignal.trans receiving.data,
    receiving.waiting.keeps keeps⟩
  show after.view.snapshotid + 1 = n
  rw [keeps.snapshotid]
  exact receiving.snapshotid

theorem Updated.keeps (updated : Updated n node) (keeps : node.threads.Keeps m after) (bound : m ≤ n) :
    Updated n { node with threads := after } :=
  ⟨updated.within.keeps keeps bound, updated.stage, keeps.snapshotid.trans updated.snapshotid,
    keeps.dataSignal.trans updated.data⟩

end Deliveries

section Requests

/-- A cleanup of the period after `n - 1`, once the data of `n - 1` is in place, or of period `n` again. -/
theorem handle_cleanup (within : Within n node.threads) (stage : node.stage = .free)
    (next : node.threads.view.snapshotid + 1 = n) (older : node.threads.view.snapshottoken < n)
    (data : node.threads.dataSignal ≠ some (.senddata, n)) :
    ∃ after, node.handle (.cleanup, n) = some (after, true) ∧ Cleaned n after ∧
      after.threads.view.snapshottoken < n := by
  obtain ⟨cleaned, ran, signal, sameData, viewed, _, _⟩ := node.threads.view_cleanup within.nonneg
  rw [next] at ran signal
  refine ⟨⟨cleaned, node.stage⟩, by simp [handle, ran],
    ⟨⟨?_, ?_, ?_⟩, stage, ?_, ?_, signal, ?_, Or.inl ⟨?_, ?_⟩⟩, ?_⟩
  · rw [viewed]
    exact within.nonneg
  · rw [viewed]
    exact within.token
  · rw [sameData]
    exact within.data
  · rw [viewed]
    exact next
  · rw [viewed]
    rfl
  · rw [sameData]
    exact data
  · rw [viewed]
    rfl
  · rw [viewed]
    exact older
  · rw [viewed]
    exact older

theorem Idle.cleanup (idle : Idle n node) :
    ∃ after, node.handle (.cleanup, n + 1) = some (after, true) ∧ Cleaned (n + 1) after ∧
      after.threads.view.snapshottoken < n + 1 := by
  have token := idle.within.token
  have within : Within (n + 1) node.threads :=
    ⟨idle.within.nonneg, by omega, fun id seen => by have := idle.within.data id seen; omega⟩
  refine handle_cleanup within idle.stage (by rw [idle.snapshotid]) (by omega) fun seen => ?_
  have := idle.within.data _ seen
  omega

theorem Cleaned.start (cleaned : Cleaned n node) :
    ∃ after, node.handle (.start, n) = some (after, true) ∧ Started n after := by
  have next := cleaned.snapshotid
  have nonneg := cleaned.within.nonneg
  obtain ⟨started, ran, signal, steps⟩ := node.threads.view_start (by omega : 0 ≤ n)
    (by rw [cleaned.signal]; simp) cleaned.unprocessed
  have viewed := steps.viewed
  unfold SnapshotView.take at viewed
  refine ⟨⟨started, node.stage⟩, by simp [handle, ran], ⟨?_, ?_, ?_⟩, cleaned.stage, ?_, signal, ?_, ?_⟩
  · rw [viewed]
    split <;> exact nonneg
  · rw [viewed]
    split
    · exact le_refl n
    · exact cleaned.within.token
  · rw [steps.dataSignal]
    exact cleaned.within.data
  · rw [viewed]
    split <;> exact next
  · rw [steps.dataSignal]
    exact cleaned.data
  · unfold Waiting
    rw [viewed]
    rcases cleaned.taken with ⟨untaken, older⟩ | waiting
    · rw [if_pos ⟨older, by omega, untaken⟩]
      exact ⟨rfl, by simp [SnapshotView.make]⟩
    · rw [if_neg fun takes => absurd takes.2.2 (by simp [waiting.1])]
      exact waiting

theorem Started.again (started : Started n node) : node.handle (.start, n) = some (node, false) := by
  simp [handle, ServerThreads.snapshotserver, started.signal]

theorem Started.senddata (started : Started n node) :
    ∃ after, node.handle (.senddata, n) = some (after, true) ∧ Receiving n after := by
  refine ⟨⟨{ node.threads with dataSignal := some (.senddata, n), issnapshot := true }, .parsing n⟩,
    by simp [handle, ServerThreads.senddataBegin, started.data],
    ⟨started.within.nonneg, started.within.token, ?_⟩, rfl, started.snapshotid, rfl, started.waiting⟩
  intro id seen
  cases seen
  exact le_refl n

theorem senddata_again (data : node.threads.dataSignal = some (.senddata, n)) :
    node.handle (.senddata, n) = some (node, false) := by
  simp [handle, ServerThreads.senddataBegin, data]

theorem Receiving.update (receiving : Receiving n node) (inswitch : Std.ExtTreeMap Key SnapshotRecord) :
    ∃ after, node.advance (.update inswitch) = some after ∧ Updated n after := by
  obtain ⟨updated, ran, _, data, viewed, _⟩ := node.threads.view_senddataUpdate inswitch receiving.waiting.2
  have next := receiving.snapshotid
  have nonneg := receiving.within.nonneg
  rw [next] at ran
  refine ⟨⟨updated, .finishing⟩, by simp [advance, receiving.stage, ran], ⟨?_, ?_, ?_⟩, rfl, ?_,
    data.trans receiving.data⟩
  · rw [viewed]
    show 0 ≤ node.threads.view.snapshotid + 1
    omega
  · rw [viewed]
    exact receiving.within.token
  · rw [data]
    exact receiving.within.data
  · rw [viewed]
    exact next

theorem Updated.finish (updated : Updated n node) :
    node.advance .finish = some ⟨node.threads.senddataFinish, .free⟩ ∧ Idle n ⟨node.threads.senddataFinish, .free⟩ ∧
      node.threads.senddataFinish.dataSignal = some (.senddata, n) :=
  ⟨by simp [advance, updated.stage], ⟨⟨updated.within.nonneg, updated.within.token, updated.within.data⟩, rfl,
    updated.snapshotid, rfl⟩, updated.data⟩

end Requests

/-- What a server does between requests of period `n`: its own steps, and packets that are at most as new as
`m`. -/
def Fits (m : Int) (node : ServerNode) : ServerEvent → Prop
  | .serve delivery => node.threads.Allows m delivery
  | _ => True

/-- A delivery goes through, and is one of those a server knows. -/
theorem advance_serve {delivery : Delivery} (allowed : node.threads.Allows m delivery) :
    ∃ after, node.advance (.serve delivery) = some { node with threads := after } ∧ node.threads.Keeps m after := by
  obtain ⟨after, ran⟩ := Option.ne_none_iff_exists'.mp (node.threads.alive m delivery allowed)
  exact ⟨after, by simp [advance, ran], ServerThreads.Delivers.keeps ⟨delivery, allowed, ran⟩⟩

theorem advance_free (free : node.stage = .free) {event : ServerEvent} (fits : node.Fits m event) :
    ∃ after, node.advance event = some { node with threads := after } ∧
      (after = node.threads ∨ node.threads.Keeps m after) := by
  cases event with
  | serve delivery =>
    obtain ⟨after, ran, keeps⟩ := advance_serve fits
    exact ⟨after, ran, Or.inr keeps⟩
  | update inswitch =>
    have still : node.advance (.update inswitch) = some node := by simp [advance, free]
    exact ⟨node.threads, still, Or.inl rfl⟩
  | finish =>
    have still : node.advance .finish = some node := by simp [advance, free]
    exact ⟨node.threads, still, Or.inl rfl⟩

theorem Cleaned.advance (cleaned : Cleaned n node) {event : ServerEvent} (fits : node.Fits m event) (bound : m ≤ n) :
    ∃ after, node.advance event = some after ∧ Cleaned n after ∧
      (m < n → node.threads.view.snapshottoken < n → after.threads.view.snapshottoken < n) := by
  obtain ⟨after, ran, rfl | keeps⟩ := advance_free cleaned.stage fits
  · exact ⟨node, ran, cleaned, fun _ older => older⟩
  · exact ⟨_, ran, cleaned.keeps keeps bound, fun less older => token_keeps keeps older less⟩

theorem Started.advance (started : Started n node) {event : ServerEvent} (fits : node.Fits m event) (bound : m ≤ n) :
    ∃ after, node.advance event = some after ∧ Started n after := by
  obtain ⟨after, ran, rfl | keeps⟩ := advance_free started.stage fits
  · exact ⟨node, ran, started⟩
  · exact ⟨_, ran, started.keeps keeps bound⟩

theorem Idle.advance (idle : Idle n node) {event : ServerEvent} (fits : node.Fits m event) (bound : m ≤ n) :
    ∃ after, node.advance event = some after ∧ Idle n after ∧ after.threads.dataSignal = node.threads.dataSignal := by
  obtain ⟨after, ran, rfl | keeps⟩ := advance_free idle.stage fits
  · exact ⟨node, ran, idle, rfl⟩
  · exact ⟨_, ran, idle.keeps keeps bound, keeps.dataSignal⟩

/-- The data thread goes through its stages. -/
theorem Sent.advance (sent : Sent n node) {event : ServerEvent} (fits : node.Fits m event) (bound : m ≤ n) :
    ∃ after, node.advance event = some after ∧ Sent n after := by
  rcases sent with receiving | updated | ⟨idle, data⟩
  · cases event with
    | serve delivery =>
      obtain ⟨after, ran, keeps⟩ := advance_serve fits
      exact ⟨_, ran, Or.inl (receiving.keeps keeps bound)⟩
    | update inswitch =>
      obtain ⟨after, ran, updated⟩ := receiving.update inswitch
      exact ⟨after, ran, Or.inr (Or.inl updated)⟩
    | finish => exact ⟨node, by simp [ServerNode.advance, receiving.stage], Or.inl receiving⟩
  · cases event with
    | serve delivery =>
      obtain ⟨after, ran, keeps⟩ := advance_serve fits
      exact ⟨_, ran, Or.inr (Or.inl (updated.keeps keeps bound))⟩
    | update inswitch => exact ⟨node, by simp [ServerNode.advance, updated.stage], Or.inr (Or.inl updated)⟩
    | finish =>
      obtain ⟨ran, idle, data⟩ := updated.finish
      exact ⟨_, ran, Or.inr (Or.inr ⟨idle, data⟩)⟩
  · obtain ⟨after, ran, still, same⟩ := idle.advance fits bound
    exact ⟨after, ran, Or.inr (Or.inr ⟨still, same.trans data⟩)⟩

theorem Past.advance (past : Past n node) {event : ServerEvent} (fits : node.Fits m event) (bound : m ≤ n) :
    ∃ after, node.advance event = some after ∧ Past n after := by
  rcases past with receiving | updated | idle
  · obtain ⟨after, ran, sent⟩ := Sent.advance (Or.inl receiving) fits bound
    exact ⟨after, ran, sent.past⟩
  · obtain ⟨after, ran, sent⟩ := Sent.advance (Or.inr (Or.inl updated)) fits bound
    exact ⟨after, ran, sent.past⟩
  · obtain ⟨after, ran, still, _⟩ := idle.advance fits bound
    exact ⟨after, ran, Or.inr (Or.inr still)⟩

/-- The data thread can finish, so the next cleanup can be acknowledged. -/
theorem Past.settles (past : Past n node) :
    ∃ (events : List ServerEvent) (later : ServerNode), events.foldlM ServerNode.advance node = some later ∧
      Idle n later := by
  rcases past with receiving | updated | idle
  · obtain ⟨after, ran, updated⟩ := receiving.update ∅
    obtain ⟨finished, idle, _⟩ := updated.finish
    exact ⟨[.update ∅, .finish], _, by simp [List.foldlM, ran, finished], idle⟩
  · obtain ⟨finished, idle, _⟩ := updated.finish
    exact ⟨[.finish], _, by simp [List.foldlM, finished], idle⟩
  · exact ⟨[], node, rfl, idle⟩

end ServerNode

end FarReach
