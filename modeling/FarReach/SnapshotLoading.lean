import FarReach.SnapshotPeriod

namespace FarReach

/-- A `LOADSNAPSHOTDATA_INSWITCH`. -/
structure LoadsnapshotReq where
  key : Key
  idx : Nat
  deriving DecidableEq

/-- A `LOADSNAPSHOTDATA_INSWITCH_ACK`, which carries no snapshot id: `fresh` tells whether the data plane
has returned it after the current snapshot flag was set. -/
structure LoadsnapshotAck where
  key : Key
  idx : Nat
  record : SnapshotRecord
  fresh : Bool
  deriving DecidableEq

/-- What is under way between switchos, the reflector and the data plane. -/
structure LoadNetwork where
  requests : List LoadsnapshotReq
  acks : List LoadsnapshotAck

inductive LoadStatus where
  | loading
  | loaded
  /-- The `INVARIANT` on the key has failed. -/
  | aborted
  /-- An index outside of the bitmap was used. -/
  | outOfBounds
  deriving DecidableEq

/-- The load of one pipeline in `SNAPSHOT_START`, and the messages that can still arrive: a message may be
lost, delayed or delivered more than once, so none is ever taken away. -/
structure SnapshotLoad extends LoadNetwork where
  received : Nat → Option LoadsnapshotAck
  receivedNum : Nat
  status : LoadStatus

inductive LoadEvent where
  /-- The data plane answers a request. -/
  | answer (request : LoadsnapshotReq) (record : SnapshotRecord)
  | receive (ack : LoadsnapshotAck)
  | timeout

namespace SnapshotLoad

variable (backup : CacheBackup)

def request (idx : Nat) : LoadsnapshotReq := ⟨backup.keyarray idx, idx⟩

/-- All requests are sent at once; a pipeline without cached keys is not loaded. -/
def start (network : LoadNetwork) : SnapshotLoad where
  requests := network.requests ++ (List.range backup.emptyIndex).map (request backup)
  acks := network.acks
  received := fun _ => none
  receivedNum := 0
  status := if 0 < backup.emptyIndex then .loading else .loaded

/-- The first record for an index is kept. -/
def store (s : SnapshotLoad) (ack : LoadsnapshotAck) : SnapshotLoad :=
  if s.received ack.idx = none then
    { s with received := Function.update s.received ack.idx (some ack), receivedNum := s.receivedNum + 1 }
  else s

def checkLoaded (s : SnapshotLoad) : SnapshotLoad :=
  if s.receivedNum ≥ backup.emptyIndex then { s with status := .loaded } else s

def receiveAck (s : SnapshotLoad) (ack : LoadsnapshotAck) : SnapshotLoad :=
  if ack.key = backup.keyarray ack.idx then
    if ack.idx < backup.emptyIndex then checkLoaded backup (s.store ack) else { s with status := .outOfBounds }
  else { s with status := .aborted }

def step (s : SnapshotLoad) : LoadEvent → SnapshotLoad
  | .answer request record =>
    if request ∈ s.requests then { s with acks := s.acks ++ [⟨request.key, request.idx, record, true⟩] } else s
  | .receive ack => if s.status = .loading ∧ ack ∈ s.acks then receiveAck backup s ack else s
  -- the requests without an answer are sent once again
  | .timeout =>
    if s.status = .loading then
      { s with
        requests := s.requests ++
          ((List.range backup.emptyIndex).filter fun idx => s.received idx = none).map (request backup) }
    else s

def Backed (key : Key) (idx : Nat) : Prop := idx < backup.emptyIndex ∧ key = backup.keyarray idx

/-- What is under way belongs to this load, or might as well. -/
structure Clean (network : LoadNetwork) : Prop where
  requests : ∀ request ∈ network.requests, Backed backup request.key request.idx
  acks : ∀ ack ∈ network.acks, Backed backup ack.key ack.idx ∧ ack.fresh

section Invariant

variable {backup} {s : SnapshotLoad}

/-- The number of received records is counted right, and the loop goes on while one is missing. -/
structure Counted (backup : CacheBackup) (s : SnapshotLoad) : Prop where
  count : s.receivedNum = ((Finset.range backup.emptyIndex).filter fun idx => s.received idx ≠ none).card
  loading : s.status = .loading → s.receivedNum < backup.emptyIndex
  loaded : s.status = .loaded → backup.emptyIndex ≤ s.receivedNum

variable {idx : Nat} {ack : LoadsnapshotAck}

theorem Counted.all (counted : Counted backup s) (enough : backup.emptyIndex ≤ s.receivedNum)
    (inside : idx < backup.emptyIndex) : s.received idx ≠ none := by
  have full : (Finset.range backup.emptyIndex).filter (fun idx => s.received idx ≠ none) =
      Finset.range backup.emptyIndex := by
    refine Finset.eq_of_subset_of_card_le (Finset.filter_subset _ _) ?_
    rw [Finset.card_range, ← counted.count]
    exact enough
  have member : idx ∈ (Finset.range backup.emptyIndex).filter fun idx => s.received idx ≠ none := by
    rw [full]
    exact Finset.mem_range.mpr inside
  exact (Finset.mem_filter.mp member).2

theorem counted_start (network : LoadNetwork) : Counted backup (start backup network) := by
  refine ⟨by simp [start], ?_, ?_⟩
  · intro loading
    by_contra empty
    have status : (start backup network).status = .loaded := if_neg empty
    rw [status] at loading
    cases loading
  · intro loaded
    by_contra more
    have status : (start backup network).status = .loading := if_pos (Nat.lt_of_not_le more)
    rw [status] at loaded
    cases loaded

theorem count_store (inside : ack.idx < backup.emptyIndex)
    (count : s.receivedNum = ((Finset.range backup.emptyIndex).filter fun idx => s.received idx ≠ none).card) :
    (s.store ack).receivedNum =
      ((Finset.range backup.emptyIndex).filter fun idx => (s.store ack).received idx ≠ none).card := by
  unfold store
  split
  · rename_i missing
    have grown : (Finset.range backup.emptyIndex).filter
        (fun idx => Function.update s.received ack.idx (some ack) idx ≠ none) =
        insert ack.idx ((Finset.range backup.emptyIndex).filter fun idx => s.received idx ≠ none) := by
      ext idx
      by_cases same : idx = ack.idx
      · subst same
        simp [inside]
      · simp [same]
    have new : ack.idx ∉ (Finset.range backup.emptyIndex).filter fun idx => s.received idx ≠ none := by
      simp [missing]
    show s.receivedNum + 1 = _
    rw [grown, Finset.card_insert_of_notMem new, count]
  · exact count

theorem status_store (s : SnapshotLoad) (ack : LoadsnapshotAck) : (s.store ack).status = s.status := by
  unfold store
  split <;> rfl

theorem Counted.receiveAck (counted : Counted backup s) (loading : s.status = .loading) (ack : LoadsnapshotAck) :
    Counted backup (receiveAck backup s ack) := by
  unfold SnapshotLoad.receiveAck
  split
  · split
    · rename_i inside
      have count := count_store inside counted.count
      unfold checkLoaded
      split
      · rename_i enough
        exact ⟨count, by simp, fun _ => enough⟩
      · rename_i missing
        refine ⟨count, fun _ => Nat.lt_of_not_le missing, ?_⟩
        intro loaded
        rw [status_store, loading] at loaded
        cases loaded
    · exact ⟨counted.count, by simp, by simp⟩
  · exact ⟨counted.count, by simp, by simp⟩

theorem Counted.step (counted : Counted backup s) (event : LoadEvent) : Counted backup (step backup s event) := by
  unfold SnapshotLoad.step
  cases event with
  | answer request record =>
    dsimp only
    split
    · exact ⟨counted.count, counted.loading, counted.loaded⟩
    · exact counted
  | receive ack =>
    dsimp only
    split
    · rename_i here
      exact counted.receiveAck here.1 ack
    · exact counted
  | timeout =>
    dsimp only
    split
    · exact ⟨counted.count, counted.loading, counted.loaded⟩
    · exact counted

theorem Counted.run (counted : Counted backup s) (events : List LoadEvent) :
    Counted backup (events.foldl (SnapshotLoad.step backup) s) := by
  induction events generalizing s with
  | nil => exact counted
  | cons event rest ih => exact ih (counted.step event)

/-- What is under way is for backed-up slots. -/
structure Addressed (backup : CacheBackup) (network : LoadNetwork) : Prop where
  requests : ∀ request ∈ network.requests, Backed backup request.key request.idx
  acks : ∀ ack ∈ network.acks, Backed backup ack.key ack.idx

theorem Clean.addressed {network : LoadNetwork} (clean : Clean backup network) : Addressed backup network :=
  ⟨clean.requests, fun ack member => (clean.acks ack member).1⟩

theorem Addressed.append_requests {network : LoadNetwork} (addressed : Addressed backup network) {indexes : List Nat}
    (inside : ∀ idx ∈ indexes, idx < backup.emptyIndex) :
    Addressed backup ⟨network.requests ++ indexes.map (request backup), network.acks⟩ := by
  refine ⟨fun sent member => ?_, addressed.acks⟩
  rcases List.mem_append.mp member with old | new
  · exact addressed.requests sent old
  · obtain ⟨idx, listed, rfl⟩ := List.mem_map.mp new
    exact ⟨inside idx listed, rfl⟩

/-- Nothing that is under way can fail a check. -/
structure Tidy (backup : CacheBackup) (s : SnapshotLoad) : Prop where
  addressed : Addressed backup s.toLoadNetwork
  aborted : s.status ≠ .aborted
  inBounds : s.status ≠ .outOfBounds

theorem tidy_start {network : LoadNetwork} (addressed : Addressed backup network) :
    Tidy backup (start backup network) := by
  refine ⟨addressed.append_requests fun idx => List.mem_range.mp, ?_, ?_⟩
  · simp only [start]
    split <;> simp
  · simp only [start]
    split <;> simp

theorem Tidy.step (tidy : Tidy backup s) (event : LoadEvent) : Tidy backup (step backup s event) := by
  unfold SnapshotLoad.step
  cases event with
  | answer request record =>
    dsimp only
    split
    · rename_i sent
      refine ⟨⟨tidy.addressed.requests, fun ack member => ?_⟩, tidy.aborted, tidy.inBounds⟩
      rcases List.mem_append.mp member with old | new
      · exact tidy.addressed.acks ack old
      · rw [List.mem_singleton.mp new]
        exact tidy.addressed.requests request sent
    · exact tidy
  | receive ack =>
    dsimp only
    split
    · rename_i here
      obtain ⟨inside, key⟩ := tidy.addressed.acks ack here.2
      unfold receiveAck checkLoaded store
      rw [if_pos key, if_pos inside]
      split <;> split <;>
        exact ⟨⟨tidy.addressed.requests, tidy.addressed.acks⟩, by simp [here.1], by simp [here.1]⟩
    · exact tidy
  | timeout =>
    dsimp only
    split
    · exact ⟨tidy.addressed.append_requests fun idx listed => List.mem_range.mp (List.mem_of_mem_filter listed),
        tidy.aborted, tidy.inBounds⟩
    · exact tidy

/-- Everything under way and everything kept is of this load and of this period. -/
structure Current (backup : CacheBackup) (s : SnapshotLoad) : Prop where
  tidy : Tidy backup s
  fresh : ∀ ack ∈ s.acks, ack.fresh
  kept : ∀ idx ack, s.received idx = some ack → ack.fresh

theorem checkLoaded_received (s : SnapshotLoad) : (checkLoaded backup s).received = s.received := by
  unfold checkLoaded
  split <;> rfl

theorem fresh_store (fresh : ack.fresh) (kept : ∀ idx ack, s.received idx = some ack → ack.fresh)
    {found : LoadsnapshotAck} (stored : (s.store ack).received idx = some found) : found.fresh := by
  unfold store at stored
  split at stored
  · by_cases same : idx = ack.idx
    · subst same
      cases (Function.update_self ..).symm.trans stored
      exact fresh
    · exact kept idx found ((Function.update_of_ne same _ _).symm.trans stored)
  · exact kept idx found stored

/-- Only answers of the data plane add acknowledgements. -/
theorem acks_step {event : LoadEvent} (silent : ∀ request record, event ≠ .answer request record) :
    (SnapshotLoad.step backup s event).acks = s.acks := by
  cases event with
  | answer request record => exact absurd rfl (silent request record)
  | receive ack =>
    unfold SnapshotLoad.step receiveAck checkLoaded store
    dsimp only
    repeat' split
    all_goals rfl
  | timeout =>
    unfold SnapshotLoad.step
    dsimp only
    split <;> rfl

theorem Current.step (current : Current backup s) (event : LoadEvent) : Current backup (step backup s event) := by
  refine ⟨current.tidy.step event, ?_, ?_⟩
  · intro ack member
    cases event with
    | answer request record =>
      unfold SnapshotLoad.step at member
      dsimp only at member
      split at member
      · rcases List.mem_append.mp member with old | new
        · exact current.fresh ack old
        · rw [List.mem_singleton.mp new]
      · exact current.fresh ack member
    | _ =>
      rw [acks_step (by simp)] at member
      exact current.fresh ack member
  · intro idx ack found
    cases event with
    | receive arrived =>
      unfold SnapshotLoad.step receiveAck at found
      dsimp only at found
      split at found
      · rename_i here
        split at found
        · split at found
          · rw [checkLoaded_received] at found
            exact fresh_store (current.fresh arrived here.2) current.kept found
          · exact current.kept idx ack found
        · exact current.kept idx ack found
      · exact current.kept idx ack found
    | _ =>
      unfold SnapshotLoad.step at found
      dsimp only at found
      split at found <;> exact current.kept idx ack found

theorem Current.run (current : Current backup s) (events : List LoadEvent) :
    Current backup (events.foldl (SnapshotLoad.step backup) s) := by
  induction events generalizing s with
  | nil => exact current
  | cons event rest ih => exact ih (current.step event)

end Invariant

section Completion

variable {backup} {s : SnapshotLoad}

/-- The events in which the data plane answers the requests of some indexes with a record, and each answer
arrives. -/
def answers (backup : CacheBackup) (record : SnapshotRecord) (indexes : List Nat) : List LoadEvent :=
  indexes.flatMap fun idx =>
    [.answer (request backup idx) record, .receive ⟨backup.keyarray idx, idx, record, true⟩]

/-- The load may still end. -/
structure Going (backup : CacheBackup) (s : SnapshotLoad) : Prop where
  counted : Counted backup s
  aborted : s.status ≠ .aborted
  inBounds : s.status ≠ .outOfBounds
  sent : ∀ idx < backup.emptyIndex, request backup idx ∈ s.requests

theorem received_store {ack : LoadsnapshotAck} :
    (s.store ack).received ack.idx ≠ none ∧
      ∀ other held, s.received other = some held → (s.store ack).received other = some held := by
  unfold store
  split
  · rename_i missing
    refine ⟨by simp, ?_⟩
    intro other held found
    have apart : other ≠ ack.idx := by
      intro same
      rw [same, missing] at found
      cases found
    exact (Function.update_of_ne apart _ _).trans found
  · rename_i present
    exact ⟨present, fun _ _ found => found⟩

theorem receiveAck_of_backed {ack : LoadsnapshotAck} (backed : Backed backup ack.key ack.idx) :
    receiveAck backup s ack = checkLoaded backup (s.store ack) := by
  unfold receiveAck
  rw [if_pos backed.2, if_pos backed.1]

/-- A good answer for an index: afterwards it has a record, and the others keep theirs. -/
theorem Going.answer (going : Going backup s) (record : SnapshotRecord) {idx : Nat}
    (inside : idx < backup.emptyIndex) :
    Going backup ((answers backup record [idx]).foldl (step backup) s) ∧
      ((answers backup record [idx]).foldl (step backup) s).received idx ≠ none ∧
      ∀ other ack, s.received other = some ack →
        ((answers backup record [idx]).foldl (step backup) s).received other = some ack := by
  have answered : step backup s (.answer (request backup idx) record) =
      { s with acks := s.acks ++ [⟨backup.keyarray idx, idx, record, true⟩] } := if_pos (going.sent idx inside)
  have counted := going.counted.run (answers backup record [idx])
  have events : (answers backup record [idx]).foldl (step backup) s =
      step backup { s with acks := s.acks ++ [⟨backup.keyarray idx, idx, record, true⟩] }
        (.receive ⟨backup.keyarray idx, idx, record, true⟩) := by
    rw [← answered]
    rfl
  rw [events] at counted ⊢
  by_cases loading : s.status = .loading
  · have received : step backup { s with acks := s.acks ++ [⟨backup.keyarray idx, idx, record, true⟩] }
        (.receive ⟨backup.keyarray idx, idx, record, true⟩) =
        checkLoaded backup (store { s with acks := s.acks ++ [⟨backup.keyarray idx, idx, record, true⟩] }
          ⟨backup.keyarray idx, idx, record, true⟩) := by
      rw [← receiveAck_of_backed ⟨inside, rfl⟩]
      exact if_pos ⟨loading, by simp⟩
    rw [received] at counted ⊢
    have kept := @received_store { s with acks := s.acks ++ [⟨backup.keyarray idx, idx, record, true⟩] }
      ⟨backup.keyarray idx, idx, record, true⟩
    rw [← @checkLoaded_received backup] at kept
    refine ⟨⟨counted, ?_, ?_, ?_⟩, kept.1, kept.2⟩
    · unfold checkLoaded
      split
      · simp
      · rw [status_store]
        exact going.aborted
    · unfold checkLoaded
      split
      · simp
      · rw [status_store]
        exact going.inBounds
    · intro other bound
      unfold checkLoaded store
      split <;> split <;> exact going.sent other bound
  · -- the loop has ended: every index has a record
    have loaded : s.status = .loaded := by
      cases status : s.status with
      | loading => exact absurd status loading
      | loaded => rfl
      | aborted => exact absurd status going.aborted
      | outOfBounds => exact absurd status going.inBounds
    have unchanged : step backup { s with acks := s.acks ++ [⟨backup.keyarray idx, idx, record, true⟩] }
        (.receive ⟨backup.keyarray idx, idx, record, true⟩) =
        { s with acks := s.acks ++ [⟨backup.keyarray idx, idx, record, true⟩] } :=
      if_neg fun both => loading both.1
    rw [unchanged] at counted ⊢
    refine ⟨⟨counted, going.aborted, going.inBounds, going.sent⟩, ?_, fun _ _ found => found⟩
    exact going.counted.all (going.counted.loaded loaded) inside

theorem Going.answers (going : Going backup s) (record : SnapshotRecord) (indexes : List Nat)
    (inside : ∀ idx ∈ indexes, idx < backup.emptyIndex) :
    Going backup ((answers backup record indexes).foldl (step backup) s) ∧
      (∀ idx ∈ indexes, ((answers backup record indexes).foldl (step backup) s).received idx ≠ none) ∧
      ∀ other ack, s.received other = some ack →
        ((answers backup record indexes).foldl (step backup) s).received other = some ack := by
  induction indexes generalizing s with
  | nil => exact ⟨going, by simp, fun _ _ found => found⟩
  | cons idx rest ih =>
    obtain ⟨first, present, kept⟩ := going.answer record (inside idx List.mem_cons_self)
    obtain ⟨last, others, keptLater⟩ := ih first fun other member => inside other (List.mem_cons_of_mem _ member)
    have events : (SnapshotLoad.answers backup record (idx :: rest)).foldl (step backup) s =
        (SnapshotLoad.answers backup record rest).foldl (step backup)
          ((SnapshotLoad.answers backup record [idx]).foldl (step backup) s) := by
      rw [← List.foldl_append]
      rfl
    rw [events]
    refine ⟨last, ?_, fun other ack found => keptLater other ack (kept other ack found)⟩
    intro other member
    rcases List.mem_cons.mp member with same | later
    · obtain ⟨ack, found⟩ := Option.ne_none_iff_exists'.mp present
      rw [same, keptLater idx ack found]
      simp
    · exact others other later

/-- Once every request is answered, the load has ended, with the records it had before among those it
keeps. -/
theorem Going.completes (going : Going backup s) (record : SnapshotRecord) :
    ∃ events : List LoadEvent, (events.foldl (step backup) s).status = .loaded ∧
      ∀ other ack, s.received other = some ack → (events.foldl (step backup) s).received other = some ack := by
  obtain ⟨last, present, kept⟩ :=
    going.answers record (List.range backup.emptyIndex) fun idx => List.mem_range.mp
  refine ⟨SnapshotLoad.answers backup record (List.range backup.emptyIndex), ?_, kept⟩
  have full :
      ((SnapshotLoad.answers backup record (List.range backup.emptyIndex)).foldl (step backup) s).receivedNum =
      backup.emptyIndex := by
    rw [last.counted.count, Finset.filter_true_of_mem, Finset.card_range]
    intro idx inside
    exact present idx (List.mem_range.mpr (Finset.mem_range.mp inside))
  cases status : ((SnapshotLoad.answers backup record (List.range backup.emptyIndex)).foldl (step backup) s).status
    with
  | loading =>
    have missing := last.counted.loading status
    omega
  | loaded => rfl
  | aborted => exact absurd status last.aborted
  | outOfBounds => exact absurd status last.inBounds

/-- A load that has ended well, or that no check can end. -/
structure Sane (backup : CacheBackup) (s : SnapshotLoad) : Prop where
  counted : Counted backup s
  sent : ∀ idx < backup.emptyIndex, request backup idx ∈ s.requests
  good : s.status = .loaded ∨ Tidy backup s

theorem requests_step (s : SnapshotLoad) (event : LoadEvent) : s.requests ⊆ (step backup s event).requests := by
  cases event with
  | answer request record =>
    unfold step
    dsimp only
    split <;> exact List.Subset.refl _
  | receive ack =>
    unfold step receiveAck checkLoaded store
    dsimp only
    repeat' split
    all_goals exact List.Subset.refl _
  | timeout =>
    unfold step
    dsimp only
    split
    · exact List.subset_append_left _ _
    · exact List.Subset.refl _

/-- A load that has ended takes nothing more. -/
theorem status_step {event : LoadEvent} (loaded : s.status = .loaded) : (step backup s event).status = .loaded := by
  cases event with
  | answer request record =>
    unfold step
    dsimp only
    split <;> exact loaded
  | receive ack => simp [step, loaded]
  | timeout => simp [step, loaded]

theorem sane_start {network : LoadNetwork} (clean : backup.emptyIndex = 0 ∨ Addressed backup network) :
    Sane backup (start backup network) := by
  refine ⟨counted_start network, fun idx inside => ?_, ?_⟩
  · exact List.mem_append_right _ (List.mem_map_of_mem (List.mem_range.mpr inside))
  · exact clean.imp (fun empty => if_neg (by omega)) tidy_start

theorem Sane.run (sane : Sane backup s) (events : List LoadEvent) : Sane backup (events.foldl (step backup) s) := by
  induction events generalizing s with
  | nil => exact sane
  | cons event rest ih =>
    exact ih ⟨sane.counted.step event, fun idx inside => requests_step s event (sane.sent idx inside),
      sane.good.imp status_step fun tidy => tidy.step event⟩

theorem Sane.loaded (sane : Sane backup s) (ended : s.status ≠ .loading) : s.status = .loaded := by
  rcases sane.good with loaded | tidy
  · exact loaded
  · cases status : s.status with
    | loading => exact absurd status ended
    | loaded => rfl
    | aborted => exact absurd status tidy.aborted
    | outOfBounds => exact absurd status tidy.inBounds

theorem Sane.completes (sane : Sane backup s) :
    ∃ events : List LoadEvent, (events.foldl (step backup) s).status = .loaded := by
  rcases sane.good with loaded | tidy
  · exact ⟨[], loaded⟩
  · obtain ⟨events, loaded, _⟩ :=
      Going.completes ⟨sane.counted, tidy.aborted, tidy.inBounds, sane.sent⟩ ⟨[], 0, true⟩
    exact ⟨events, loaded⟩

end Completion

section Start

variable {backup} {network : LoadNetwork}

variable {ack : LoadsnapshotAck}

end Start

end SnapshotLoad

end FarReach
