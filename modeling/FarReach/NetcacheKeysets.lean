import FarReach.NetcacheServer
import FarReach.Runs

namespace FarReach

/-- What switchos sends about a key. -/
inductive KeysetMessage where
  | pop
  | finish
  | evict
  deriving DecidableEq

/-- A server, and for every key the last message about it that has reached the server. -/
structure KeysetSystem where
  server : NetcacheServer
  last : Key → Option KeysetMessage

/-- The critical sections of the four threads. -/
inductive KeysetEvent where
  | write (write : NetcacheWrite)
  | wake
  | message (kind : KeysetMessage) (key : Key)
  | takeUpdate
  | removeUpdated

namespace KeysetSystem

def deliver (server : NetcacheServer) : KeysetMessage → Key → Option NetcacheServer
  | .pop, key => some (server.cachePop key)
  | .finish, key => server.cachePopFinish key
  | .evict, key => server.cacheEvict key

def run (system : KeysetSystem) : KeysetEvent → Option KeysetSystem
  | .write write => (system.server.receiveWrite write).map ({ system with server := · })
  | .wake => system.server.wake.map ({ system with server := · })
  | .message kind key =>
    (deliver system.server kind key).map (⟨·, Function.update system.last key (some kind)⟩)
  | .takeUpdate => some { system with server := system.server.takeUpdate }
  | .removeUpdated => system.server.removeUpdated.map ({ system with server := · })

/-- `none` is the state after a failed `INVARIANT` or an exit. -/
def step (state : Option KeysetSystem) (event : KeysetEvent) : Option KeysetSystem := state.bind (·.run event)

def begin (db : Key → NetcacheRecord) : KeysetSystem := ⟨.prepare db, fun _ => none⟩

/-- The messages that may come next for a key: the one which is due, or the last one again when its
acknowledgement was lost. -/
def Due : Option KeysetMessage → KeysetMessage → Prop
  | last, .pop => last = none ∨ last = some .pop ∨ last = some .evict
  | last, .finish => last = some .pop ∨ last = some .finish
  | last, .evict => last = some .finish ∨ last = some .evict

instance : ∀ last kind, Decidable (Due last kind)
  | last, .pop => inferInstanceAs (Decidable (last = none ∨ last = some .pop ∨ last = some .evict))
  | last, .finish => inferInstanceAs (Decidable (last = some .pop ∨ last = some .finish))
  | last, .evict => inferInstanceAs (Decidable (last = some .finish ∨ last = some .evict))

/-- The worker takes a write when it is not asleep, and the messages of switchos come in protocol order. -/
def Possible : Option KeysetSystem → KeysetEvent → Prop
  | some system, .write _ => system.server.worker.IsIdle
  | some system, .message kind key => Due (system.last key) kind
  | _, _ => True

instance : ∀ state event, Decidable (Possible state event)
  | none, _ => by unfold Possible; split <;> infer_instance
  | some system, .write _ => inferInstanceAs (Decidable (system.server.worker.IsIdle))
  | some system, .message kind key => inferInstanceAs (Decidable (Due (system.last key) kind))
  | some _, .wake => isTrue trivial
  | some _, .takeUpdate => isTrue trivial
  | some _, .removeUpdated => isTrue trivial

/-- A population finds its key uncached, without an unfinished update or a write asleep on one; an eviction comes
once, and not while a write still sleeps on the population of its key; and the queue has room when the worker
runs. -/
def Careful : Option KeysetSystem → KeysetEvent → Prop
  | some system, .message .pop key =>
    key ∉ system.server.cached ∧ (∀ update ∈ system.server.pending, update.key ≠ key) ∧
      ¬ system.server.AwaitsUpdated key
  | some system, .message .evict key =>
    (key ∈ system.server.beingcached ∨ key ∈ system.server.cached) ∧ ¬ system.server.AwaitsCached key
  | some system, .write _ => system.server.queue.length + 1 < mqSize
  | some system, .wake => system.server.queue.length + 1 < mqSize
  | _, _ => True

instance : ∀ state event, Decidable (Careful state event)
  | none, _ => by unfold Careful; split <;> infer_instance
  | some system, .message .pop key => inferInstanceAs (Decidable (key ∉ system.server.cached ∧
      (∀ update ∈ system.server.pending, update.key ≠ key) ∧ ¬ system.server.AwaitsUpdated key))
  | some _, .message .finish _ => isTrue trivial
  | some system, .message .evict key => inferInstanceAs (Decidable
      ((key ∈ system.server.beingcached ∨ key ∈ system.server.cached) ∧ ¬ system.server.AwaitsCached key))
  | some system, .write _ => inferInstanceAs (Decidable (system.server.queue.length + 1 < mqSize))
  | some system, .wake => inferInstanceAs (Decidable (system.server.queue.length + 1 < mqSize))
  | some _, .takeUpdate => isTrue trivial
  | some _, .removeUpdated => isTrue trivial

/-- A write asleep on a population can count on its `NETCACHE_CACHE_POP_FINISH`, and one asleep on an update on the
value-update thread, unless it has already been released. -/
def Released (system : KeysetSystem) : Prop :=
  (∀ key, system.server.AwaitsCached key → key ∈ system.server.beingcached → Due (system.last key) .finish) ∧
  (∀ key, system.server.AwaitsUpdated key → key ∈ system.server.beingupdated →
    ∃ update ∈ system.server.pending, update.key = key)

def Holds (state : Option KeysetSystem) : Prop :=
  ∃ system, state = some system ∧ Disjoint system.server.beingcached system.server.cached ∧
    system.server.beingupdated ⊆ system.server.cached ∧ system.Released

/-- What every critical section keeps of the key sets and the queue. -/
structure Kept (server : NetcacheServer) (last : Key → Option KeysetMessage) : Prop where
  disjoint : ∀ key ∈ server.beingcached, key ∉ server.cached
  subset : ∀ key ∈ server.beingupdated, key ∈ server.cached
  populated : ∀ key, key ∈ server.beingcached ∨ key ∈ server.cached ↔
    last key = some .pop ∨ last key = some .finish
  unfinished : ∀ key ∈ server.beingcached, last key = some .pop
  once : (server.pending.map ValueUpdate.key).Nodup
  announced : ∀ key ∈ server.beingupdated, key ∈ server.pending.map ValueUpdate.key
  evicted : ∀ key ∈ server.pending.map ValueUpdate.key, key ∉ server.beingupdated →
    key ∉ server.beingcached ∧ key ∉ server.cached

def Asleep (server : NetcacheServer) : Prop :=
  match server.worker with
  | .idle => True
  | .awaitsCached write isBeingUpdated =>
    isBeingUpdated = false ∧ (write.key ∈ server.beingcached ∨ write.key ∈ server.cached) ∧
      write.key ∉ server.beingupdated
  | .awaitsUpdated write => write.key ∉ server.beingcached

section Steps

variable {server : NetcacheServer} {last : Key → Option KeysetMessage} {write : NetcacheWrite} {key : Key}

/-- A cached key which is not being updated has no unfinished update. -/
theorem Kept.not_pending (kept : Kept server last) (cached : key ∈ server.beingcached ∨ key ∈ server.cached)
    (settled : key ∉ server.beingupdated) : key ∉ server.pending.map ValueUpdate.key := by
  intro pending
  have gone := kept.evicted key pending settled
  tauto

theorem Kept.worker (kept : Kept server last) (worker : NetcacheWorker) :
    Kept { server with worker := worker } last :=
  { kept with }

theorem Kept.perform (kept : Kept server last) : Kept (server.perform write) last :=
  { kept with }

theorem asleep_perform : Asleep (server.perform write) := trivial

theorem pending_notify (room : server.queue.length + 1 < mqSize) :
    (server.notify write).pending = server.pending ++ [⟨write.key, write.record⟩] := by
  unfold NetcacheServer.pending NetcacheServer.notify
  rw [if_pos room, List.append_assoc]

section

variable (kept : Kept server last)
include kept

theorem Kept.notify (room : server.queue.length + 1 < mqSize)
    (cached : write.key ∈ server.cached) (settled : write.key ∉ server.beingupdated) :
    Kept (server.notify write) last where
  __ := kept
  subset := by
    intro key member
    rcases Finset.mem_insert.mp member with same | old
    · exact same ▸ cached
    · exact kept.subset key old
  once := by
    have fresh := kept.not_pending (.inr cached) settled
    rw [pending_notify room, List.map_append, List.nodup_append]
    refine ⟨kept.once, List.nodup_singleton _, ?_⟩
    intro key old other new same
    have is : key = write.key := same.trans (List.mem_singleton.mp new)
    exact fresh (is ▸ old)
  announced := by
    intro key member
    rw [pending_notify room, List.map_append, List.mem_append]
    rcases Finset.mem_insert.mp member with same | old
    · exact .inr (by simp [same])
    · exact .inl (kept.announced key old)
  evicted := by
    intro key member settled
    rw [pending_notify room, List.map_append, List.mem_append] at member
    have absent : key ∉ insert write.key server.beingupdated := settled
    rw [Finset.mem_insert, not_or] at absent
    rcases member with old | new
    · exact kept.evicted key old absent.2
    · exact absurd (List.mem_singleton.mp new) absent.1

/-- From the loop on `is_being_updated` on, no `INVARIANT` fails. -/
theorem Kept.updateCached (room : server.queue.length + 1 < mqSize)
    (out : write.key ∉ server.beingcached) {isBeingUpdated : Bool}
    (settled : isBeingUpdated = false → write.key ∉ server.beingupdated) :
    ∃ next, server.updateCached write isBeingUpdated = some next ∧ Kept next last ∧ Asleep next := by
  unfold NetcacheServer.updateCached
  split
  · exact ⟨_, rfl, kept.perform, asleep_perform⟩
  split
  · exact ⟨_, rfl, kept.worker _, out⟩
  rename_i loaded
  split
  · rename_i cached
    exact ⟨_, rfl, (kept.notify room cached (settled (by simpa using loaded))).perform, asleep_perform⟩
  · exact ⟨_, rfl, kept.perform, asleep_perform⟩

theorem Kept.move (member : key ∈ server.beingcached) :
    Kept (server.populated key) last where
  __ := kept
  disjoint := by
    intro other inside
    obtain ⟨different, old⟩ := Finset.mem_erase.mp inside
    have apart := kept.disjoint other old
    exact fun cached => (Finset.mem_insert.mp cached).elim different apart
  subset := fun other updated => Finset.mem_insert_of_mem (kept.subset other updated)
  populated := by
    intro other
    rw [← kept.populated other]
    unfold NetcacheServer.populated
    rw [Finset.mem_erase, Finset.mem_insert]
    by_cases same : other = key
    · subst same
      tauto
    · tauto
  unfinished := fun other inside => kept.unfinished other (Finset.mem_of_mem_erase inside)
  evicted := by
    intro other pending settled
    have gone := kept.evicted other pending settled
    have different : other ≠ key := fun same => gone.1 (same ▸ member)
    exact ⟨fun inside => gone.1 (Finset.mem_of_mem_erase inside),
      fun cached => (Finset.mem_insert.mp cached).elim different gone.2⟩

theorem Kept.receiveWrite (room : server.queue.length + 1 < mqSize) :
    ∃ next, server.receiveWrite write = some next ∧ Kept next last ∧ Asleep next := by
  unfold NetcacheServer.receiveWrite
  split
  · rename_i member
    have uncached := kept.disjoint _ member
    have settled : write.key ∉ server.beingupdated := fun updated => uncached (kept.subset _ updated)
    rw [if_neg uncached]
    split
    · exact (kept.move member).updateCached room (Finset.notMem_erase _ _) (fun _ => settled)
    · exact ⟨_, rfl, kept.worker _, by simpa using settled, .inl member, settled⟩
  · rename_i out
    split
    · exact kept.updateCached room out (by simp)
    · exact ⟨_, rfl, kept.perform, asleep_perform⟩

theorem Kept.wake (asleep : Asleep server) (room : server.queue.length + 1 < mqSize) :
    ∃ next, server.wake = some next ∧ Kept next last ∧ Asleep next := by
  have before := asleep
  unfold NetcacheServer.wake
  unfold Asleep at asleep
  split
  · exact ⟨server, rfl, kept, before⟩
  · rename_i write isBeingUpdated is
    rw [is] at asleep
    obtain ⟨old, inside, settled⟩ := asleep
    split
    · exact ⟨server, rfl, kept, before⟩
    · rename_i out
      rw [if_pos (inside.resolve_left out)]
      exact kept.updateCached room out (fun _ => settled)
  · rename_i write is
    rw [is] at asleep
    exact kept.updateCached room asleep (by simp)

theorem Kept.cachePop (uncached : key ∉ server.cached)
    (idle : ∀ update ∈ server.pending, update.key ≠ key) :
    Kept (server.cachePop key) (Function.update last key (some .pop)) where
  __ := kept
  disjoint := by
    intro other inside
    rcases Finset.mem_insert.mp inside with same | old
    · exact same ▸ uncached
    · exact kept.disjoint other old
  populated := by
    intro other
    have before := kept.populated other
    unfold NetcacheServer.cachePop
    rw [Finset.mem_insert]
    by_cases same : other = key
    · subst same
      simp
    · rw [Function.update_of_ne same]
      tauto
  unfinished := by
    intro other inside
    by_cases same : other = key
    · rw [same, Function.update_self]
    · rw [Function.update_of_ne same]
      exact kept.unfinished other ((Finset.mem_insert.mp inside).resolve_left same)
  evicted := by
    intro other pending settled
    have gone := kept.evicted other pending settled
    obtain ⟨update, member, is⟩ := List.mem_map.mp pending
    have different : other ≠ key := is ▸ idle update member
    exact ⟨fun inside => (Finset.mem_insert.mp inside).elim different gone.1, gone.2⟩

theorem Kept.setLast (out : key ∉ server.beingcached) (cached : key ∈ server.cached) :
    Kept server (Function.update last key (some .finish)) where
  __ := kept
  populated := by
    intro other
    by_cases same : other = key
    · subst same
      simp [cached]
    · rw [Function.update_of_ne same]
      exact kept.populated other
  unfinished := by
    intro other inside
    have different : other ≠ key := fun same => out (same ▸ inside)
    rw [Function.update_of_ne different]
    exact kept.unfinished other inside

theorem Kept.cachePopFinish (asleep : Asleep server) (due : Due (last key) .finish) :
    ∃ next, server.cachePopFinish key = some next ∧ Kept next (Function.update last key (some .finish)) ∧
      Asleep next := by
  unfold NetcacheServer.cachePopFinish
  have inside := (kept.populated key).mpr due
  split
  · rename_i member
    rw [if_neg (kept.disjoint key member)]
    refine ⟨_, rfl, (kept.move member).setLast (Finset.notMem_erase _ _) (Finset.mem_insert_self _ _), ?_⟩
    unfold Asleep NetcacheServer.populated at *
    dsimp only
    split <;> rename_i is <;> rw [is] at asleep
    · trivial
    · refine ⟨asleep.1, ?_, asleep.2.2⟩
      rw [Finset.mem_erase, Finset.mem_insert]
      have := asleep.2.1
      tauto
    · exact fun moved => asleep (Finset.mem_of_mem_erase moved)
  · rename_i out
    have cached := inside.resolve_left out
    rw [if_pos cached]
    exact ⟨server, rfl, kept.setLast out cached, asleep⟩

theorem Kept.cacheEvict (asleep : Asleep server)
    (inside : key ∈ server.beingcached ∨ key ∈ server.cached) (awake : ¬ server.AwaitsCached key) :
    ∃ next, server.cacheEvict key = some next ∧ Kept next (Function.update last key (some .evict)) ∧
      Asleep next := by
  unfold NetcacheServer.cacheEvict
  rw [if_pos inside]
  refine ⟨_, rfl, ⟨?_, ?_, ?_, ?_, kept.once, ?_, ?_⟩, ?_⟩
  · intro other member cached
    exact kept.disjoint other (Finset.mem_of_mem_erase member) (Finset.mem_of_mem_erase cached)
  · intro other updated
    obtain ⟨different, old⟩ := Finset.mem_erase.mp updated
    exact Finset.mem_erase.mpr ⟨different, kept.subset other old⟩
  · intro other
    have before := kept.populated other
    rw [Finset.mem_erase, Finset.mem_erase]
    by_cases same : other = key
    · subst same
      simp
    · rw [Function.update_of_ne same]
      tauto
  · intro other member
    obtain ⟨different, old⟩ := Finset.mem_erase.mp member
    rw [Function.update_of_ne different]
    exact kept.unfinished other old
  · exact fun other updated => kept.announced other (Finset.mem_of_mem_erase updated)
  · intro other pending settled
    rw [Finset.mem_erase, Finset.mem_erase]
    by_cases same : other = key
    · exact ⟨fun member => member.1 same, fun member => member.1 same⟩
    · have gone := kept.evicted other pending (fun old => settled (Finset.mem_erase.mpr ⟨same, old⟩))
      exact ⟨fun member => gone.1 member.2, fun member => gone.2 member.2⟩
  · unfold Asleep NetcacheServer.AwaitsCached at *
    dsimp only
    split <;> rename_i is <;> rw [is] at asleep awake
    · trivial
    · have different := awake
      rw [Finset.mem_erase, Finset.mem_erase]
      exact ⟨asleep.1, asleep.2.1.imp (⟨different, ·⟩) (⟨different, ·⟩),
        fun member => asleep.2.2 (Finset.mem_of_mem_erase member)⟩
    · exact fun member => asleep (Finset.mem_of_mem_erase member)

theorem Kept.takeUpdate : Kept server.takeUpdate last := by
  have same := server.pending_takeUpdate
  have sets : server.takeUpdate.beingcached = server.beingcached ∧ server.takeUpdate.cached = server.cached ∧
      server.takeUpdate.beingupdated = server.beingupdated := by
    unfold NetcacheServer.takeUpdate
    split <;> exact ⟨rfl, rfl, rfl⟩
  obtain ⟨beingcached, cached, beingupdated⟩ := sets
  refine ⟨?_, ?_, ?_, ?_, ?_, ?_, ?_⟩ <;> simp only [same, beingcached, cached, beingupdated]
  · exact kept.disjoint
  · exact kept.subset
  · exact kept.populated
  · exact kept.unfinished
  · exact kept.once
  · exact kept.announced
  · exact kept.evicted

end

theorem asleep_takeUpdate (asleep : Asleep server) : Asleep server.takeUpdate := by
  unfold NetcacheServer.takeUpdate
  split <;> exact asleep

theorem Kept.removeUpdated (kept : Kept server last) (asleep : Asleep server) :
    ∃ next, server.removeUpdated = some next ∧ Kept next last ∧ Asleep next := by
  unfold NetcacheServer.removeUpdated
  split
  · exact ⟨server, rfl, kept, asleep⟩
  rename_i update is
  have pending : server.pending.map ValueUpdate.key = update.key :: server.queue.map ValueUpdate.key := by
    unfold NetcacheServer.pending
    rw [is]
    rfl
  have once := kept.once
  rw [pending, List.nodup_cons] at once
  split
  · refine ⟨_, rfl, { kept with subset := ?_, once := once.2, announced := ?_, evicted := ?_ }, ?_⟩
    · exact fun key updated => kept.subset key (Finset.mem_of_mem_erase updated)
    · intro key updated
      obtain ⟨different, old⟩ := Finset.mem_erase.mp updated
      have announced := kept.announced key old
      rw [pending, List.mem_cons] at announced
      exact announced.resolve_left different
    · intro key queued settled
      have different : key ≠ update.key := fun same => once.1 (same ▸ queued)
      refine kept.evicted key (pending ▸ List.mem_cons_of_mem _ queued) ?_
      exact fun old => settled (Finset.mem_erase.mpr ⟨different, old⟩)
    · unfold Asleep at *
      dsimp only
      split <;> rename_i at' <;> rw [at'] at asleep
      · trivial
      · exact ⟨asleep.1, asleep.2.1, fun member => asleep.2.2 (Finset.mem_of_mem_erase member)⟩
      · exact asleep
  · rename_i settled
    have gone := kept.evicted update.key (by rw [pending]; exact List.mem_cons_self) settled
    rw [if_neg (not_or.mpr gone)]
    refine ⟨_, rfl, { kept with once := once.2, announced := ?_, evicted := ?_ }, asleep⟩
    · intro key updated
      have announced := kept.announced key updated
      rw [pending, List.mem_cons] at announced
      exact announced.resolve_left (fun same => settled (same ▸ updated))
    · exact fun key queued => kept.evicted key (pending ▸ List.mem_cons_of_mem _ queued)

end Steps

def Invariant (state : Option KeysetSystem) : Prop :=
  ∃ system, state = some system ∧ Kept system.server system.last ∧ Asleep system.server

theorem invariant_begin (db : Key → NetcacheRecord) : Invariant (some (begin db)) := by
  refine ⟨_, rfl, ⟨?_, ?_, ?_, ?_, ?_, ?_, ?_⟩, trivial⟩ <;> simp [begin, NetcacheServer.prepare,
    NetcacheServer.pending]

theorem Invariant.step {state : Option KeysetSystem} {event : KeysetEvent} (holds : Invariant state)
    (possible : Possible state event) (careful : Careful state event) : Invariant (step state event) := by
  obtain ⟨system, rfl, kept, asleep⟩ := holds
  cases event with
  | write write =>
    obtain ⟨next, is, ok⟩ := kept.receiveWrite careful
    exact ⟨{ system with server := next }, congrArg (Option.map _) is, ok⟩
  | wake =>
    obtain ⟨next, is, ok⟩ := kept.wake asleep careful
    exact ⟨{ system with server := next }, congrArg (Option.map _) is, ok⟩
  | message kind key =>
    cases kind with
    | pop =>
      obtain ⟨uncached, idle, awake⟩ := careful
      refine ⟨_, rfl, kept.cachePop uncached idle, ?_⟩
      unfold Asleep NetcacheServer.AwaitsUpdated NetcacheServer.cachePop at *
      dsimp only
      split <;> rename_i is <;> rw [is] at asleep awake
      · trivial
      · exact ⟨asleep.1, asleep.2.1.imp_left Finset.mem_insert_of_mem, asleep.2.2⟩
      · exact fun member => (Finset.mem_insert.mp member).elim awake asleep
    | finish =>
      obtain ⟨next, is, ok⟩ := kept.cachePopFinish asleep possible
      exact ⟨⟨next, _⟩, congrArg (Option.map _) is, ok⟩
    | evict =>
      obtain ⟨next, is, ok⟩ := kept.cacheEvict asleep careful.1 careful.2
      exact ⟨⟨next, _⟩, congrArg (Option.map _) is, ok⟩
  | takeUpdate => exact ⟨_, rfl, kept.takeUpdate, asleep_takeUpdate asleep⟩
  | removeUpdated =>
    obtain ⟨next, is, ok⟩ := kept.removeUpdated asleep
    exact ⟨{ system with server := next }, congrArg (Option.map _) is, ok⟩

theorem Invariant.holds {state : Option KeysetSystem} (invariant : Invariant state) : Holds state := by
  obtain ⟨system, is, kept, _⟩ := invariant
  refine ⟨system, is, Finset.disjoint_left.mpr fun key => kept.disjoint key, kept.subset, ?_, ?_⟩
  · exact fun key _ member => .inl (kept.unfinished key member)
  · intro key _ updated
    exact List.mem_map.mp (kept.announced key updated)

/-- The key sets stay sound in every run whose messages and writes are all careful. -/
theorem keysets_sound (db : Key → NetcacheRecord) {state : Option KeysetSystem}
    (run : Runs.Reaches step (fun state event => Possible state event ∧ Careful state event)
      (some (begin db)) state) :
    Holds state :=
  (run.invariant Invariant (invariant_begin db) fun _ _ holds ok => holds.step ok.1 ok.2).holds

/-- A population during which a write arrives, the update of the key and its eviction. -/
def populateAndEvict : List KeysetEvent :=
  [.message .pop ⟨1, 0, 0, 0⟩, .write ⟨.put, false, ⟨1, 0, 0, 0⟩, [7], 1⟩, .message .pop ⟨1, 0, 0, 0⟩,
    .message .finish ⟨1, 0, 0, 0⟩, .wake, .takeUpdate, .removeUpdated, .message .finish ⟨1, 0, 0, 0⟩,
    .message .evict ⟨1, 0, 0, 0⟩]

theorem keysets_sound_populateAndEvict :
    Holds (populateAndEvict.foldl step (some (begin fun _ => ⟨[], false, 0⟩))) :=
  keysets_sound _ (Runs.Reaches.start.foldl populateAndEvict (by decide))

/-- An eviction is sent once more after its acknowledgement was lost; a write that sleeps on a population finds its
key evicted when it wakes up; a key is populated again before the update from before its eviction is over. -/
def abortingRuns : List (List KeysetEvent) :=
  [[.message .pop ⟨1, 0, 0, 0⟩, .message .finish ⟨1, 0, 0, 0⟩, .message .evict ⟨1, 0, 0, 0⟩,
      .message .evict ⟨1, 0, 0, 0⟩],
    [.message .pop ⟨1, 0, 0, 0⟩, .write ⟨.put, false, ⟨1, 0, 0, 0⟩, [7], 1⟩, .message .finish ⟨1, 0, 0, 0⟩,
      .message .evict ⟨1, 0, 0, 0⟩, .wake],
    [.message .pop ⟨1, 0, 0, 0⟩, .message .finish ⟨1, 0, 0, 0⟩, .write ⟨.put, true, ⟨1, 0, 0, 0⟩, [7], 1⟩,
      .takeUpdate, .message .evict ⟨1, 0, 0, 0⟩, .message .pop ⟨1, 0, 0, 0⟩, .removeUpdated]]

theorem not_holds_none : ¬ Holds none := fun ⟨_, is, _⟩ => nomatch is

theorem abortingRuns_abort : abortingRuns.Forall fun events =>
    Runs.AllAllowed step Possible (some (begin fun _ => ⟨[], false, 0⟩)) events ∧
      ¬ Holds (events.foldl step (some (begin fun _ => ⟨[], false, 0⟩))) := by
  refine List.forall_iff_forall_mem.mpr fun events member => ?_
  have possible : ∀ events ∈ abortingRuns,
      Runs.AllAllowed step Possible (some (begin fun _ => ⟨[], false, 0⟩)) events := by decide
  refine ⟨possible events member, ?_⟩
  have stops : events.foldl step (some (begin fun _ => ⟨[], false, 0⟩)) = none := by
    simp only [abortingRuns, List.mem_cons, List.not_mem_nil, or_false] at member
    rcases member with rfl | rfl | rfl <;> rfl
  rw [stops]
  exact not_holds_none

end KeysetSystem

end FarReach
