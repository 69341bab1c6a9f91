import FarReach.CacheMetadata
import FarReach.ServerWorker

namespace FarReach

/-- What a NetCache server or switch keeps for a key; `stat` is false once the key is deleted. No code reads
`number`: it says which write of the key this is, counted where the writes pass the switch, with 0 for what was
loaded. -/
structure NetcacheRecord where
  val : Val
  stat : Bool
  number : Nat
  deriving DecidableEq

/-- The three writes, `PUTREQ_SEQ`, `DELREQ_SEQ` and `PUTREQ_LARGEVALUE_SEQ`. -/
inductive WriteKind where
  | put
  | del
  | putLargevalue
  deriving DecidableEq

/-- A write as the server receives it. It is `cached` if the switch had the key, and has then one of the
`_SEQ_CACHED` types. -/
structure NetcacheWrite where
  kind : WriteKind
  cached : Bool
  key : Key
  val : Val
  number : Nat
  deriving DecidableEq

def NetcacheWrite.record (write : NetcacheWrite) : NetcacheRecord :=
  match write.kind with
  | .put | .putLargevalue => ⟨write.val, true, write.number⟩
  | .del => ⟨[], false, write.number⟩

structure ValueUpdate where
  key : Key
  record : NetcacheRecord
  deriving DecidableEq

/-- Where `run_server_worker` is between two of its critical sections. -/
inductive NetcacheWorker where
  | idle
  /-- Asleep in the loop on `is_being_cached`; `is_being_updated` was read before the loop. -/
  | awaitsCached (write : NetcacheWrite) (isBeingUpdated : Bool)
  /-- Asleep in the loop on `is_being_updated`. -/
  | awaitsUpdated (write : NetcacheWrite)

def NetcacheWorker.IsIdle : NetcacheWorker → Prop
  | .idle => True
  | _ => False

instance : ∀ worker, Decidable (NetcacheWorker.IsIdle worker)
  | .idle => isTrue trivial
  | .awaitsCached _ _ => isFalse id
  | .awaitsUpdated _ => isFalse id

def NetcacheWorker.write? : NetcacheWorker → Option NetcacheWrite
  | .idle => none
  | .awaitsCached write _ => some write
  | .awaitsUpdated write => some write

/-- One logical server: the three key sets, its database, the queue from the worker to the value-update thread, the
update which that thread has sent and not yet taken out of the key set, and the writes answered so far. -/
structure NetcacheServer where
  beingcached : Finset Key
  cached : Finset Key
  beingupdated : Finset Key
  db : Key → NetcacheRecord
  queue : List ValueUpdate
  updating : Option ValueUpdate
  worker : NetcacheWorker
  answered : List NetcacheWrite

namespace NetcacheServer

variable (s : NetcacheServer)

def perform (write : NetcacheWrite) : NetcacheServer :=
  { s with
    db := Function.update s.db write.key write.record
    answered := s.answered ++ [write]
    worker := .idle }

/-- The key is marked and the value-update thread notified; an overflow of the queue is only printed. -/
def notify (write : NetcacheWrite) : NetcacheServer :=
  { s with
    beingupdated := insert write.key s.beingupdated
    queue := if s.queue.length + 1 < mqSize then s.queue ++ [⟨write.key, write.record⟩] else s.queue }

/-- A write to a cached key, from the loop on `is_being_updated` on; `none` is a failed `INVARIANT`. -/
def updateCached (write : NetcacheWrite) (isBeingUpdated : Bool) : Option NetcacheServer :=
  if write.kind = .putLargevalue then some (s.perform write)
  else if isBeingUpdated then some { s with worker := .awaitsUpdated write }
  else if write.key ∈ s.beingcached then none
  else if write.key ∈ s.cached then some ((s.notify write).perform write)
  -- the key was evicted in the meantime
  else some (s.perform write)

def populated (key : Key) : NetcacheServer :=
  { s with beingcached := s.beingcached.erase key, cached := insert key s.cached }

def receiveWrite (write : NetcacheWrite) : Option NetcacheServer :=
  if write.key ∈ s.beingcached then
    if write.key ∈ s.cached then none
    else if write.cached then (s.populated write.key).updateCached write (write.key ∈ s.beingupdated)
    else some { s with worker := .awaitsCached write (write.key ∈ s.beingupdated) }
  else if write.key ∈ s.cached then s.updateCached write (write.key ∈ s.beingupdated)
  else some (s.perform write)

def wake : Option NetcacheServer :=
  match s.worker with
  | .idle => some s
  | .awaitsCached write isBeingUpdated =>
    if write.key ∈ s.beingcached then some s
    else if write.key ∈ s.cached then s.updateCached write isBeingUpdated
    else none
  | .awaitsUpdated write => s.updateCached write (write.key ∈ s.beingupdated)

/-- `NETCACHE_CACHE_POP` at the popserver, which answers with the record of the database. -/
def cachePop (key : Key) : NetcacheServer := { s with beingcached := insert key s.beingcached }

def cachePopFinish (key : Key) : Option NetcacheServer :=
  if key ∈ s.beingcached then
    if key ∈ s.cached then none else some (s.populated key)
  else if key ∈ s.cached then some s
  else none

/-- `NETCACHE_CACHE_EVICT` at the evictserver, which exits for a key in neither set. -/
def cacheEvict (key : Key) : Option NetcacheServer :=
  if key ∈ s.beingcached ∨ key ∈ s.cached then
    some { s with
      beingcached := s.beingcached.erase key
      cached := s.cached.erase key
      beingupdated := s.beingupdated.erase key }
  else none

/-- The value-update thread reads the queue and sends what it has read. -/
def takeUpdate : NetcacheServer :=
  match s.updating, s.queue with
  | none, update :: rest => { s with queue := rest, updating := some update }
  | _, _ => s

/-- After the send, without waiting for the switch, the key is taken out of the set. -/
def removeUpdated : Option NetcacheServer :=
  match s.updating with
  | none => some s
  | some update =>
    if update.key ∈ s.beingupdated then
      some { s with beingupdated := s.beingupdated.erase update.key, updating := none }
    else if update.key ∈ s.beingcached ∨ update.key ∈ s.cached then none
    else some { s with updating := none }

def prepare (db : Key → NetcacheRecord) : NetcacheServer := ⟨∅, ∅, ∅, db, [], none, .idle, []⟩

def pending : List ValueUpdate := s.updating.toList ++ s.queue

theorem pending_takeUpdate : s.takeUpdate.pending = s.pending := by
  unfold takeUpdate pending
  split
  · rename_i none queued
    rw [none, queued]
    rfl
  · rfl

def AwaitsCached (key : Key) : Prop :=
  match s.worker with
  | .awaitsCached write _ => write.key = key
  | _ => False

instance (key : Key) : Decidable (s.AwaitsCached key) := by unfold AwaitsCached; split <;> infer_instance

def AwaitsUpdated (key : Key) : Prop :=
  match s.worker with
  | .awaitsUpdated write => write.key = key
  | _ => False

instance (key : Key) : Decidable (s.AwaitsUpdated key) := by unfold AwaitsUpdated; split <;> infer_instance

end NetcacheServer

end FarReach
