import FarReach.NetcacheServer
import FarReach.Runs

namespace FarReach

/-- The packets that reach the registers of the NetCache switch. Of a large value this is fragment 0: the other
fragments match no entry. -/
inductive NetcacheOptype where
  | getreqInswitch
  | putreqInswitch
  | delreqInswitch
  | putreqLargevalueInswitch
  | cachePopInswitch
  | cachePopInswitchNlatest
  | valueupdateInswitch
  deriving DecidableEq

inductive LatestAction where
  | getLatest
  | setAndGetLatest
  | resetAndGetLatest
  | resetIsLatest
  deriving DecidableEq

/-- `access_latest_tbl`, as `configure_access_latest_tbl` fills it. -/
def accessLatest : NetcacheOptype → Bool → LatestAction
  | .getreqInswitch, true => .getLatest
  | .putreqInswitch, true => .resetAndGetLatest
  | .delreqInswitch, true => .resetAndGetLatest
  | .cachePopInswitch, _ => .setAndGetLatest
  | .valueupdateInswitch, true => .setAndGetLatest
  | .putreqLargevalueInswitch, true => .resetAndGetLatest
  | .cachePopInswitchNlatest, _ => .resetAndGetLatest
  | _, _ => .resetIsLatest

/-- Whether `access_deleted_tbl` and the tables of the value write their registers. -/
def storesRecord : NetcacheOptype → Bool → Bool
  | .cachePopInswitch, _ => true
  | .cachePopInswitchNlatest, _ => true
  | .valueupdateInswitch, isCached => isCached
  | _, _ => false

/-- The registers of one index. No table reads the key of the packet that stored the record, nor `population`: the
number of the population that the packet belongs to, or 0 for a value update. -/
structure NetcacheSlot where
  latest : Bool
  key : Key
  record : NetcacheRecord
  population : Nat

/-- What the egress tables do to the registers. -/
def NetcacheSlot.access (slot : NetcacheSlot) (optype : NetcacheOptype) (isCached : Bool) (key : Key)
    (record : NetcacheRecord) (population : Nat) : NetcacheSlot :=
  let latest := match accessLatest optype isCached with
    | .setAndGetLatest => true
    | .resetAndGetLatest => false
    | .getLatest | .resetIsLatest => slot.latest
  if storesRecord optype isCached then ⟨latest, key, record, population⟩ else { slot with latest := latest }

def WriteKind.optype : WriteKind → NetcacheOptype
  | .put => .putreqInswitch
  | .del => .delreqInswitch
  | .putLargevalue => .putreqLargevalueInswitch

/-- A `NETCACHE_CACHE_POP_ACK`. The populations of a key are numbered; no code reads the number. -/
structure CachePopAck where
  key : Key
  record : NetcacheRecord
  population : Nat
  deriving DecidableEq

/-- A `CACHE_POP_INSWITCH`, or its `NLATEST` form for a large value. -/
structure CachePopInswitch where
  key : Key
  idx : Nat
  record : NetcacheRecord
  nlatest : Bool
  population : Nat
  deriving DecidableEq

/-- The switch, the logical servers and what was sent between them. A message may be lost, delayed or overtaken,
so none is ever taken away; the write requests that can reach a server are those which `passed` the switch. -/
structure NetcacheSystem where
  lookup : Key → Option Nat
  slots : Nat → NetcacheSlot
  passed : List NetcacheWrite
  servers : Nat → NetcacheServer
  stopped : Nat → Bool
  populations : Key → Nat
  popAcks : List CachePopAck
  populates : List CachePopInswitch
  updates : List ValueUpdate

inductive NetcacheEvent where
  /-- The request of a client passes the switch. -/
  | write (kind : WriteKind) (key : Key) (val : Val)
  | receiveWrite (write : NetcacheWrite)
  | wake (server : Nat)
  | cachePop (key : Key)
  | cachePopFinish (key : Key)
  | cacheEvict (key : Key)
  | takeUpdate (server : Nat)
  | removeUpdated (server : Nat)
  /-- switchos sends the value of an acknowledgement to an index. -/
  | sendPopulate (ack : CachePopAck) (idx : Nat)
  | populate (packet : CachePopInswitch)
  | addLookup (key : Key) (idx : Nat)
  | removeLookup (key : Key)
  | valueUpdate (update : ValueUpdate)

namespace NetcacheSystem

variable (owner : Key → Nat) (s : NetcacheSystem)

def countOf (key : Key) (writes : List NetcacheWrite) : Nat := writes.countP (·.key = key)

def accessSlot (idx : Nat) (optype : NetcacheOptype) (isCached : Bool) (key : Key) (record : NetcacheRecord)
    (population : Nat) : NetcacheSystem :=
  { s with slots := Function.update s.slots idx ((s.slots idx).access optype isCached key record population) }

/-- The request is numbered, invalidates the record if the key is cached, and goes on to the server. -/
def passWrite (kind : WriteKind) (key : Key) (val : Val) : NetcacheSystem :=
  let write : NetcacheWrite := ⟨kind, (s.lookup key).isSome, key, val, countOf key s.passed + 1⟩
  let accessed := match s.lookup key with
    | some idx => s.accessSlot idx kind.optype true key write.record 0
    | none => s
  { accessed with passed := s.passed ++ [write] }

def atServer (server : Nat) : Option NetcacheServer → NetcacheSystem
  | some next => { s with servers := Function.update s.servers server next }
  | none => { s with stopped := Function.update s.stopped server true }

/-- The packet with which switchos answers an acknowledgement: a large value is replaced by the default one. -/
def populatePacket (ack : CachePopAck) (idx : Nat) : CachePopInswitch :=
  if ack.record.val.length ≤ switchMaxVallen then ⟨ack.key, idx, ack.record, false, ack.population⟩
  else ⟨ack.key, idx, { ack.record with val := [] }, true, ack.population⟩

/-- `cache_lookup_tbl` also matches this packet, and then replaces its index. -/
def takePopulate (packet : CachePopInswitch) : NetcacheSystem :=
  s.accessSlot ((s.lookup packet.key).getD packet.idx)
    (if packet.nlatest then .cachePopInswitchNlatest else .cachePopInswitch) (s.lookup packet.key).isSome
    packet.key packet.record packet.population

def takeValueUpdate (update : ValueUpdate) : NetcacheSystem :=
  match s.lookup update.key with
  | some idx => s.accessSlot idx .valueupdateInswitch true update.key update.record 0
  | none => s

def sendUpdate (server : Nat) : NetcacheSystem :=
  let next := (s.servers server).takeUpdate
  { s with
    servers := Function.update s.servers server next
    updates := s.updates ++ next.updating.toList }

def step : NetcacheEvent → NetcacheSystem
  | .write kind key val => s.passWrite kind key val
  | .receiveWrite write => s.atServer (owner write.key) ((s.servers (owner write.key)).receiveWrite write)
  | .wake server => s.atServer server (s.servers server).wake
  | .cachePop key =>
    { s.atServer (owner key) (some ((s.servers (owner key)).cachePop key)) with
      populations := Function.update s.populations key (s.populations key + 1)
      popAcks := s.popAcks ++ [⟨key, (s.servers (owner key)).db key, s.populations key + 1⟩] }
  | .cachePopFinish key => s.atServer (owner key) ((s.servers (owner key)).cachePopFinish key)
  | .cacheEvict key => s.atServer (owner key) ((s.servers (owner key)).cacheEvict key)
  | .takeUpdate server => s.sendUpdate server
  | .removeUpdated server => s.atServer server (s.servers server).removeUpdated
  | .sendPopulate ack idx => { s with populates := s.populates ++ [populatePacket ack idx] }
  | .populate packet => s.takePopulate packet
  | .addLookup key idx => { s with lookup := Function.update s.lookup key (some idx) }
  | .removeLookup key => { s with lookup := Function.update s.lookup key none }
  | .valueUpdate update => s.takeValueUpdate update

/-- The record of a key before the first write, with its value and `stat` as loaded. -/
def loadedRecord (loaded : Key → Val × Bool) (key : Key) : NetcacheRecord := ⟨(loaded key).1, (loaded key).2, 0⟩

def begin (loaded : Key → Val × Bool) : NetcacheSystem where
  lookup := fun _ => none
  slots := fun _ => ⟨false, ⟨0, 0, 0, 0⟩, ⟨[], false, 0⟩, 0⟩
  passed := []
  servers := fun _ => .prepare (loadedRecord loaded)
  stopped := fun _ => false
  populations := fun _ => 0
  popAcks := []
  populates := []
  updates := []

/-- `GETREQ_INSWITCH`: the record of the `GETRES`, or nothing if the request goes on to the server. -/
def get (key : Key) : Option NetcacheRecord :=
  (s.lookup key).bind fun idx => if (s.slots idx).latest then some (s.slots idx).record else none

/-- A thread takes only what was sent to it, a worker only when it is not asleep, and switchos gives a key an index
that no key has. -/
def Possible : NetcacheEvent → Prop
  | .receiveWrite write => write ∈ s.passed ∧ s.stopped (owner write.key) = false ∧
      (s.servers (owner write.key)).worker.IsIdle
  | .wake server => s.stopped server = false
  | .cachePop key => s.stopped (owner key) = false
  | .cachePopFinish key => s.stopped (owner key) = false
  | .cacheEvict key => s.stopped (owner key) = false
  | .takeUpdate server => s.stopped server = false ∧ (s.servers server).updating = none
  | .removeUpdated server => s.stopped server = false
  | .sendPopulate ack _ => ack ∈ s.popAcks
  | .populate packet => packet ∈ s.populates
  | .addLookup key idx => s.lookup key = none ∧ ∀ other, s.lookup other ≠ some idx
  | .valueUpdate update => update ∈ s.updates
  | .write _ _ _ | .removeLookup _ => True

def Engaged (lookup : Key → Option Nat) (server : NetcacheServer) (key : Key) : Prop :=
  lookup key ≠ none ∨ key ∈ server.cached ∨ key ∈ server.beingcached ∨ key ∈ server.beingupdated

/-- Everything that has passed the switch before the write is answered, and the write is not. -/
structure IsNext (passed answered : List NetcacheWrite) (write : NetcacheWrite) : Prop where
  unanswered : write ∉ answered
  earlier : ∀ earlier ∈ passed, earlier.key = write.key → earlier.number < write.number → earlier ∈ answered

def AllAnswered (key : Key) : Prop := ∀ write ∈ s.passed, write.key = key → write ∈ (s.servers (owner key)).answered

/-- A write of a key that is engaged passes the switch behind the answers to the earlier ones, and while the key is
neither being cached nor being updated; the writes of a key reach its server in their order, each of them once. A
population begins when all writes are answered, takes place at an index that is not in use, and adds the key before
`NETCACHE_CACHE_POP_FINISH` has arrived, to the index that its own packet was stored at. The value update of a cached
key reaches the switch before the key is taken out of the set of the keys being updated, and no such key is evicted.
-/
def InOrder : NetcacheEvent → Prop
  | .write _ key _ => Engaged s.lookup (s.servers (owner key)) key → s.AllAnswered owner key ∧
      key ∉ (s.servers (owner key)).beingcached ∧ key ∉ (s.servers (owner key)).beingupdated
  | .receiveWrite write => IsNext s.passed (s.servers (owner write.key)).answered write
  | .cachePop key => s.AllAnswered owner key
  | .cacheEvict key => key ∉ (s.servers (owner key)).beingupdated
  | .populate packet => s.lookup packet.key = none ∧ ∀ other, s.lookup other ≠ some packet.idx
  | .addLookup key idx => key ∈ (s.servers (owner key)).beingcached ∧ (s.slots idx).key = key ∧
      (s.slots idx).population = s.populations key
  | .valueUpdate update => s.lookup update.key ≠ none → (s.servers (owner update.key)).updating = some update
  | _ => True

/-- Every record the switch answers a GET with, once a write of the key was acknowledged, is the record of that
write or of one that has passed the switch after it. -/
def Coherent : Prop :=
  ∀ key record, s.get key = some record →
    ∀ write ∈ (s.servers (owner key)).answered, write.key = key →
      ∃ before later after, s.passed = before ++ later :: after ∧ later.key = key ∧ later.record = record ∧
        (write = later ∨ write ∈ before)

def Genuine (loaded : Key → Val × Bool) (passed : List NetcacheWrite) (key : Key) (record : NetcacheRecord) : Prop :=
  record = loadedRecord loaded key ∨ ∃ write ∈ passed, write.key = key ∧ write.record = record

theorem Genuine.mono {loaded : Key → Val × Bool} {passed : List NetcacheWrite} {key : Key} {record : NetcacheRecord}
    (genuine : Genuine loaded passed key record) (more : List NetcacheWrite) :
    Genuine loaded (passed ++ more) key record :=
  genuine.imp_right fun ⟨write, member, is⟩ => ⟨write, List.mem_append_left _ member, is⟩

theorem number_record (write : NetcacheWrite) : write.record.number = write.number := by
  unfold NetcacheWrite.record
  split <;> rfl

theorem countOf_concat (key : Key) (writes : List NetcacheWrite) (write : NetcacheWrite) :
    countOf key (writes ++ [write]) = countOf key writes + if write.key = key then 1 else 0 := by
  unfold countOf
  rw [List.countP_append, List.countP_singleton]
  simp

/-- The writes of a key are numbered as they pass. -/
structure Numbered (passed : List NetcacheWrite) : Prop where
  position : ∀ before write after, passed = before ++ write :: after → write.number = countOf write.key before + 1
  last : ∀ key, countOf key passed = 0 ∨ ∃ write ∈ passed, write.key = key ∧ write.number = countOf key passed

section Numbers

variable {loaded : Key → Val × Bool} {passed : List NetcacheWrite} {write : NetcacheWrite} {key : Key}

theorem Numbered.le (numbered : Numbered passed) (member : write ∈ passed) :
    write.number ≤ countOf write.key passed := by
  obtain ⟨before, after, rfl⟩ := List.append_of_mem member
  rw [numbered.position before write after rfl]
  unfold countOf
  rw [List.countP_append, List.countP_cons_of_pos (by simp)]
  omega

theorem Numbered.genuine_le (numbered : Numbered passed) {record : NetcacheRecord}
    (genuine : Genuine loaded passed key record) : record.number ≤ countOf key passed := by
  rcases genuine with rfl | ⟨write, member, rfl, rfl⟩
  · exact Nat.zero_le _
  · rw [number_record]
    exact numbered.le member

theorem Numbered.concat (numbered : Numbered passed) (number : write.number = countOf write.key passed + 1) :
    Numbered (passed ++ [write]) where
  position := by
    intro before other after split
    rcases List.eq_nil_or_concat' after with rfl | ⟨rest, last, rfl⟩
    · obtain ⟨rfl, same⟩ := List.append_inj' split rfl
      cases same
      exact number
    · have cut : passed ++ [write] = (before ++ other :: rest) ++ [last] := split.trans (by simp)
      exact numbered.position before other rest (List.append_inj' cut rfl).1
  last := by
    intro key
    rw [countOf_concat]
    split
    · rename_i same
      exact .inr ⟨write, List.mem_append_right _ List.mem_cons_self, same, same ▸ number⟩
    · refine (numbered.last key).imp id fun ⟨last, member, is⟩ => ⟨last, List.mem_append_left _ member, is⟩

end Numbers

/-- The write is the next one that server `i` performs. -/
structure Due (owner : Key → Nat) (passed answered : List NetcacheWrite) (i : Nat) (write : NetcacheWrite) : Prop
    extends IsNext passed answered write where
  member : write ∈ passed
  own : owner write.key = i

/-- The invariant of a server. What it knows comes from writes that have passed the switch; it answers the writes of a
key in their order; of an engaged key at most the last write is not answered; and an update that it has to send, of
which there is one at most for each key, is that of the last write. -/
structure Serves (owner : Key → Nat) (loaded : Key → Val × Bool) (lookup : Key → Option Nat)
    (passed : List NetcacheWrite) (i : Nat) (server : NetcacheServer) : Prop where
  db : ∀ key, Genuine loaded passed key (server.db key)
  answered : ∀ later ∈ server.answered, later ∈ passed ∧ later.number ≤ (server.db later.key).number ∧
    ∀ write ∈ passed, write.key = later.key → write.number < later.number → write ∈ server.answered
  asleep : ∀ write, server.worker.write? = some write → Due owner passed server.answered i write
  engaged : ∀ key, owner key = i → Engaged lookup server key →
    ∀ write ∈ passed, write.key = key → write.number < countOf key passed → write ∈ server.answered
  pending : ∀ update ∈ server.pending, owner update.key = i ∧ update.key ∈ server.beingupdated ∧
    Genuine loaded passed update.key update.record ∧ update.record.number = countOf update.key passed
  distinct : (server.pending.map (·.key)).Nodup
  unmarked : ∀ write, server.worker = .awaitsCached write false → write.key ∉ server.beingupdated

section Servers

variable {owner : Key → Nat} {loaded : Key → Val × Bool} {lookup : Key → Option Nat} {passed : List NetcacheWrite}
  {i : Nat} {server next : NetcacheServer} {write : NetcacheWrite}
  (serves : Serves owner loaded lookup passed i server)

include serves

theorem Serves.number_eq (numbered : Numbered passed) (due : Due owner passed server.answered i write)
    (engaged : Engaged lookup server write.key) : write.number = countOf write.key passed := by
  by_contra other
  exact due.unanswered (serves.engaged write.key due.own engaged write due.member rfl
    (Nat.lt_of_le_of_ne (numbered.le due.member) other))

theorem Serves.sets {beingcached cached : Finset Key}
    (engaged : ∀ key, key ∈ cached ∨ key ∈ beingcached → (key ∈ server.cached ∨ key ∈ server.beingcached) ∨
      ∀ write ∈ passed, write.key = key → write ∈ server.answered) :
    Serves owner loaded lookup passed i { server with beingcached := beingcached, cached := cached } := by
  refine { serves with engaged := fun key own isEngaged write member same before => ?_ }
  have old : Engaged lookup server key ∨ ∀ write ∈ passed, write.key = key → write ∈ server.answered := by
    rcases isEngaged with looked | inCached | inBeingcached | inBeingupdated
    · exact .inl (.inl looked)
    · exact (engaged key (.inl inCached)).imp_left fun sets => .inr (sets.imp_right .inl)
    · exact (engaged key (.inr inBeingcached)).imp_left fun sets => .inr (sets.imp_right .inl)
    · exact .inl (.inr (.inr (.inr inBeingupdated)))
  rcases old with old | all
  · exact serves.engaged key own old write member same before
  · exact all write member same

theorem Serves.populated (inside : key ∈ server.beingcached) :
    Serves owner loaded lookup passed i (server.populated key) := by
  refine serves.sets fun other member => .inl ?_
  rcases member with inCached | inBeingcached
  · rcases Finset.mem_insert.mp inCached with rfl | old
    · exact .inr inside
    · exact .inl old
  · exact .inr (Finset.mem_of_mem_erase inBeingcached)

theorem Serves.sleep (due : Due owner passed server.answered i write) {worker : NetcacheWorker}
    (is : worker.write? = some write) (unmarked : worker = .awaitsCached write false →
      write.key ∉ server.beingupdated) :
    Serves owner loaded lookup passed i { server with worker := worker } := by
  refine { serves with asleep := fun other isOther => ?_, unmarked := fun other isOther => ?_ }
  · cases is.symm.trans isOther
    exact due
  · have isWorker : worker = .awaitsCached other false := isOther
    rw [isWorker] at is unmarked
    cases is
    exact unmarked rfl

theorem Serves.idle : Serves owner loaded lookup passed i { server with worker := .idle } :=
  { serves with asleep := fun _ is => (Option.some_ne_none _ is.symm).elim, unmarked := by simp }

theorem Serves.perform (due : Due owner passed server.answered i write) :
    Serves owner loaded lookup passed i (server.perform write) where
  db key := by
    unfold NetcacheServer.perform
    dsimp only
    by_cases same : key = write.key
    · rw [same, Function.update_self]
      exact .inr ⟨write, due.member, rfl, rfl⟩
    · rw [Function.update_of_ne same]
      exact serves.db key
  answered := by
    intro later isAnswered
    unfold NetcacheServer.perform at isAnswered ⊢
    dsimp only at isAnswered ⊢
    rcases List.mem_append.mp isAnswered with old | new
    · obtain ⟨passed, newest, earlier⟩ := serves.answered later old
      refine ⟨passed, ?_, fun other inside same before => List.mem_append_left _ (earlier other inside same before)⟩
      by_cases same : later.key = write.key
      · rw [same, Function.update_self, number_record]
        by_contra behind
        exact due.unanswered (earlier write due.member same.symm (Nat.lt_of_not_le behind))
      · rw [Function.update_of_ne same]
        exact newest
    · rw [List.mem_singleton.mp new, Function.update_self, number_record]
      exact ⟨due.member, le_rfl,
        fun other inside same before => List.mem_append_left _ (due.earlier other inside same before)⟩
  asleep := fun _ is => (Option.some_ne_none _ is.symm).elim
  engaged := fun key own engaged other inside same before =>
    List.mem_append_left _ (serves.engaged key own engaged other inside same before)
  pending := serves.pending
  distinct := serves.distinct
  unmarked := by simp [NetcacheServer.perform]

theorem Serves.notify (numbered : Numbered passed) (due : Due owner passed server.answered i write)
    (isIdle : server.worker = .idle) (isCached : write.key ∈ server.cached)
    (unmarked : write.key ∉ server.beingupdated) :
    Serves owner loaded lookup passed i (server.notify write) := by
  have number := serves.number_eq numbered due (.inr (.inl isCached))
  have old : ∀ update ∈ server.pending, owner update.key = i ∧ update.key ∈ insert write.key server.beingupdated ∧
      Genuine loaded passed update.key update.record ∧ update.record.number = countOf update.key passed :=
    fun update inside => ⟨(serves.pending update inside).1,
      Finset.mem_insert_of_mem (serves.pending update inside).2.1, (serves.pending update inside).2.2⟩
  refine ⟨serves.db, serves.answered, ?_, ?_, ?_, ?_, ?_⟩
  · intro other is
    have none : (NetcacheWorker.write? server.worker) = some other := is
    rw [isIdle] at none
    exact (Option.some_ne_none _ none.symm).elim
  · intro key ownKey engaged
    refine serves.engaged key ownKey ?_
    rcases engaged with looked | inCached | inBeingcached | inBeingupdated
    · exact .inl looked
    · exact .inr (.inl inCached)
    · exact .inr (.inr (.inl inBeingcached))
    · rcases Finset.mem_insert.mp inBeingupdated with rfl | inside
      · exact .inr (.inl isCached)
      · exact .inr (.inr (.inr inside))
  · intro update inside
    unfold NetcacheServer.pending NetcacheServer.notify at inside
    dsimp only at inside
    split at inside
    · rw [← List.append_assoc, List.mem_append] at inside
      rcases inside with before | new
      · exact old update before
      · rw [List.mem_singleton.mp new]
        exact ⟨due.own, Finset.mem_insert_self _ _, .inr ⟨write, due.member, rfl, rfl⟩,
          (number_record write).trans number⟩
    · exact old update inside
  · unfold NetcacheServer.pending NetcacheServer.notify
    dsimp only
    split
    · rw [← List.append_assoc, List.map_append]
      refine serves.distinct.append (List.nodup_singleton _) (List.disjoint_singleton.mpr fun inside => unmarked ?_)
      obtain ⟨update, before, same⟩ := List.mem_map.mp inside
      exact (show update.key = write.key from same) ▸ (serves.pending update before).2.1
    · exact serves.distinct
  · intro other is
    have none : server.worker = .awaitsCached other false := is
    rw [isIdle] at none
    cases none

/-- The server goes on, and no key becomes one that is being cached. -/
def Keeps (owner : Key → Nat) (loaded : Key → Val × Bool) (lookup : Key → Option Nat) (passed : List NetcacheWrite)
    (i : Nat) (server next : NetcacheServer) : Prop :=
  Serves owner loaded lookup passed i next ∧ next.beingcached ⊆ server.beingcached

theorem Serves.updateCached (numbered : Numbered passed) (due : Due owner passed server.answered i write)
    {isBeingUpdated : Bool} (unmarked : isBeingUpdated = false → write.key ∉ server.beingupdated)
    (done : server.updateCached write isBeingUpdated = some next) :
    Keeps owner loaded lookup passed i server next := by
  unfold NetcacheServer.updateCached at done
  split_ifs at done with large updated _ isCached <;> cases done
  · exact ⟨serves.perform due, subset_rfl⟩
  · exact ⟨serves.sleep due rfl (by simp), subset_rfl⟩
  · have notified := serves.idle.notify numbered due rfl isCached (unmarked (by simpa using updated))
    exact ⟨notified.perform due, subset_rfl⟩
  · exact ⟨serves.perform due, subset_rfl⟩

theorem Serves.receiveWrite (numbered : Numbered passed) (due : Due owner passed server.answered i write)
    (done : server.receiveWrite write = some next) : Keeps owner loaded lookup passed i server next := by
  unfold NetcacheServer.receiveWrite at done
  split_ifs at done with isBeingCached
  · obtain ⟨kept, sets⟩ := (serves.populated isBeingCached).updateCached numbered due
      (fun unmarked => of_decide_eq_false unmarked) done
    exact ⟨kept, sets.trans (Finset.erase_subset _ _)⟩
  · cases done
    refine ⟨serves.sleep due rfl fun is => ?_, subset_rfl⟩
    injection is with _ unmarked
    exact of_decide_eq_false unmarked
  · exact serves.updateCached numbered due (fun unmarked => of_decide_eq_false unmarked) done
  · cases done
    exact ⟨serves.perform due, subset_rfl⟩

theorem Serves.wake (numbered : Numbered passed)
    (done : server.wake = some next) : Keeps owner loaded lookup passed i server next := by
  unfold NetcacheServer.wake at done
  split at done
  · cases done
    exact ⟨serves, subset_rfl⟩
  · rename_i write isBeingUpdated is
    have due := serves.asleep write (by rw [is]; rfl)
    split_ifs at done
    · cases done
      exact ⟨serves, subset_rfl⟩
    · refine serves.updateCached numbered due (fun unmarked => serves.unmarked write ?_) done
      rw [is, unmarked]
  · rename_i write is
    have due := serves.asleep write (by rw [is]; rfl)
    exact serves.updateCached numbered due (fun unmarked => of_decide_eq_false unmarked) done

theorem Serves.cachePopFinish (done : server.cachePopFinish key = some next) :
    Keeps owner loaded lookup passed i server next := by
  unfold NetcacheServer.cachePopFinish at done
  split_ifs at done with isBeingCached <;> cases done
  · exact ⟨serves.populated isBeingCached, Finset.erase_subset _ _⟩
  · exact ⟨serves, subset_rfl⟩

theorem Serves.cacheEvict (unmarked : key ∉ server.beingupdated) (done : server.cacheEvict key = some next) :
    Keeps owner loaded lookup passed i server next := by
  unfold NetcacheServer.cacheEvict at done
  split_ifs at done
  cases done
  rw [Finset.erase_eq_of_notMem unmarked]
  refine ⟨serves.sets fun other member => .inl ?_, Finset.erase_subset _ _⟩
  exact member.imp Finset.mem_of_mem_erase Finset.mem_of_mem_erase

theorem Serves.takeUpdate : Keeps owner loaded lookup passed i server server.takeUpdate := by
  have pending := server.pending_takeUpdate
  unfold NetcacheServer.takeUpdate at pending ⊢
  split at pending
  · exact ⟨{ serves with pending := pending ▸ serves.pending, distinct := pending ▸ serves.distinct }, subset_rfl⟩
  · exact ⟨serves, subset_rfl⟩

theorem Serves.removeUpdated (done : server.removeUpdated = some next) :
    Keeps owner loaded lookup passed i server next := by
  unfold NetcacheServer.removeUpdated at done
  split at done
  · cases done
    exact ⟨serves, subset_rfl⟩
  rename_i update is
  have pending : server.pending = update :: server.queue := by
    unfold NetcacheServer.pending
    rw [is]
    rfl
  have marked := serves.pending
  have distinct := serves.distinct
  rw [pending] at marked distinct
  rw [if_pos (marked update List.mem_cons_self).2.1] at done
  cases done
  obtain ⟨only, queued⟩ := List.nodup_cons.mp distinct
  refine ⟨{ serves with engaged := ?_, pending := ?_, distinct := queued, unmarked := ?_ }, subset_rfl⟩
  · intro key own engaged
    refine serves.engaged key own (engaged.imp_right (Or.imp_right (Or.imp_right Finset.mem_of_mem_erase)))
  · intro other inside
    obtain ⟨own, isMarked, current⟩ := marked other (List.mem_cons_of_mem _ inside)
    refine ⟨own, Finset.mem_erase.mpr ⟨fun same => only ?_, isMarked⟩, current⟩
    exact List.mem_map.mpr ⟨other, inside, same⟩
  · exact fun write isWorker marked => serves.unmarked write isWorker (Finset.mem_of_mem_erase marked)

theorem Serves.looks {changed : Key → Option Nat}
    (engaged : ∀ key, owner key = i → changed key ≠ none → lookup key ≠ none ∨ key ∈ server.beingcached) :
    Serves owner loaded changed passed i server := by
  refine { serves with engaged := fun key own isEngaged => serves.engaged key own ?_ }
  rcases isEngaged with looked | sets
  · exact (engaged key own looked).imp_right fun inside => .inr (.inl inside)
  · exact .inr sets

theorem Serves.pass (numbered : Numbered passed) (number : write.number = countOf write.key passed + 1)
    (quiet : owner write.key = i → Engaged lookup server write.key →
      (∀ other ∈ passed, other.key = write.key → other ∈ server.answered) ∧ write.key ∉ server.beingupdated) :
    Serves owner loaded lookup (passed ++ [write]) i server := by
  -- no write that has passed is behind the new one
  have earlier : ∀ later ∈ passed, ∀ other ∈ passed ++ [write], other.key = later.key → other.number < later.number →
      other ∈ passed := by
    intro later member other inside same before
    refine (List.mem_append.mp inside).resolve_right fun last => ?_
    rw [List.mem_singleton.mp last] at same before
    have bound := numbered.le member
    rw [← same] at bound
    omega
  refine ⟨fun key => (serves.db key).mono _, ?_, ?_, ?_, ?_, serves.distinct, serves.unmarked⟩
  · intro later isAnswered
    obtain ⟨member, newest, before⟩ := serves.answered later isAnswered
    exact ⟨List.mem_append_left _ member, newest,
      fun other inside same less => before other (earlier later member other inside same less) same less⟩
  · intro asleep is
    have due := serves.asleep asleep is
    refine ⟨⟨due.unanswered, fun other inside same less => ?_⟩, List.mem_append_left _ due.member, due.own⟩
    exact due.earlier other (earlier asleep due.member other inside same less) same less
  · intro key own engaged other inside same less
    rcases List.mem_append.mp inside with old | last
    · rw [countOf_concat] at less
      split at less
      · rename_i isKey
        subst isKey
        exact (quiet own engaged).1 other old same
      · exact serves.engaged key own engaged other old same less
    · rw [List.mem_singleton.mp last] at same less
      rw [countOf_concat, if_pos same, ← same] at less
      omega
  · intro update inside
    obtain ⟨own, marked, genuine, current⟩ := serves.pending update inside
    refine ⟨own, marked, genuine.mono _, ?_⟩
    have different : write.key ≠ update.key := by
      intro same
      rw [← same] at own marked
      exact (quiet own (.inr (.inr (.inr marked)))).2 marked
    rw [countOf_concat, if_neg different]
    exact current

end Servers

/-- A genuine record of a population; while the key is being cached and the population is its last one, it is that of
the last write. -/
structure Fresh (loaded : Key → Val × Bool) (passed : List NetcacheWrite) (populations : Key → Nat)
    (beingcached : Key → Finset Key) (key : Key) (record : NetcacheRecord) (population : Nat) : Prop where
  genuine : Genuine loaded passed key record
  bound : population ≤ populations key
  current : population = populations key → key ∈ beingcached key → record.number = countOf key passed

abbrev FreshIn (owner : Key → Nat) (loaded : Key → Val × Bool) (s : NetcacheSystem) :
    Key → NetcacheRecord → Nat → Prop :=
  Fresh loaded s.passed s.populations fun key => (s.servers (owner key)).beingcached

structure Invariant (owner : Key → Nat) (loaded : Key → Val × Bool) (s : NetcacheSystem) : Prop where
  numbered : Numbered s.passed
  serves : ∀ i, Serves owner loaded s.lookup s.passed i (s.servers i)
  popAcks : ∀ ack ∈ s.popAcks, FreshIn owner loaded s ack.key ack.record ack.population
  populates : ∀ packet ∈ s.populates, packet.nlatest = false →
    FreshIn owner loaded s packet.key packet.record packet.population
  slots : ∀ idx, (s.slots idx).latest = true →
    FreshIn owner loaded s (s.slots idx).key (s.slots idx).record (s.slots idx).population
  cached : ∀ key idx, s.lookup key = some idx → (s.slots idx).latest = true →
    (s.slots idx).key = key ∧ (s.slots idx).record.number = countOf key s.passed
  own : ∀ key other idx, s.lookup key = some idx → s.lookup other = some idx → key = other

section Steps

variable {owner : Key → Nat} {loaded : Key → Val × Bool} {s : NetcacheSystem} {idx : Nat} {key : Key}

theorem invariant_begin (owner : Key → Nat) (loaded : Key → Val × Bool) : Invariant owner loaded (begin loaded) where
  numbered := ⟨by simp [begin], fun _ => .inl rfl⟩
  serves := fun _ => ⟨fun _ => .inl rfl, by simp [begin, NetcacheServer.prepare],
    fun _ is => (Option.some_ne_none _ is.symm).elim, by simp [begin], by simp [begin, NetcacheServer.prepare,
      NetcacheServer.pending],
    by simp [begin, NetcacheServer.prepare, NetcacheServer.pending], by simp [begin, NetcacheServer.prepare]⟩
  popAcks := by simp [begin]
  populates := by simp [begin]
  slots := by simp [begin]
  cached := by simp [begin]
  own := by simp [begin]

variable (invariant : Invariant owner loaded s)

include invariant

/-- Nothing becomes stale as long as no key becomes one that is being cached. -/
theorem Invariant.servers {servers : Nat → NetcacheServer} {stopped : Nat → Bool} {updates : List ValueUpdate}
    (keeps : ∀ i, Keeps owner loaded s.lookup s.passed i (s.servers i) (servers i)) :
    Invariant owner loaded { s with servers := servers, stopped := stopped, updates := updates } := by
  have still {key record population} (fresh : FreshIn owner loaded s key record population) :
      FreshIn owner loaded { s with servers := servers } key record population :=
    ⟨fresh.genuine, fresh.bound, fun is inside => fresh.current is ((keeps _).2 inside)⟩
  exact { invariant with
    serves := fun i => (keeps i).1
    popAcks := fun ack member => still (invariant.popAcks ack member)
    populates := fun packet member latest => still (invariant.populates packet member latest)
    slots := fun idx latest => still (invariant.slots idx latest) }

theorem Invariant.keeps {server : Nat} {after : NetcacheServer}
    (keeps : Keeps owner loaded s.lookup s.passed server (s.servers server) after) (i : Nat) :
    Keeps owner loaded s.lookup s.passed i (s.servers i) (Function.update s.servers server after i) := by
  by_cases same : i = server
  · subst same
    rw [Function.update_self]
    exact keeps
  · rw [Function.update_of_ne same]
    exact ⟨invariant.serves i, subset_rfl⟩

theorem Invariant.atServer (server : Nat) {next : Option NetcacheServer}
    (keeps : ∀ after, next = some after → Keeps owner loaded s.lookup s.passed server (s.servers server) after) :
    Invariant owner loaded (s.atServer server next) := by
  cases next with
  | none => exact invariant.servers fun i => ⟨invariant.serves i, subset_rfl⟩
  | some after => exact invariant.servers (invariant.keeps (keeps after rfl))

/-- A slot that is written keeps the invariant if it is not latest afterwards, or holds a fresh record of the key
which has the index, from the last write of that key. -/
theorem Invariant.accessSlot {after : NetcacheSlot}
    (fresh : after.latest = true → FreshIn owner loaded s after.key after.record after.population)
    (current : after.latest = true → ∀ cached, s.lookup cached = some idx →
      after.key = cached ∧ after.record.number = countOf cached s.passed) :
    Invariant owner loaded { s with slots := Function.update s.slots idx after } := by
  refine { invariant with slots := fun other latest => ?_, cached := fun cached other found latest => ?_ }
  · by_cases is : other = idx
    · subst is
      simp only [Function.update_self] at latest ⊢
      exact fresh latest
    · simp only [Function.update_of_ne is] at latest ⊢
      exact invariant.slots other latest
  · by_cases is : other = idx
    · subst is
      simp only [Function.update_self] at latest ⊢
      exact current latest cached found
    · simp only [Function.update_of_ne is] at latest ⊢
      exact invariant.cached cached other found latest

omit invariant in
theorem latest_access_write (slot : NetcacheSlot) (kind : WriteKind) (key : Key) (record : NetcacheRecord) :
    (slot.access kind.optype true key record 0).latest = false := by
  cases kind <;> rfl

/-- One more write has passed in order, and the slot of its key is not latest. -/
theorem Invariant.pass {write : NetcacheWrite}
    (number : write.number = countOf write.key s.passed + 1)
    (invalid : ∀ idx, s.lookup write.key = some idx → (s.slots idx).latest = false)
    (quiet : Engaged s.lookup (s.servers (owner write.key)) write.key → s.AllAnswered owner write.key ∧
      write.key ∉ (s.servers (owner write.key)).beingcached ∧
        write.key ∉ (s.servers (owner write.key)).beingupdated) :
    Invariant owner loaded { s with passed := s.passed ++ [write] } := by
  have still {key record population} (fresh : FreshIn owner loaded s key record population) :
      FreshIn owner loaded { s with passed := s.passed ++ [write] } key record population := by
    refine ⟨fresh.genuine.mono _, fresh.bound, fun is inside => ?_⟩
    have different : write.key ≠ key := by
      rintro rfl
      exact (quiet (.inr (.inr (.inl inside)))).2.1 inside
    rw [countOf_concat, if_neg different]
    exact fresh.current is inside
  refine ⟨invariant.numbered.concat number, fun i => ?_, fun ack member => still (invariant.popAcks ack member),
    fun packet member latest => still (invariant.populates packet member latest),
    fun idx latest => still (invariant.slots idx latest), ?_, invariant.own⟩
  · refine (invariant.serves i).pass invariant.numbered number fun own engaged => ?_
    subst own
    exact ⟨(quiet engaged).1, (quiet engaged).2.2⟩
  · intro key idx found latest
    have different : write.key ≠ key := by
      rintro rfl
      exact absurd (latest.symm.trans (invalid idx found)) (by decide)
    rw [countOf_concat, if_neg different]
    exact invariant.cached key idx found latest

theorem Invariant.passWrite {kind : WriteKind} {val : Val}
    (inOrder : s.InOrder owner (.write kind key val)) : Invariant owner loaded (s.passWrite kind key val) := by
  unfold NetcacheSystem.passWrite
  dsimp only
  split
  · rename_i idx found
    have invalid : ((s.slots idx).access kind.optype true key
        (NetcacheWrite.record ⟨kind, (s.lookup key).isSome, key, val, countOf key s.passed + 1⟩) 0).latest = false :=
      latest_access_write _ _ _ _
    have never {p : Prop} (latest : _ = true) : p := absurd (invalid.symm.trans latest) (by decide)
    refine (invariant.accessSlot never never).pass rfl (fun other same => ?_) inOrder
    obtain rfl : other = idx := Option.some.inj (same.symm.trans found)
    simpa using invalid
  · rename_i missing
    exact invariant.pass rfl (fun idx found => (Option.some_ne_none idx (found.symm.trans missing)).elim) inOrder

theorem Invariant.takePopulate {packet : CachePopInswitch}
    (member : packet ∈ s.populates) (missing : s.lookup packet.key = none)
    (free : ∀ other, s.lookup other ≠ some packet.idx) : Invariant owner loaded (s.takePopulate packet) := by
  unfold NetcacheSystem.takePopulate NetcacheSystem.accessSlot
  rw [missing]
  refine invariant.accessSlot ?_ (fun _ cached found => absurd found (free cached))
  cases large : packet.nlatest with
  | false => exact fun _ => invariant.populates packet member large
  | true => exact fun latest => absurd latest (by simp [NetcacheSlot.access, accessLatest, storesRecord])

theorem Invariant.takeValueUpdate {update : ValueUpdate}
    (inOrder : s.InOrder owner (.valueUpdate update)) : Invariant owner loaded (s.takeValueUpdate update) := by
  unfold NetcacheSystem.takeValueUpdate
  split
  · rename_i idx found
    have updating := inOrder (by simp [found])
    obtain ⟨_, _, genuine, number⟩ := (invariant.serves (owner update.key)).pending update
      (List.mem_append_left _ (by simp [updating]))
    refine invariant.accessSlot (fun _ => ⟨genuine, Nat.zero_le _, fun _ _ => number⟩) fun _ cached same => ?_
    obtain rfl := invariant.own update.key cached idx found same
    exact ⟨rfl, number⟩
  · exact invariant

theorem Invariant.addLookup (free : ∀ other, s.lookup other ≠ some idx)
    (inOrder : s.InOrder owner (.addLookup key idx)) :
    Invariant owner loaded { s with lookup := Function.update s.lookup key (some idx) } := by
  obtain ⟨inside, isKey, population⟩ := inOrder
  have before : ∀ {other slot}, Function.update s.lookup key (some idx) other = some slot →
      other = key ∧ slot = idx ∨ s.lookup other = some slot ∧ slot ≠ idx := by
    intro other slot found
    by_cases same : other = key
    · subst same
      rw [Function.update_self] at found
      exact .inl ⟨rfl, (Option.some.inj found).symm⟩
    · rw [Function.update_of_ne same] at found
      refine .inr ⟨found, ?_⟩
      rintro rfl
      exact free other found
  refine { invariant with
    serves := fun i => (invariant.serves i).looks fun other own looked => ?_, cached := ?_, own := ?_ }
  · by_cases is : other = key
    · subst is own
      exact .inr inside
    · exact .inl fun none => looked ((Function.update_of_ne is _ _).trans none)
  · intro other slot found latest
    rcases before found with ⟨rfl, rfl⟩ | ⟨old, _⟩
    · have fresh := invariant.slots slot latest
      rw [isKey] at fresh
      exact ⟨isKey, fresh.current population inside⟩
    · exact invariant.cached other slot old latest
  · intro first second slot foundFirst foundSecond
    rcases before foundFirst, before foundSecond with ⟨⟨rfl, rfl⟩ | ⟨old, apart⟩, ⟨is, here⟩ | ⟨older, elsewhere⟩⟩
    · exact is.symm
    · exact absurd rfl elsewhere
    · exact absurd here apart
    · exact invariant.own first second slot old older

theorem Invariant.removeLookup (key : Key) :
    Invariant owner loaded { s with lookup := Function.update s.lookup key none } := by
  have before : ∀ {other slot}, Function.update s.lookup key none other = some slot → s.lookup other = some slot := by
    intro other slot found
    by_cases is : other = key
    · subst is
      simp at found
    · rwa [Function.update_of_ne is] at found
  refine { invariant with
    serves := fun i => (invariant.serves i).looks fun other _ looked => .inl ?_
    cached := fun other slot found => invariant.cached other slot (before found)
    own := fun first second slot left right => invariant.own first second slot (before left) (before right) }
  obtain ⟨slot, found⟩ := Option.ne_none_iff_exists'.mp looked
  rw [before found]
  simp

omit invariant in
/-- The record that a population begins with is that of the last write. -/
theorem Serves.db_number {server : NetcacheServer} {i : Nat} (serves : Serves owner loaded s.lookup s.passed i server)
    (numbered : Numbered s.passed) (all : ∀ write ∈ s.passed, write.key = key → write ∈ server.answered) :
    (server.db key).number = countOf key s.passed := by
  have above := numbered.genuine_le (serves.db key)
  rcases numbered.last key with none | ⟨last, member, rfl, number⟩
  · omega
  · have newest := (serves.answered last (all last member rfl)).2.1
    omega

theorem Invariant.cachePop (all : s.AllAnswered owner key) :
    Invariant owner loaded (s.step owner (.cachePop key)) := by
  have serves := invariant.serves (owner key)
  have popped : ∀ i, Serves owner loaded s.lookup s.passed i
      (Function.update s.servers (owner key) ((s.servers (owner key)).cachePop key) i) ∧
      ∀ other ≠ key, other ∈ (Function.update s.servers (owner key)
        ((s.servers (owner key)).cachePop key) i).beingcached →
        other ∈ (s.servers i).beingcached := by
    intro i
    by_cases same : i = owner key
    · subst same
      rw [Function.update_self]
      refine ⟨serves.sets fun other member => ?_, fun other different inside => ?_⟩
      · rcases member with inCached | inBeingcached
        · exact .inl (.inl inCached)
        · rcases Finset.mem_insert.mp inBeingcached with rfl | old
          · exact .inr all
          · exact .inl (.inr old)
      · exact (Finset.mem_insert.mp inside).resolve_left different
    · rw [Function.update_of_ne same]
      exact ⟨invariant.serves i, fun _ _ inside => inside⟩
  have still {other record population} (fresh : FreshIn owner loaded s other record population) :
      FreshIn owner loaded (s.step owner (.cachePop key)) other record population := by
    by_cases same : other = key
    · subst same
      refine ⟨fresh.genuine, ?_, fun is => ?_⟩ <;> simp only [step, Function.update_self] at *
      · exact Nat.le_succ_of_le fresh.bound
      · have bound := fresh.bound
        omega
    · refine ⟨fresh.genuine, ?_, fun is inside => ?_⟩
      · simp only [step, Function.update_of_ne same]
        exact fresh.bound
      · simp only [step, Function.update_of_ne same] at is
        exact fresh.current is ((popped _).2 other same inside)
  refine { invariant with
    serves := fun i => (popped i).1, popAcks := fun ack member => ?_
    populates := fun packet member latest => still (invariant.populates packet member latest)
    slots := fun slot latest => still (invariant.slots slot latest) }
  rcases List.mem_append.mp member with old | new
  · exact still (invariant.popAcks ack old)
  · rw [List.mem_singleton.mp new]
    refine ⟨serves.db key, by simp [step], fun _ _ => serves.db_number invariant.numbered all⟩

theorem Invariant.sendPopulate {ack : CachePopAck} (member : ack ∈ s.popAcks)
    (idx : Nat) : Invariant owner loaded { s with populates := s.populates ++ [populatePacket ack idx] } := by
  refine { invariant with populates := fun packet inside latest => ?_ }
  rcases List.mem_append.mp inside with old | new
  · exact invariant.populates packet old latest
  · rw [List.mem_singleton.mp new] at latest ⊢
    have small : populatePacket ack idx = ⟨ack.key, idx, ack.record, false, ack.population⟩ := by
      unfold populatePacket at latest ⊢
      split at latest
      · rw [if_pos ‹_›]
      · cases latest
    rw [small]
    exact invariant.popAcks ack member

theorem Invariant.step {event : NetcacheEvent} (possible : s.Possible owner event)
    (inOrder : s.InOrder owner event) : Invariant owner loaded (s.step owner event) := by
  have serves := invariant.serves
  have numbered := invariant.numbered
  cases event with
  | write kind key val => exact invariant.passWrite inOrder
  | receiveWrite write =>
    exact invariant.atServer _ fun _ done => (serves _).receiveWrite numbered ⟨inOrder, possible.1, rfl⟩ done
  | wake server => exact invariant.atServer _ fun _ done => (serves server).wake numbered done
  | cachePop key => exact invariant.cachePop inOrder
  | cachePopFinish key => exact invariant.atServer _ fun _ done => (serves _).cachePopFinish done
  | cacheEvict key => exact invariant.atServer _ fun _ done => (serves _).cacheEvict inOrder done
  | takeUpdate server => exact invariant.servers (invariant.keeps (serves server).takeUpdate)
  | removeUpdated server => exact invariant.atServer _ fun _ done => (serves server).removeUpdated done
  | sendPopulate ack idx => exact invariant.sendPopulate possible idx
  | populate packet => exact invariant.takePopulate possible inOrder.1 inOrder.2
  | addLookup key idx => exact invariant.addLookup possible.2 inOrder
  | removeLookup key => exact invariant.removeLookup key
  | valueUpdate update => exact invariant.takeValueUpdate inOrder

end Steps

/-- The writes of a key behind its last one are none. -/
theorem Invariant.coherent {owner : Key → Nat} {loaded : Key → Val × Bool} {s : NetcacheSystem}
    (invariant : Invariant owner loaded s) : s.Coherent owner := by
  intro key record answer write answered same
  obtain ⟨idx, found, latest⟩ := Option.bind_eq_some_iff.mp answer
  split_ifs at latest with valid
  cases latest
  obtain ⟨own, number⟩ := invariant.cached key idx found valid
  have passed : write ∈ s.passed := ((invariant.serves _).answered write answered).1
  have counted : 0 < countOf key s.passed := List.countP_pos_iff.mpr ⟨write, passed, by simpa using same⟩
  rcases (invariant.slots idx valid).genuine with first | ⟨later, member, laterKey, is⟩
  · rw [first] at number
    exact absurd number (Nat.ne_of_lt counted)
  · obtain ⟨before, after, split⟩ := List.append_of_mem member
    refine ⟨before, later, after, split, laterKey.trans own, is, ?_⟩
    have position := invariant.numbered.position before later after split
    have newest : later.number = countOf key s.passed := by
      rw [← number, ← is, number_record]
    have none_after : countOf key after = 0 := by
      have total : countOf key s.passed = countOf key before + (1 + countOf key after) := by
        rw [split]
        unfold countOf
        rw [List.countP_append, List.countP_cons_of_pos (by simpa using laterKey.trans own)]
        omega
      rw [laterKey.trans own] at position
      omega
    rw [split, List.mem_append, List.mem_cons] at passed
    rcases passed with earlier | equal | behind
    · exact .inr earlier
    · exact .inl equal
    · exact absurd same (by simpa using List.countP_eq_zero.mp none_after write behind)

/-- In every run whose steps are in order, the switch answers with the newest acknowledged write or a later one. -/
theorem reads_coherent (owner : Key → Nat) (loaded : Key → Val × Bool) {s : NetcacheSystem}
    (run : Runs.Reaches (step owner) (fun s event => s.Possible owner event ∧ s.InOrder owner event)
      (begin loaded) s) :
    s.Coherent owner :=
  (run.invariant (Invariant owner loaded) (invariant_begin owner loaded)
    fun _ _ invariant ok => invariant.step ok.1 ok.2).coherent

/-- A key is populated, and a write of it is answered and its value update sent. -/
def populateAndUpdate : List NetcacheEvent :=
  [.cachePop ⟨1, 0, 0, 0⟩, .sendPopulate ⟨⟨1, 0, 0, 0⟩, ⟨[], true, 0⟩, 1⟩ 0,
    .populate ⟨⟨1, 0, 0, 0⟩, 0, ⟨[], true, 0⟩, false, 1⟩, .addLookup ⟨1, 0, 0, 0⟩ 0, .cachePopFinish ⟨1, 0, 0, 0⟩,
    .write .put ⟨1, 0, 0, 0⟩ [1], .receiveWrite ⟨.put, true, ⟨1, 0, 0, 0⟩, [1], 1⟩, .takeUpdate 0]

/-- The update reaches the switch in time, and so does that of the next write. -/
def updateTwice : List NetcacheEvent :=
  populateAndUpdate ++ [.valueUpdate ⟨⟨1, 0, 0, 0⟩, ⟨[1], true, 1⟩⟩, .removeUpdated 0, .write .put ⟨1, 0, 0, 0⟩ [2],
    .receiveWrite ⟨.put, true, ⟨1, 0, 0, 0⟩, [2], 2⟩, .takeUpdate 0, .valueUpdate ⟨⟨1, 0, 0, 0⟩, ⟨[2], true, 2⟩⟩]

theorem reads_coherent_updateTwice :
    let s := updateTwice.foldl (step fun _ => 0) (begin fun _ => ([], true))
    s.get ⟨1, 0, 0, 0⟩ = some ⟨[2], true, 2⟩ ∧
      (s.servers 0).answered = [⟨.put, true, ⟨1, 0, 0, 0⟩, [1], 1⟩, ⟨.put, true, ⟨1, 0, 0, 0⟩, [2], 2⟩] ∧
      s.Coherent (fun _ => 0) := by
  refine ⟨rfl, rfl, reads_coherent _ _ (Runs.Reaches.start.foldl _ ?_)⟩
  exact ⟨⟨rfl, fun _ inside => absurd inside List.not_mem_nil⟩, ⟨.head _, trivial⟩,
    ⟨.head _, rfl, fun _ => Option.some_ne_none _ ∘ Eq.symm⟩,
    ⟨⟨rfl, fun _ => Option.some_ne_none _ ∘ Eq.symm⟩, by decide, rfl, rfl⟩, ⟨rfl, trivial⟩,
    ⟨trivial, fun _ => ⟨fun _ inside => absurd inside List.not_mem_nil, by decide, by decide⟩⟩,
    ⟨⟨.head _, rfl, trivial⟩, by decide, by decide⟩, ⟨⟨rfl, rfl⟩, trivial⟩, ⟨.head _, fun _ => rfl⟩, ⟨rfl, trivial⟩,
    ⟨trivial, fun _ => ⟨by unfold AllAnswered; decide, by decide, by decide⟩⟩,
    ⟨⟨.tail _ (.head _), rfl, trivial⟩, by decide, by decide⟩, ⟨⟨rfl, rfl⟩, trivial⟩,
    ⟨.tail _ (.head _), fun _ => rfl⟩, trivial⟩

/-- The second write finds the key no longer marked as being updated, is answered, and then the update of the first
write reaches the switch. -/
def staleRun : List NetcacheEvent :=
  populateAndUpdate ++ [.removeUpdated 0, .write .put ⟨1, 0, 0, 0⟩ [2],
    .receiveWrite ⟨.put, true, ⟨1, 0, 0, 0⟩, [2], 2⟩, .valueUpdate ⟨⟨1, 0, 0, 0⟩, ⟨[1], true, 1⟩⟩]

theorem staleRun_not_coherent :
    Runs.AllAllowed (step fun _ => 0) (Possible fun _ => 0) (begin fun _ => ([], true)) staleRun ∧
      ¬ (staleRun.foldl (step fun _ => 0) (begin fun _ => ([], true))).Coherent (fun _ => 0) := by
  constructor
  · exact ⟨rfl, .head _, .head _, ⟨rfl, fun _ => nofun⟩, rfl, trivial, ⟨.head _, rfl, trivial⟩, ⟨rfl, rfl⟩,
      rfl, trivial, ⟨.tail _ (.head _), rfl, trivial⟩, .head _, trivial⟩
  · intro coherent
    obtain ⟨before, later, after, split, _, is, order⟩ :=
      coherent ⟨1, 0, 0, 0⟩ ⟨[1], true, 1⟩ rfl ⟨.put, true, ⟨1, 0, 0, 0⟩, [2], 2⟩ (by decide) rfl
    have passed : [⟨.put, true, ⟨1, 0, 0, 0⟩, [1], 1⟩, ⟨.put, true, ⟨1, 0, 0, 0⟩, [2], 2⟩] = before ++
        later :: after :=
      split
    rcases order with same | earlier
    · rw [← same] at is
      exact absurd is (by decide)
    · have last : after = [] := by
        have size := congrArg List.length passed
        have positive := List.length_pos_of_mem earlier
        simp only [List.length_cons, List.length_nil, List.length_append] at size
        exact List.length_eq_zero_iff.mp (by omega)
      rw [last, show [(⟨.put, true, ⟨1, 0, 0, 0⟩, [1], 1⟩ : NetcacheWrite), ⟨.put, true, ⟨1, 0, 0, 0⟩, [2], 2⟩] =
        [⟨.put, true, ⟨1, 0, 0, 0⟩, [1], 1⟩] ++ [⟨.put, true, ⟨1, 0, 0, 0⟩, [2], 2⟩] from rfl] at passed
      have first := (List.append_inj' passed rfl).1
      rw [← first] at earlier
      exact absurd earlier (by decide)

end NetcacheSystem

end FarReach
