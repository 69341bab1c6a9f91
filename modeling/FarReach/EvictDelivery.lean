import FarReach.Runs
import FarReach.ServerView

namespace FarReach

def KvStore.SameStore (left right : KvStore) : Prop := left.db = right.db ∧ left.deletedSet = right.deletedSet

/-- The tombstone is taken out, unless it is newer, and added again. -/
def DeletedSet.readd (set : DeletedSet) (key : Key) (seq : Nat) : DeletedSet :=
  (set.checkAndRemove key seq 0).2.2.add key seq

/-- The store has a newer version of the key than the evicted record, or the record itself. -/
def CacheEvict.Absorbed (kv : KvStore) (evict : CacheEvict) : Prop :=
  (∃ deletedSeq, (kv.cell evict.key).tombstone = some deletedSeq ∧ evict.seq < deletedSeq) ∨
    ((kv.cell evict.key).tombstone = none ∧ ∃ version, (kv.cell evict.key).stored = some version ∧
      evict.seq < version.2) ∨
    if evict.stat then kv.cell evict.key = ⟨some (evict.val, evict.seq), none⟩
    else (kv.cell evict.key).stored = none ∧ kv.deletedSet.readd evict.key evict.seq = kv.deletedSet

namespace KvStore

variable {kv : KvStore} {key : Key} {seq : Nat}

theorem SameStore.refl (kv : KvStore) : kv.SameStore kv := ⟨rfl, rfl⟩

/-- What a write does to records and tombstones depends on these only. -/
theorem SameStore.apply {left right : KvStore} (same : left.SameStore right) (write : Write) :
    (write.apply left).SameStore (write.apply right) := by
  obtain ⟨db, dbseq, deletedSet, maxseq⟩ := left
  obtain ⟨_, dbseq', _, maxseq'⟩ := right
  obtain ⟨rfl, rfl⟩ := same
  cases write with
  | put key val seq checkseq =>
    unfold Write.apply put SameStore
    simp only [writeChecked_eq, cell, checkDeleted]
    split
    · exact ⟨rfl, rfl⟩
    · split <;> exact ⟨rfl, rfl⟩
  | remove key seq checkseq =>
    unfold Write.apply remove SameStore
    simp only [writeChecked_eq, cell, checkDeleted]
    split
    · exact ⟨rfl, rfl⟩
    · split <;> exact ⟨rfl, rfl⟩

theorem sameStore_of_tombstone {checkseq : Bool} {write : KvStore → KvStore} {deletedSeq : Nat}
    (found : (kv.cell key).tombstone = some deletedSeq) (newer : seq < deletedSeq) :
    (kv.writeChecked key seq checkseq write).2.SameStore kv := by
  rw [writeChecked_eq, if_pos (by simp [found, newer])]
  refine ⟨rfl, ?_⟩
  rw [deletedSet_checkDeleted, DeletedSet.checkAndRemove_eq_self_iff]
  intro oldseq same
  cases found.symm.trans same
  exact newer

theorem sameStore_of_stored {write : KvStore → KvStore} {version : Val × Nat}
    (unblocked : ¬ (kv.cell key).tombstone.any (seq < ·) = true) (found : (kv.cell key).stored = some version)
    (newer : seq < version.2) :
    (kv.writeChecked key seq true write).2.SameStore kv ↔ (kv.cell key).tombstone = none := by
  rw [writeChecked_eq, if_neg unblocked, if_pos (by simp [found, newer])]
  unfold SameStore
  rw [deletedSet_checkDeleted, DeletedSet.checkAndRemove_eq_self_iff]
  constructor
  · intro ⟨_, only⟩
    by_contra some
    obtain ⟨oldseq, same⟩ := Option.ne_none_iff_exists'.mp some
    exact unblocked (by simp [same, only oldseq same])
  · intro none
    refine ⟨rfl, fun oldseq same => ?_⟩
    cases none.symm.trans same

/-- Writing an evicted record back changes nothing exactly if the store has absorbed it. -/
theorem sameStore_evict_iff (kv : KvStore) (evict : CacheEvict) :
    (evict.write.apply kv).SameStore kv ↔ evict.Absorbed kv := by
  have written : (evict.write.apply kv) = (kv.writeChecked evict.key evict.seq true fun kv =>
      if evict.stat then { kv with db := kv.db.insert evict.key (evict.val, evict.seq), dbseq := kv.dbseq + 1 }
      else { kv with
        db := kv.db.erase evict.key, dbseq := kv.dbseq + 1, deletedSet := kv.deletedSet.add evict.key
          evict.seq }).2 := by
    unfold CacheEvict.write
    cases evict.stat <;> rfl
  rw [written]
  unfold CacheEvict.Absorbed
  by_cases blocked : (kv.cell evict.key).tombstone.any (evict.seq < ·) = true
  · obtain ⟨deletedSeq, found, newer⟩ : ∃ deletedSeq, (kv.cell evict.key).tombstone = some deletedSeq ∧
        evict.seq < deletedSeq := by
      simpa [Option.any_eq_true] using blocked
    exact iff_of_true (sameStore_of_tombstone found newer) (Or.inl ⟨deletedSeq, found, newer⟩)
  have unblocked : ¬ ∃ deletedSeq, (kv.cell evict.key).tombstone = some deletedSeq ∧ evict.seq < deletedSeq := by
    simpa [Option.any_eq_true] using blocked
  rw [or_iff_right unblocked]
  by_cases lost : ∃ version, (kv.cell evict.key).stored = some version ∧ evict.seq < version.2
  · obtain ⟨version, found, newer⟩ := lost
    rw [sameStore_of_stored blocked found newer]
    constructor
    · exact fun none => Or.inl ⟨none, version, found, newer⟩
    · rintro (⟨none, _⟩ | record)
      · exact none
      · cases stat : evict.stat with
        | true =>
          rw [stat, if_pos rfl] at record
          rw [record]
        | false =>
          rw [stat, if_neg Bool.false_ne_true] at record
          cases found.symm.trans record.1
  rw [or_iff_right fun both => lost both.2]
  have unlost : ¬ (true && (kv.cell evict.key).stored.any (evict.seq < ·.2)) = true := by
    simpa [Option.any_eq_true] using lost
  rw [writeChecked_eq, if_neg blocked, if_neg unlost]
  unfold SameStore
  cases evict.stat with
  | true =>
    simp only [if_true, checkDeleted, OrderedMap.insert_eq_self_iff, DeletedSet.checkAndRemove_eq_self_iff]
    constructor
    · intro ⟨record, only⟩
      have none : (kv.cell evict.key).tombstone = none := by
        by_contra some
        obtain ⟨oldseq, same⟩ := Option.ne_none_iff_exists'.mp some
        exact unblocked ⟨oldseq, same, only oldseq same⟩
      exact Versioned.Cell.ext record none
    · intro cell
      refine ⟨congrArg Versioned.Cell.stored cell, fun oldseq same => ?_⟩
      cases (congrArg Versioned.Cell.tombstone cell).symm.trans same
  | false =>
    simp only [Bool.false_eq_true, if_false, checkDeleted, OrderedMap.erase_eq_self_iff]
    rfl

end KvStore

namespace ServerThreads

variable {server : ServerThreads}

theorem evictserver_uncached {evict : CacheEvict} (uncached : evict.key ∉ server.cachedKeyset) :
    server.evictserver evict.serveridx evict = none := by
  unfold evictserver
  rw [if_neg (by simp), if_pos uncached]

end ServerThreads

/-- A server that gets one eviction message again and again, between the writes of its worker. The
controller sends the message to the server it names. Beside it runs a store that takes the first delivery
only. -/
structure EvictRun where
  server : ServerThreads
  exited : Bool
  deliveries : Nat
  acked : List Key
  single : KvStore

inductive EvictEvent where
  | deliver
  | work (request : WorkerRequest)

namespace EvictRun

def start (server : ServerThreads) : EvictRun := ⟨server, false, 0, [], server.kv⟩

def step (evict : CacheEvict) (run : EvictRun) : EvictEvent → EvictRun
  | .deliver =>
    let run := { run with
      deliveries := run.deliveries + 1
      single := if run.deliveries = 0 then evict.write.apply run.single else run.single }
    if run.exited then run
    else
      match run.server.evictserver evict.serveridx evict with
      | some (server, key) => { run with server, acked := run.acked ++ [key] }
      | none => { run with exited := true }
  | .work request =>
    let run := { run with single := request.write.apply run.single }
    if run.exited then run
    else
      match run.server.worker request with
      | some server => { run with server }
      | none => { run with exited := true }

/-- The server is up, has acknowledged every delivery, and its store is the one after a single delivery. -/
def Idempotent (evict : CacheEvict) (run : EvictRun) : Prop :=
  run.exited = false ∧ run.acked = List.replicate run.deliveries evict.key ∧ run.server.kv.SameStore run.single

/-- The key is in the cached keyset, and a repeated record is no longer news to the store. -/
def Redeliverable (evict : CacheEvict) (run : EvictRun) : EvictEvent → Prop
  | .deliver => evict.key ∈ run.server.cachedKeyset ∧ (run.deliveries ≠ 0 → evict.Absorbed run.server.kv)
  | .work _ => True

theorem step_idempotent {evict : CacheEvict} {run : EvictRun} (event : EvictEvent)
    (idempotent : run.Idempotent evict) :
    (run.step evict event).Idempotent evict ↔ run.Redeliverable evict event := by
  obtain ⟨up, acked, same⟩ := idempotent
  cases event with
  | work request =>
    obtain ⟨after, ran, _, _, _, written, _⟩ := run.server.view_worker request
    simp only [step, up, Bool.false_eq_true, if_false, ran, Redeliverable, iff_true]
    refine ⟨rfl, acked, ?_⟩
    dsimp only
    rw [written]
    exact same.apply request.write
  | deliver =>
    by_cases cached : evict.key ∈ run.server.cachedKeyset
    · obtain ⟨after, ran, _, _, _, written⟩ := run.server.view_evictserver cached
      simp only [step, up, Bool.false_eq_true, if_false, ran, Redeliverable, cached, true_and, Idempotent, acked,
        List.replicate_succ', written]
      by_cases first : run.deliveries = 0
      · simpa [first] using same.apply evict.write
      · have unchanged := KvStore.sameStore_evict_iff run.server.kv evict
        simp only [first, if_false, ne_eq, not_false_eq_true, true_implies, ← unchanged]
        constructor
        · exact fun equal => ⟨equal.1.trans same.1.symm, equal.2.trans same.2.symm⟩
        · exact fun equal => ⟨equal.1.trans same.1, equal.2.trans same.2⟩
    · simp [step, up, ServerThreads.evictserver_uncached cached, Redeliverable, cached, Idempotent]

end EvictRun

/-- The eviction client of `popworker`: the message it waits for, if any, and the acknowledgements it has
accepted, each with the key that was being evicted. -/
structure EvictClient where
  evicting : Option CacheEvict
  sent : List CacheEvict
  accepted : List (Key × Key)
  aborted : Bool

inductive EvictClientEvent where
  | evict (evict : CacheEvict)
  | timeout
  | ack (key : Key)

namespace EvictClient

def idle : EvictClient := ⟨none, [], [], false⟩

/-- A timeout sends the whole request again. The controller forwards whatever acknowledgement comes in, so
one of an earlier eviction can arrive late; it fails the check. -/
def step (client : EvictClient) : EvictClientEvent → EvictClient
  | .evict evict =>
    if client.aborted || client.evicting.isSome then client
    else { client with evicting := some evict, sent := client.sent ++ [evict] }
  | .timeout =>
    match client.evicting with
    | some evict => if client.aborted then client else { client with sent := client.sent ++ [evict] }
    | none => client
  | .ack key =>
    match client.evicting with
    | some evict =>
      if client.aborted then client
      else if key = evict.key then { client with evicting := none, accepted := client.accepted ++ [(key, evict.key)] }
      else { client with aborted := true }
    | none => client

def Matches (client : EvictClient) : Prop := ∀ ack ∈ client.accepted, ack.1 = ack.2

theorem step_matches {client : EvictClient} (holds : client.Matches) (event : EvictClientEvent) :
    (client.step event).Matches := by
  cases event with
  | evict evict =>
    simp only [step]
    split
    · exact holds
    · exact holds
  | timeout =>
    simp only [step]
    split
    · split
      · exact holds
      · exact holds
    · exact holds
  | ack key =>
    simp only [step]
    split
    · split
      · exact holds
      split
      · rename_i same
        intro ack member
        rcases List.mem_append.mp member with earlier | last
        · exact holds ack earlier
        · rw [List.mem_singleton.mp last]
          exact same
      · exact holds
    · exact holds

theorem matches_run (events : List EvictClientEvent) : (events.foldl step idle).Matches := by
  have run : ∀ client : EvictClient, client.Matches → (events.foldl step client).Matches := by
    induction events with
    | nil => exact fun _ holds => holds
    | cons event rest ih => exact fun client holds => ih _ (step_matches holds event)
  exact run idle fun _ member => absurd member List.not_mem_nil

end EvictClient

/-- Deliveries are idempotent exactly in the runs in which every one of them finds its key cached and
every repeated one finds its record absorbed. The acknowledgements that are accepted always match. -/
theorem eviction_idempotent_iff (evict : CacheEvict) (server : ServerThreads) (events : List EvictEvent)
    (clientEvents : List EvictClientEvent) :
    (Runs.Always (EvictRun.step evict) (EvictRun.Idempotent evict) (.start server) events ↔
        Runs.AllAllowed (EvictRun.step evict) (EvictRun.Redeliverable evict) (.start server) events) ∧
      (clientEvents.foldl EvictClient.step .idle).Matches := by
  constructor
  · exact Runs.always_iff_allAllowed (fun _ holds => holds)
      (fun _ event holds => (EvictRun.step_idempotent event holds).mpr)
      (fun _ event holds => (EvictRun.step_idempotent event holds).mp) events
      ⟨rfl, rfl, KvStore.SameStore.refl server.kv⟩
  · exact EvictClient.matches_run clientEvents

def cachingServer (key : Key) : ServerThreads where
  wrapper := .fresh ∅ 0 0
  disk := fun _ => .missing
  cachedKeyset := {key}
  issnapshot := false
  snapshottoken := 0
  snapshotSignal := none
  dataSignal := none

/-- The first delivery takes the key out of the keyset, and the second one ends the server. -/
theorem second_eviction_exits :
    ¬ ∀ (evict : CacheEvict) (server : ServerThreads) (events : List EvictEvent),
      evict.key ∈ server.cachedKeyset →
        Runs.Always (EvictRun.step evict) (EvictRun.Idempotent evict) (.start server) events := by
  intro always
  have last := (always ⟨⟨1, 0, 0, 0⟩, [7], 5, true, 0, false, by decide⟩ (cachingServer ⟨1, 0, 0, 0⟩)
    [.deliver, .deliver] (by decide)).last
  exact absurd last.1 (by decide +kernel)

end FarReach
