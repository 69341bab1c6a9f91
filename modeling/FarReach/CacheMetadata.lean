import FarReach.OrderedMap
import FarReach.Placement
import FarReach.Runs
import FarReach.SwitchosRecover

namespace FarReach

open Placement Function

/-- A `CACHE_POP` as far as the cache metadata depends on it. -/
structure CachePop where
  key : Key
  serveridx : Nat
  deriving DecidableEq

/-- Where `popworker` stops the process: an unknown server, a sample of no slot, the checks of the victim
and of the free index. -/
inductive PopFailure where
  | unknownServer | noBucket | evictidx | notCached | freeidx
  deriving DecidableEq, Repr

def PopFailure.OfMetadata : PopFailure → Prop
  | .unknownServer => False
  | .noBucket => False
  | .evictidx => True
  | .notCached => True
  | .freeidx => True

/-- The victim among the samples, each a random number with the frequency that the data plane reports for
its slot: the first one with the smallest frequency. -/
def chooseVictim (bucketNum : Nat) (samples : List (Nat × Nat)) : Nat :=
  (samples.foldl
    (fun (best : Option (Nat × Nat)) sample =>
      match best with
      | none => some (sample.2, sample.1 % bucketNum)
      | some (minFrequency, evictidx) =>
        if minFrequency > sample.2 then some (sample.2, sample.1 % bucketNum) else some (minFrequency, evictidx))
    none).elim 0 Prod.snd

namespace SwitchosCache

def populate (topology : Topology) (cache : SwitchosCache) (pop : CachePop) (pipeidx freeidx : Nat) :
    Except PopFailure SwitchosCache :=
  let pipeline := cache.perpipeline pipeidx
  if freeidx < topology.switchKvBucketNum then
    .ok
      { keyidxMap := cache.keyidxMap.insertIfNew pop.key freeidx
        perpipeline := update cache.perpipeline pipeidx
          { pipeline with
            keyarray := update pipeline.keyarray freeidx pop.key
            serveridxarray := update pipeline.serveridxarray freeidx pop.serveridx } }
  else .error .freeidx

def evict (cache : SwitchosCache) (pipeidx evictidx : Nat) : SwitchosCache :=
  let pipeline := cache.perpipeline pipeidx
  { keyidxMap := cache.keyidxMap.erase (pipeline.keyarray evictidx)
    perpipeline := update cache.perpipeline pipeidx
      { pipeline with
        keyarray := update pipeline.keyarray evictidx ⟨0, 0, 0, 0⟩
        serveridxarray := update pipeline.serveridxarray evictidx (2 ^ 16 - 1) } }

/-- One round of `popworker` with a `CACHE_POP`. A key that is cached already is warned about and
populated all the same. -/
def popworker (topology : Topology) (cache : SwitchosCache) (pop : CachePop) (samples : List (Nat × Nat)) :
    Except PopFailure SwitchosCache :=
  match topology.pipeidx pop.serveridx with
  | none => .error .unknownServer
  | some pipeidx =>
    let pipeline := cache.perpipeline pipeidx
    if pipeline.emptyIndex < topology.switchKvBucketNum then
      populate topology
        { cache with
          perpipeline := update cache.perpipeline pipeidx
            { pipeline with emptyIndex := pipeline.emptyIndex + 1 } }
        pop pipeidx (pipeline.emptyIndex % 2 ^ 16)
    else if topology.switchKvBucketNum = 0 then .error .noBucket
    else
      let evictidx := chooseVictim topology.switchKvBucketNum samples
      if evictidx < topology.switchKvBucketNum then
        if cache.keyidxMap.contains (pipeline.keyarray evictidx) then
          populate topology (cache.evict pipeidx evictidx) pop pipeidx evictidx
        else .error .notCached
      else .error .evictidx

def slots (cache : SwitchosCache) (slot : Nat × Nat) : Option Key :=
  if slot.2 < (cache.perpipeline slot.1).emptyIndex then some ((cache.perpipeline slot.1).keyarray slot.2) else none

/-- The map and the key arrays are inverse to each other on the occupied slots, and every key occupies at
most one slot. -/
structure Consistent (topology : Topology) (cache : SwitchosCache) : Prop where
  placed : Placed (fun key : Key => cache.keyidxMap[key]?) cache.slots
  bounded (pipeidx : Nat) : (cache.perpipeline pipeidx).emptyIndex ≤ topology.switchKvBucketNum

/-- The key of the message has no slot, unless it is the victim itself. -/
def Fits (topology : Topology) (cache : SwitchosCache) (pop : CachePop) (samples : List (Nat × Nat)) : Prop :=
  ∀ pipeidx, topology.pipeidx pop.serveridx = some pipeidx →
    cache.keyidxMap[pop.key]? = none ∨
      topology.switchKvBucketNum ≤ (cache.perpipeline pipeidx).emptyIndex ∧
        (cache.perpipeline pipeidx).keyarray (chooseVictim topology.switchKvBucketNum samples) = pop.key

end SwitchosCache

theorem chooseVictim_lt {bucketNum : Nat} (positive : 0 < bucketNum) (samples : List (Nat × Nat)) :
    chooseVictim bucketNum samples < bucketNum := by
  have bounded : ∀ best : Option (Nat × Nat), best.elim 0 Prod.snd < bucketNum →
      (samples.foldl
        (fun (best : Option (Nat × Nat)) sample =>
          match best with
          | none => some (sample.2, sample.1 % bucketNum)
          | some (minFrequency, evictidx) =>
            if minFrequency > sample.2 then some (sample.2, sample.1 % bucketNum) else some (minFrequency, evictidx))
        best).elim 0 Prod.snd < bucketNum := by
    induction samples with
    | nil => exact fun _ holds => holds
    | cons sample rest ih =>
      intro best holds
      refine ih _ ?_
      have inside : sample.1 % bucketNum < bucketNum := Nat.mod_lt _ positive
      rcases best with _ | ⟨minFrequency, evictidx⟩
      · exact inside
      · dsimp only
        split
        · exact inside
        · exact holds
  exact bounded none positive

namespace SwitchosCache

variable {topology : Topology} {cache : SwitchosCache} {pop : CachePop} {samples : List (Nat × Nat)} {pipeidx : Nat}

theorem consistent_prepared (topology : Topology) : Consistent topology .prepared where
  placed := by
    have index : (fun key : Key => SwitchosCache.prepared.keyidxMap[key]?) = fun _ => none := by
      funext key
      exact Std.ExtTreeMap.getElem?_empty
    have slots : SwitchosCache.prepared.slots = fun _ => none := by
      funext slot
      exact if_neg (Nat.not_lt_zero _)
    rw [index, slots]
    exact placed_empty
  bounded := fun _ => Nat.zero_le _

def filled (cache : SwitchosCache) (pop : CachePop) (pipeidx : Nat) : SwitchosCache :=
  let pipeline := cache.perpipeline pipeidx
  { keyidxMap := cache.keyidxMap.insertIfNew pop.key pipeline.emptyIndex
    perpipeline := update cache.perpipeline pipeidx
      { keyarray := update pipeline.keyarray pipeline.emptyIndex pop.key
        serveridxarray := update pipeline.serveridxarray pipeline.emptyIndex pop.serveridx
        emptyIndex := pipeline.emptyIndex + 1 } }

def replaced (cache : SwitchosCache) (pop : CachePop) (pipeidx evictidx : Nat) : SwitchosCache :=
  let pipeline := cache.perpipeline pipeidx
  { keyidxMap := (cache.keyidxMap.erase (pipeline.keyarray evictidx)).insertIfNew pop.key evictidx
    perpipeline := update cache.perpipeline pipeidx
      { pipeline with
        keyarray := update pipeline.keyarray evictidx pop.key
        serveridxarray := update pipeline.serveridxarray evictidx pop.serveridx } }

theorem popworker_free (known : topology.pipeidx pop.serveridx = some pipeidx)
    (free : (cache.perpipeline pipeidx).emptyIndex < topology.switchKvBucketNum) :
    cache.popworker topology pop samples = .ok (cache.filled pop pipeidx) := by
  have small : (cache.perpipeline pipeidx).emptyIndex % 2 ^ 16 = (cache.perpipeline pipeidx).emptyIndex :=
    Nat.mod_eq_of_lt (free.trans topology.indexable)
  unfold popworker populate filled
  simp only [known, if_pos free, small, update_self, update_idem]

theorem popworker_full (known : topology.pipeidx pop.serveridx = some pipeidx)
    (full : topology.switchKvBucketNum ≤ (cache.perpipeline pipeidx).emptyIndex)
    (positive : topology.switchKvBucketNum ≠ 0) :
    cache.popworker topology pop samples =
      if cache.keyidxMap.contains ((cache.perpipeline pipeidx).keyarray
        (chooseVictim topology.switchKvBucketNum samples))
      then .ok (cache.replaced pop pipeidx (chooseVictim topology.switchKvBucketNum samples))
      else .error .notCached := by
  have inside := chooseVictim_lt (Nat.pos_of_ne_zero positive) samples
  unfold popworker populate evict replaced
  simp only [known, if_neg (Nat.not_lt.mpr full), if_neg positive, if_pos inside, update_self,
    update_idem]

theorem index_insertIfNew (map : Std.ExtTreeMap Key Nat) (key : Key) (idx : Nat) :
    (fun name : Key => (map.insertIfNew key idx)[name]?) = enter (fun name : Key => map[name]?) key idx := by
  funext name
  rw [OrderedMap.lookup_insertIfNew]
  unfold enter
  by_cases same : name = key
  · rw [if_pos same, same, update_self]
  · rw [if_neg same, update_of_ne same]

theorem index_erase (map : Std.ExtTreeMap Key Nat) (key : Key) :
    (fun name : Key => (map.erase key)[name]?) = update (fun name : Key => map[name]?) key none := by
  funext name
  rw [OrderedMap.lookup_erase]
  by_cases same : name = key
  · rw [if_pos same, same, update_self]
  · rw [if_neg same, update_of_ne same]

theorem slots_filled :
    (cache.filled pop pipeidx).slots =
      update cache.slots (pipeidx, (cache.perpipeline pipeidx).emptyIndex) (some pop.key) := by
  funext ⟨pipe, idx⟩
  unfold slots filled
  by_cases same : pipe = pipeidx
  · subst same
    simp only [update_self]
    by_cases last : idx = (cache.perpipeline pipe).emptyIndex
    · subst last
      simp only [update_self, if_pos (Nat.lt_succ_self _)]
    · have other : (pipe, idx) ≠ (pipe, (cache.perpipeline pipe).emptyIndex) :=
        fun equal => last (congrArg Prod.snd equal)
      rw [update_of_ne other]
      dsimp only
      rw [update_of_ne last]
      exact if_congr (by omega) rfl rfl
  · have other : (pipe, idx) ≠ (pipeidx, (cache.perpipeline pipeidx).emptyIndex) :=
      fun equal => same (congrArg Prod.fst equal)
    rw [update_of_ne other]
    simp only [update_of_ne same]

theorem slots_replaced {evictidx : Nat} (occupied : evictidx < (cache.perpipeline pipeidx).emptyIndex) :
    (cache.replaced pop pipeidx evictidx).slots = update cache.slots (pipeidx, evictidx) (some pop.key) := by
  funext ⟨pipe, idx⟩
  unfold slots replaced
  by_cases same : pipe = pipeidx
  · subst same
    simp only [update_self]
    by_cases victim : idx = evictidx
    · subst victim
      simp only [update_self, if_pos occupied]
    · have other : (pipe, idx) ≠ (pipe, evictidx) := fun equal => victim (congrArg Prod.snd equal)
      rw [update_of_ne other]
      dsimp only
      rw [update_of_ne victim]
  · have other : (pipe, idx) ≠ (pipeidx, evictidx) := fun equal => same (congrArg Prod.fst equal)
    rw [update_of_ne other]
    simp only [update_of_ne same]

theorem consistent_filled_iff (consistent : Consistent topology cache)
    (free : (cache.perpipeline pipeidx).emptyIndex < topology.switchKvBucketNum) :
    Consistent topology (cache.filled pop pipeidx) ↔ cache.keyidxMap[pop.key]? = none := by
  have empty : cache.slots (pipeidx, (cache.perpipeline pipeidx).emptyIndex) = none := if_neg (Nat.lt_irrefl _)
  have placed := consistent.placed.fill_iff empty pop.key
  rw [← slots_filled, ← index_insertIfNew] at placed
  rw [← placed]
  constructor
  · exact fun after => after.placed
  · intro after
    refine ⟨after, fun pipe => ?_⟩
    unfold filled
    by_cases same : pipe = pipeidx
    · subst same
      simp only [update_self]
      exact free
    · simpa only [update_of_ne same] using consistent.bounded pipe

theorem consistent_replaced_iff {evictidx : Nat} (consistent : Consistent topology cache)
    (occupied : evictidx < (cache.perpipeline pipeidx).emptyIndex) :
    Consistent topology (cache.replaced pop pipeidx evictidx) ↔
      cache.keyidxMap[pop.key]? = none ∨ (cache.perpipeline pipeidx).keyarray evictidx = pop.key := by
  have held : cache.slots (pipeidx, evictidx) = some ((cache.perpipeline pipeidx).keyarray evictidx) :=
    if_pos occupied
  have placed := consistent.placed.replace_iff held pop.key
  rw [← slots_replaced occupied, ← index_erase, ← index_insertIfNew] at placed
  rw [← placed]
  constructor
  · exact fun after => after.placed
  · intro after
    refine ⟨after, fun pipe => ?_⟩
    unfold replaced
    by_cases same : pipe = pipeidx
    · subst same
      simpa only [update_self] using consistent.bounded pipe
    · simpa only [update_of_ne same] using consistent.bounded pipe

/-- In consistent metadata every slot of a full pipeline holds a key that the map knows. -/
theorem victim_cached (consistent : Consistent topology cache) {evictidx : Nat}
    (occupied : evictidx < (cache.perpipeline pipeidx).emptyIndex) :
    cache.keyidxMap.contains ((cache.perpipeline pipeidx).keyarray evictidx) = true := by
  have held : cache.slots (pipeidx, evictidx) = some ((cache.perpipeline pipeidx).keyarray evictidx) :=
    if_pos occupied
  have found := consistent.placed.found held
  rw [Std.ExtTreeMap.contains_eq_isSome_getElem?, found]
  rfl

/-- A round keeps the metadata consistent and passes its checks exactly if the key of the message has no
other slot. -/
theorem popworker_iff (consistent : Consistent topology cache) :
    (∀ failure, cache.popworker topology pop samples = .error failure → ¬ failure.OfMetadata) ∧
        (∀ after, cache.popworker topology pop samples = .ok after → Consistent topology after) ↔
      Fits topology cache pop samples := by
  unfold Fits
  cases known : topology.pipeidx pop.serveridx with
  | none =>
    have stops : cache.popworker topology pop samples = .error .unknownServer := by
      unfold popworker
      rw [known]
    simp [stops, PopFailure.OfMetadata]
  | some pipeidx =>
    by_cases free : (cache.perpipeline pipeidx).emptyIndex < topology.switchKvBucketNum
    · rw [popworker_free known free]
      simp [consistent_filled_iff consistent free, Nat.not_le.mpr free]
    have full := Nat.not_lt.mp free
    by_cases zero : topology.switchKvBucketNum = 0
    · have stops : cache.popworker topology pop samples = .error .noBucket := by
        unfold popworker
        simp only [known, if_neg free, if_pos zero]
      -- without slots no key is cached
      have uncached : cache.keyidxMap[pop.key]? = none := by
        by_contra cached
        obtain ⟨place, entered⟩ := Option.ne_none_iff_exists'.mp cached
        obtain ⟨part, holds⟩ := consistent.placed.occupied entered
        have empty := consistent.bounded part
        unfold slots at holds
        rw [if_neg (by dsimp only; omega)] at holds
        cases holds
      simp [stops, PopFailure.OfMetadata, uncached]
    · have occupied : chooseVictim topology.switchKvBucketNum samples < (cache.perpipeline pipeidx).emptyIndex :=
        (chooseVictim_lt (Nat.pos_of_ne_zero zero) samples).trans_le full
      rw [popworker_full known full zero, if_pos (victim_cached consistent occupied)]
      simp [consistent_replaced_iff consistent occupied, full]

end SwitchosCache

def mqSize : Nat := 40960

/-- The threads `popserver` and `popworker` with the queue between them. -/
structure PopThreads where
  cache : SwitchosCache
  queue : List CachePop
  failed : Option PopFailure

inductive PopEvent where
  | receive (pop : CachePop)
  | work (samples : List (Nat × Nat))

namespace PopThreads

/-- `popserver` drops a message when the ring has one free place left; `popworker` takes the oldest one. -/
def step (topology : Topology) (threads : PopThreads) : PopEvent → PopThreads
  | .receive pop =>
    if threads.failed.isSome then threads
    else if threads.queue.length + 1 < mqSize then { threads with queue := threads.queue ++ [pop] } else threads
  | .work samples =>
    if threads.failed.isSome then threads
    else
      match threads.queue with
      | [] => threads
      | pop :: rest =>
        match threads.cache.popworker topology pop samples with
        | .ok cache => { threads with cache, queue := rest }
        | .error failure => { threads with queue := rest, failed := some failure }

def Sound (topology : Topology) (threads : PopThreads) : Prop :=
  threads.cache.Consistent topology ∧ ∀ failure, threads.failed = some failure → ¬ failure.OfMetadata

/-- The message at the head of the queue is for a key without a slot, unless the slot is the victim. -/
def Fresh (topology : Topology) (threads : PopThreads) : PopEvent → Prop
  | .receive _ => True
  | .work samples =>
    threads.failed = none → ∀ pop, threads.queue.head? = some pop → threads.cache.Fits topology pop samples

theorem step_sound_iff (topology : Topology) (threads : PopThreads) (event : PopEvent)
    (sound : threads.Sound topology) :
    (threads.step topology event).Sound topology ↔ threads.Fresh topology event := by
  obtain ⟨consistent, passed⟩ := sound
  cases failed : threads.failed with
  | some failure =>
    have same : threads.step topology event = threads := by
      cases event <;> simp [step, failed]
    rw [same]
    cases event <;> simp [Fresh, failed, Sound, consistent, passed failure failed]
  | none =>
    cases event with
    | receive pop =>
      simp only [step, Fresh, failed, Option.isSome_none, Bool.false_eq_true, if_false, iff_true]
      split
      · exact ⟨consistent, fun failure stopped => nomatch stopped⟩
      · exact ⟨consistent, passed⟩
    | work samples =>
      simp only [step, Fresh, failed, Option.isSome_none, Bool.false_eq_true, if_false, true_implies]
      cases threads.queue with
      | nil =>
        simp only [List.head?_nil, reduceCtorEq, false_implies, implies_true, iff_true]
        exact ⟨consistent, passed⟩
      | cons pop rest =>
        simp only [List.head?_cons, Option.some.injEq, forall_eq']
        rw [← SwitchosCache.popworker_iff consistent]
        cases threads.cache.popworker topology pop samples with
        | ok cache => simp [Sound]
        | error failure => simp [Sound, consistent]

/-- The metadata stays consistent throughout exactly in the runs that never populate a key that has a
slot other than the victim's. -/
theorem metadata_consistent_iff (topology : Topology) (threads : PopThreads) (sound : threads.Sound topology)
    (events : List PopEvent) :
    Runs.Always (step topology) (Sound topology) threads events ↔
      Runs.AllAllowed (step topology) (Fresh topology) threads events :=
  Runs.always_iff_allAllowed (fun _ holds => holds)
    (fun state event holds => (step_sound_iff topology state event holds).mpr)
    (fun state event holds => (step_sound_iff topology state event holds).mp) events sound

theorem sound_prepared (topology : Topology) : Sound topology ⟨.prepared, [], none⟩ :=
  ⟨SwitchosCache.consistent_prepared topology, fun _ failed => nomatch failed⟩

def smallTopology : Topology := ⟨[[0]], [0], 2, by decide⟩

/-- The third key evicts the first one, which is then populated again. -/
theorem metadata_consistent_iff_evicting :
    Runs.Always (step smallTopology) (Sound smallTopology) ⟨.prepared, [], none⟩
      [.receive ⟨⟨1, 0, 0, 0⟩, 0⟩, .work [], .receive ⟨⟨2, 0, 0, 0⟩, 0⟩, .work [], .receive ⟨⟨3, 0, 0, 0⟩, 0⟩,
        .work [(0, 5), (1, 7)], .receive ⟨⟨1, 0, 0, 0⟩, 0⟩, .work [(1, 6), (0, 9)]] := by
  refine (metadata_consistent_iff _ _ (sound_prepared smallTopology) _).mpr ?_
  refine ⟨trivial, ?_, trivial, ?_, trivial, ?_, trivial, ?_, trivial⟩
  all_goals
    intro _ pop head pipeidx _
    cases head
    exact .inl (by decide +kernel)

/-- A key that is populated twice takes both slots; the eviction of the first one removes it from the map,
and the eviction of the second one stops the process. -/
theorem populated_twice_exits :
    ¬ ∀ events, Runs.Always (step smallTopology) (Sound smallTopology) ⟨.prepared, [], none⟩ events := by
  intro always
  have last := (always
    [.receive ⟨⟨1, 0, 0, 0⟩, 0⟩, .receive ⟨⟨1, 0, 0, 0⟩, 0⟩, .receive ⟨⟨2, 0, 0, 0⟩, 0⟩, .receive ⟨⟨3, 0, 0, 0⟩, 0⟩,
      .work [], .work [], .work [(0, 5)], .work [(1, 5)]]).last
  exact last.2 .notCached (by decide +kernel) trivial

end PopThreads

end FarReach
