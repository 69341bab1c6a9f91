import FarReach.CacheMetadata
import FarReach.KeyRoles

namespace FarReach

open Placement KeyRoles Function SwitchosCache

/-- The deployment as the switch OS of NetCache reads it. -/
structure NetcacheConfig where
  topology : Topology
  workloadMode : Nat
  switchPartitionCount : Nat
  maxServerTotalLogicalNum : Nat

inductive NetcachePopMessage where
  | warmupreqInswitchPop (key : Key)
  | getreqPop (key : Key)
  | other

/-- Where the process stops: a packet of another type, a key without a server, a key that is cached already, a sample
of no slot, and the checks of the victim, of its entry in the set and of the free index. -/
inductive NetcacheFailure where
  | pkttype | unknownServer | alreadyCached | noBucket | evictidx | notCached | notInKeyset | freeidx
  deriving DecidableEq, Repr

/-- The checks whose outcome depends on the metadata. -/
def NetcacheFailure.OfMetadata : NetcacheFailure → Prop
  | .pkttype | .unknownServer | .noBucket => False
  | .alreadyCached | .evictidx | .notCached | .notInKeyset | .freeidx => True

/-- What `popserver` is at: between the insertion into the set and the write to the queue it holds the key. -/
inductive PopserverPhase where
  | receiving
  | writing (key : Key)

/-- A population for which `popworker` has a slot. -/
structure NetcachePopulation where
  key : Key
  serveridx : Nat
  pipeidx : Nat
  freeidx : Nat

inductive PopworkerPhase where
  | idle
  | taken (key : Key)
  | evicting (population : NetcachePopulation)
  | evicted (population : NetcachePopulation) (victim : Key)
  | populating (population : NetcachePopulation)
  | finishing (key : Key)

structure NetcacheSwitchos where
  cache : SwitchosCache
  cachedKeyset : Finset Key
  queue : List Key
  popserver : PopserverPhase
  popworker : PopworkerPhase
  failed : Option NetcacheFailure

/-- A step of `popserver` with a message or with the queue, or of `popworker` with what it would sample. -/
inductive NetcacheThreadEvent where
  | receive (message : NetcachePopMessage)
  | write
  | work (samples : List (Nat × Nat))

def SwitchosCache.takeFreeidx (cache : SwitchosCache) (pipeidx : Nat) : SwitchosCache :=
  let pipeline := cache.perpipeline pipeidx
  { cache with
    perpipeline := update cache.perpipeline pipeidx { pipeline with emptyIndex := pipeline.emptyIndex + 1 } }

namespace NetcacheSwitchos

def prepared : NetcacheSwitchos := ⟨.prepared, ∅, [], .receiving, .idle, none⟩

/-- `popserver` with a key, up to the unlocking of the set. -/
def enterKeyset (state : NetcacheSwitchos) (key : Key) : NetcacheSwitchos :=
  if key ∈ state.cachedKeyset then state
  else { state with cachedKeyset := insert key state.cachedKeyset, popserver := .writing key }

/-- `popserver` with a message; a static workload populates nothing behind the warm-up. -/
def receive (config : NetcacheConfig) (state : NetcacheSwitchos) : NetcachePopMessage → NetcacheSwitchos
  | .warmupreqInswitchPop key => state.enterKeyset key
  | .getreqPop key => if config.workloadMode = 0 then state else state.enterKeyset key
  | .other => { state with failed := some .pkttype }

/-- `popserver` at the queue: a failed write is only printed. -/
def write (state : NetcacheSwitchos) (key : Key) : NetcacheSwitchos :=
  if state.queue.length + 1 < mqSize then { state with queue := state.queue ++ [key], popserver := .receiving }
  else { state with popserver := .receiving }

/-- `popworker` up to the choice of the slot: the next free one, or that of a victim. -/
def assignFreeidx (config : NetcacheConfig) (cache : SwitchosCache) (key : Key) (samples : List (Nat × Nat)) :
    Except NetcacheFailure (SwitchosCache × PopworkerPhase) :=
  match key.getHashpartitionIdx config.switchPartitionCount config.maxServerTotalLogicalNum with
  | none => .error .unknownServer
  | some serveridx =>
    match config.topology.pipeidx serveridx with
    | none => .error .unknownServer
    | some pipeidx =>
      if cache.keyidxMap.contains key then .error .alreadyCached
      else
        let pipeline := cache.perpipeline pipeidx
        if pipeline.emptyIndex < config.topology.switchKvBucketNum then
          .ok (cache.takeFreeidx pipeidx, .populating ⟨key, serveridx, pipeidx, pipeline.emptyIndex % 2 ^ 16⟩)
        else if config.topology.switchKvBucketNum = 0 then .error .noBucket
        else
          let evictidx := chooseVictim config.topology.switchKvBucketNum samples
          if evictidx < config.topology.switchKvBucketNum then
            if cache.keyidxMap.contains (pipeline.keyarray evictidx) then
              .ok (cache, .evicting ⟨key, serveridx, pipeidx, evictidx⟩)
            else .error .notCached
          else .error .evictidx

/-- The next step of `popworker`. Only this thread uses the map and the arrays, so what it does to them between two
accesses to the queue or to the set is one step. -/
def work (config : NetcacheConfig) (state : NetcacheSwitchos) (samples : List (Nat × Nat)) : NetcacheSwitchos :=
  match state.popworker with
  | .idle =>
    match state.queue with
    | [] => state
    | key :: rest => { state with queue := rest, popworker := .taken key }
  | .taken key =>
    match assignFreeidx config state.cache key samples with
    | .ok (cache, popworker) => { state with cache, popworker }
    | .error failure => { state with failed := some failure }
  | .evicting population =>
    { state with
      cache := state.cache.evict population.pipeidx population.freeidx
      popworker := .evicted population ((state.cache.perpipeline population.pipeidx).keyarray population.freeidx) }
  | .evicted population victim =>
    if victim ∈ state.cachedKeyset then
      { state with cachedKeyset := state.cachedKeyset.erase victim, popworker := .populating population }
    else { state with failed := some .notInKeyset }
  | .populating population =>
    match state.cache.populate config.topology ⟨population.key, population.serveridx⟩ population.pipeidx
        population.freeidx with
    | .ok cache => { state with cache, popworker := .finishing population.key }
    | .error _ => { state with failed := some .freeidx }
  | .finishing _ => { state with popworker := .idle }

def step (config : NetcacheConfig) (state : NetcacheSwitchos) (event : NetcacheThreadEvent) : NetcacheSwitchos :=
  if state.failed.isSome then state
  else
    match event, state.popserver with
    | .receive message, .receiving => state.receive config message
    | .receive _, .writing _ => state
    | .write, .receiving => state
    | .write, .writing key => state.write key
    | .work samples, _ => state.work config samples

end NetcacheSwitchos

def PopserverPhase.keys : PopserverPhase → List Key
  | .receiving => []
  | .writing key => [key]

namespace PopworkerPhase

def waiting : PopworkerPhase → List Key
  | .idle => []
  | .taken key => [key]
  | .evicting population => [population.key]
  | .evicted population _ => [population.key]
  | .populating population => [population.key]
  | .finishing _ => []

def keys : PopworkerPhase → List Key
  | .finishing key => [key]
  | phase => phase.waiting

def leaving : PopworkerPhase → Option Key
  | .evicted _ victim => some victim
  | _ => none

def population : PopworkerPhase → Option NetcachePopulation
  | .evicting population => some population
  | .evicted population _ => some population
  | .populating population => some population
  | _ => none

/-- The occupied slots; the one that waits for the new key is empty. -/
def occupied (cache : SwitchosCache) : PopworkerPhase → Nat × Nat → Option Key
  | .evicted population _ => update cache.slots (population.pipeidx, population.freeidx) none
  | .populating population => update cache.slots (population.pipeidx, population.freeidx) none
  | _ => cache.slots

end PopworkerPhase

namespace NetcacheSwitchos

def inProgress (state : NetcacheSwitchos) : List Key :=
  state.popserver.keys ++ (state.popworker.keys ++ state.queue)

def waiting (state : NetcacheSwitchos) : List Key :=
  state.popserver.keys ++ (state.popworker.waiting ++ state.queue)

/-- No key is in progress twice, the map and the arrays are inverse to each other, no check of the metadata has
failed, and every key of the set is in progress, cached or being evicted. -/
structure Sound (state : NetcacheSwitchos) : Prop where
  once : state.inProgress.Nodup
  inverse : Placed (fun key : Key => state.cache.keyidxMap[key]?) (state.popworker.occupied state.cache)
  passed (failure : NetcacheFailure) : state.failed = some failure → ¬ failure.OfMetadata
  covered (key : Key) : key ∈ state.cachedKeyset →
    key ∈ state.inProgress ∨ state.cache.keyidxMap[key]? ≠ none ∨ state.popworker.leaving = some key

def HasRoom (state : NetcacheSwitchos) : NetcacheThreadEvent → Prop
  | .write => ∀ key, state.failed = none → state.popserver = .writing key → state.queue.length + 1 < mqSize
  | _ => True

/-- What the threads keep: every key of the set has one role, and the slot of a population is inside. -/
structure Ready (config : NetcacheConfig) (state : NetcacheSwitchos) : Prop where
  accounted : Accounted state.cachedKeyset state.waiting (fun key => state.cache.keyidxMap[key]? ≠ none)
    state.popworker.leaving
  inverse : Placed (fun key : Key => state.cache.keyidxMap[key]?) (state.popworker.occupied state.cache)
  bounded (pipeidx : Nat) : (state.cache.perpipeline pipeidx).emptyIndex ≤ config.topology.switchKvBucketNum
  inside (population : NetcachePopulation) : state.popworker.population = some population →
    population.freeidx < (state.cache.perpipeline population.pipeidx).emptyIndex
  finished (key : Key) : state.popworker = .finishing key → state.cache.keyidxMap[key]? ≠ none
  passed (failure : NetcacheFailure) : state.failed = some failure → ¬ failure.OfMetadata

variable {config : NetcacheConfig} {state : NetcacheSwitchos}

/-- The keys in progress are those that wait, and the one whose population is being finished. -/
theorem inProgress_cases (state : NetcacheSwitchos) :
    (∃ key, state.popworker = .finishing key ∧ state.inProgress.Perm (key :: state.waiting)) ∨
      state.inProgress = state.waiting := by
  unfold inProgress waiting
  cases state.popworker with
  | finishing key => exact Or.inl ⟨key, rfl, List.perm_middle⟩
  | _ => exact Or.inr rfl

theorem Ready.sound (ready : state.Ready config) : state.Sound := by
  refine ⟨?_, ready.inverse, ready.passed, fun key member => ?_⟩
  · rcases inProgress_cases state with ⟨key, phase, same⟩ | same
    · have apart : key ∉ state.waiting := fun member =>
        ready.accounted.uncached key member (ready.finished key phase)
      exact same.nodup_iff.mpr (List.nodup_cons.mpr ⟨apart, ready.accounted.once⟩)
    · rw [same]
      exact ready.accounted.once
  · refine ((ready.accounted.known_iff key).mp member).imp_left fun waits => ?_
    rcases inProgress_cases state with ⟨other, _, same⟩ | same
    · exact same.mem_iff.mpr (List.mem_cons_of_mem other waits)
    · rwa [same]

/-- The invariant with the phase of `popworker` in it. -/
theorem Ready.at_phase (ready : state.Ready config) {phase : PopworkerPhase} (here : state.popworker = phase) :
    Accounted state.cachedKeyset (state.popserver.keys ++ (phase.waiting ++ state.queue))
        (fun key => state.cache.keyidxMap[key]? ≠ none) phase.leaving ∧
      Placed (fun key : Key => state.cache.keyidxMap[key]?) (phase.occupied state.cache) := by
  subst here
  exact ⟨ready.accounted, ready.inverse⟩

theorem ready_prepared (config : NetcacheConfig) : prepared.Ready config where
  accounted := Accounted.empty.congr fun key => by simp [prepared, SwitchosCache.prepared]
  inverse := (consistent_prepared config.topology).placed
  bounded := (consistent_prepared config.topology).bounded
  inside population taken := by cases taken
  finished key phase := by cases phase
  passed failure failed := by cases failed

section

variable (ready : state.Ready config)
include ready

theorem Ready.fail {failure : NetcacheFailure} (outside : ¬ failure.OfMetadata) :
    Ready config { state with failed := some failure } where
  accounted := ready.accounted
  inverse := ready.inverse
  bounded := ready.bounded
  inside := ready.inside
  finished := ready.finished
  passed other failed := by
    cases failed
    exact outside

theorem ready_enterKeyset (free : state.popserver = .receiving) (key : Key) :
    (state.enterKeyset key).Ready config := by
  unfold enterKeyset
  split
  · exact ready
  · rename_i new
    refine ⟨?_, ready.inverse, ready.bounded, ready.inside, ready.finished, ready.passed⟩
    have accounted := ready.accounted
    unfold waiting at accounted
    rw [free] at accounted
    exact accounted.enter new

theorem ready_receive (free : state.popserver = .receiving)
    (message : NetcachePopMessage) : (state.receive config message).Ready config := by
  cases message with
  | warmupreqInswitchPop key => exact ready_enterKeyset ready free key
  | getreqPop key =>
    simp only [receive]
    split
    · exact ready
    · exact ready_enterKeyset ready free key
  | other => exact ready.fail id

variable {key : Key}

/-- The keys that wait while `popserver` is at the queue. -/
theorem accounted_writing (held : state.popserver = .writing key) :
    Accounted state.cachedKeyset (key :: (state.popworker.waiting ++ state.queue))
      (fun key => state.cache.keyidxMap[key]? ≠ none) state.popworker.leaving := by
  have accounted := ready.accounted
  unfold waiting at accounted
  rw [held] at accounted
  exact accounted

theorem ready_write (held : state.popserver = .writing key)
    (room : state.queue.length + 1 < mqSize) : (state.write key).Ready config := by
  unfold write
  rw [if_pos room]
  refine ⟨?_, ready.inverse, ready.bounded, ready.inside, ready.finished, ready.passed⟩
  refine (accounted_writing ready held).perm ?_
  have moved : (key :: (state.popworker.waiting ++ state.queue)).Perm
      ((state.popworker.waiting ++ state.queue) ++ [key]) :=
    (List.perm_append_singleton key _).symm
  rwa [List.append_assoc] at moved

/-- A key whose write fails stays in the set, and nothing will be done about it. -/
theorem not_sound_write (held : state.popserver = .writing key)
    (full : ¬ state.queue.length + 1 < mqSize) : ¬ (state.write key).Sound := by
  intro sound
  have accounted := accounted_writing ready held
  obtain ⟨known, roleless⟩ := accounted.dropped
  unfold write at sound
  rw [if_neg full] at sound
  rcases sound.covered key known with here | cached | out
  · rcases inProgress_cases { state with popserver := .receiving } with ⟨other, phase, same⟩ | same
    · rcases List.mem_cons.mp (same.mem_iff.mp here) with rfl | waits
      · exact roleless (Or.inr (Or.inl (ready.finished key phase)))
      · exact roleless (Or.inl waits)
    · rw [same] at here
      exact roleless (Or.inl here)
  · exact roleless (Or.inr (Or.inl cached))
  · exact roleless (Or.inr (Or.inr out))

end

section Slots

variable (cache : SwitchosCache)

/-- A change of one pipeline that keeps its other slots is seen at the one slot only. -/
theorem update_slots (keyidxMap : Std.ExtTreeMap Key Nat) (pipeidx place : Nat) (pipeline : CachedPipeline)
    (held : Option Key)
    (others : ∀ idx, idx ≠ place → (idx < pipeline.emptyIndex ↔ idx < (cache.perpipeline pipeidx).emptyIndex) ∧
      pipeline.keyarray idx = (cache.perpipeline pipeidx).keyarray idx) :
    update (slots ⟨keyidxMap, update cache.perpipeline pipeidx pipeline⟩) (pipeidx, place) held =
      update cache.slots (pipeidx, place) held := by
  funext slot
  by_cases same : slot = (pipeidx, place)
  · rw [same, update_self, update_self]
  · rw [update_of_ne same, update_of_ne same]
    obtain ⟨pipe, idx⟩ := slot
    unfold slots
    by_cases here : pipe = pipeidx
    · subst here
      have elsewhere : idx ≠ place := fun equal => same (by rw [equal])
      obtain ⟨occupied, key⟩ := others idx elsewhere
      simp only [update_self, key]
      exact if_congr occupied rfl rfl
    · simp only [update_of_ne here]

theorem slots_takeFreeidx (pipeidx : Nat) :
    update (cache.takeFreeidx pipeidx).slots (pipeidx, (cache.perpipeline pipeidx).emptyIndex) none =
      cache.slots := by
  have elsewhere := update_slots cache cache.keyidxMap pipeidx (cache.perpipeline pipeidx).emptyIndex
    { cache.perpipeline pipeidx with emptyIndex := (cache.perpipeline pipeidx).emptyIndex + 1 } none
    fun idx other => ⟨by dsimp only; omega, rfl⟩
  refine elsewhere.trans (update_eq_self_iff.mpr ?_)
  exact (if_neg (Nat.lt_irrefl _)).symm

theorem slots_evict (pipeidx evictidx : Nat) :
    update (cache.evict pipeidx evictidx).slots (pipeidx, evictidx) none =
      update cache.slots (pipeidx, evictidx) none := by
  refine update_slots cache _ pipeidx evictidx _ none fun idx other => ⟨Iff.rfl, ?_⟩
  exact update_of_ne other ..

def populated (population : NetcachePopulation) : SwitchosCache :=
  let pipeline := cache.perpipeline population.pipeidx
  { keyidxMap := cache.keyidxMap.insertIfNew population.key population.freeidx
    perpipeline := update cache.perpipeline population.pipeidx
      { pipeline with
        keyarray := update pipeline.keyarray population.freeidx population.key
        serveridxarray := update pipeline.serveridxarray population.freeidx population.serveridx } }

theorem slots_populated {population : NetcachePopulation}
    (inside : population.freeidx < (cache.perpipeline population.pipeidx).emptyIndex) :
    (populated cache population).slots =
      update cache.slots (population.pipeidx, population.freeidx) (some population.key) := by
  have elsewhere := update_slots cache (populated cache population).keyidxMap population.pipeidx population.freeidx
    ((populated cache population).perpipeline population.pipeidx) (some population.key) fun idx other => by
      simp only [populated, update_self, update_of_ne other, and_self]
  have held : (populated cache population).slots (population.pipeidx, population.freeidx) = some population.key := by
    simp only [slots, populated, update_self, if_pos inside]
  rw [← elsewhere, ← held]
  simp only [populated, update_self]
  exact (update_eq_self _ _).symm

theorem emptyIndex_update (pipeidx pipe : Nat) {pipeline : CachedPipeline}
    (same : pipeline.emptyIndex = (cache.perpipeline pipeidx).emptyIndex) :
    (update cache.perpipeline pipeidx pipeline pipe).emptyIndex = (cache.perpipeline pipe).emptyIndex := by
  by_cases here : pipe = pipeidx
  · subst here
    rw [update_self, same]
  · rw [update_of_ne here]

theorem emptyIndex_evict (pipeidx evictidx pipe : Nat) :
    ((cache.evict pipeidx evictidx).perpipeline pipe).emptyIndex = (cache.perpipeline pipe).emptyIndex :=
  emptyIndex_update cache pipeidx pipe rfl

theorem emptyIndex_populated (population : NetcachePopulation) (pipe : Nat) :
    ((populated cache population).perpipeline pipe).emptyIndex = (cache.perpipeline pipe).emptyIndex :=
  emptyIndex_update cache population.pipeidx pipe rfl

end Slots

section

variable (ready : state.Ready config)
include ready

/-- What the assignment of a slot comes to, as long as the metadata is sound: the process stops for a reason outside,
or the key gets the next free slot, or that of a victim. -/
theorem assignFreeidx_cases (taken : state.popworker = .taken key)
    (samples : List (Nat × Nat)) :
    (∃ failure, assignFreeidx config state.cache key samples = .error failure ∧ ¬ failure.OfMetadata) ∨
    (∃ serveridx pipeidx, (state.cache.perpipeline pipeidx).emptyIndex < config.topology.switchKvBucketNum ∧
      assignFreeidx config state.cache key samples =
        .ok (state.cache.takeFreeidx pipeidx, .populating ⟨key, serveridx, pipeidx,
          (state.cache.perpipeline pipeidx).emptyIndex⟩)) ∨
    ∃ serveridx pipeidx evictidx, evictidx < (state.cache.perpipeline pipeidx).emptyIndex ∧
      assignFreeidx config state.cache key samples =
        .ok (state.cache, .evicting ⟨key, serveridx, pipeidx, evictidx⟩) := by
  have uncached : state.cache.keyidxMap.contains key = false := by
    have member : key ∈ state.waiting := by
      unfold waiting
      rw [taken]
      exact List.mem_append_right _ List.mem_cons_self
    have absent := not_not.mp (ready.accounted.uncached key member)
    rw [Std.ExtTreeMap.contains_eq_isSome_getElem?, absent]
    rfl
  have consistent : state.cache.Consistent config.topology := ⟨(ready.at_phase taken).2, ready.bounded⟩
  unfold assignFreeidx
  cases key.getHashpartitionIdx config.switchPartitionCount config.maxServerTotalLogicalNum with
  | none => exact Or.inl ⟨_, rfl, id⟩
  | some serveridx =>
    dsimp only
    cases config.topology.pipeidx serveridx with
    | none => exact Or.inl ⟨_, rfl, id⟩
    | some pipeidx =>
      simp only [uncached, Bool.false_eq_true, if_false]
      by_cases free : (state.cache.perpipeline pipeidx).emptyIndex < config.topology.switchKvBucketNum
      · have small := Nat.mod_eq_of_lt (free.trans config.topology.indexable)
        rw [if_pos free, small]
        exact Or.inr (Or.inl ⟨serveridx, pipeidx, free, rfl⟩)
      rw [if_neg free]
      by_cases zero : config.topology.switchKvBucketNum = 0
      · rw [if_pos zero]
        exact Or.inl ⟨_, rfl, id⟩
      have victim := chooseVictim_lt (Nat.pos_of_ne_zero zero) samples
      have occupied := victim.trans_le (Nat.not_lt.mp free)
      rw [if_neg zero, if_pos victim, if_pos (victim_cached consistent occupied)]
      exact Or.inr (Or.inr ⟨serveridx, pipeidx, _, occupied, rfl⟩)

theorem ready_read (idle : state.popworker = .idle) {rest : List Key}
    (queued : state.queue = key :: rest) : Ready config { state with queue := rest, popworker := .taken key } := by
  obtain ⟨accounted, inverse⟩ := ready.at_phase idle
  rw [queued] at accounted
  exact ⟨accounted, inverse, ready.bounded, nofun, nofun, ready.passed⟩

theorem ready_assignFreeidx (taken : state.popworker = .taken key)
    (samples : List (Nat × Nat)) : (state.work config samples).Ready config := by
  obtain ⟨accounted, inverse⟩ := ready.at_phase taken
  simp only [work, taken]
  rcases assignFreeidx_cases ready taken samples with ⟨failure, stops, outside⟩ | ⟨serveridx, pipeidx,
    free, assigned⟩ | ⟨serveridx, pipeidx, evictidx, occupied, assigned⟩
  · rw [stops]
    simpa only [taken] using ready.fail outside
  · rw [assigned]
    refine ⟨accounted, ?_, fun pipe => ?_, fun population held => ?_, nofun, ready.passed⟩
    · unfold PopworkerPhase.occupied
      dsimp only
      rw [slots_takeFreeidx]
      exact inverse
    · by_cases same : pipe = pipeidx
      · subst same
        simpa only [takeFreeidx, update_self] using Nat.succ_le_of_lt free
      · simpa only [takeFreeidx, update_of_ne same] using ready.bounded pipe
    · cases held
      simp only [takeFreeidx, update_self]
      exact Nat.lt_succ_self _
  · rw [assigned]
    refine ⟨accounted, inverse, ready.bounded, fun population held => ?_, nofun, ready.passed⟩
    cases held
    exact occupied

theorem ready_evict {population : NetcachePopulation}
    (evicting : state.popworker = .evicting population) (samples : List (Nat × Nat)) :
    (state.work config samples).Ready config := by
  obtain ⟨accounted, inverse⟩ := ready.at_phase evicting
  have inside := ready.inside population (by rw [evicting]; rfl)
  let victim := (state.cache.perpipeline population.pipeidx).keyarray population.freeidx
  have held : state.cache.slots (population.pipeidx, population.freeidx) = some victim := if_pos inside
  have cached : state.cache.keyidxMap[victim]? ≠ none := by
    rw [show state.cache.keyidxMap[victim]? = _ from inverse.found held]
    exact Option.some_ne_none _
  simp only [work, evicting]
  refine ⟨?_, ?_, fun pipe => ?_, fun other here => ?_, nofun, ready.passed⟩
  · refine (accounted.release cached).congr fun key => ?_
    simp only [evict, OrderedMap.lookup_erase]
    by_cases same : key = victim
    · simp [same, victim]
    · simp only [ne_eq, same, not_false_eq_true, true_and]
      rw [if_neg same]
  · have cleared := inverse.clear held
    rw [← index_erase] at cleared
    unfold PopworkerPhase.occupied
    dsimp only
    rw [slots_evict]
    exact cleared
  · rw [emptyIndex_evict]
    exact ready.bounded pipe
  · cases here
    rw [emptyIndex_evict]
    exact inside

theorem ready_forget {population : NetcachePopulation} {victim : Key}
    (evicted : state.popworker = .evicted population victim) (samples : List (Nat × Nat)) :
    (state.work config samples).Ready config := by
  obtain ⟨accounted, inverse⟩ := ready.at_phase evicted
  have inside := ready.inside population (by rw [evicted]; rfl)
  have known : victim ∈ state.cachedKeyset := (accounted.known_iff victim).mpr (Or.inr (Or.inr rfl))
  simp only [work, evicted, if_pos known]
  refine ⟨accounted.forget, inverse, ready.bounded, fun other here => ?_, nofun, ready.passed⟩
  cases here
  exact inside

theorem ready_populate {population : NetcachePopulation}
    (populating : state.popworker = .populating population) (samples : List (Nat × Nat)) :
    (state.work config samples).Ready config := by
  obtain ⟨accounted, inverse⟩ := ready.at_phase populating
  have inside := ready.inside population (by rw [populating]; rfl)
  have first : (state.popserver.keys ++ ([population.key] ++ state.queue)).Perm
      (population.key :: (state.popserver.keys ++ state.queue)) := List.perm_middle
  have moved := accounted.perm first
  have uncached : state.cache.keyidxMap[population.key]? = none :=
    not_not.mp (moved.uncached population.key List.mem_cons_self)
  have passes : state.cache.populate config.topology ⟨population.key, population.serveridx⟩ population.pipeidx
      population.freeidx = .ok (populated state.cache population) :=
    if_pos (inside.trans_le (ready.bounded population.pipeidx))
  simp only [work, populating, passes]
  refine ⟨?_, ?_, fun pipe => ?_, nofun, fun key phase => ?_, ready.passed⟩
  · refine moved.settle.congr fun key => ?_
    simp only [populated, OrderedMap.lookup_insertIfNew, uncached, Option.none_or]
    by_cases same : key = population.key
    · simp [same]
    · simp [same]
  · have filled := (inverse.fill_iff (update_self ..) population.key).mpr uncached
    rw [← index_insertIfNew, PopworkerPhase.occupied, update_idem,
      ← slots_populated state.cache inside] at filled
    exact filled
  · rw [emptyIndex_populated]
    exact ready.bounded pipe
  · cases phase
    simp only [populated, OrderedMap.lookup_insertIfNew, uncached, Option.none_or, if_true]
    exact Option.some_ne_none _

theorem ready_finish (finishing : state.popworker = .finishing key) :
    Ready config { state with popworker := .idle } := by
  obtain ⟨accounted, inverse⟩ := ready.at_phase finishing
  exact ⟨accounted, inverse, ready.bounded, nofun, nofun, ready.passed⟩

theorem ready_work (samples : List (Nat × Nat)) :
    (state.work config samples).Ready config := by
  cases phase : state.popworker with
  | idle =>
    simp only [work, phase]
    cases queued : state.queue with
    | nil => exact ready
    | cons key rest => exact ready_read ready phase queued
  | taken key => exact ready_assignFreeidx ready phase samples
  | evicting population => exact ready_evict ready phase samples
  | evicted population victim => exact ready_forget ready phase samples
  | populating population => exact ready_populate ready phase samples
  | finishing key =>
    simp only [work, phase]
    exact ready_finish ready phase

/-- A step keeps every key in its role if the queue has room. -/
theorem ready_step (event : NetcacheThreadEvent) (room : state.HasRoom event) :
    (state.step config event).Ready config := by
  unfold step
  cases failed : state.failed with
  | some failure => exact ready
  | none =>
    simp only [Option.isSome_none, Bool.false_eq_true, if_false]
    cases event with
    | receive message =>
      cases server : state.popserver with
      | receiving => exact ready_receive ready server message
      | writing key => exact ready
    | write =>
      cases server : state.popserver with
      | receiving => exact ready
      | writing key => exact ready_write ready server (room key failed server)
    | work samples => exact ready_work ready samples

/-- A step that leaves the metadata sound had room in the queue. -/
theorem hasRoom_of_sound (event : NetcacheThreadEvent)
    (sound : (state.step config event).Sound) :
    state.HasRoom event := by
  cases event with
  | receive message => trivial
  | work samples => trivial
  | write =>
    intro key running held
    by_contra full
    unfold step at sound
    simp only [running, held, Option.isSome_none, Bool.false_eq_true, if_false] at sound
    exact not_sound_write ready held full sound

end

/-- Whatever comes and however the threads interleave, the metadata is sound throughout exactly in the runs in which
the queue has room for every key that `popserver` writes. -/
theorem netcacheMetadata_sound_iff (config : NetcacheConfig) (events : List NetcacheThreadEvent) :
    Runs.Always (step config) Sound prepared events ↔ Runs.AllAllowed (step config) HasRoom prepared events :=
  Runs.always_iff_allAllowed (fun _ ready => ready.sound) (fun _ event ready room => ready_step ready event room)
    (fun _ event ready sound => hasRoom_of_sound ready event sound) events (ready_prepared config)

/-- What `popserver` does with keys that it does not know, while `popworker` is busy. -/
def arrivals (keys : List Key) : List NetcacheThreadEvent :=
  keys.flatMap fun key => [.receive (.warmupreqInswitchPop key), .write]

theorem foldl_arrivals (config : NetcacheConfig) (keys queue : List Key) (distinct : (queue ++ keys).Nodup)
    (room : queue.length + keys.length < mqSize) :
    (arrivals keys).foldl (step config) ⟨.prepared, queue.toFinset, queue, .receiving, .idle, none⟩ =
      ⟨.prepared, (queue ++ keys).toFinset, queue ++ keys, .receiving, .idle, none⟩ := by
  induction keys generalizing queue with
  | nil => simp [arrivals]
  | cons key rest ih =>
    have regroup : queue ++ key :: rest = (queue ++ [key]) ++ rest := by simp
    have new : key ∉ queue.toFinset := by
      rw [List.mem_toFinset]
      exact fun member => (List.disjoint_of_nodup_append distinct) member List.mem_cons_self
    have one : (arrivals [key]).foldl (step config) ⟨.prepared, queue.toFinset, queue, .receiving, .idle, none⟩ =
        ⟨.prepared, (queue ++ [key]).toFinset, queue ++ [key], .receiving, .idle, none⟩ := by
      have fits : queue.length + 1 < mqSize := by
        rw [List.length_cons] at room
        omega
      have set : insert key queue.toFinset = (queue ++ [key]).toFinset := by
        ext other
        simp
      simp only [arrivals, List.flatMap_cons, List.flatMap_nil, List.append_nil, List.foldl_cons,
        List.foldl_nil, step, receive, enterKeyset, write, new, fits, Option.isSome_none, Bool.false_eq_true,
          if_false, if_true, set]
    have split : arrivals (key :: rest) = arrivals [key] ++ arrivals rest := by simp [arrivals]
    rw [split, List.foldl_append, one, regroup]
    refine ih (queue ++ [key]) (by rwa [← regroup]) ?_
    rw [List.length_append, List.length_singleton]
    rw [List.length_cons] at room
    omega

def manyKeys (n : Nat) : List Key := (List.range n).map fun i => ⟨UInt32.ofNat i, 0, 0, 0⟩

theorem manyKeys_nodup {n : Nat} (small : n < 2 ^ 32) : (manyKeys n).Nodup := by
  refine (List.nodup_map_iff_inj_on List.nodup_range).mpr fun i inI j inJ same => ?_
  rw [List.mem_range] at inI inJ
  have words : UInt32.ofNat i = UInt32.ofNat j := congrArg Key.keylolo same
  have numbers := congrArg UInt32.toNat words
  rwa [UInt32.toNat_ofNat_of_lt' (inI.trans small), UInt32.toNat_ofNat_of_lt' (inJ.trans small)] at numbers

/-- While `popworker` is busy more keys become hot than the queue has places: the last one stays in the set, but it is
not queued, not being populated and not cached. -/
theorem overflowed_key_is_stuck :
    ∃ (config : NetcacheConfig) (events : List NetcacheThreadEvent) (key : Key),
      key ∈ (events.foldl (step config) prepared).cachedKeyset ∧
      (events.foldl (step config) prepared).popserver.keys = [] ∧
      key ∉ (events.foldl (step config) prepared).inProgress ∧
      (events.foldl (step config) prepared).cache.keyidxMap[key]? = none ∧
      (events.foldl (step config) prepared).popworker.leaving = none := by
  let config : NetcacheConfig := ⟨PopThreads.smallTopology, 1, 1, 1⟩
  obtain ⟨n, full⟩ : ∃ n, n + 1 = mqSize := ⟨40959, rfl⟩
  have bound : mqSize = 40960 := rfl
  have distinct : (manyKeys (n + 1)).Nodup := manyKeys_nodup (by omega)
  let last : Key := ⟨UInt32.ofNat n, 0, 0, 0⟩
  have split : manyKeys (n + 1) = manyKeys n ++ [last] := by
    simp only [manyKeys, List.range_succ, List.map_append, List.map_cons, List.map_nil, last]
  rw [split] at distinct
  have length : (manyKeys n).length = n := by simp [manyKeys]
  have new : last ∉ manyKeys n := fun member => (List.disjoint_of_nodup_append distinct) member
    (List.mem_singleton_self last)
  have filled := foldl_arrivals config (manyKeys n) [] (List.nodup_append.mp distinct).1 (by rw [length]; simp; omega)
  have reached : (arrivals (manyKeys n) ++ arrivals [last]).foldl (step config) prepared =
      ⟨.prepared, insert last (manyKeys n).toFinset, manyKeys n, .receiving, .idle, none⟩ := by
    have start : prepared = ⟨.prepared, ([] : List Key).toFinset, [], .receiving, .idle, none⟩ := rfl
    have unknown : last ∉ (manyKeys n).toFinset := by rwa [List.mem_toFinset]
    have noRoom : ¬ (manyKeys n).length + 1 < mqSize := by rw [length, full]; exact lt_irrefl _
    rw [List.foldl_append, start, filled, List.nil_append]
    simp only [arrivals, List.flatMap_cons, List.flatMap_nil, List.append_nil, List.foldl_cons, List.foldl_nil, step,
      receive, enterKeyset, write, unknown, noRoom, Option.isSome_none, Bool.false_eq_true, if_false]
  refine ⟨config, arrivals (manyKeys n) ++ arrivals [last], last, ?_⟩
  rw [reached]
  refine ⟨Finset.mem_insert_self _ _, rfl, ?_, Std.ExtTreeMap.getElem?_empty, rfl⟩
  exact new

end NetcacheSwitchos

end FarReach
