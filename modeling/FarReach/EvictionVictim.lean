import FarReach.CacheMetadata

namespace FarReach

/-- A pipeline without a free index: the key of each slot, and the map with all of them. -/
structure FullPipeline (bucketNum : Nat) where
  keyarray : Fin bucketNum → Key
  keyidxMap : Std.ExtTreeMap Key Nat
  cached : ∀ idx, keyarray idx ∈ keyidxMap

/-- The indexes `popworker` has drawn; `switchos_sample_cnt` is `last + 1`. -/
abbrev Sample (bucketNum last : Nat) := Fin (last + 1) → Fin bucketNum

/-- A `CACHE_EVICT_LOADFREQ_INSWITCH_ACK`: the answer to the request of a sample, or one that is left
from an earlier eviction. -/
inductive FrequencyAck (last : Nat) where
  | ack (position : Fin (last + 1))
  | late (key : Key) (frequency : Nat)
  deriving DecidableEq

/-- What `udprecvfrom` gives `popworker`. -/
inductive FrequencyArrival (last : Nat) where
  | timeout
  | received (ack : FrequencyAck last)

inductive EvictionOutcome (bucketNum : Nat) where
  | exit
  | waiting
  | victim (evictidx : Fin bucketNum)
  deriving DecidableEq

namespace FullPipeline

variable {bucketNum last : Nat} (pipeline : FullPipeline bucketNum) (sample : Sample bucketNum last)
  (frequencies : Fin bucketNum → Nat)

def ackKey : FrequencyAck last → Key
  | .ack position => pipeline.keyarray (sample position)
  | .late key _ => key

def ackFrequency : FrequencyAck last → Nat
  | .ack position => frequencies (sample position)
  | .late _ frequency => frequency

def firstSampled (key : Key) : Option (Fin (last + 1)) :=
  (List.finRange (last + 1)).find? fun position => pipeline.keyarray (sample position) = key

def evict (frequencyCounters : Fin (last + 1) → Nat) : EvictionOutcome bucketNum :=
  let evictidx := chooseVictim bucketNum
    ((List.finRange (last + 1)).map fun position => ((sample position).val, frequencyCounters position))
  if inside : evictidx < bucketNum then
    if pipeline.keyarray ⟨evictidx, inside⟩ ∈ pipeline.keyidxMap then .victim ⟨evictidx, inside⟩ else .exit
  else .exit

/-- The loop that loads the frequency counters. A timeout starts a new round of requests, which keeps the
counters and counts the acknowledgements anew. -/
def loadFrequencies : Nat → (Fin (last + 1) → Nat) → List (FrequencyArrival last) → EvictionOutcome bucketNum
  | _, _, [] => .waiting
  | _, frequencyCounters, .timeout :: rest => loadFrequencies 0 frequencyCounters rest
  | acknum, frequencyCounters, .received ack :: rest =>
    match pipeline.firstSampled sample (pipeline.ackKey sample ack) with
    | none => .exit
    | some position =>
      let frequencyCounters := Function.update frequencyCounters position (ackFrequency sample frequencies ack)
      if acknum + 1 ≥ last + 1 then pipeline.evict sample frequencyCounters
      else loadFrequencies (acknum + 1) frequencyCounters rest

def eviction (arrivals : List (FrequencyArrival last)) : EvictionOutcome bucketNum :=
  pipeline.loadFrequencies sample frequencies 0 (fun _ => 0) arrivals

/-- Whatever the frequencies are, `popworker` does not exit, and a victim it chooses is a sampled index
with the smallest frequency. -/
def EvictsColdest (arrivals : List (FrequencyArrival last)) : Prop :=
  ∀ frequencies : Fin bucketNum → Nat,
    pipeline.eviction sample frequencies arrivals ≠ .exit ∧
      ∀ evictidx, pipeline.eviction sample frequencies arrivals = .victim evictidx →
        (∃ position, evictidx = sample position) ∧
          ∀ position, frequencies evictidx ≤ frequencies (sample position)

end FullPipeline

/-- The acknowledgements taken from the socket up to the first `last + 1` of them between two timeouts. -/
def takenAcks {last : Nat} : Nat → List (FrequencyArrival last) → List (FrequencyAck last)
  | _, [] => []
  | _, .timeout :: rest => takenAcks 0 rest
  | acknum, .received ack :: rest =>
    ack :: if acknum + 1 ≥ last + 1 then [] else takenAcks (acknum + 1) rest

/-- There are `last + 1` acknowledgements between two timeouts. -/
def enoughAcks {last : Nat} : Nat → List (FrequencyArrival last) → Bool
  | _, [] => false
  | _, .timeout :: rest => enoughAcks 0 rest
  | acknum, .received _ :: rest => acknum + 1 ≥ last + 1 || enoughAcks (acknum + 1) rest

namespace FullPipeline

variable {bucketNum last : Nat} (pipeline : FullPipeline bucketNum) (sample : Sample bucketNum last)
  (frequencies : Fin bucketNum → Nat)

def lastAck (acks : List (FrequencyAck last)) (position : Fin (last + 1)) : Option (FrequencyAck last) :=
  (acks.filter fun ack => pipeline.firstSampled sample (pipeline.ackKey sample ack) = some position).getLast?

/-- Every acknowledgement is for a sampled key, and at the end, unless one index was drawn throughout, each
sample has been answered, at last by an answer to this eviction's request. -/
structure Timely (arrivals : List (FrequencyArrival last)) : Prop where
  sampled : ∀ ack ∈ takenAcks 0 arrivals, ∃ position,
    pipeline.keyarray (sample position) = pipeline.ackKey sample ack
  answered : enoughAcks 0 arrivals → (∀ position other, sample position = sample other) ∨
    ∀ position, ∃ answer, pipeline.lastAck sample (takenAcks 0 arrivals) position = some (.ack answer)

variable {position : Fin (last + 1)} {acks : List (FrequencyAck last)}

theorem firstSampled_eq_some {key : Key} (found : pipeline.firstSampled sample key = some position) :
    pipeline.keyarray (sample position) = key := by
  simpa using List.find?_some found

theorem firstSampled_isSome_iff (key : Key) :
    (pipeline.firstSampled sample key).isSome ↔ ∃ position, pipeline.keyarray (sample position) = key := by
  unfold firstSampled
  simp [List.find?_isSome]

def counters (acks : List (FrequencyAck last)) (position : Fin (last + 1)) : Nat :=
  (pipeline.lastAck sample acks position).elim 0 (ackFrequency sample frequencies)

theorem counters_concat (acks : List (FrequencyAck last)) (ack : FrequencyAck last)
    (found : pipeline.firstSampled sample (pipeline.ackKey sample ack) = some position) :
    pipeline.counters sample frequencies (acks ++ [ack]) =
      Function.update (pipeline.counters sample frequencies acks) position (ackFrequency sample frequencies ack) := by
  funext other
  unfold counters lastAck
  rw [List.filter_append]
  by_cases same : other = position
  · subst same
    simp [found]
  · simp [found, same, Ne.symm same]

/-- The loop exits on the first acknowledgement that is for no sampled key, and otherwise chooses the
victim from the counters once there are enough acknowledgements. -/
theorem loadFrequencies_eq (arrivals : List (FrequencyArrival last)) (acknum : Nat)
    (done : List (FrequencyAck last)) :
    pipeline.loadFrequencies sample frequencies acknum (pipeline.counters sample frequencies done) arrivals =
      if ∀ ack ∈ takenAcks acknum arrivals, (pipeline.firstSampled sample (pipeline.ackKey sample ack)).isSome then
        if enoughAcks acknum arrivals then
          pipeline.evict sample (pipeline.counters sample frequencies (done ++ takenAcks acknum arrivals))
        else .waiting
      else .exit := by
  induction arrivals generalizing acknum done with
  | nil => simp [loadFrequencies, takenAcks, enoughAcks]
  | cons arrival rest ih =>
    cases arrival with
    | timeout => exact ih 0 done
    | received ack =>
      unfold loadFrequencies takenAcks enoughAcks
      cases found : pipeline.firstSampled sample (pipeline.ackKey sample ack) with
      | none => simp [found]
      | some position =>
        dsimp only
        rw [← pipeline.counters_concat sample frequencies done ack found]
        by_cases enough : acknum + 1 ≥ last + 1
        · simp [enough, found]
        · rw [if_neg enough, ih]
          simp [enough, found]

theorem eviction_eq (arrivals : List (FrequencyArrival last)) :
    pipeline.eviction sample frequencies arrivals =
      if ∀ ack ∈ takenAcks 0 arrivals, (pipeline.firstSampled sample (pipeline.ackKey sample ack)).isSome then
        if enoughAcks 0 arrivals then
          pipeline.evict sample (pipeline.counters sample frequencies (takenAcks 0 arrivals))
        else .waiting
      else .exit :=
  pipeline.loadFrequencies_eq sample frequencies arrivals 0 []

theorem foldl_best_first {step : Option (Nat × Nat) → Nat × Nat → Option (Nat × Nat)}
    (start : ∀ sample, step none sample = some (sample.2, sample.1 % bucketNum))
    (next : ∀ best sample, step (some best) sample =
      if best.1 > sample.2 then some (sample.2, sample.1 % bucketNum) else some best)
    (samples : List (Nat × Nat)) (nonempty : samples ≠ []) :
    ∃ before entry after, samples = before ++ entry :: after ∧
      samples.foldl step none = some (entry.2, entry.1 % bucketNum) ∧
      (∀ other ∈ before, entry.2 < other.2) ∧ ∀ other ∈ after, entry.2 ≤ other.2 := by
  induction samples using List.reverseRecOn with
  | nil => exact absurd rfl nonempty
  | append_singleton samples sample ih =>
    rw [List.foldl_append, List.foldl_cons, List.foldl_nil]
    by_cases empty : samples = []
    · subst empty
      exact ⟨[], sample, [], rfl, start sample, by simp, by simp⟩
    · obtain ⟨before, entry, after, split, best, first, least⟩ := ih empty
      rw [best, next]
      by_cases smaller : entry.2 > sample.2
      · refine ⟨samples, sample, [], rfl, if_pos smaller, ?_, by simp⟩
        intro other member
        rw [split, List.mem_append, List.mem_cons] at member
        rcases member with early | same | late
        · exact smaller.trans (first other early)
        · exact same ▸ smaller
        · exact smaller.trans_le (least other late)
      · refine ⟨before, entry, after ++ [sample], by simp [split], if_neg smaller, first, ?_⟩
        intro other member
        rcases List.mem_append.mp member with early | late
        · exact least other early
        · rw [List.mem_singleton.mp late]
          omega

/-- The victim is the first of the samples with the smallest counter. -/
theorem chooseVictim_first (samples : List (Nat × Nat)) (nonempty : samples ≠ []) :
    ∃ before entry after, samples = before ++ entry :: after ∧
      chooseVictim bucketNum samples = entry.1 % bucketNum ∧
      (∀ other ∈ before, entry.2 < other.2) ∧ ∀ other ∈ after, entry.2 ≤ other.2 := by
  obtain ⟨step, start, next, loop⟩ : ∃ step : Option (Nat × Nat) → Nat × Nat → Option (Nat × Nat),
      (∀ sample, step none sample = some (sample.2, sample.1 % bucketNum)) ∧
      (∀ best sample, step (some best) sample =
        if best.1 > sample.2 then some (sample.2, sample.1 % bucketNum) else some best) ∧
      chooseVictim bucketNum samples = (samples.foldl step none).elim 0 Prod.snd := by
    refine ⟨_, ?_, ?_, rfl⟩
    · exact fun _ => rfl
    · exact fun _ _ => rfl
  obtain ⟨before, entry, after, split, best, first, least⟩ := foldl_best_first start next samples nonempty
  refine ⟨before, entry, after, split, ?_, first, least⟩
  rw [loop, best]
  rfl

/-- The position the victim comes from. -/
structure Coldest (counters : Fin (last + 1) → Nat) (position : Fin (last + 1)) : Prop where
  least : ∀ other, counters position ≤ counters other
  first : ∀ other < position, counters position < counters other

theorem evict_coldest (frequencyCounters : Fin (last + 1) → Nat) :
    ∃ position, pipeline.evict sample frequencyCounters = .victim (sample position) ∧
      Coldest frequencyCounters position := by
  obtain ⟨before, entry, after, split, chosen, first, least⟩ :=
    @chooseVictim_first bucketNum
      ((List.finRange (last + 1)).map fun position => ((sample position).val, frequencyCounters position)) (by simp)
  obtain ⟨early, rest, positions, earlySame, restSame⟩ := List.map_eq_append_iff.mp split
  obtain ⟨position, late, same, entrySame, lateSame⟩ := List.map_eq_cons_iff.mp restSame
  subst same earlySame lateSame entrySame
  have value : chooseVictim bucketNum ((List.finRange (last + 1)).map fun position =>
      ((sample position).val, frequencyCounters position)) = (sample position).val := by
    rw [chosen]
    exact Nat.mod_eq_of_lt (sample position).isLt
  have sorted : (List.finRange (last + 1)).Pairwise (· < ·) := List.pairwise_lt_finRange _
  rw [positions, List.pairwise_append] at sorted
  have place : ∀ other, other ∈ early ∨ other = position ∨ other ∈ late := by
    intro other
    have member := List.mem_finRange other
    rw [positions, List.mem_append, List.mem_cons] at member
    exact member
  refine ⟨position, ?_, ?_, ?_⟩
  · unfold evict
    simp only [value]
    rw [dif_pos (sample position).isLt, if_pos (pipeline.cached (sample position))]
  · intro other
    rcases place other with early | same | late
    · exact Nat.le_of_lt (first _ (List.mem_map_of_mem early))
    · exact same ▸ Nat.le_refl _
    · exact least _ (List.mem_map_of_mem late)
  · intro other below
    rcases place other with early | same | late
    · exact first _ (List.mem_map_of_mem early)
    · exact absurd (same ▸ below) (lt_irrefl _)
    · have above := (List.pairwise_cons.mp sorted.2.1).1 other late
      exact absurd above (not_lt_of_gt below)

/-- Two ways to count that agree where they are smallest choose the same position. -/
theorem Coldest.unique {some others : Fin (last + 1) → Nat} {other : Fin (last + 1)} (one : Coldest some position)
    (two : Coldest others other) (back : some other ≤ some position) (forth : others position ≤ others other) :
    position = other := by
  rcases lt_trichotomy position other with below | same | above
  · exact absurd (two.first position below) (Nat.not_lt.mpr forth)
  · exact same
  · exact absurd (one.first other above) (Nat.not_lt.mpr back)

/-- When every sample was answered, its counter is the frequency of its slot: two samples with one key would
leave the second one without an answer. -/
theorem counters_of_answered (acks : List (FrequencyAck last))
    (answered : ∀ position, ∃ answer, pipeline.lastAck sample acks position = some (.ack answer))
    (position : Fin (last + 1)) :
    pipeline.counters sample frequencies acks position = frequencies (sample position) := by
  have own : ∀ position answer, pipeline.lastAck sample acks position = some (.ack answer) →
      pipeline.firstSampled sample (pipeline.keyarray (sample answer)) = some position := by
    intro position answer found
    have member := List.mem_of_mem_getLast? (Option.mem_def.mpr found)
    exact of_decide_eq_true (List.mem_filter.mp member).2
  obtain ⟨answer, found⟩ := answered position
  have counted := own position answer found
  obtain ⟨second, foundSecond⟩ := answered answer
  have countedSecond := own answer second foundSecond
  have keys := pipeline.firstSampled_eq_some sample countedSecond
  rw [← keys] at countedSecond
  have same : answer = position := Option.some.inj (countedSecond.symm.trans counted)
  unfold counters
  rw [found, same]
  rfl

/-- A sample that was not answered by this eviction has a counter that does not depend on the frequencies. -/
def staleCounter (acks : List (FrequencyAck last)) (position : Fin (last + 1)) : Option Nat :=
  match pipeline.lastAck sample acks position with
  | none => some 0
  | some (.late _ frequency) => some frequency
  | some (.ack _) => none

theorem counters_of_stale {stale : Nat} (found : pipeline.staleCounter sample acks position = some stale) :
    pipeline.counters sample frequencies acks position = stale := by
  unfold staleCounter at found
  unfold counters
  cases held : pipeline.lastAck sample acks position with
  | none =>
    rw [held] at found
    exact Option.some.inj found
  | some ack =>
    rw [held] at found
    cases ack with
    | ack answer => cases found
    | late key frequency => exact Option.some.inj found

theorem staleCounter_eq_none (found : pipeline.staleCounter sample acks position = none) :
    ∃ answer, pipeline.lastAck sample acks position = some (.ack answer) := by
  unfold staleCounter at found
  cases held : pipeline.lastAck sample acks position with
  | none =>
    rw [held] at found
    cases found
  | some ack =>
    rw [held] at found
    cases ack with
    | ack answer => exact ⟨answer, rfl⟩
    | late key frequency => cases found

/-- Where every frequency is above the smallest stale counter, the victim is a sample with that counter. -/
theorem Coldest.stale {stale : Nat} (some : ∃ position, pipeline.staleCounter sample acks position = some stale)
    (least : ∀ position value, pipeline.staleCounter sample acks position = Option.some value → stale ≤ value)
    (hot : ∀ idx, stale < frequencies idx) (coldest : Coldest (pipeline.counters sample frequencies acks) position) :
    pipeline.staleCounter sample acks position = Option.some stale := by
  obtain ⟨cold, found⟩ := some
  have bound := coldest.least cold
  rw [pipeline.counters_of_stale sample frequencies found] at bound
  cases held : pipeline.staleCounter sample acks position with
  | none =>
    obtain ⟨answer, last⟩ := pipeline.staleCounter_eq_none sample held
    have counted : pipeline.counters sample frequencies acks position = frequencies (sample answer) := by
      unfold counters
      rw [last]
      rfl
    have above := hot (sample answer)
    omega
  | some value =>
    have above := least position value held
    rw [pipeline.counters_of_stale sample frequencies held] at bound
    rw [Nat.le_antisymm bound above]

/-- With a stale counter and two different sampled indexes, the frequencies can be such that the victim is
hotter than the other index: they are above the stale counter, and the victim's is the largest. -/
theorem answered_of_evictsColdest
    (coldest : ∀ frequencies : Fin bucketNum → Nat, ∀ evictidx,
      pipeline.evict sample (pipeline.counters sample frequencies acks) = .victim evictidx →
        ∀ position, frequencies evictidx ≤ frequencies (sample position)) :
    (∀ position other, sample position = sample other) ∨
      ∀ position, ∃ answer, pipeline.lastAck sample acks position = some (.ack answer) := by
  by_contra neither
  push Not at neither
  obtain ⟨⟨position, other, different⟩, unanswered, silent⟩ := neither
  have exists_stale : ∃ stale, ∃ position, pipeline.staleCounter sample acks position = some stale := by
    cases held : pipeline.staleCounter sample acks unanswered with
    | none =>
      obtain ⟨answer, found⟩ := pipeline.staleCounter_eq_none sample held
      exact absurd found (silent answer)
    | some stale => exact ⟨stale, unanswered, held⟩
  classical
  obtain ⟨stale, some, least⟩ : ∃ stale, (∃ position, pipeline.staleCounter sample acks position = some stale) ∧
      ∀ position value, pipeline.staleCounter sample acks position = some value → stale ≤ value :=
    ⟨Nat.find exists_stale, Nat.find_spec exists_stale,
      fun position value found => Nat.find_min' exists_stale ⟨position, found⟩⟩
  -- where the victim comes from when all frequencies are equal
  obtain ⟨chosen, _, one⟩ := pipeline.evict_coldest sample (pipeline.counters sample (fun _ => stale + 1) acks)
  have chosenStale := one.stale pipeline sample _ some least (fun _ => Nat.lt_succ_self stale)
  let frequencies : Fin bucketNum → Nat := fun idx => if idx = sample chosen then stale + 2 else stale + 1
  have hot : ∀ idx, stale < frequencies idx := by
    intro idx
    simp only [frequencies]
    split <;> omega
  obtain ⟨again, evicted, two⟩ := pipeline.evict_coldest sample (pipeline.counters sample frequencies acks)
  have againStale := two.stale pipeline sample _ some least hot
  have same : chosen = again := by
    refine one.unique two ?_ ?_
    · rw [pipeline.counters_of_stale sample _ chosenStale, pipeline.counters_of_stale sample _ againStale]
    · rw [pipeline.counters_of_stale sample _ chosenStale, pipeline.counters_of_stale sample _ againStale]
  subst same
  have cold : ∀ position, sample position = sample chosen := by
    intro position
    have bound := coldest frequencies (sample chosen) evicted position
    by_contra elsewhere
    simp only [frequencies, if_true, if_neg elsewhere] at bound
    omega
  exact different ((cold position).trans (cold other).symm)

/-- `popworker` does not exit and evicts a coldest sampled index, whatever the frequencies are, exactly if
the acknowledgements it takes are timely. -/
theorem evictsColdest_iff_timely (arrivals : List (FrequencyArrival last)) :
    pipeline.EvictsColdest sample arrivals ↔ pipeline.Timely sample arrivals := by
  constructor
  · intro holds
    have sampled : ∀ ack ∈ takenAcks 0 arrivals,
        (pipeline.firstSampled sample (pipeline.ackKey sample ack)).isSome := by
      by_contra unknown
      have outcome := (holds fun _ => 0).1
      rw [eviction_eq, if_neg unknown] at outcome
      exact outcome rfl
    refine ⟨fun ack member => (pipeline.firstSampled_isSome_iff sample _).mp (sampled ack member), ?_⟩
    intro enough
    refine pipeline.answered_of_evictsColdest sample ?_
    intro frequencies evictidx evicted
    have outcome := (holds frequencies).2 evictidx
    rw [eviction_eq, if_pos sampled, if_pos enough] at outcome
    exact (outcome evicted).2
  · intro timely frequencies
    have sampled : ∀ ack ∈ takenAcks 0 arrivals, (pipeline.firstSampled sample (pipeline.ackKey sample ack)).isSome :=
      fun ack member => (pipeline.firstSampled_isSome_iff sample _).mpr (timely.sampled ack member)
    rw [eviction_eq, if_pos sampled]
    by_cases enough : enoughAcks 0 arrivals
    · obtain ⟨chosen, evicted, coldest⟩ :=
        pipeline.evict_coldest sample (pipeline.counters sample frequencies (takenAcks 0 arrivals))
      rw [if_pos enough, evicted]
      refine ⟨by simp, ?_⟩
      intro evictidx same
      cases same
      refine ⟨⟨chosen, rfl⟩, ?_⟩
      intro position
      rcases timely.answered enough with one | answered
      · rw [one position chosen]
      · have bound := coldest.least position
        rwa [pipeline.counters_of_answered sample frequencies _ answered,
          pipeline.counters_of_answered sample frequencies _ answered] at bound
    · rw [if_neg enough]
      simp

/-- One index drawn twice: both answers count for its first sample, the second one keeps the counter zero,
and the index is evicted though the other one is colder. -/
theorem evicts_hotter_repeated_index :
    ∃ pipeline : FullPipeline 3, ¬ pipeline.EvictsColdest (![0, 1, 1] : Sample 3 2)
      [.received (.ack 0), .received (.ack 1), .received (.ack 2)] := by
  refine ⟨⟨fun idx => ⟨0, 0, 0, idx.val.toUInt32⟩, {(⟨0, 0, 0, 0⟩, 0), (⟨0, 0, 0, 1⟩, 1), (⟨0, 0, 0, 2⟩, 2)}, ?_⟩, ?_⟩
  · intro idx
    fin_cases idx <;> simp
  · intro holds
    have cold := (holds ![1, 5, 7]).2 1 (by rfl)
    have bound := cold.2 0
    simp at bound

end FullPipeline

end FarReach
