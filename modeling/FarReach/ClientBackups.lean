import FarReach.HashPartition
import FarReach.NewestWins
import FarReach.PacketFormat
import FarReach.UpstreamBackups

namespace FarReach

open NewestWins

/-- What the client library knows of the deployment; every key belongs to one of the servers. -/
structure ClientConfig where
  curmethodId : Method
  currentClientLogicalNum : Nat
  switchPartitionCount : Nat
  maxServerTotalLogicalNum : Nat
  owned : ∀ key : Key,
    key.getHashPartitionIdx switchPartitionCount maxServerTotalLogicalNum < maxServerTotalLogicalNum

/-- With a partition of at least the square of the number of servers, every key belongs to one of them. -/
theorem getHashPartitionIdx_lt {partitionNum serverNum : Nat} (positive : 0 < serverNum)
    (square : serverNum * serverNum ≤ partitionNum) (key : Key) :
    key.getHashPartitionIdx partitionNum serverNum < serverNum := by
  have width : serverNum ≤ partitionNum / serverNum := (Nat.le_div_iff_mul_le positive).mpr square
  have rest : partitionNum % serverNum < serverNum := Nat.mod_lt partitionNum positive
  have split := Nat.div_add_mod partitionNum serverNum
  have below : key.hashBycrc32.toNat % partitionNum < partitionNum := Nat.mod_lt _ (by nlinarith)
  have bound : key.hashBycrc32.toNat % partitionNum / (partitionNum / serverNum) < serverNum + 1 := by
    rw [Nat.div_lt_iff_lt_mul (by omega)]
    calc key.hashBycrc32.toNat % partitionNum < partitionNum := below
      _ = serverNum * (partitionNum / serverNum) + partitionNum % serverNum := split.symm
      _ ≤ serverNum * (partitionNum / serverNum) + partitionNum / serverNum := by omega
      _ = (serverNum + 1) * (partitionNum / serverNum) := by ring
  unfold Key.getHashPartitionIdx
  simp only
  split <;> omega

/-- `DbUdpNativeResult`, without the bytes of the packet. -/
structure DbUdpNativeResult where
  key : Key
  value : JavaValue
  seq : UInt32
  stat : Bool
  nodeIdxForEval : Int16
  deriving DecidableEq

structure LoadStatistics where
  switchAndServerLoadList : List Int32
  cachehitLoadList : List Int32
  perclientUpstreamBackups : List (Std.ExtTreeMap Key UpstreamBackup)

namespace LoadStatistics

def allocated (config : ClientConfig) : LoadStatistics :=
  { switchAndServerLoadList := List.replicate (config.maxServerTotalLogicalNum + 1) 0
    cachehitLoadList := List.replicate config.maxServerTotalLogicalNum 0
    perclientUpstreamBackups := List.replicate config.currentClientLogicalNum ∅ }

/-- `getAndIncrement` on an element of an array; an index outside is an exception. -/
def getAndIncrement (loadList : List Int32) (index : Int) : Option (List Int32) :=
  if 0 ≤ index ∧ index < loadList.length then some (loadList.modify index.toNat (· + 1)) else none

def getSeq (backup : UpstreamBackup) : Int := backup.seq.toInt32.toInt

def updateLoadStatistics (config : ClientConfig) (statistics : LoadStatistics) (clientLogicalIdx : Nat)
    (result : DbUdpNativeResult) : Option LoadStatistics := do
  let nodeIdxForEval := result.nodeIdxForEval.toInt
  let serveridx := result.key.getHashPartitionIdx config.switchPartitionCount config.maxServerTotalLogicalNum
  let cachehitLoadList ←
    if nodeIdxForEval = -1 then getAndIncrement statistics.cachehitLoadList serveridx
    else some statistics.cachehitLoadList
  let switchAndServerLoadList ← getAndIncrement statistics.switchAndServerLoadList (nodeIdxForEval + 1)
  if config.curmethodId = .farreach ∧ nodeIdxForEval = -1 then
    let backups ← statistics.perclientUpstreamBackups[clientLogicalIdx]?
    let newBackup : UpstreamBackup := ⟨result.value, result.seq, result.stat⟩
    some ⟨switchAndServerLoadList, cachehitLoadList,
      statistics.perclientUpstreamBackups.set clientLogicalIdx (insertIfNewer getSeq backups (result.key, newBackup))⟩
  else some ⟨switchAndServerLoadList, cachehitLoadList, statistics.perclientUpstreamBackups⟩

def updateAll (config : ClientConfig) (responses : List (Nat × DbUdpNativeResult)) : Option LoadStatistics :=
  responses.foldlM (fun statistics response => statistics.updateLoadStatistics config response.1 response.2)
    (allocated config)

/-- The order in which `entrySet` lists a map; nothing is known about it. -/
structure BackupOrder where
  entrySet : Std.ExtTreeMap Key UpstreamBackup → List (Key × UpstreamBackup)
  listed : ∀ map, (entrySet map).Perm map.toList

/-- The map that `dumpUpstreamBackups` serializes: of every key the newest backup of all clients. -/
def aggKeyBackupMap (order : BackupOrder) (perclientUpstreamBackups : List (Std.ExtTreeMap Key UpstreamBackup)) :
    Std.ExtTreeMap Key UpstreamBackup :=
  perclientUpstreamBackups.foldl
    (fun aggregated backups => (order.entrySet backups).foldl (insertIfNewer getSeq) aggregated) ∅

def servedBackup (result : DbUdpNativeResult) : Option (Key × UpstreamBackup) :=
  if result.nodeIdxForEval.toInt = -1 then some (result.key, ⟨result.value, result.seq, result.stat⟩) else none

def servedTo (client : Nat) (responses : List (Nat × DbUdpNativeResult)) : List (Key × UpstreamBackup) :=
  responses.filterMap fun response => if response.1 = client then servedBackup response.2 else none

def served (responses : List (Nat × DbUdpNativeResult)) : List (Key × UpstreamBackup) :=
  responses.filterMap fun response => servedBackup response.2

section Responses

variable {config : ClientConfig}

/-- A response to one of the clients, from the switch or from one of the servers. -/
structure Received (config : ClientConfig) (response : Nat × DbUdpNativeResult) : Prop where
  client : response.1 < config.currentClientLogicalNum
  node : -1 ≤ response.2.nodeIdxForEval.toInt ∧
    response.2.nodeIdxForEval.toInt < config.maxServerTotalLogicalNum

/-- Every client has the newest of what the switch served to it, and the arrays keep their sizes. -/
structure Kept (config : ClientConfig) (responses : List (Nat × DbUdpNativeResult)) (statistics : LoadStatistics) :
    Prop where
  loads : statistics.switchAndServerLoadList.length = config.maxServerTotalLogicalNum + 1
  hits : statistics.cachehitLoadList.length = config.maxServerTotalLogicalNum
  clients : statistics.perclientUpstreamBackups.length = config.currentClientLogicalNum
  newest : ∀ client backups, statistics.perclientUpstreamBackups[client]? = some backups →
    ∀ key, Newest getSeq (servedTo client responses) key backups[key]?

theorem kept_allocated (config : ClientConfig) : Kept config [] (allocated config) where
  loads := List.length_replicate
  hits := List.length_replicate
  clients := List.length_replicate
  newest client backups found key := by
    obtain rfl := List.eq_of_mem_replicate (List.mem_of_getElem? found)
    rw [Std.ExtTreeMap.getElem?_empty]
    exact Newest.empty getSeq key

theorem getAndIncrement_of_lt {loadList : List Int32} {index : Int} (inside : 0 ≤ index ∧ index < loadList.length) :
    ∃ raised, getAndIncrement loadList index = some raised ∧ raised.length = loadList.length :=
  ⟨_, if_pos inside, List.length_modify ..⟩

theorem servedTo_append (client : Nat) (responses : List (Nat × DbUdpNativeResult))
    (response : Nat × DbUdpNativeResult) :
    servedTo client (responses ++ [response]) =
      servedTo client responses ++ (if response.1 = client then servedBackup response.2 else none).toList := by
  unfold servedTo
  rw [List.filterMap_append]
  congr 1

variable {responses : List (Nat × DbUdpNativeResult)} {statistics : LoadStatistics}
    {response : Nat × DbUdpNativeResult}

/-- A response of the switch: both counters have room, and its backup enters the map of the client. -/
theorem updateLoadStatistics_of_switch (farreach : config.curmethodId = .farreach)
    (kept : Kept config responses statistics) {client : Nat} (inside : client < config.currentClientLogicalNum)
    {result : DbUdpNativeResult} (fromSwitch : result.nodeIdxForEval.toInt = -1) :
    ∃ loads hits backups, statistics.perclientUpstreamBackups[client]? = some backups ∧
      statistics.updateLoadStatistics config client result = some ⟨loads, hits,
        statistics.perclientUpstreamBackups.set client
          (insertIfNewer getSeq backups (result.key, ⟨result.value, result.seq, result.stat⟩))⟩ ∧
      loads.length = statistics.switchAndServerLoadList.length ∧
        hits.length = statistics.cachehitLoadList.length := by
  have owner := config.owned result.key
  obtain ⟨loads, raisedLoads, loadsLength⟩ := @getAndIncrement_of_lt statistics.switchAndServerLoadList
    (-1 + 1) (by rw [kept.loads]; omega)
  obtain ⟨hits, raisedHits, hitsLength⟩ := @getAndIncrement_of_lt statistics.cachehitLoadList
    (result.key.getHashPartitionIdx config.switchPartitionCount config.maxServerTotalLogicalNum)
    (by rw [kept.hits]; omega)
  have here := List.getElem?_eq_getElem (kept.clients.symm ▸ inside)
  refine ⟨loads, hits, _, here, ?_, loadsLength, hitsLength⟩
  simp only [updateLoadStatistics, fromSwitch, farreach, raisedHits, raisedLoads, here, if_true, and_self,
    Option.bind_eq_bind, Option.bind_some]

theorem updateLoadStatistics_of_server (kept : Kept config responses statistics) (received : Received config response)
    (fromServer : response.2.nodeIdxForEval.toInt ≠ -1) :
    ∃ loads, statistics.updateLoadStatistics config response.1 response.2 =
        some ⟨loads, statistics.cachehitLoadList, statistics.perclientUpstreamBackups⟩ ∧
      loads.length = statistics.switchAndServerLoadList.length := by
  have node := received.node
  obtain ⟨loads, raised, length⟩ := @getAndIncrement_of_lt statistics.switchAndServerLoadList
    (response.2.nodeIdxForEval.toInt + 1) (by rw [kept.loads]; omega)
  refine ⟨loads, ?_, length⟩
  simp only [updateLoadStatistics, fromServer, raised, if_false, and_false, Option.bind_eq_bind, Option.bind_some]

theorem kept_updateLoadStatistics (farreach : config.curmethodId = .farreach)
    (kept : Kept config responses statistics) (received : Received config response) :
    ∃ after, statistics.updateLoadStatistics config response.1 response.2 = some after ∧
      Kept config (responses ++ [response]) after := by
  by_cases fromSwitch : response.2.nodeIdxForEval.toInt = -1
  · obtain ⟨loads, hits, backups, here, updated, loadsLength, hitsLength⟩ :=
      updateLoadStatistics_of_switch farreach kept received.client fromSwitch
    refine ⟨_, updated, loadsLength.trans kept.loads, hitsLength.trans kept.hits, ?_, ?_⟩
    · rw [List.length_set]
      exact kept.clients
    · intro other found lookup key
      rw [servedTo_append]
      by_cases same : response.1 = other
      · subst same
        rw [List.getElem?_set_self (kept.clients.symm ▸ received.client)] at lookup
        cases lookup
        rw [if_pos rfl, servedBackup, if_pos fromSwitch]
        exact newest_insertIfNewer (kept.newest response.1 backups here) _ key
      · rw [List.getElem?_set_ne same] at lookup
        rw [if_neg same, Option.toList_none, List.append_nil]
        exact kept.newest other found lookup key
  · obtain ⟨loads, updated, loadsLength⟩ := updateLoadStatistics_of_server kept received fromSwitch
    refine ⟨_, updated, loadsLength.trans kept.loads, kept.hits, kept.clients, ?_⟩
    intro other found lookup key
    have nothing : (if response.1 = other then servedBackup response.2 else none) = none := by
      rw [servedBackup, if_neg fromSwitch, ite_self]
    rw [servedTo_append, nothing, Option.toList_none, List.append_nil]
    exact kept.newest other found lookup key

theorem kept_foldlM (farreach : config.curmethodId = .farreach) {earlier : List (Nat × DbUdpNativeResult)}
    (kept : Kept config earlier statistics) (responses : List (Nat × DbUdpNativeResult))
    (received : ∀ response ∈ responses, Received config response) :
    ∃ after, responses.foldlM (fun statistics response => statistics.updateLoadStatistics config
      response.1 response.2) statistics = some after ∧ Kept config (earlier ++ responses) after := by
  induction responses generalizing earlier statistics with
  | nil =>
    rw [List.append_nil]
    exact ⟨statistics, rfl, kept⟩
  | cons response rest ih =>
    obtain ⟨next, updated, keptNext⟩ := kept_updateLoadStatistics farreach kept (received response List.mem_cons_self)
    obtain ⟨after, run, keptAfter⟩ := ih keptNext fun other member => received other (List.mem_cons_of_mem _ member)
    rw [List.append_assoc] at keptAfter
    refine ⟨after, ?_, keptAfter⟩
    rw [List.foldlM_cons, updated]
    exact run

end Responses

section Aggregate

variable (order : BackupOrder)

/-- The loops of `dumpUpstreamBackups` go from the newest of each client to the newest of all. -/
theorem newest_aggregate {clients : List (List (Key × UpstreamBackup))}
    {maps : List (Std.ExtTreeMap Key UpstreamBackup)}
    (held : List.Forall₂ (fun sources map => ∀ key : Key, Newest getSeq sources key map[key]?) clients maps)
    {earlier : List (Key × UpstreamBackup)} {aggregated : Std.ExtTreeMap Key UpstreamBackup}
    (newest : ∀ key : Key, Newest getSeq earlier key aggregated[key]?) (key : Key) :
    Newest getSeq (earlier ++ clients.flatten) key
      (maps.foldl (fun aggregated backups => (order.entrySet backups).foldl (insertIfNewer getSeq) aggregated)
        aggregated)[key]? := by
  induction held generalizing earlier aggregated with
  | nil =>
    rw [List.flatten_nil, List.append_nil]
    exact newest key
  | @cons sources map _ _ first _ ih =>
    rw [List.flatten_cons, ← List.append_assoc, List.foldl_cons]
    refine ih fun key => ?_
    exact Newest.of_listed (order.listed map) (first key) (newest_foldl newest (order.entrySet map) key)

variable {responses : List (Nat × DbUdpNativeResult)}

theorem served_of_servedTo {client : Nat} {entry : Key × UpstreamBackup}
    (member : entry ∈ servedTo client responses) : entry ∈ served responses := by
  obtain ⟨response, inside, carried⟩ := List.mem_filterMap.mp member
  split at carried
  · exact List.mem_filterMap.mpr ⟨response, inside, carried⟩
  · cases carried

theorem mem_served_iff {config : ClientConfig} (received : ∀ response ∈ responses, Received config response)
    (entry : Key × UpstreamBackup) :
    entry ∈ ((List.range config.currentClientLogicalNum).map fun client => servedTo client responses).flatten ↔
      entry ∈ served responses := by
  constructor
  · intro member
    obtain ⟨_, list, inside⟩ := List.mem_flatten.mp member
    obtain ⟨client, _, rfl⟩ := List.mem_map.mp list
    exact served_of_servedTo inside
  · intro member
    obtain ⟨response, inside, carried⟩ := List.mem_filterMap.mp member
    refine List.mem_flatten.mpr ⟨servedTo response.1 responses, ?_, ?_⟩
    · exact List.mem_map.mpr ⟨response.1, List.mem_range.mpr (received response inside).client, rfl⟩
    · exact List.mem_filterMap.mpr ⟨response, inside, by rw [if_pos rfl, carried]⟩

theorem Kept.forall₂ {config : ClientConfig} {statistics : LoadStatistics} (kept : Kept config responses statistics) :
    List.Forall₂ (fun sources map => ∀ key : Key, Newest getSeq sources key map[key]?)
      ((List.range config.currentClientLogicalNum).map fun client => servedTo client responses)
      statistics.perclientUpstreamBackups := by
  rw [List.forall₂_iff_get]
  refine ⟨by rw [List.length_map, List.length_range, kept.clients], fun client _ room => ?_⟩
  simp only [List.get_eq_getElem, List.getElem_map, List.getElem_range]
  exact kept.newest client _ (List.getElem?_eq_getElem room)

theorem getSeq_of_lt {backup : UpstreamBackup} (small : backup.seq.toNat < 2 ^ 31) :
    getSeq backup = backup.seq.toNat := by
  have positive : 2 * backup.seq.toBitVec.toNat < 2 ^ 32 := by
    have same : backup.seq.toBitVec.toNat = backup.seq.toNat := rfl
    omega
  exact BitVec.toInt_eq_toNat_of_lt positive

theorem getSeq_agrees (small : ∀ response ∈ responses, response.2.seq.toNat < 2 ^ 31) :
    ∀ left ∈ served responses, ∀ right ∈ served responses,
      getSeq left.2 ≤ getSeq right.2 → left.2.seq.toNat ≤ right.2.seq.toNat := by
  have carried : ∀ entry ∈ served responses, entry.2.seq.toNat < 2 ^ 31 := by
    intro entry member
    obtain ⟨response, inside, carries⟩ := List.mem_filterMap.mp member
    unfold servedBackup at carries
    split at carries
    · cases carries
      exact small response inside
    · cases carries
  intro left inLeft right inRight below
  rw [getSeq_of_lt (carried left inLeft), getSeq_of_lt (carried right inRight)] at below
  omega

end Aggregate

/-- However the responses come to the clients, each client's backup of a key is the newest that the switch served to
it, and the dumped map holds the newest that it served to any of them. -/
theorem upstreamBackups_newest (config : ClientConfig) (order : BackupOrder)
    (farreach : config.curmethodId = .farreach) (responses : List (Nat × DbUdpNativeResult))
    (received : ∀ response ∈ responses, Received config response)
    (small : ∀ response ∈ responses, response.2.seq.toNat < 2 ^ 31) :
    ∃ statistics, updateAll config responses = some statistics ∧
      (∀ client < config.currentClientLogicalNum, ∃ backups,
        statistics.perclientUpstreamBackups[client]? = some backups ∧
        ∀ key, Newest (fun backup => backup.seq.toNat) (servedTo client responses) key backups[key]?) ∧
      ∀ key, Newest (fun backup => backup.seq.toNat) (served responses) key
        (aggKeyBackupMap order statistics.perclientUpstreamBackups)[key]? := by
  obtain ⟨statistics, run, kept⟩ := kept_foldlM farreach (kept_allocated config) responses received
  rw [List.nil_append] at kept
  have agree := getSeq_agrees small
  refine ⟨statistics, run, ?_, ?_⟩
  · intro client inside
    have here := List.getElem?_eq_getElem (kept.clients.symm ▸ inside)
    refine ⟨_, here, fun key => (kept.newest client _ here key).mono fun left inLeft right inRight => ?_⟩
    exact agree left (served_of_servedTo inLeft) right (served_of_servedTo inRight)
  · intro key
    have newest := newest_aggregate order kept.forall₂ (fun key => by
      rw [Std.ExtTreeMap.getElem?_empty]
      exact Newest.empty getSeq key) key
    rw [List.nil_append] at newest
    exact (newest.of_mem_iff (mem_served_iff received)).mono agree

def smallClient : ClientConfig := ⟨.farreach, 2, 4, 2, getHashPartitionIdx_lt (by decide) (by decide)⟩

/-- The first client gets the newer of two responses first, and the second one a response that is newer still and one
with another key. -/
def swappedResponses : List (Nat × DbUdpNativeResult) :=
  [(0, ⟨⟨0, 0, 0, 0⟩, ⟨none⟩, 2, false, -1⟩), (1, ⟨⟨0, 0, 0, 0⟩, ⟨some [8]⟩, 3, true, -1⟩),
    (0, ⟨⟨0, 0, 0, 0⟩, ⟨some [7]⟩, 1, true, -1⟩), (1, ⟨⟨1, 0, 0, 0⟩, ⟨some [9]⟩, 3, true, -1⟩)]

theorem upstreamBackups_newest_swapped :
    ∃ statistics, updateAll smallClient swappedResponses = some statistics ∧
      (∀ client < 2, ∃ backups, statistics.perclientUpstreamBackups[client]? = some backups ∧
        ∀ key, Newest (fun backup => backup.seq.toNat) (servedTo client swappedResponses) key backups[key]?) ∧
      ∀ key, Newest (fun backup => backup.seq.toNat) (served swappedResponses) key
        (aggKeyBackupMap ⟨fun map => map.toList, fun _ => .refl _⟩ statistics.perclientUpstreamBackups)[key]? := by
  refine upstreamBackups_newest smallClient _ rfl swappedResponses ?_ ?_
  · intro response member
    simp only [swappedResponses, List.mem_cons, List.not_mem_nil, or_false] at member
    rcases member with rfl | rfl | rfl | rfl <;> exact ⟨by decide, by decide⟩
  · decide

end LoadStatistics

end FarReach
