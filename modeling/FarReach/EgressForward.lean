import FarReach.EgressTables

namespace FarReach

open MatchTable

/-- What the controller is configured with: the platform and the mirror sessions of the clients and
of the reflector. -/
structure SwitchConfig where
  platform : Platform
  clientSids : List Nat
  reflectorSid : Nat

/-- A packet as the forward tables leave it: `dropped` disables unicast, and `mirror` is the session
it is cloned to at the end. -/
structure Routing where
  packet : Packet
  dropped : Bool
  mirror : Option Nat

namespace Routing

@[simp] def noAction (r : Routing) : Routing := r

/-- A request is rewritten and goes on to the server. -/
@[simp] def relay (optype : Optype) (r : Routing) : Routing :=
  { r with packet := { r.packet with optype := optype } }

/-- As `relay`, with the status of the slot's record. -/
@[simp] def relayRecord (optype : Optype) (stat : Bool) (r : Routing) : Routing :=
  { r with packet := { r.packet with optype := optype, stat := stat } }

/-- A response made in the switch: the request is dropped and its rewritten copy mirrored. -/
@[simp] def mirrored (sid : Nat) (r : Routing) : Routing := { r with dropped := true, mirror := some sid }

@[simp] def updateGetreqInswitchToGetreq : Routing → Routing := relay .getreq
@[simp] def updateGetreqInswitchToGetreqPop : Routing → Routing := relay .getreqPop
@[simp] def updateGetreqInswitchToGetreqNlatest : Routing → Routing := relay .getreqNlatest

@[simp] def updateGetreqInswitchToGetreqBeingevictedRecord (stat : Bool) : Routing → Routing :=
  relayRecord .getreqBeingevictedRecord stat

@[simp] def updateGetreqInswitchToGetreqLargevalueblockRecord (stat : Bool) : Routing → Routing :=
  relayRecord .getreqLargevalueblockRecord stat

@[simp] def updateGetreqInswitchToGetresSeqByMirroring (clientSid : Nat) (stat : Bool) (r : Routing) : Routing :=
  mirrored clientSid (relayRecord .getresSeq stat r)

@[simp] def updateGetresLatestSeqToGetresSeq : Routing → Routing := relayRecord .getresSeq true
@[simp] def updateGetresDeletedSeqToGetresSeq : Routing → Routing := relayRecord .getresSeq false

/-- The report of an overwritten record: the packet is dropped and its copy goes to the reflector,
which is to see it `clonenum` more times. -/
@[simp] def case1CloneForPktloss (optype : Optype) (clonenum : Nat) (switchosSid : Nat) (stat : Bool)
    (r : Routing) : Routing :=
  mirrored switchosSid
    { r with packet := { r.packet with optype := optype, stat := stat, clonenumForPktloss := clonenum } }

@[simp] def updateGetresLatestSeqInswitchToGetresLatestSeqInswitchCase1CloneForPktloss :
    Nat → Bool → Routing → Routing := case1CloneForPktloss .getresLatestSeqInswitchCase1 2

@[simp] def updateGetresDeletedSeqInswitchToGetresDeletedSeqInswitchCase1CloneForPktloss :
    Nat → Bool → Routing → Routing := case1CloneForPktloss .getresDeletedSeqInswitchCase1 2

@[simp] def updatePutreqInswitchToPutreqSeqInswitchCase1CloneForPktlossAndPutres :
    Nat → Bool → Routing → Routing := case1CloneForPktloss .putreqSeqInswitchCase1 3

@[simp] def updateDelreqInswitchToDelreqSeqInswitchCase1CloneForPktlossAndDelres :
    Nat → Bool → Routing → Routing := case1CloneForPktloss .delreqSeqInswitchCase1 3

/-- A report on its way is sent on and cloned once more; the four actions
`forward_..._case1_clone_for_pktloss` have this one body. -/
@[simp] def forwardCase1CloneForPktloss (switchosSid : Nat) (r : Routing) : Routing :=
  { r with
    packet := { r.packet with clonenumForPktloss := r.packet.clonenumForPktloss - 1 }
    mirror := some switchosSid }

/-- The response to a write that the slot has taken carries the sequence number assigned to it. -/
@[simp] def resSeqByMirroring (optype : Optype) (clientSid : Nat) (r : Routing) : Routing :=
  mirrored clientSid
    { r with packet := { r.packet with
        optype := optype, seq := r.packet.assignedseqForFarreach, stat := true } }

@[simp] def updatePutreqInswitchToPutresSeqByMirroring : Nat → Routing → Routing := resSeqByMirroring .putresSeq
@[simp] def updateDelreqInswitchToDelresSeqByMirroring : Nat → Routing → Routing := resSeqByMirroring .delresSeq

@[simp] def updatePutreqSeqInswitchCase1ToPutresSeqByMirroring : Nat → Routing → Routing :=
  resSeqByMirroring .putresSeq

@[simp] def updateDelreqSeqInswitchCase1ToDelresSeqByMirroring : Nat → Routing → Routing :=
  resSeqByMirroring .delresSeq

@[simp] def updatePutreqInswitchToPutreqSeq : Routing → Routing := relay .putreqSeq
@[simp] def updatePutreqInswitchToPutreqPopSeq : Routing → Routing := relay .putreqPopSeq
@[simp] def updatePutreqInswitchToPutreqSeqCase3 : Routing → Routing := relay .putreqSeqCase3
@[simp] def updatePutreqInswitchToPutreqPopSeqCase3 : Routing → Routing := relay .putreqPopSeqCase3
@[simp] def updatePutreqInswitchToPutreqSeqBeingevicted : Routing → Routing := relay .putreqSeqBeingevicted

@[simp] def updatePutreqInswitchToPutreqSeqCase3Beingevicted : Routing → Routing :=
  relay .putreqSeqCase3Beingevicted

@[simp] def updateDelreqInswitchToDelreqSeq : Routing → Routing := relay .delreqSeq
@[simp] def updateDelreqInswitchToDelreqSeqCase3 : Routing → Routing := relay .delreqSeqCase3
@[simp] def updateDelreqInswitchToDelreqSeqBeingevicted : Routing → Routing := relay .delreqSeqBeingevicted

@[simp] def updateDelreqInswitchToDelreqSeqCase3Beingevicted : Routing → Routing :=
  relay .delreqSeqCase3Beingevicted

@[simp] def updatePutreqLargevalueInswitchToPutreqLargevalueSeq : Routing → Routing := relay .putreqLargevalueSeq

@[simp] def updatePutreqLargevalueInswitchToPutreqLargevalueSeqCase3 : Routing → Routing :=
  relay .putreqLargevalueSeqCase3

@[simp] def updatePutreqLargevalueInswitchToPutreqLargevalueSeqBeingevicted : Routing → Routing :=
  relay .putreqLargevalueSeqBeingevicted

@[simp] def updatePutreqLargevalueInswitchToPutreqLargevalueSeqCase3Beingevicted : Routing → Routing :=
  relay .putreqLargevalueSeqCase3Beingevicted

/-- The acknowledgement of a control packet, mirrored to the reflector. -/
@[simp] def ackDropAndClone (optype : Optype) (switchosSid : Nat) (r : Routing) : Routing :=
  mirrored switchosSid (relay optype r)

/-- The acknowledgement of a load, with the status of the slot's record. -/
@[simp] def loadAckDropAndClone (optype : Optype) (switchosSid : Nat) (stat : Bool) (r : Routing) : Routing :=
  mirrored switchosSid (relayRecord optype stat r)

@[simp] def updateCachePopInswitchToCachePopInswitchAckDropAndClone : Nat → Routing → Routing :=
  ackDropAndClone .cachePopInswitchAck

@[simp] def updateCacheEvictLoadfreqInswitchToCacheEvictLoadfreqInswitchAckDropAndClone :
    Nat → Routing → Routing := ackDropAndClone .cacheEvictLoadfreqInswitchAck

@[simp] def updateSetvalidInswitchToSetvalidInswitchAckDropAndClone : Nat → Routing → Routing :=
  ackDropAndClone .setvalidInswitchAck

@[simp] def updateCacheEvictLoaddataInswitchToCacheEvictLoaddataInswitchAckDropAndClone :
    Nat → Bool → Routing → Routing := loadAckDropAndClone .cacheEvictLoaddataInswitchAck

@[simp] def updateLoadsnapshotdataInswitchToLoadsnapshotdataInswitchAckDropAndClone :
    Nat → Bool → Routing → Routing := loadAckDropAndClone .loadsnapshotdataInswitchAck

end Routing

/-- The match fields of `eg_port_forward_tbl` behind the operation type. -/
structure ForwardKey where
  isCached : Bool
  isHot : Bool
  validvalue : UInt8
  isLatest : Bool
  isDeleted : Bool
  clientSid : Nat
  isLastclone : Bool
  snapshotFlag : Bool
  isCase1 : Bool
  deriving DecidableEq

-- the value ranges of the controllers' loops
@[simp] def hotList : List Bool := [false, true]
@[simp] def deletedList : List Bool := [false, true]
@[simp] def lastcloneList : List Bool := [false, true]
@[simp] def snapshotFlagList : List Bool := [false, true]
@[simp] def case1List : List Bool := [false, true]
@[simp] def isLargevalueblockList : List Bool := [false, true]

/-- The rounds of the nested loops; a client session of zero stands for a packet without one. -/
def forwardKeys (config : SwitchConfig) : List ForwardKey :=
  cachedList.flatMap fun isCached => hotList.flatMap fun isHot =>
  validvalueList.flatMap fun validvalue => latestList.flatMap fun isLatest =>
  deletedList.flatMap fun isDeleted => (0 :: config.clientSids).flatMap fun clientSid =>
  lastcloneList.flatMap fun isLastclone => snapshotFlagList.flatMap fun snapshotFlag =>
  case1List.map fun isCase1 =>
    { isCached, isHot, validvalue, isLatest, isDeleted, clientSid, isLastclone, snapshotFlag, isCase1 }

@[simp] theorem mem_forwardKeys (config : SwitchConfig) (key : ForwardKey) :
    key ∈ forwardKeys config ↔
      key.validvalue ∈ validvalueList ∧ (key.clientSid = 0 ∨ key.clientSid ∈ config.clientSids) := by
  have either : ∀ bit : Bool, bit ∈ [false, true] := by decide
  simp only [forwardKeys, List.mem_flatMap, List.mem_map]
  constructor
  · rintro ⟨_, -, _, -, _, known, _, -, _, -, _, sid, _, -, _, -, _, -, rfl⟩
    exact ⟨known, List.mem_cons.mp sid⟩
  · rintro ⟨known, sid⟩
    exact ⟨key.isCached, either _, key.isHot, either _, key.validvalue, known, key.isLatest, either _,
      key.isDeleted, either _, key.clientSid, List.mem_cons.mpr sid, key.isLastclone, either _,
      key.snapshotFlag, either _, key.isCase1, either _, rfl⟩

abbrev ForwardTable (T : Type) := Table Optype T (Routing → Routing)

section Entries

variable (config : SwitchConfig) (isLargevalueblock : Bool) (key : ForwardKey)

def getreqAction : Routing → Routing :=
  let tmpstat := !key.isDeleted
  if !key.isCached then
    if key.isHot then Routing.updateGetreqInswitchToGetreqPop
    else Routing.updateGetreqInswitchToGetreq
  else if key.validvalue == 0 then Routing.updateGetreqInswitchToGetreq
  else if key.validvalue == 1 then
    if !key.isLatest then
      if isLargevalueblock then Routing.updateGetreqInswitchToGetreqLargevalueblockRecord tmpstat
      else Routing.updateGetreqInswitchToGetreqNlatest
    else Routing.updateGetreqInswitchToGetresSeqByMirroring key.clientSid tmpstat
  else if !key.isLatest then Routing.updateGetreqInswitchToGetreqBeingevictedRecord tmpstat
  else Routing.updateGetreqInswitchToGetresSeqByMirroring key.clientSid tmpstat

@[simp] def getreqEntries : List (Optype × (Routing → Routing)) :=
  if !key.isLastclone && !key.snapshotFlag && !key.isCase1 && key.clientSid != 0 then
    [(.getreqInswitch, getreqAction isLargevalueblock key)]
  else []

/-- The entries for a response of the server, which are the same for `GETRES_LATEST_SEQ` and
`GETRES_DELETED_SEQ` up to the operation types and actions. -/
@[simp] def getresEntries (response inswitch case1 : Optype) (toGetresSeq : Routing → Routing)
    (toCase1 : Nat → Bool → Routing → Routing) : List (Optype × (Routing → Routing)) :=
  (if !key.isCached && !key.isHot && key.validvalue == 0 && !key.isLatest && !isLargevalueblock
      && !key.isDeleted && key.clientSid == 0 && !key.isLastclone && !key.snapshotFlag && !key.isCase1 then
    [(response, toGetresSeq)] else []) ++
  (if !key.isHot && !isLargevalueblock && key.clientSid == 0 && !key.isLastclone then
    if key.isCached && key.validvalue == 1 && !key.isLatest && key.snapshotFlag && !key.isCase1 then
      [(inswitch, toCase1 config.reflectorSid (!key.isDeleted))] else []
  else []) ++
  (if key.isCached && key.snapshotFlag && !key.isHot && key.validvalue == 0 && !key.isLatest
      && !isLargevalueblock && !key.isDeleted && key.clientSid == 0 && !key.isCase1 && !key.isLastclone then
    [(case1, Routing.forwardCase1CloneForPktloss config.reflectorSid)] else [])

def putreqLargevalueAction : Routing → Routing :=
  if key.isCached && key.validvalue == 3 then
    if !key.snapshotFlag then
      Routing.updatePutreqLargevalueInswitchToPutreqLargevalueSeqBeingevicted
    else Routing.updatePutreqLargevalueInswitchToPutreqLargevalueSeqCase3Beingevicted
  else if !key.snapshotFlag then Routing.updatePutreqLargevalueInswitchToPutreqLargevalueSeq
  else Routing.updatePutreqLargevalueInswitchToPutreqLargevalueSeqCase3

@[simp] def putreqLargevalueEntries : List (Optype × (Routing → Routing)) :=
  if !key.isHot && !isLargevalueblock && !key.isDeleted && key.clientSid == 0 && !key.isLastclone
      && !key.isCase1 then
    [(.putreqLargevalueInswitch, putreqLargevalueAction key)]
  else []

def putreqAction : Routing → Routing :=
  if !key.isCached then
    if key.snapshotFlag then
      if key.isHot then Routing.updatePutreqInswitchToPutreqPopSeqCase3
      else Routing.updatePutreqInswitchToPutreqSeqCase3
    else if key.isHot then Routing.updatePutreqInswitchToPutreqPopSeq
    else Routing.updatePutreqInswitchToPutreqSeq
  else if key.validvalue == 0 then
    if key.snapshotFlag then Routing.updatePutreqInswitchToPutreqSeqCase3
    else Routing.updatePutreqInswitchToPutreqSeq
  else if key.validvalue == 3 then
    if key.snapshotFlag then Routing.updatePutreqInswitchToPutreqSeqCase3Beingevicted
    else Routing.updatePutreqInswitchToPutreqSeqBeingevicted
  else if key.snapshotFlag && !key.isCase1 then
    Routing.updatePutreqInswitchToPutreqSeqInswitchCase1CloneForPktlossAndPutres
      config.reflectorSid (!key.isDeleted)
  else Routing.updatePutreqInswitchToPutresSeqByMirroring key.clientSid

@[simp] def putreqEntries : List (Optype × (Routing → Routing)) :=
  if !key.isLastclone && key.clientSid != 0 then [(.putreqInswitch, putreqAction config key)] else []

/-- The Tofino controller reports a live record for a deleted one. -/
@[simp] def delreqCase1Stat (platform : Platform) (isDeleted : Bool) : Bool :=
  match platform with
  | .bmv2 => !isDeleted
  | .tofino => true

def delreqAction : Routing → Routing :=
  if !key.isCached then
    if key.snapshotFlag then Routing.updateDelreqInswitchToDelreqSeqCase3
    else Routing.updateDelreqInswitchToDelreqSeq
  else if key.validvalue == 0 then
    if key.snapshotFlag then Routing.updateDelreqInswitchToDelreqSeqCase3
    else Routing.updateDelreqInswitchToDelreqSeq
  else if key.validvalue == 3 then
    if key.snapshotFlag then Routing.updateDelreqInswitchToDelreqSeqCase3Beingevicted
    else Routing.updateDelreqInswitchToDelreqSeqBeingevicted
  else if key.snapshotFlag && !key.isCase1 then
    Routing.updateDelreqInswitchToDelreqSeqInswitchCase1CloneForPktlossAndDelres
      config.reflectorSid (delreqCase1Stat config.platform key.isDeleted)
  else Routing.updateDelreqInswitchToDelresSeqByMirroring key.clientSid

@[simp] def delreqEntries : List (Optype × (Routing → Routing)) :=
  if !key.isHot && !key.isLastclone && key.clientSid != 0 then
    [(.delreqInswitch, delreqAction config key)]
  else []

/-- The entries for a report on its way. The Tofino controller makes the entry for the last clone of
a `PUTREQ_SEQ_INSWITCH_CASE1` and never adds it. -/
@[simp] def case1Entries : List (Optype × (Routing → Routing)) :=
  if key.isCached && !key.isHot && key.validvalue == 0 && !key.isLatest && !key.isDeleted
      && key.snapshotFlag && !key.isCase1 then
    if !key.isLastclone then
      [(.putreqSeqInswitchCase1, Routing.forwardCase1CloneForPktloss config.reflectorSid),
        (.delreqSeqInswitchCase1, Routing.forwardCase1CloneForPktloss config.reflectorSid)]
    else
      (if config.platform = .bmv2 then
        [(.putreqSeqInswitchCase1,
          Routing.updatePutreqSeqInswitchCase1ToPutresSeqByMirroring key.clientSid)] else []) ++
      [(.delreqSeqInswitchCase1,
        Routing.updateDelreqSeqInswitchCase1ToDelresSeqByMirroring key.clientSid)]
  else []

/-- The Tofino controller answers a `LOADSNAPSHOTDATA_INSWITCH` with the action of
`CACHE_EVICT_LOADDATA_INSWITCH`. -/
@[simp] def loadsnapshotdataAction (platform : Platform) : Nat → Bool → Routing → Routing :=
  match platform with
  | .bmv2 => Routing.updateLoadsnapshotdataInswitchToLoadsnapshotdataInswitchAckDropAndClone
  | .tofino => Routing.updateCacheEvictLoaddataInswitchToCacheEvictLoaddataInswitchAckDropAndClone

@[simp] def ForwardKey.idle (key : ForwardKey) : Bool :=
  !key.isHot && key.clientSid == 0 && !key.isLastclone && !key.snapshotFlag && !key.isCase1

@[simp] def cachePopEntries : List (Optype × (Routing → Routing)) :=
  if !key.isCached && key.validvalue == 0 && key.idle then
    [(.cachePopInswitch,
      Routing.updateCachePopInswitchToCachePopInswitchAckDropAndClone config.reflectorSid)]
  else []

@[simp] def cacheEvictLoadfreqEntries : List (Optype × (Routing → Routing)) :=
  if key.isCached && key.validvalue == 0 && !key.isLatest && !key.isDeleted && key.idle then
    [(.cacheEvictLoadfreqInswitch,
      Routing.updateCacheEvictLoadfreqInswitchToCacheEvictLoadfreqInswitchAckDropAndClone
        config.reflectorSid)]
  else []

@[simp] def cacheEvictLoaddataEntries : List (Optype × (Routing → Routing)) :=
  if key.isCached && key.validvalue == 0 && !key.isLatest && key.idle then
    [(.cacheEvictLoaddataInswitch,
      Routing.updateCacheEvictLoaddataInswitchToCacheEvictLoaddataInswitchAckDropAndClone
        config.reflectorSid (!key.isDeleted))]
  else []

@[simp] def loadsnapshotdataEntries : List (Optype × (Routing → Routing)) :=
  if key.validvalue == 0 && !key.isLatest && key.idle then
    [(.loadsnapshotdataInswitch,
      loadsnapshotdataAction config.platform config.reflectorSid (!key.isDeleted))]
  else []

@[simp] def setvalidEntries : List (Optype × (Routing → Routing)) :=
  if !key.isLatest && !key.isDeleted && key.idle then
    [(.setvalidInswitch,
      Routing.updateSetvalidInswitchToSetvalidInswitchAckDropAndClone config.reflectorSid)]
  else []

end Entries

@[simp] def lastcloneLastscansplitTbl : Table Optype Nat Bool where
  entries := loop [0] fun _ =>
    [.getresLatestSeqInswitchCase1, .getresDeletedSeqInswitchCase1, .putreqSeqInswitchCase1,
      .delreqSeqInswitchCase1].map (·, true)
  default := false

def anotherEgPortForwardTbl (config : SwitchConfig) : ForwardTable (Bool × ForwardKey) where
  entries := loop (isLargevalueblockList.product (forwardKeys config)) fun (isLargevalueblock, key) =>
    getreqEntries isLargevalueblock key ++
    getresEntries config isLargevalueblock key .getresLatestSeq .getresLatestSeqInswitch
      .getresLatestSeqInswitchCase1 Routing.updateGetresLatestSeqToGetresSeq
      Routing.updateGetresLatestSeqInswitchToGetresLatestSeqInswitchCase1CloneForPktloss ++
    getresEntries config isLargevalueblock key .getresDeletedSeq .getresDeletedSeqInswitch
      .getresDeletedSeqInswitchCase1 Routing.updateGetresDeletedSeqToGetresSeq
      Routing.updateGetresDeletedSeqInswitchToGetresDeletedSeqInswitchCase1CloneForPktloss ++
    putreqLargevalueEntries isLargevalueblock key
  default := Routing.noAction

def egPortForwardTbl (config : SwitchConfig) : ForwardTable ForwardKey where
  entries := loop (forwardKeys config) fun key =>
    cachePopEntries config key ++ putreqEntries config key ++ delreqEntries config key ++
      case1Entries config key ++ cacheEvictLoadfreqEntries config key ++
      cacheEvictLoaddataEntries config key ++ loadsnapshotdataEntries config key ++
      setvalidEntries config key
  default := Routing.noAction

@[simp] def anotherEgPortForwardOps : List Optype :=
  [.getreqInswitch, .getresLatestSeq, .getresLatestSeqInswitch, .getresLatestSeqInswitchCase1,
    .getresDeletedSeq, .getresDeletedSeqInswitch, .getresDeletedSeqInswitchCase1, .putreqLargevalueInswitch]

@[simp] def egPortForwardOps : List Optype :=
  [.cachePopInswitch, .putreqInswitch, .putreqSeqInswitchCase1, .delreqInswitch, .delreqSeqInswitchCase1,
    .cacheEvictLoadfreqInswitch, .cacheEvictLoaddataInswitch, .loadsnapshotdataInswitch, .setvalidInswitch]

def anotherEgPortForwardAction (config : SwitchConfig) (optype : Optype) (isLargevalueblock : Bool)
    (key : ForwardKey) : Routing → Routing :=
  (anotherEgPortForwardTbl config).lookup optype (isLargevalueblock, key)

def egPortForwardAction (config : SwitchConfig) (optype : Optype) (key : ForwardKey) : Routing → Routing :=
  (egPortForwardTbl config).lookup optype key

section Actions

variable (config : SwitchConfig) {optype : Optype} (isLargevalueblock : Bool) (key : ForwardKey)

@[simp] theorem anotherEgPortForwardAction_of_absent (absent : optype ∉ anotherEgPortForwardOps) :
    anotherEgPortForwardAction config optype isLargevalueblock key = Routing.noAction := by
  simp only [anotherEgPortForwardOps, List.mem_cons, List.not_mem_nil, or_false, not_or] at absent
  simp [anotherEgPortForwardAction, anotherEgPortForwardTbl, absent]

@[simp] theorem egPortForwardAction_of_absent (absent : optype ∉ egPortForwardOps) :
    egPortForwardAction config optype key = Routing.noAction := by
  simp only [egPortForwardOps, List.mem_cons, List.not_mem_nil, or_false, not_or] at absent
  simp [egPortForwardAction, egPortForwardTbl, absent]

theorem egPortForwardAction_putreq :
    egPortForwardAction config .putreqInswitch key =
      if key ∈ forwardKeys config ∧ key.isLastclone = false ∧ key.clientSid ≠ 0 then putreqAction config key
      else Routing.noAction := by
  simp [egPortForwardAction, egPortForwardTbl, getD_entered, -mem_forwardKeys]

theorem egPortForwardAction_delreq :
    egPortForwardAction config .delreqInswitch key =
      if key ∈ forwardKeys config ∧ (key.isHot = false ∧ key.isLastclone = false) ∧ key.clientSid ≠ 0 then
        delreqAction config key
      else Routing.noAction := by
  simp [egPortForwardAction, egPortForwardTbl, getD_entered, -mem_forwardKeys]

theorem anotherEgPortForwardAction_getreq :
    anotherEgPortForwardAction config .getreqInswitch isLargevalueblock key =
      if key ∈ forwardKeys config ∧
          ((key.isLastclone = false ∧ key.snapshotFlag = false) ∧ key.isCase1 = false) ∧ key.clientSid ≠ 0 then
        getreqAction isLargevalueblock key
      else Routing.noAction := by
  cases isLargevalueblock <;>
    simp [anotherEgPortForwardAction, anotherEgPortForwardTbl, getD_entered, -mem_forwardKeys]

theorem anotherEgPortForwardAction_putreqLargevalue :
    anotherEgPortForwardAction config .putreqLargevalueInswitch isLargevalueblock key =
      if key ∈ forwardKeys config ∧ ((((key.isHot = false ∧ isLargevalueblock = false) ∧
          key.isDeleted = false) ∧ key.clientSid = 0) ∧ key.isLastclone = false) ∧ key.isCase1 = false then
        putreqLargevalueAction key
      else Routing.noAction := by
  cases isLargevalueblock <;>
    simp [anotherEgPortForwardAction, anotherEgPortForwardTbl, getD_entered, -mem_forwardKeys]

/-- A response of the server reports a valid slot only while it is not latest. -/
theorem anotherEgPortForwardAction_getres
    (response : optype = .getresLatestSeqInswitch ∨ optype = .getresDeletedSeqInswitch)
    (latest : key.validvalue = 1 → key.isLatest = true) :
    anotherEgPortForwardAction config optype isLargevalueblock key = Routing.noAction := by
  by_cases valid : key.validvalue = 1
  · have bit := latest valid
    rcases response with rfl | rfl <;> simp [anotherEgPortForwardAction, anotherEgPortForwardTbl, bit]
  · rcases response with rfl | rfl <;> simp [anotherEgPortForwardAction, anotherEgPortForwardTbl, valid]

end Actions

/-- `drop_tbl`: a response of the server that was for the slot goes no further. -/
@[simp] def Routing.dropTbl (r : Routing) : Routing :=
  match r.packet.optype with
  | .getresLatestSeqInswitch | .getresDeletedSeqInswitch => { r with dropped := true }
  | _ => r

namespace Traversal

@[simp] def forwardKey (t : Traversal) : ForwardKey :=
  { isCached := t.packet.isCached, isHot := t.isHot, validvalue := t.packet.validvalue
    isLatest := t.isLatest, isDeleted := t.isDeleted, clientSid := t.packet.clientSid
    isLastclone := lastcloneLastscansplitTbl.lookup t.packet.optype t.packet.clonenumForPktloss
    snapshotFlag := t.packet.snapshotFlag, isCase1 := t.isCase1 }

@[simp] def anotherEgPortForward (config : SwitchConfig) (t : Traversal) : Routing :=
  anotherEgPortForwardAction config t.packet.optype t.isLargevalueblock t.forwardKey ⟨t.packet, false, none⟩

/-- The tables of `egress.p4` behind the value registers. The actions of the first forward table
change no match field of the second but the operation type. -/
def forward (config : SwitchConfig) (t : Traversal) : Routing :=
  let r := t.anotherEgPortForward config
  (egPortForwardAction config r.packet.optype t.forwardKey r).dropTbl

end Traversal

/-- Where a packet leaves to: the port chosen in ingress, or the port of a mirror session. -/
inductive Port where
  | unicast
  | mirror (sid : Nat)
  deriving DecidableEq, Repr

@[simp] def Routing.emitted (r : Routing) : List (Port × Packet) :=
  (if r.dropped then [] else [(.unicast, r.packet)]) ++ r.mirror.toList.map fun sid => (.mirror sid, r.packet)

/-- What one packet does to the registers it reaches, and the packets that leave. -/
structure Outcome where
  slot : Slot
  seqReg : Nat
  emitted : List (Port × Packet)

def egress (config : SwitchConfig) (counted : Bool) (slot : Slot) (seqReg : Nat) (packet : Packet) : Outcome :=
  let t := (Traversal.init packet slot seqReg).accessRegisters config.platform counted
  ⟨t.slot, t.seqReg, (t.forward config).emitted⟩

theorem egress_eq {config : SwitchConfig} {counted : Bool} {slot : Slot} {seqReg : Nat} {packet : Packet}
    {t : Traversal}
    (registers : (Traversal.init packet slot seqReg).accessRegisters config.platform counted = t) :
    egress config counted slot seqReg packet = ⟨t.slot, t.seqReg, (t.forward config).emitted⟩ := by
  subst registers
  rfl

end FarReach
