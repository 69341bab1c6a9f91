import FarReach.DataPlane

namespace FarReach

open MatchTable Traversal

/-- An egress table that runs one of the register actions. -/
abbrev RegisterTable (T : Type) := Table Optype T (Traversal → Traversal)

-- the value ranges of the controllers' loops
@[simp] def cachedList : List Bool := [false, true]
@[simp] def validvalueList : List UInt8 := [0, 1, 3]
@[simp] def latestList : List Bool := [false, true]
@[simp] def statList : List Bool := [false, true]

/-- `access_cm1_tbl` to `access_cm4_tbl`, matched on `is_sampled` and `is_cached`: the action tells
whether the counter has reached the threshold (`counted`). -/
@[simp] def accessCmTbl : Table Optype (Bool × Bool) (Bool → Bool) where
  entries := loop [(true, false)] fun _ => [(.getreqInswitch, id), (.putreqInswitch, id)]
  default := fun _ => false

@[simp] def accessValidvalueTbl : RegisterTable Bool where
  entries :=
    (loop [true] fun _ =>
      [.getreqInswitch, .getresLatestSeqInswitch, .getresDeletedSeqInswitch, .putreqInswitch,
        .delreqInswitch, .putreqLargevalueInswitch].map (·, getValidvalue)) ++
    loop cachedList fun _ => [(.setvalidInswitch, setValidvalue)]
  default := resetMetaValidvalue

@[simp] def accessSeqTbl : RegisterTable Nat where
  entries := loop [0] fun _ =>
    [.putreqInswitch, .delreqInswitch, .putreqLargevalueInswitch].map (·, assignSeq)
  default := noAction

@[simp] def accessLatestTbl : RegisterTable (Bool × UInt8 × Nat) where
  entries := loop (cachedList.product (validvalueList.product [0])) fun (isCached, validvalue, _) =>
    (if isCached then [(.getreqInswitch, getLatest)] else []) ++
    (if isCached && validvalue == 1 then
      [.getresLatestSeqInswitch, .getresDeletedSeqInswitch].map (·, setAndGetLatest)
    else []) ++
    (if isCached && validvalue == 1 then
      [.putreqInswitch, .delreqInswitch].map (·, setAndGetLatest)
    else if isCached && validvalue == 3 then
      [.putreqInswitch, .delreqInswitch].map (·, resetAndGetLatest)
    else []) ++
    [(.cachePopInswitch, resetAndGetLatest)] ++
    (if isCached && validvalue == 1 then [(.putreqLargevalueInswitch, resetAndGetLatest)]
    else if isCached && validvalue == 3 then [(.putreqLargevalueInswitch, resetAndGetLatest)]
    else [])
  default := resetIsLatest

@[simp] def accessLargevalueseqAndSaveAssignedseqTbl : RegisterTable (Bool × UInt8 × Nat) where
  entries := loop (cachedList.product (validvalueList.product [0])) fun (isCached, validvalue, _) =>
    (if isCached && validvalue == 1 then [(.getreqInswitch, getLargevalueseq)] else []) ++
    (if isCached && validvalue == 1 then
      [.getresLatestSeqInswitch, .getresDeletedSeqInswitch, .putreqInswitch, .delreqInswitch].map
        (·, resetLargevalueseq)
    else []) ++
    [(.cachePopInswitch, resetLargevalueseq)] ++
    (if isCached && validvalue == 1 then [(.putreqLargevalueInswitch, setLargevalueseq)] else [])
  default := resetMetaLargevalueseq

/-- The status that the entry for `GETRES_DELETED_SEQ_INSWITCH` asks for; on Tofino it is the one of
a live record. -/
@[simp] def deletedResponseStat : Platform → Bool
  | .bmv2 => false
  | .tofino => true

@[simp] def accessDeletedTbl (platform : Platform) : RegisterTable (Bool × UInt8 × Bool × Bool) where
  entries :=
    loop (cachedList.product (validvalueList.product (latestList.product statList)))
      fun (isCached, validvalue, isLatest, stat) =>
    (if isCached then [(.getreqInswitch, getDeleted)] else []) ++
    (if isCached && validvalue == 1 && !isLatest && stat then
      [(.getresLatestSeqInswitch, resetAndGetDeleted)] else []) ++
    (if isCached && validvalue == 1 && !isLatest && stat == deletedResponseStat platform then
      [(.getresDeletedSeqInswitch, setAndGetDeleted)] else []) ++
    (if isCached && validvalue == 1 then [(.putreqInswitch, resetAndGetDeleted)] else []) ++
    (if isCached && validvalue == 1 then [(.delreqInswitch, setAndGetDeleted)] else []) ++
    [(.cachePopInswitch, if stat then resetAndGetDeleted else setAndGetDeleted)] ++
    [.cacheEvictLoaddataInswitch, .loadsnapshotdataInswitch].map (·, getDeleted)
  default := resetIsDeleted

@[simp] def updateVallenEntries (isCached : Bool) (validvalue : UInt8) (isLatest : Bool) :
    List (Optype × (Traversal → Traversal)) :=
  (if isCached then [(.getreqInswitch, getVallen)] else [] : List (Optype × (Traversal → Traversal))) ++
  (if isCached && validvalue == 1 && !isLatest then
    ([.getresLatestSeqInswitch, .getresDeletedSeqInswitch] : List Optype).map (·, setAndGetVallen) else []) ++
  (if isCached && validvalue == 1 then [(.putreqInswitch, setAndGetVallen)] else []) ++
  (if isCached && validvalue == 1 then [(.delreqInswitch, resetAndGetVallen)] else []) ++
  [(.cachePopInswitch, setAndGetVallen)]

@[simp] def loadVallenEntries : List (Optype × (Traversal → Traversal)) :=
  [.cacheEvictLoaddataInswitch, .loadsnapshotdataInswitch].map (·, getVallen)

@[simp] def registerKeys : List (Bool × UInt8 × Bool) := cachedList.product (validvalueList.product latestList)

def lastRegisterKey : List (Bool × UInt8 × Bool) := registerKeys.getLast?.toList

@[simp] theorem lastRegisterKey_eq : lastRegisterKey = [(true, 3, true)] := rfl

/-- The Tofino controller adds the entries for the load operations once, behind its loops, with the
loop variables of the last round. -/
@[simp] def updateVallenTbl : Platform → RegisterTable (Bool × UInt8 × Bool)
  | .bmv2 =>
    { entries := loop registerKeys fun (isCached, validvalue, isLatest) =>
        updateVallenEntries isCached validvalue isLatest ++ loadVallenEntries
      default := resetAccessValMode }
  | .tofino =>
    { entries := (loop registerKeys fun (isCached, validvalue, isLatest) =>
          updateVallenEntries isCached validvalue isLatest) ++
        loop lastRegisterKey fun _ => loadVallenEntries
      default := resetAccessValMode }

@[simp] def accessSavedseqTbl : RegisterTable (Bool × UInt8 × Bool) where
  entries := loop registerKeys fun (isCached, validvalue, isLatest) =>
    (if isCached then [(.getreqInswitch, getSavedseq)] else []) ++
    (if isCached && validvalue == 1 then
      [.putreqInswitch, .delreqInswitch].map (·, setAndGetSavedseq) else []) ++
    (if isCached && validvalue == 1 && !isLatest then
      [.getresLatestSeqInswitch, .getresDeletedSeqInswitch].map (·, setAndGetSavedseq) else []) ++
    [(.cachePopInswitch, setAndGetSavedseq)] ++
    [.cacheEvictLoaddataInswitch, .loadsnapshotdataInswitch].map (·, getSavedseq)
  default := noAction

/-- The key has `snapshot_flag` behind the three fields of the other tables. -/
@[simp] def accessCase1Tbl (platform : Platform) : RegisterTable (Bool × UInt8 × Bool × Bool) where
  entries := loop (latestList.map fun isLatest => (true, 1, isLatest, true)) fun (_, _, isLatest, _) =>
    (if !isLatest then
      [.getresLatestSeqInswitch, .getresDeletedSeqInswitch].map (·, tryCase1 platform) else []) ++
    [.putreqInswitch, .delreqInswitch].map (·, tryCase1 platform)
  default := resetIsCase1

namespace Traversal

/-- The four counters and `is_hot_tbl`: a key is hot when all counters have reached the threshold. -/
@[simp] def accessCm (counted : Bool) (t : Traversal) : Traversal :=
  { t with
    isHot := accessCmTbl.lookup t.packet.optype (t.packet.isSampled, t.packet.isCached) counted }

@[simp] def accessValidvalue (t : Traversal) : Traversal :=
  accessValidvalueTbl.lookup t.packet.optype t.packet.isCached t

@[simp] def accessSeq (t : Traversal) : Traversal := accessSeqTbl.lookup t.packet.optype t.packet.fragidx t

@[simp] def accessLatest (t : Traversal) : Traversal :=
  accessLatestTbl.lookup t.packet.optype (t.packet.isCached, t.packet.validvalue, t.packet.fragidx) t

@[simp] def accessLargevalueseqAndSaveAssignedseq (t : Traversal) : Traversal :=
  accessLargevalueseqAndSaveAssignedseqTbl.lookup t.packet.optype
    (t.packet.isCached, t.packet.validvalue, t.packet.fragidx) t

@[simp] def checkLargevalueblock (t : Traversal) : Traversal :=
  if t.largevalueseq ≠ 0 then { t with isLargevalueblock := true } else t

@[simp] def accessDeleted (platform : Platform) (t : Traversal) : Traversal :=
  (accessDeletedTbl platform).lookup t.packet.optype
    (t.packet.isCached, t.packet.validvalue, t.isLatest, t.packet.stat) t

@[simp] def updateVallen (platform : Platform) (t : Traversal) : Traversal :=
  (updateVallenTbl platform).lookup t.packet.optype
    (t.packet.isCached, t.packet.validvalue, t.isLatest) t

@[simp] def accessSavedseq (t : Traversal) : Traversal :=
  accessSavedseqTbl.lookup t.packet.optype (t.packet.isCached, t.packet.validvalue, t.isLatest) t

@[simp] def accessCase1 (platform : Platform) (t : Traversal) : Traversal :=
  (accessCase1Tbl platform).lookup t.packet.optype
    (t.packet.isCached, t.packet.validvalue, t.isLatest, t.packet.snapshotFlag) t

/-- The tables of `egress.p4` up to the value registers, in their order. -/
def accessRegisters (platform : Platform) (counted : Bool) (t : Traversal) : Traversal :=
  t |> accessCm counted |> accessValidvalue |> accessSeq |> accessLatest
    |> accessLargevalueseqAndSaveAssignedseq |> checkLargevalueblock |> accessDeleted platform
    |> updateVallen platform |> accessSavedseq |> accessCase1 platform |> updateValTbls

end Traversal

end FarReach
