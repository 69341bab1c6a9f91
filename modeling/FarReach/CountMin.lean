import FarReach.EgressTables
import FarReach.Runs
import FarReach.Sketches

namespace FarReach

open Sketches

inductive CmRow where
  | cm1 | cm2 | cm3 | cm4
  deriving DecidableEq, Repr

abbrev CmRegisters := CmRow → UInt16 → UInt16

structure CmPacket where
  optype : Optype
  isSampled : Bool
  isCached : Bool
  hashvalForCm : CmRow → UInt16
  hotThreshold : UInt16

/-- `update_cm1` to `update_cm4`, with the register array of the row: the predicate compares the counter before
it is raised. -/
def updateCm (cmReg : UInt16 → UInt16) (hashvalForCm hotThreshold : UInt16) : UInt8 × (UInt16 → UInt16) :=
  let cmRes := cmReg hashvalForCm
  (if cmRes ≥ hotThreshold then 2 else 1, Function.update cmReg hashvalForCm (cmRes + 1))

/-- Whether `access_cm1_tbl` to `access_cm4_tbl` run their update for the packet. -/
def CmPacket.counted (packet : CmPacket) : Bool :=
  accessCmTbl.lookup packet.optype (packet.isSampled, packet.isCached) true

/-- The four tables; their default action resets the predicate. -/
def accessCmTbls (registers : CmRegisters) (packet : CmPacket) : (CmRow → UInt8) × CmRegisters :=
  if packet.counted then
    (fun row => (updateCm (registers row) (packet.hashvalForCm row) packet.hotThreshold).1,
      fun row => (updateCm (registers row) (packet.hashvalForCm row) packet.hotThreshold).2)
  else (fun _ => 1, registers)

def isHotTbl (cmPredicate : CmRow → UInt8) : Bool :=
  cmPredicate .cm1 == 2 && cmPredicate .cm2 == 2 && cmPredicate .cm3 == 2 && cmPredicate .cm4 == 2

/-- A row calls a packet hot if it is counted and the counter has reached the threshold. -/
theorem cmPredicate_eq_two_iff (registers : CmRegisters) (packet : CmPacket) (row : CmRow) :
    (accessCmTbls registers packet).1 row = 2 ↔
      packet.counted = true ∧ packet.hotThreshold ≤ registers row (packet.hashvalForCm row) := by
  unfold accessCmTbls updateCm
  split
  · rename_i counted
    by_cases reached : packet.hotThreshold ≤ registers row (packet.hashvalForCm row)
    · simp [counted, reached]
    · simp [counted, reached]
  · rename_i uncounted
    simp [uncounted]

theorem isHotTbl_iff (cmPredicate : CmRow → UInt8) : isHotTbl cmPredicate = true ↔ ∀ row, cmPredicate row = 2 := by
  unfold isHotTbl
  simp only [Bool.and_eq_true, beq_iff_eq]
  constructor
  · rintro ⟨⟨⟨one, two⟩, three⟩, four⟩ row
    cases row <;> assumption
  · intro all
    exact ⟨⟨⟨all .cm1, all .cm2⟩, all .cm3⟩, all .cm4⟩

/-- The types for which `hash_for_cm12_tbl` and `hash_for_cm34_tbl` compute the places in the four arrays, by
the names that `ig_port_forward_tbl` gives them afterwards. -/
def hashForCmTbl (platform : Platform) (optype : Optype) : Bool :=
  match platform with
  | .bmv2 => optype = .getreqInswitch
  | .tofino => optype = .getreqInswitch ∨ optype = .putreqInswitch

/-- A counted request: its key, its places, and whether they were computed from the key. -/
structure CmRequest where
  key : Key
  hashvalForCm : CmRow → UInt16
  hashed : Bool

def CmRequest.place (row : CmRow) (request : CmRequest) : UInt16 := request.hashvalForCm row

/-- A switch with its counters, the counted requests since they were reset, and whether a request was not called
hot by all four rows although its key had been requested often enough. -/
structure CmRun where
  registers : CmRegisters
  requests : List CmRequest
  missed : Bool

/-- A packet in the egress pipeline, with what its header fields hold if no action writes them, or a reset of the
registers. -/
inductive CmEvent where
  | packet (optype : Optype) (isSampled isCached : Bool) (key : Key) (unset : CmRow → UInt16)
  | reset

namespace CmRun

def start : CmRun := ⟨fun _ _ => 0, [], false⟩

def requestsFor (run : CmRun) (key : Key) : Nat := run.requests.countP fun request => request.key = key

def hashedFor (run : CmRun) (key : Key) : Nat :=
  run.requests.countP fun request => request.key = key && request.hashed

variable (platform : Platform) (hotThreshold : UInt16) (hashes : CmRow → Key → UInt16)

def packetOf (optype : Optype) (isSampled isCached : Bool) (key : Key) (unset : CmRow → UInt16) : CmPacket :=
  ⟨optype, isSampled, isCached, fun row => if hashForCmTbl platform optype then hashes row key else unset row,
    hotThreshold⟩

def step (run : CmRun) : CmEvent → CmRun
  | .packet optype isSampled isCached key unset =>
    let packet := packetOf platform hotThreshold hashes optype isSampled isCached key unset
    let (cmPredicate, registers) := accessCmTbls run.registers packet
    { registers
      requests := run.requests ++
        if packet.counted then [⟨key, packet.hashvalForCm, hashForCmTbl platform optype⟩] else []
      missed := run.missed ||
        packet.counted && decide (hotThreshold.toNat ≤ run.requestsFor key) && !isHotTbl cmPredicate }
  | .reset => { run with registers := fun _ _ => 0, requests := [] }

/-- A counted request for a key that was requested often enough has its places computed, as often enough others
had, and none of its buckets has been hit as often as a counter can count. -/
def Countable (run : CmRun) : CmEvent → Prop
  | .packet optype isSampled isCached key _ =>
    accessCmTbl.lookup optype (isSampled, isCached) true = true → hotThreshold.toNat ≤ run.requestsFor key →
      hashForCmTbl platform optype = true ∧ hotThreshold.toNat ≤ run.hashedFor key ∧
        ∀ row, hits CmRequest.place run.requests row (hashes row key) < 2 ^ 16
  | .reset => True

open scoped UInt16.CommRing

/-- The registers hold the numbers of hits modulo `2 ^ 16`, and computed places are those of the key. -/
structure Inv (run : CmRun) : Prop where
  counted : Counted CmRequest.place run.requests run.registers
  hashed : ∀ request ∈ run.requests, request.hashed = true → ∀ row, request.hashvalForCm row = hashes row request.key

variable {platform hotThreshold hashes}

theorem inv_start : start.Inv hashes := ⟨Counted.empty (C := UInt16) CmRequest.place, by simp [start]⟩

theorem Inv.step {run : CmRun} (inv : run.Inv hashes) (event : CmEvent) :
    (run.step platform hotThreshold hashes event).Inv hashes := by
  cases event with
  | reset => exact ⟨Counted.empty (C := UInt16) CmRequest.place, by simp [CmRun.step]⟩
  | packet optype isSampled isCached key unset =>
    unfold CmRun.step accessCmTbls
    by_cases isCounted : (packetOf platform hotThreshold hashes optype isSampled isCached key unset).counted = true
    · simp only [isCounted, if_true]
      refine ⟨inv.counted.count ⟨key, _, hashForCmTbl platform optype⟩, fun request member hashed row => ?_⟩
      rcases List.mem_append.mp member with old | new
      · exact inv.hashed request old hashed row
      · rw [List.mem_singleton.mp new] at hashed ⊢
        exact if_pos hashed
    · simp only [isCounted, Bool.false_eq_true, if_false, List.append_nil]
      exact ⟨inv.counted, inv.hashed⟩

theorem toNat_register {run : CmRun} (inv : run.Inv hashes) (row : CmRow) (place : UInt16) :
    (run.registers row place).toNat = hits CmRequest.place run.requests row place % 2 ^ 16 := by
  rw [inv.counted]
  exact UInt16.toNat_ofNat'

/-- A counted packet is called hot by a row exactly if the hits of its bucket, modulo `2 ^ 16`, have reached the
threshold. -/
theorem cmPredicate_eq_two_iff_hits {run : CmRun} (inv : run.Inv hashes) {packet : CmPacket}
    (isCounted : packet.counted = true) (row : CmRow) :
    (accessCmTbls run.registers packet).1 row = 2 ↔
      packet.hotThreshold.toNat ≤ hits CmRequest.place run.requests row (packet.hashvalForCm row) % 2 ^ 16 := by
  rw [cmPredicate_eq_two_iff, ← toNat_register inv]
  exact ⟨fun hot => UInt16.le_iff_toNat_le.mp hot.2, fun reached => ⟨isCounted, UInt16.le_iff_toNat_le.mpr reached⟩⟩

theorem Inv.hashedFor_le {run : CmRun} (inv : run.Inv hashes) (key : Key) (row : CmRow) :
    run.hashedFor key ≤ hits CmRequest.place run.requests row (hashes row key) := by
  refine countP_le_hits fun request member holds => ?_
  obtain ⟨isKey, hashed⟩ := Bool.and_eq_true_iff.mp holds
  rw [← of_decide_eq_true isKey]
  exact inv.hashed request member hashed row

/-- With countable requests the rows never miss one whose key was requested often enough. -/
theorem missed_step {run : CmRun} (inv : run.Inv hashes) (event : CmEvent)
    (countable : run.Countable platform hotThreshold hashes event) (found : run.missed = false) :
    (run.step platform hotThreshold hashes event).missed = false := by
  cases event with
  | reset => exact found
  | packet optype isSampled isCached key unset =>
    by_cases isCounted : (packetOf platform hotThreshold hashes optype isSampled isCached key unset).counted = true
    · by_cases often : hotThreshold.toNat ≤ run.requestsFor key
      · have hot : isHotTbl (accessCmTbls run.registers
            (packetOf platform hotThreshold hashes optype isSampled isCached key unset)).1 = true := by
          obtain ⟨hashed, enough, unwrapped⟩ := countable isCounted often
          refine (isHotTbl_iff _).mpr fun row => ?_
          have place : (packetOf platform hotThreshold hashes optype isSampled isCached key unset).hashvalForCm row =
              hashes row key := if_pos hashed
          rw [cmPredicate_eq_two_iff_hits inv isCounted row, place]
          calc hotThreshold.toNat ≤ run.hashedFor key := enough
            _ ≤ hits CmRequest.place run.requests row (hashes row key) := inv.hashedFor_le key row
            _ = hits CmRequest.place run.requests row (hashes row key) % 2 ^ 16 :=
              (Nat.mod_eq_of_lt (unwrapped row)).symm
        simp only [step, found, hot, Bool.not_true, Bool.and_false, Bool.or_false]
      · simp only [step, found, often, decide_false, Bool.and_false, Bool.false_and, Bool.or_false]
    · simp only [step, found, isCounted, Bool.false_and, Bool.or_false]

/-- In every run of packets and resets in which the counted requests of keys that were requested often enough are
countable, each of them is called hot by all four rows, whatever the hash functions are. -/
theorem countMin_never_misses {run : CmRun} (reached : Runs.Reaches (step platform hotThreshold hashes)
    (Countable platform hotThreshold hashes) start run) : run.missed = false := by
  have both : run.Inv hashes ∧ run.missed = false := by
    refine reached.invariant (fun run => run.Inv hashes ∧ run.missed = false) ⟨inv_start, rfl⟩ ?_
    exact fun run event holds countable => ⟨holds.1.step event, missed_step holds.1 event countable holds.2⟩
  exact both.2

/-- The requests for two keys with the same places, and a put of the second, which is not hashed, with the
threshold two: the last request is called hot. -/
theorem countMin_never_misses_collision :
    ([CmEvent.packet .getreqInswitch true false ⟨1, 0, 0, 0⟩ 0, .packet .getreqInswitch true false ⟨2, 0, 0, 0⟩ 0,
        .packet .putreqInswitch true false ⟨2, 0, 0, 0⟩ 5, .packet .getreqInswitch true false ⟨1, 0, 0, 0⟩ 0,
        .packet .getreqInswitch true false ⟨1, 0, 0, 0⟩ 0].foldl
      (step .bmv2 2 fun _ _ => 3) start).missed = false := by
  refine @countMin_never_misses .bmv2 2 (fun _ _ => 3) _ (Runs.Reaches.start.foldl _ ⟨?_, ?_, ?_, ?_, ?_, trivial⟩)
  · exact fun _ often => absurd often (by decide)
  · exact fun _ often => absurd often (by decide)
  · exact fun _ often => absurd often (by decide)
  · exact fun _ often => absurd often (by decide)
  · exact fun _ _ => ⟨rfl, by decide, fun row => by cases row <;> decide⟩

/-- On bmv2 the places of a put are not those of its key: the request behind it is not called hot. -/
theorem put_counted_elsewhere :
    ¬ ∀ (platform : Platform) (hotThreshold : UInt16) (hashes : CmRow → Key → UInt16) (events : List CmEvent),
      (events.foldl (step platform hotThreshold hashes) start).missed = false := by
  intro always
  have found := always .bmv2 1 (fun _ _ => 3)
    [.packet .putreqInswitch true false ⟨1, 0, 0, 0⟩ 0, .packet .getreqInswitch true false ⟨1, 0, 0, 0⟩ 0]
  revert found
  decide

end CmRun

end FarReach
