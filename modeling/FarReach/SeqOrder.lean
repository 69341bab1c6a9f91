import FarReach.Case1Report
import FarReach.SlotCoherence

namespace FarReach

open Traversal Versioned

/-- A packet of one key that is to be numbered, or one of another key whose numbers come from the same
counter. -/
inductive SeqArrival where
  | own (packet : Packet) (counted : Bool)
  | other

def assignedSeq (config : SwitchConfig) (registers : Registers) (packet : Packet) (counted : Bool) : Nat :=
  ((init packet registers.slot registers.seqReg).accessRegisters config.platform counted).packet.seq

def Registers.arrive (config : SwitchConfig) (registers : Registers) : SeqArrival → Registers
  | .own packet counted => registers.step config (packet, counted)
  | .other => { registers with seqReg := nextSeq registers.seqReg }

/-- The numbers of the packets of the key, in the order in which the switch processes them. -/
def assignedSeqs (config : SwitchConfig) : Registers → List SeqArrival → List Nat
  | _, [] => []
  | registers, .own packet counted :: rest =>
    assignedSeq config registers packet counted ::
      assignedSeqs config (registers.arrive config (.own packet counted)) rest
  | registers, .other :: rest => assignedSeqs config (registers.arrive config .other) rest

/-- A write that is checked at the server takes effect there when the server holds an older one. -/
def TakesEffect (earlier later : Nat) : Prop :=
  ∀ (kv : KvStore) (key : Key) (val : Val) (entry : Entry Val), kv.cell key = Cell.ofEntry entry →
    entry.seq = earlier →
    (kv.put key val later true).2.db[key]? = some (val, later) ∧ (kv.remove key later true).2.db[key]? = none

/-- Later packets get larger numbers, and the server never keeps an earlier write in their place. -/
def InOrder (seqs : List Nat) : Prop := seqs.Pairwise fun earlier later => earlier < later ∧ TakesEffect earlier later

/-- At every packet of the key but the first, the counter is not at its end and not below a number it
has given to the key. -/
def CounterAhead (config : SwitchConfig) : Option Nat → Registers → List SeqArrival → Prop
  | _, _, [] => True
  | last, registers, .own packet counted :: rest =>
    (∀ seq, last = some seq → registers.seqReg ≠ 0x7FFFFFFF ∧ seq ≤ registers.seqReg) ∧
      CounterAhead config (some (nextSeq registers.seqReg)) (registers.arrive config (.own packet counted)) rest
  | last, registers, .other :: rest => CounterAhead config last (registers.arrive config .other) rest

variable {counted : Bool} {packet : Packet} {platform : Platform} {seqReg : Nat} {slot : Slot}

theorem registers_uncached (takes : packet.TakesSeq) (uncached : packet.isCached = false) :
    ((init packet slot seqReg).accessRegisters platform counted).seqReg = nextSeq seqReg ∧
      ((init packet slot seqReg).accessRegisters platform counted).packet.seq = nextSeq seqReg := by
  rcases takes with (put | del) | ⟨large, first⟩ <;> cases platform
  all_goals simp [accessRegisters, init, *, Packet.fragidx]

/-- Cached or not, a packet that is numbered carries the new value of the counter. -/
theorem numbered_of_takesSeq (takes : packet.TakesSeq) :
    ((init packet slot seqReg).accessRegisters platform counted).seqReg = nextSeq seqReg ∧
      ((init packet slot seqReg).accessRegisters platform counted).packet.seq = nextSeq seqReg := by
  cases cached : packet.isCached with
  | false => exact registers_uncached takes cached
  | true =>
    rcases takes with write | ⟨large, first⟩
    · by_cases valid : slot.validvalue = 1
      · rcases write with put | del
        · rw [registers_put_valid put cached valid]
          exact ⟨rfl, rfl⟩
        · rw [registers_del_valid del cached valid]
          exact ⟨rfl, rfl⟩
      by_cases evicted : slot.validvalue = 3
      · rw [registers_write_evicted write cached evicted]
        exact ⟨rfl, rfl⟩
      · rw [registers_write_invalid write cached valid evicted]
        exact ⟨rfl, rfl⟩
    · obtain ⟨-, seqReg, packet⟩ := @registers_putreqLargevalue platform counted packet slot seqReg large cached first
      rw [seqReg, packet]
      exact ⟨rfl, rfl⟩

theorem lt_nextSeq_iff {seq : Nat} : seq < nextSeq seqReg ↔ seqReg ≠ 0x7FFFFFFF ∧ seq ≤ seqReg := by
  unfold nextSeq
  split
  · rename_i wraps
    simp [wraps]
  · rename_i wrapsNot
    constructor
    · intro below
      exact ⟨wrapsNot, by omega⟩
    · intro ⟨_, below⟩
      omega

theorem takesEffect_of_lt {earlier later : Nat} (below : earlier < later) : TakesEffect earlier later := by
  intro kv key val entry holds same
  have newest : ∀ version : Entry Val, version.seq = later → ∀ old ∈ (kv.cell key).entries,
      old.seq ≤ version.seq := by
    intro version stamp old member
    rw [holds] at member
    have only : old = entry := by
      cases entry <;> simpa [Cell.ofEntry, Cell.entries] using member
    rw [only, same, stamp]
    exact below.le
  constructor
  · have written := KvStore.cell_put kv key key val later true
    rw [if_pos rfl, Cell.apply_of_newest true (newest (.live val later) rfl)] at written
    exact congrArg Cell.stored written
  · have forgets := KvStore.cell_remove_forgets kv key key later true
    rw [if_pos rfl, Cell.apply_of_newest true (newest (.deleted later) rfl)] at forgets
    exact forgets.1

theorem inOrder_iff (seqs : List Nat) : InOrder seqs ↔ seqs.Pairwise (· < ·) := by
  unfold InOrder
  constructor
  · exact fun ordered => ordered.imp fun both => both.1
  · exact fun ordered => ordered.imp fun below => ⟨below, takesEffect_of_lt below⟩

/-- The numbers go up from the last one given before, if and only if the counter stays ahead. -/
theorem isChain_assignedSeqs_iff (config : SwitchConfig) (last : Option Nat) (registers : Registers)
    (arrivals : List SeqArrival)
    (takes : ∀ packet counted, SeqArrival.own packet counted ∈ arrivals → packet.TakesSeq) :
    (last.toList ++ assignedSeqs config registers arrivals).IsChain (· < ·) ↔
      CounterAhead config last registers arrivals := by
  induction arrivals generalizing last registers with
  | nil => cases last <;> simp [assignedSeqs, CounterAhead]
  | cons arrival rest ih =>
    have later := fun last registers => ih last registers fun packet counted member =>
      takes packet counted (List.mem_cons_of_mem _ member)
    cases arrival with
    | other => exact later last (registers.arrive config .other)
    | own packet counted =>
      have number : assignedSeq config registers packet counted = nextSeq registers.seqReg :=
        (numbered_of_takesSeq (takes packet counted List.mem_cons_self)).2
      have step := later (some (nextSeq registers.seqReg)) (registers.arrive config (.own packet counted))
      simp only [Option.toList_some, List.singleton_append] at step
      unfold assignedSeqs CounterAhead
      rw [number, ← step]
      cases last with
      | none => simp
      | some seq => simp [lt_nextSeq_iff]

/-- Numbers follow the order of processing exactly as long as the counter has not started again below a
number of the key. -/
theorem seq_order_iff (config : SwitchConfig) (registers : Registers) (arrivals : List SeqArrival)
    (takes : ∀ packet counted, SeqArrival.own packet counted ∈ arrivals → packet.TakesSeq) :
    InOrder (assignedSeqs config registers arrivals) ↔ CounterAhead config none registers arrivals := by
  rw [inOrder_iff, ← List.isChain_iff_pairwise]
  exact isChain_assignedSeqs_iff config none registers arrivals takes

def samplePutreq : SeqArrival := .own { Packet.bare .putreqInswitch ⟨1, 0, 0, 0⟩ 0 false with clientSid := 1 } false

theorem takesSeq_samplePutreq {arrivals : List SeqArrival}
    (sample : ∀ arrival ∈ arrivals, arrival = .other ∨ arrival = samplePutreq) (packet : Packet) (counted : Bool)
    (member : SeqArrival.own packet counted ∈ arrivals) : packet.TakesSeq := by
  rcases sample _ member with other | put
  · cases other
  · cases put
    exact Or.inl (Or.inl rfl)

theorem seq_order_iff_pair :
    InOrder (assignedSeqs ⟨.bmv2, [1], 2⟩ ⟨Slot.initial, 0⟩ [samplePutreq, samplePutreq]) ↔
      CounterAhead ⟨.bmv2, [1], 2⟩ none ⟨Slot.initial, 0⟩ [samplePutreq, samplePutreq] :=
  seq_order_iff _ _ _ (takesSeq_samplePutreq (by simp))

/-- Packets of other keys move the counter on. -/
theorem assignedSeqs_replicate_other (config : SwitchConfig) (count : Nat) (registers : Registers)
    (rest : List SeqArrival) (below : registers.seqReg + count ≤ 0x7FFFFFFF) :
    assignedSeqs config registers (List.replicate count .other ++ rest) =
      assignedSeqs config { registers with seqReg := registers.seqReg + count } rest := by
  induction count generalizing registers with
  | zero => rfl
  | succ count ih =>
    rw [List.replicate_succ, List.cons_append]
    show assignedSeqs config (registers.arrive config .other) (List.replicate count .other ++ rest) = _
    have next : (registers.arrive config .other).seqReg = registers.seqReg + 1 := by
      have wrapsNot : registers.seqReg ≠ 0x7FFFFFFF := by omega
      simp [Registers.arrive, nextSeq, wrapsNot]
    rw [ih (registers.arrive config .other) (by omega), next]
    simp only [Registers.arrive, Nat.add_assoc, Nat.add_comm 1 count]

/-- After `0x7FFFFFFE` numbers for other keys the next two packets get the last number and zero. -/
theorem seq_order_wraps :
    ¬ ∀ arrivals : List SeqArrival,
      (∀ packet counted, SeqArrival.own packet counted ∈ arrivals → packet.TakesSeq) →
        InOrder (assignedSeqs ⟨.bmv2, [1], 2⟩ ⟨Slot.initial, 0⟩ arrivals) := by
  intro always
  have ordered := always (List.replicate 0x7FFFFFFE .other ++ [samplePutreq, samplePutreq])
    (takesSeq_samplePutreq fun arrival member => by
      rcases List.mem_append.mp member with other | own
      · exact Or.inl (List.eq_of_mem_replicate other)
      · simp only [List.mem_cons, List.not_mem_nil, or_false, or_self] at own
        exact Or.inr own)
  rw [assignedSeqs_replicate_other _ _ _ _ (by decide)] at ordered
  have seqs : assignedSeqs ⟨.bmv2, [1], 2⟩ ⟨Slot.initial, 0 + 0x7FFFFFFE⟩ [samplePutreq, samplePutreq] =
      [0x7FFFFFFF, 0] := by
    decide +kernel
  rw [seqs, inOrder_iff] at ordered
  exact absurd (List.rel_of_pairwise_cons ordered List.mem_cons_self) (by decide)

end FarReach
