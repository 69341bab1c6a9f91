import FarReach.PacketFormat
import FarReach.RingQueue

namespace FarReach

open Bytes DynamicArray Function

/-- The address and the port of a `sockaddr_in`; its length is the same for all. -/
abbrev SockAddr := UInt32 × UInt16

def DynamicArray.content (buf : DynamicArray) : List UInt8 := buf.array.take buf.cursize

theorem DynamicArray.Wrote.content {before after : DynamicArray} {bytes : List UInt8}
    (wrote : Wrote before 0 bytes after) (empty : before.cursize = 0) : after.content = bytes := by
  have size := wrote.cursize
  rw [empty, Nat.zero_add, Nat.zero_max] at size
  have starts := holds_zero_iff.mp wrote.holds
  rw [DynamicArray.content, size]
  exact (List.prefix_iff_eq_take.mp starts).symm

/-- A buffer of MAX_BUFSIZE to MAX_LARGE_BUFSIZE bytes, as every receiver of large packets has. -/
def packetBuffer : DynamicArray := allocated 40960 8388608 (by decide) (by decide) (by decide)

/-- The entries of the lists of a `PktRingBuffer` at one index. A small packet has a `maxfragnum` of 0. -/
structure PktSlot where
  valid : Bool
  optype : PacketType
  key : Key
  dynamicbuf : DynamicArray
  curfragnum : Nat
  maxfragnum : Nat
  clientaddr : SockAddr
  clientlogicalidx : UInt16
  fragseq : UInt32

def PktSlot.blank : PktSlot := ⟨false, .ofCode 0, ⟨0, 0, 0, 0⟩, packetBuffer, 0, 0, (0, 0), 0, 0⟩

structure PktRingBuffer extends RingQueue PktSlot where
  clientlogicalidxBufidxMap : UInt16 → Option Nat

namespace PktRingBuffer

def init (capacity : Nat) (positive : 0 < capacity) : PktRingBuffer :=
  { slots := fun _ => .blank
    head := 0
    tail := 0
    capacity := capacity
    head_lt := positive
    tail_lt := positive
    clientlogicalidxBufidxMap := fun _ => none }

/-- `push` of a small packet; `false` means that the ring is full. -/
def push (ring : PktRingBuffer) (optype : PacketType) (key : Key) (buf : List UInt8) (clientaddr : SockAddr) :
    Option (PktRingBuffer × Bool) :=
  if ring.IsFull then some (ring, false)
  else do
    let dynamicbuf ← packetBuffer.dynamicMemcpy 0 buf
    let slot : PktSlot := ⟨true, optype, key, dynamicbuf, 0, 0, clientaddr, 0, 0⟩
    some ({ ring with toRingQueue := ring.toRingQueue.push slot }, true)

def isClientlogicalidxExist (ring : PktRingBuffer) (clientlogicalidx : UInt16) : Option Bool :=
  match ring.clientlogicalidxBufidxMap clientlogicalidx with
  | none => some false
  | some bufidx => do
    guard ((ring.slots bufidx).valid = true)
    guard (0 < (ring.slots bufidx).maxfragnum)
    some true

def pushLarge (ring : PktRingBuffer) (optype : PacketType) (key : Key) (fraghdrBuf : List UInt8) (fragbodyOff : Nat)
    (fragbodyBuf : List UInt8) (curfragnum maxfragnum : Nat) (clientaddr : SockAddr) (clientlogicalidx : UInt16)
    (fragseq : UInt32) : Option (PktRingBuffer × Bool) := do
  guard (0 < maxfragnum)
  if ring.IsFull then some (ring, false)
  else
    let dynamicbuf ← packetBuffer.dynamicMemcpy 0 fraghdrBuf
    let dynamicbuf ← dynamicbuf.dynamicMemcpy fragbodyOff fragbodyBuf
    let slot : PktSlot := ⟨true, optype, key, dynamicbuf, curfragnum, maxfragnum, clientaddr,
      clientlogicalidx, fragseq⟩
    guard (ring.clientlogicalidxBufidxMap clientlogicalidx = none)
    some ({ ring with
      toRingQueue := ring.toRingQueue.push slot
      clientlogicalidxBufidxMap :=
        Function.update ring.clientlogicalidxBufidxMap clientlogicalidx (some ring.head) }, true)

/-- Copy a fragment header over the one in the buffer, where that is needed. -/
def copyFraghdr (needed : Bool) (buf : DynamicArray) (fraghdrBuf : List UInt8) : Option DynamicArray :=
  if needed then buf.dynamicMemcpy 0 fraghdrBuf else some buf

def updateSlot (slot : PktSlot) (optype : PacketType) (key : Key) (fraghdrBuf : List UInt8) (fragbodyOff : Nat)
    (fragbodyBuf : List UInt8) (clientlogicalidx : UInt16) (fragseq : UInt32) (isFrag0 : Bool) : Option PktSlot := do
  guard (slot.valid = true)
  guard (slot.optype.isSameOptype optype = true)
  guard (slot.key = key)
  let dynamicbuf ← slot.dynamicbuf.dynamicMemcpy fragbodyOff fragbodyBuf
  guard (0 < slot.maxfragnum)
  guard (slot.clientlogicalidx = clientlogicalidx)
  guard (slot.fragseq ≤ fragseq)
  -- a larger number starts a new attempt with this fragment
  let curfragnum := if slot.fragseq < fragseq then 1 else (slot.curfragnum + 1) % 2 ^ 16
  let dynamicbuf ← copyFraghdr (curfragnum == 1 || isFrag0) dynamicbuf fraghdrBuf
  some { slot with dynamicbuf := dynamicbuf, curfragnum := curfragnum, fragseq := fragseq }

def updateLarge (ring : PktRingBuffer) (optype : PacketType) (key : Key) (fraghdrBuf : List UInt8) (fragbodyOff : Nat)
    (fragbodyBuf : List UInt8) (clientlogicalidx : UInt16) (fragseq : UInt32) (isFrag0 : Bool) :
    Option PktRingBuffer := do
  let bufidx ← ring.clientlogicalidxBufidxMap clientlogicalidx
  let slot ← updateSlot (ring.slots bufidx) optype key fraghdrBuf fragbodyOff fragbodyBuf clientlogicalidx
    fragseq isFrag0
  some { ring with toRingQueue := ring.toRingQueue.write bufidx slot }

/-- `pop` into the caller's buffer; nothing comes of an empty ring. -/
def pop (ring : PktRingBuffer) (buf : DynamicArray) : Option (Option (PktSlot × DynamicArray × PktRingBuffer)) :=
  if ring.tail = ring.head then some none
  else do
    let slot := ring.slots ring.tail
    guard (slot.valid = true)
    let buf ← buf.clear.dynamicMemcpy 0 slot.dynamicbuf.content
    let map :=
      if 0 < slot.maxfragnum then Function.update ring.clientlogicalidxBufidxMap slot.clientlogicalidx none
      else ring.clientlogicalidxBufidxMap
    some (some (slot, buf,
      { ring with toRingQueue := ring.toRingQueue.pop .blank, clientlogicalidxBufidxMap := map }))

def Queued (ring : PktRingBuffer) (clientlogicalidx : UInt16) : Prop :=
  ∃ slot ∈ ring.contents, 0 < slot.maxfragnum ∧ slot.clientlogicalidx = clientlogicalidx

/-- The map leads from each client to the index of its large packet, and the queued packets are valid. -/
structure Consistent (ring : PktRingBuffer) : Prop where
  indexed : ∀ clientlogicalidx bufidx, ring.clientlogicalidxBufidxMap clientlogicalidx = some bufidx ↔
    ∃ i < ring.size, ring.position i = bufidx ∧ 0 < (ring.slots bufidx).maxfragnum ∧
      (ring.slots bufidx).clientlogicalidx = clientlogicalidx
  valid : ∀ slot ∈ ring.contents, slot.valid = true

theorem contents_init {capacity : Nat} (positive : 0 < capacity) : (init capacity positive).contents = [] := by
  have empty : (init capacity positive).size = 0 := (RingQueue.size_eq_zero_iff _).mpr rfl
  have size := (init capacity positive).length_contents
  rw [empty] at size
  exact List.eq_nil_of_length_eq_zero size

theorem consistent_init {capacity : Nat} (positive : 0 < capacity) : (init capacity positive).Consistent := by
  have empty : (init capacity positive).size = 0 := (RingQueue.size_eq_zero_iff _).mpr rfl
  refine ⟨fun client bufidx => ?_, fun slot member => ?_⟩
  · rw [empty]
    simp [init]
  · rw [contents_init] at member
    cases member

section Specifications

variable {ring : PktRingBuffer} (consistent : ring.Consistent)
include consistent

theorem Consistent.map_isSome_iff (clientlogicalidx : UInt16) :
    (∃ bufidx, ring.clientlogicalidxBufidxMap clientlogicalidx = some bufidx) ↔ ring.Queued clientlogicalidx := by
  constructor
  · rintro ⟨bufidx, found⟩
    obtain ⟨i, inside, rfl, large, client⟩ := (consistent.indexed _ _).mp found
    exact ⟨_, ring.mem_contents.mpr ⟨i, inside, rfl⟩, large, client⟩
  · rintro ⟨slot, member, large, client⟩
    obtain ⟨i, inside, rfl⟩ := ring.mem_contents.mp member
    exact ⟨ring.position i, (consistent.indexed _ _).mpr ⟨i, inside, rfl, large, client⟩⟩

variable {clientlogicalidx : UInt16} {map : UInt16 → Option Nat} {slot : PktSlot}

theorem Consistent.map_of_not_queued (free : ¬ ring.Queued clientlogicalidx) :
    ring.clientlogicalidxBufidxMap clientlogicalidx = none := by
  cases found : ring.clientlogicalidxBufidxMap clientlogicalidx with
  | none => rfl
  | some bufidx => exact absurd ((consistent.map_isSome_iff _).mp ⟨bufidx, found⟩) free

theorem Consistent.isClientlogicalidxExist_of_not_queued (free : ¬ ring.Queued clientlogicalidx) :
    ring.isClientlogicalidxExist clientlogicalidx = some false := by
  rw [isClientlogicalidxExist, consistent.map_of_not_queued free]

theorem Consistent.isClientlogicalidxExist_of_queued (queued : ring.Queued clientlogicalidx) :
    ring.isClientlogicalidxExist clientlogicalidx = some true := by
  obtain ⟨bufidx, found⟩ := (consistent.map_isSome_iff _).mpr queued
  obtain ⟨i, inside, rfl, large, _⟩ := (consistent.indexed _ _).mp found
  have valid := consistent.valid _ (ring.mem_contents.mpr ⟨i, inside, rfl⟩)
  simp [isClientlogicalidxExist, found, guard, valid, large]

theorem Consistent.pushed (room : ¬ ring.IsFull) (valid : slot.valid = true)
    (free : 0 < slot.maxfragnum → ¬ ring.Queued slot.clientlogicalidx)
    (entered : map = if 0 < slot.maxfragnum then
      Function.update ring.clientlogicalidxBufidxMap slot.clientlogicalidx (some ring.head)
      else ring.clientlogicalidxBufidxMap) :
    Consistent { ring with toRingQueue := ring.toRingQueue.push slot, clientlogicalidxBufidxMap := map } := by
  have small := ring.size_lt
  have size := ring.size_push slot room
  have contents := ring.contents_push slot room
  refine ⟨fun client bufidx => ?_, fun other member => ?_⟩
  · change map client = some bufidx ↔ ∃ i < (ring.toRingQueue.push slot).size, ring.position i = bufidx ∧
      0 < (Function.update ring.slots ring.head slot bufidx).maxfragnum ∧
      (Function.update ring.slots ring.head slot bufidx).clientlogicalidx = client
    rw [size]
    have old : ∀ i < ring.size, ring.position i ≠ ring.head := by
      intro i inside same
      rw [← ring.position_size] at same
      have equal := ring.position_injective (by omega) small same
      omega
    have before := consistent.indexed client bufidx
    have unmapped : ∀ other, ring.clientlogicalidxBufidxMap other ≠ some ring.head := by
      intro other found
      obtain ⟨i, inside, same, _⟩ := (consistent.indexed _ _).mp found
      exact old i inside same
    by_cases atHead : bufidx = ring.head
    · subst atHead
      rw [update_self, entered]
      constructor
      · intro found
        split at found
        · rename_i large
          by_cases same : client = slot.clientlogicalidx
          · exact ⟨ring.size, by omega, ring.position_size, large, same.symm⟩
          · rw [update_of_ne same] at found
            exact absurd found (unmapped _)
        · exact absurd found (unmapped _)
      · rintro ⟨i, inside, same, large, rfl⟩
        rw [if_pos large, update_self]
    · rw [update_of_ne atHead, entered]
      have same : (∃ i < ring.size + 1, ring.position i = bufidx ∧ 0 < (ring.slots bufidx).maxfragnum ∧
          (ring.slots bufidx).clientlogicalidx = client) ↔ ring.clientlogicalidxBufidxMap client = some bufidx := by
        rw [before]
        constructor
        · rintro ⟨i, inside, isIndex, rest⟩
          have apart : i ≠ ring.size := by
            rintro rfl
            exact atHead (isIndex ▸ ring.position_size)
          exact ⟨i, by omega, isIndex, rest⟩
        · rintro ⟨i, inside, rest⟩
          exact ⟨i, by omega, rest⟩
      rw [same]
      split
      · rename_i large
        by_cases own : client = slot.clientlogicalidx
        · subst own
          rw [update_self, consistent.map_of_not_queued (free large)]
          simp [Ne.symm atHead]
        · rw [update_of_ne own]
      · rfl
  · have inside : other ∈ (ring.toRingQueue.push slot).contents := member
    rw [contents, List.mem_append, List.mem_singleton] at inside
    rcases inside with queued | rfl
    · exact consistent.valid _ queued
    · exact valid

theorem Consistent.written {i : Nat} (inside : i < ring.size) (valid : slot.valid = true)
    (large : 0 < slot.maxfragnum) (wasLarge : 0 < (ring.slots (ring.position i)).maxfragnum)
    (same : slot.clientlogicalidx = (ring.slots (ring.position i)).clientlogicalidx) :
    Consistent { ring with toRingQueue := ring.toRingQueue.write (ring.position i) slot } := by
  have contents := ring.contents_write inside slot
  refine ⟨fun client bufidx => ?_, fun other member => ?_⟩
  · refine (consistent.indexed client bufidx).trans ?_
    change _ ↔ ∃ j < ring.size, ring.position j = bufidx ∧
      0 < (Function.update ring.slots (ring.position i) slot bufidx).maxfragnum ∧
      (Function.update ring.slots (ring.position i) slot bufidx).clientlogicalidx = client
    by_cases here : bufidx = ring.position i
    · subst here
      simp only [update_self, same, large, wasLarge]
    · simp only [update_of_ne here]
  · have inSet : other ∈ (ring.toRingQueue.write (ring.position i) slot).contents := member
    rw [contents] at inSet
    rcases List.mem_or_eq_of_mem_set inSet with queued | rfl
    · exact consistent.valid _ queued
    · exact valid

theorem Consistent.popped (nonempty : 0 < ring.size)
    (removed : map = if 0 < (ring.slots ring.tail).maxfragnum then
      Function.update ring.clientlogicalidxBufidxMap (ring.slots ring.tail).clientlogicalidx none
      else ring.clientlogicalidxBufidxMap) :
    Consistent { ring with toRingQueue := ring.toRingQueue.pop .blank, clientlogicalidxBufidxMap := map } := by
  have contents := ring.contents_pop .blank nonempty
  have size := ring.size_pop .blank nonempty
  have first : ring.position 0 = ring.tail := Nat.mod_eq_of_lt ring.tail_lt
  refine ⟨fun client bufidx => ?_, fun other member => ?_⟩
  · change map client = some bufidx ↔ ∃ i < (ring.toRingQueue.pop .blank).size,
      (ring.toRingQueue.pop .blank).position i = bufidx ∧
      0 < (Function.update ring.slots ring.tail .blank bufidx).maxfragnum ∧
      (Function.update ring.slots ring.tail .blank bufidx).clientlogicalidx = client
    simp only [RingQueue.position_pop]
    by_cases atTail : bufidx = ring.tail
    · subst atTail
      rw [update_self]
      have gone : map client ≠ some ring.tail := by
        intro found
        rw [removed] at found
        split at found
        · by_cases own : client = (ring.slots ring.tail).clientlogicalidx
          · subst own
            rw [update_self] at found
            cases found
          · rw [update_of_ne own] at found
            obtain ⟨_, _, _, _, owner⟩ := (consistent.indexed _ _).mp found
            exact own owner.symm
        · rename_i small
          obtain ⟨_, _, _, large, _⟩ := (consistent.indexed _ _).mp found
          exact small large
      refine iff_of_false gone ?_
      rintro ⟨i, _, _, large, _⟩
      exact absurd large (Nat.lt_irrefl 0)
    · rw [update_of_ne atTail]
      have same : (∃ i < (ring.toRingQueue.pop .blank).size, ring.position (i + 1) = bufidx ∧
          0 < (ring.slots bufidx).maxfragnum ∧ (ring.slots bufidx).clientlogicalidx = client) ↔
          ring.clientlogicalidxBufidxMap client = some bufidx := by
        rw [consistent.indexed]
        constructor
        · rintro ⟨i, inside, rest⟩
          exact ⟨i + 1, by omega, rest⟩
        · rintro ⟨i, inside, isIndex, rest⟩
          cases i with
          | zero => exact absurd (isIndex.symm.trans first) atTail
          | succ i => exact ⟨i, by omega, isIndex, rest⟩
      rw [same, removed]
      split
      · rename_i large
        by_cases own : client = (ring.slots ring.tail).clientlogicalidx
        · subst own
          -- the map leads from this client to the tail only
          have atOwn := (consistent.indexed (ring.slots ring.tail).clientlogicalidx ring.tail).mpr
            ⟨0, nonempty, first, large, rfl⟩
          rw [update_self, atOwn]
          simp [Ne.symm atTail]
        · rw [update_of_ne own]
      · rfl
  · refine consistent.valid _ ?_
    rw [contents]
    exact List.mem_cons_of_mem _ member

end Specifications

section Operations

variable {ring : PktRingBuffer} (consistent : ring.Consistent)
include consistent

theorem push_spec {optype : PacketType} {key : Key} {buf : List UInt8} {clientaddr : SockAddr} (room : ¬ ring.IsFull)
    (fits : buf.length ≤ 8388608) :
    ∃ after slot, ring.push optype key buf clientaddr = some (after, true) ∧ after.Consistent ∧
      after.contents = ring.contents ++ [slot] ∧ after.capacity = ring.capacity ∧ slot.maxfragnum = 0 ∧
      slot.dynamicbuf.content = buf ∧ slot.clientaddr = clientaddr := by
  obtain ⟨dynamicbuf, copied, wrote⟩ := (writes_dynamicMemcpy packetBuffer 0 buf).1
    (by rw [Nat.zero_add]; exact fits)
  refine ⟨{ ring with toRingQueue := ring.toRingQueue.push ⟨true, optype, key, dynamicbuf, 0, 0, clientaddr, 0, 0⟩ },
    ⟨true, optype, key, dynamicbuf, 0, 0, clientaddr, 0, 0⟩, ?_, ?_, ring.contents_push _ room, rfl, rfl,
    wrote.content rfl, rfl⟩
  · rw [push, if_neg room, copied]
    rfl
  · exact consistent.pushed room rfl (fun large => absurd large (Nat.lt_irrefl 0)) rfl

theorem pushLarge_spec {optype : PacketType} {key : Key} {fraghdrBuf fragbodyBuf : List UInt8} {fragbodyOff curfragnum
    maxfragnum : Nat} {clientaddr : SockAddr} {clientlogicalidx : UInt16} {fragseq : UInt32}
      {first second : DynamicArray}
    (positive : 0 < maxfragnum) (room : ¬ ring.IsFull) (free : ¬ ring.Queued clientlogicalidx)
    (header : packetBuffer.dynamicMemcpy 0 fraghdrBuf = some first)
    (body : first.dynamicMemcpy fragbodyOff fragbodyBuf = some second) :
    ∃ after, ring.pushLarge optype key fraghdrBuf fragbodyOff fragbodyBuf curfragnum maxfragnum clientaddr
        clientlogicalidx fragseq = some (after, true) ∧ after.Consistent ∧ after.capacity = ring.capacity ∧
      after.contents = ring.contents ++
        [⟨true, optype, key, second, curfragnum, maxfragnum, clientaddr, clientlogicalidx, fragseq⟩] := by
  have unmapped := consistent.map_of_not_queued free
  refine ⟨{ ring with
    toRingQueue := ring.toRingQueue.push
      ⟨true, optype, key, second, curfragnum, maxfragnum, clientaddr, clientlogicalidx, fragseq⟩
    clientlogicalidxBufidxMap := Function.update ring.clientlogicalidxBufidxMap clientlogicalidx (some ring.head) },
    ?_, ?_, rfl, ring.contents_push _ room⟩
  · simp [pushLarge, guard, positive, room, header, body, unmapped]
  · exact consistent.pushed room rfl (fun _ => free) (if_pos positive).symm

/-- `update_large` works on the one large packet of the client. -/
theorem updateLarge_spec {clientlogicalidx : UInt16} (queued : ring.Queued clientlogicalidx) :
    ∃ before slot behind, ring.contents = before ++ slot :: behind ∧ slot.valid = true ∧ 0 < slot.maxfragnum ∧
      slot.clientlogicalidx = clientlogicalidx ∧
      ∀ optype key fraghdrBuf fragbodyOff fragbodyBuf fragseq isFrag0 updated,
        updateSlot slot optype key fraghdrBuf fragbodyOff fragbodyBuf clientlogicalidx fragseq isFrag0 =
          some updated →
        ∃ after, ring.updateLarge optype key fraghdrBuf fragbodyOff fragbodyBuf clientlogicalidx fragseq isFrag0 =
          some after ∧ after.Consistent ∧ after.capacity = ring.capacity ∧
          after.contents = before ++ updated :: behind := by
  obtain ⟨bufidx, found⟩ := (consistent.map_isSome_iff _).mpr queued
  obtain ⟨i, inside, rfl, large, client⟩ := (consistent.indexed _ _).mp found
  have length := ring.length_contents
  have here := ring.getElem?_contents inside
  have split : ring.contents = ring.contents.take i ++ ring.slots (ring.position i) ::
      ring.contents.drop (i + 1) := by
    obtain ⟨bound, isSlot⟩ := List.getElem?_eq_some_iff.mp here
    rw [← isSlot, List.cons_getElem_drop_succ, List.take_append_drop]
  have valid := consistent.valid _ (ring.mem_contents.mpr ⟨i, inside, rfl⟩)
  refine ⟨_, _, _, split, valid, large, client, ?_⟩
  intro optype key fraghdrBuf fragbodyOff fragbodyBuf fragseq isFrag0 updated update
  have kept : updated.valid = true ∧ updated.maxfragnum = (ring.slots (ring.position i)).maxfragnum ∧
      updated.clientlogicalidx = (ring.slots (ring.position i)).clientlogicalidx := by
    simp only [updateSlot, guard, Option.bind_eq_bind, Option.bind_eq_some_iff, Option.some.injEq] at update
    obtain ⟨_, _, _, _, _, _, _, _, _, _, _, _, _, _, _, _, rfl⟩ := update
    exact ⟨valid, rfl, rfl⟩
  refine ⟨{ ring with toRingQueue := ring.toRingQueue.write (ring.position i) updated }, ?_, ?_, rfl, ?_⟩
  · simp [updateLarge, found, update]
  · exact consistent.written inside kept.1 (kept.2.1 ▸ large) large kept.2.2
  · refine (ring.contents_write inside updated).trans ?_
    rw [List.set_eq_take_append_cons_drop, if_pos (by omega)]

omit consistent in
theorem pop_empty (buf : DynamicArray) (empty : ring.contents = []) : ring.pop buf = some none := by
  have size := ring.length_contents
  rw [empty, List.length_nil] at size
  have same := ring.size_eq_zero_iff.mp size.symm
  rw [pop, if_pos same]

theorem pop_spec {buf : DynamicArray} {slot : PktSlot} {rest : List PktSlot} (queue : ring.contents = slot :: rest)
    (fits : slot.dynamicbuf.content.length ≤ buf.maxcapability) :
    ∃ after popped, ring.pop buf = some (some (slot, popped, after)) ∧
      Wrote buf.clear 0 slot.dynamicbuf.content popped ∧
      after.Consistent ∧ after.capacity = ring.capacity ∧ after.contents = rest ∧
      (0 < slot.maxfragnum → ¬ after.Queued slot.clientlogicalidx) := by
  have size := ring.length_contents
  rw [queue, List.length_cons] at size
  have nonempty : 0 < ring.size := by omega
  have apart : ring.tail ≠ ring.head := fun same => by
    have zero := ring.size_eq_zero_iff.mpr same
    omega
  have contents := ring.contents_pop .blank nonempty
  rw [queue, List.cons.injEq] at contents
  have valid := consistent.valid slot (by rw [queue]; exact List.mem_cons_self)
  obtain ⟨popped, copied, wrote⟩ := (writes_dynamicMemcpy buf.clear 0 slot.dynamicbuf.content).1
    (by rw [Nat.zero_add]; exact fits)
  have kept : Consistent { ring with
      toRingQueue := ring.toRingQueue.pop .blank
      clientlogicalidxBufidxMap := if 0 < slot.maxfragnum then
        Function.update ring.clientlogicalidxBufidxMap slot.clientlogicalidx none
          else ring.clientlogicalidxBufidxMap } := by
    rw [contents.1]
    exact consistent.popped nonempty rfl
  refine ⟨_, popped, ?_, wrote, kept, rfl, contents.2.symm, fun large queued => ?_⟩
  · rw [pop, if_neg apart]
    simp [← contents.1, guard, valid, copied]
  · obtain ⟨bufidx, found⟩ := (kept.map_isSome_iff _).mpr queued
    rw [if_pos large] at found
    have removed : Function.update ring.clientlogicalidxBufidxMap slot.clientlogicalidx none slot.clientlogicalidx =
        some bufidx := found
    rw [update_self] at removed
    cases removed

end Operations

theorem not_isFull {ring : PktRingBuffer} (room : ring.contents.length + 1 < ring.capacity) : ¬ ring.IsFull := by
  rw [ring.isFull_iff, ← ring.length_contents]
  omega

end PktRingBuffer

end FarReach
