import FarReach.DynamicArrayRuns
import FarReach.PktRingBuffer
import FarReach.Runs

namespace FarReach

open Bytes DynamicArray

structure BufferedPacket where
  optype : PacketType
  key : Key
  content : List UInt8
  curfragnum : Nat
  maxfragnum : Nat
  clientaddr : SockAddr
  clientlogicalidx : UInt16
  fragseq : UInt32
  deriving DecidableEq, Repr

inductive RingCall where
  | push (optype : PacketType) (key : Key) (buf : List UInt8) (clientaddr : SockAddr)
  | pushLarge (optype : PacketType) (key : Key) (fraghdrBuf : List UInt8) (fragbodyOff : Nat)
    (fragbodyBuf : List UInt8)
      (curfragnum maxfragnum : Nat) (clientaddr : SockAddr) (clientlogicalidx : UInt16) (fragseq : UInt32)
  | updateLarge (optype : PacketType) (key : Key) (fraghdrBuf : List UInt8) (fragbodyOff : Nat)
      (fragbodyBuf : List UInt8) (clientlogicalidx : UInt16) (fragseq : UInt32) (isFrag0 : Bool)
  | pop (buf : DynamicArray)

inductive RingResult where
  | pushed (stored : Bool)
  | updated
  | popped (packet : Option BufferedPacket)
  deriving DecidableEq, Repr

namespace BufferedPacket

def isLargeOf (clientlogicalidx : UInt16) (packet : BufferedPacket) : Bool :=
  decide (0 < packet.maxfragnum) && packet.clientlogicalidx == clientlogicalidx

/-- The number of fragments with one more: a larger number of the attempt starts the count again. -/
def nextFragnum (curfragnum : Nat) (fragseq fragseq' : UInt32) : Nat :=
  if fragseq < fragseq' then 1 else (curfragnum + 1) % 2 ^ 16

/-- The update of a large packet with one more fragment, if it meets what `update_large` checks: the same type and
key, no smaller number, and no byte beyond MAX_LARGE_BUFSIZE. The header counts for the first fragment of an attempt
and for fragment 0. -/
def update (packet : BufferedPacket) (optype : PacketType) (key : Key) (fraghdrBuf : List UInt8) (fragbodyOff : Nat)
    (fragbodyBuf : List UInt8) (fragseq : UInt32) (isFrag0 : Bool) : Option BufferedPacket := do
  let curfragnum := nextFragnum packet.curfragnum packet.fragseq fragseq
  let withHeader := curfragnum == 1 || isFrag0
  guard (packet.optype.isSameOptype optype = true ∧ packet.key = key ∧ packet.fragseq ≤ fragseq)
  guard (fragbodyOff + fragbodyBuf.length ≤ 8388608 ∧ (withHeader = true → fraghdrBuf.length ≤ 8388608))
  let content := splice 0 packet.content fragbodyOff fragbodyBuf
  some { packet with
    content := if withHeader then splice 0 content 0 fraghdrBuf else content
    curfragnum := curfragnum
    fragseq := fragseq }

end BufferedPacket

/-- The bounded queue, with the oldest packet first: a packet is appended unless `capacity - 1` are held, the large
packet of a client is updated in its place, and the oldest packet is taken out. -/
def fifoCall (capacity : Nat) (queue : List BufferedPacket) : RingCall → Option (List BufferedPacket × RingResult)
  | .push optype key buf clientaddr =>
    if queue.length = capacity - 1 then some (queue, .pushed false)
    else do
      guard (buf.length ≤ 8388608)
      some (queue ++ [⟨optype, key, buf, 0, 0, clientaddr, 0, 0⟩], .pushed true)
  | .pushLarge optype key fraghdrBuf fragbodyOff fragbodyBuf curfragnum maxfragnum clientaddr clientlogicalidx
    fragseq => do
    guard (0 < maxfragnum)
    if queue.length = capacity - 1 then some (queue, .pushed false)
    else do
      guard (fraghdrBuf.length ≤ 8388608 ∧ fragbodyOff + fragbodyBuf.length ≤ 8388608)
      guard (∀ packet ∈ queue, packet.isLargeOf clientlogicalidx = false)
      some (queue ++ [⟨optype, key, splice 0 fraghdrBuf fragbodyOff fragbodyBuf, curfragnum, maxfragnum, clientaddr,
        clientlogicalidx, fragseq⟩], .pushed true)
  | .updateLarge optype key fraghdrBuf fragbodyOff fragbodyBuf clientlogicalidx fragseq isFrag0 => do
    let i ← queue.findIdx? (BufferedPacket.isLargeOf clientlogicalidx)
    let packet ← queue[i]?
    let updated ← packet.update optype key fraghdrBuf fragbodyOff fragbodyBuf fragseq isFrag0
    some (queue.set i updated, .updated)
  | .pop buf =>
    match queue with
    | [] => some ([], .popped none)
    | packet :: rest => do
      guard (packet.content.length ≤ buf.maxcapability)
      some (rest, .popped (some packet))

def PktSlot.packet (slot : PktSlot) (content : List UInt8) : BufferedPacket :=
  ⟨slot.optype, slot.key, content, slot.curfragnum, slot.maxfragnum, slot.clientaddr, slot.clientlogicalidx,
    slot.fragseq⟩

namespace PktRingBuffer

/-- A call of the ring buffer; `pop` returns the bytes in the caller's buffer. -/
def call (ring : PktRingBuffer) : RingCall → Option (PktRingBuffer × RingResult)
  | .push optype key buf clientaddr => do
    let (ring, stored) ← ring.push optype key buf clientaddr
    some (ring, .pushed stored)
  | .pushLarge optype key fraghdrBuf fragbodyOff fragbodyBuf curfragnum maxfragnum clientaddr clientlogicalidx
    fragseq => do
    let (ring, stored) ← ring.pushLarge optype key fraghdrBuf fragbodyOff fragbodyBuf curfragnum maxfragnum clientaddr
      clientlogicalidx fragseq
    some (ring, .pushed stored)
  | .updateLarge optype key fraghdrBuf fragbodyOff fragbodyBuf clientlogicalidx fragseq isFrag0 => do
    let ring ← ring.updateLarge optype key fraghdrBuf fragbodyOff fragbodyBuf clientlogicalidx fragseq isFrag0
    some (ring, .updated)
  | .pop buf => do
    match ← ring.pop buf with
    | none => some (ring, .popped none)
    | some (slot, buf, ring) => some (ring, .popped (some (slot.packet buf.content)))

end PktRingBuffer

structure PktSlot.Stores (slot : PktSlot) (packet : BufferedPacket) : Prop where
  fields : slot.packet packet.content = packet
  bytes : slot.dynamicbuf.toState.Represents packet.content
  limit : slot.dynamicbuf.maxcapability = 8388608

/-- The ring buffer holds the packets of the queue, and its map leads from the client of each large packet to the
slot of that packet, and from nowhere else. -/
structure PktRingBuffer.Implements (ring : PktRingBuffer) (queue : List BufferedPacket) : Prop where
  consistent : ring.Consistent
  stored : List.Forall₂ PktSlot.Stores ring.contents queue
  map : ∀ clientlogicalidx bufidx, ring.clientlogicalidxBufidxMap clientlogicalidx = some bufidx ↔
    ∃ i packet, queue[i]? = some packet ∧ packet.isLargeOf clientlogicalidx = true ∧ ring.position i = bufidx

section Buffers

theorem DynamicArray.represents_clear (buf : DynamicArray) : buf.clear.toState.Represents [] := by
  have low := buf.mincapability_le.trans buf.curcapability_le
  have bounded := buf.bounded
  exact ArrayState.represents_blank low (by omega)

theorem represents_packetBuffer : packetBuffer.toState.Represents [] := packetBuffer.represents_clear

variable {buf : DynamicArray} {content : List UInt8}

theorem DynamicArray.content_of_represents (represents : buf.toState.Represents content) : buf.content = content := by
  have size : buf.cursize = content.length := represents.cursize
  rw [DynamicArray.content, size]
  exact represents.padded.take

/-- A copy succeeds exactly if it stays below the maximum capability. -/
theorem DynamicArray.dynamicMemcpy_cases (represents : buf.toState.Represents content) (off : Nat)
    (bytes : List UInt8) :
    (off + bytes.length ≤ buf.maxcapability ∧ ∃ after, buf.dynamicMemcpy off bytes = some after ∧
      after.toState.Represents (splice 0 content off bytes) ∧ after.maxcapability = buf.maxcapability) ∨
    (¬ off + bytes.length ≤ buf.maxcapability ∧ buf.dynamicMemcpy off bytes = none) := by
  by_cases fits : off + bytes.length ≤ buf.maxcapability
  · exact Or.inl ⟨fits, dynamicMemcpy_represents represents fits⟩
  · exact Or.inr ⟨fits, (writes_dynamicMemcpy buf off bytes).2 (Nat.lt_of_not_le fits)⟩

end Buffers

theorem forall₂_getElem? {α β : Type} {related : α → β → Prop} {left : List α} {right : List β}
    (both : List.Forall₂ related left right) (i : Nat) : Option.Rel related left[i]? right[i]? := by
  induction both generalizing i with
  | nil => exact .none
  | cons first _ ih =>
    cases i with
    | zero => exact .some first
    | succ i => exact ih i

theorem forall₂_set {α β : Type} {related : α → β → Prop} {left : List α} {right : List β}
    (both : List.Forall₂ related left right) (i : Nat) {one : α} {two : β} (new : related one two) :
    List.Forall₂ related (left.set i one) (right.set i two) := by
  induction both generalizing i with
  | nil => exact .nil
  | cons first rest ih =>
    cases i with
    | zero => exact .cons new rest
    | succ i => exact .cons first (ih i)

theorem PktSlot.Stores.isLargeOf_iff {slot : PktSlot} {packet : BufferedPacket} (stores : slot.Stores packet)
    (clientlogicalidx : UInt16) : packet.isLargeOf clientlogicalidx = true ↔
      0 < slot.maxfragnum ∧ slot.clientlogicalidx = clientlogicalidx := by
  rw [← stores.fields, BufferedPacket.isLargeOf, Bool.and_eq_true, decide_eq_true_eq, beq_iff_eq]
  rfl

namespace PktRingBuffer

variable {ring : PktRingBuffer} {queue : List BufferedPacket}

variable {i : Nat} {packet : BufferedPacket} {clientlogicalidx : UInt16}

theorem getElem?_queue_iff (stored : List.Forall₂ PktSlot.Stores ring.contents queue) :
    queue[i]? = some packet → i < ring.size ∧ (ring.slots (ring.position i)).Stores packet := by
  intro found
  have same := forall₂_getElem? stored i
  rw [found] at same
  have inside : i < ring.size := by
    have bound := (List.getElem?_eq_some_iff.mp found).1
    rw [← stored.length_eq, ring.length_contents] at bound
    exact bound
  rw [ring.getElem?_contents inside] at same
  cases same with
  | some stores => exact ⟨inside, stores⟩

theorem exists_getElem?_queue (stored : List.Forall₂ PktSlot.Stores ring.contents queue) (inside : i < ring.size) :
    ∃ packet, queue[i]? = some packet ∧ (ring.slots (ring.position i)).Stores packet := by
  have same := forall₂_getElem? stored i
  rw [ring.getElem?_contents inside] at same
  generalize queue[i]? = found at same
  cases same with
  | some stores => exact ⟨_, rfl, stores⟩

/-- The map of a consistent ring in terms of the queue. -/
theorem Implements.of_stored (consistent : ring.Consistent)
    (stored : List.Forall₂ PktSlot.Stores ring.contents queue) :
    ring.Implements queue := by
  refine ⟨consistent, stored, fun clientlogicalidx bufidx => ?_⟩
  rw [consistent.indexed]
  constructor
  · rintro ⟨i, inside, rfl, large, client⟩
    obtain ⟨packet, found, stores⟩ := exists_getElem?_queue stored inside
    exact ⟨i, packet, found, (stores.isLargeOf_iff _).mpr ⟨large, client⟩, rfl⟩
  · rintro ⟨i, packet, found, large, rfl⟩
    obtain ⟨inside, stores⟩ := getElem?_queue_iff stored found
    obtain ⟨positive, client⟩ := (stores.isLargeOf_iff _).mp large
    exact ⟨i, inside, rfl, positive, client⟩

theorem Implements.isFull_iff (implements' : ring.Implements queue) :
    ring.IsFull ↔ queue.length = ring.capacity - 1 := by
  have positive := Nat.zero_lt_of_lt ring.head_lt
  rw [ring.isFull_iff, ← implements'.stored.length_eq, ring.length_contents]
  omega

/-- No large packet of the client is in the queue exactly if the map does not have the client. -/
theorem Implements.map_eq_none_iff (implements' : ring.Implements queue) (clientlogicalidx : UInt16) :
    ring.clientlogicalidxBufidxMap clientlogicalidx = none ↔
      ∀ packet ∈ queue, packet.isLargeOf clientlogicalidx = false := by
  constructor
  · intro free packet member
    obtain ⟨i, found⟩ := List.getElem?_of_mem member
    cases large : packet.isLargeOf clientlogicalidx with
    | false => rfl
    | true =>
      have mapped := (implements'.map clientlogicalidx _).mpr ⟨i, packet, found, large, rfl⟩
      rw [free] at mapped
      cases mapped
  · intro free
    cases found : ring.clientlogicalidxBufidxMap clientlogicalidx with
    | none => rfl
    | some bufidx =>
      obtain ⟨i, packet, here, large, _⟩ := (implements'.map _ _).mp found
      rw [free packet (List.mem_of_getElem? here)] at large
      cases large

theorem Implements.not_queued (implements' : ring.Implements queue)
    (free : ring.clientlogicalidxBufidxMap clientlogicalidx = none) : ¬ ring.Queued clientlogicalidx := by
  intro queued
  obtain ⟨bufidx, found⟩ := (implements'.consistent.map_isSome_iff _).mpr queued
  rw [free] at found
  cases found

def Fifo (capacity : Nat) (ring : PktRingBuffer) (queue : List BufferedPacket) : Prop :=
  ring.Implements queue ∧ ring.capacity = capacity

/-- The two calls fail together, or give one result and keep the queue implemented. -/
def Agree (capacity : Nat) : Option (PktRingBuffer × RingResult) → Option (List BufferedPacket × RingResult) → Prop :=
  Option.Rel fun one two => Fifo capacity one.1 two.1 ∧ one.2 = two.2

variable {capacity : Nat}

theorem Fifo.push (fifo : Fifo capacity ring queue) (optype : PacketType) (key : Key) (buf : List UInt8)
    (clientaddr : SockAddr) :
    Agree capacity (ring.call (.push optype key buf clientaddr))
      (fifoCall capacity queue (.push optype key buf clientaddr)) := by
  obtain ⟨implements', rfl⟩ := fifo
  have fullIff := implements'.isFull_iff
  by_cases full : ring.IsFull
  · simp only [PktRingBuffer.call, fifoCall, PktRingBuffer.push, full, fullIff.mp full, if_true, Option.bind_eq_bind,
      Option.bind_some]
    exact .some ⟨⟨implements', rfl⟩, rfl⟩
  have notFull : ¬ queue.length = ring.capacity - 1 := fun same => full (fullIff.mpr same)
  rcases dynamicMemcpy_cases represents_packetBuffer 0 buf
    with ⟨fits, dynamicbuf, copied, bytes, limit⟩ | ⟨exceeds, failed⟩
  · rw [splice_nil_zero] at bytes
    have small : buf.length ≤ 8388608 := by
      rw [Nat.zero_add] at fits
      exact fits
    simp only [PktRingBuffer.call, fifoCall, PktRingBuffer.push, full, notFull, if_false, copied, guard,
      small, if_true, Option.pure_def, Option.bind_eq_bind, Option.bind_some]
    refine .some ⟨⟨.of_stored ?_ ?_, rfl⟩, rfl⟩
    · exact implements'.consistent.pushed full rfl (fun large => absurd large (Nat.lt_irrefl 0)) rfl
    · exact (ring.contents_push _ full).symm ▸ List.rel_append implements'.stored (.cons ⟨rfl, bytes, limit⟩ .nil)
  · have large : ¬ buf.length ≤ 8388608 := by
      rw [Nat.zero_add] at exceeds
      exact exceeds
    simp only [PktRingBuffer.call, fifoCall, PktRingBuffer.push, full, notFull, if_false, failed, guard, large,
      Option.bind_eq_bind, Option.bind_none]
    exact .none

theorem Fifo.pushLarge (fifo : Fifo capacity ring queue) (optype : PacketType) (key : Key) (fraghdrBuf : List UInt8)
    (fragbodyOff : Nat) (fragbodyBuf : List UInt8) (curfragnum maxfragnum : Nat) (clientaddr : SockAddr)
    (clientlogicalidx : UInt16) (fragseq : UInt32) :
    Agree capacity
      (ring.call (.pushLarge optype key fraghdrBuf fragbodyOff fragbodyBuf curfragnum maxfragnum clientaddr
        clientlogicalidx fragseq))
      (fifoCall capacity queue (.pushLarge optype key fraghdrBuf fragbodyOff fragbodyBuf curfragnum
        maxfragnum clientaddr clientlogicalidx fragseq)) := by
  obtain ⟨implements', rfl⟩ := fifo
  have fullIff := implements'.isFull_iff
  by_cases positive : 0 < maxfragnum
  swap
  · simp only [PktRingBuffer.call, fifoCall, PktRingBuffer.pushLarge, guard, positive, if_false]
    exact .none
  by_cases full : ring.IsFull
  · simp only [PktRingBuffer.call, fifoCall, PktRingBuffer.pushLarge, guard, positive, full, fullIff.mp full, if_true,
      Option.pure_def, Option.bind_eq_bind, Option.bind_some]
    exact .some ⟨⟨implements', rfl⟩, rfl⟩
  have notFull : ¬ queue.length = ring.capacity - 1 := fun same => full (fullIff.mpr same)
  simp only [PktRingBuffer.call, fifoCall, PktRingBuffer.pushLarge, guard, positive, full, notFull, if_true, if_false,
    Option.pure_def, Option.bind_eq_bind, Option.bind_some]
  -- the header and then the body are copied into a cleared buffer
  rcases dynamicMemcpy_cases represents_packetBuffer 0 fraghdrBuf
    with ⟨fits, first, copied, bytes, limit⟩ | ⟨exceeds, failed⟩
  swap
  · have wide : ¬ (fraghdrBuf.length ≤ 8388608 ∧ fragbodyOff + fragbodyBuf.length ≤ 8388608) := fun both =>
      exceeds (by rw [Nat.zero_add]; exact both.1)
    simp only [failed, wide, if_false, Option.bind_none]
    exact .none
  rw [splice_nil_zero] at bytes
  rcases dynamicMemcpy_cases bytes fragbodyOff fragbodyBuf
    with ⟨fits', second, copied', bytes', limit'⟩ | ⟨exceeds, failed⟩
  swap
  · have wide : ¬ (fraghdrBuf.length ≤ 8388608 ∧ fragbodyOff + fragbodyBuf.length ≤ 8388608) := fun both =>
      exceeds (by rw [limit]; exact both.2)
    simp only [copied, failed, wide, if_false, Option.bind_some, Option.bind_none]
    exact .none
  rw [limit] at fits' limit'
  have room : fraghdrBuf.length ≤ 8388608 ∧ fragbodyOff + fragbodyBuf.length ≤ 8388608 :=
    ⟨by rw [Nat.zero_add] at fits; exact fits, fits'⟩
  by_cases free : ring.clientlogicalidxBufidxMap clientlogicalidx = none
  · have none := (implements'.map_eq_none_iff _).mp free
    simp only [copied, copied', room, and_self, free, if_true, Option.bind_some]
    rw [if_pos none]
    refine .some ⟨⟨.of_stored ?_ ?_, rfl⟩, rfl⟩
    · exact implements'.consistent.pushed full rfl (fun _ => implements'.not_queued free) (if_pos positive).symm
    · exact (ring.contents_push _ full).symm ▸ List.rel_append implements'.stored (.cons ⟨rfl, bytes', limit'⟩ .nil)
  · have some := fun none => free ((implements'.map_eq_none_iff _).mpr none)
    simp only [copied, copied', room, and_self, free, if_true, if_false, Option.bind_some]
    rw [if_neg some]
    exact .none

theorem updateSlot_rel {slot : PktSlot} (stores : slot.Stores packet) (valid : slot.valid = true)
    (large : 0 < slot.maxfragnum) (client : slot.clientlogicalidx = clientlogicalidx) (optype : PacketType)
    (key : Key) (fraghdrBuf : List UInt8) (fragbodyOff : Nat) (fragbodyBuf : List UInt8) (fragseq : UInt32)
    (isFrag0 : Bool) :
    Option.Rel (fun slot' packet' => slot'.Stores packet' ∧ slot'.valid = true ∧ slot'.maxfragnum = slot.maxfragnum ∧
        slot'.clientlogicalidx = slot.clientlogicalidx)
      (updateSlot slot optype key fraghdrBuf fragbodyOff fragbodyBuf clientlogicalidx fragseq isFrag0)
      (packet.update optype key fraghdrBuf fragbodyOff fragbodyBuf fragseq isFrag0) := by
  obtain ⟨fields, bytes, limit⟩ := stores
  generalize packet.content = content at fields bytes
  subst fields client
  unfold updateSlot BufferedPacket.update
  have number : (if slot.fragseq < fragseq then 1 else (slot.curfragnum + 1) % 2 ^ 16) =
      BufferedPacket.nextFragnum slot.curfragnum slot.fragseq fragseq := rfl
  simp only [guard, valid, large, if_true, Option.pure_def, Option.bind_eq_bind, Option.bind_some,
    PktSlot.packet, number]
  by_cases sameType : slot.optype.isSameOptype optype = true
  swap
  · simp only [sameType, false_and, Bool.false_eq_true, if_false]
    exact .none
  by_cases sameKey : slot.key = key
  swap
  · simp only [sameType, sameKey, false_and, and_false, if_false, if_true, Option.bind_some]
    exact .none
  by_cases notSmaller : slot.fragseq ≤ fragseq
  swap
  · simp only [sameType, sameKey, notSmaller, and_false, if_false, if_true, Option.bind_some]
    cases slot.dynamicbuf.dynamicMemcpy fragbodyOff fragbodyBuf <;> exact .none
  simp only [sameType, sameKey, notSmaller, and_self, if_true, Option.bind_some]
  rcases dynamicMemcpy_cases bytes fragbodyOff fragbodyBuf
    with ⟨fits, first, copied, bytes', limit'⟩ | ⟨exceeds, failed⟩
  swap
  · rw [limit] at exceeds
    simp only [failed, exceeds, false_and, if_false, Option.bind_none]
    exact .none
  rw [limit] at fits limit'
  rcases Bool.eq_false_or_eq_true (BufferedPacket.nextFragnum slot.curfragnum slot.fragseq fragseq == 1 || isFrag0)
    with header | noHeader
  · rcases dynamicMemcpy_cases bytes' 0 fraghdrBuf with ⟨fits', second, copied', bytes'', limit''⟩ | ⟨exceeds, failed⟩
    · rw [limit', Nat.zero_add] at fits'
      rw [limit'] at limit''
      simp only [copied, copied', header, copyFraghdr, fits, fits', implies_true, and_self, if_true, Option.bind_some]
      exact .some ⟨⟨rfl, bytes'', limit''⟩, rfl, rfl, rfl⟩
    · rw [limit', Nat.zero_add] at exceeds
      simp only [copied, failed, header, copyFraghdr, fits, exceeds, forall_const, and_false, if_true, if_false,
        Option.bind_some, Option.bind_none]
      exact .none
  · simp only [copied, noHeader, copyFraghdr, fits, Bool.false_eq_true, false_implies, and_self, if_false, if_true,
      Option.bind_some]
    exact .some ⟨⟨rfl, bytes', limit'⟩, rfl, rfl, rfl⟩

theorem Fifo.updateLarge (fifo : Fifo capacity ring queue) (optype : PacketType) (key : Key) (fraghdrBuf : List UInt8)
    (fragbodyOff : Nat) (fragbodyBuf : List UInt8) (clientlogicalidx : UInt16) (fragseq : UInt32) (isFrag0 : Bool) :
    Agree capacity
      (ring.call (.updateLarge optype key fraghdrBuf fragbodyOff fragbodyBuf clientlogicalidx fragseq isFrag0))
      (fifoCall capacity queue
        (.updateLarge optype key fraghdrBuf fragbodyOff fragbodyBuf clientlogicalidx fragseq isFrag0)) := by
  obtain ⟨implements', rfl⟩ := fifo
  cases index : queue.findIdx? (BufferedPacket.isLargeOf clientlogicalidx) with
  | none =>
    have free := (implements'.map_eq_none_iff clientlogicalidx).mpr (List.findIdx?_eq_none_iff.mp index)
    simp only [PktRingBuffer.call, fifoCall, PktRingBuffer.updateLarge, index, free, Option.bind_eq_bind,
      Option.bind_none]
    exact .none
  | some i =>
    obtain ⟨bound, large, _⟩ := List.findIdx?_eq_some_iff_getElem.mp index
    have found : queue[i]? = some queue[i] := List.getElem?_eq_getElem bound
    have mapped := (implements'.map clientlogicalidx (ring.position i)).mpr ⟨i, _, found, large, rfl⟩
    obtain ⟨inside, stores⟩ := getElem?_queue_iff implements'.stored found
    obtain ⟨wasLarge, client⟩ := (stores.isLargeOf_iff clientlogicalidx).mp large
    have valid := implements'.consistent.valid _ (ring.mem_contents.mpr ⟨i, inside, rfl⟩)
    have update := updateSlot_rel stores valid wasLarge client optype key fraghdrBuf fragbodyOff fragbodyBuf
      fragseq isFrag0
    simp only [PktRingBuffer.call, fifoCall, PktRingBuffer.updateLarge, index, mapped, found, Option.bind_eq_bind,
      Option.bind_some]
    generalize updateSlot _ _ _ _ _ _ _ _ _ = one at update
    generalize BufferedPacket.update _ _ _ _ _ _ _ _ = two at update
    cases update with
    | none => exact .none
    | @some slot packet kept =>
      obtain ⟨storesNew, validNew, sameNumber, sameClient⟩ := kept
      refine .some ⟨⟨.of_stored ?_ ?_, rfl⟩, rfl⟩
      · exact implements'.consistent.written inside validNew (sameNumber ▸ wasLarge) wasLarge sameClient
      · exact (ring.contents_write inside slot).symm ▸ forall₂_set implements'.stored i storesNew

theorem Fifo.pop (fifo : Fifo capacity ring queue) (buf : DynamicArray) :
    Agree capacity (ring.call (.pop buf)) (fifoCall capacity queue (.pop buf)) := by
  obtain ⟨implements', rfl⟩ := fifo
  obtain ⟨consistent, stored, _⟩ := implements'
  cases queue with
  | nil =>
    have empty : ring.contents = [] := List.forall₂_nil_right_iff.mp stored
    simp only [PktRingBuffer.call, fifoCall, ring.pop_empty buf empty, Option.bind_eq_bind, Option.bind_some]
    exact .some ⟨⟨.of_stored consistent stored, rfl⟩, rfl⟩
  | cons packet rest =>
    have size := ring.length_contents
    rw [stored.length_eq, List.length_cons] at size
    have nonempty : 0 < ring.size := by omega
    have apart : ring.tail ≠ ring.head := fun same => by
      have zero := ring.size_eq_zero_iff.mpr same
      omega
    have contents := ring.contents_pop .blank nonempty
    rw [contents, List.forall₂_cons] at stored
    obtain ⟨stores, storedRest⟩ := stored
    have valid := consistent.valid (ring.slots ring.tail) (by rw [contents]; exact List.mem_cons_self)
    have bytes := content_of_represents stores.bytes
    rcases dynamicMemcpy_cases buf.represents_clear 0 packet.content with
      ⟨fits, popped, copied, kept, _⟩ | ⟨exceeds, failed⟩
    · have small : packet.content.length ≤ buf.maxcapability := by
        rw [Nat.zero_add] at fits
        exact fits
      rw [splice_nil_zero] at kept
      simp only [PktRingBuffer.call, fifoCall, PktRingBuffer.pop, apart, if_false, guard, valid, bytes, copied, small,
        if_true, Option.pure_def, Option.bind_eq_bind, Option.bind_some]
      refine .some ⟨⟨.of_stored (consistent.popped nonempty rfl) storedRest, rfl⟩, ?_⟩
      rw [content_of_represents kept, stores.fields]
    · have large : ¬ packet.content.length ≤ buf.maxcapability := by
        rw [Nat.zero_add] at exceeds
        exact exceeds
      simp only [PktRingBuffer.call, fifoCall, PktRingBuffer.pop, apart, if_false, guard, valid, bytes, failed, large,
        if_true, Option.pure_def, Option.bind_eq_bind, Option.bind_some, Option.bind_none]
      exact .none

theorem Fifo.call (ring : PktRingBuffer) (queue : List BufferedPacket) (call : RingCall)
    (fifo : Fifo capacity ring queue) : Agree capacity (ring.call call) (fifoCall capacity queue call) := by
  cases call with
  | push optype key buf clientaddr => exact fifo.push optype key buf clientaddr
  | pushLarge optype key fraghdrBuf fragbodyOff fragbodyBuf curfragnum maxfragnum clientaddr
    clientlogicalidx fragseq =>
    exact fifo.pushLarge optype key fraghdrBuf fragbodyOff fragbodyBuf curfragnum maxfragnum clientaddr
      clientlogicalidx fragseq
  | updateLarge optype key fraghdrBuf fragbodyOff fragbodyBuf clientlogicalidx fragseq isFrag0 =>
    exact fifo.updateLarge optype key fraghdrBuf fragbodyOff fragbodyBuf clientlogicalidx fragseq isFrag0
  | pop buf => exact fifo.pop buf

end PktRingBuffer

/-- Every sequence of calls on a ring buffer runs as on the bounded queue: a call fails a check in both or in none of
them, the results are the same, and the queue with the map of its large packets is what the ring buffer holds. -/
theorem ringBuffer_refines_fifo (capacity : Nat) (positive : 0 < capacity) (calls : List RingCall) :
    Option.Rel (fun ring queue => ring.1.Implements queue.1 ∧ ring.2 = queue.2)
      (Runs.answers PktRingBuffer.call (PktRingBuffer.init capacity positive) calls)
      (Runs.answers (fifoCall capacity) [] calls) := by
  have start : PktRingBuffer.Fifo capacity (PktRingBuffer.init capacity positive) [] := by
    refine ⟨.of_stored (PktRingBuffer.consistent_init positive) ?_, rfl⟩
    rw [PktRingBuffer.contents_init]
    exact .nil
  have both := Runs.answers_rel PktRingBuffer.Fifo.call calls start
  generalize Runs.answers PktRingBuffer.call _ calls = one at both ⊢
  generalize Runs.answers (fifoCall capacity) [] calls = two at both ⊢
  cases both with
  | none => exact .none
  | some related => exact .some ⟨related.1.1, related.2⟩

/-- A small packet and a large one fill three slots but one; the update of the large packet is seen by its `pop`. -/
theorem ringBuffer_refines_fifo_three :
    ∃ ring, Runs.answers PktRingBuffer.call (PktRingBuffer.init 3 (by decide))
      [.push (.ofCode 1) ⟨1, 0, 0, 0⟩ [1, 2] (0, 7), .pushLarge .loadreq ⟨2, 0, 0, 0⟩ [9] 1 [3] 1 2 (0, 8) 5 0,
        .push (.ofCode 1) ⟨3, 0, 0, 0⟩ [4] (0, 7), .updateLarge .loadreq ⟨2, 0, 0, 0⟩ [9] 3 [6] 5 0 false,
        .pop packetBuffer, .pop packetBuffer, .pop packetBuffer] =
      some (ring, [.pushed true, .pushed true, .pushed false, .updated,
        .popped (some ⟨.ofCode 1, ⟨1, 0, 0, 0⟩, [1, 2], 0, 0, (0, 7), 0, 0⟩),
        .popped (some ⟨.loadreq, ⟨2, 0, 0, 0⟩, [9, 3, 0, 6], 2, 2, (0, 8), 5, 0⟩), .popped none]) := by
  have both := ringBuffer_refines_fifo 3 (by decide)
    [.push (.ofCode 1) ⟨1, 0, 0, 0⟩ [1, 2] (0, 7), .pushLarge .loadreq ⟨2, 0, 0, 0⟩ [9] 1 [3] 1 2 (0, 8) 5 0,
      .push (.ofCode 1) ⟨3, 0, 0, 0⟩ [4] (0, 7), .updateLarge .loadreq ⟨2, 0, 0, 0⟩ [9] 3 [6] 5 0 false,
      .pop packetBuffer, .pop packetBuffer, .pop packetBuffer]
  have queue : Runs.answers (fifoCall 3) []
      [.push (.ofCode 1) ⟨1, 0, 0, 0⟩ [1, 2] (0, 7), .pushLarge .loadreq ⟨2, 0, 0, 0⟩ [9] 1 [3] 1 2 (0, 8) 5 0,
        .push (.ofCode 1) ⟨3, 0, 0, 0⟩ [4] (0, 7), .updateLarge .loadreq ⟨2, 0, 0, 0⟩ [9] 3 [6] 5 0 false,
        .pop packetBuffer, .pop packetBuffer, .pop packetBuffer] =
      some ([], [.pushed true, .pushed true, .pushed false, .updated,
        .popped (some ⟨.ofCode 1, ⟨1, 0, 0, 0⟩, [1, 2], 0, 0, (0, 7), 0, 0⟩),
        .popped (some ⟨.loadreq, ⟨2, 0, 0, 0⟩, [9, 3, 0, 6], 2, 2, (0, 8), 5, 0⟩), .popped none]) := by
    decide +kernel
  rw [queue] at both
  generalize Runs.answers PktRingBuffer.call _ _ = run at both ⊢
  cases both with
  | @some reached _ related => exact ⟨reached.1, congrArg some (Prod.ext rfl related.2)⟩

end FarReach
