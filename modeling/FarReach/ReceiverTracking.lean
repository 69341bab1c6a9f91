import FarReach.ServerReceiver

namespace FarReach

open Bytes DynamicArray Reassembly PacketType

variable {method : Method}

/-- The slot has the fragments of the attempt with indexes in `done`. -/
structure Tracks (arrived : List (PacketArrival method)) (slot : PktSlot) (attempt : Attempt method)
    (done : List Nat) :
    Prop where
  key : slot.key = attempt.key
  optype : slot.optype.isSameOptype attempt.optype = true
  clientlogicalidx : slot.clientlogicalidx = attempt.clientlogicalidx
  fragseq : slot.fragseq = attempt.fragseq
  number : slot.maxfragnum = attempt.fragnum
  counted : slot.curfragnum = done.length
  assembled : Assembled slot.dynamicbuf attempt.fragHdrsize attempt.fragBodysize (fun i => (attempt.header i).bytes)
    attempt.body done
  started : done ≠ []
  came : ∀ i ∈ done, .fragment attempt i ∈ arrived

def Receiving.slot (state : Receiving) : PktSlot :=
  ⟨true, state.largepktOptype, state.largepktKey, state.buf, state.curFragnum, state.maxFragnum, state.srcAddr,
    state.largepktClientlogicalidx, state.largepktFragseq⟩

/-- The call collects the attempt. -/
structure Collects (arrived : List (PacketArrival method)) (state : Receiving) (attempt : Attempt method)
    (done : List Nat) :
    Prop where
  tracks : Tracks arrived state.slot attempt done
  fragHdrsize : state.fragHdrsize = attempt.fragHdrsize
  fragBodysize : state.fragBodysize = attempt.fragBodysize

section Tracking

variable {arrived : List (PacketArrival method)} {slot : PktSlot} {attempt before : Attempt method} {done : List Nat}

section

variable (tracks : Tracks arrived slot attempt done)
include tracks

theorem Tracks.mono (later : List (PacketArrival method)) :
    Tracks (arrived ++ later) slot attempt done :=
  { tracks with came := fun i member => List.mem_append_left _ (tracks.came i member) }

theorem Tracks.large : 0 < slot.maxfragnum := by
  rw [tracks.number]
  exact count_pos attempt.positive _

theorem Tracks.length_content :
    slot.dynamicbuf.content.length ≤ 8388608 := by
  have size := tracks.assembled.filled.size_le
  have bounded := attempt.bounded
  have header : attempt.fragHdrsize = (attempt.header 0).bytes.length := rfl
  rw [DynamicArray.content, List.length_take]
  omega

theorem Tracks.exists_came : ∃ i, .fragment attempt i ∈ arrived := by
  obtain ⟨i, rest, rfl⟩ := List.exists_cons_of_ne_nil tracks.started
  exact ⟨i, tracks.came i List.mem_cons_self⟩

theorem Tracks.complete (full : slot.maxfragnum ≤ slot.curfragnum) :
    slot.dynamicbuf.content = attempt.message ∧ ∀ i < attempt.fragnum, .fragment attempt i ∈ arrived := by
  have enough : attempt.fragnum ≤ done.length := by
    rw [← tracks.number, ← tracks.counted]
    exact full
  refine ⟨tracks.assembled.content attempt.positive rfl enough, fun i inside => tracks.came i ?_⟩
  exact mem_of_nodup tracks.assembled.distinct tracks.assembled.inside enough i inside

theorem Tracks.transfer {copied : DynamicArray}
    {empty : DynamicArray} (wrote : Wrote empty 0 slot.dynamicbuf.content copied) (cleared : empty.cursize = 0)
    (capability : empty.maxcapability = 8388608) :
    Tracks arrived { slot with dynamicbuf := copied } attempt done := by
  have inUse := slot.dynamicbuf.cursize_le
  have size : copied.cursize = slot.dynamicbuf.cursize := by
    rw [wrote.cursize, cleared, DynamicArray.content, List.length_take]
    omega
  have room : attempt.fragHdrsize + attempt.body.length ≤ copied.maxcapability := by
    rw [wrote.maxcapability, capability]
    exact attempt.bounded
  exact { tracks with assembled := tracks.assembled.transfer rfl wrote.holds size room }

end

/-- What is left of the packet when a fragment of the same or of a later attempt comes. -/
theorem Tracks.resume (tracks : Tracks arrived slot before done) (continues : attempt.Continues before)
    (numbered : before.fragseq = attempt.fragseq → before = attempt) {i : Nat}
    (fresh : .fragment attempt i ∉ arrived) :
    ∃ kept, Assembled slot.dynamicbuf attempt.fragHdrsize attempt.fragBodysize (fun i => (attempt.header i).bytes)
        attempt.body kept ∧
      (if slot.fragseq < attempt.fragseq then 0 else slot.curfragnum) = kept.length ∧
      i ∉ kept ∧ ∀ j ∈ kept, .fragment attempt j ∈ arrived := by
  obtain ⟨header, width, _⟩ := continues.layout
  have assembled := tracks.assembled
  rw [header, width] at assembled
  by_cases later : slot.fragseq < attempt.fragseq
  · refine ⟨[], assembled.restart _ continues.length, ?_, List.not_mem_nil,
      fun j member => absurd member List.not_mem_nil⟩
    rw [if_pos later]
    rfl
  · have same : before = attempt := by
      refine numbered (UInt32.le_antisymm continues.fragseq ?_)
      rw [← tracks.fragseq]
      exact UInt32.not_lt.mp later
    subst same
    refine ⟨done, assembled, ?_, fun old => fresh (tracks.came i old), tracks.came⟩
    rw [if_neg later]
    exact tracks.counted

theorem Tracks.update (tracks : Tracks arrived slot before done) (valid : slot.valid = true)
    (sameClient : before.clientlogicalidx = attempt.clientlogicalidx) (continues : attempt.Continues before)
    (numbered : before.fragseq = attempt.fragseq → before = attempt) {i : Nat} (inside : i < attempt.fragnum)
    (fresh : .fragment attempt i ∉ arrived) :
    ∃ updated kept, PktRingBuffer.updateSlot slot (attempt.header i).optype attempt.key (attempt.header i).bytes
        (attempt.fragHdrsize + i * attempt.fragBodysize) (piece attempt.fragBodysize attempt.body i)
        attempt.clientlogicalidx attempt.fragseq (i == 0) = some updated ∧
      Tracks (arrived ++ [.fragment attempt i]) updated attempt kept := by
  obtain ⟨kept, assembled, counted, new, came⟩ := tracks.resume continues numbered fresh
  have few := attempt.few
  obtain ⟨distinct, bounded⟩ := assembled.cons_inside inside new
  have bound : kept.length + 1 ≤ attempt.fragnum := length_le_of_nodup distinct bounded
  have next : (if slot.fragseq < attempt.fragseq then 1 else (slot.curfragnum + 1) % 2 ^ 16) = kept.length + 1 := by
    by_cases later : slot.fragseq < attempt.fragseq
    · rw [if_pos later] at counted ⊢
      omega
    · rw [if_neg later] at counted ⊢
      omega
  -- the header is copied for fragment 0, and for the first fragment of an attempt
  have first : (kept.length + 1 == 1 || i == 0) = true → i = 0 ∨ 0 ∉ kept := by
    intro needed
    rw [Bool.or_eq_true, beq_iff_eq, beq_iff_eq] at needed
    refine needed.symm.imp_right fun none => ?_
    rw [List.eq_nil_of_length_eq_zero (Nat.succ_injective none)]
    exact List.not_mem_nil
  obtain ⟨body, whole, copied, copiedHeader, _, added⟩ := assembled.add attempt.positive inside new
    (fun j _ => attempt.length_header j) (kept.length + 1 == 1 || i == 0) (fun zero => Or.inl (by simp [zero])) first
  have optype : slot.optype.isSameOptype (attempt.header i).optype = true :=
    isSameOptype_trans tracks.optype
      (isSameOptype_trans continues.optype (isSameOptype_symm (attempt.sameOptype i)))
  have key : slot.key = attempt.key := tracks.key.trans continues.key
  have client : slot.clientlogicalidx = attempt.clientlogicalidx := tracks.clientlogicalidx.trans sameClient
  have fragseq : slot.fragseq ≤ attempt.fragseq := tracks.fragseq ▸ continues.fragseq
  have large := tracks.large
  refine ⟨{ slot with dynamicbuf := whole, curfragnum := kept.length + 1, fragseq := attempt.fragseq }, i :: kept, ?_,
    key, isSameOptype_trans tracks.optype continues.optype, client, rfl,
    tracks.number.trans continues.layout.2.2, rfl, added, List.cons_ne_nil _ _, fun j member => ?_⟩
  · unfold PktRingBuffer.updateSlot
    simp only [next, guard, valid, optype, key, copied, large, client, fragseq, copiedHeader, if_true,
      Option.pure_def, Option.bind_eq_bind, Option.bind_some]
  · rcases List.mem_cons.mp member with rfl | old
    · exact List.mem_append_right _ List.mem_cons_self
    · exact List.mem_append_left _ (came j old)

/-- The call returns the attempt, all of which has arrived, or goes on collecting it. -/
def Stored (arrived : List (PacketArrival method)) (attempt : Attempt method) (result : Option Progress) : Prop :=
  (∃ buf srcAddr, result = some (.done buf srcAddr) ∧ buf.content = attempt.message ∧
      ∀ i < attempt.fragnum, .fragment attempt i ∈ arrived) ∨
    ∃ state done, result = some (.wait (.next state)) ∧ Collects arrived state attempt done

theorem Stored.exists_progress {result : Option Progress} (stored : Stored arrived attempt result) :
    ∃ progress, result = some progress := by
  rcases stored with ⟨_, _, isDone, _⟩ | ⟨_, _, isWait, _⟩
  · exact ⟨_, isDone⟩
  · exact ⟨_, isWait⟩

theorem Collecting.stored {state : Receiving} {kept : List Nat}
    (collecting : Collecting state (fun i => (attempt.header i).bytes) attempt.body kept)
    (key : state.largepktKey = attempt.key) (optype : state.largepktOptype.isSameOptype attempt.optype = true)
    (client : state.largepktClientlogicalidx = attempt.clientlogicalidx)
    (fragseq : state.largepktFragseq = attempt.fragseq) (header : state.fragHdrsize = attempt.fragHdrsize)
    (width : state.fragBodysize = attempt.fragBodysize) {i : Nat} (inside : i < attempt.fragnum) (fresh : i ∉ kept)
    (came : ∀ j ∈ kept, .fragment attempt j ∈ arrived) :
    Stored (arrived ++ [.fragment attempt i]) attempt (state.store .server (attempt.fragment i)) := by
  have number : state.maxFragnum = attempt.fragnum := by
    rw [collecting.number, width]
    rfl
  have same : attempt.fragment i = state.fragment (fun i => (attempt.header i).bytes) attempt.body i := by
    rw [attempt.fragment_eq, Receiving.fragment, number, width]
  have cameAll : ∀ j ∈ i :: kept, .fragment attempt j ∈ arrived ++ [.fragment attempt i] := by
    intro j member
    rcases List.mem_cons.mp member with rfl | old
    · exact List.mem_append_right _ List.mem_cons_self
    · exact List.mem_append_left _ (came j old)
  rw [same]
  rcases collecting.store (by omega) fresh (Or.inl (by decide : FragMode.server ≠ .udpfrag)) with
    ⟨full, buf, stored, _, content⟩ | ⟨_, buf, stored, _, after⟩
  · have assembled := collecting.assembled
    rw [width] at assembled
    obtain ⟨distinct, bounded⟩ := assembled.cons_inside inside fresh
    refine Or.inl ⟨buf, _, stored, content, fun j bound => cameAll j ?_⟩
    refine mem_of_nodup distinct bounded ?_ j bound
    rw [List.length_cons]
    exact (number.symm.trans full.symm).le
  · have assembled : Assembled buf state.fragHdrsize state.fragBodysize (fun i => (attempt.header i).bytes)
        attempt.body (i :: kept) := after.assembled
    rw [header, width] at assembled
    exact Or.inr ⟨_, i :: kept, stored, ⟨key, optype, client, fragseq, number, rfl, assembled, List.cons_ne_nil _ _,
      cameAll⟩, header, width⟩

theorem Collects.recvSameClient {state : Receiving} (collects : Collects arrived state before done)
    (sameClient : before.clientlogicalidx = attempt.clientlogicalidx)
    (numbered : before.fragseq = attempt.fragseq → before = attempt)
    (sized : before.key = attempt.key → before.optype.isSameOptype attempt.optype = true →
      before.fragseq ≤ attempt.fragseq → attempt.body.length = before.body.length) {i : Nat}
    (inside : i < attempt.fragnum) (fresh : .fragment attempt i ∉ arrived) :
    recvSameClient state (attempt.header i).optype attempt.key attempt.fragseq (attempt.fragment i) =
        some (.wait (.next state)) ∨
      Stored (arrived ++ [.fragment attempt i]) attempt
        (recvSameClient state (attempt.header i).optype attempt.key attempt.fragseq (attempt.fragment i)) := by
  obtain ⟨tracks, header, width⟩ := collects
  unfold FarReach.recvSameClient
  split
  · exact Or.inl rfl
  · rename_i taken
    simp only [not_or, not_not, Bool.not_eq_false] at taken
    obtain ⟨isKey, isType, notOld⟩ := taken
    have optype : state.largepktOptype.isSameOptype attempt.optype = true :=
      isSameOptype_trans (isSameOptype_symm isType) (attempt.sameOptype i)
    have key : before.key = attempt.key := tracks.key.symm.trans isKey.symm
    have beforeType : before.optype.isSameOptype attempt.optype = true :=
      isSameOptype_trans (isSameOptype_symm tracks.optype) optype
    have fragseq : before.fragseq ≤ attempt.fragseq := by
      rw [← tracks.fragseq]
      exact UInt32.not_lt.mp notOld
    have continues : attempt.Continues before := ⟨key, beforeType, fragseq, sized key beforeType fragseq⟩
    obtain ⟨kept, assembled, counted, new, came⟩ := tracks.resume continues numbered fresh
    obtain ⟨sameHeader, sameWidth, sameNumber⟩ := continues.layout
    rw [sameHeader] at header
    rw [sameWidth] at width
    have number : state.maxFragnum = attempt.fragnum := tracks.number.trans sameNumber
    have client : state.largepktClientlogicalidx = attempt.clientlogicalidx :=
      tracks.clientlogicalidx.trans sameClient
    have long := (attempt.length_fragment i).1
    -- the call as it goes on with the attempt of the fragment
    have collecting : Collecting { state with largepktFragseq := attempt.fragseq, curFragnum := kept.length }
        (fun i => (attempt.header i).bytes) attempt.body kept := by
      refine ⟨?_, ?_, ?_, ?_, rfl, fun j _ => ?_⟩
      · change Assembled state.buf state.fragHdrsize state.fragBodysize _ _ _
        rw [header, width]
        exact assembled
      · exact width ▸ attempt.positive
      · exact width ▸ number
      · exact number ▸ attempt.few
      · exact header ▸ attempt.length_header j
    have isState : (if state.largepktFragseq < attempt.fragseq then
        { state with largepktFragseq := attempt.fragseq, curFragnum := 0 } else state) =
        { state with largepktFragseq := attempt.fragseq, curFragnum := kept.length } := by
      change (if state.largepktFragseq < attempt.fragseq then 0 else state.curFragnum) = kept.length at counted
      by_cases later : state.largepktFragseq < attempt.fragseq
      · rw [if_pos later] at counted ⊢
        rw [counted]
      · rw [if_neg later] at counted ⊢
        have same : state.largepktFragseq = attempt.fragseq :=
          UInt32.le_antisymm (UInt32.not_lt.mp notOld) (UInt32.not_lt.mp later)
        rw [← counted, ← same]
    have stored := collecting.stored isKey.symm optype client rfl header width inside new came
    right
    rw [isState]
    simp only [guard, header, long, if_true, Option.pure_def, Option.bind_eq_bind, Option.bind_some]
    simp only [header] at stored
    exact stored

theorem recvFirst_attempt {i : Nat} (inside : i < attempt.fragnum) (srcAddr : SockAddr) :
    Stored (arrived ++ [.fragment attempt i]) attempt
      (recvFirst .server method packetBuffer (attempt.fragment i) srcAddr) := by
  have starts := (attempt.header i).bytes_starts_fragment attempt.body i
  have known := (attempt.header i).known _ starts
  have source := (attempt.header i).source _ starts
  rw [attempt.sameKey] at known
  rw [attempt.sameClient, attempt.sameFragseq] at source
  have read : attempt.fragment i = (attempt.header i).fragment attempt.body i := rfl
  rw [← read, attempt.fragment_eq] at known source
  obtain ⟨copied, _, collecting, stored⟩ := @recvLarge_fragment .server method (fun i => (attempt.header i).bytes)
    attempt.body packetBuffer attempt.fragHdrsize attempt.fragBodysize attempt.fragnum i _ _ _ _ srcAddr rfl
    attempt.bounded (attempt.fragTotalsize_eq i) attempt.positive rfl attempt.few inside
    (fun j _ => attempt.length_header j) known source
  rw [read, (attempt.header i).first _ starts, ← read, attempt.length_header, attempt.fragment_eq, stored,
    ← attempt.fragment_eq]
  exact collecting.stored rfl (attempt.sameOptype i) rfl rfl rfl rfl inside List.not_mem_nil
    fun _ member => absurd member List.not_mem_nil

end Tracking

section Queue

variable {arrived : List (PacketArrival method)} {attempt before : Attempt method} {ring : PktRingBuffer}

theorem assembled_single {i : Nat} (inside : i < attempt.fragnum) :
    ∃ first second, packetBuffer.dynamicMemcpy 0 (attempt.header i).bytes = some first ∧
      first.dynamicMemcpy (attempt.fragHdrsize + i * attempt.fragBodysize)
        (piece attempt.fragBodysize attempt.body i) = some second ∧
      Assembled second attempt.fragHdrsize attempt.fragBodysize (fun i => (attempt.header i).bytes)
        attempt.body [i] := by
  have size := attempt.length_header i
  have bounded : attempt.fragHdrsize + attempt.body.length ≤ 8388608 := attempt.bounded
  have ends := piece_end_le attempt.positive inside
  obtain ⟨first, copied, wrote⟩ := (writes_dynamicMemcpy packetBuffer 0 (attempt.header i).bytes).1 (by
    change 0 + (attempt.header i).bytes.length ≤ 8388608
    omega)
  have capability : first.maxcapability = 8388608 := wrote.maxcapability
  obtain ⟨second, copiedBody, wroteBody⟩ := (writes_dynamicMemcpy first
    (attempt.fragHdrsize + attempt.fragBodysize * i) (piece attempt.fragBodysize attempt.body i)).1 (by omega)
  refine ⟨first, second, copied, Nat.mul_comm i _ ▸ copiedBody, ?_⟩
  refine (assembled_nil wrote rfl size bounded).wrote_body attempt.positive inside List.not_mem_nil rfl wroteBody ?_
  rintro rfl
  exact wroteBody.frame _ _ wrote.holds (Or.inl (by omega))

/-- What `udprecvlarge` does with a fragment of another client. -/
theorem queueFragment_eq {i : Nat} (inside : i < attempt.fragnum) (srcAddr : SockAddr) {exist : Bool}
    (found : ring.isClientlogicalidxExist attempt.clientlogicalidx = some exist) :
    queueFragment method ring (attempt.header i).optype attempt.key attempt.clientlogicalidx attempt.fragseq
        (attempt.fragment i) srcAddr =
      if exist then
        ring.updateLarge (attempt.header i).optype attempt.key (attempt.header i).bytes
          (attempt.fragHdrsize + i * attempt.fragBodysize) (piece attempt.fragBodysize attempt.body i)
          attempt.clientlogicalidx attempt.fragseq (i == 0)
      else (do
        let (ring, stat) ← ring.pushLarge (attempt.header i).optype attempt.key (attempt.header i).bytes
          (attempt.fragHdrsize + i * attempt.fragBodysize)
          (piece attempt.fragBodysize attempt.body i) 1 attempt.fragnum
          srcAddr attempt.clientlogicalidx attempt.fragseq
        guard (stat = true)
        some ring) := by
  obtain ⟨index, number, head, tail⟩ := attempt.cut_fragment inside
  obtain ⟨long, short, _⟩ := attempt.length_fragment i
  have isBody : attempt.fragHdrsize + 2 + 2 + attempt.fragBodysize - (attempt.fragHdrsize + 2 + 2) =
      attempt.fragBodysize := by omega
  have positive := attempt.positive
  have nonzero : attempt.fragHdrsize + 2 + 2 ≠ 0 ∧ attempt.fragBodysize ≠ 0 := by omega
  unfold queueFragment
  simp only [attempt.getFragHdrsize_eq, attempt.fragTotalsize_eq, isBody, guard, nonzero, long, short,
    index, number, head, tail, found, ne_eq, and_self, not_false_eq_true, if_true, Option.pure_def,
    Option.bind_eq_bind, Option.bind_some]

theorem queueFragment_first (consistent : ring.Consistent) (room : ¬ ring.IsFull)
    (free : ¬ ring.Queued attempt.clientlogicalidx) {i : Nat} (inside : i < attempt.fragnum) (srcAddr : SockAddr) :
    ∃ after slot, queueFragment method ring (attempt.header i).optype attempt.key attempt.clientlogicalidx
      attempt.fragseq
        (attempt.fragment i) srcAddr = some after ∧ after.Consistent ∧ after.capacity = ring.capacity ∧
      after.contents = ring.contents ++ [slot] ∧ Tracks (arrived ++ [.fragment attempt i]) slot attempt [i] := by
  obtain ⟨first, second, header, body, assembled⟩ := assembled_single inside
  obtain ⟨after, pushed, kept, capacity, contents⟩ := @PktRingBuffer.pushLarge_spec ring consistent
    (attempt.header i).optype attempt.key (attempt.header i).bytes (piece attempt.fragBodysize attempt.body i)
    (attempt.fragHdrsize + i * attempt.fragBodysize) 1 attempt.fragnum srcAddr attempt.clientlogicalidx
      attempt.fragseq
    first second (by omega) room free header body
  refine ⟨after, _, ?_, kept, capacity, contents, rfl, attempt.sameOptype i, rfl, rfl, rfl, rfl, assembled,
    List.cons_ne_nil _ _, fun j member => ?_⟩
  · rw [queueFragment_eq inside srcAddr (consistent.isClientlogicalidxExist_of_not_queued free), pushed]
    rfl
  · rw [List.mem_singleton.mp member]
    exact List.mem_append_right _ List.mem_cons_self

theorem queueFragment_again (consistent : ring.Consistent) (queued : ring.Queued attempt.clientlogicalidx)
    (tracked : ∀ slot ∈ ring.contents, 0 < slot.maxfragnum → slot.clientlogicalidx = attempt.clientlogicalidx →
      ∃ before done, Tracks arrived slot before done ∧ attempt.Continues before ∧
        (before.fragseq = attempt.fragseq → before = attempt))
    {i : Nat} (inside : i < attempt.fragnum) (fresh : .fragment attempt i ∉ arrived) (srcAddr : SockAddr) :
    ∃ after front slot updated back kept, queueFragment method ring (attempt.header i).optype attempt.key
        attempt.clientlogicalidx attempt.fragseq (attempt.fragment i) srcAddr = some after ∧ after.Consistent ∧
      after.capacity = ring.capacity ∧ ring.contents = front ++ slot :: back ∧
      after.contents = front ++ updated :: back ∧ 0 < slot.maxfragnum ∧
      Tracks (arrived ++ [.fragment attempt i]) updated attempt kept := by
  obtain ⟨front, slot, back, contents, valid, large, client, update⟩ :=
    PktRingBuffer.updateLarge_spec consistent queued
  have member : slot ∈ ring.contents := by
    rw [contents]
    exact List.mem_append_right _ List.mem_cons_self
  obtain ⟨before, done, tracks, continues, numbered⟩ := tracked slot member large client
  obtain ⟨updated, kept, isUpdate, after⟩ := tracks.update valid (tracks.clientlogicalidx.symm.trans client) continues
    numbered inside fresh
  obtain ⟨ring', isRing, consistent', capacity, contents'⟩ := update _ _ _ _ _ _ _ _ isUpdate
  refine ⟨ring', front, slot, updated, back, kept, ?_, consistent', capacity, contents, contents', large, after⟩
  rw [queueFragment_eq inside srcAddr (consistent.isClientlogicalidxExist_of_queued queued)]
  exact isRing

/-- A timeout puts the packet of the call behind all others. -/
theorem Collects.recvTimeout {state : Receiving} {done : List Nat} (collects : Collects arrived state attempt done)
    (consistent : ring.Consistent) (room : ¬ ring.IsFull) (free : ¬ ring.Queued attempt.clientlogicalidx) :
    ∃ after slot, recvTimeout .server ring (.next state) = some after ∧ after.Consistent ∧
      after.capacity = ring.capacity ∧ after.contents = ring.contents ++ [slot] ∧
        Tracks arrived slot attempt done := by
  obtain ⟨tracks, header, _⟩ := collects
  have size := tracks.assembled.filled.size_le
  have base := tracks.assembled.filled.base_le
  have bounded : attempt.fragHdrsize + attempt.body.length ≤ 8388608 := attempt.bounded
  have inUse := state.buf.cursize_le
  change state.buf.cursize ≤ _ at size
  change _ ≤ state.buf.cursize at base
  have headLength : (state.buf.array.take state.fragHdrsize).length = state.fragHdrsize :=
    List.length_take_of_le (by omega)
  have tailLength : (state.buf.content.drop state.fragHdrsize).length = state.buf.cursize - state.fragHdrsize := by
    rw [List.length_drop, DynamicArray.content, List.length_take_of_le inUse]
  have whole : state.buf.array.take state.fragHdrsize ++ state.buf.content.drop state.fragHdrsize =
      state.buf.content := by
    have short : state.buf.array.take state.fragHdrsize = state.buf.content.take state.fragHdrsize := by
      rw [DynamicArray.content, List.take_take, Nat.min_eq_left (by omega)]
    rw [short, List.take_append_drop]
  obtain ⟨first, copied, wrote⟩ :=
    (writes_dynamicMemcpy packetBuffer 0 (state.buf.array.take state.fragHdrsize)).1 (by
    change 0 + (state.buf.array.take state.fragHdrsize).length ≤ 8388608
    omega)
  have capability : first.maxcapability = 8388608 := wrote.maxcapability
  obtain ⟨second, copiedBody, wroteBody⟩ := (writes_dynamicMemcpy first state.fragHdrsize
    (state.buf.content.drop state.fragHdrsize)).1 (by omega)
  have both : Wrote packetBuffer 0 state.buf.content second := by
    rw [← whole]
    refine wrote.append ?_
    rw [headLength, Nat.zero_add]
    exact wroteBody
  have client : state.largepktClientlogicalidx = attempt.clientlogicalidx := tracks.clientlogicalidx
  have started : 1 ≤ state.curFragnum := by
    have counted : state.curFragnum = done.length := tracks.counted
    rw [counted]
    exact List.length_pos_iff.mpr tracks.started
  obtain ⟨after, pushed, kept, capacity, contents⟩ :=
    @PktRingBuffer.pushLarge_spec ring consistent state.largepktOptype state.largepktKey _ _ _ state.curFragnum
    state.maxFragnum state.srcAddr state.largepktClientlogicalidx state.largepktFragseq first second tracks.large room
    (client ▸ free) copied copiedBody
  refine ⟨after, _, ?_, kept, capacity, contents, tracks.transfer both rfl rfl⟩
  have absent := consistent.isClientlogicalidxExist_of_not_queued (client ▸ free)
  simp only [FarReach.recvTimeout, absent, guard, started, pushed, if_true, Option.pure_def, Option.bind_eq_bind,
    Option.bind_some]

/-- A call takes the first packet out of the ring: it returns it, or it goes on collecting it. -/
theorem Tracks.recvStart {slot : PktSlot} {done : List Nat} (tracks : Tracks arrived slot attempt done)
    (consistent : ring.Consistent) {rest : List PktSlot} (contents : ring.contents = slot :: rest) :
    ∃ after progress, recvStart .server method ring packetBuffer = some (after, progress) ∧ after.Consistent ∧
      after.capacity = ring.capacity ∧ after.contents = rest ∧ ¬ after.Queued attempt.clientlogicalidx ∧
      Stored arrived attempt (some progress) := by
  obtain ⟨after, popped, pops, wrote, kept, capacity, left, free⟩ := @PktRingBuffer.pop_spec ring consistent
    packetBuffer slot rest contents tracks.length_content
  have content : popped.content = slot.dynamicbuf.content := wrote.content rfl
  have notFree : slot.maxfragnum ≠ 0 := tracks.large.ne'
  have absent := tracks.clientlogicalidx ▸ free tracks.large
  by_cases full : slot.maxfragnum ≤ slot.curfragnum
  · obtain ⟨message, came⟩ := tracks.complete full
    refine ⟨after, .done popped slot.clientaddr, ?_, kept, capacity, left, absent,
      Or.inl ⟨_, _, rfl, content.trans message, came⟩⟩
    simp only [FarReach.recvStart, pops, full, or_true, if_true, Option.bind_eq_bind, Option.bind_some]
  · have layout := method.layout_of_sameOptype tracks.optype FragMode.server.fragMaxsize
    have header : method.getFragHdrsize slot.optype = attempt.fragHdrsize :=
      layout.1.trans (attempt.getFragHdrsize_eq 0)
    have total : fragTotalsize .server method slot.optype = attempt.fragHdrsize + 2 + 2 + attempt.fragBodysize :=
      layout.2.trans (attempt.fragTotalsize_eq 0)
    have large : slot.optype.isPacketWithLargevalue = true := by
      rcases isSameOptype_iff.mp tracks.optype with same | ⟨seq, _⟩
      · rw [same]
        exact (attempt.withClient 0).2
      · exact isPacketWithLargevalue_of_clientlogicalidx (isPacketWithClientlogicalidx_of_seq seq)
    have isBody : attempt.fragHdrsize + 2 + 2 + attempt.fragBodysize - (attempt.fragHdrsize + 2 + 2) =
        attempt.fragBodysize := by omega
    have moved := tracks.transfer wrote rfl rfl
    refine ⟨after, .wait (.next ⟨attempt.fragHdrsize, attempt.fragBodysize, slot.maxfragnum, slot.curfragnum, popped,
      slot.key, slot.optype, slot.clientlogicalidx, slot.fragseq, slot.clientaddr⟩), ?_, kept, capacity, left, absent,
      Or.inr ⟨_, done, rfl, ⟨moved.key, moved.optype, moved.clientlogicalidx, moved.fragseq, moved.number,
        moved.counted, moved.assembled, moved.started, moved.came⟩, rfl, rfl⟩⟩
    have incomplete : ¬ (slot.maxfragnum = 0 ∨ slot.maxfragnum ≤ slot.curfragnum) := not_or.mpr ⟨notFree, full⟩
    simp only [FarReach.recvStart, pops, incomplete, large, header, total, isBody, guard, if_true, if_false,
      Option.pure_def, Option.bind_eq_bind, Option.bind_some]

end Queue

end FarReach
