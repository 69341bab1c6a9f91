import FarReach.SocketHelper

namespace FarReach

open Bytes DynamicArray Reassembly

/-- A fragment as `udpsendlarge` makes it: header, index, number of fragments, body. -/
def fragmentBytes (header : List UInt8) (fragnum idx : Nat) (body : List UInt8) : List UInt8 :=
  header ++ (bigEndian 2 idx ++ (bigEndian 2 fragnum ++ body))

section Sender

variable {message : List UInt8} {fragHdrsize width : Nat}

variable {idx : Nat}

theorem readAt_piece (positive : 0 < width) (headed : fragHdrsize ≤ message.length)
    (inside : idx < count width (message.length - fragHdrsize)) :
    readAt message (fragHdrsize + width * idx) (piece width (message.drop fragHdrsize) idx).length =
      some (piece width (message.drop fragHdrsize) idx) := by
  have total : (message.drop fragHdrsize).length = message.length - fragHdrsize := List.length_drop
  have fits := piece_end_le positive (total ▸ inside)
  unfold readAt
  rw [if_pos (by omega)]
  congr 1
  rw [piece, List.drop_drop, List.length_take, ← List.take_take, List.take_length]

theorem bodysize_eq (positive : 0 < width) (headed : fragHdrsize ≤ message.length)
    (inside : idx < count width (message.length - fragHdrsize)) :
    (if idx = count width (message.length - fragHdrsize) - 1 then message.length - fragHdrsize - width * idx
      else width) = (piece width (message.drop fragHdrsize) idx).length := by
  have enough := le_mul_count positive (message.length - fragHdrsize)
  rw [length_piece, List.length_drop]
  split
  · rename_i last
    have split : count width (message.length - fragHdrsize) = idx + 1 := by omega
    rw [split, Nat.mul_succ] at enough
    omega
  · have next := mul_le_of_lt_count positive (show idx + 1 < count width (message.length - fragHdrsize) by omega)
    rw [Nat.mul_succ] at next
    omega

theorem sendFragments_eq (positive : 0 < width) (headed : fragHdrsize ≤ message.length) {left idx : Nat}
    (rest : idx + left = count width (message.length - fragHdrsize)) :
    sendFragments message fragHdrsize width (message.length - fragHdrsize)
      (count width (message.length - fragHdrsize))
      left idx (fragHdrsize + width * idx) =
      some ((List.range' idx left).map fun i => fragmentBytes (message.take fragHdrsize)
        (count width (message.length - fragHdrsize)) i (piece width (message.drop fragHdrsize) i)) := by
  induction left generalizing idx with
  | zero => rfl
  | succ left ih =>
    have inside : idx < count width (message.length - fragHdrsize) := by omega
    have short := length_piece_le width (message.drop fragHdrsize) idx
    have body := readAt_piece positive headed inside
    -- every piece but the last has the full width
    have others : left ≠ 0 → (piece width (message.drop fragHdrsize) idx).length = width := by
      intro more
      rw [← bodysize_eq positive headed inside, if_neg (by omega)]
    have tail := @ih (idx + 1) (by omega)
    unfold sendFragments
    rw [bodysize_eq positive headed inside]
    simp only [guard, short, if_true, Option.pure_def, Option.bind_eq_bind, Option.bind_some, body]
    by_cases more : left = 0
    · subst more
      simp [sendFragments, fragmentBytes]
    · rw [others more, Nat.add_assoc, ← Nat.mul_succ, tail]
      simp [List.range'_succ, fragmentBytes]

/-- `udpsendlarge` cuts what follows the header into pieces and puts the header in front of each. -/
theorem udpsendlarge_eq {fragMaxsize : Nat} (headed : fragHdrsize ≤ message.length)
    (positive : fragHdrsize + 2 + 2 < fragMaxsize)
    (few : count (fragMaxsize - (fragHdrsize + 2 + 2)) (message.length - fragHdrsize) < 2 ^ 16) :
    udpsendlarge message fragHdrsize fragMaxsize =
      some ((List.range (count (fragMaxsize - (fragHdrsize + 2 + 2)) (message.length - fragHdrsize))).map fun i =>
        fragmentBytes (message.take fragHdrsize)
          (count (fragMaxsize - (fragHdrsize + 2 + 2)) (message.length - fragHdrsize)) i
          (piece (fragMaxsize - (fragHdrsize + 2 + 2)) (message.drop fragHdrsize) i)) := by
  have wide : 0 < fragMaxsize - (fragHdrsize + 2 + 2) := by omega
  have some_fragment := count_pos wide (message.length - fragHdrsize)
  have sent := @sendFragments_eq message fragHdrsize _ wide headed _ 0 (Nat.zero_add _)
  rw [Nat.mul_zero, Nat.add_zero, ← List.range_eq_range'] at sent
  unfold udpsendlarge
  simp only [guard, headed, if_true, Option.pure_def, Option.bind_eq_bind, Option.bind_some]
  have isCount : (if 0 < message.length - fragHdrsize then
      (message.length - fragHdrsize + (fragMaxsize - (fragHdrsize + 2 + 2)) - 1) /
        (fragMaxsize - (fragHdrsize + 2 + 2))
      else 1) = count (fragMaxsize - (fragHdrsize + 2 + 2)) (message.length - fragHdrsize) := rfl
  rw [isCount, if_pos some_fragment, Nat.mod_eq_of_lt few]
  exact sent

end Sender

/-- The buffer holds the pieces of `body` with indexes in `done`, and the header of fragment 0 once that is there. -/
structure Assembled (buf : DynamicArray) (fragHdrsize width : Nat) (header : Nat → List UInt8) (body : List UInt8)
    (done : List Nat) : Prop where
  filled : Filled buf.array buf.cursize fragHdrsize width body done
  headed : 0 ∈ done → Holds buf.array 0 (header 0)
  capability : fragHdrsize + body.length ≤ buf.maxcapability
  distinct : done.Nodup
  inside : ∀ i ∈ done, i < count width body.length

section Assembly

variable {buf : DynamicArray} {fragHdrsize width : Nat} {header : Nat → List UInt8} {body : List UInt8}
    {done : List Nat}

theorem assembled_nil {before : DynamicArray} {bytes : List UInt8} (wrote : Wrote before 0 bytes buf)
    (empty : before.cursize = 0) (size : bytes.length = fragHdrsize)
    (capability : fragHdrsize + body.length ≤ before.maxcapability) :
    Assembled buf fragHdrsize width header body [] := by
  have cursize : buf.cursize = fragHdrsize := by
    rw [wrote.cursize, empty, Nat.zero_add, Nat.zero_max, size]
  refine ⟨?_, fun member => absurd member List.not_mem_nil, ?_, List.nodup_nil, fun _ member => ?_⟩
  · rw [cursize]
    exact filled_nil
  · rw [wrote.maxcapability]
    exact capability
  · exact absurd member List.not_mem_nil

section

variable (assembled : Assembled buf fragHdrsize width header body done)
include assembled

/-- A new attempt of the same size starts over in the same buffer. -/
theorem Assembled.restart
    (header' : Nat → List UInt8) {body' : List UInt8} (same : body'.length = body.length) :
    Assembled buf fragHdrsize width header' body' [] := by
  refine ⟨⟨?_, ?_, assembled.filled.base_le, ?_⟩, ?_, ?_, List.nodup_nil, ?_⟩
  · exact fun _ member => absurd member List.not_mem_nil
  · exact fun _ member => absurd member List.not_mem_nil
  · rw [same]
    exact assembled.filled.size_le
  · exact fun member => absurd member List.not_mem_nil
  · rw [same]
    exact assembled.capability
  · exact fun _ member => absurd member List.not_mem_nil

variable {i : Nat} {after : DynamicArray}

theorem Assembled.cons_inside
    (inside : i < count width body.length) (fresh : i ∉ done) :
    (i :: done).Nodup ∧ ∀ j ∈ i :: done, j < count width body.length := by
  refine ⟨List.nodup_cons.mpr ⟨fresh, assembled.distinct⟩, fun j member => ?_⟩
  rcases List.mem_cons.mp member with rfl | old
  · exact inside
  · exact assembled.inside j old

/-- The buffer gets the body of one more fragment; the header of fragment 0 is there with its body. -/
theorem Assembled.wrote_body (positive : 0 < width)
    (inside : i < count width body.length) (fresh : i ∉ done) (size : (header 0).length = fragHdrsize)
    (wrote : Wrote buf (fragHdrsize + width * i) (piece width body i) after)
    (headed : i = 0 → Holds after.array 0 (header 0)) :
    Assembled after fragHdrsize width header body (i :: done) := by
  have filled := assembled.filled.write positive inside wrote.holds wrote.frame wrote.cursize
  obtain ⟨distinct, bound⟩ := assembled.cons_inside inside fresh
  refine ⟨filled, fun member => ?_, ?_, distinct, bound⟩
  · rcases List.mem_cons.mp member with isZero | old
    · exact headed isZero.symm
    · exact wrote.frame _ _ (assembled.headed old) (Or.inl (by omega))
  · rw [wrote.maxcapability]
    exact assembled.capability

theorem Assembled.add (positive : 0 < width)
    (inside : i < count width body.length) (fresh : i ∉ done)
    (sizes : ∀ j < count width body.length, (header j).length = fragHdrsize) (needed : Bool)
    (zero : i = 0 → needed = true ∨ fragHdrsize = 0) (other : needed = true → i = 0 ∨ 0 ∉ done) :
    ∃ first second, buf.dynamicMemcpy (fragHdrsize + i * width) (piece width body i) = some first ∧
      PktRingBuffer.copyFraghdr needed first (header i) = some second ∧
      second.maxcapability = buf.maxcapability ∧ Assembled second fragHdrsize width header body (i :: done) := by
  have fits := piece_end_le positive inside
  have capability := assembled.capability
  have firstSize := sizes 0 (by omega)
  rw [Nat.mul_comm i width]
  obtain ⟨first, copied, wrote⟩ := (writes_dynamicMemcpy buf (fragHdrsize + width * i)
    (piece width body i)).1 (by omega)
  refine ⟨first, ?_⟩
  cases needed with
  | false =>
    refine ⟨first, copied, rfl, wrote.maxcapability, assembled.wrote_body positive inside fresh firstSize wrote ?_⟩
    -- fragment 0 comes without its header only where there is no header
    intro isZero
    have none : fragHdrsize = 0 := (zero isZero).resolve_left Bool.false_ne_true
    have nothing : header 0 = [] := List.eq_nil_of_length_eq_zero (firstSize.trans none)
    rw [nothing]
    exact fun _ _ found => absurd found (by simp)
  | true =>
    have size := sizes i inside
    have firstCapability := wrote.maxcapability
    have filled := assembled.filled.write positive inside wrote.holds wrote.frame wrote.cursize
    obtain ⟨distinct, bound⟩ := assembled.cons_inside inside fresh
    obtain ⟨second, copiedHeader, wroteHeader⟩ := (writes_dynamicMemcpy first 0 (header i)).1 (by omega)
    have cursize : second.cursize = first.cursize := by
      have bottom := filled.base_le
      rw [wroteHeader.cursize]
      omega
    refine ⟨second, copied, copiedHeader, wroteHeader.maxcapability.trans firstCapability, ?_, fun member => ?_, ?_,
      distinct, bound⟩
    · rw [cursize]
      exact filled.frame fun pos held holds behind => wroteHeader.frame _ _ holds (Or.inr (by omega))
    · rcases List.mem_cons.mp member with isZero | old
      · subst isZero
        exact wroteHeader.holds
      · -- a header is copied over that of fragment 0 only by fragment 0, which is new here
        rcases other rfl with isZero | absent
        · exact absurd (isZero ▸ old) fresh
        · exact absurd old absent
    · rw [wroteHeader.maxcapability, firstCapability]
      exact capability

theorem Assembled.transfer
    (size : (header 0).length = fragHdrsize) (holds : Holds after.array 0 buf.content)
    (cursize : after.cursize = buf.cursize) (capability : fragHdrsize + body.length ≤ after.maxcapability) :
    Assembled after fragHdrsize width header body done := by
  have copied : ∀ pos bytes, Holds buf.array pos bytes → pos + bytes.length ≤ buf.cursize →
      Holds after.array pos bytes := by
    intro pos bytes held inside i byte found
    have within := (List.getElem?_eq_some_iff.mp found).1
    have content : buf.content[pos + i]? = some byte := by
      rw [DynamicArray.content, List.getElem?_take_of_lt (by omega)]
      exact held i byte found
    have there := holds (pos + i) byte content
    rwa [Nat.zero_add] at there
  have bottom := assembled.filled.base_le
  refine ⟨⟨fun i member => ?_, ?_, ?_, ?_⟩, fun member => ?_, capability, assembled.distinct, assembled.inside⟩
  · have ends := assembled.filled.ends i member
    exact copied _ _ (assembled.filled.holds i member) ends
  · rw [cursize]
    exact assembled.filled.ends
  · rw [cursize]
    exact bottom
  · rw [cursize]
    exact assembled.filled.size_le
  · exact copied _ _ (assembled.headed member) (by omega)

/-- With as many fragments as there are, the buffer holds the header of fragment 0 and the body. -/
theorem Assembled.content (positive : 0 < width)
    (size : (header 0).length = fragHdrsize) (enough : count width body.length ≤ done.length) :
    buf.content = header 0 ++ body := by
  have all := mem_of_nodup assembled.distinct assembled.inside enough
  obtain ⟨holds, cursize⟩ := assembled.filled.complete positive all
  have head := assembled.headed (all 0 (count_pos positive _))
  have whole : Holds buf.array 0 (header 0 ++ body) := by
    rw [holds_append, size, Nat.zero_add]
    exact ⟨head, holds⟩
  have starts := List.prefix_iff_eq_take.mp (holds_zero_iff.mp whole)
  rw [List.length_append, size] at starts
  rw [DynamicArray.content, cursize]
  exact starts.symm

end

end Assembly

theorem length_fragmentBytes (header : List UInt8) (fragnum idx : Nat) (body : List UInt8) :
    (fragmentBytes header fragnum idx body).length = header.length + 2 + 2 + body.length := by
  simp only [fragmentBytes, List.length_append, length_bigEndian]
  omega

theorem read_fragmentBytes {header body : List UInt8} {fragHdrsize fragnum idx : Nat}
    (size : header.length = fragHdrsize) (few : fragnum < 2 ^ 16) (inside : idx < 2 ^ 16) :
    halfAt (fragmentBytes header fragnum idx body) fragHdrsize = some idx ∧
      halfAt (fragmentBytes header fragnum idx body) (fragHdrsize + 2) = some fragnum ∧
      (fragmentBytes header fragnum idx body).take fragHdrsize = header ∧
      (fragmentBytes header fragnum idx body).drop (fragHdrsize + 2 + 2) = body := by
  have whole : Holds (fragmentBytes header fragnum idx body) 0 (fragmentBytes header fragnum idx body) :=
    holds_zero_iff.mpr List.prefix_rfl
  have parts := whole
  rw [fragmentBytes, holds_append, holds_append, holds_append, ← fragmentBytes, size, length_bigEndian,
    length_bigEndian, Nat.zero_add] at parts
  obtain ⟨_, index, number, _⟩ := parts
  have indexRead := index.readAt (length_bigEndian _ _) (by decide)
  have numberRead := number.readAt (length_bigEndian _ _) (by decide)
  have indexBack : ofBigEndian (bigEndian 2 idx) = idx := ofBigEndian_bigEndian inside
  have numberBack : ofBigEndian (bigEndian 2 fragnum) = fragnum := ofBigEndian_bigEndian few
  have cut : fragmentBytes header fragnum idx body = (header ++ bigEndian 2 idx ++ bigEndian 2 fragnum) ++ body := by
    simp [fragmentBytes]
  refine ⟨?_, ?_, ?_, ?_⟩
  · simp [halfAt, indexRead, indexBack]
  · simp [halfAt, numberRead, numberBack]
  · rw [fragmentBytes, ← size, List.take_left]
  · rw [cut]
    exact List.drop_left' (by simp [size])

/-- The call collects `body`; the fragments in `done` have arrived. -/
structure Collecting (state : Receiving) (header : Nat → List UInt8) (body : List UInt8)
    (done : List Nat) : Prop where
  assembled : Assembled state.buf state.fragHdrsize state.fragBodysize header body done
  positive : 0 < state.fragBodysize
  number : state.maxFragnum = count state.fragBodysize body.length
  few : state.maxFragnum < 2 ^ 16
  counted : state.curFragnum = done.length
  sizes : ∀ i < state.maxFragnum, (header i).length = state.fragHdrsize

def Receiving.fragment (state : Receiving) (header : Nat → List UInt8) (body : List UInt8) (i : Nat) : List UInt8 :=
  fragmentBytes (header i) state.maxFragnum i (piece state.fragBodysize body i)

/-- One more fragment: the packet is complete, or the call goes on with it. -/
theorem Collecting.store {mode : FragMode} {state : Receiving} {header : Nat → List UInt8} {body : List UInt8}
    {done : List Nat} (collecting : Collecting state header body done) {i : Nat} (inside : i < state.maxFragnum)
    (fresh : i ∉ done) (headed : mode ≠ .udpfrag ∨ state.fragHdrsize = 0) :
    (done.length + 1 = state.maxFragnum ∧ ∃ buf, state.store mode (state.fragment header body i) =
        some (.done buf state.srcAddr) ∧ buf.maxcapability = state.buf.maxcapability ∧
          buf.content = header 0 ++ body) ∨
      (done.length + 1 < state.maxFragnum ∧ ∃ buf, state.store mode (state.fragment header body i) =
        some (.wait (.next { state with buf := buf, curFragnum := done.length + 1 })) ∧
        buf.maxcapability = state.buf.maxcapability ∧
        Collecting { state with buf := buf, curFragnum := done.length + 1 } header body (i :: done)) := by
  obtain ⟨assembled, positive, number, few, counted, sizes⟩ := collecting
  obtain ⟨index, _, head, tail⟩ := @read_fragmentBytes (header i) (piece state.fragBodysize body i) state.fragHdrsize
    state.maxFragnum i (sizes i inside) few (by omega)
  have copies : i = 0 → (mode != .udpfrag && i == 0) = true ∨ state.fragHdrsize = 0 :=
    fun zero => headed.imp_left fun other => by simp [zero, other]
  have only : (mode != .udpfrag && i == 0) = true → i = 0 ∨ 0 ∉ done := by
    intro needed
    simp only [Bool.and_eq_true, beq_iff_eq] at needed
    exact Or.inl needed.2
  obtain ⟨first, second, copied, copiedHeader, capability, after⟩ := assembled.add positive
    (number ▸ inside) fresh (number ▸ sizes) _ copies only
  have total : done.length + 1 ≤ state.maxFragnum := by
    rw [number]
    exact length_le_of_nodup after.distinct after.inside
  have small : (state.curFragnum + 1) % 2 ^ 16 = done.length + 1 := by
    rw [counted]
    omega
  have result : state.store mode (state.fragment header body i) =
      if state.maxFragnum ≤ done.length + 1 then some (.done second state.srcAddr)
      else some (.wait (.next { state with buf := second, curFragnum := done.length + 1 })) := by
    unfold Receiving.store Receiving.fragment
    simp only [index, head, tail, guard, inside, if_true, copied, copiedHeader, small, Option.pure_def,
      Option.bind_eq_bind, Option.bind_some]
  rw [result]
  by_cases full : state.maxFragnum ≤ done.length + 1
  · refine Or.inl ⟨by omega, second, if_pos full, capability, ?_⟩
    exact after.content positive (sizes 0 (by omega)) (by rw [List.length_cons, ← number]; exact full)
  · refine Or.inr ⟨by omega, second, if_neg full, capability, after, positive, number, few, rfl, sizes⟩

section Receiver

variable {mode : FragMode} {method : Method} {header : Nat → List UInt8} {body : List UInt8}

/-- The first packet sets the call up for the packet it belongs to, and is stored as all others are. -/
theorem recvLarge_eq_store {buf : DynamicArray} {fragHdrsize fragBodysize fragnum : Nat} {key : Key}
    {optype : PacketType} {client : UInt16} {fragseq : UInt32} {srcAddr : SockAddr} {fragbuf : List UInt8}
    (room : fragHdrsize ≤ buf.maxcapability)
    (total : fragTotalsize mode method optype = fragHdrsize + 2 + 2 + fragBodysize)
    (positive : 0 < fragBodysize) (long : fragHdrsize + 2 + 2 ≤ fragbuf.length)
    (short : fragbuf.length ≤ fragHdrsize + 2 + 2 + fragBodysize)
    (number : halfAt fragbuf (fragHdrsize + 2) = some fragnum)
    (known : largepktHeader mode method fragbuf = some (key, optype))
    (source : largepktSource mode method fragbuf = some (client, fragseq)) :
    ∃ copied : DynamicArray, Wrote buf 0 (fragbuf.take fragHdrsize) copied ∧
      recvLarge mode method buf fragHdrsize fragbuf srcAddr = Receiving.store mode
        ⟨fragHdrsize, fragBodysize, fragnum, 0, copied, key, optype, client, fragseq, srcAddr⟩ fragbuf := by
  have size : (fragbuf.take fragHdrsize).length = fragHdrsize := List.length_take_of_le (by omega)
  obtain ⟨copied, copies, wrote⟩ := (writes_dynamicMemcpy buf 0 (fragbuf.take fragHdrsize)).1 (by omega)
  have isBody : fragHdrsize + 2 + 2 + fragBodysize - (fragHdrsize + 2 + 2) = fragBodysize := by omega
  have nonzero : fragHdrsize + 2 + 2 ≠ 0 ∧ fragBodysize ≠ 0 := by omega
  refine ⟨copied, wrote, ?_⟩
  unfold recvLarge
  simp only [known, source, total, isBody, guard, long, short, nonzero, copies, number, ne_eq, and_self,
    not_false_eq_true, if_true, id_eq, Option.pure_def, Option.bind_eq_bind, Option.bind_some]

/-- The same for a fragment: nothing of its packet has arrived yet. -/
theorem recvLarge_fragment {buf : DynamicArray} {fragHdrsize fragBodysize fragnum i : Nat} {key : Key}
    {optype : PacketType} {client : UInt16} {fragseq : UInt32} {srcAddr : SockAddr} (empty : buf.cursize = 0)
    (capability : fragHdrsize + body.length ≤ buf.maxcapability)
    (total : fragTotalsize mode method optype = fragHdrsize + 2 + 2 + fragBodysize) (positive : 0 < fragBodysize)
    (number : fragnum = count fragBodysize body.length) (few : fragnum < 2 ^ 16) (inside : i < fragnum)
    (sizes : ∀ i < fragnum, (header i).length = fragHdrsize)
    (known : largepktHeader mode method (fragmentBytes (header i) fragnum i (piece fragBodysize body i)) =
      some (key, optype))
    (source : largepktSource mode method (fragmentBytes (header i) fragnum i (piece fragBodysize body i)) =
      some (client, fragseq)) :
    ∃ copied : DynamicArray, copied.maxcapability = buf.maxcapability ∧
      Collecting ⟨fragHdrsize, fragBodysize, fragnum, 0, copied, key, optype, client, fragseq, srcAddr⟩
        header body [] ∧
      recvLarge mode method buf fragHdrsize (fragmentBytes (header i) fragnum i (piece fragBodysize body i)) srcAddr =
        Receiving.store mode ⟨fragHdrsize, fragBodysize, fragnum, 0, copied, key, optype, client, fragseq, srcAddr⟩
          (fragmentBytes (header i) fragnum i (piece fragBodysize body i)) := by
  have size := sizes i inside
  obtain ⟨_, numberRead, head, _⟩ := @read_fragmentBytes (header i)
    (piece fragBodysize body i) fragHdrsize fragnum i size few (by omega)
  have length := length_fragmentBytes (header i) fragnum i (piece fragBodysize body i)
  have width := length_piece_le fragBodysize body i
  obtain ⟨copied, wrote, stored⟩ := @recvLarge_eq_store mode method buf fragHdrsize fragBodysize fragnum
    key optype client fragseq srcAddr _ (by omega) total positive (by omega) (by omega) numberRead known source
  rw [head] at wrote
  exact ⟨copied, wrote.maxcapability, ⟨assembled_nil wrote empty size capability, positive, number, few, rfl, sizes⟩,
    stored⟩

/-- The packet has the key, type, client and attempt that the call collects, as far as the call asks. -/
def Receiving.Expects (mode : FragMode) (method : Method) (state : Receiving) (fragbuf : List UInt8) : Prop :=
  match mode with
  | .udpfrag => True
  | .client => largepktHeader mode method fragbuf = some (state.largepktKey, state.largepktOptype)
  | .server => largepktHeader mode method fragbuf = some (state.largepktKey, state.largepktOptype) ∧
      state.largepktOptype.isPacketWithClientlogicalidx = true ∧
      largepktSource mode method fragbuf = some (state.largepktClientlogicalidx, state.largepktFragseq)

variable {fragbuf : List UInt8}

theorem largepktHeader_eq_some {key : Key} {optype : PacketType} (ipfrag : mode ≠ .udpfrag) :
    largepktHeader mode method fragbuf = some (key, optype) ↔
      getPacketKey method fragbuf = some key ∧ getPacketType fragbuf = some optype := by
  have unfolded : largepktHeader mode method fragbuf = (getPacketKey method fragbuf).bind fun key =>
      (getPacketType fragbuf).bind fun optype => some (key, optype) := by
    cases mode with
    | udpfrag => exact absurd rfl ipfrag
    | client | server => rfl
  rw [unfolded]
  cases getPacketKey method fragbuf <;> cases getPacketType fragbuf <;> simp

theorem largepktSource_eq_some {client : UInt16} {fragseq : UInt32} :
    largepktSource .server method fragbuf = some (client, fragseq) ↔
      getPacketClientlogicalidx method fragbuf = some client ∧ getPacketFragseq method fragbuf = some fragseq := by
  have unfolded : largepktSource .server method fragbuf = (getPacketClientlogicalidx method fragbuf).bind
      fun client =>
      (getPacketFragseq method fragbuf).bind fun fragseq => some (client, fragseq) := rfl
  rw [unfolded]
  cases getPacketClientlogicalidx method fragbuf <;> cases getPacketFragseq method fragbuf <;> simp

theorem recvDatagram_of_expects {state : Receiving} {ring : PktRingBuffer} {fragbuf : List UInt8} {srcAddr : SockAddr}
    (expects : state.Expects mode method fragbuf) (long : state.fragHdrsize + 2 + 2 ≤ fragbuf.length)
    (short : fragbuf.length ≤ mode.fragbufMaxsize) :
    recvDatagram mode method ring (.next state) fragbuf srcAddr = (state.store mode fragbuf).map (ring, ·) := by
  unfold recvDatagram
  rw [List.take_of_length_le short]
  cases mode with
  | udpfrag => simp [recvNextUdpfrag, guard, long]
  | client =>
    obtain ⟨key, optype⟩ := (largepktHeader_eq_some (by decide)).mp expects
    simp [recvNextClient, guard, long, key, optype]
  | server =>
    obtain ⟨known, withClient, source⟩ := expects
    obtain ⟨key, optype⟩ := (largepktHeader_eq_some (by decide)).mp known
    obtain ⟨client, fragseq⟩ := largepktSource_eq_some.mp source
    have large := PacketType.isPacketWithLargevalue_of_clientlogicalidx withClient
    have same : recvSameClient state state.largepktOptype state.largepktKey state.largepktFragseq fragbuf =
        state.store .server fragbuf := by
      simp [recvSameClient, PacketType.isSameOptype_self, guard, long]
    simp only [recvNextServer, key, optype, large, withClient, client, fragseq, same, Option.bind_eq_bind,
      Option.bind_some]
    cases state.store .server fragbuf <;> simp

/-- The remaining fragments, once each and in any order, complete the packet with the last of them. -/
theorem recvLoop_fragments {state : Receiving} {done : List Nat} (collecting : Collecting state header body done)
    (headed : mode ≠ .udpfrag ∨ state.fragHdrsize = 0) (ring : PktRingBuffer) (srcAddr : SockAddr)
    (expects : ∀ i < state.maxFragnum, state.Expects mode method (state.fragment header body i))
    (short : state.fragHdrsize + 2 + 2 + state.fragBodysize ≤ mode.fragbufMaxsize) {rest : List Nat}
    (different : (rest ++ done).Nodup) (inside : ∀ i ∈ rest, i < state.maxFragnum)
    (all : rest.length + done.length = state.maxFragnum) (nonempty : rest ≠ []) :
    ∃ buf, recvLoop mode method ring (.next state)
        (rest.map fun i => .datagram (state.fragment header body i) srcAddr) = .returned buf state.srcAddr ring [] ∧
      buf.content = header 0 ++ body := by
  induction rest generalizing state done with
  | nil => exact absurd rfl nonempty
  | cons i rest ih =>
    have here := inside i List.mem_cons_self
    have fresh : i ∉ done := by
      intro old
      rw [List.cons_append, List.nodup_cons] at different
      exact different.1 (List.mem_append_right _ old)
    have length := length_fragmentBytes (header i) state.maxFragnum i (piece state.fragBodysize body i)
    have size := collecting.sizes i here
    have width := length_piece_le state.fragBodysize body i
    have received := @recvDatagram_of_expects mode method state ring (state.fragment header body i) srcAddr
      (expects i here) (by rw [Receiving.fragment]; omega) (by rw [Receiving.fragment]; omega)
    rw [List.map_cons, recvLoop, received]
    rw [List.length_cons] at all
    rcases collecting.store here fresh headed with ⟨full, buf, stored, _, content⟩ | ⟨more, buf, stored, _, after⟩
    · have last : rest = [] := List.eq_nil_of_length_eq_zero (by omega)
      rw [stored, last]
      exact ⟨buf, rfl, content⟩
    · rw [stored]
      refine ih after headed expects short ?_ (fun j member => inside j (List.mem_cons_of_mem _ member)) ?_ ?_
      · exact (List.perm_middle.nodup_iff).mpr different
      · rw [List.length_cons]
        change rest.length + (done.length + 1) = state.maxFragnum
        omega
      · intro none
        rw [none, List.length_nil] at all
        omega

end Receiver

/-- The first bytes of the fragments of a large packet, with what a receiver finds in every packet that starts with
them. -/
structure LargeHeader (mode : FragMode) (method : Method) where
  bytes : List UInt8
  fragBodysize : Nat
  key : Key
  optype : PacketType
  clientlogicalidx : UInt16
  fragseq : UInt32
  known : ∀ data, bytes <+: data → largepktHeader mode method data = some (key, optype)
  source : ∀ data, bytes <+: data → largepktSource mode method data = some (clientlogicalidx, fragseq)
  first : ∀ data, bytes <+: data → ∀ buf srcAddr,
    recvFirst mode method buf data srcAddr = recvLarge mode method buf bytes.length data srcAddr
  withClient : mode = .server → optype.isPacketWithClientlogicalidx = true
  headed : mode ≠ .udpfrag ∨ bytes.length = 0
  size : mode ≠ .udpfrag → bytes.length = method.getFragHdrsize optype
  total : fragTotalsize mode method optype = bytes.length + 2 + 2 + fragBodysize
  positive : 0 < fragBodysize
  short : fragTotalsize mode method optype ≤ mode.fragbufMaxsize

theorem Method.getFragHdrsize_bounds (method : Method) {type : PacketType}
    (large : type.isPacketWithLargevalue = true) :
    method.getOphdrsize ≤ method.getFragHdrsize type ∧ method.getFragHdrsize type ≤ 34 := by
  cases type with
  | scanresSplit | other _ _ => simp [PacketType.isPacketWithLargevalue] at large
  | _ => cases method <;> decide

theorem Method.getFragTotalsize_bounds (method : Method) (type : PacketType) :
    1412 ≤ method.getFragTotalsize type 1412 ∧ method.getFragTotalsize type 1412 ≤ 1422 := by
  unfold Method.getFragTotalsize
  split
  · cases method <;> decide
  · decide

variable {data : List UInt8}

theorem getPacketKey_isSome {method : Method} (long : method.getOphdrsize ≤ data.length) :
    ∃ key, getPacketKey method data = some key := by
  have ophdr : 18 ≤ method.getOphdrsize := by cases method <;> decide
  simp [getPacketKey, Key.deserialize, guard, readAt, show 16 ≤ data.length - (method.getOphdrsize - 16) by omega,
    show method.getOphdrsize - 16 + 4 ≤ data.length by omega, show method.getOphdrsize - 16 + 4 + 4 ≤
        data.length by omega,
    show method.getOphdrsize - 16 + 8 + 4 ≤ data.length by omega, show method.getOphdrsize - 16 + 12 + 2 ≤
        data.length by omega,
    show method.getOphdrsize - 16 + 14 + 2 ≤ data.length by omega]

theorem getPacketSource_isSome {method : Method} {type : PacketType} (isType : getPacketType data = some type)
    (withClient : type.isPacketWithClientlogicalidx = true) (long : method.getFragHdrsize type ≤ data.length) :
    ∃ client fragseq, getPacketClientlogicalidx method data = some client ∧ getPacketFragseq method data =
      some fragseq := by
  have offset : ∃ off, clientlogicalidxOff method type = some off := by
    cases type with
    | getresLargevalue | getresLargevalueSeq | getresLargevalueServerSeq | scanresSplit | other _ _ =>
      simp [PacketType.isPacketWithClientlogicalidx] at withClient
    | _ => exact ⟨_, rfl⟩
  obtain ⟨off, found⟩ := offset
  have sized := clientlogicalidxOff_eq found
  simp [getPacketClientlogicalidx, getPacketFragseq, isType, found, readAt, show off + 2 ≤ data.length by omega,
    show off + 2 + 4 ≤ data.length by omega]

theorem recvFirst_of_type {mode : FragMode} {method : Method} {buf : DynamicArray} {fragbuf : List UInt8}
    {srcAddr : SockAddr} {optype : PacketType} (ipfrag : mode ≠ .udpfrag)
    (isType : getPacketType fragbuf = some optype) :
    recvFirst mode method buf fragbuf srcAddr =
      if optype.isPacketWithLargevalue = true then
        recvLarge mode method buf (method.getFragHdrsize optype) fragbuf srcAddr
      else (buf.dynamicMemcpy 0 fragbuf).bind fun copied => some (.done copied srcAddr) := by
  cases mode with
  | udpfrag => exact absurd rfl ipfrag
  | client | server =>
    unfold recvFirst
    rw [isType]
    rfl

/-- Every header of a type for IP fragments, as long as the receiver takes it to be. -/
theorem exists_largeHeader {mode : FragMode} {method : Method} {bytes : List UInt8} {type : PacketType}
    (ipfrag : mode ≠ .udpfrag) (isType : getPacketType bytes = some type) (large : type.isPacketWithLargevalue = true)
    (withClient : mode = .server → type.isPacketWithClientlogicalidx = true)
    (size : bytes.length = method.getFragHdrsize type) :
    ∃ header : LargeHeader mode method, header.bytes = bytes ∧ header.optype = type := by
  obtain ⟨ophdr, hdrsize⟩ := method.getFragHdrsize_bounds large
  obtain ⟨totalLow, totalHigh⟩ := method.getFragTotalsize_bounds type
  have two : 2 ≤ bytes.length := by
    have least : 18 ≤ method.getOphdrsize := by cases method <;> decide
    omega
  have typed : ∀ data, bytes <+: data → getPacketType data = some type :=
    fun data starts => (getPacketType_of_starts starts two).trans isType
  obtain ⟨key, isKey⟩ := getPacketKey_isSome (show method.getOphdrsize ≤ bytes.length by omega)
  have keyed : ∀ data, bytes <+: data → getPacketKey method data = some key :=
    fun data starts => (getPacketKey_of_starts starts (by omega)).trans isKey
  have sourced : ∃ client fragseq, ∀ data, bytes <+: data →
      largepktSource mode method data = some (client, fragseq) := by
    cases mode with
    | udpfrag | client => exact ⟨0, 0, fun _ _ => rfl⟩
    | server =>
      obtain ⟨client, fragseq, isClient, isFragseq⟩ := getPacketSource_isSome isType (withClient rfl) size.ge
      refine ⟨client, fragseq, fun data starts => largepktSource_eq_some.mpr ⟨?_, ?_⟩⟩
      · exact (getPacketClientlogicalidx_of_starts starts isType two size).trans isClient
      · exact (getPacketFragseq_of_starts starts isType two size).trans isFragseq
  obtain ⟨client, fragseq, source⟩ := sourced
  have total : 1412 ≤ fragTotalsize mode method type ∧ fragTotalsize mode method type ≤ 1422 := by
    cases mode with
    | udpfrag => exact absurd rfl ipfrag
    | client => exact ⟨(by decide : 1412 ≤ 1412), (by decide : 1412 ≤ 1422)⟩
    | server => exact ⟨totalLow, totalHigh⟩
  have room : 1422 ≤ mode.fragbufMaxsize := by cases mode <;> decide
  refine ⟨⟨bytes, fragTotalsize mode method type - (bytes.length + 2 + 2), key, type, client, fragseq,
    fun data starts => (largepktHeader_eq_some ipfrag).mpr ⟨keyed data starts, typed data starts⟩, source,
    fun data starts buf srcAddr => ?_, withClient, Or.inl ipfrag, fun _ => size, by omega, by omega, by omega⟩,
      rfl, rfl⟩
  rw [recvFirst_of_type ipfrag (typed data starts), if_pos large, size]

namespace LargeHeader

variable {mode : FragMode} {method : Method}

def fragment (header : LargeHeader mode method) (body : List UInt8) (i : Nat) : List UInt8 :=
  fragmentBytes header.bytes (count header.fragBodysize body.length) i (piece header.fragBodysize body i)

/-- A call that has found the header and nothing else. -/
def receiving (header : LargeHeader mode method) (body : List UInt8) (copied : DynamicArray) (srcAddr : SockAddr) :
    Receiving :=
  ⟨header.bytes.length, header.fragBodysize, count header.fragBodysize body.length, 0, copied, header.key,
    header.optype, header.clientlogicalidx, header.fragseq, srcAddr⟩

theorem bytes_starts_fragment (header : LargeHeader mode method) (body : List UInt8) (i : Nat) :
    header.bytes <+: header.fragment body i := List.prefix_append _ _

theorem length_fragment (header : LargeHeader mode method) (body : List UInt8) (i : Nat) :
    header.bytes.length + 2 + 2 ≤ (header.fragment body i).length ∧
      (header.fragment body i).length ≤ fragTotalsize mode method header.optype := by
  have length := length_fragmentBytes header.bytes (count header.fragBodysize body.length) i
    (piece header.fragBodysize body i)
  have width := length_piece_le header.fragBodysize body i
  have total := header.total
  unfold fragment
  omega

theorem receiving_expects (header : LargeHeader mode method) (body : List UInt8) (copied : DynamicArray)
    (srcAddr : SockAddr) (i : Nat) :
    (header.receiving body copied srcAddr).Expects mode method (header.fragment body i) := by
  have starts := header.bytes_starts_fragment body i
  have known := header.known _ starts
  have source := header.source _ starts
  cases mode with
  | udpfrag => trivial
  | client => exact known
  | server => exact ⟨known, header.withClient rfl, source⟩

/-- The first fragment is received as if the call had known the header before. -/
theorem recvDatagram_first (header : LargeHeader mode method) {body : List UInt8} {buf : DynamicArray} {i : Nat}
    {srcAddr : SockAddr} (empty : buf.cursize = 0)
    (capability : header.bytes.length + body.length ≤ buf.maxcapability)
    (few : count header.fragBodysize body.length < 2 ^ 16) (inside : i < count header.fragBodysize body.length) :
    ∃ copied : DynamicArray, copied.maxcapability = buf.maxcapability ∧
      Collecting (header.receiving body copied srcAddr) (fun _ => header.bytes) body [] ∧
      ∀ ring, recvDatagram mode method ring (.first buf) (header.fragment body i) srcAddr =
        recvDatagram mode method ring (.next (header.receiving body copied srcAddr))
          (header.fragment body i) srcAddr := by
  have starts := header.bytes_starts_fragment body i
  obtain ⟨long, total⟩ := header.length_fragment body i
  have short := header.short
  obtain ⟨copied, capable, collecting, stored⟩ :=
    @recvLarge_fragment mode method (fun _ => header.bytes) body buf _ _ _ i
    _ _ _ _ srcAddr empty capability header.total header.positive rfl few inside (fun _ _ => rfl)
      (header.known _ starts)
    (header.source _ starts)
  refine ⟨copied, capable, collecting, fun ring => ?_⟩
  rw [recvDatagram_of_expects (header.receiving_expects body copied srcAddr i) long (by omega)]
  unfold recvDatagram
  rw [List.take_of_length_le (by omega)]
  simp only [header.first _ starts]
  exact congrArg (Option.map _) stored

end LargeHeader

end FarReach
