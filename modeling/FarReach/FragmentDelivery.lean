import FarReach.Fragments

namespace FarReach

open Bytes DynamicArray Reassembly

/-- The header size with which a receiver reads the fragments of a message: none for UDP fragments, that of the packet
type for IP fragments. A server takes only packets that name their client. -/
def HeaderSize (mode : FragMode) (method : Method) (message : List UInt8) (fragHdrsize : Nat) : Prop :=
  match mode with
  | .udpfrag => fragHdrsize = 0
  | .client => ∃ type, getPacketType message = some type ∧ type.isPacketWithLargevalue = true ∧
      fragHdrsize = method.getFragHdrsize type
  | .server => ∃ type, getPacketType message = some type ∧ type.isPacketWithClientlogicalidx = true ∧
      fragHdrsize = method.getFragHdrsize type

/-- The message is sent in fragments, and every order of these gives it back after the last one. -/
def RoundTrip (mode : FragMode) (method : Method) (ring : PktRingBuffer) (buf : DynamicArray) (message : List UInt8)
    (fragHdrsize : Nat) : Prop :=
  ∃ fragments, udpsendlarge message fragHdrsize mode.fragMaxsize = some fragments ∧
    ∀ delivered : List (List UInt8), delivered.Perm fragments → ∀ srcAddr, ∃ result,
      udprecvlarge mode method ring buf (delivered.map fun fragment => .datagram fragment srcAddr) =
        .returned result srcAddr ring [] ∧ result.content = message

section

variable {mode : FragMode} {method : Method} {message : List UInt8} {fragHdrsize : Nat}

theorem HeaderSize.exists_type (isSize : HeaderSize mode method message fragHdrsize) (ipfrag : mode ≠ .udpfrag) :
    ∃ type, getPacketType message = some type ∧ type.isPacketWithLargevalue = true ∧
      (mode = .server → type.isPacketWithClientlogicalidx = true) ∧ fragHdrsize = method.getFragHdrsize type := by
  cases mode with
  | udpfrag => exact absurd rfl ipfrag
  | client =>
    obtain ⟨type, isType, large, size⟩ := isSize
    exact ⟨type, isType, large, fun server => (by cases server), size⟩
  | server =>
    obtain ⟨type, isType, withClient, size⟩ := isSize
    exact ⟨type, isType, PacketType.isPacketWithLargevalue_of_clientlogicalidx withClient, fun _ => withClient, size⟩

theorem HeaderSize.le (isSize : HeaderSize mode method message fragHdrsize) : fragHdrsize ≤ 34 := by
  by_cases udpfrag : mode = .udpfrag
  · subst udpfrag
    have zero : fragHdrsize = 0 := isSize
    omega
  · obtain ⟨type, _, large, _, size⟩ := isSize.exists_type udpfrag
    rw [size]
    exact (method.getFragHdrsize_bounds large).2

/-- What a receiver finds in the fragments of a message. -/
theorem HeaderSize.exists_header (isSize : HeaderSize mode method message fragHdrsize)
    (headed : fragHdrsize ≤ message.length) :
    ∃ header : LargeHeader mode method, header.bytes = message.take fragHdrsize ∧
      (mode ≠ .udpfrag → getPacketType message = some header.optype) := by
  by_cases udpfrag : mode = .udpfrag
  · subst udpfrag
    have zero : fragHdrsize = 0 := isSize
    refine ⟨⟨[], 65503, ⟨0, 0, 0, 0⟩, .ofCode 0, 0, 0, fun _ _ => rfl, fun _ _ => rfl, fun _ _ _ _ => rfl,
      fun server => (by cases server), Or.inr rfl, fun other => absurd rfl other, rfl, by decide, Nat.le_refl _⟩, ?_,
      fun other => absurd rfl other⟩
    rw [zero, List.take_zero]
  · obtain ⟨type, isType, large, withClient, size⟩ := isSize.exists_type udpfrag
    have length : (message.take fragHdrsize).length = fragHdrsize := List.length_take_of_le headed
    have two : 2 ≤ fragHdrsize := by
      have least : 18 ≤ method.getOphdrsize := by cases method <;> decide
      have bound := (method.getFragHdrsize_bounds large).1
      omega
    have sameType := getPacketType_of_starts (List.take_prefix fragHdrsize message) (by omega)
    obtain ⟨header, bytes, optype⟩ := exists_largeHeader udpfrag (sameType.symm.trans isType) large withClient
      (length.trans size)
    refine ⟨header, bytes, fun _ => ?_⟩
    rw [optype, isType]

/-- The receiver's body size is the sender's, except that a server expects the fragments a switch has widened. -/
theorem LargeHeader.fragBodysize_eq (header : LargeHeader mode method)
    (sent : ¬ (mode = .server ∧ header.optype.isPutreqLargevalueSeq = true)) :
    header.fragBodysize = mode.fragMaxsize - (header.bytes.length + 2 + 2) := by
  have total := header.total
  have same : fragTotalsize mode method header.optype = mode.fragMaxsize := by
    cases mode with
    | udpfrag | client => rfl
    | server =>
      have plain : header.optype.isPutreqLargevalueSeq = false := by
        cases seq : header.optype.isPutreqLargevalueSeq with
        | false => rfl
        | true => exact absurd ⟨rfl, seq⟩ sent
      simp [fragTotalsize, Method.getFragTotalsize, plain]
  omega

theorem LargeHeader.le_fragBodysize (header : LargeHeader mode method) :
    mode.fragMaxsize - (header.bytes.length + 2 + 2) ≤ header.fragBodysize := by
  have total := header.total
  have bound : mode.fragMaxsize ≤ fragTotalsize mode method header.optype := by
    cases mode with
    | udpfrag | client => exact Nat.le_refl _
    | server => exact (method.getFragTotalsize_bounds header.optype).1
  omega

/-- The fragments as the receiver cuts the message, where that is how the sender does. -/
theorem LargeHeader.udpsendlarge_eq (header : LargeHeader mode method)
    (bytes : header.bytes = message.take fragHdrsize) (headed : fragHdrsize ≤ message.length)
    (small : fragHdrsize ≤ 34) (bounded : message.length ≤ 8388608)
    (narrow : mode = .server → header.optype.isPutreqLargevalueSeq = true →
      message.length + 2 + 2 ≤ FragMode.server.fragMaxsize) :
    count header.fragBodysize (message.drop fragHdrsize).length < 2 ^ 16 ∧
      udpsendlarge message fragHdrsize mode.fragMaxsize =
        some ((List.range (count header.fragBodysize (message.drop fragHdrsize).length)).map
          (header.fragment (message.drop fragHdrsize))) := by
  have length : header.bytes.length = fragHdrsize := by
    rw [bytes]
    exact List.length_take_of_le headed
  have bodyLength : (message.drop fragHdrsize).length = message.length - fragHdrsize := List.length_drop
  have size : 1412 ≤ mode.fragMaxsize := by cases mode <;> decide
  have wide : 1374 ≤ mode.fragMaxsize - (fragHdrsize + 2 + 2) := by omega
  have few : ∀ width, 1374 ≤ width → count width (message.length - fragHdrsize) < 2 ^ 16 := by
    intro width large
    have bound := count_le width (message.length - fragHdrsize)
    have quotient : (message.length - fragHdrsize) / width ≤ 8388608 / 1374 :=
      Nat.div_le_div (by omega) large (by decide)
    omega
  have larger := header.le_fragBodysize
  rw [length] at larger
  rw [bodyLength]
  refine ⟨few _ (by omega), ?_⟩
  rw [FarReach.udpsendlarge_eq headed (by omega) (few _ wide)]
  unfold LargeHeader.fragment
  rw [bodyLength, bytes]
  by_cases widened : mode = .server ∧ header.optype.isPutreqLargevalueSeq = true
  · -- the body sizes differ, but there is only one fragment
    obtain ⟨rfl, seq⟩ := widened
    have fits := narrow rfl seq
    rw [count_eq_one (show message.length - fragHdrsize ≤
      FragMode.server.fragMaxsize - (fragHdrsize + 2 + 2) by omega),
        count_eq_one (show message.length - fragHdrsize ≤ header.fragBodysize by omega)]
    simp only [List.range_one, List.map_cons, List.map_nil]
    rw [piece_zero (by omega), piece_zero (by omega)]
  · have same := header.fragBodysize_eq widened
    rw [length] at same
    rw [same]

variable {buf : DynamicArray} {ring : PktRingBuffer}

theorem LargeHeader.recvLoop_first (header : LargeHeader mode method) {body : List UInt8} (empty : buf.cursize = 0)
    (capability : header.bytes.length + body.length ≤ buf.maxcapability)
    (few : count header.fragBodysize body.length < 2 ^ 16) (ring : PktRingBuffer) (srcAddr : SockAddr)
    {order : List Nat} (all : order.Perm (List.range (count header.fragBodysize body.length))) :
    ∃ result, recvLoop mode method ring (.first buf) (order.map fun i => .datagram (header.fragment body i) srcAddr) =
        .returned result srcAddr ring [] ∧ result.content = header.bytes ++ body := by
  have number : order.length = count header.fragBodysize body.length := by
    rw [all.length_eq, List.length_range]
  have positive := count_pos header.positive body.length
  have inside : ∀ i ∈ order, i < count header.fragBodysize body.length :=
    fun i member => List.mem_range.mp (all.mem_iff.mp member)
  cases order with
  | nil =>
    rw [List.length_nil] at number
    omega
  | cons i rest =>
    obtain ⟨copied, _, collecting, received⟩ :=
      @LargeHeader.recvDatagram_first mode method header body buf i srcAddr empty
      capability few (inside i List.mem_cons_self)
    have same : recvLoop mode method ring (.first buf)
          ((i :: rest).map fun i => .datagram (header.fragment body i) srcAddr) =
        recvLoop mode method ring (.next (header.receiving body copied srcAddr))
          ((i :: rest).map fun i => .datagram (header.fragment body i) srcAddr) := by
      rw [List.map_cons, recvLoop, recvLoop, received]
    rw [same]
    have total := header.total
    have short := header.short
    refine recvLoop_fragments collecting header.headed ring srcAddr
      (fun j _ => header.receiving_expects body copied srcAddr j)
      (total ▸ short) ?_ inside number (List.cons_ne_nil _ _)
    rw [List.append_nil]
    exact all.nodup_iff.mpr List.nodup_range

theorem recvStart_idle (idle : mode = .server → ring.contents = []) :
    recvStart mode method ring buf = some (ring, .wait (.first buf)) := by
  cases mode with
  | udpfrag | client => rfl
  | server => simp [recvStart, PktRingBuffer.pop_empty buf (idle rfl)]

theorem udprecvlarge_idle (idle : mode = .server → ring.contents = []) (events : List SocketEvent) :
    udprecvlarge mode method ring buf events = recvLoop mode method ring (.first buf) events := by
  rw [udprecvlarge, recvStart_idle idle]

/-- Fragmentation and reassembly give the message back. -/
theorem fragments_round_trip (mode : FragMode) (method : Method) (message : List UInt8) (fragHdrsize : Nat)
    (bounded : message.length ≤ 8388608) (headed : fragHdrsize ≤ message.length)
    (isSize : HeaderSize mode method message fragHdrsize)
    (narrow : ∀ type, mode = .server → getPacketType message = some type → type.isPutreqLargevalueSeq = true →
      message.length + 2 + 2 ≤ FragMode.server.fragMaxsize)
    (ring : PktRingBuffer) (idle : mode = .server → ring.contents = []) (buf : DynamicArray)
    (cleared : buf.cursize = 0) (capability : buf.maxcapability = 8388608) :
    RoundTrip mode method ring buf message fragHdrsize := by
  obtain ⟨header, bytes, isType⟩ := isSize.exists_header headed
  have length : header.bytes.length = fragHdrsize := by
    rw [bytes]
    exact List.length_take_of_le headed
  have bodyLength : (message.drop fragHdrsize).length = message.length - fragHdrsize := List.length_drop
  obtain ⟨few, sent⟩ := header.udpsendlarge_eq bytes headed isSize.le bounded fun server =>
    narrow _ server (isType (by rw [server]; decide))
  refine ⟨_, sent, fun delivered permuted srcAddr => ?_⟩
  obtain ⟨order, rfl, all⟩ : Relation.Comp (· = List.map (header.fragment (message.drop fragHdrsize)) ·) List.Perm
      delivered _ := by
    rw [List.eq_map_comp_perm]
    exact permuted
  obtain ⟨result, received, content⟩ := header.recvLoop_first cleared (by omega) few ring srcAddr all
  refine ⟨result, ?_, ?_⟩
  · rw [udprecvlarge_idle idle, List.map_map]
    exact received
  · rw [content, bytes, List.take_append_drop]

theorem fragments_round_trip_put : RoundTrip .server .farreach (.init 1 Nat.one_pos) packetBuffer
    ([0x02, 0xd0] ++ List.replicate 3000 0) 24 := by
  have length : ([0x02, 0xd0] ++ List.replicate 3000 (0 : UInt8)).length = 3002 := by
    rw [List.length_append, List.length_replicate]
    rfl
  have isType : getPacketType ([0x02, 0xd0] ++ List.replicate 3000 0) = some .putreqLargevalue :=
    (getPacketType_of_starts (List.prefix_append _ _) (by decide)).trans (by decide)
  refine fragments_round_trip .server .farreach _ 24 (by omega) (by omega) ⟨_, isType, rfl, rfl⟩ ?_ _
    (fun _ => PktRingBuffer.contents_init Nat.one_pos) packetBuffer rfl rfl
  intro type _ found seq
  rw [isType, Option.some.injEq] at found
  subst found
  cases seq

theorem RoundTrip.recvFirst (trip : RoundTrip mode method ring buf message fragHdrsize)
    (idle : mode = .server → ring.contents = []) (fragment : List UInt8)
    (sent : udpsendlarge message fragHdrsize mode.fragMaxsize = some [fragment])
    (short : fragment.length ≤ mode.fragbufMaxsize) :
    ∃ result, recvFirst mode method buf fragment (0, 0) = some (.done result (0, 0)) ∧ result.content = message := by
  obtain ⟨fragments, isSent, returns⟩ := trip
  rw [sent, Option.some.injEq] at isSent
  subst isSent
  obtain ⟨result, received, content⟩ := returns _ (List.Perm.refl _) (0, 0)
  rw [udprecvlarge_idle idle] at received
  simp only [List.map_cons, List.map_nil, recvLoop, recvDatagram, List.take_of_length_le short] at received
  cases found : FarReach.recvFirst mode method buf fragment (0, 0) with
  | none =>
    rw [found] at received
    cases received
  | some progress =>
    rw [found] at received
    cases progress with
    | wait waiting => cases received
    | done buf srcAddr =>
      simp only [Option.map_some, CallResult.returned.injEq] at received
      obtain ⟨rfl, rfl, _⟩ := received
      exact ⟨_, rfl, content⟩

theorem recvFirst_small {buf : DynamicArray} {fragbuf : List UInt8} {srcAddr : SockAddr} {optype : PacketType}
    (ipfrag : mode ≠ .udpfrag) (isType : getPacketType fragbuf = some optype)
    (small : optype.isPacketWithLargevalue = false) (empty : buf.cursize = 0)
    (fits : fragbuf.length ≤ buf.maxcapability) :
    ∃ copied, recvFirst mode method buf fragbuf srcAddr = some (.done copied srcAddr) ∧ copied.content = fragbuf ∧
      copied.maxcapability = buf.maxcapability := by
  obtain ⟨copied, copies, wrote⟩ := (writes_dynamicMemcpy buf 0 fragbuf).1 (by omega)
  refine ⟨copied, ?_, wrote.content empty, wrote.maxcapability⟩
  rw [recvFirst_of_type ipfrag isType, if_neg (by simp [small]), copies]
  rfl

/-- A message in one fragment that looks small does not come back. -/
theorem not_roundTrip_small (ipfrag : mode ≠ .udpfrag) (idle : mode = .server → ring.contents = [])
    (fragment : List UInt8) (optype : PacketType)
    (sent : udpsendlarge message fragHdrsize mode.fragMaxsize = some [fragment])
    (isType : getPacketType fragment = some optype) (small : optype.isPacketWithLargevalue = false)
    (short : fragment.length ≤ mode.fragbufMaxsize) (different : message ≠ fragment) :
    ¬ RoundTrip mode method ring packetBuffer message fragHdrsize := by
  intro trip
  have room : mode.fragbufMaxsize ≤ packetBuffer.maxcapability := by cases mode <;> decide
  obtain ⟨result, received, content⟩ := trip.recvFirst idle fragment sent short
  obtain ⟨copied, returned, isFragment, _⟩ :=
    @recvFirst_small mode method packetBuffer fragment (0, 0) optype ipfrag isType small rfl (short.trans room)
  rw [returned] at received
  cases received
  exact different (content.symm.trans isFragment)

/-- Storing a fragment leaves the buffer at least as long as to the fragment's end. -/
theorem Receiving.store_eq {state : Receiving} {fragbuf : List UInt8} {idx : Nat}
    (index : halfAt fragbuf state.fragHdrsize = some idx) (inside : idx < state.maxFragnum)
    (room : state.fragHdrsize + idx * state.fragBodysize + (fragbuf.drop (state.fragHdrsize + 2 + 2)).length ≤
      state.buf.maxcapability) :
    ∃ buf, state.fragHdrsize + idx * state.fragBodysize + (fragbuf.drop (state.fragHdrsize + 2 + 2)).length ≤
      buf.cursize ∧
      buf.maxcapability = state.buf.maxcapability ∧
      state.store mode fragbuf =
        if state.maxFragnum ≤ (state.curFragnum + 1) % 2 ^ 16 then some (.done buf state.srcAddr)
        else some (.wait (.next { state with buf := buf, curFragnum := (state.curFragnum + 1) % 2 ^ 16 })) := by
  obtain ⟨first, copied, wrote⟩ := (writes_dynamicMemcpy state.buf (state.fragHdrsize + idx * state.fragBodysize)
    (fragbuf.drop (state.fragHdrsize + 2 + 2))).1 room
  have size := wrote.cursize
  have capability := wrote.maxcapability
  have headed : ∃ second, PktRingBuffer.copyFraghdr (mode != .udpfrag && idx == 0) first
      (fragbuf.take state.fragHdrsize) = some second ∧ first.cursize ≤ second.cursize ∧
      second.maxcapability = first.maxcapability := by
    unfold PktRingBuffer.copyFraghdr
    split
    · have short := List.length_take_le state.fragHdrsize fragbuf
      obtain ⟨second, copies, wroteHeader⟩ :=
        (writes_dynamicMemcpy first 0 (fragbuf.take state.fragHdrsize)).1 (by omega)
      have larger := wroteHeader.cursize
      exact ⟨second, copies, by omega, wroteHeader.maxcapability⟩
    · exact ⟨first, rfl, Nat.le_refl _, rfl⟩
  obtain ⟨second, copies, larger, kept⟩ := headed
  refine ⟨second, by omega, kept.trans capability, ?_⟩
  unfold Receiving.store
  simp only [index, guard, inside, copied, copies, if_true, id_eq, Option.pure_def, Option.bind_eq_bind,
    Option.bind_some]

end

/-- A message in two fragments of a type that only a switch assigns: the server expects wider ones and leaves a gap.
-/
theorem not_roundTrip_seq {message : List UInt8} (isType : getPacketType message = some .putreqLargevalueSeq)
    (length : message.length = 1409) (ring : PktRingBuffer) (idle : ring.contents = []) :
    ¬ RoundTrip .server .farreach ring packetBuffer message 34 := by
  rintro ⟨fragments, sent, returns⟩
  have headed : 34 ≤ message.length := by omega
  obtain ⟨header, bytes, typed⟩ := @HeaderSize.exists_header .server .farreach message 34 ⟨_, isType, rfl, rfl⟩ headed
  have optype : header.optype = .putreqLargevalueSeq := by
    have same := typed (by decide)
    rw [isType, Option.some.injEq] at same
    exact same.symm
  have size : (message.take 34).length = 34 := List.length_take_of_le headed
  have total := header.total
  rw [optype, bytes, size] at total
  have width : header.fragBodysize = 1384 := by
    have isTotal : fragTotalsize .server .farreach .putreqLargevalueSeq = 1422 := by decide
    omega
  have number : count 1374 (message.length - 34) = 2 := by
    rw [length]
    decide
  have cut := @udpsendlarge_eq message 34 1412 headed (by decide) (by rw [number]; decide)
  rw [show 1412 - (34 + 2 + 2) = 1374 from rfl, number, show List.range 2 = [0, 1] from rfl, List.map_cons,
    List.map_cons, List.map_nil] at cut
  have isFragments := sent.symm.trans cut
  rw [Option.some.injEq] at isFragments
  subst isFragments
  have starts : ∀ i, header.bytes <+: fragmentBytes (message.take 34) 2 i (piece 1374 (message.drop 34) i) := by
    intro i
    rw [bytes]
    exact List.prefix_append _ _
  obtain ⟨index0, number0, _, body0⟩ := @read_fragmentBytes (message.take 34)
    (piece 1374 (message.drop 34) 0) 34 2 0 size (by decide) (by decide)
  obtain ⟨index1, _, _, body1⟩ := @read_fragmentBytes (message.take 34) (piece 1374 (message.drop 34) 1) 34 2 1 size
    (by decide) (by decide)
  have length0 := length_fragmentBytes (message.take 34) 2 0 (piece 1374 (message.drop 34) 0)
  have length1 := length_fragmentBytes (message.take 34) 2 1 (piece 1374 (message.drop 34) 1)
  have piece0 : (piece 1374 (message.drop 34) 0).length = 1374 := by
    rw [length_piece, List.length_drop]
    omega
  have piece1 : (piece 1374 (message.drop 34) 1).length = 1 := by
    rw [length_piece, List.length_drop]
    omega
  have capability : packetBuffer.maxcapability = 8388608 := rfl
  obtain ⟨result, received, content⟩ := returns _ (List.Perm.refl _) (0, 0)
  have known := header.known _ (starts 0)
  have source := header.source _ (starts 0)
  have isTotal := header.total
  rw [bytes, size, width] at isTotal
  obtain ⟨copied, wrote, isStore⟩ := @recvLarge_eq_store .server .farreach packetBuffer 34 1384 2
    header.key header.optype header.clientlogicalidx header.fragseq (0, 0) _ (by omega) isTotal (by decide) (by omega)
    (by omega) number0 known source
  have copiedCapability := wrote.maxcapability
  obtain ⟨first, _, firstCapability, stored⟩ := @Receiving.store_eq .server
    ⟨34, 1384, 2, 0, copied, header.key, header.optype, header.clientlogicalidx, header.fragseq, (0, 0)⟩ _ _ index0
    Nat.two_pos (by dsimp only; rw [body0, piece0]; omega)
  obtain ⟨second, larger, _, storedNext⟩ := @Receiving.store_eq .server
    ⟨34, 1384, 2, 1, first, header.key, header.optype, header.clientlogicalidx, header.fragseq, (0, 0)⟩ _ _ index1
    Nat.one_lt_two (by dsimp only at firstCapability ⊢; rw [body1, piece1]; omega)
  have next := @recvDatagram_of_expects .server .farreach
    ⟨34, 1384, 2, 1, first, header.key, header.optype, header.clientlogicalidx, header.fragseq, (0, 0)⟩ ring _ (0, 0)
    ⟨header.known _ (starts 1), header.withClient rfl, header.source _ (starts 1)⟩ (by dsimp only; omega)
    (by rw [length1, size, piece1]; decide)
  have before : recvDatagram .server .farreach ring (.first packetBuffer)
      (fragmentBytes (message.take 34) 2 0 (piece 1374 (message.drop 34) 0)) (0, 0) =
      some (ring, .wait (.next ⟨34, 1384, 2, 1, first, header.key, header.optype, header.clientlogicalidx,
        header.fragseq, (0, 0)⟩)) := by
    unfold recvDatagram
    rw [List.take_of_length_le (by rw [length0, size, piece0]; decide)]
    simp only [header.first _ (starts 0), bytes, size, isStore, stored]
    rfl
  rw [storedNext] at next
  rw [udprecvlarge_idle fun _ => idle] at received
  simp only [List.map_cons, List.map_nil, recvLoop, before, next] at received
  have isSecond : second = result := by simpa using received
  rw [isSecond, body1, piece1] at larger
  dsimp only at larger
  have isLength : result.content.length = result.cursize := List.length_take_of_le result.cursize_le
  rw [content] at isLength
  omega

/-- Sent with another header size than the receiver finds, in a packet that it does not take to be large or for its
server, or cut as no sender cuts a packet of its type, a message does not come back. -/
theorem round_trip_other_headers :
    ¬ RoundTrip .udpfrag .farreach (.init 1 Nat.one_pos) packetBuffer [5, 0] 1 ∧
    ¬ RoundTrip .client .farreach (.init 1 Nat.one_pos) packetBuffer ([3, 0] ++ List.replicate 17 0) 0 ∧
    ¬ RoundTrip .client .farreach (.init 1 Nat.one_pos) packetBuffer (List.replicate 19 0) 18 ∧
    ¬ RoundTrip .server .farreach (.init 1 Nat.one_pos) packetBuffer ([3, 0] ++ List.replicate 17 0) 18 ∧
    ¬ RoundTrip .server .farreach (.init 1 Nat.one_pos) packetBuffer ([0, 0x32] ++ List.replicate 1407 0) 34 := by
  have idle := PktRingBuffer.contents_init Nat.one_pos
  have capability : packetBuffer.maxcapability = 8388608 := rfl
  refine ⟨fun trip => ?_, fun trip => ?_, fun trip => ?_, fun trip => ?_, not_roundTrip_seq ?_ ?_ _ idle⟩
  · -- the receiver takes the header for the fragment index
    obtain ⟨_, received, _⟩ := trip.recvFirst (fun _ => idle) [5, 0, 0, 0, 1, 0] (by decide) (by decide)
    obtain ⟨copied, _, isStore⟩ := @recvLarge_eq_store .udpfrag .farreach packetBuffer 0 65503 0 ⟨0, 0, 0, 0⟩
      (.ofCode 0) 0 0 (0, 0) [5, 0, 0, 0, 1, 0] (Nat.zero_le _) (by decide) (by decide) (by decide) (by decide)
      (by decide) rfl rfl
    have index : halfAt [5, 0, 0, 0, 1, 0] 0 = some 1280 := by decide
    have aborts : recvFirst .udpfrag .farreach packetBuffer [5, 0, 0, 0, 1, 0] (0, 0) = none := by
      refine isStore.trans ?_
      simp [Receiving.store, index, guard]
    rw [aborts] at received
    cases received
  · -- the index is where the receiver looks for the type
    exact not_roundTrip_small (by decide) (fun _ => idle) ([0, 0, 0, 1, 3, 0] ++ List.replicate 17 0)
      (.ofCode 0) (by decide) (by decide) (by decide) (by decide) (by decide) trip
  · exact not_roundTrip_small (by decide) (fun _ => idle) (List.replicate 18 0 ++ [0, 0, 0, 1, 0])
      (.ofCode 0) (by decide) (by decide) (by decide) (by decide) (by decide) trip
  · -- a response names no client
    obtain ⟨_, received, _⟩ := trip.recvFirst (fun _ => idle) ([3, 0] ++ List.replicate 16 0 ++ [0, 0, 0, 1, 0])
      (by decide) (by decide)
    have source : largepktSource .server .farreach ([3, 0] ++ List.replicate 16 0 ++ [0, 0, 0, 1, 0]) = none := by
      decide
    have aborts : recvFirst .server .farreach packetBuffer ([3, 0] ++ List.replicate 16 0 ++ [0, 0, 0, 1, 0]) (0, 0) =
        none := by
      rw [recvFirst_of_type (by decide) (show _ = some PacketType.getresLargevalue by decide), if_pos (by decide)]
      unfold recvLarge
      rw [source]
      simp
    rw [aborts] at received
    cases received
  · exact (getPacketType_of_starts (List.prefix_append _ _) (by decide)).trans (by decide)
  · rw [List.length_append, List.length_replicate]
    rfl

end FarReach
