import FarReach.FragmentDelivery

namespace FarReach

open Bytes DynamicArray Reassembly

/-- A message handed to `udpsendlarge` with the header size of its receiver. -/
structure SentMessage (mode : FragMode) (method : Method) where
  bytes : List UInt8
  fragHdrsize : Nat
  bounded : bytes.length ≤ 8388608
  headed : fragHdrsize ≤ bytes.length
  isSize : HeaderSize mode method bytes fragHdrsize

def SentMessage.fragments {mode : FragMode} {method : Method} (sent : SentMessage mode method) : List (List UInt8) :=
  (udpsendlarge sent.bytes sent.fragHdrsize mode.fragMaxsize).getD []

def arrivals : List SocketEvent → List (List UInt8)
  | [] => []
  | .timeout :: _ => []
  | .datagram bytes _ :: events => bytes :: arrivals events

/-- The packets a call does not skip: the first one, and those with its key and type. -/
def taken (mode : FragMode) (method : Method) (events : List SocketEvent) : List (List UInt8) :=
  match arrivals events with
  | [] => []
  | first :: others =>
    first :: others.filter fun packet => largepktHeader mode method packet = largepktHeader mode method first

/-- Every packet is a fragment of a message that was sent; some may be lost, come twice or out of order. -/
def Delivers {mode : FragMode} {method : Method} (messages : List (SentMessage mode method))
    (events : List SocketEvent) : Prop :=
  ∀ packet srcAddr, .datagram packet srcAddr ∈ events → ∃ sent ∈ messages, packet ∈ sent.fragments

/-- If there are as many packets as the message of the first one has fragments, then the first packets, as many as a
message has fragments, are different fragments of this message. -/
def OneMessage {mode : FragMode} {method : Method} (messages : List (SentMessage mode method))
    (packets : List (List UInt8)) : Prop :=
  (∃ sent ∈ messages, (∃ first ∈ packets.head?, first ∈ sent.fragments) ∧ sent.fragments.length ≤ packets.length) →
    ∃ sent ∈ messages, (packets.take sent.fragments.length).Nodup ∧
      ∀ packet ∈ packets.take sent.fragments.length, packet ∈ sent.fragments

section Stream

variable {mode : FragMode} {method : Method}

theorem SentMessage.exists_header (sent : SentMessage mode method) (notServer : mode ≠ .server) :
    ∃ header : LargeHeader mode method, header.bytes = sent.bytes.take sent.fragHdrsize ∧
      count header.fragBodysize (sent.bytes.drop sent.fragHdrsize).length < 2 ^ 16 ∧
      sent.fragments = (List.range (count header.fragBodysize (sent.bytes.drop sent.fragHdrsize).length)).map
        (header.fragment (sent.bytes.drop sent.fragHdrsize)) := by
  obtain ⟨header, bytes, _⟩ := sent.isSize.exists_header sent.headed
  obtain ⟨few, cut⟩ := header.udpsendlarge_eq bytes sent.headed sent.isSize.le sent.bounded
    fun server => absurd server notServer
  refine ⟨header, bytes, few, ?_⟩
  rw [SentMessage.fragments, cut]
  rfl

theorem SentMessage.parts (sent : SentMessage mode method) {header : LargeHeader mode method}
    (bytes : header.bytes = sent.bytes.take sent.fragHdrsize) :
    header.bytes ++ sent.bytes.drop sent.fragHdrsize = sent.bytes ∧
      header.bytes.length + (sent.bytes.drop sent.fragHdrsize).length ≤ 8388608 := by
  have whole : header.bytes ++ sent.bytes.drop sent.fragHdrsize = sent.bytes := by
    rw [bytes, List.take_append_drop]
  refine ⟨whole, ?_⟩
  rw [← List.length_append, whole]
  exact sent.bounded

theorem exists_order {fragment : Nat → List UInt8} {n : Nat} {packets : List (List UInt8)} (different : packets.Nodup)
    (among : ∀ packet ∈ packets, packet ∈ (List.range n).map fragment) :
    ∃ order : List Nat, packets = order.map fragment ∧ order.Nodup ∧ ∀ i ∈ order, i < n := by
  induction packets with
  | nil => exact ⟨[], rfl, List.nodup_nil, fun _ member => absurd member List.not_mem_nil⟩
  | cons packet packets ih =>
    rw [List.nodup_cons] at different
    obtain ⟨order, rfl, distinct, inside⟩ :=
      ih different.2 fun other member => among other (List.mem_cons_of_mem _ member)
    obtain ⟨i, isIndex, rfl⟩ := List.mem_map.mp (among packet List.mem_cons_self)
    refine ⟨i :: order, rfl, List.nodup_cons.mpr ⟨fun old => ?_, distinct⟩, fun j member => ?_⟩
    · exact different.1 (List.mem_map_of_mem old)
    · rcases List.mem_cons.mp member with rfl | old
      · exact List.mem_range.mp isIndex
      · exact inside j old

variable {progress : Progress} {state : Receiving} {after ring : PktRingBuffer} {srcAddr : SockAddr}
    {events left : List SocketEvent} {result : DynamicArray} {packet body : List UInt8}

/-- A packet with the key and the type of the packet that is collected. -/
abbrev Receiving.Mine (state : Receiving) (mode : FragMode) (method : Method) (packet : List UInt8) : Prop :=
  largepktHeader mode method packet = some (state.largepktKey, state.largepktOptype)

/-- A call skips what has another key or type; without a header nothing has. -/
theorem recvDatagram_skips (notServer : mode ≠ .server)
    (all : mode = .udpfrag → ∀ packet, state.Mine mode method packet) (short : packet.length ≤ mode.fragbufMaxsize)
    (other : ¬state.Mine mode method packet) :
    recvDatagram mode method ring (.next state) packet srcAddr = none ∨
      recvDatagram mode method ring (.next state) packet srcAddr = some (ring, .wait (.next state)) := by
  cases mode with
  | server => exact absurd rfl notServer
  | udpfrag => exact absurd (all rfl packet) other
  | client =>
    rw [Receiving.Mine, largepktHeader_eq_some (by decide)] at other
    simp only [recvDatagram, recvNextClient, List.take_of_length_le short]
    cases isKey : getPacketKey method packet with
    | none => exact Or.inl rfl
    | some key =>
      cases isType : getPacketType packet with
      | none => exact Or.inl rfl
      | some optype =>
        have apart : key ≠ state.largepktKey ∨ optype ≠ state.largepktOptype := by
          by_contra same
          simp only [not_or, not_not] at same
          exact other ⟨by rw [isKey, same.1], by rw [isType, same.2]⟩
        right
        simp only [Option.bind_eq_bind, Option.bind_some, if_pos apart, Option.map_some]

/-- A fragment that is stored adds one to the count, or completes the packet. -/
theorem Receiving.store_counts {fragbuf : List UInt8} (stored : state.store mode fragbuf = some progress) :
    (∃ buf, progress = .done buf state.srcAddr) ∧ state.maxFragnum ≤ state.curFragnum + 1 ∨
      ∃ buf count, progress = .wait (.next { state with buf := buf, curFragnum := count }) ∧
        count ≤ state.curFragnum + 1 := by
  simp only [store, Option.bind_eq_bind, Option.bind_eq_some_iff] at stored
  obtain ⟨_, _, _, _, _, _, buf, _, is⟩ := stored
  have wraps := Nat.mod_le (state.curFragnum + 1) (2 ^ 16)
  split at is <;> cases is
  · exact .inl ⟨⟨buf, rfl⟩, by omega⟩
  · exact .inr ⟨buf, _, rfl, wraps⟩

theorem recvDatagram_stores (notServer : mode ≠ .server)
    (received : recvDatagram mode method ring (.next state) packet srcAddr = some (after, progress)) :
    progress = .wait (.next state) ∨ state.store mode (packet.take mode.fragbufMaxsize) = some progress := by
  cases mode with
  | server => exact absurd rfl notServer
  | udpfrag =>
    simp only [recvDatagram, recvNextUdpfrag, Option.bind_eq_bind, Option.map_eq_some_iff, Option.bind_eq_some_iff]
      at received
    obtain ⟨_, ⟨_, _, stored⟩, is⟩ := received
    cases is
    exact .inr stored
  | client =>
    simp only [recvDatagram, recvNextClient, Option.bind_eq_bind, Option.map_eq_some_iff, Option.bind_eq_some_iff]
      at received
    obtain ⟨_, ⟨_, _, _, _, stored⟩, is⟩ := received
    cases is
    split at stored
    · exact .inl (Option.some.inj stored).symm
    · simp only [Option.bind_eq_some_iff] at stored
      obtain ⟨_, _, stored⟩ := stored
      exact .inr stored

/-- A call returns behind as many packets of its message as are missing, at the earliest. -/
theorem recvLoop_counts (notServer : mode ≠ .server)
    (all : mode = .udpfrag → ∀ packet, state.Mine mode method packet)
    (short : ∀ packet srcAddr, .datagram packet srcAddr ∈ events → packet.length ≤ mode.fragbufMaxsize)
    (returned : recvLoop mode method ring (.next state) events = .returned result srcAddr after left) :
    state.maxFragnum ≤ state.curFragnum + ((arrivals events).filter (state.Mine mode method ·)).length := by
  induction events generalizing state ring with
  | nil => cases returned
  | cons event events ih =>
    have shortRest : ∀ packet srcAddr, .datagram packet srcAddr ∈ events → packet.length ≤ mode.fragbufMaxsize :=
      fun packet srcAddr member => short packet srcAddr (List.mem_cons_of_mem _ member)
    cases event with
    | timeout =>
      rw [recvLoop] at returned
      split at returned <;> cases returned
    | datagram packet source =>
      have fits := short packet source List.mem_cons_self
      rw [arrivals]
      rw [recvLoop] at returned
      by_cases mine : state.Mine mode method packet
      · rw [List.filter_cons_of_pos (by simpa using mine), List.length_cons]
        split at returned
        · cases returned
        · rename_i received
          rcases recvDatagram_stores notServer received with same | stored
          · cases same
          · rcases Receiving.store_counts stored with ⟨_, last⟩ | ⟨_, _, more, _⟩
            · omega
            · cases more
        · rename_i received
          rcases recvDatagram_stores notServer received with same | stored
          · cases same
            have later := ih all shortRest returned
            omega
          · rcases Receiving.store_counts stored with ⟨⟨_, done⟩, _⟩ | ⟨_, count, more, one⟩
            · cases done
            · cases more
              have later := ih (by exact all) shortRest returned
              dsimp only [Receiving.Mine] at later ⊢
              omega
      · rw [List.filter_cons_of_neg (by simpa using mine)]
        rcases recvDatagram_skips notServer all fits mine with aborts | skips
        · rw [aborts] at returned
          cases returned
        · rw [skips] at returned
          exact ih all shortRest returned

/-- While the packets that are not skipped are new fragments of one message, only this message is returned. -/
theorem recvLoop_taken {header : Nat → List UInt8} {done : List Nat} (notServer : mode ≠ .server)
    (collecting : Collecting state header body done) (headed : mode ≠ .udpfrag ∨ state.fragHdrsize = 0)
    (more : done.length < state.maxFragnum)
    (expects : ∀ i < state.maxFragnum, state.Expects mode method (state.fragment header body i))
    (all : mode = .udpfrag → ∀ packet, state.Mine mode method packet) {order : List Nat}
    (short : ∀ packet srcAddr, .datagram packet srcAddr ∈ events → packet.length ≤ mode.fragbufMaxsize)
    (isOrder : ((arrivals events).filter (state.Mine mode method ·)).take (state.maxFragnum - done.length) =
      order.map (state.fragment header body)) (different : (order ++ done).Nodup)
    (inside : ∀ i ∈ order, i < state.maxFragnum)
    (returned : recvLoop mode method ring (.next state) events = .returned result srcAddr after left) :
    result.content = header 0 ++ body := by
  induction events generalizing state done order with
  | nil => cases returned
  | cons event events ih =>
    have shortRest : ∀ packet srcAddr, .datagram packet srcAddr ∈ events → packet.length ≤ mode.fragbufMaxsize :=
      fun packet srcAddr member => short packet srcAddr (List.mem_cons_of_mem _ member)
    cases event with
    | timeout =>
      rw [recvLoop] at returned
      split at returned <;> cases returned
    | datagram packet source =>
      have fits := short packet source List.mem_cons_self
      rw [recvLoop] at returned
      by_cases mine : state.Mine mode method packet
      · obtain ⟨rest, isRest⟩ : ∃ rest, state.maxFragnum - done.length = rest + 1 :=
          ⟨state.maxFragnum - done.length - 1, by omega⟩
        rw [arrivals, List.filter_cons_of_pos (by simpa using mine), isRest, List.take_succ_cons] at isOrder
        cases order with
        | nil => cases isOrder
        | cons i order =>
          rw [List.map_cons, List.cons.injEq] at isOrder
          obtain ⟨rfl, isOrder⟩ := isOrder
          have here := inside i List.mem_cons_self
          have fresh : i ∉ done := by
            intro old
            rw [List.cons_append, List.nodup_cons] at different
            exact different.1 (List.mem_append_right _ old)
          have length := length_fragmentBytes (header i) state.maxFragnum i (piece state.fragBodysize body i)
          have size := collecting.sizes i here
          rw [recvDatagram_of_expects (expects i here) (by rw [Receiving.fragment]; omega) fits] at returned
          rcases collecting.store here fresh headed with ⟨_, buf, stored, _, content⟩ | ⟨next, buf, stored, _, kept⟩
          · rw [stored] at returned
            cases returned
            exact content
          · rw [stored] at returned
            refine ih kept headed ?_ expects all shortRest ?_ ?_
              (fun j member => inside j (List.mem_cons_of_mem _ member)) returned
            · exact next
            · have count : state.maxFragnum - (i :: done).length = rest := by
                rw [List.length_cons]
                omega
              exact count ▸ isOrder
            · exact (List.perm_middle.nodup_iff).mpr different
      · rw [arrivals, List.filter_cons_of_neg (by simpa using mine)] at isOrder
        rcases recvDatagram_skips notServer all fits mine with aborts | skips
        · rw [aborts] at returned
          cases returned
        · rw [skips] at returned
          exact ih collecting headed more expects all shortRest isOrder different inside returned

/-- The first packet is a fragment of a message, and the loop goes on as if it had known the header before. -/
theorem LargeHeader.recvLoop_known (header : LargeHeader mode method) {buf : DynamicArray} (cleared : buf.cursize = 0)
    (capability : header.bytes.length + body.length ≤ buf.maxcapability)
    (few : count header.fragBodysize body.length < 2 ^ 16) {i : Nat}
    (inside : i < count header.fragBodysize body.length) (source : SockAddr) :
    ∃ copied, Collecting (header.receiving body copied source) (fun _ => header.bytes) body [] ∧
      (∀ ring events, recvLoop mode method ring (.first buf) (.datagram (header.fragment body i) source :: events) =
        recvLoop mode method ring (.next (header.receiving body copied source))
          (.datagram (header.fragment body i) source :: events)) ∧
      ∀ events, (arrivals (.datagram (header.fragment body i) source :: events)).filter (fun packet =>
          largepktHeader mode method packet = some (header.key, header.optype)) =
        taken mode method (.datagram (header.fragment body i) source :: events) := by
  obtain ⟨copied, _, collecting, received⟩ :=
    @LargeHeader.recvDatagram_first mode method header body buf i source cleared capability few inside
  have known := header.known _ (header.bytes_starts_fragment body i)
  refine ⟨copied, collecting, fun ring events => ?_, fun events => ?_⟩
  · rw [recvLoop, recvLoop, received]
  · rw [arrivals, List.filter_cons_of_pos (by simpa using known), taken, arrivals]
    dsimp only
    rw [known]

theorem LargeHeader.known_udpfrag (header : LargeHeader mode method) (udpfrag : mode = .udpfrag)
    (packet : List UInt8) :
    largepktHeader mode method packet = some (header.key, header.optype) := by
  have none : header.bytes = [] := List.eq_nil_of_length_eq_zero (header.headed.resolve_left (absurd udpfrag))
  refine header.known packet ?_
  rw [none]
  exact List.nil_prefix

/-- A call returns only what was sent, if the packets it takes are different fragments of one message. -/
theorem returned_was_sent (notServer : mode ≠ .server) (messages : List (SentMessage mode method))
    (ring : PktRingBuffer) (buf : DynamicArray) (cleared : buf.cursize = 0) (capability : buf.maxcapability = 8388608)
    (events : List SocketEvent) (delivers : Delivers messages events)
    (one : OneMessage messages (taken mode method events)) (result : DynamicArray) (srcAddr : SockAddr)
    (after : PktRingBuffer) (left : List SocketEvent)
    (returned : udprecvlarge mode method ring buf events = .returned result srcAddr after left) :
    ∃ sent ∈ messages, result.content = sent.bytes := by
  have short : ∀ packet srcAddr, .datagram packet srcAddr ∈ events → packet.length ≤ mode.fragbufMaxsize := by
    intro packet source member
    obtain ⟨sent, _, isFragment⟩ := delivers packet source member
    obtain ⟨header, _, _, fragments⟩ := sent.exists_header notServer
    rw [fragments] at isFragment
    obtain ⟨i, _, rfl⟩ := List.mem_map.mp isFragment
    exact (header.length_fragment _ i).2.trans header.short
  rw [udprecvlarge_idle fun server => absurd server notServer] at returned
  cases events with
  | nil => cases returned
  | cons event events =>
    cases event with
    | timeout =>
      have timedOut : recvTimeout mode ring (.first buf) = some ring := by cases mode <;> rfl
      simp only [recvLoop, timedOut] at returned
      cases returned
    | datagram packet source =>
      -- the call has taken as many packets as its first one announces
      have enough : ∃ sent ∈ messages, (∃ first ∈ (taken mode method (.datagram packet source :: events)).head?,
          first ∈ sent.fragments) ∧ sent.fragments.length ≤
            (taken mode method (.datagram packet source :: events)).length := by
        obtain ⟨sent, isSent, isFragment⟩ := delivers packet source List.mem_cons_self
        refine ⟨sent, isSent, ⟨packet, rfl, isFragment⟩, ?_⟩
        obtain ⟨header, bytes, few, fragments⟩ := sent.exists_header notServer
        rw [fragments] at isFragment ⊢
        obtain ⟨i, inside, rfl⟩ := List.mem_map.mp isFragment
        obtain ⟨copied, _, same, isTaken⟩ := header.recvLoop_known cleared (capability ▸ (sent.parts bytes).2) few
          (List.mem_range.mp inside) source
        rw [same] at returned
        have counts := recvLoop_counts notServer header.known_udpfrag short returned
        rw [List.length_map, List.length_range, ← isTaken]
        simpa [LargeHeader.receiving] using counts
      obtain ⟨sent, isSent, different, among⟩ := one enough
      refine ⟨sent, isSent, ?_⟩
      obtain ⟨header, bytes, few, fragments⟩ := sent.exists_header notServer
      obtain ⟨whole, fits⟩ := sent.parts bytes
      rw [fragments, List.length_map, List.length_range] at different among
      obtain ⟨order, isOrder, distinct, inside⟩ := exists_order different among
      have positive := count_pos header.positive (sent.bytes.drop sent.fragHdrsize).length
      obtain ⟨i, rest, rfl⟩ : ∃ i rest, order = i :: rest := by
        refine List.exists_cons_of_ne_nil ?_
        rintro rfl
        rw [taken, arrivals, List.map_nil, List.take_eq_nil_iff] at isOrder
        rcases isOrder with zero | none
        · omega
        · cases none
      obtain rfl : packet = header.fragment (sent.bytes.drop sent.fragHdrsize) i := by
        have heads := congrArg List.head? isOrder
        rw [taken, arrivals, List.head?_take, if_neg (by omega), List.map_cons] at heads
        simpa using heads
      obtain ⟨copied, collecting, same, isTaken⟩ := header.recvLoop_known cleared (capability ▸ fits) few
        (inside i List.mem_cons_self) source
      rw [same] at returned
      rw [← whole]
      refine recvLoop_taken notServer collecting header.headed positive (fun j _ => header.receiving_expects _ _ _ j)
        header.known_udpfrag short ?_ ?_ inside returned
      · exact (congrArg (List.take _) (isTaken events)).trans isOrder
      · rw [List.append_nil]
        exact distinct

theorem SentMessage.returned (sent : SentMessage mode method) (notServer : mode ≠ .server) {buf : DynamicArray}
    (cleared : buf.cursize = 0) (capability : buf.maxcapability = 8388608) (ring : PktRingBuffer)
    (srcAddr : SockAddr) :
    ∃ result, udprecvlarge mode method ring buf (sent.fragments.map fun fragment => .datagram fragment srcAddr) =
      .returned result srcAddr ring [] ∧ result.content = sent.bytes := by
  obtain ⟨header, bytes, few, fragments⟩ := sent.exists_header notServer
  obtain ⟨whole, fits⟩ := sent.parts bytes
  obtain ⟨result, received, content⟩ := header.recvLoop_first cleared (capability ▸ fits) few ring srcAddr
    (List.Perm.refl _)
  refine ⟨result, ?_, content.trans whole⟩
  rw [udprecvlarge_idle fun server => absurd server notServer, fragments, List.map_map]
  exact received

end Stream

/-- A response of FarReach with a value of 1390 bytes; the last 4 of these go in its second fragment. -/
def responseBytes (first last : UInt8) : List UInt8 :=
  (Ophdr.make .getresLargevalue ⟨0, 0, 0, 0⟩).bytes .farreach ++
    ((bigEndian 4 1390 ++ List.replicate 1386 first) ++ (List.replicate 4 last ++ [1, 0, 0, 0]))

theorem length_responseBytes (first last : UInt8) : (responseBytes first last).length = 1416 := by
  simp only [responseBytes, List.length_append, List.length_replicate, length_bigEndian, Ophdr.length_bytes,
    Method.getOphdrsize, List.length_cons, List.length_nil]

def getResponse (first last : UInt8) : SentMessage .client .farreach where
  bytes := responseBytes first last
  fragHdrsize := 18
  bounded := by rw [length_responseBytes]; decide
  headed := by rw [length_responseBytes]; decide
  isSize := ⟨.getresLargevalue, (getPacketType_of_starts (List.prefix_append _ _) (by decide)).trans (by decide),
    rfl, rfl⟩

theorem fragments_getResponse (first last : UInt8) : (getResponse first last).fragments =
    [fragmentBytes ((Ophdr.make .getresLargevalue ⟨0, 0, 0, 0⟩).bytes .farreach) 2 0
        (bigEndian 4 1390 ++ List.replicate 1386 first),
      fragmentBytes ((Ophdr.make .getresLargevalue ⟨0, 0, 0, 0⟩).bytes .farreach) 2 1
        (List.replicate 4 last ++ [1, 0, 0, 0])] := by
  have headerLength : ((Ophdr.make .getresLargevalue ⟨0, 0, 0, 0⟩).bytes .farreach).length = 18 :=
    Ophdr.length_bytes _ _
  have frontLength : (bigEndian 4 1390 ++ List.replicate 1386 first).length = 1390 := by
    rw [List.length_append, List.length_replicate, length_bigEndian]
  have backLength : (List.replicate 4 last ++ [1, 0, 0, 0]).length = 8 := rfl
  have length : (getResponse first last).bytes.length = 1416 := length_responseBytes first last
  have number : count 1390 (1416 - 18) = 2 := by decide
  have cut := @udpsendlarge_eq (getResponse first last).bytes 18 1412 (by omega) (by decide) (by rw [length]; decide)
  rw [length, show 1412 - (18 + 2 + 2) = 1390 from rfl, number, show List.range 2 = [0, 1] from rfl, List.map_cons,
    List.map_cons, List.map_nil] at cut
  have header : (getResponse first last).bytes.take 18 = (Ophdr.make .getresLargevalue ⟨0, 0, 0, 0⟩).bytes
      .farreach :=
    List.take_left' headerLength
  have body : (getResponse first last).bytes.drop 18 =
      (bigEndian 4 1390 ++ List.replicate 1386 first) ++ (List.replicate 4 last ++ [1, 0, 0, 0]) :=
    List.drop_left' headerLength
  have front :
      piece 1390 ((bigEndian 4 1390 ++ List.replicate 1386 first) ++ (List.replicate 4 last ++ [1, 0, 0, 0])) 0 =
      bigEndian 4 1390 ++ List.replicate 1386 first := by
    rw [piece, Nat.mul_zero, List.drop_zero]
    exact List.take_left' frontLength
  have back :
      piece 1390 ((bigEndian 4 1390 ++ List.replicate 1386 first) ++ (List.replicate 4 last ++ [1, 0, 0, 0])) 1 =
      List.replicate 4 last ++ [1, 0, 0, 0] := by
    rw [piece, Nat.mul_one, List.drop_left' frontLength]
    exact List.take_of_length_le (by rw [backLength]; decide)
  rw [header, body, front, back] at cut
  rw [SentMessage.fragments]
  exact congrArg (Option.getD · []) cut

theorem returned_was_sent_response : ∃ result,
    udprecvlarge .client .farreach (.init 1 Nat.one_pos) packetBuffer
      ((getResponse 0 0).fragments.map fun fragment => .datagram fragment (0, 0)) =
        .returned result (0, 0) (.init 1 Nat.one_pos) [] ∧ ∃ sent ∈ [getResponse 0 0],
        result.content = sent.bytes := by
  obtain ⟨result, returned, _⟩ := @SentMessage.returned _ _ (getResponse 0 0) (by decide) packetBuffer rfl rfl
    (.init 1 Nat.one_pos) (0, 0)
  refine ⟨result, returned, ?_⟩
  obtain ⟨header, bytes, _, _⟩ := (getResponse 0 0).exists_header (by decide)
  have isHeader : header.bytes = (Ophdr.make .getresLargevalue ⟨0, 0, 0, 0⟩).bytes .farreach :=
    bytes.trans (List.take_left' (Ophdr.length_bytes _ _))
  have known : ∀ i body, largepktHeader .client .farreach
      (fragmentBytes ((Ophdr.make .getresLargevalue ⟨0, 0, 0, 0⟩).bytes .farreach) 2 i body) =
      some (header.key, header.optype) := by
    intro i body
    refine header.known _ ?_
    rw [isHeader]
    exact List.prefix_append _ _
  have isTaken : taken .client .farreach ((getResponse 0 0).fragments.map fun fragment => .datagram fragment (0, 0)) =
      (getResponse 0 0).fragments := by
    rw [fragments_getResponse]
    exact congrArg (List.cons _) (List.filter_cons_of_pos (decide_eq_true ((known _ _).trans (known _ _).symm)))
  refine returned_was_sent (by decide) [getResponse 0 0] _ _ rfl rfl _ ?_
    (fun _ => ⟨_, List.mem_cons_self, ?_⟩) _ _ _ _ returned
  · intro packet source member
    obtain ⟨fragment, isFragment, same⟩ := List.mem_map.mp member
    rw [SocketEvent.datagram.injEq] at same
    exact ⟨_, List.mem_cons_self, same.1 ▸ isFragment⟩
  · rw [isTaken, List.take_length]
    refine ⟨?_, fun _ member => member⟩
    rw [fragments_getResponse]
    refine List.nodup_cons.mpr ⟨fun same => ?_, List.nodup_singleton _⟩
    have lengths := congrArg List.length (List.mem_singleton.mp same)
    simp only [length_fragmentBytes, List.length_append, List.length_replicate, length_bigEndian, List.length_cons,
      List.length_nil] at lengths
    omega

/-- Two responses with the same key, of which one fragment each is lost: the call returns neither. -/
theorem reassembled_mixture : ∃ events, Delivers [getResponse 0 0, getResponse 1 1] events ∧
    ∃ result srcAddr after left,
      udprecvlarge .client .farreach (.init 1 Nat.one_pos) packetBuffer events = .returned result srcAddr after left ∧
      ∀ sent ∈ [getResponse 0 0, getResponse 1 1], result.content ≠ sent.bytes := by
  obtain ⟨result, returned, content⟩ := @SentMessage.returned _ _ (getResponse 0 1) (by decide) packetBuffer rfl rfl
    (.init 1 Nat.one_pos) (0, 0)
  refine ⟨_, ?_, result, _, _, _, returned, ?_⟩
  · intro packet source member
    rw [fragments_getResponse] at member
    simp only [List.map_cons, List.map_nil, List.mem_cons, List.not_mem_nil, or_false, SocketEvent.datagram.injEq]
      at member
    rcases member with ⟨rfl, _⟩ | ⟨rfl, _⟩
    · refine ⟨getResponse 0 0, List.mem_cons_self, ?_⟩
      rw [fragments_getResponse]
      exact List.mem_cons_self
    · refine ⟨getResponse 1 1, List.mem_cons_of_mem _ List.mem_cons_self, ?_⟩
      rw [fragments_getResponse]
      exact List.mem_cons_of_mem _ List.mem_cons_self
  · intro sent member
    rw [content]
    simp only [List.mem_cons, List.not_mem_nil, or_false] at member
    rcases member with rfl | rfl
    · intro same
      have bodies := List.append_cancel_left (List.append_cancel_left same)
      have values := List.append_cancel_right bodies
      exact absurd values (by decide)
    · intro same
      have bodies := List.append_cancel_right (List.append_cancel_left same)
      have values := List.append_cancel_left bodies
      rcases (List.replicate_inj.mp values).2 with none | equal
      · exact absurd none (by decide)
      · exact absurd equal (by decide)

end FarReach
