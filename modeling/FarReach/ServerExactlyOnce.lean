import FarReach.ServerServing

namespace FarReach

open Bytes DynamicArray Reassembly Worker PktRingBuffer

variable {method : Method}

/-- A round takes the first packet out of the ring and adds large ones at most. -/
theorem WorkerServes.returns_smalls {worker : Worker method} {served : List (Request method)}
    {queued : List (SmallRequest method)} (serves : WorkerServes worker served queued) {front back : List PktSlot}
    (contents : worker.ring.contents = front ++ back) (large : ∀ slot ∈ back, 0 < slot.maxfragnum) :
    ∃ after served', (rounds front.length).foldl Worker.next (some worker) = some after ∧
      ExactlyOnce after served' [] ∧ after.arrived = worker.arrived := by
  induction front generalizing worker served queued back with
  | nil =>
    have none : worker.ring.smalls = [] := by
      rw [smalls, contents, List.filter_eq_nil_iff]
      intro slot member
      simpa using (large slot member).ne'
    have waiting := serves.waiting
    rw [none] at waiting
    obtain rfl := List.forall₂_nil_right_iff.mp waiting
    exact ⟨worker, served, rfl, serves.toExactlyOnce, rfl⟩
  | cons slot front ih =>
    obtain ⟨idle, added, times, kept, arrived, isIdle, grown, alsoLarge⟩ := serves.step_timeout
    obtain ⟨popped, served', queued', starts, serves', arrived', left⟩ := kept.step_call isIdle
    have rest : popped.ring.contents = front ++ (back ++ added) := by
      rw [left, grown, contents, List.cons_append, List.cons_append, List.tail_cons, List.append_assoc]
    obtain ⟨after, all, run, exactly, same⟩ := ih serves' rest fun other member =>
      (List.mem_append.mp member).elim (large other) (alsoLarge other)
    refine ⟨after, all, ?_, exactly, same.trans (arrived'.trans arrived)⟩
    have round : Worker.next (Worker.next (some worker) .timeout) .call = some popped := by
      simp only [Worker.next, Option.bind_some, times, starts]
    rw [List.length_cons, rounds, List.foldl_cons, List.foldl_cons, round]
    exact run

theorem serves_start (method : Method) {capacity : Nat} (positive : 0 < capacity) :
    WorkerServes (Worker.start method capacity positive) [] [] := by
  have contents := contents_init positive
  have empty : ∀ slot, slot ∉ (Worker.start method capacity positive).ring.contents := by
    intro slot member
    rw [Worker.start, contents] at member
    cases member
  refine ⟨⟨⟨.nil, ?_, rfl, List.nodup_nil, ?_⟩, consistent_init positive, ?_, ?_⟩, trivial, ?_⟩
  · rw [Worker.start, smalls, contents]
    exact .nil
  · exact fun _ member => absurd member List.not_mem_nil
  · exact fun slot member => absurd member (empty slot)
  · exact fun attempt _ _ all => absurd (all 0 (count_pos attempt.positive _)) List.not_mem_nil
  · change (PktRingBuffer.init capacity positive).contents.length + 0 < capacity
    rw [contents]
    exact positive

def putHeader (key : Key) (clientlogicalidx : UInt16) (fragseq : UInt32) : List UInt8 :=
  (Ophdr.make .putreqLargevalueSeq key).bytes .farreach ++ (List.replicate 10 0 ++
    (bigEndian 2 clientlogicalidx.toNat ++ bigEndian 4 fragseq.toNat))

/-- A PUT of FarReach in two fragments. -/
theorem exists_put (request : Nat) {key : Key} {clientlogicalidx : UInt16} {fragseq : UInt32}
    (read : getPacketType (putHeader key clientlogicalidx fragseq) = some .putreqLargevalueSeq ∧
      getPacketKey .farreach (putHeader key clientlogicalidx fragseq) = some key ∧
      getPacketClientlogicalidx .farreach (putHeader key clientlogicalidx fragseq) = some clientlogicalidx ∧
      getPacketFragseq .farreach (putHeader key clientlogicalidx fragseq) = some fragseq) :
    ∃ attempt : Attempt .farreach, attempt.request = request ∧ attempt.key = key ∧
      attempt.clientlogicalidx = clientlogicalidx ∧ attempt.fragseq = fragseq ∧ attempt.fragnum = 2 := by
  obtain ⟨isType, isKey, isClient, isFragseq⟩ := read
  have length : (putHeader key clientlogicalidx fragseq).length = 34 := by
    simp only [putHeader, List.length_append, Ophdr.length_bytes, List.length_replicate, length_bigEndian,
      Method.getOphdrsize]
  obtain ⟨header, bytes, optype⟩ := @exists_largeHeader .server .farreach _ _ (by decide) isType (by decide)
    (fun _ => by decide) length
  have known := header.known (putHeader key clientlogicalidx fragseq) (bytes ▸ List.prefix_rfl)
  have source := header.source (putHeader key clientlogicalidx fragseq) (bytes ▸ List.prefix_rfl)
  rw [largepktHeader_eq_some (by decide), isKey] at known
  rw [largepktSource_eq_some, isClient, isFragseq] at source
  have total := header.total
  have size : fragTotalsize .server .farreach .putreqLargevalueSeq = 1422 := by decide
  rw [optype, bytes, size, length] at total
  have width : header.fragBodysize = 1384 := by omega
  refine ⟨⟨request, fun _ => header, List.replicate 2000 0, (0, 0), fun _ => rfl,
    fun _ => PacketType.isSameOptype_self _, fun _ => rfl, fun _ => rfl, ?_⟩, rfl, (Option.some.inj known.1).symm,
    (Option.some.inj source.1).symm, (Option.some.inj source.2).symm, ?_⟩
  · rw [bytes, length, List.length_replicate]
    decide
  · rw [Attempt.fragnum, Attempt.fragBodysize, width, List.length_replicate]
    decide

theorem of_mem_singleton_fragment {attempt before : Attempt method} {i j : Nat}
    (member : PacketArrival.fragment before j ∈ [PacketArrival.fragment attempt i]) : before = attempt ∧ j = i := by
  injection List.mem_singleton.mp member with same index
  exact ⟨same, index⟩

section TwoFragments

variable {ring : PktRingBuffer} {attempt : Attempt method} {returned : List (List UInt8 × SockAddr)}
  {arrived : List (PacketArrival method)}

/-- A worker that has got one of two fragments goes on collecting the packet. -/
theorem collects_first (empty : ring.contents = []) (returned : List (List UInt8 × SockAddr))
    (two : attempt.fragnum = 2) (missing : .fragment attempt 1 ∉ arrived) :
    ∃ state done, Collects (arrived ++ [.fragment attempt 0]) state attempt done ∧
      Worker.next (some ⟨ring, none, returned, arrived⟩) .call =
        some ⟨ring, some (.first packetBuffer), returned, arrived⟩ ∧
      Worker.next (some ⟨ring, some (.first packetBuffer), returned, arrived⟩) (.arrives (.fragment attempt 0)) =
        some ⟨ring, some (.next state), returned, arrived ++ [.fragment attempt 0]⟩ := by
  have starts : Worker.next (some ⟨ring, none, returned, arrived⟩) .call =
      some ⟨ring, some (.first packetBuffer), returned, arrived⟩ := by
    simp only [Worker.next, Option.bind_some, step, recvStart_idle fun _ => empty]
    rfl
  rcases @recvFirst_attempt method arrived attempt 0 (by omega) attempt.srcAddr with
    ⟨_, _, _, _, all⟩ | ⟨state, done, received, collects⟩
  · rcases List.mem_append.mp (all 1 (by omega)) with early | last
    · exact absurd early missing
    · exact absurd (of_mem_singleton_fragment last).2 Nat.one_ne_zero
  · refine ⟨state, done, collects, starts, ?_⟩
    rw [Worker.next, Option.bind_some, step_arrives rfl]
    simp only [PacketArrival.bytes, PacketArrival.srcAddr, received]
    rfl

theorem possible_first (empty : ring.contents = []) (room : 1 < ring.capacity) (inside : 0 < attempt.fragnum)
    (fresh : .fragment attempt 0 ∉ arrived)
    (numbered : ∀ before j, .fragment before j ∈ arrived → before.clientlogicalidx = attempt.clientlogicalidx →
      before.fragseq < attempt.fragseq ∧ before.request ≤ attempt.request) :
    Possible ⟨ring, some (.first packetBuffer), returned, arrived⟩ (.arrives (.fragment attempt 0)) := by
  refine ⟨rfl, inside, fresh, fun before j member client => ?_, Or.inl ?_⟩
  · obtain ⟨later, requests⟩ := numbered before j member client
    refine ⟨fun same => ?_, fun _ => requests, fun earlier => absurd earlier (UInt32.lt_asymm later)⟩
    rw [same] at later
    exact absurd later (UInt32.lt_irrefl _)
  · change ring.contents.length + 0 + 1 < ring.capacity
    rw [empty, List.length_nil]
    exact room

theorem inTurn_first (empty : ring.contents = []) (two : attempt.fragnum = 2)
    (missing : .fragment attempt 1 ∉ arrived) :
    InTurn ⟨ring, some (.first packetBuffer), returned, arrived⟩ (.arrives (.fragment attempt 0)) := by
  refine ⟨fun whole => ?_, fun before j member _ => ⟨fun slot inRing => ?_, fun _ isCall => by cases isCall⟩⟩
  · rcases List.mem_append.mp (whole 1 (by omega)) with early | last
    · exact absurd early missing
    · exact absurd (of_mem_singleton_fragment last).2 Nat.one_ne_zero
  · change slot ∈ ring.contents at inRing
    rw [empty] at inRing
    exact absurd inRing List.not_mem_nil

/-- With only the first of two fragments arrived, the second may come. -/
theorem allowed_second (empty : ring.contents = []) (room : 2 < ring.capacity) (two : attempt.fragnum = 2)
    (state : Receiving) {worker : Worker method}
    (isWorker : worker = ⟨ring, some (.next state), returned, [.fragment attempt 0]⟩) :
    worker.Possible (.arrives (.fragment attempt 1)) ∧ worker.InTurn (.arrives (.fragment attempt 1)) := by
  subst isWorker
  refine ⟨⟨rfl, by omega, fun member => ?_, fun before j member _ => ?_, Or.inl ?_⟩, fun _ before _ whole => ?_,
    fun before j member _ => ⟨fun slot inRing => ?_, fun _ _ _ _ _ _ _ => ?_⟩⟩
  · exact absurd (of_mem_singleton_fragment member).2 Nat.one_ne_zero
  · rw [(of_mem_singleton_fragment member).1]
    exact ⟨fun _ => rfl, fun _ => le_rfl, fun _ => le_rfl⟩
  · change ring.contents.length + 1 + 1 < ring.capacity
    rw [empty, List.length_nil]
    exact room
  · obtain ⟨rfl, _⟩ := of_mem_singleton_fragment (whole 0 (count_pos before.positive _))
    exact absurd (of_mem_singleton_fragment (whole 1 (by omega))).2 Nat.one_ne_zero
  · change slot ∈ ring.contents at inRing
    rw [empty] at inRing
    exact absurd inRing List.not_mem_nil
  · rw [(of_mem_singleton_fragment member).1]

/-- The last fragment of a packet ends the call. -/
theorem Collects.finishes {state : Receiving} {done : List Nat} (collects : Collects arrived state attempt done)
    {i : Nat} (inside : i < attempt.fragnum) (fresh : i ∉ done) (last : done.length + 1 = attempt.fragnum) :
    ∃ buf, FarReach.recvSameClient state (attempt.header i).optype attempt.key attempt.fragseq (attempt.fragment i) =
      some (.done buf state.srcAddr) ∧ buf.content = attempt.message := by
  obtain ⟨tracks, header, width⟩ := collects
  have number : state.maxFragnum = attempt.fragnum := tracks.number
  have collecting : Collecting state (fun i => (attempt.header i).bytes) attempt.body done := by
    refine ⟨?_, width ▸ attempt.positive, width ▸ number, number ▸ attempt.few, tracks.counted,
      fun j _ => header ▸ attempt.length_header j⟩
    rw [header, width]
    exact tracks.assembled
  have same : attempt.fragment i = state.fragment (fun i => (attempt.header i).bytes) attempt.body i := by
    rw [attempt.fragment_eq, Receiving.fragment, number, width]
  have taken :
      ¬ (attempt.key ≠ state.largepktKey ∨ (attempt.header i).optype.isSameOptype state.largepktOptype = false ∨
      attempt.fragseq < state.largepktFragseq) := by
    have isType := PacketType.isSameOptype_trans (attempt.sameOptype i) (PacketType.isSameOptype_symm tracks.optype)
    rintro (key | optype | older)
    · exact key tracks.key.symm
    · exact absurd (optype.symm.trans isType) (by decide)
    · exact absurd (tracks.fragseq ▸ older) (UInt32.lt_irrefl _)
  have current : ¬ state.largepktFragseq < attempt.fragseq := fun later =>
    absurd (tracks.fragseq ▸ later) (UInt32.lt_irrefl _)
  have long := (attempt.length_fragment i).1
  rcases collecting.store (by omega) fresh (Or.inl (by decide : FragMode.server ≠ .udpfrag)) with
    ⟨_, buf, stored, _, content⟩ | ⟨more, _⟩
  · refine ⟨buf, ?_, content⟩
    unfold FarReach.recvSameClient
    rw [if_neg taken, if_neg current]
    simp only [guard, header, long, if_true, Option.pure_def, Option.bind_eq_bind, Option.bind_some]
    rw [same]
    exact stored
  · omega

/-- Of two fragments the second one completes the packet. -/
theorem returns_second {state : Receiving} {done : List Nat} (two : attempt.fragnum = 2)
    (collects : Collects [.fragment attempt 0] state attempt done) :
    ∃ srcAddr, Worker.next (some ⟨ring, some (.next state), [], [.fragment attempt 0]⟩)
        (.arrives (.fragment attempt 1)) =
      some ⟨ring, none, [(attempt.message, srcAddr)], [.fragment attempt 0, .fragment attempt 1]⟩ := by
  have zero : ∀ j ∈ done, j = 0 := fun j member => (of_mem_singleton_fragment (collects.tracks.came j member)).2
  have distinct := collects.tracks.assembled.distinct
  have only : done = [0] := by
    obtain ⟨head, rest, rfl⟩ := List.exists_cons_of_ne_nil collects.tracks.started
    have isHead : head = 0 := zero head List.mem_cons_self
    have none : rest = [] := List.eq_nil_iff_forall_not_mem.mpr fun j member =>
      (List.nodup_cons.mp distinct).1 (isHead.trans (zero j (List.mem_cons_of_mem _ member)).symm ▸ member)
    rw [isHead, none]
  subst only
  obtain ⟨buf, received, content⟩ := collects.finishes (i := 1) (by omega) (by decide) two.symm
  refine ⟨state.srcAddr, ?_⟩
  have client : attempt.clientlogicalidx = state.largepktClientlogicalidx := collects.tracks.clientlogicalidx.symm
  rw [Worker.next, Option.bind_some, step_arrives rfl]
  simp only [PacketArrival.bytes, PacketArrival.srcAddr, recvNextServer_fragment, client, ne_eq, not_true_eq_false,
    if_false, received, Option.map_some, advance, content]
  rfl

end TwoFragments

/-- While a large packet is collected, small ones go into the ring. -/
theorem Worker.returned_of_small {ring : PktRingBuffer} {state : Receiving} {returned : List (List UInt8 × SockAddr)}
    {arrived : List (PacketArrival method)} {request : SmallRequest method} {after : Worker method}
    (steps : Worker.next (some ⟨ring, some (.next state), returned, arrived⟩)
      (.arrives (.small request)) = some after) :
    after.returned = returned := by
  rw [Worker.next, Option.bind_some, step_arrives rfl] at steps
  simp only [PacketArrival.bytes, PacketArrival.srcAddr, recvNextServer, request.isKey, request.isType, request.small,
    Option.bind_eq_bind, Option.bind_some, if_true] at steps
  obtain ⟨⟨ring, progress⟩, received, rfl⟩ := Option.map_eq_some_iff.mp steps
  obtain ⟨⟨pushed, stat⟩, _, waits⟩ := Option.bind_eq_some_iff.mp received
  obtain ⟨_, _, same⟩ := Option.bind_eq_some_iff.mp waits
  cases same
  rfl

def getRequest : SmallRequest .farreach where
  bytes := (Ophdr.make (.ofCode 0x0030) ⟨5, 0, 0, 0⟩).bytes .farreach
  srcAddr := (0, 0)
  key := ⟨5, 0, 0, 0⟩
  optype := .ofCode 0x0030
  isKey := by decide
  isType := by decide
  small := by decide
  short := by decide

/-- In every run of possible packets that are in turn the worker does not exit. It has returned each large request at
most once, with the bytes of one attempt, and each small request once or has it in its ring; calls that time out
return what is in the ring. -/
theorem worker_serves_exactlyOnce (method : Method) (capacity : Nat) (positive : 0 < capacity)
    (state : Option (Worker method))
    (run : Runs.Reaches Worker.next
      (fun state event => ∀ worker, state = some worker → worker.Possible event ∧ worker.InTurn event)
      (some (Worker.start method capacity positive)) state) :
    ∃ worker served queued, state = some worker ∧ ExactlyOnce worker served queued ∧
      ∃ after all, (rounds worker.ring.contents.length).foldl Worker.next state = some after ∧
        ExactlyOnce after all [] ∧ after.arrived = worker.arrived := by
  have reached : ∃ worker served queued, state = some worker ∧ WorkerServes worker served queued := by
    refine run.invariant (fun state => ∃ worker served queued, state = some worker ∧
      WorkerServes worker served queued) ?_ ?_
    · exact ⟨_, [], [], rfl, serves_start method positive⟩
    · rintro _ event ⟨worker, served, queued, rfl, serves⟩ allowed
      obtain ⟨possible, inTurn⟩ := allowed worker rfl
      obtain ⟨after, served', queued', steps, kept⟩ := serves.step possible inTurn
      exact ⟨after, served', queued', steps, kept⟩
  obtain ⟨worker, served, queued, rfl, serves⟩ := reached
  refine ⟨worker, served, queued, rfl, serves.toExactlyOnce, ?_⟩
  exact serves.returns_smalls (List.append_nil _).symm fun _ member => absurd member List.not_mem_nil

/-- A PUT is returned, its client takes it for lost and sends it again, the second fragment of which does get lost,
and a GET arrives. -/
theorem worker_serves_exactlyOnce_retried : ∃ first retry : Attempt .farreach,
    first.identity = retry.identity ∧ first.fragseq < retry.fragseq ∧
      let events := [WorkerEvent.call, .arrives (.fragment first 0), .arrives (.fragment first 1), .call,
        .arrives (.fragment retry 0), .arrives (.small getRequest)]
      ∃ worker served queued, events.foldl Worker.next (some (Worker.start .farreach 4 (by decide))) = some worker ∧
        ExactlyOnce worker served queued ∧ worker.returned.map Prod.fst = [first.message] ∧
        ∃ after all, (rounds worker.ring.contents.length).foldl Worker.next
            (events.foldl Worker.next (some (Worker.start .farreach 4 (by decide)))) = some after ∧
          ExactlyOnce after all [] ∧ after.arrived = worker.arrived := by
  obtain ⟨first, request1, _, client1, fragseq1, two1⟩ := @exists_put 0 ⟨1, 0, 0, 0⟩ 1 0 (by decide)
  obtain ⟨retry, request2, _, client2, fragseq2, two2⟩ := @exists_put 0 ⟨1, 0, 0, 0⟩ 1 1 (by decide)
  have later : first.fragseq < retry.fragseq := by
    rw [fragseq1, fragseq2]
    decide
  have apart : retry ≠ first := by
    rintro rfl
    exact absurd later (UInt32.lt_irrefl _)
  have contents := @contents_init 4 (by decide)
  obtain ⟨state, done, collects, starts, received⟩ :=
    @collects_first .farreach _ first [] contents [] two1 List.not_mem_nil
  rw [List.nil_append] at collects received
  obtain ⟨srcAddr, returns⟩ := @returns_second .farreach (.init 4 (by decide)) first state done two1 collects
  have arrived : ∀ {before j}, PacketArrival.fragment before j ∈ [PacketArrival.fragment first 0, .fragment first 1] →
      before = first := by
    intro before j member
    rcases List.mem_cons.mp member with zero | one
    · injection zero
    · exact (of_mem_singleton_fragment one).1
  obtain ⟨again, _, collectsAgain, startsAgain, receivedAgain⟩ := @collects_first .farreach _ retry
    [.fragment first 0, .fragment first 1] contents [(first.message, srcAddr)] two2
      fun member => apart (arrived member)
  have begins : Worker.next (some (Worker.start .farreach 4 (by decide))) .call =
      some ⟨.init 4 (by decide), some (.first packetBuffer), [], []⟩ := starts
  have empty : (PktRingBuffer.init 4 (by decide)).contents.length = 0 := by rw [contents, List.length_nil]
  refine ⟨first, retry, Prod.ext (client1.trans client2.symm) (request1.trans request2.symm), later, ?_⟩
  have run : Runs.AllAllowed Worker.next
      (fun state event => ∀ worker, state = some worker → worker.Possible event ∧ worker.InTurn event)
      (some (Worker.start .farreach 4 (by decide)))
      [.call, .arrives (.fragment first 0), .arrives (.fragment first 1), .call, .arrives (.fragment retry 0),
        .arrives (.small getRequest)] := by
    refine ⟨?_, ?_, ?_, ?_, ?_, ?_, trivial⟩
    · rintro worker ⟨⟩
      exact ⟨trivial, trivial⟩
    · rw [begins]
      rintro worker ⟨⟩
      exact ⟨possible_first contents (by decide) (by omega) List.not_mem_nil
        fun _ _ member => absurd member List.not_mem_nil, inTurn_first contents two1 List.not_mem_nil⟩
    · rw [begins, received]
      rintro worker ⟨⟩
      exact allowed_second contents (by decide) two1 state rfl
    · rw [begins, received, returns]
      rintro worker ⟨⟩
      exact ⟨trivial, trivial⟩
    · rw [begins, received, returns, startsAgain]
      rintro worker ⟨⟩
      refine ⟨possible_first contents (by decide) (by omega) (fun member => apart (arrived member))
        fun before j member _ => ?_, inTurn_first contents two2 fun member => apart (arrived member)⟩
      rw [arrived member, request1, request2]
      exact ⟨later, le_rfl⟩
    · rw [begins, received, returns, startsAgain, receivedAgain]
      rintro worker ⟨⟩
      refine ⟨⟨rfl, ?_⟩, trivial⟩
      change (PktRingBuffer.init 4 _).contents.length + 1 + 1 < 4
      omega
  obtain ⟨worker, served, queued, isWorker, exactly, rest⟩ :=
    worker_serves_exactlyOnce .farreach 4 (by decide) _ (Runs.Reaches.start.foldl _ run)
  refine ⟨worker, served, queued, isWorker, exactly, ?_, rest⟩
  rw [List.foldl_cons, List.foldl_cons, List.foldl_cons, List.foldl_cons, List.foldl_cons, List.foldl_cons,
    List.foldl_nil, begins, received, returns, startsAgain, receivedAgain] at isWorker
  rw [returned_of_small isWorker]
  rfl

section OtherKey

/-- `update_large` exits on a fragment of another key than that of the client's packet. -/
theorem PktRingBuffer.updateLarge_of_key_ne {ring : PktRingBuffer} (consistent : ring.Consistent)
    {clientlogicalidx : UInt16} (queued : ring.Queued clientlogicalidx) {key : Key}
    (apart : ∀ slot ∈ ring.contents, 0 < slot.maxfragnum → slot.clientlogicalidx = clientlogicalidx → slot.key ≠ key)
    (optype : PacketType) (fraghdrBuf : List UInt8) (fragbodyOff : Nat) (fragbodyBuf : List UInt8) (fragseq : UInt32)
    (isFrag0 : Bool) :
    ring.updateLarge optype key fraghdrBuf fragbodyOff fragbodyBuf clientlogicalidx fragseq isFrag0 = none := by
  obtain ⟨bufidx, found⟩ := (consistent.map_isSome_iff _).mpr queued
  obtain ⟨i, inside, rfl, large, client⟩ := (consistent.indexed _ _).mp found
  have other := apart _ (ring.mem_contents.mpr ⟨i, inside, rfl⟩) large client
  simp [updateLarge, found, updateSlot, guard, other]

theorem Worker.step_of_key_ne {worker : Worker method} (consistent : worker.ring.Consistent)
    {attempt : Attempt method} {i : Nat} (inside : i < attempt.fragnum) {state : Receiving}
    (isCall : worker.call = some (.next state)) (other : attempt.clientlogicalidx ≠ state.largepktClientlogicalidx)
    (isQueued : worker.ring.Queued attempt.clientlogicalidx)
    (apart : ∀ slot ∈ worker.ring.contents, 0 < slot.maxfragnum → slot.clientlogicalidx = attempt.clientlogicalidx →
      slot.key ≠ attempt.key) : worker.step (.arrives (.fragment attempt i)) = none := by
  have found := consistent.isClientlogicalidxExist_of_queued isQueued
  rw [step_arrives isCall]
  simp only [PacketArrival.bytes, PacketArrival.srcAddr, recvNextServer_fragment, other, ne_eq,
    not_false_eq_true, if_true]
  rw [queueFragment_eq inside attempt.srcAddr found, if_pos rfl,
    updateLarge_of_key_ne consistent isQueued apart]
  rfl

/-- The first fragment of a second client goes into the ring. -/
theorem queues_second {first second : Attempt method} {state : Receiving} {done : List Nat}
    (collects : Collects [.fragment first 0] state first done) (two : second.fragnum = 2)
    (other : second.clientlogicalidx ≠ first.clientlogicalidx) {capacity : Nat} (room : 2 < capacity)
    (positive : 0 < capacity) :
    ∃ ring slot, ring.Consistent ∧ ring.capacity = capacity ∧ ring.contents = [slot] ∧
      Tracks [.fragment first 0, .fragment second 0] slot second [0] ∧
      Possible ⟨.init capacity positive, some (.next state), [], [.fragment first 0]⟩
        (.arrives (.fragment second 0)) ∧
      Worker.next (some ⟨.init capacity positive, some (.next state), [], [.fragment first 0]⟩)
          (.arrives (.fragment second 0)) =
        some ⟨ring, some (.next state), [], [.fragment first 0, .fragment second 0]⟩ := by
  have contents := contents_init positive
  have free : ¬ (PktRingBuffer.init capacity positive).Queued second.clientlogicalidx := by
    rintro ⟨slot, member, _⟩
    rw [contents] at member
    cases member
  have notFull : ¬ (PktRingBuffer.init capacity positive).IsFull := by
    refine not_isFull ?_
    rw [contents, List.length_nil]
    exact (by omega : 0 + 1 < capacity)
  obtain ⟨ring, slot, queued, kept, sameCapacity, isContents, tracks⟩ :=
    @queueFragment_first method [.fragment first 0] second (.init capacity positive)
    (consistent_init positive) notFull free 0 (by omega) second.srcAddr
  rw [contents, List.nil_append] at isContents
  have isClient : state.largepktClientlogicalidx = first.clientlogicalidx := collects.tracks.clientlogicalidx
  have fromOther : second.clientlogicalidx ≠ state.largepktClientlogicalidx := by
    rw [isClient]
    exact other
  refine ⟨ring, slot, kept, sameCapacity, isContents, tracks, ?_, ?_⟩
  · refine ⟨rfl, by omega, fun member => other ?_, fun before j member sameClient => ?_, Or.inl ?_⟩
    · rw [(of_mem_singleton_fragment member).1]
    · rw [(of_mem_singleton_fragment member).1] at sameClient
      exact absurd sameClient.symm other
    · change (PktRingBuffer.init capacity positive).contents.length + 1 + 1 < capacity
      rw [contents, List.length_nil]
      omega
  · rw [Worker.next, Option.bind_some, step_arrives rfl]
    simp only [PacketArrival.bytes, PacketArrival.srcAddr, recvNextServer_fragment, fromOther, ne_eq,
      not_false_eq_true, if_true, queued]
    rfl

/-- While the packet of one client is collected and a fragment of a second client is in the ring, the second client
goes on to another key: the worker exits. -/
theorem exits_when_client_moves {first second third : Attempt method} (two1 : first.fragnum = 2)
    (two2 : second.fragnum = 2) (two3 : third.fragnum = 2) (other : second.clientlogicalidx ≠ first.clientlogicalidx)
    (same : third.clientlogicalidx = second.clientlogicalidx) (keys : second.key ≠ third.key)
    (fragseqs : second.fragseq < third.fragseq) (requests : second.request ≤ third.request) {capacity : Nat}
    (room : 3 < capacity) :
    Runs.AllAllowed Worker.next (fun state event => ∀ worker, state = some worker → worker.Possible event)
        (some (Worker.start method capacity (by omega)))
        [.call, .arrives (.fragment first 0), .arrives (.fragment second 0), .arrives (.fragment third 0)] ∧
      [WorkerEvent.call, .arrives (.fragment first 0), .arrives (.fragment second 0),
        .arrives (.fragment third 0)].foldl Worker.next (some (Worker.start method capacity (by omega))) = none := by
  have positive : 0 < capacity := by omega
  have contents := contents_init positive
  obtain ⟨state, done, collects, starts, received⟩ :=
    @collects_first method _ first [] contents [] two1 List.not_mem_nil
  have starts : Worker.next (some (Worker.start method capacity positive)) .call =
      some ⟨.init capacity positive, some (.first packetBuffer), [], []⟩ := starts
  rw [List.nil_append] at collects received
  obtain ⟨ring, slot, kept, sameCapacity, isContents, tracks, queues, receivedSecond⟩ :=
    queues_second collects two2 other (by omega) positive
  have isClient : state.largepktClientlogicalidx = first.clientlogicalidx := collects.tracks.clientlogicalidx
  have members : ∀ before j, .fragment before j ∈ [PacketArrival.fragment first 0, .fragment second 0] →
      before = first ∨ before = second := by
    intro before j member
    rcases List.mem_cons.mp member with isFirst | isSecond
    · left
      injection isFirst
    · exact Or.inr (of_mem_singleton_fragment isSecond).1
  have moves : Possible ⟨ring, some (.next state), [], [.fragment first 0, .fragment second 0]⟩
      (.arrives (.fragment third 0)) := by
    refine ⟨rfl, by omega, fun member => ?_, fun before j member sameClient => ?_, Or.inl ?_⟩
    · rcases members third 0 member with rfl | rfl
      · exact other same.symm
      · exact keys rfl
    · rcases members before j member with rfl | rfl
      · exact absurd (same.symm.trans sameClient.symm) other
      · refine ⟨fun equal => ?_, fun _ => requests, fun less => ?_⟩
        · rw [equal] at fragseqs
          exact absurd fragseqs (UInt32.lt_irrefl _)
        · exact absurd less (UInt32.lt_asymm fragseqs)
    · change ring.contents.length + 1 + 1 < ring.capacity
      rw [isContents, sameCapacity]
      exact room
  have exits : Worker.next (some ⟨ring, some (.next state), [], [.fragment first 0, .fragment second 0]⟩)
      (.arrives (.fragment third 0)) = none := by
    have here : slot ∈ ring.contents := by
      rw [isContents]
      exact List.mem_cons_self
    have fromOther : third.clientlogicalidx ≠ state.largepktClientlogicalidx := by
      rw [isClient, same]
      exact other
    refine @step_of_key_ne method ⟨ring, some (.next state), [], [.fragment first 0, .fragment second 0]⟩ kept
      third 0 (by omega) state rfl fromOther ⟨slot, here, tracks.large, tracks.clientlogicalidx.trans same.symm⟩ ?_
    intro found member _ _
    have only : found ∈ ring.contents := member
    rw [isContents] at only
    rw [List.mem_singleton.mp only, tracks.key]
    exact keys
  refine ⟨⟨?_, ?_, ?_, ?_, trivial⟩, ?_⟩
  · rintro worker ⟨⟩
    trivial
  · rw [starts]
    rintro worker ⟨⟩
    exact possible_first contents (by exact (by omega : 1 < capacity)) (by omega) List.not_mem_nil
      fun _ _ member => absurd member List.not_mem_nil
  · rw [starts, received]
    rintro worker ⟨⟩
    exact queues
  · rw [starts, received, receivedSecond]
    rintro worker ⟨⟩
    exact moves
  · rw [List.foldl_cons, List.foldl_cons, List.foldl_cons, List.foldl_cons, List.foldl_nil, starts, received,
      receivedSecond, exits]

/-- Client 1 has a packet collected, a fragment of client 2 is in the ring, and client 2 goes on to another key. -/
theorem worker_exits_on_other_key : ∃ first second third : Attempt .farreach,
    first.clientlogicalidx = 1 ∧ second.clientlogicalidx = 2 ∧ third.clientlogicalidx = 2 ∧
      second.request = 0 ∧ third.request = 1 ∧ second.fragseq = 0 ∧ third.fragseq = 1 ∧
      second.key = ⟨2, 0, 0, 0⟩ ∧ third.key = ⟨3, 0, 0, 0⟩ ∧
      Runs.AllAllowed Worker.next (fun state event => ∀ worker, state = some worker → worker.Possible event)
        (some (Worker.start .farreach 4 (by decide)))
        [.call, .arrives (.fragment first 0), .arrives (.fragment second 0), .arrives (.fragment third 0)] ∧
      [WorkerEvent.call, .arrives (.fragment first 0), .arrives (.fragment second 0),
        .arrives (.fragment third 0)].foldl Worker.next (some (Worker.start .farreach 4 (by decide))) = none := by
  obtain ⟨first, _, _, client1, _, two1⟩ := @exists_put 0 ⟨1, 0, 0, 0⟩ 1 0 (by decide)
  obtain ⟨second, request2, key2, client2, fragseq2, two2⟩ := @exists_put 0 ⟨2, 0, 0, 0⟩ 2 0 (by decide)
  obtain ⟨third, request3, key3, client3, fragseq3, two3⟩ := @exists_put 1 ⟨3, 0, 0, 0⟩ 2 1 (by decide)
  refine ⟨first, second, third, client1, client2, client3, request2, request3, fragseq2, fragseq3, key2, key3, ?_⟩
  refine exits_when_client_moves two1 two2 two3 ?_ (client3.trans client2.symm) ?_ ?_ ?_ (by decide)
  · rw [client1, client2]
    decide
  · rw [key2, key3]
    decide
  · rw [fragseq2, fragseq3]
    decide
  · rw [request2, request3]
    decide

end OtherKey

end FarReach
