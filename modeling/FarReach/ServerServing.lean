import FarReach.ReceiverTracking

namespace FarReach

open Bytes DynamicArray Reassembly

/-- What a call can return: a small request, or a large one as one of its attempts carried it. -/
inductive Request (method : Method) where
  | small (request : SmallRequest method)
  | large (attempt : Attempt method)

variable {method : Method}

namespace Request

def IsPacket : Request method → List UInt8 × SockAddr → Prop
  | small request, packet => packet = (request.bytes, request.srcAddr)
  | large attempt, packet => packet.1 = attempt.message

def small? : Request method → Option (SmallRequest method)
  | small request => some request
  | large _ => none

def identity? : Request method → Option (UInt16 × Nat)
  | small _ => none
  | large attempt => some attempt.identity

end Request

def SmallRequest.InSlot (request : SmallRequest method) (slot : PktSlot) : Prop :=
  slot.dynamicbuf.content = request.bytes ∧ slot.clientaddr = request.srcAddr

def PktRingBuffer.smalls (ring : PktRingBuffer) : List PktSlot := ring.contents.filter fun slot => slot.maxfragnum = 0

/-- The worker has returned the requests `served`, and `queued` are the small requests in its ring: no request twice,
only those of which a whole attempt has arrived, and every small one that has arrived, in its order. -/
structure ExactlyOnce (worker : Worker method) (served : List (Request method))
    (queued : List (SmallRequest method)) :
    Prop where
  packets : List.Forall₂ Request.IsPacket served worker.returned
  waiting : List.Forall₂ SmallRequest.InSlot queued worker.ring.smalls
  smalls : served.filterMap Request.small? ++ queued = worker.arrived.filterMap PacketArrival.small?
  once : (served.filterMap Request.identity?).Nodup
  complete : ∀ attempt, .large attempt ∈ served → attempt.Whole worker.arrived

def Pending (arrived : List (PacketArrival method)) (served : List (Request method)) (slot : PktSlot) : Prop :=
  ∃ attempt done, Tracks arrived slot attempt done ∧ .large attempt ∉ served

def OneWhole (arrived : List (PacketArrival method)) : Prop :=
  ∀ attempt before : Attempt method, attempt.identity = before.identity → attempt.Whole arrived →
    before.Whole arrived →
    attempt = before

/-- The invariant of a worker, apart from its call. -/
structure RingServes (worker : Worker method) (served : List (Request method)) (queued : List (SmallRequest method)) :
    Prop extends ExactlyOnce worker served queued where
  consistent : worker.ring.Consistent
  tracked : ∀ slot ∈ worker.ring.contents, 0 < slot.maxfragnum → Pending worker.arrived served slot
  oneWhole : OneWhole worker.arrived

/-- A call waits for its first packet only if the ring is empty, and the packet it collects is not in the ring. -/
def CallServes (worker : Worker method) (served : List (Request method)) : Prop :=
  match worker.call with
  | none => True
  | some (.first buf) => buf = packetBuffer ∧ worker.ring.contents = []
  | some (.next state) => ∃ attempt done, Collects worker.arrived state attempt done ∧
      .large attempt ∉ served ∧ ¬ worker.ring.Queued attempt.clientlogicalidx

structure WorkerServes (worker : Worker method) (served : List (Request method))
    (queued : List (SmallRequest method)) :
    Prop extends RingServes worker served queued where
  call : CallServes worker served
  room : worker.held < worker.ring.capacity

section Requests

variable {worker : Worker method} {served : List (Request method)} {queued : List (SmallRequest method)}
  {attempt : Attempt method}

theorem mem_identities {identity : UInt16 × Nat} (member : identity ∈ served.filterMap Request.identity?) :
    ∃ attempt, .large attempt ∈ served ∧ attempt.identity = identity := by
  obtain ⟨request, found, isIdentity⟩ := List.mem_filterMap.mp member
  cases request with
  | small request => cases isIdentity
  | large attempt => exact ⟨attempt, found, Option.some.inj isIdentity⟩

theorem identities_append_small (request : SmallRequest method) :
    (served ++ [Request.small request]).filterMap Request.identity? = served.filterMap Request.identity? := by
  rw [List.filterMap_append]
  exact List.append_nil _

/-- A small request is returned: the one at the front of the ring, or one that has just arrived. -/
theorem RingServes.returns_small {after : Worker method} {left : List (SmallRequest method)}
    {request : SmallRequest method} (serves : RingServes worker served queued) {later : List (PacketArrival method)}
    (arrived : after.arrived = worker.arrived ++ later)
    (returned : after.returned = worker.returned ++ [(request.bytes, request.srcAddr)])
    (queue : queued ++ later.filterMap PacketArrival.small? = request :: left) (oneWhole : OneWhole after.arrived)
    (consistent : after.ring.Consistent)
    (waiting : List.Forall₂ SmallRequest.InSlot left after.ring.smalls)
    (subset : ∀ slot ∈ after.ring.contents, slot ∈ worker.ring.contents) :
    RingServes after (served ++ [.small request]) left := by
  refine ⟨⟨?_, waiting, ?_, ?_, ?_⟩, consistent, ?_, oneWhole⟩
  · rw [returned]
    exact List.rel_append serves.packets (.cons rfl .nil)
  · rw [arrived, List.filterMap_append, List.filterMap_append, ← serves.smalls, List.append_assoc,
      List.append_assoc, queue]
    rfl
  · rw [identities_append_small]
    exact serves.once
  · intro attempt member i inside
    have large : .large attempt ∈ served := (List.mem_append.mp member).resolve_right (by simp)
    rw [arrived]
    exact List.mem_append_left _ (serves.complete attempt large i inside)
  · intro slot member large
    obtain ⟨attempt, done, tracks, new⟩ := serves.tracked slot (subset slot member) large
    rw [arrived]
    exact ⟨attempt, done, tracks.mono later, by simpa using new⟩

variable {i : Nat}

/-- A fragment that has not arrived is not of an attempt that was returned. -/
theorem RingServes.unserved (serves : RingServes worker served queued) (inside : i < attempt.fragnum)
    (fresh : .fragment attempt i ∉ worker.arrived) : .large attempt ∉ served :=
  fun member => fresh (serves.complete attempt member i inside)

theorem OneWhole.small {arrived : List (PacketArrival method)} (oneWhole : OneWhole arrived)
    (request : SmallRequest method) :
    OneWhole (arrived ++ [.small request]) := by
  have whole : ∀ attempt : Attempt method, attempt.Whole (arrived ++ [.small request]) → attempt.Whole arrived :=
    fun attempt all i inside => (List.mem_append.mp (all i inside)).resolve_right (by simp)
  exact fun attempt before same all allBefore => oneWhole attempt before same (whole attempt all)
    (whole before allBefore)

theorem OneWhole.fragment (oneWhole : OneWhole worker.arrived)
    (inTurn : worker.InTurn (.arrives (.fragment attempt i))) :
    OneWhole (worker.arrived ++ [.fragment attempt i]) := by
  have whole : ∀ other : Attempt method, other.Whole (worker.arrived ++ [.fragment attempt i]) →
      other = attempt ∨ other.Whole worker.arrived := by
    intro other all
    by_cases same : other = attempt
    · exact Or.inl same
    · refine Or.inr fun j inside => (List.mem_append.mp (all j inside)).resolve_right fun last => same ?_
      injection List.mem_singleton.mp last
  intro one other same all allOther
  rcases whole one all, whole other allOther with ⟨rfl | early, rfl | earlyOther⟩
  · rfl
  · exact absurd earlyOther (inTurn.1 all other same.symm)
  · exact absurd early (inTurn.1 allOther one same)
  · exact oneWhole one other same early earlyOther

theorem RingServes.replace (serves : RingServes worker served queued) {ring : PktRingBuffer}
    (consistent : ring.Consistent) (smalls : ring.smalls = worker.ring.smalls)
    (tracked : ∀ slot ∈ ring.contents, 0 < slot.maxfragnum → Pending worker.arrived served slot)
    (call : Option Waiting) :
    RingServes { worker with ring := ring, call := call } served queued :=
  { serves with
    waiting := (congrArg (List.Forall₂ SmallRequest.InSlot queued) smalls).mpr serves.waiting
    consistent := consistent
    tracked := tracked }

theorem RingServes.arrives (serves : RingServes worker served queued)
    (inTurn : worker.InTurn (.arrives (.fragment attempt i))) :
    RingServes (worker.arrive (.fragment attempt i)) served queued := by
  refine { serves with smalls := ?_, complete := ?_, tracked := ?_, oneWhole := serves.oneWhole.fragment inTurn }
  · rw [Worker.arrive, List.filterMap_append, serves.smalls]
    exact (List.append_nil _).symm
  · exact fun other member j inside => List.mem_append_left _ (serves.complete other member j inside)
  · intro slot member large
    obtain ⟨tracked, done, tracks, new⟩ := serves.tracked slot member large
    exact ⟨tracked, done, tracks.mono _, new⟩

theorem RingServes.returns (serves : RingServes worker served queued) (new : .large attempt ∉ served)
    (free : ¬ worker.ring.Queued attempt.clientlogicalidx)
    (came : attempt.Whole worker.arrived) (srcAddr : SockAddr) :
    RingServes { worker with call := none, returned := worker.returned ++ [(attempt.message, srcAddr)] }
      (served ++ [.large attempt]) queued := by
  have identities : (served ++ [Request.large attempt]).filterMap Request.identity? =
      served.filterMap Request.identity? ++ [attempt.identity] := List.filterMap_append
  refine ⟨⟨?_, serves.waiting, ?_, ?_, ?_⟩, serves.consistent, ?_, serves.oneWhole⟩
  · exact List.rel_append serves.packets (.cons rfl .nil)
  · rw [List.filterMap_append]
    exact (congrArg (· ++ queued) (List.append_nil _)).trans serves.smalls
  · rw [identities]
    refine serves.once.append (List.nodup_singleton _) (List.disjoint_singleton.mpr fun member => new ?_)
    obtain ⟨before, found, same⟩ := mem_identities member
    rwa [← serves.oneWhole before attempt same (serves.complete before found) came]
  · intro other member
    rcases List.mem_append.mp member with old | here
    · exact serves.complete other old
    · obtain rfl : other = attempt := by
        have same := List.mem_singleton.mp here
        injection same
      exact came
  · intro slot member large
    obtain ⟨other, done, tracks, old⟩ := serves.tracked slot member large
    refine ⟨other, done, tracks, ?_⟩
    rw [List.mem_append, List.mem_singleton]
    rintro (early | same)
    · exact old early
    · cases same
      exact free ⟨slot, member, large, tracks.clientlogicalidx⟩

/-- The call goes on with a large packet or returns it. -/
theorem RingServes.advance {ring : PktRingBuffer} (serves : RingServes { worker with ring := ring } served queued)
    (new : .large attempt ∉ served) (free : ¬ ring.Queued attempt.clientlogicalidx)
    (room : ring.contents.length + 1 < ring.capacity) {progress : Progress}
    (stored : Stored worker.arrived attempt (some progress)) :
    ∃ served', WorkerServes (worker.advance (ring, progress)) served' queued := by
  rcases stored with ⟨buf, srcAddr, isDone, content, came⟩ | ⟨state, done, isWait, collects⟩
  · cases isDone
    have returned := serves.returns new free came srcAddr
    refine ⟨served ++ [.large attempt], ?_, trivial, ?_⟩
    · rw [Worker.advance, content]
      exact returned
    · exact Nat.lt_of_succ_lt room
  · cases isWait
    exact ⟨served, { serves with }, ⟨attempt, done, collects, new, free⟩, room⟩

end Requests

section Steps

variable {worker : Worker method} {served : List (Request method)} {queued : List (SmallRequest method)}

variable {ring : PktRingBuffer} {slot : PktSlot} {i : Nat} {state : Receiving}

theorem smalls_of_append_large {after : PktRingBuffer} (contents : after.contents = ring.contents ++ [slot])
    (large : 0 < slot.maxfragnum) : after.smalls = ring.smalls := by
  rw [PktRingBuffer.smalls, PktRingBuffer.smalls, contents, List.filter_append,
    List.filter_cons_of_neg (by simpa using large.ne'), List.filter_nil, List.append_nil]

theorem smalls_cons {rest : List PktSlot} (contents : ring.contents = slot :: rest) :
    ring.smalls = if slot.maxfragnum = 0 then slot :: rest.filter (fun slot => slot.maxfragnum = 0)
      else rest.filter fun slot => slot.maxfragnum = 0 := by
  rw [PktRingBuffer.smalls, contents, List.filter_cons]
  simp only [decide_eq_true_eq]

section

variable (serves : WorkerServes worker served queued)
include serves

theorem WorkerServes.step_call (idle : worker.call = none) :
    ∃ after served' queued', worker.step .call = some after ∧ WorkerServes after served' queued' ∧
      after.arrived = worker.arrived ∧ after.ring.contents = worker.ring.contents.tail := by
  have room : worker.ring.contents.length < worker.ring.capacity := by
    have held := serves.room
    rw [Worker.held, Worker.collects, idle] at held
    exact held
  have isStep : worker.step .call = (recvStart .server method worker.ring packetBuffer).map worker.advance := by
    simp only [Worker.step, idle]
  rw [isStep]
  cases contents : worker.ring.contents with
  | nil =>
    rw [recvStart_idle fun _ => contents]
    refine ⟨_, served, queued, rfl, ⟨{ serves with }, ⟨rfl, contents⟩, ?_⟩, rfl, contents⟩
    exact room
  | cons slot rest =>
    have here : slot ∈ worker.ring.contents := by
      rw [contents]
      exact List.mem_cons_self
    have behind : ∀ other ∈ rest, other ∈ worker.ring.contents := by
      intro other member
      rw [contents]
      exact List.mem_cons_of_mem _ member
    rw [contents, List.length_cons] at room
    by_cases large : 0 < slot.maxfragnum
    · obtain ⟨attempt, done, tracks, new⟩ := serves.tracked slot here large
      obtain ⟨ring, progress, starts, consistent, capacity, left, free, stored⟩ :=
        tracks.recvStart serves.consistent contents
      have smalls : ring.smalls = worker.ring.smalls := by
        rw [smalls_cons contents, if_neg large.ne', PktRingBuffer.smalls, left]
      have replaced := serves.toRingServes.replace consistent smalls
        (fun other member => serves.tracked other (behind other (left ▸ member))) worker.call
      obtain ⟨served', after⟩ := replaced.advance new free (by rw [left, capacity]; exact room) stored
      refine ⟨_, served', queued, by rw [starts]; rfl, after, ?_, ?_⟩
      · exact worker.arrived_advance ring progress
      · rw [worker.ring_advance]
        exact left
    · have small : slot.maxfragnum = 0 := by omega
      have waiting := serves.waiting
      rw [smalls_cons contents, if_pos small] at waiting
      cases waiting with
      | @cons request _ queued' _ inSlot others =>
        have fits : slot.dynamicbuf.content.length ≤ packetBuffer.maxcapability := by
          rw [inSlot.1]
          exact request.short.trans (by decide)
        obtain ⟨ring, popped, pops, wrote, consistent, capacity, left, _⟩ := PktRingBuffer.pop_spec serves.consistent
          contents fits
        have content : popped.content = request.bytes := (wrote.content rfl).trans inSlot.1
        have starts : recvStart .server method worker.ring packetBuffer =
            some (ring, .done popped slot.clientaddr) := by
          simp only [recvStart, pops, small, true_or, if_true, Option.bind_eq_bind, Option.bind_some]
        rw [starts]
        have others' : List.Forall₂ SmallRequest.InSlot queued' ring.smalls := by
          rw [PktRingBuffer.smalls, left]
          exact others
        refine ⟨_, served ++ [.small request], queued', rfl, ⟨?_, trivial, ?_⟩, rfl, left⟩
        · refine serves.toRingServes.returns_small (List.append_nil _).symm ?_ (List.append_nil _)
            serves.oneWhole consistent others' ?_
          · rw [← content, ← inSlot.2]
            rfl
          · exact fun other member => behind other (left ▸ member)
        · change ring.contents.length + 0 < ring.capacity
          rw [left, capacity]
          omega

theorem WorkerServes.step_timeout :
    ∃ after back, worker.step .timeout = some after ∧ WorkerServes after served queued ∧
      after.arrived = worker.arrived ∧
      after.call = none ∧ after.ring.contents = worker.ring.contents ++ back ∧ ∀ slot ∈ back,
      0 < slot.maxfragnum := by
  have nothing : ∀ slot ∈ ([] : List PktSlot), 0 < slot.maxfragnum := fun _ member => absurd member List.not_mem_nil
  have room := serves.room
  have call := serves.call
  rw [Worker.held, Worker.collects] at room
  rw [CallServes] at call
  cases isCall : worker.call with
  | none =>
    exact ⟨worker, [], by simp only [Worker.step, isCall], serves, rfl, isCall, (List.append_nil _).symm, nothing⟩
  | some waiting =>
    rw [isCall] at room call
    have isStep : worker.step .timeout =
        (recvTimeout .server worker.ring waiting).map fun ring => { worker with ring := ring, call := none } := by
      simp only [Worker.step, isCall]
    rw [isStep]
    cases waiting with
    | first buf => exact ⟨_, [], rfl, ⟨{ serves with }, trivial, room⟩, rfl, rfl, (List.append_nil _).symm, nothing⟩
    | next state =>
      obtain ⟨attempt, done, collects, new, free⟩ := call
      have notFull : ¬ worker.ring.IsFull := PktRingBuffer.not_isFull room
      obtain ⟨ring, slot, times, consistent, capacity, contents, tracks⟩ :=
        collects.recvTimeout serves.consistent notFull free
      rw [times]
      refine ⟨_, [slot], rfl, ⟨serves.toRingServes.replace consistent ?_ (fun other member large => ?_) none,
        trivial, ?_⟩, rfl, rfl, contents, fun other member => List.mem_singleton.mp member ▸ tracks.large⟩
      · exact smalls_of_append_large contents tracks.large
      · rw [contents] at member
        rcases List.mem_append.mp member with old | last
        · exact serves.tracked other old large
        · rw [List.mem_singleton.mp last]
          exact ⟨attempt, done, tracks, new⟩
      · change ring.contents.length + 0 < ring.capacity
        rw [contents, List.length_append, capacity]
        exact room

theorem WorkerServes.step_small (request : SmallRequest method)
    (possible : worker.Possible (.arrives (.small request))) :
    ∃ after served' queued', worker.step (.arrives (.small request)) = some after ∧
      WorkerServes after served' queued' := by
  obtain ⟨inCall, room⟩ := possible
  have call := serves.call
  rw [CallServes] at call
  rw [Worker.held, Worker.collects] at room
  cases isCall : worker.call with
  | none =>
    rw [isCall] at inCall
    cases inCall
  | some waiting =>
    rw [isCall] at call room
    have short := request.short
    rw [Worker.step_arrives isCall]
    cases waiting with
    | first buf =>
      -- the ring is empty, so that the request overtakes nothing
      obtain ⟨rfl, contents⟩ := call
      obtain ⟨copied, received, content, _⟩ :=
        @recvFirst_small .server method packetBuffer request.bytes request.srcAddr
        request.optype (by decide) request.isType request.small rfl (short.trans (by decide))
      have none : queued = [] := by
        have waiting := serves.waiting
        rw [PktRingBuffer.smalls, contents, List.filter_nil] at waiting
        exact List.forall₂_nil_right_iff.mp waiting
      subst none
      simp only [PacketArrival.bytes, PacketArrival.srcAddr, received, Option.map_some]
      refine ⟨_, served ++ [.small request], [], rfl, ⟨?_, trivial, Nat.lt_of_succ_lt room⟩⟩
      refine @RingServes.returns_small method worker served [] _ [] request serves.toRingServes
        [.small request] rfl ?_ rfl (serves.oneWhole.small request) serves.consistent serves.waiting
        fun _ member => member
      rw [← content]
      rfl
    | next state =>
      obtain ⟨attempt, done, collects, new, free⟩ := call
      have notFull : ¬ worker.ring.IsFull := PktRingBuffer.not_isFull (Nat.lt_of_succ_lt room)
      obtain ⟨ring, slot, pushed, consistent, contents, capacity, small, content, clientaddr⟩ :=
        @PktRingBuffer.push_spec worker.ring serves.consistent request.optype request.key request.bytes
          request.srcAddr notFull (short.trans (by decide))
      have received : recvNextServer method worker.ring state request.bytes request.srcAddr =
          some (ring, .wait (.next state)) := by
        simp only [recvNextServer, request.isKey, request.isType, request.small, pushed, guard, if_true,
          Option.pure_def, Option.bind_eq_bind, Option.bind_some]
      have notQueued : ¬ ring.Queued attempt.clientlogicalidx := by
        rintro ⟨other, member, large, client⟩
        rw [contents] at member
        rcases List.mem_append.mp member with old | last
        · exact free ⟨other, old, large, client⟩
        · rw [List.mem_singleton.mp last] at large
          omega
      simp only [PacketArrival.bytes, PacketArrival.srcAddr, received, Option.map_some]
      refine ⟨_, served, queued ++ [request], rfl, ⟨⟨serves.packets, ?_, ?_, serves.once, ?_⟩, consistent, ?_,
        serves.oneWhole.small request⟩,
        ⟨attempt, done, ⟨collects.tracks.mono _, collects.fragHdrsize, collects.fragBodysize⟩, new, notQueued⟩, ?_⟩
      · change List.Forall₂ _ _ ring.smalls
        rw [PktRingBuffer.smalls, contents, List.filter_append, List.filter_cons_of_pos (by simpa using small),
          List.filter_nil]
        exact List.rel_append serves.waiting (.cons ⟨content, clientaddr⟩ .nil)
      · rw [← List.append_assoc, serves.smalls, Worker.arrived_advance, Worker.arrive, List.filterMap_append]
        rfl
      · exact fun attempt member i inside => List.mem_append_left _ (serves.complete attempt member i inside)
      · intro other member large
        have inside : other ∈ ring.contents := member
        rw [contents] at inside
        rcases List.mem_append.mp inside with old | last
        · obtain ⟨tracked, done, tracks, unserved⟩ := serves.tracked other old large
          exact ⟨tracked, done, tracks.mono _, unserved⟩
        · rw [List.mem_singleton.mp last] at large
          omega
      · change ring.contents.length + 1 < ring.capacity
        rw [contents, List.length_append, capacity]
        exact room

theorem WorkerServes.step_fragment_first {attempt : Attempt method}
    (possible : worker.Possible (.arrives (.fragment attempt i)))
    (inTurn : worker.InTurn (.arrives (.fragment attempt i))) {buf : DynamicArray}
    (isCall : worker.call = some (.first buf)) :
    ∃ after served' queued', worker.step (.arrives (.fragment attempt i)) = some after ∧
      WorkerServes after served' queued' := by
  obtain ⟨_, inside, fresh, _, room⟩ := possible
  have call := serves.call
  rw [CallServes, isCall] at call
  obtain ⟨rfl, contents⟩ := call
  have free : ¬ worker.ring.Queued attempt.clientlogicalidx := by
    rintro ⟨slot, member, _⟩
    rw [contents] at member
    cases member
  have collects : worker.collects = none := by rw [Worker.collects, isCall]
  have held : worker.ring.contents.length + 1 < worker.ring.capacity := by
    have absent : ¬ worker.Holds attempt.clientlogicalidx := by
      rintro (queued | other)
      · exact free queued
      · rw [collects] at other
        cases other
    have fits := room.resolve_right absent
    rw [Worker.held, collects] at fits
    exact fits
  have stored := @recvFirst_attempt method worker.arrived attempt i inside attempt.srcAddr
  rw [Worker.step_arrives isCall]
  obtain ⟨progress, received⟩ := stored.exists_progress
  rw [received] at stored
  obtain ⟨served', after⟩ := @RingServes.advance method (worker.arrive (.fragment attempt i)) served queued attempt
    worker.ring (serves.toRingServes.arrives inTurn) (serves.toRingServes.unserved inside fresh) free held
      progress stored
  refine ⟨_, served', queued, ?_, after⟩
  simp only [PacketArrival.bytes, PacketArrival.srcAddr, received, Option.map_some]

end

/-- Where a further fragment goes depends on its client only. -/
theorem recvNextServer_fragment (attempt : Attempt method) (i : Nat) (srcAddr : SockAddr) :
    recvNextServer method ring state (attempt.fragment i) srcAddr =
      if attempt.clientlogicalidx ≠ state.largepktClientlogicalidx then
        (queueFragment method ring (attempt.header i).optype attempt.key attempt.clientlogicalidx attempt.fragseq
          (attempt.fragment i) srcAddr).map (·, .wait (.next state))
      else (recvSameClient state (attempt.header i).optype attempt.key attempt.fragseq (attempt.fragment i)).map
        (ring, ·) := by
  obtain ⟨key, optype, client, fragseq⟩ := attempt.read_fragment i
  obtain ⟨withClient, large⟩ := attempt.withClient i
  simp only [recvNextServer, key, optype, client, fragseq, withClient, large, Option.bind_eq_bind, Option.bind_some]
  by_cases other : attempt.clientlogicalidx ≠ state.largepktClientlogicalidx
  · rw [if_pos other]
    simp [other]
    cases queueFragment method ring (attempt.header i).optype attempt.key attempt.clientlogicalidx attempt.fragseq
          (attempt.fragment i) srcAddr <;> rfl
  · rw [if_neg other]
    simp [other]
    cases recvSameClient state (attempt.header i).optype attempt.key attempt.fragseq (attempt.fragment i) <;> rfl

section

variable (serves : WorkerServes worker served queued)
include serves

theorem WorkerServes.step_fragment_same {attempt : Attempt method}
    (possible : worker.Possible (.arrives (.fragment attempt i)))
    (inTurn : worker.InTurn (.arrives (.fragment attempt i))) (isCall : worker.call = some (.next state))
    (same : attempt.clientlogicalidx = state.largepktClientlogicalidx) :
    ∃ after served' queued', worker.step (.arrives (.fragment attempt i)) = some after ∧
      WorkerServes after served' queued' := by
  obtain ⟨_, inside, fresh, numbered, _⟩ := possible
  have room := serves.room
  have call := serves.call
  rw [Worker.held, Worker.collects, isCall] at room
  rw [CallServes, isCall] at call
  obtain ⟨before, done, collects, new, free⟩ := call
  have client : before.clientlogicalidx = attempt.clientlogicalidx :=
    collects.tracks.clientlogicalidx.symm.trans same.symm
  obtain ⟨j, came⟩ := collects.tracks.exists_came
  have received := @Collects.recvSameClient method worker.arrived attempt before done state collects client
    (numbered before j came client).1
    ((inTurn.2 before j came client).2 state isCall same.symm collects.tracks.fragseq) i inside fresh
  have arrives := serves.toRingServes.arrives inTurn
  rw [Worker.step_arrives isCall]
  simp only [PacketArrival.bytes, PacketArrival.srcAddr, recvNextServer_fragment, same, ne_eq,
    not_true_eq_false, if_false]
  rcases received with skipped | stored
  · rw [skipped]
    refine ⟨_, served, queued, rfl, { arrives with }, ⟨before, done, ?_, new, free⟩, room⟩
    exact ⟨collects.tracks.mono _, collects.fragHdrsize, collects.fragBodysize⟩
  · obtain ⟨progress, isProgress⟩ := stored.exists_progress
    rw [isProgress] at stored ⊢
    rw [client] at free
    obtain ⟨served', after⟩ := @RingServes.advance method (worker.arrive (.fragment attempt i)) served queued attempt
      worker.ring arrives (serves.toRingServes.unserved inside fresh) free room progress stored
    exact ⟨_, served', queued, rfl, after⟩

/-- The ring has taken a fragment, while the call goes on with the packet of another client. -/
theorem WorkerServes.queues {attempt : Attempt method}
    (inside : i < attempt.fragnum) (fresh : .fragment attempt i ∉ worker.arrived)
    (inTurn : worker.InTurn (.arrives (.fragment attempt i))) (isCall : worker.call = some (.next state))
    (other : attempt.clientlogicalidx ≠ state.largepktClientlogicalidx) (consistent : ring.Consistent)
    (smalls : ring.smalls = worker.ring.smalls)
    (members : ∀ slot ∈ ring.contents, slot ∈ worker.ring.contents ∨
      ∃ kept, Tracks (worker.arrived ++ [.fragment attempt i]) slot attempt kept)
    (room : ring.contents.length + 1 < ring.capacity) :
    WorkerServes ((worker.arrive (.fragment attempt i)).advance (ring, .wait (.next state))) served queued := by
  have call := serves.call
  rw [CallServes, isCall] at call
  obtain ⟨current, done, collects, new, free⟩ := call
  have isClient : state.largepktClientlogicalidx = current.clientlogicalidx := collects.tracks.clientlogicalidx
  have arrives := serves.toRingServes.arrives inTurn
  have later : Collects (worker.arrived ++ [.fragment attempt i]) state current done :=
    ⟨collects.tracks.mono _, collects.fragHdrsize, collects.fragBodysize⟩
  refine ⟨arrives.replace consistent smalls (fun slot member large => ?_) _, ⟨current, done, later, new, ?_⟩, room⟩
  · rcases members slot member with old | ⟨kept, tracks⟩
    · exact arrives.tracked slot old large
    · exact ⟨attempt, kept, tracks, serves.toRingServes.unserved inside fresh⟩
  · rintro ⟨slot, member, large, client⟩
    rcases members slot member with old | ⟨kept, tracks⟩
    · exact free ⟨slot, old, large, client⟩
    · exact other (tracks.clientlogicalidx.symm.trans (client.trans isClient.symm))

theorem WorkerServes.step_fragment_other {attempt : Attempt method}
    (possible : worker.Possible (.arrives (.fragment attempt i)))
    (inTurn : worker.InTurn (.arrives (.fragment attempt i))) (isCall : worker.call = some (.next state))
    (other : attempt.clientlogicalidx ≠ state.largepktClientlogicalidx) :
    ∃ after, worker.step (.arrives (.fragment attempt i)) = some after ∧ WorkerServes after served queued := by
  obtain ⟨_, inside, fresh, numbered, room⟩ := possible
  have held := serves.room
  have collects : worker.collects = some state.largepktClientlogicalidx := by rw [Worker.collects, isCall]
  have isHeld : worker.held = worker.ring.contents.length + 1 := by
    rw [Worker.held, collects]
    rfl
  rw [isHeld] at held room
  rw [Worker.step_arrives isCall]
  simp only [PacketArrival.bytes, PacketArrival.srcAddr, recvNextServer_fragment, other, ne_eq,
    not_false_eq_true, if_true]
  by_cases isQueued : worker.ring.Queued attempt.clientlogicalidx
  · have tracked : ∀ slot ∈ worker.ring.contents, 0 < slot.maxfragnum →
        slot.clientlogicalidx = attempt.clientlogicalidx →
        ∃ before done, Tracks worker.arrived slot before done ∧ attempt.Continues before ∧
          (before.fragseq = attempt.fragseq → before = attempt) := by
      intro slot member large client
      obtain ⟨before, done, tracks, _⟩ := serves.tracked slot member large
      have sameClient : before.clientlogicalidx = attempt.clientlogicalidx :=
        tracks.clientlogicalidx.symm.trans client
      obtain ⟨j, came⟩ := tracks.exists_came
      exact ⟨before, done, tracks, (inTurn.2 before j came sameClient).1 slot member large client tracks.fragseq,
        (numbered before j came sameClient).1⟩
    obtain ⟨ring, front, slot, updated, back, kept, queues, consistent, capacity, contents, contents',
      large, tracks⟩ :=
      queueFragment_again serves.consistent isQueued tracked inside fresh attempt.srcAddr
    rw [queues]
    refine ⟨_, rfl, serves.queues inside fresh inTurn isCall other consistent ?_ (fun slot member => ?_) ?_⟩
    · rw [PktRingBuffer.smalls, PktRingBuffer.smalls, contents, contents', List.filter_append, List.filter_append,
        List.filter_cons_of_neg (by simpa using tracks.large.ne'), List.filter_cons_of_neg (by simpa using large.ne')]
    · rw [contents'] at member
      rw [contents]
      rcases List.mem_append.mp member with before | rest
      · exact Or.inl (List.mem_append_left _ before)
      · rcases List.mem_cons.mp rest with rfl | behind
        · exact Or.inr ⟨kept, tracks⟩
        · exact Or.inl (List.mem_append_right _ (List.mem_cons_of_mem _ behind))
    · rw [contents, List.length_append, List.length_cons] at held
      rw [contents', List.length_append, List.length_cons, capacity]
      exact held
  · have fits : worker.ring.contents.length + 1 + 1 < worker.ring.capacity := by
      refine room.resolve_right ?_
      rintro (queued | current)
      · exact isQueued queued
      · rw [collects] at current
        exact other (Option.some.inj current).symm
    obtain ⟨ring, slot, queues, consistent, capacity, contents, tracks⟩ := @queueFragment_first method worker.arrived
      attempt worker.ring serves.consistent (PktRingBuffer.not_isFull held) isQueued i inside attempt.srcAddr
    rw [queues]
    refine ⟨_, rfl, serves.queues inside fresh inTurn isCall other consistent ?_ (fun slot member => ?_) ?_⟩
    · exact smalls_of_append_large contents tracks.large
    · rw [contents] at member
      rcases List.mem_append.mp member with old | last
      · exact Or.inl old
      · rw [List.mem_singleton.mp last]
        exact Or.inr ⟨_, tracks⟩
    · rw [contents, List.length_append, capacity]
      exact fits

/-- No event that is possible and in turn makes the worker exit, and its invariant is kept. -/
theorem WorkerServes.step {event : WorkerEvent method}
    (possible : worker.Possible event) (inTurn : worker.InTurn event) :
    ∃ after served' queued', worker.step event = some after ∧ WorkerServes after served' queued' := by
  cases event with
  | call =>
    cases isCall : worker.call with
    | none =>
      obtain ⟨after, served', queued', steps, kept, _⟩ := serves.step_call isCall
      exact ⟨after, served', queued', steps, kept⟩
    | some waiting => exact ⟨worker, served, queued, by simp only [Worker.step, isCall], serves⟩
  | timeout =>
    obtain ⟨after, _, times, kept, _⟩ := serves.step_timeout
    exact ⟨after, served, queued, times, kept⟩
  | arrives arrival =>
    cases arrival with
    | small request => exact serves.step_small request possible
    | fragment attempt i =>
      cases isCall : worker.call with
      | none =>
        have inCall := possible.1
        rw [isCall] at inCall
        cases inCall
      | some waiting =>
        cases waiting with
        | first buf => exact serves.step_fragment_first possible inTurn isCall
        | next state =>
          by_cases same : attempt.clientlogicalidx = state.largepktClientlogicalidx
          · exact serves.step_fragment_same possible inTurn isCall same
          · obtain ⟨after, steps, kept⟩ := serves.step_fragment_other possible inTurn isCall same
            exact ⟨after, served, queued, steps, kept⟩

end

end Steps

end FarReach
