import FarReach.FragmentDelivery
import FarReach.Runs

namespace FarReach

open Bytes DynamicArray Reassembly

/-- A request in one packet, with what a server reads of it. -/
structure SmallRequest (method : Method) where
  bytes : List UInt8
  srcAddr : SockAddr
  key : Key
  optype : PacketType
  isKey : getPacketKey method bytes = some key
  isType : getPacketType bytes = some optype
  small : optype.isPacketWithLargevalue = false
  short : bytes.length ≤ FragMode.server.fragbufMaxsize

/-- One transmission of a large request of a client. The headers of its fragments may differ in what the switch has
written into them. -/
structure Attempt (method : Method) where
  request : Nat
  header : Nat → LargeHeader .server method
  body : List UInt8
  srcAddr : SockAddr
  sameKey : ∀ i, (header i).key = (header 0).key
  sameOptype : ∀ i, (header i).optype.isSameOptype (header 0).optype = true
  sameClient : ∀ i, (header i).clientlogicalidx = (header 0).clientlogicalidx
  sameFragseq : ∀ i, (header i).fragseq = (header 0).fragseq
  bounded : (header 0).bytes.length + body.length ≤ 8388608

namespace Attempt

variable {method : Method}

def key (attempt : Attempt method) : Key := (attempt.header 0).key

def optype (attempt : Attempt method) : PacketType := (attempt.header 0).optype

def clientlogicalidx (attempt : Attempt method) : UInt16 := (attempt.header 0).clientlogicalidx

def fragseq (attempt : Attempt method) : UInt32 := (attempt.header 0).fragseq

def identity (attempt : Attempt method) : UInt16 × Nat := (attempt.clientlogicalidx, attempt.request)

def fragHdrsize (attempt : Attempt method) : Nat := (attempt.header 0).bytes.length

def fragBodysize (attempt : Attempt method) : Nat := (attempt.header 0).fragBodysize

def fragnum (attempt : Attempt method) : Nat := count attempt.fragBodysize attempt.body.length

def fragment (attempt : Attempt method) (i : Nat) : List UInt8 := (attempt.header i).fragment attempt.body i

/-- The whole packet. The header of fragment 0 holds the right sequence number. -/
def message (attempt : Attempt method) : List UInt8 := (attempt.header 0).bytes ++ attempt.body

/-- The same or a later attempt at a packet of the same key and the same size. -/
structure Continues (attempt before : Attempt method) : Prop where
  key : before.key = attempt.key
  optype : before.optype.isSameOptype attempt.optype = true
  fragseq : before.fragseq ≤ attempt.fragseq
  length : attempt.body.length = before.body.length

end Attempt

/-- A packet reaches the socket of a server worker. -/
inductive PacketArrival (method : Method) where
  | small (request : SmallRequest method)
  | fragment (attempt : Attempt method) (i : Nat)

def Attempt.Whole {method : Method} (attempt : Attempt method) (arrived : List (PacketArrival method)) : Prop :=
  ∀ i < attempt.fragnum, .fragment attempt i ∈ arrived

namespace PacketArrival

variable {method : Method}

def bytes : PacketArrival method → List UInt8
  | small request => request.bytes
  | fragment attempt i => attempt.fragment i

def srcAddr : PacketArrival method → SockAddr
  | small request => request.srcAddr
  | fragment attempt _ => attempt.srcAddr

def small? : PacketArrival method → Option (SmallRequest method)
  | small request => some request
  | fragment _ _ => none

end PacketArrival

inductive WorkerEvent (method : Method) where
  | call
  | arrives (arrival : PacketArrival method)
  | timeout

/-- A server worker between two calls of `udprecvlarge` or in one, what its calls have returned and what has arrived.
-/
structure Worker (method : Method) where
  ring : PktRingBuffer
  call : Option Waiting
  returned : List (List UInt8 × SockAddr)
  arrived : List (PacketArrival method)

namespace Worker

variable {method : Method}

def start (method : Method) (capacity : Nat) (positive : 0 < capacity) : Worker method :=
  ⟨.init capacity positive, none, [], []⟩

def advance (worker : Worker method) : PktRingBuffer × Progress → Worker method
  | (ring, .wait waiting) => { worker with ring := ring, call := some waiting }
  | (ring, .done buf srcAddr) =>
    { worker with ring := ring, call := none, returned := worker.returned ++ [(buf.content, srcAddr)] }

@[simp] theorem ring_advance (worker : Worker method) (ring : PktRingBuffer) (progress : Progress) :
    (worker.advance (ring, progress)).ring = ring := by
  cases progress <;> rfl

@[simp] theorem arrived_advance (worker : Worker method) (ring : PktRingBuffer) (progress : Progress) :
    (worker.advance (ring, progress)).arrived = worker.arrived := by
  cases progress <;> rfl

def arrive (worker : Worker method) (arrival : PacketArrival method) : Worker method :=
  { worker with arrived := worker.arrived ++ [arrival] }

/-- One event; packets are taken from the socket in a call only. Nothing is left of a worker that has exited. -/
def step (worker : Worker method) (event : WorkerEvent method) : Option (Worker method) :=
  match event, worker.call with
  | .call, none => (recvStart .server method worker.ring packetBuffer).map worker.advance
  | .arrives arrival, some waiting =>
    (recvDatagram .server method worker.ring waiting arrival.bytes arrival.srcAddr).map
      (worker.arrive arrival).advance
  | .timeout, some waiting =>
    (recvTimeout .server worker.ring waiting).map fun ring => { worker with ring := ring, call := none }
  | _, _ => some worker

def next (state : Option (Worker method)) (event : WorkerEvent method) : Option (Worker method) :=
  state.bind (·.step event)

/-- Calls that end without a packet from the socket. -/
def rounds : Nat → List (WorkerEvent method)
  | 0 => []
  | n + 1 => .timeout :: .call :: rounds n

def collects (worker : Worker method) : Option UInt16 :=
  match worker.call with
  | some (.next state) => some state.largepktClientlogicalidx
  | _ => none

def held (worker : Worker method) : Nat := worker.ring.contents.length + worker.collects.toList.length

def Holds (worker : Worker method) (clientlogicalidx : UInt16) : Prop :=
  worker.ring.Queued clientlogicalidx ∨ worker.collects = some clientlogicalidx

/-- The packets that the network and the clients can bring: every fragment comes once at most, the numbers of a
client's attempts grow with its requests, and fewer requests wait than the ring has slots. -/
def Possible (worker : Worker method) : WorkerEvent method → Prop
  | .call | .timeout => True
  | .arrives (.small _) => worker.call.isSome = true ∧ worker.held + 1 < worker.ring.capacity
  | .arrives (.fragment attempt i) => worker.call.isSome = true ∧ i < attempt.fragnum ∧
      .fragment attempt i ∉ worker.arrived ∧
      (∀ before j, .fragment before j ∈ worker.arrived → before.clientlogicalidx = attempt.clientlogicalidx →
        (before.fragseq = attempt.fragseq → before = attempt) ∧
        (before.fragseq < attempt.fragseq → before.request ≤ attempt.request) ∧
        (attempt.fragseq < before.fragseq → attempt.request ≤ before.request)) ∧
      (worker.held + 1 < worker.ring.capacity ∨ worker.Holds attempt.clientlogicalidx)

/-- Of a request one attempt at most arrives whole. Where the ring has a packet of the fragment's client, the fragment
continues that one; where the call collects it, the sizes agree. -/
def InTurn (worker : Worker method) : WorkerEvent method → Prop
  | .call | .timeout | .arrives (.small _) => True
  | .arrives (.fragment attempt i) =>
    (attempt.Whole (worker.arrived ++ [.fragment attempt i]) → ∀ before : Attempt method,
      before.identity = attempt.identity → ¬ before.Whole worker.arrived) ∧
    ∀ before j, .fragment before j ∈ worker.arrived → before.clientlogicalidx = attempt.clientlogicalidx →
      (∀ slot ∈ worker.ring.contents, 0 < slot.maxfragnum → slot.clientlogicalidx = attempt.clientlogicalidx →
        slot.fragseq = before.fragseq → attempt.Continues before) ∧
      (∀ state, worker.call = some (.next state) → state.largepktClientlogicalidx = attempt.clientlogicalidx →
        state.largepktFragseq = before.fragseq → before.key = attempt.key →
        before.optype.isSameOptype attempt.optype = true → before.fragseq ≤ attempt.fragseq →
        attempt.body.length = before.body.length)

end Worker

section Layout

variable {method : Method}

/-- Headers of types that a server takes for the same have the same sizes. -/
theorem LargeHeader.layout_of_sameOptype {first second : LargeHeader .server method}
    (same : first.optype.isSameOptype second.optype = true) :
    first.bytes.length = second.bytes.length ∧ first.fragBodysize = second.fragBodysize := by
  obtain ⟨header, total⟩ := method.layout_of_sameOptype same FragMode.server.fragMaxsize
  have firstSize := first.size (by decide)
  have secondSize := second.size (by decide)
  have firstTotal := first.total
  have secondTotal := second.total
  simp only [fragTotalsize] at firstTotal secondTotal
  constructor <;> omega

namespace Attempt

section

variable (attempt : Attempt method)

theorem length_header (i : Nat) :
    (attempt.header i).bytes.length = attempt.fragHdrsize :=
  (LargeHeader.layout_of_sameOptype (attempt.sameOptype i)).1

theorem fragment_eq (i : Nat) : attempt.fragment i =
    fragmentBytes (attempt.header i).bytes attempt.fragnum i (piece attempt.fragBodysize attempt.body i) := by
  have width := (LargeHeader.layout_of_sameOptype (attempt.sameOptype i)).2
  rw [fragment, LargeHeader.fragment, width]
  rfl

theorem positive : 0 < attempt.fragBodysize := (attempt.header 0).positive

theorem few : attempt.fragnum < 2 ^ 16 := by
  have size := (attempt.header 0).size (by decide)
  have large := PacketType.isPacketWithLargevalue_of_clientlogicalidx ((attempt.header 0).withClient rfl)
  have header := (method.getFragHdrsize_bounds large).2
  have wide := (attempt.header 0).le_fragBodysize
  simp only [FragMode.fragMaxsize] at wide
  have least : 1374 ≤ attempt.fragBodysize := by
    unfold fragBodysize
    omega
  have bounded := attempt.bounded
  calc attempt.fragnum
      ≤ attempt.body.length / attempt.fragBodysize + 1 := count_le _ _
    _ ≤ attempt.body.length / 1374 + 1 := Nat.add_le_add_right (Nat.div_le_div_left least (by decide)) 1
    _ < 2 ^ 16 := by omega

theorem fragTotalsize_eq (i : Nat) :
    fragTotalsize .server method (attempt.header i).optype = attempt.fragHdrsize + 2 + 2 + attempt.fragBodysize := by
  obtain ⟨length, width⟩ := LargeHeader.layout_of_sameOptype (attempt.sameOptype i)
  rw [(attempt.header i).total, length, width]
  rfl

theorem getFragHdrsize_eq (i : Nat) :
    method.getFragHdrsize (attempt.header i).optype = attempt.fragHdrsize :=
  ((attempt.header i).size (by decide)).symm.trans (attempt.length_header i)

theorem read_fragment (i : Nat) :
    getPacketKey method (attempt.fragment i) = some attempt.key ∧
      getPacketType (attempt.fragment i) = some (attempt.header i).optype ∧
      getPacketClientlogicalidx method (attempt.fragment i) = some attempt.clientlogicalidx ∧
      getPacketFragseq method (attempt.fragment i) = some attempt.fragseq := by
  have starts := (attempt.header i).bytes_starts_fragment attempt.body i
  obtain ⟨key, optype⟩ := (largepktHeader_eq_some (by decide)).mp ((attempt.header i).known _ starts)
  obtain ⟨client, fragseq⟩ := largepktSource_eq_some.mp ((attempt.header i).source _ starts)
  rw [attempt.sameKey] at key
  rw [attempt.sameClient] at client
  rw [attempt.sameFragseq] at fragseq
  exact ⟨key, optype, client, fragseq⟩

theorem length_fragment (i : Nat) :
    attempt.fragHdrsize + 2 + 2 ≤ (attempt.fragment i).length ∧
      (attempt.fragment i).length ≤ attempt.fragHdrsize + 2 + 2 + attempt.fragBodysize ∧
      (attempt.fragment i).length ≤ FragMode.server.fragbufMaxsize := by
  obtain ⟨long, total⟩ := (attempt.header i).length_fragment attempt.body i
  have short := (attempt.header i).short
  have header := attempt.length_header i
  have size := attempt.fragTotalsize_eq i
  rw [fragment]
  omega

theorem cut_fragment {i : Nat} (inside : i < attempt.fragnum) :
    halfAt (attempt.fragment i) attempt.fragHdrsize = some i ∧
      halfAt (attempt.fragment i) (attempt.fragHdrsize + 2) = some attempt.fragnum ∧
      (attempt.fragment i).take attempt.fragHdrsize = (attempt.header i).bytes ∧
      (attempt.fragment i).drop (attempt.fragHdrsize + 2 + 2) = piece attempt.fragBodysize attempt.body i := by
  have few := attempt.few
  rw [fragment_eq]
  exact read_fragmentBytes (attempt.length_header i) few (by omega)

theorem withClient (i : Nat) :
    (attempt.header i).optype.isPacketWithClientlogicalidx = true ∧
      (attempt.header i).optype.isPacketWithLargevalue = true := by
  have client := (attempt.header i).withClient rfl
  exact ⟨client, PacketType.isPacketWithLargevalue_of_clientlogicalidx client⟩

end

theorem Continues.layout {attempt before : Attempt method} (continues : attempt.Continues before) :
    before.fragHdrsize = attempt.fragHdrsize ∧ before.fragBodysize = attempt.fragBodysize ∧
      before.fragnum = attempt.fragnum := by
  obtain ⟨header, width⟩ := LargeHeader.layout_of_sameOptype continues.optype
  refine ⟨header, width, ?_⟩
  have same : before.fragBodysize = attempt.fragBodysize := width
  rw [fragnum, fragnum, same, continues.length]

end Attempt

theorem PacketArrival.length_bytes (arrival : PacketArrival method) :
    arrival.bytes.length ≤ FragMode.server.fragbufMaxsize := by
  cases arrival with
  | small request => exact request.short
  | fragment attempt i => exact (attempt.length_fragment i).2.2

theorem Worker.step_arrives {worker : Worker method} {waiting : Waiting} (isCall : worker.call = some waiting)
    (arrival : PacketArrival method) :
    worker.step (.arrives arrival) =
      (match waiting with
        | .first buf => (recvFirst .server method buf arrival.bytes arrival.srcAddr).map (worker.ring, ·)
        | .next state => recvNextServer method worker.ring state arrival.bytes arrival.srcAddr).map
          (worker.arrive arrival).advance := by
  simp only [step, isCall, recvDatagram, List.take_of_length_le arrival.length_bytes]
  cases waiting <;> rfl

end Layout

end FarReach
