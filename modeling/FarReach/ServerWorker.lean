import FarReach.EgressEffects

namespace FarReach

def Packet.value (packet : Packet) : Val := valueBytes packet.vallen packet.vals

/-- The words of a value, the last one filled up with zeros. -/
def valWords (val : Val) : ValWords := fun i =>
  .ofNat (Bytes.ofBigEndian ((List.range 4).map fun j => val[4 * i.val + j]?.getD 0))

/-- What the server sends back: one packet, or a large value in fragments, which no slot keeps. -/
inductive Answer where
  | packet (response : Packet)
  | largevalue (key : Key) (record : SnapshotRecord)

/-- A response with a record, in the form its length asks for. -/
def Answer.ofRecord (optype : Optype) (key : Key) (record : SnapshotRecord) : Answer :=
  if record.val.length ≤ switchMaxVallen then
    .packet { Packet.bare optype key 0 false with
      vallen := record.val.length, vals := valWords record.val, seq := record.seq, stat := record.stat }
  else .largevalue key record

def Answer.ack (optype : Optype) (request : Packet) : Answer :=
  .packet { Packet.bare optype request.key 0 false with seq := request.seq, stat := true }

def serverPut (kv : KvStore) (request : Packet) (val : Val) : KvStore × Option Answer :=
  ((kv.put request.key val request.seq false).2, some (.ack .putresSeq request))

def serverRemove (kv : KvStore) (request : Packet) : KvStore × Option Answer :=
  ((kv.remove request.key request.seq false).2, some (.ack .delresSeq request))

def newerRecord (carried stored : SnapshotRecord) : SnapshotRecord :=
  if carried.seq > stored.seq then carried else stored

/-- `run_server_worker` on the packets that leave a slot. The fragments of a large value reach it as one
buffer behind the header of the first; `payload` is the value in it. -/
def serverWorker (kv : KvStore) (request : Packet) (payload : Val) : KvStore × Option Answer :=
  match request.optype with
  | .getreq | .getreqPop =>
    let (record, kv) := kv.get request.key
    (kv, some (.ofRecord .getresSeq request.key record))
  | .getreqNlatest =>
    let (record, kv) := kv.get request.key
    (kv, some (.ofRecord (if record.stat then .getresLatestSeq else .getresDeletedSeq) request.key record))
  | .getreqBeingevictedRecord | .getreqLargevalueblockRecord =>
    let (record, kv) := kv.get request.key
    (kv, some (.ofRecord .getresSeq request.key (newerRecord request.record record)))
  | .putreqSeq | .putreqPopSeq | .putreqSeqCase3 | .putreqPopSeqCase3
  | .putreqSeqBeingevicted | .putreqSeqCase3Beingevicted => serverPut kv request request.value
  | .delreqSeq | .delreqSeqCase3 | .delreqSeqBeingevicted | .delreqSeqCase3Beingevicted =>
    serverRemove kv request
  | .putreqLargevalueSeq | .putreqLargevalueSeqCase3
  | .putreqLargevalueSeqBeingevicted | .putreqLargevalueSeqCase3Beingevicted =>
    if request.curFragidx = 0 then serverPut kv request payload else (kv, none)
  | _ => (kv, none)

/-- A packet that carries the number a write was assigned: the write on its way to the server, or its
acknowledgement. Of a large value it is the first fragment. -/
def Packet.IsStamped (packet : Packet) : Prop :=
  packet.optype.isWriteAck = true ∨ packet.optype.isForwardedWrite = true ∨
    packet.optype.isForwardedFragment = true ∧ packet.curFragidx = 0

theorem not_isStamped_getres {packet : Packet}
    (getres : packet.optype ∈ [.getresSeq, .getresLatestSeq, .getresDeletedSeq]) : ¬ packet.IsStamped := by
  simp only [List.mem_cons, List.not_mem_nil, or_false] at getres
  rcases getres with kind | kind | kind <;>
    simp [Packet.IsStamped, kind, Optype.isWriteAck, Optype.isForwardedWrite, Optype.isForwardedFragment]

variable {optype : Optype} {response request : Packet}

theorem not_isStamped_ofRecord {key : Key} {record : SnapshotRecord}
    (getres : optype ∈ [Optype.getresSeq, .getresLatestSeq, .getresDeletedSeq])
    (answer : Answer.ofRecord optype key record = .packet response) : ¬ response.IsStamped := by
  unfold Answer.ofRecord at answer
  split at answer
  · cases answer
    exact not_isStamped_getres getres
  · cases answer

theorem seq_of_ack (answer : some (Answer.ack optype request) = some (.packet response)) :
    response.seq = request.seq := by
  cases answer
  rfl

/-- The server acknowledges only writes it was sent, under their own numbers. -/
theorem serverWorker_stamped {kv : KvStore} {payload : Val}
    (answer : (serverWorker kv request payload).2 = some (.packet response)) (stamped : response.IsStamped) :
    request.IsStamped ∧ response.seq = request.seq := by
  have read : ∀ {optype : Optype} {record : SnapshotRecord},
      optype ∈ [Optype.getresSeq, .getresLatestSeq, .getresDeletedSeq] →
      some (Answer.ofRecord optype request.key record) = some (.packet response) →
      request.IsStamped ∧ response.seq = request.seq :=
    fun getres found => absurd stamped (not_isStamped_ofRecord getres (Option.some.inj found))
  have written : request.optype.isForwardedWrite = true → ∀ {optype : Optype},
      some (Answer.ack optype request) = some (.packet response) →
      request.IsStamped ∧ response.seq = request.seq :=
    fun forwarded _ found => ⟨Or.inr (Or.inl forwarded), seq_of_ack found⟩
  unfold serverWorker at answer
  split at answer <;> rename_i kind
  case h_1 | h_2 | h_4 | h_5 => exact read (by simp) answer
  case h_3 => exact read (by split <;> simp) answer
  case h_6 | h_7 | h_8 | h_9 | h_10 | h_11 | h_12 | h_13 | h_14 | h_15 =>
    exact written (by rw [kind]; rfl) answer
  case h_16 | h_17 | h_18 | h_19 =>
    split at answer <;> rename_i first
    · exact ⟨Or.inr (Or.inr ⟨by rw [kind]; rfl, first⟩), seq_of_ack answer⟩
    · cases answer
  case h_20 => cases answer

end FarReach
