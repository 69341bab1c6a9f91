import FarReach.PktRingBuffer
import FarReach.Reassembly

namespace FarReach

open Bytes DynamicArray

/-- The uses of `udprecvlarge`: for UDP fragments, and for IP fragments by a client or by a server with its ring. -/
inductive FragMode where
  | udpfrag
  | client
  | server
  deriving DecidableEq, Repr

namespace FragMode

/-- UDP_FRAGMENT_MAXSIZE and IP_FRAGMENT_MAXSIZE. -/
def fragMaxsize : FragMode → Nat
  | udpfrag => 65507
  | client | server => 1412

/-- The size of `fragbuf`: a switch may have added headers to an IP fragment. -/
def fragbufMaxsize : FragMode → Nat
  | udpfrag => 65507
  | client | server => 1412 + 64

end FragMode

/-- The loop of `udpsendlarge`, over the number of fragments left. A body that does not fit `fragbuf` has no result.
-/
def sendFragments (buf : List UInt8) (fragHdrsize fragBodysize totalBodysize maxFragnum : Nat) :
    Nat → Nat → Nat → Option (List (List UInt8))
  | 0, _, _ => some []
  | left + 1, curFragidx, bufSentsize => do
    let curFragBodysize := if curFragidx = maxFragnum - 1 then totalBodysize - fragBodysize * curFragidx
      else fragBodysize
    guard (curFragBodysize ≤ fragBodysize)
    let body ← readAt buf bufSentsize curFragBodysize
    let others ← sendFragments buf fragHdrsize fragBodysize totalBodysize maxFragnum left (curFragidx + 1)
      (bufSentsize + curFragBodysize)
    some ((buf.take fragHdrsize ++ (bigEndian 2 curFragidx ++ (bigEndian 2 maxFragnum ++ body))) :: others)

/-- `udpsendlarge`: the fragments handed to `udpsendto`, in order. -/
def udpsendlarge (buf : List UInt8) (fragHdrsize fragMaxsize : Nat) : Option (List (List UInt8)) := do
  guard (fragHdrsize ≤ buf.length)
  let finalFragHdrsize := fragHdrsize + 2 + 2
  let fragBodysize := fragMaxsize - finalFragHdrsize
  let totalBodysize := buf.length - fragHdrsize
  let fragnum := if 0 < totalBodysize then (totalBodysize + fragBodysize - 1) / fragBodysize else 1
  guard (0 < fragnum)
  let maxFragnum := fragnum % 2 ^ 16
  sendFragments buf fragHdrsize fragBodysize totalBodysize maxFragnum maxFragnum 0 fragHdrsize

/-- The variables of `udprecvlarge` while it collects a large packet. Those that a use does not set are 0. -/
structure Receiving where
  fragHdrsize : Nat
  fragBodysize : Nat
  maxFragnum : Nat
  curFragnum : Nat
  buf : DynamicArray
  largepktKey : Key
  largepktOptype : PacketType
  largepktClientlogicalidx : UInt16
  largepktFragseq : UInt32
  srcAddr : SockAddr

/-- What a call waits for: its first packet, or the remaining fragments. -/
inductive Waiting where
  | first (buf : DynamicArray)
  | next (state : Receiving)

/-- A call goes on waiting, or returns a buffer. -/
inductive Progress where
  | wait (waiting : Waiting)
  | done (buf : DynamicArray) (srcAddr : SockAddr)

def halfAt (fragbuf : List UInt8) (off : Nat) : Option Nat := do
  let half ← readAt fragbuf off 2
  some (ofBigEndian half)

/-- What `udprecvlarge` does with a fragment of the packet it collects. -/
def Receiving.store (mode : FragMode) (state : Receiving) (fragbuf : List UInt8) : Option Progress := do
  let curFragidx ← halfAt fragbuf state.fragHdrsize
  guard (curFragidx < state.maxFragnum)
  let buf ← state.buf.dynamicMemcpy (state.fragHdrsize + curFragidx * state.fragBodysize)
    (fragbuf.drop (state.fragHdrsize + 2 + 2))
  -- the header of fragment 0 holds the right sequence number
  let buf ← PktRingBuffer.copyFraghdr (mode != .udpfrag && curFragidx == 0) buf (fragbuf.take state.fragHdrsize)
  let curFragnum := (state.curFragnum + 1) % 2 ^ 16
  if state.maxFragnum ≤ curFragnum then some (.done buf state.srcAddr)
  else some (.wait (.next { state with buf := buf, curFragnum := curFragnum }))

/-- The client and the attempt a server collects for; the other uses do not ask. -/
def largepktSource (mode : FragMode) (method : Method) (fragbuf : List UInt8) : Option (UInt16 × UInt32) :=
  match mode with
  | .server => do
    let clientlogicalidx ← getPacketClientlogicalidx method fragbuf
    let fragseq ← getPacketFragseq method fragbuf
    some (clientlogicalidx, fragseq)
  | _ => some (0, 0)

/-- The key and the type a receiver of IP fragments collects for. -/
def largepktHeader (mode : FragMode) (method : Method) (fragbuf : List UInt8) : Option (Key × PacketType) :=
  match mode with
  | .udpfrag => some (⟨0, 0, 0, 0⟩, .ofCode 0)
  | _ => do
    let key ← getPacketKey method fragbuf
    let optype ← getPacketType fragbuf
    some (key, optype)

/-- `frag_totalsize`: only a server expects fragments that a switch has widened. -/
def fragTotalsize (mode : FragMode) (method : Method) (optype : PacketType) : Nat :=
  match mode with
  | .server => method.getFragTotalsize optype mode.fragMaxsize
  | _ => mode.fragMaxsize

def recvLarge (mode : FragMode) (method : Method) (buf : DynamicArray) (fragHdrsize : Nat) (fragbuf : List UInt8)
    (srcAddr : SockAddr) : Option Progress := do
  let (key, optype) ← largepktHeader mode method fragbuf
  let (clientlogicalidx, fragseq) ← largepktSource mode method fragbuf
  let finalFragHdrsize := fragHdrsize + 2 + 2
  let totalsize := fragTotalsize mode method optype
  let fragBodysize := totalsize - finalFragHdrsize
  guard (finalFragHdrsize ≠ 0 ∧ fragBodysize ≠ 0)
  guard (finalFragHdrsize ≤ fragbuf.length ∧ fragbuf.length ≤ totalsize)
  let buf ← buf.dynamicMemcpy 0 (fragbuf.take fragHdrsize)
  let maxFragnum ← halfAt fragbuf (fragHdrsize + 2)
  let state : Receiving :=
    ⟨fragHdrsize, fragBodysize, maxFragnum, 0, buf, key, optype, clientlogicalidx, fragseq, srcAddr⟩
  state.store mode fragbuf

/-- The first packet of a call. A packet that is not large is returned as it is. -/
def recvFirst (mode : FragMode) (method : Method) (buf : DynamicArray) (fragbuf : List UInt8) (srcAddr : SockAddr) :
    Option Progress :=
  match mode with
  | .udpfrag => recvLarge mode method buf 0 fragbuf srcAddr
  | _ => do
    let optype ← getPacketType fragbuf
    if optype.isPacketWithLargevalue then recvLarge mode method buf (method.getFragHdrsize optype) fragbuf srcAddr
    else
      let buf ← buf.dynamicMemcpy 0 fragbuf
      some (.done buf srcAddr)

/-- A further packet of the call, for UDP fragments: every one is taken. -/
def recvNextUdpfrag (state : Receiving) (fragbuf : List UInt8) : Option Progress := do
  guard (state.fragHdrsize + 2 + 2 ≤ fragbuf.length)
  state.store .udpfrag fragbuf

/-- A further packet of a client's call: those of another key or type are skipped. -/
def recvNextClient (method : Method) (state : Receiving) (fragbuf : List UInt8) : Option Progress := do
  let key ← getPacketKey method fragbuf
  let optype ← getPacketType fragbuf
  if key ≠ state.largepktKey ∨ optype ≠ state.largepktOptype then some (.wait (.next state))
  else
    guard (state.fragHdrsize + 2 + 2 ≤ fragbuf.length)
    state.store .client fragbuf

/-- A fragment of another client's large packet goes into the ring. -/
def queueFragment (method : Method) (ring : PktRingBuffer) (optype : PacketType) (key : Key)
    (clientlogicalidx : UInt16) (fragseq : UInt32) (fragbuf : List UInt8) (srcAddr : SockAddr) :
    Option PktRingBuffer := do
  let fragHdrsize := method.getFragHdrsize optype
  let totalsize := fragTotalsize .server method optype
  let finalFragHdrsize := fragHdrsize + 2 + 2
  let fragBodysize := totalsize - finalFragHdrsize
  guard (finalFragHdrsize ≠ 0 ∧ fragBodysize ≠ 0)
  guard (finalFragHdrsize ≤ fragbuf.length ∧ fragbuf.length ≤ totalsize)
  let maxFragnum ← halfAt fragbuf (fragHdrsize + 2)
  let curFragidx ← halfAt fragbuf fragHdrsize
  let exist ← ring.isClientlogicalidxExist clientlogicalidx
  if exist then
    ring.updateLarge optype key (fragbuf.take fragHdrsize) (fragHdrsize + curFragidx * fragBodysize)
      (fragbuf.drop finalFragHdrsize) clientlogicalidx fragseq (curFragidx == 0)
  else
    let (ring, stat) ← ring.pushLarge optype key (fragbuf.take fragHdrsize) (fragHdrsize + curFragidx * fragBodysize)
      (fragbuf.drop finalFragHdrsize) 1 maxFragnum srcAddr clientlogicalidx fragseq
    guard (stat = true)
    some ring

/-- A fragment of the client whose packet is collected: those of another key or type or of an older attempt are
skipped, a newer attempt starts the count again. -/
def recvSameClient (state : Receiving) (optype : PacketType) (key : Key) (fragseq : UInt32) (fragbuf : List UInt8) :
    Option Progress :=
  if key ≠ state.largepktKey ∨ optype.isSameOptype state.largepktOptype = false ∨ fragseq < state.largepktFragseq then
    some (.wait (.next state))
  else do
    let state :=
      if state.largepktFragseq < fragseq then { state with largepktFragseq := fragseq, curFragnum := 0 } else state
    guard (state.fragHdrsize + 2 + 2 ≤ fragbuf.length)
    state.store .server fragbuf

def recvNextServer (method : Method) (ring : PktRingBuffer) (state : Receiving) (fragbuf : List UInt8)
    (srcAddr : SockAddr) : Option (PktRingBuffer × Progress) := do
  let key ← getPacketKey method fragbuf
  let optype ← getPacketType fragbuf
  if optype.isPacketWithLargevalue = false then
    let (ring, stat) ← ring.push optype key fragbuf srcAddr
    guard (stat = true)
    some (ring, .wait (.next state))
  else if optype.isPacketWithClientlogicalidx then
    let clientlogicalidx ← getPacketClientlogicalidx method fragbuf
    let fragseq ← getPacketFragseq method fragbuf
    if clientlogicalidx ≠ state.largepktClientlogicalidx then
      let ring ← queueFragment method ring optype key clientlogicalidx fragseq fragbuf srcAddr
      some (ring, .wait (.next state))
    else
      let progress ← recvSameClient state optype key fragseq fragbuf
      some (ring, progress)
  else none

/-- A packet arrives; what does not fit `fragbuf` is cut off. -/
def recvDatagram (mode : FragMode) (method : Method) (ring : PktRingBuffer) (waiting : Waiting)
    (datagram : List UInt8) (srcAddr : SockAddr) : Option (PktRingBuffer × Progress) :=
  let fragbuf := datagram.take mode.fragbufMaxsize
  match waiting, mode with
  | .first buf, _ => (recvFirst mode method buf fragbuf srcAddr).map (ring, ·)
  | .next state, .udpfrag => (recvNextUdpfrag state fragbuf).map (ring, ·)
  | .next state, .client => (recvNextClient method state fragbuf).map (ring, ·)
  | .next state, .server => recvNextServer method ring state fragbuf srcAddr

/-- A timeout: a server puts the incomplete packet back into its ring. -/
def recvTimeout (mode : FragMode) (ring : PktRingBuffer) (waiting : Waiting) : Option PktRingBuffer :=
  match waiting, mode with
  | .next state, .server => do
    let exist ← ring.isClientlogicalidxExist state.largepktClientlogicalidx
    guard (exist = false)
    guard (1 ≤ state.curFragnum)
    let (ring, stat) ← ring.pushLarge state.largepktOptype state.largepktKey (state.buf.array.take state.fragHdrsize)
      state.fragHdrsize (state.buf.content.drop state.fragHdrsize) state.curFragnum state.maxFragnum state.srcAddr
      state.largepktClientlogicalidx state.largepktFragseq
    guard (stat = true)
    some ring
  | _, _ => some ring

/-- The start of a call: a server takes a packet out of its ring, and returns it if it is complete. -/
def recvStart (mode : FragMode) (method : Method) (ring : PktRingBuffer) (buf : DynamicArray) :
    Option (PktRingBuffer × Progress) :=
  match mode with
  | .server => do
    let popped ← ring.pop buf
    match popped with
    | none => some (ring, .wait (.first buf))
    | some (slot, buf, ring) =>
      if slot.maxfragnum = 0 ∨ slot.maxfragnum ≤ slot.curfragnum then some (ring, .done buf slot.clientaddr)
      else do
        guard (slot.optype.isPacketWithLargevalue = true)
        let fragHdrsize := method.getFragHdrsize slot.optype
        let fragBodysize := fragTotalsize mode method slot.optype - (fragHdrsize + 2 + 2)
        some (ring, .wait (.next ⟨fragHdrsize, fragBodysize, slot.maxfragnum, slot.curfragnum, buf,
          slot.key, slot.optype, slot.clientlogicalidx, slot.fragseq, slot.clientaddr⟩))
  | _ => some (ring, .wait (.first buf))

/-- What the socket gives the receiver. -/
inductive SocketEvent where
  | datagram (bytes : List UInt8) (srcAddr : SockAddr)
  | timeout

/-- The end of a call, and of a server's ring; `waiting` if the events do not suffice. -/
inductive CallResult where
  | aborted
  | waiting
  | timedOut (ring : PktRingBuffer)
  | returned (buf : DynamicArray) (srcAddr : SockAddr) (ring : PktRingBuffer) (left : List SocketEvent)

def recvLoop (mode : FragMode) (method : Method) : PktRingBuffer → Waiting → List SocketEvent → CallResult
  | _, _, [] => .waiting
  | ring, waiting, .timeout :: _ =>
    match recvTimeout mode ring waiting with
    | none => .aborted
    | some ring => .timedOut ring
  | ring, waiting, .datagram bytes srcAddr :: left =>
    match recvDatagram mode method ring waiting bytes srcAddr with
    | none => .aborted
    | some (ring, .done buf srcAddr) => .returned buf srcAddr ring left
    | some (ring, .wait waiting) => recvLoop mode method ring waiting left

/-- `udprecvlarge` into a buffer that the caller has cleared. -/
def udprecvlarge (mode : FragMode) (method : Method) (ring : PktRingBuffer) (buf : DynamicArray)
    (events : List SocketEvent) : CallResult :=
  match recvStart mode method ring buf with
  | none => .aborted
  | some (ring, .done buf srcAddr) => .returned buf srcAddr ring events
  | some (ring, .wait waiting) => recvLoop mode method ring waiting events

end FarReach
