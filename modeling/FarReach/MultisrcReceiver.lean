import FarReach.Fragments
import FarReach.ScanResponse

namespace FarReach

open Bytes DynamicArray Reassembly

namespace ScanResponseSplit

/-- `ScanResponseSplit::get_frag_hdrsize`: up to the split header. -/
def getFragHdrsize (method : Method) : Nat :=
  method.getOphdrsize + 16 + method.getSplitPrevBytes + 2 + 2 + if method.isSingleswitch then 0 else 2 + 2

def getSrcnumOff (method : Method) : Nat := method.getOphdrsize + 16 + method.getSplitPrevBytes + 2

def getSrcidOff (method : Method) : Nat := method.getOphdrsize + 16 + method.getSplitPrevBytes

end ScanResponseSplit

/-- Where the fragments of a packet type carry the number of sources and the source. -/
structure SourceLayout where
  fragHdrsize : Nat
  srcnumOff : Nat
  srcnumLen : Nat
  srcnumConversion : Bool
  srcidOff : Nat
  srcidLen : Nat
  srcidConversion : Bool
  fragBodysize : Nat

/-- The `get_*` functions for a packet type; only the scan response has sources. -/
def SourceLayout.ofType (method : Method) (type : PacketType) (fragMaxsize : Nat) : SourceLayout :=
  let fragHdrsize := method.getFragHdrsize type
  if type = .scanresSplit then
    ⟨fragHdrsize, ScanResponseSplit.getSrcnumOff method, 2, true, ScanResponseSplit.getSrcidOff method, 2, true,
      fragMaxsize - (fragHdrsize + 2 + 2)⟩
  else ⟨fragHdrsize, 0, 0, false, 0, 0, false, fragMaxsize - (fragHdrsize + 2 + 2)⟩

def SourceLayout.checked (layout : SourceLayout) : Option SourceLayout := do
  guard (layout.srcnumLen = 1 ∨ layout.srcnumLen = 2 ∨ layout.srcnumLen = 4)
  guard (layout.srcidLen = 1 ∨ layout.srcidLen = 2 ∨ layout.srcidLen = 4)
  guard (layout.srcnumOff ≤ layout.fragHdrsize ∧ layout.srcidOff ≤ layout.fragHdrsize)
  some layout

/-- A number of 1, 2 or 4 bytes, converted from network order where that is asked for. -/
def numberAt (fragbuf : List UInt8) (off len : Nat) (conversion : Bool) : Option Nat := do
  let bytes ← readAt fragbuf off len
  some (if conversion = true ∧ (len = 2 ∨ len = 4) then ofBigEndian bytes else ofLittleEndian bytes)

/-- The entries of the arrays of `udprecvlarge_multisrc` at the index of one source. -/
structure SourceSlot where
  dynamicbuf : DynamicArray
  localIsfirst : Bool
  maxFragnum : Nat
  curFragnum : Nat

/-- The variables of `udprecvlarge_multisrc` once it has a fragment; `bufnum` is then `max_srcnum`. -/
structure Multisrc where
  layout : SourceLayout
  maxSrcnum : Nat
  curSrcnum : Nat
  slots : List SourceSlot

/-- The first fragment of all: it says how many sources there are. -/
def Multisrc.start (layout : SourceLayout) (fragbuf : List UInt8) : Option Multisrc := do
  let maxSrcnum ← numberAt fragbuf layout.srcnumOff layout.srcnumLen layout.srcnumConversion
  some ⟨layout, maxSrcnum, 0, List.replicate maxSrcnum ⟨packetBuffer, true, 0, 0⟩⟩

def SourceSlot.start (layout : SourceLayout) (slot : SourceSlot) (fragbuf : List UInt8) : Option SourceSlot :=
  if slot.localIsfirst then do
    let dynamicbuf ← slot.dynamicbuf.dynamicMemcpy 0 (fragbuf.take layout.fragHdrsize)
    let maxFragnum ← halfAt fragbuf (layout.fragHdrsize + 2)
    some { slot with dynamicbuf := dynamicbuf, maxFragnum := maxFragnum, localIsfirst := false }
  else some slot

def SourceSlot.store (layout : SourceLayout) (slot : SourceSlot) (fragbuf : List UInt8) : Option SourceSlot := do
  let slot ← slot.start layout fragbuf
  let curFragidx ← halfAt fragbuf layout.fragHdrsize
  guard (curFragidx < slot.maxFragnum)
  let dynamicbuf ← slot.dynamicbuf.dynamicMemcpy (layout.fragHdrsize + curFragidx * layout.fragBodysize)
    (fragbuf.drop (layout.fragHdrsize + 2 + 2))
  let curFragnum := (slot.curFragnum + 1) % 2 ^ 16
  guard (curFragnum ≤ slot.maxFragnum)
  some { slot with dynamicbuf := dynamicbuf, curFragnum := curFragnum }

/-- A fragment goes to its source. The loop ends with the last source, or with any one if SERVER_ROTATION is defined.
-/
def Multisrc.recv (rotation : Bool) (state : Multisrc) (fragbuf : List UInt8) : Option (Multisrc × Bool) := do
  let tmpsrcid ← numberAt fragbuf state.layout.srcidOff state.layout.srcidLen state.layout.srcidConversion
  guard (0 < tmpsrcid ∧ tmpsrcid ≤ state.maxSrcnum)
  let slot ← state.slots[tmpsrcid - 1]?
  let slot ← slot.store state.layout fragbuf
  let slots := state.slots.set (tmpsrcid - 1) slot
  if slot.curFragnum = slot.maxFragnum then
    if rotation then some ({ state with slots := slots }, true)
    else some ({ state with slots := slots, curSrcnum := state.curSrcnum + 1 },
      decide (state.maxSrcnum ≤ state.curSrcnum + 1))
  else some ({ state with slots := slots }, false)

/-- A fragment that has passed the filter; `none` as state means that it is the first. -/
def recvMultisrc (rotation : Bool) (method : Method) (state : Option Multisrc) (tmptype : PacketType)
    (fragbuf : List UInt8) : Option (Multisrc × Bool) :=
  match state with
  | none => do
    let layout ← (SourceLayout.ofType method tmptype 1412).checked
    guard (layout.fragHdrsize + 2 + 2 ≤ fragbuf.length)
    let state ← Multisrc.start layout fragbuf
    state.recv rotation fragbuf
  | some state => do
    guard (state.layout.fragHdrsize + 2 + 2 ≤ fragbuf.length)
    state.recv rotation fragbuf

/-- The filter: the type of a packet that passes, nothing for one that is skipped. -/
def passes (method : Method) (isfilter : Bool) (optype : UInt16) (targetkey : Key) (fragbuf : List UInt8) :
    Option (Option PacketType) := do
  let tmptype ← getPacketType fragbuf
  if isfilter = true then
    if tmptype.code ≠ optype then some none
    else
      let tmpkey ← getPacketKey method fragbuf
      if tmpkey ≠ targetkey then some none else some (some tmptype)
  else some (some tmptype)

inductive MultisrcResult where
  | aborted
  | waiting
  | timedOut
  | returned (bufs : List DynamicArray)

/-- Behind the loop: `INVARIANT(cur_srcnum == bufnum && bufnum == max_srcnum)`, on a timeout as well. -/
def finishMultisrc (bufnum : Nat) (state : Option Multisrc) (isTimeout : Bool) : MultisrcResult :=
  match state with
  | none => if bufnum = 0 then if isTimeout then .timedOut else .returned [] else .aborted
  | some state =>
    if state.curSrcnum = state.maxSrcnum then
      if isTimeout then .timedOut else .returned (state.slots.map (·.dynamicbuf))
    else .aborted

def multisrcLoop (rotation : Bool) (method : Method) (bufnum : Nat) (isfilter : Bool) (optype : UInt16)
    (targetkey : Key) :
    Option Multisrc → List SocketEvent → MultisrcResult
  | _, [] => .waiting
  | state, .timeout :: _ => finishMultisrc bufnum state true
  | state, .datagram bytes _ :: events =>
    match passes method isfilter optype targetkey (bytes.take 1412) with
    | none => .aborted
    | some none => multisrcLoop rotation method bufnum isfilter optype targetkey state events
    | some (some tmptype) =>
      match recvMultisrc rotation method state tmptype (bytes.take 1412) with
      | none => .aborted
      | some (state, true) => finishMultisrc bufnum (some state) false
      | some (state, false) => multisrcLoop rotation method bufnum isfilter optype targetkey (some state) events

/-- `udprecvlarge_multisrc_ipfrag`; the callers pass a `bufnum` of 0 and no addresses. -/
def udprecvlargeMultisrc (rotation : Bool) (method : Method) (bufnum : Nat) (isfilter : Bool) (optype : UInt16)
    (targetkey : Key) (events : List SocketEvent) : MultisrcResult :=
  if method.isSingleswitch then multisrcLoop rotation method bufnum isfilter optype targetkey none events
    else .aborted

/-- No packet type meets the assertions: `get_frag_hdrsize` does not list the scan response, and the other types have
no sources. -/
theorem checked_ofType (method : Method) (type : PacketType) (fragMaxsize : Nat) :
    (SourceLayout.ofType method type fragMaxsize).checked = none := by
  unfold SourceLayout.ofType
  by_cases scan : type = .scanresSplit
  · have apart : ¬ ScanResponseSplit.getSrcnumOff method ≤ 0 := by
      unfold ScanResponseSplit.getSrcnumOff
      omega
    subst scan
    simp [SourceLayout.checked, guard, Method.getFragHdrsize, apart]
  · simp [SourceLayout.checked, guard, scan]

/-- The first packet that passes the filter aborts the call. -/
theorem multisrcLoop_aborts (rotation : Bool) {method : Method} (bufnum : Nat) {isfilter : Bool} {optype : UInt16}
    {targetkey : Key} {packet : List UInt8} {type : PacketType} (srcAddr : SockAddr) (events : List SocketEvent)
    (passed : passes method isfilter optype targetkey (packet.take 1412) = some (some type)) :
    multisrcLoop rotation method bufnum isfilter optype targetkey none (.datagram packet srcAddr :: events) =
      .aborted := by
  simp only [multisrcLoop, passed, recvMultisrc, checked_ofType, Option.bind_eq_bind, Option.bind_none]

/-- The responses of all sources to a scan from `key`. -/
structure ScanSources (method : Method) (key : Key) (responses : List ScanResponseSplit) : Prop where
  nonempty : responses ≠ []
  header : ∀ response ∈ responses, response.hdr.type = .scanresSplit ∧ response.hdr.key = key
  numbered : ∀ i response, responses[i]? = some response →
    response.curScanidx.toNat = i + 1 ∧ response.maxScannum.toNat = responses.length
  fits : ∀ response ∈ responses, (response.bytes method).length ≤ 8388608

def ScanResponseSplit.fragments (method : Method) (response : ScanResponseSplit) : List (List UInt8) :=
  (udpsendlarge (response.bytes method) (getFragHdrsize method) 1412).getD []

/-- Every fragment arrives once, in any order; or the call times out before the last one. -/
def ScanDelivery (method : Method) (responses : List ScanResponseSplit) (arrived : List (List UInt8))
    (isTimeout : Bool) :
    Prop :=
  match isTimeout with
  | false => arrived.Perm (responses.flatMap (·.fragments method))
  | true => arrived.Subperm (responses.flatMap (·.fragments method)) ∧
      arrived.length < (responses.flatMap (·.fragments method)).length

/-- The call returns one buffer per source with its response, and nothing but the timeout on a timeout. -/
def ScanReassembles (rotation : Bool) (method : Method) (key : Key) (responses : List ScanResponseSplit)
    (srcAddr : List UInt8 → SockAddr) (arrived : List (List UInt8)) (isTimeout : Bool) : Prop :=
  match isTimeout with
  | false => ∃ bufs, udprecvlargeMultisrc rotation method 0 true PacketType.scanresSplit.code key
      (arrived.map fun packet => .datagram packet (srcAddr packet)) = .returned bufs ∧
      bufs.map content = responses.map (·.bytes method)
  | true => udprecvlargeMultisrc rotation method 0 true PacketType.scanresSplit.code key
      ((arrived.map fun packet => .datagram packet (srcAddr packet)) ++ [.timeout]) = .timedOut

theorem ScanResponseSplit.getFragHdrsize_le (method : Method) (response : ScanResponseSplit) :
    method.getOphdrsize ≤ getFragHdrsize method ∧ getFragHdrsize method ≤ 50 ∧
      getFragHdrsize method ≤ (response.bytes method).length := by
  have total := response.size_le_length method
  have same : JavaScanResponseSplit.size method = getFragHdrsize method := rfl
  refine ⟨?_, ?_, same ▸ total⟩
  · unfold getFragHdrsize
    omega
  · cases method <;> decide

/-- A server sends at least one fragment, and each starts with the header of the response. -/
theorem ScanResponseSplit.fragments_spec {method : Method} {response : ScanResponseSplit}
    (fits : (response.bytes method).length ≤ 8388608) :
    response.fragments method ≠ [] ∧
      ∀ packet ∈ response.fragments method, packet.length ≤ 1412 ∧ response.hdr.bytes method <+: packet := by
  obtain ⟨ophdr, small, headed⟩ := getFragHdrsize_le method response
  have positive : getFragHdrsize method + 2 + 2 < 1412 := by omega
  have bound := count_le (1412 - (getFragHdrsize method + 2 + 2))
    ((response.bytes method).length - getFragHdrsize method)
  have quotient : ((response.bytes method).length - getFragHdrsize method) /
      (1412 - (getFragHdrsize method + 2 + 2)) ≤ 8388608 / 1358 := Nat.div_le_div (by omega) (by omega) (by decide)
  have some_fragment := count_pos (show 0 < 1412 - (getFragHdrsize method + 2 + 2) by omega)
    ((response.bytes method).length - getFragHdrsize method)
  have isFragments : response.fragments method = _ :=
    congrArg (Option.getD · []) (udpsendlarge_eq headed positive (by omega))
  rw [isFragments]
  refine ⟨?_, fun packet member => ?_⟩
  · intro none
    have length := congrArg List.length none
    simp only [Option.getD_some, List.length_map, List.length_range, List.length_nil] at length
    omega
  · obtain ⟨i, _, rfl⟩ := List.mem_map.mp member
    have length : ((response.bytes method).take (getFragHdrsize method)).length = getFragHdrsize method :=
      List.length_take_of_le headed
    have width := length_piece_le (1412 - (getFragHdrsize method + 2 + 2))
      ((response.bytes method).drop (getFragHdrsize method)) i
    have header : response.hdr.bytes method <+: response.bytes method := by
      rw [ScanResponseSplit.bytes, headBytes, List.append_assoc]
      exact List.prefix_append _ _
    refine ⟨?_, ?_⟩
    · rw [length_fragmentBytes]
      omega
    · refine List.IsPrefix.trans ?_ (List.prefix_append _ _)
      exact List.prefix_take_iff.mpr ⟨header, by rw [Ophdr.length_bytes]; exact ophdr⟩

/-- The call reassembles nothing: it gives what it is to give iff it times out before any fragment arrives. -/
theorem scan_reassembles_iff (rotation : Bool) (method : Method) (single : method.isSingleswitch = true) (key : Key)
    (responses : List ScanResponseSplit) (sources : ScanSources method key responses)
    (srcAddr : List UInt8 → SockAddr) (arrived : List (List UInt8)) (isTimeout : Bool)
    (delivery : ScanDelivery method responses arrived isTimeout) :
    ScanReassembles rotation method key responses srcAddr arrived isTimeout ↔ arrived = [] := by
  have among : ∀ packet ∈ arrived, ∃ response ∈ responses, packet ∈ response.fragments method := by
    intro packet member
    have sent : packet ∈ responses.flatMap (·.fragments method) := by
      cases isTimeout with
      | false => exact List.Perm.mem_iff delivery |>.mp member
      | true => exact delivery.1.subset member
    exact List.mem_flatMap.mp sent
  cases arrived with
  | nil =>
    refine iff_of_true ?_ rfl
    cases isTimeout with
    | true => simp [ScanReassembles, udprecvlargeMultisrc, single, multisrcLoop, finishMultisrc]
    | false =>
      -- there is always something to arrive
      have nothing := List.Perm.eq_nil (List.Perm.symm delivery)
      obtain ⟨response, others, rfl⟩ := List.exists_cons_of_ne_nil sources.nonempty
      rw [List.flatMap_cons, List.append_eq_nil_iff] at nothing
      exact absurd nothing.1 (ScanResponseSplit.fragments_spec (sources.fits response List.mem_cons_self)).1
  | cons packet others =>
    refine iff_of_false ?_ (List.cons_ne_nil _ _)
    obtain ⟨response, member, isFragment⟩ := among packet List.mem_cons_self
    obtain ⟨type, isKey⟩ := sources.header response member
    obtain ⟨short, starts⟩ := (ScanResponseSplit.fragments_spec (sources.fits response member)).2 packet isFragment
    have holds := holds_zero_iff.mpr starts
    have passed : passes method true PacketType.scanresSplit.code key (packet.take 1412) =
        some (some .scanresSplit) := by
      rw [List.take_of_length_le short]
      simp [passes, getPacketType_of_holds holds, getPacketKey_of_holds holds, type, isKey]
    have aborts : ∀ events, udprecvlargeMultisrc rotation method 0 true PacketType.scanresSplit.code key
        (.datagram packet (srcAddr packet) :: events) = .aborted := by
      intro events
      rw [udprecvlargeMultisrc, if_pos single]
      exact multisrcLoop_aborts rotation 0 (srcAddr packet) events passed
    cases isTimeout with
    | false =>
      rintro ⟨bufs, returned, _⟩
      rw [List.map_cons, aborts] at returned
      cases returned
    | true =>
      intro timedOut
      rw [ScanReassembles, List.map_cons, List.cons_append, aborts] at timedOut
      cases timedOut

def twoResponses : List ScanResponseSplit :=
  [⟨.make .scanresSplit ⟨0, 0, 0, 0⟩, ⟨0, 0, 0, 1⟩, 1, 2, 0, 0, 0, 0, 1, [⟨⟨5, 0, 0, 0⟩, [1, 2, 3], 0, false⟩]⟩,
    ⟨.make .scanresSplit ⟨0, 0, 0, 0⟩, ⟨0, 0, 0, 1⟩, 2, 2, 0, 0, 0, 0, 0, []⟩]

theorem scanSources_twoResponses : ScanSources .farreach ⟨0, 0, 0, 0⟩ twoResponses := by
  refine ⟨List.cons_ne_nil _ _, by decide, ?_, by decide⟩
  intro i response found
  match i with
  | 0 | 1 =>
    cases found
    exact ⟨rfl, rfl⟩
  | i + 2 => cases found

/-- Nothing arrives before the timeout, or everything does. -/
theorem scan_reassembles_two :
    ScanReassembles true .farreach ⟨0, 0, 0, 0⟩ twoResponses (fun _ => (0, 0)) [] true ∧
      ¬ ScanReassembles true .farreach ⟨0, 0, 0, 0⟩ twoResponses (fun _ => (0, 0))
        (twoResponses.flatMap (·.fragments .farreach)) false := by
  have sources := scanSources_twoResponses
  have sent : twoResponses.flatMap (·.fragments .farreach) ≠ [] := by
    have first := (ScanResponseSplit.fragments_spec (sources.fits _ List.mem_cons_self)).1
    exact List.append_ne_nil_of_left_ne_nil first _
  have whole : ScanDelivery .farreach twoResponses (twoResponses.flatMap (·.fragments .farreach)) false := .refl _
  exact ⟨(scan_reassembles_iff true .farreach rfl _ _ sources _ [] true
      ⟨List.nil_subperm, List.length_pos_of_ne_nil sent⟩).mpr rfl,
    mt (scan_reassembles_iff true .farreach rfl _ _ sources _ _ false whole).mp sent⟩

def emptyResponse : ScanResponseSplit :=
  ⟨.make .scanresSplit ⟨0, 0, 0, 0⟩, ⟨0, 0, 0, 1⟩, 1, 1, 0, 0, 0, 0, 0, []⟩

/-- The only fragment of the only response arrives, and the call aborts. -/
theorem scan_response_aborts :
    ScanDelivery .farreach [emptyResponse] (emptyResponse.fragments .farreach) false ∧
    udprecvlargeMultisrc true .farreach 0 true PacketType.scanresSplit.code ⟨0, 0, 0, 0⟩
      ((emptyResponse.fragments .farreach).map fun packet => .datagram packet (0, 0)) = .aborted ∧
    ¬ ScanReassembles true .farreach ⟨0, 0, 0, 0⟩ [emptyResponse] (fun _ => (0, 0))
      (emptyResponse.fragments .farreach) false := by
  have aborts : udprecvlargeMultisrc true .farreach 0 true PacketType.scanresSplit.code ⟨0, 0, 0, 0⟩
      ((emptyResponse.fragments .farreach).map fun packet => .datagram packet (0, 0)) = .aborted := by
    have isFragments : emptyResponse.fragments .farreach =
        [fragmentBytes ((emptyResponse.bytes .farreach).take 41) 1 0 ((emptyResponse.bytes .farreach).drop 41)] := by
      decide
    rw [isFragments, List.map_cons, udprecvlargeMultisrc, if_pos (by rfl)]
    exact @multisrcLoop_aborts true .farreach 0 true _ _ _ .scanresSplit _ _ (by decide)
  refine ⟨?_, aborts, ?_⟩
  · show List.Perm _ _
    rw [List.flatMap_cons, List.flatMap_nil, List.append_nil]
  · rintro ⟨bufs, returned, _⟩
    rw [aborts] at returned
    cases returned

end FarReach
