import FarReach.PacketClasses

namespace FarReach

open Bytes Layouts Member

namespace PacketClass

theorem scanResponseSplit_of_pairs {method : Method} {cls : PacketClass}
    (member : Member.pairs ∈ cls.members method) :
    cls = scanResponseSplit := by
  cases cls with
  | scanResponseSplit => rfl
  | _ => cases method <;> simp [members] at member

theorem pairs_width_le (method : Method) (object : PacketObject) {cls : PacketClass}
    (response : cls = scanResponseSplit) :
    (object .pairs).bytes.length ≤ extent (codec method) object (cls.puts method) := by
  rw [response, extent_eq]
  simp only [puts, ScanResponseSplit.puts, scanswitchPuts]
  split <;> simp [putWidth, width, zeros] <;> omega

theorem map_receivedPair_iff {pairs : List WireRecord} :
    pairs.map receivedPair = pairs ↔ ∀ pair ∈ pairs, pair.seq = 0 ∧ pair.stat = false := by
  induction pairs with
  | nil => simp
  | cons pair pairs ih =>
    have first : receivedPair pair = pair ↔ pair.seq = 0 ∧ pair.stat = false := by
      cases pair
      simp only [receivedPair, WireRecord.mk.injEq, true_and]
      exact and_congr eq_comm eq_comm
    rw [List.map_cons, List.cons.injEq, first, ih, List.forall_mem_cons]

section RoundTrip

variable {method : Method} {cls : PacketClass} {object : PacketObject} {data : List UInt8}

theorem Constructs.valid (built : Constructs method cls object)
    (bounded : extent (codec method) object (cls.puts method) < 2 ^ 32) {member : Member}
    (isMember : member ∈ cls.members method) : (member.codec method).Valid (object member) := by
  cases member with
  | val => exact built.val isMember
  | pairs =>
    have response := scanResponseSplit_of_pairs isMember
    have width := pairs_width_le method object response
    have count := length_bytes_pairs (object .pairs)
    exact ⟨built.pairnum response, by omega, built.pairs response⟩
  | _ => trivial

theorem Constructs.accepted (built : Constructs method cls object) {received : PacketObject}
    (arrived : ∀ member ∈ cls.members method, received member = (member.codec method).arrives (object member)) :
    (received .hdr).type = cls.type ∧ cls.acceptsFields received = true := by
  have header : received .hdr = (object .hdr).received method :=
    arrived .hdr (by cases cls <;> simp [members])
  have val : Member.val ∈ cls.members method → received .val = object .val := arrived .val
  refine ⟨by rw [header, Ophdr.received_type, built.type], ?_⟩
  cases cls with
  | scanResponseSplit =>
    have snapshotid : received .snapshotid = object .snapshotid := arrived .snapshotid (by simp [members])
    simpa [acceptsFields, snapshotid] using built.snapshotid rfl
  | netcacheCachePopAckNLatest =>
    simp [acceptsFields, val (by simp [members]), built.nlatest rfl]
  | putRequest | getResponse | getResponseSeq | getResponseServerSeq | putRequestSeq | cachePop | netcacheCachePopAck
  | getResponseLatestSeqInswitchCase1 | getResponseDeletedSeqInswitchCase1 | putRequestSeqInswitchCase1
  | delRequestSeqInswitchCase1 =>
    have short := built.val (by simp [members])
    simpa [acceptsFields, val (by simp [members])] using short
  | _ => rfl

theorem write_of_fits (fits : extent (codec method) object (cls.puts method) ≤ data.length) :
    ∃ after, cls.write method object data = some (after, extent (codec method) object (cls.puts method)) ∧
      Laid (codec method) object after (cls.puts method) 0 := by
  obtain ⟨after, wrote, _, laid, _⟩ := putAll_of_fits (show 0 + _ ≤ data.length by rw [Nat.zero_add]; exact fits)
  have checked : ∀ mySize ∈ cls.checkedSize method, mySize ≤ data.length :=
    fun mySize isSize => (checkedSize_spec isSize).1.trans fits
  rw [Nat.zero_add] at wrote
  refine ⟨after, ?_, laid⟩
  unfold write
  rw [guard, if_pos checked]
  exact wrote

theorem ofData_of_laid (regular : cls ≠ netcacheWarmupRequestInswitchPop) (built : Constructs method cls object)
    (bounded : extent (codec method) object (cls.puts method) < 2 ^ 32)
    (laid : Laid (codec method) object data (cls.puts method) 0) :
    ∃ received, cls.ofData method data (extent (codec method) object (cls.puts method)) = some received ∧
      ∀ member ∈ cls.members method, received member = (member.codec method).arrives (object member) := by
  obtain ⟨received, last, took, reads⟩ := takeAll_of_laid initial (follows_takes_puts regular) laid
    (le_of_eq (Nat.zero_add _)) fun member isTaken => built.valid bounded (taken_takes regular ▸ isTaken)
  have arrived : ∀ member ∈ cls.members method, received member = (member.codec method).arrives (object member) := by
    intro member isMember
    rw [reads member, if_pos (by rw [taken_takes regular]; exact isMember)]
  have accounted : cls.accountsFor method (extent (codec method) object (cls.puts method)) = true := by
    unfold accountsFor
    cases checked : cls.checkedSize method with
    | none => rfl
    | some mySize =>
      have sized := @checkedSize_spec method cls object mySize checked
      by_cases exactly : cls.exactSize = true
      · simp [exactly, sized.2 exactly]
      · simp [exactly, sized.1]
  obtain ⟨typed, accepted⟩ := built.accepted arrived
  have decoded : cls.deserialize method data (extent (codec method) object (cls.puts method)) = some received := by
    unfold deserialize
    rw [accounted, took]
    cases cls <;> first | rfl | exact absurd rfl regular
  refine ⟨received, ?_, arrived⟩
  unfold ofData
  simp only [built.usedBy, decoded, typed, accepted, guard, if_true, Option.pure_def, Option.bind_eq_bind,
    Option.bind_some]

theorem serialize_of_write {after : List UInt8} {written : Nat}
    (wrote : cls.write method object data = some (after, written)) :
    cls.serialize method object data = some (after, cls.returned written) := by
  simp only [serialize, wrote, Option.bind_eq_bind, Option.bind_some]

/-- A decoder that is told the returned length sees 8 bytes of a packet of more than 40. -/
theorem inswitchPop_not_roundTrips (fits : extent (codec method) object
    (netcacheWarmupRequestInswitchPop.puts method) ≤ data.length) :
    ¬ RoundTrips method netcacheWarmupRequestInswitchPop object data := by
  rintro ⟨after, written, received, wrote, returned, _, _⟩
  obtain ⟨buffer, wroteAll, _⟩ := write_of_fits fits
  have long := (@checkedSize_spec method netcacheWarmupRequestInswitchPop object _ rfl).1
  have enough : 18 ≤ method.getOphdrsize := by cases method <;> decide
  rw [wrote] at wroteAll
  obtain ⟨rfl, rfl⟩ := Prod.mk.inj (Option.some.inj wroteAll)
  rw [serialize_of_write wrote] at returned
  have eight : 8 = extent (codec method) object (netcacheWarmupRequestInswitchPop.puts method) :=
    (Prod.mk.inj (Option.some.inj returned)).2
  omega

/-- Apart from the header, of which the method's part arrives, only the pairs of a scan response arrive changed. -/
theorem sameMember_iff {received : PacketObject} {member : Member}
    (arrived : received member = (member.codec method).arrives (object member)) :
    SameMember method object received member ↔
      (member = .pairs → ∀ pair ∈ (object .pairs).pairs, pair.seq = 0 ∧ pair.stat = false) := by
  cases member with
  | pairs =>
    have scan : received .pairs = ⟨(object .pairs).pairnum, (object .pairs).pairs.map receivedPair⟩ := arrived
    have same : received .pairs = object .pairs ↔ (object .pairs).pairs.map receivedPair = (object .pairs).pairs := by
      rw [scan]
      cases object .pairs
      simp
    rw [map_receivedPair_iff] at same
    exact same.trans ⟨fun holds _ => holds, fun holds => holds rfl⟩
  | _ => exact iff_of_true arrived nofun

end RoundTrip

/-- Through a buffer with room for it, a packet makes a round trip if and only if its class is not
`NetcacheWarmupRequestInswitchPop` and, if it is a scan response, the records of its pairs have neither a sequence
number nor a status. -/
theorem packet_roundTrips_iff (method : Method) (cls : PacketClass) (object : PacketObject) (data : List UInt8)
    (built : Constructs method cls object)
    (fits : extent (codec method) object (cls.puts method) ≤ data.length) (addressable : data.length < 2 ^ 32) :
    RoundTrips method cls object data ↔
      cls ≠ netcacheWarmupRequestInswitchPop ∧
        (cls = scanResponseSplit → ∀ pair ∈ (object .pairs).pairs, pair.seq = 0 ∧ pair.stat = false) := by
  by_cases pop : cls = netcacheWarmupRequestInswitchPop
  · subst pop
    exact iff_of_false (inswitchPop_not_roundTrips fits) fun holds => holds.1 rfl
  · obtain ⟨after, wrote, laid⟩ := write_of_fits fits
    obtain ⟨received, made, arrived⟩ := ofData_of_laid pop built (by omega) laid
    have returned : cls.serialize method object data =
        some (after, extent (codec method) object (cls.puts method)) := by
      rw [serialize_of_write wrote]
      cases cls <;> first | rfl | exact absurd rfl pop
    have same : RoundTrips method cls object data ↔
        ∀ member ∈ cls.members method, SameMember method object received member := by
      constructor
      · rintro ⟨other, written, otherReceived, wroteToo, _, madeToo, holds⟩
        rw [wrote] at wroteToo
        obtain ⟨rfl, rfl⟩ := Prod.mk.inj (Option.some.inj wroteToo)
        rw [made] at madeToo
        cases Option.some.inj madeToo
        exact holds
      · intro holds
        exact ⟨after, _, received, wrote, returned, made, holds⟩
    rw [same]
    constructor
    · intro holds
      refine ⟨pop, fun response => ?_⟩
      have isMember : Member.pairs ∈ cls.members method := by
        rw [response]
        simp [members]
      exact (sameMember_iff (arrived _ isMember)).mp (holds _ isMember) rfl
    · rintro ⟨_, bare⟩ member isMember
      refine (sameMember_iff (arrived member isMember)).mpr fun isPairs => bare ?_
      exact scanResponseSplit_of_pairs (isPairs ▸ isMember)

/-- A CACHE_POP of DistFarReach with a value of three bytes, for global switch 3. -/
def populatingPacket : PacketObject
  | .hdr => ⟨cachePop.type, 3, 0, 0, ⟨1, 2, 3, 4⟩⟩
  | .val => [7, 8, 9]
  | .seq => (5 : UInt32)
  | .stat => true
  | member => initial member

theorem packet_roundTrips_iff_cachePop :
    Constructs .distfarreach cachePop populatingPacket ∧
      RoundTrips .distfarreach cachePop populatingPacket (List.replicate 64 0) := by
  have built : Constructs .distfarreach cachePop populatingPacket :=
    ⟨rfl, rfl, fun _ => by decide, nofun, nofun, nofun, nofun⟩
  refine ⟨built, (packet_roundTrips_iff .distfarreach cachePop populatingPacket (List.replicate 64 0) built ?_ ?_).mpr
    ⟨by decide, nofun⟩⟩
  · rw [extent_eq]
    decide
  · decide

def warmupPopPacket : PacketObject
  | .hdr => ⟨netcacheWarmupRequestInswitchPop.type, 0, 0, 0, ⟨1, 2, 3, 4⟩⟩
  | member => initial member

/-- The encoder writes the 56 bytes of the packet and returns 8. -/
theorem inswitchPop_returns_eight :
    Constructs .netcache netcacheWarmupRequestInswitchPop warmupPopPacket ∧
      (∃ after, netcacheWarmupRequestInswitchPop.write .netcache warmupPopPacket (List.replicate 64 0) =
          some (after, 56) ∧
        netcacheWarmupRequestInswitchPop.serialize .netcache warmupPopPacket (List.replicate 64 0) =
          some (after, 8)) ∧
      ¬ RoundTrips .netcache netcacheWarmupRequestInswitchPop warmupPopPacket (List.replicate 64 0) := by
  have total : extent (codec .netcache) warmupPopPacket (netcacheWarmupRequestInswitchPop.puts .netcache) = 56 := by
    rw [extent_eq]
    rfl
  have fits : extent (codec .netcache) warmupPopPacket (netcacheWarmupRequestInswitchPop.puts .netcache) ≤
      (List.replicate 64 (0 : UInt8)).length := by
    rw [total]
    decide
  obtain ⟨after, wrote, _⟩ := write_of_fits fits
  rw [total] at wrote
  exact ⟨⟨rfl, rfl, nofun, nofun, nofun, nofun, nofun⟩, ⟨after, wrote, serialize_of_write wrote⟩,
    inswitchPop_not_roundTrips fits⟩

end PacketClass

end FarReach
