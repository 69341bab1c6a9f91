import FarReach.KeyHash
import FarReach.Binary64

namespace FarReach

open Binary64

/-- `getHashPartitionIdx` of the client library; nothing is asserted there. -/
def Key.getHashPartitionIdx (key : Key) (partitionNum serverNum : Nat) : Nat :=
  let hashResult := key.hashBycrc32.toNat % partitionNum
  let targetIdx := hashResult / (partitionNum / serverNum)
  if targetIdx = serverNum then targetIdx - 1 else targetIdx

/-- The action `hash_for_partition`: the CRC of the key modulo PARTITION_COUNT, in a 16-bit field. -/
def Key.hashvalForPartition (key : Key) (partitionCount : Nat) : Nat :=
  key.hashBycrc32.toNat % partitionCount % 2 ^ 16

namespace HashPartitionTbl

/-- `int()`, towards zero. -/
def truncate (x : ℚ) : ℤ := if 0 ≤ x then ⌊x⌋ else ⌈x⌉

def hashRangePerServer (switchPartitionCount serverTotalLogicalNum : Nat) : ℚ :=
  nearest (switchPartitionCount / serverTotalLogicalNum)

def hashEnd (switchPartitionCount serverTotalLogicalNum globalServerLogicalIdx : Nat) (hashStart : ℚ) : ℚ :=
  if globalServerLogicalIdx = serverTotalLogicalNum - 1 then switchPartitionCount - 1
  else nearest (nearest (hashStart + hashRangePerServer switchPartitionCount serverTotalLogicalNum) - 1)

def hashStart (switchPartitionCount serverTotalLogicalNum : Nat) : Nat → ℚ
  | 0 => 0
  | idx + 1 =>
    nearest (hashEnd switchPartitionCount serverTotalLogicalNum idx
      (hashStart switchPartitionCount serverTotalLogicalNum idx) + 1)

/-- The range of `hashval_for_partition` that is matched for a server, both ends included. -/
def hashRange (switchPartitionCount serverTotalLogicalNum idx : Nat) : ℤ × ℤ :=
  let start := hashStart switchPartitionCount serverTotalLogicalNum idx
  (truncate start, truncate (hashEnd switchPartitionCount serverTotalLogicalNum idx start))

def InRange (range : ℤ × ℤ) (hashval : Nat) : Prop := range.1 ≤ hashval ∧ (hashval : ℤ) ≤ range.2

end HashPartitionTbl

open HashPartitionTbl

/-- Everybody agrees on the owner of every key, and the ranges of the table partition the hash values. -/
structure OwnershipAgrees (partitionCount servers : Nat) : Prop where
  owner : ∀ key : Key, ∃ idx, idx < servers ∧ key.getHashpartitionIdx partitionCount servers = some idx ∧
    key.getHashPartitionIdx partitionCount servers = idx ∧
    ∀ server < servers,
      InRange (hashRange partitionCount servers server) (key.hashvalForPartition partitionCount) ↔ server = idx
  cover : ∀ hashval < partitionCount,
    ∃! server, server < servers ∧ InRange (hashRange partitionCount servers server) hashval

section Rounding

theorem nearest_near {x : ℚ} (small : |x| ≤ 2 ^ 17) : |nearest x - x| ≤ 2⁻¹ ^ 36 := by
  refine (nearest_error x).trans ?_
  calc |x| * 2⁻¹ ^ 53 ≤ 2 ^ 17 * 2⁻¹ ^ 53 := by gcongr
    _ = 2⁻¹ ^ 36 := by norm_num

/-- One round of the loop, when the start of the server is known up to an error. -/
theorem round_near {start perServer exact width error : ℚ} (startNear : |start - exact| ≤ error)
    (widthNear : |perServer - width| ≤ 2⁻¹ ^ 36) (exactNonneg : 0 ≤ exact) (widthNonneg : 0 ≤ width)
    (small : exact + width ≤ 2 ^ 16) (errorSmall : error ≤ 1) :
    |nearest (nearest (start + perServer) - 1) - (exact + width - 1)| ≤ error + 3 * 2⁻¹ ^ 36 ∧
      |nearest (nearest (nearest (start + perServer) - 1) + 1) - (exact + width)| ≤ error + 4 * 2⁻¹ ^ 36 := by
  rw [abs_le] at startNear widthNear
  have added := nearest_near (x := start + perServer) (by rw [abs_le]; constructor <;> linarith)
  rw [abs_le] at added
  have ended := nearest_near (x := nearest (start + perServer) - 1) (by rw [abs_le]; constructor <;> linarith)
  rw [abs_le] at ended
  have next := nearest_near (x := nearest (nearest (start + perServer) - 1) + 1)
    (by rw [abs_le]; constructor <;> linarith)
  rw [abs_le] at next
  constructor <;> rw [abs_le] <;> constructor <;> linarith

variable {partitionCount servers : Nat}

theorem round_at (small : partitionCount ≤ 2 ^ 16) (enough : servers ≤ partitionCount) {idx : Nat}
    (inside : idx + 1 < servers)
    (near : |hashStart partitionCount servers idx - idx * (partitionCount / servers)| ≤ idx * (4 * 2⁻¹ ^ 36)) :
    |hashEnd partitionCount servers idx (hashStart partitionCount servers idx) -
        ((idx + 1 : Nat) * (partitionCount / servers) - 1)| ≤ (idx + 1 : Nat) * (4 * 2⁻¹ ^ 36) ∧
      |hashStart partitionCount servers (idx + 1) - (idx + 1 : Nat) * (partitionCount / servers)| ≤
        (idx + 1 : Nat) * (4 * 2⁻¹ ^ 36) := by
  have serversPos : (0 : ℚ) < servers := by exact_mod_cast (by omega : 0 < servers)
  have widthNonneg : (0 : ℚ) ≤ partitionCount / servers := by positivity
  have countSmall : (partitionCount : ℚ) ≤ 2 ^ 16 := by exact_mod_cast small
  have idxSmall : (idx : ℚ) + 1 ≤ servers := by exact_mod_cast inside.le
  have serversSmall : (servers : ℚ) ≤ 2 ^ 16 := by exact_mod_cast enough.trans small
  have total : (servers : ℚ) * (partitionCount / servers) = partitionCount := mul_div_cancel₀ _ serversPos.ne'
  have sum : (idx : ℚ) * (partitionCount / servers) + partitionCount / servers ≤ 2 ^ 16 := by nlinarith
  have idxNonneg : (0 : ℚ) ≤ idx * (partitionCount / servers) := by positivity
  have widthNear : |hashRangePerServer partitionCount servers - partitionCount / servers| ≤ 2⁻¹ ^ 36 :=
    nearest_near (by rw [abs_of_nonneg widthNonneg]; linarith)
  have error : (idx : ℚ) * (4 * 2⁻¹ ^ 36) ≤ 1 := by nlinarith
  obtain ⟨ended, started⟩ := round_near near widthNear idxNonneg widthNonneg sum error
  have target : ((idx + 1 : Nat) : ℚ) * (partitionCount / servers) =
      idx * (partitionCount / servers) + partitionCount / servers := by
    push_cast
    ring
  have bound : ((idx + 1 : Nat) : ℚ) * (4 * 2⁻¹ ^ 36) = idx * (4 * 2⁻¹ ^ 36) + 4 * 2⁻¹ ^ 36 := by
    push_cast
    ring
  rw [target, bound, hashStart, hashEnd, if_neg (by omega)]
  exact ⟨ended.trans (by gcongr; norm_num), started⟩

/-- `hash_start` is near the real multiple of the range. -/
theorem hashStart_near (small : partitionCount ≤ 2 ^ 16) (enough : servers ≤ partitionCount)
    (idx : Nat) (inside : idx < servers) :
    |hashStart partitionCount servers idx - idx * (partitionCount / servers)| ≤ idx * (4 * 2⁻¹ ^ 36) := by
  induction idx with
  | zero => simp [hashStart]
  | succ idx ih => exact (round_at small enough inside (ih (by omega))).2

/-- With an even split a round of the loop computes with whole numbers, and nothing is rounded. -/
theorem hashEnd_of_dvd {width : Nat} (small : servers * width ≤ 2 ^ 16) (positive : 1 ≤ width) {idx : Nat}
    (inside : idx + 1 < servers) :
    hashEnd (servers * width) servers idx (idx * width : Nat) = ((idx + 1) * width - 1 : Nat) := by
  have serversPos : (servers : ℚ) ≠ 0 := by exact_mod_cast (by omega : servers ≠ 0)
  have fits : (idx + 1) * width ≤ 2 ^ 16 := (Nat.mul_le_mul_right width inside.le).trans small
  have one : 1 ≤ (idx + 1) * width := Nat.mul_pos (Nat.succ_pos idx) positive
  have widthFits : width < 2 ^ 53 := by nlinarith
  have perServer : hashRangePerServer (servers * width) servers = width := by
    have exact : ((servers * width : Nat) : ℚ) / servers = width := by
      push_cast
      exact mul_div_cancel_left₀ _ serversPos
    rw [hashRangePerServer, exact, nearest_natCast widthFits]
  have sum : ((idx * width : Nat) : ℚ) + width = ((idx + 1) * width : Nat) := by
    push_cast
    ring
  have before : (((idx + 1) * width : Nat) : ℚ) - 1 = ((idx + 1) * width - 1 : Nat) := by
    rw [Nat.cast_sub one, Nat.cast_one]
  rw [hashEnd, if_neg (by omega), perServer, sum, nearest_natCast (by omega), before, nearest_natCast (by omega)]

theorem hashStart_of_dvd {width : Nat} (small : servers * width ≤ 2 ^ 16) (positive : 1 ≤ width)
    (idx : Nat) (inside : idx < servers) : hashStart (servers * width) servers idx = (idx * width : Nat) := by
  induction idx with
  | zero => simp [hashStart]
  | succ idx ih =>
    have fits : (idx + 1) * width ≤ 2 ^ 16 := (Nat.mul_le_mul_right width inside.le).trans small
    have one : 1 ≤ (idx + 1) * width := Nat.mul_pos (Nat.succ_pos idx) positive
    have after : (((idx + 1) * width - 1 : Nat) : ℚ) + 1 = ((idx + 1) * width : Nat) := by
      rw [Nat.cast_sub one, Nat.cast_one]
      ring
    rw [hashStart, ih (by omega), hashEnd_of_dvd small positive inside, after, nearest_natCast (by omega)]

theorem truncate_eq {x : ℚ} {n : Nat} (low : (n : ℚ) ≤ x) (high : x < n + 1) : truncate x = n := by
  have nonneg : 0 ≤ x := le_trans (Nat.cast_nonneg n) low
  rw [truncate, if_pos nonneg, Int.floor_eq_iff]
  constructor
  · exact_mod_cast low
  · exact_mod_cast high

theorem truncate_natCast (n : Nat) : truncate n = n := truncate_eq le_rfl (by linarith)

/-- One hash value too many: the fraction a bound has gathered is larger than its error and, before the
last server, too small to reach the next whole number. -/
theorem whole_part_of_near {width idx : Nat} {x : ℚ} (small : servers ≤ 2 ^ 16) (inside : idx < servers)
    (near : |x - idx * ((servers * width + 1 : Nat) / servers)| ≤ idx * (4 * 2⁻¹ ^ 36)) :
    ((idx * width : Nat) : ℚ) ≤ x ∧ x < (idx * width : Nat) + 1 := by
  have serversPos : (0 : ℚ) < servers := by exact_mod_cast (by omega : 0 < servers)
  have serversSmall : (servers : ℚ) ≤ 2 ^ 16 := by exact_mod_cast small
  have idxNonneg : (0 : ℚ) ≤ idx := Nat.cast_nonneg idx
  have idxSmall : (idx : ℚ) + 1 ≤ servers := by exact_mod_cast inside
  have split : ((servers * width + 1 : Nat) : ℚ) / servers = width + 1 / servers := by
    push_cast
    field_simp
  have share : (2⁻¹ : ℚ) ^ 16 ≤ 1 / servers := by
    rw [le_div_iff₀ serversPos]
    nlinarith
  have whole : (servers : ℚ) * (1 / servers) = 1 := mul_one_div_cancel serversPos.ne'
  rw [split, abs_le] at near
  push_cast
  constructor
  · nlinarith
  · nlinarith

/-- The ranges of an almost even split: each server has its full width, and the last one what is left. -/
theorem hashRange_of_even (positive : 1 ≤ servers) (enough : servers ≤ partitionCount)
    (small : partitionCount ≤ 2 ^ 16) (even : partitionCount % servers ≤ 1) {idx : Nat} (inside : idx < servers) :
    hashRange partitionCount servers idx = (((idx * (partitionCount / servers) : Nat) : ℤ),
      if idx = servers - 1 then ((partitionCount - 1 : Nat) : ℤ)
      else (((idx + 1) * (partitionCount / servers) - 1 : Nat) : ℤ)) := by
  have split := Nat.div_add_mod partitionCount servers
  have widthPos : 1 ≤ partitionCount / servers := Nat.div_pos enough positive
  generalize partitionCount / servers = width at split widthPos ⊢
  have one : 1 ≤ (idx + 1) * width := Nat.mul_pos (Nat.succ_pos idx) widthPos
  have last : truncate ((partitionCount : ℚ) - 1) = ((partitionCount - 1 : Nat) : ℤ) := by
    have cast : (partitionCount : ℚ) - 1 = (partitionCount - 1 : Nat) := by
      rw [Nat.cast_sub (by omega), Nat.cast_one]
    rw [cast, truncate_natCast]
  have cases : partitionCount = servers * width ∨ partitionCount = servers * width + 1 := by omega
  have bounds : truncate (hashStart partitionCount servers idx) = ((idx * width : Nat) : ℤ) ∧
      (idx + 1 < servers → truncate (hashEnd partitionCount servers idx (hashStart partitionCount servers idx)) =
        (((idx + 1) * width - 1 : Nat) : ℤ)) := by
    rcases cases with rfl | rfl
    · rw [hashStart_of_dvd small widthPos idx inside]
      refine ⟨truncate_natCast _, fun next => ?_⟩
      rw [hashEnd_of_dvd small widthPos next, truncate_natCast]
    · have serversSmall : servers ≤ 2 ^ 16 := enough.trans small
      have near := hashStart_near small enough idx inside
      obtain ⟨low, high⟩ := whole_part_of_near serversSmall inside near
      refine ⟨truncate_eq low high, fun next => ?_⟩
      have ended := (round_at small enough next near).1
      rw [← add_sub_add_right_eq_sub _ _ (1 : ℚ), sub_add_cancel] at ended
      obtain ⟨low, high⟩ := whole_part_of_near serversSmall next ended
      have cast : (((idx + 1) * width - 1 : Nat) : ℚ) = ((idx + 1) * width : Nat) - 1 := by
        rw [Nat.cast_sub one, Nat.cast_one]
      refine truncate_eq ?_ ?_ <;> rw [cast] <;> linarith
  unfold hashRange
  dsimp only
  rw [bounds.1]
  by_cases isLast : idx = servers - 1
  · rw [if_pos isLast, hashEnd, if_pos isLast, last]
  · rw [if_neg isLast, bounds.2 (by omega)]

/-- Two or more hash values too many: the range of the last server starts too late. -/
theorem hashRange_of_uneven (enough : servers ≤ partitionCount) (small : partitionCount ≤ 2 ^ 16)
    (positive : 1 ≤ servers) (uneven : 2 ≤ partitionCount % servers) :
    (((servers - 1) * (partitionCount / servers) : Nat) : ℤ) <
      (hashRange partitionCount servers (servers - 1)).1 := by
  have remainder := Nat.mod_lt partitionCount positive
  have split := Nat.div_add_mod partitionCount servers
  have near := hashStart_near small enough (servers - 1) (by omega)
  generalize partitionCount / servers = width at split ⊢
  have serversPos : (0 : ℚ) < servers := by exact_mod_cast positive
  have three : (3 : ℚ) ≤ servers := by exact_mod_cast (by omega : 3 ≤ servers)
  have serversSmall : (servers : ℚ) ≤ 2 ^ 16 := by exact_mod_cast enough.trans small
  have two : (2 : ℚ) ≤ (partitionCount % servers : Nat) := by exact_mod_cast uneven
  have cast : ((servers - 1 : Nat) : ℚ) = servers - 1 := by rw [Nat.cast_sub positive, Nat.cast_one]
  have share : (partitionCount : ℚ) / servers = width + (partitionCount % servers : Nat) / servers := by
    rw [div_eq_iff serversPos.ne', add_mul, div_mul_cancel₀ _ serversPos.ne', mul_comm]
    exact_mod_cast split.symm
  have whole : (servers : ℚ) * ((partitionCount % servers : Nat) / servers) = (partitionCount % servers : Nat) :=
    mul_div_cancel₀ _ serversPos.ne'
  have late : (((servers - 1) * width + 1 : Nat) : ℚ) ≤ hashStart partitionCount servers (servers - 1) := by
    rw [cast, share, abs_le] at near
    push_cast [cast]
    have third : ((partitionCount % servers : Nat) : ℚ) / servers ≤ (partitionCount % servers : Nat) / 3 := by
      gcongr
    nlinarith
  have nonneg : 0 ≤ hashStart partitionCount servers (servers - 1) := le_trans (Nat.cast_nonneg _) late
  have bound : (((servers - 1) * width + 1 : Nat) : ℤ) ≤
      truncate (hashStart partitionCount servers (servers - 1)) := by
    rw [truncate, if_pos nonneg, Int.le_floor]
    exact_mod_cast late
  unfold hashRange
  dsimp only
  omega

theorem truncate_nonneg {x : ℚ} (above : -1 < x) : 0 ≤ truncate x := by
  unfold truncate
  split
  · rename_i nonneg
    exact Int.floor_nonneg.mpr nonneg
  · have ceil : (-1 : ℤ) < ⌈x⌉ := Int.lt_ceil.mpr (by exact_mod_cast above)
    omega

theorem zero_inRange_first (positive : 1 ≤ servers) (enough : servers ≤ partitionCount) :
    InRange (hashRange partitionCount servers 0) 0 := by
  have serversPos : (0 : ℚ) < servers := by exact_mod_cast positive
  have countPos : (1 : ℚ) ≤ partitionCount := by exact_mod_cast positive.trans enough
  have width : (1 : ℚ) ≤ partitionCount / servers := by
    rw [le_div_iff₀ serversPos, one_mul]
    exact_mod_cast enough
  have divided := abs_le.mp (nearest_error ((partitionCount : ℚ) / servers))
  rw [abs_of_nonneg (by linarith)] at divided
  have perServer : (1 : ℚ) / 2 ≤ hashRangePerServer partitionCount servers := by
    unfold hashRangePerServer
    linarith
  have added := abs_le.mp (nearest_error (0 + hashRangePerServer partitionCount servers))
  rw [abs_of_nonneg (by linarith)] at added
  have ended := abs_le.mp (nearest_error (nearest (0 + hashRangePerServer partitionCount servers) - 1))
  have above : -1 < hashEnd partitionCount servers 0 0 := by
    unfold hashEnd
    split
    · linarith
    · rcases abs_cases (nearest (0 + hashRangePerServer partitionCount servers) - 1) with ⟨same, _⟩ | ⟨same, _⟩ <;>
        rw [same] at ended <;> linarith
  exact ⟨by simp [hashRange, hashStart, truncate], truncate_nonneg above⟩

end Rounding

section Owners

variable {partitionCount servers : Nat}

/-- The arithmetic of both `get_hashpartition_idx` and `getHashPartitionIdx` on a hash value. -/
def ownerOf (partitionCount servers hashval : Nat) : Nat :=
  if hashval / (partitionCount / servers) = servers then hashval / (partitionCount / servers) - 1
  else hashval / (partitionCount / servers)

theorem getHashpartitionIdx_eq (key : Key) : key.getHashpartitionIdx partitionCount servers =
    if ownerOf partitionCount servers (key.hashBycrc32.toNat % partitionCount) < servers then
      some (ownerOf partitionCount servers (key.hashBycrc32.toNat % partitionCount)) else none := rfl

theorem getHashPartitionIdx_eq (key : Key) : key.getHashPartitionIdx partitionCount servers =
    ownerOf partitionCount servers (key.hashBycrc32.toNat % partitionCount) := rfl

/-- In an almost even split the range of a server holds just the hash values it owns. -/
theorem inRange_iff_of_even (positive : 1 ≤ servers) (enough : servers ≤ partitionCount)
    (small : partitionCount ≤ 2 ^ 16) (even : partitionCount % servers ≤ 1) {hashval : Nat}
    (below : hashval < partitionCount) :
    ownerOf partitionCount servers hashval < servers ∧ ∀ server < servers,
      InRange (hashRange partitionCount servers server) hashval ↔
        server = ownerOf partitionCount servers hashval := by
  have split := Nat.div_add_mod partitionCount servers
  have widthPos : 1 ≤ partitionCount / servers := Nat.div_pos enough positive
  have ranges := fun server inside => @hashRange_of_even _ _ positive enough small even server inside
  unfold ownerOf
  generalize partitionCount / servers = width at split widthPos ranges ⊢
  have quotient := Nat.div_add_mod hashval width
  have rest := Nat.mod_lt hashval widthPos
  generalize hashval / width = owner at quotient ⊢
  have atMost : owner ≤ servers := by
    by_contra more
    have product : width * (servers + 1) ≤ width * owner := Nat.mul_le_mul_left width (by omega)
    rw [Nat.mul_add, Nat.mul_one, Nat.mul_comm width servers] at product
    omega
  refine ⟨by split <;> omega, fun server inside => ?_⟩
  rw [ranges server inside]
  unfold InRange
  dsimp only
  rw [Nat.mul_comm server width, Nat.mul_comm (server + 1) width]
  -- the ranges of the servers are compared through the products of their numbers with the width
  have order : ∀ {left right : Nat}, left < right → width * left + width ≤ width * right := by
    intro left right less
    have product := Nat.mul_le_mul_left width (Nat.succ_le_of_lt less)
    rwa [Nat.mul_succ] at product
  have next : width * (server + 1) = width * server + width := Nat.mul_succ width server
  rcases Nat.lt_trichotomy owner server with less | same | more
  · have gap := order less
    refine iff_of_false (fun inRange => ?_) (by split <;> omega)
    omega
  · subst same
    refine iff_of_true ⟨by omega, ?_⟩ (by split <;> omega)
    split <;> omega
  · have gap := order more
    by_cases isLast : server = servers - 1
    · refine iff_of_true ⟨by omega, ?_⟩ (by split <;> omega)
      rw [if_pos isLast]
      omega
    · refine iff_of_false (fun inRange => ?_) (by split <;> omega)
      rw [if_neg isLast] at inRange
      omega

theorem ownershipAgrees_of_even (positive : 1 ≤ servers) (enough : servers ≤ partitionCount)
    (small : partitionCount ≤ 2 ^ 16) (even : partitionCount % servers ≤ 1) :
    OwnershipAgrees partitionCount servers := by
  constructor
  · intro key
    have below : key.hashBycrc32.toNat % partitionCount < partitionCount := Nat.mod_lt _ (by omega)
    obtain ⟨inside, ranges⟩ := inRange_iff_of_even positive enough small even below
    refine ⟨_, inside, ?_, getHashPartitionIdx_eq key, ?_⟩
    · rw [getHashpartitionIdx_eq, if_pos inside]
    · have field : key.hashvalForPartition partitionCount = key.hashBycrc32.toNat % partitionCount :=
        Nat.mod_eq_of_lt (by omega)
      rw [field]
      exact ranges
  · intro hashval below
    obtain ⟨inside, ranges⟩ := inRange_iff_of_even positive enough small even below
    refine ⟨_, ⟨inside, (ranges _ inside).mpr rfl⟩, ?_⟩
    rintro server ⟨serverInside, inRange⟩
    exact (ranges server serverInside).mp inRange

theorem ownershipAgrees_of_single (positive : 1 ≤ partitionCount) : OwnershipAgrees partitionCount 1 := by
  have owner : ∀ hashval < partitionCount, ownerOf partitionCount 1 hashval = 0 := by
    intro hashval below
    simp [ownerOf, Nat.div_eq_of_lt below]
  have range : hashRange partitionCount 1 0 = (0, ((partitionCount - 1 : Nat) : ℤ)) := by
    have cast : (partitionCount : ℚ) - 1 = (partitionCount - 1 : Nat) := by
      rw [Nat.cast_sub positive, Nat.cast_one]
    simp only [hashRange, hashStart, hashEnd, if_true, cast, truncate_natCast]
    simp [truncate]
  constructor
  · intro key
    have below : key.hashBycrc32.toNat % partitionCount < partitionCount := Nat.mod_lt _ (by omega)
    refine ⟨0, by omega, ?_, ?_, ?_⟩
    · rw [getHashpartitionIdx_eq, owner _ below]
      rfl
    · rw [getHashPartitionIdx_eq, owner _ below]
    · intro server inside
      have first : server = 0 := by omega
      subst first
      have field : key.hashvalForPartition partitionCount < partitionCount :=
        lt_of_le_of_lt (Nat.mod_le _ _) below
      rw [range]
      refine iff_of_true ⟨by simp, ?_⟩ rfl
      dsimp only
      omega
  · intro hashval below
    refine ⟨0, ⟨by omega, ?_⟩, fun server => by omega⟩
    rw [range]
    refine ⟨by simp, ?_⟩
    dsimp only
    omega

theorem exists_key_mod {hashval : Nat} (below : hashval < partitionCount) (small : partitionCount ≤ 2 ^ 32) :
    ∃ key : Key, key.hashBycrc32.toNat % partitionCount = hashval := by
  obtain ⟨key, hash⟩ := exists_hashBycrc32 (UInt32.ofNat hashval)
  refine ⟨key, ?_⟩
  have fits : hashval < 2 ^ 32 := by omega
  rw [hash, UInt32.toNat_ofNat_of_lt' fits, Nat.mod_eq_of_lt below]

/-- More hash values than the 16-bit field can tell apart, and at least two servers: some key of another
server is hashed to 0 in the switch. -/
theorem ownership_fails_of_large (several : 2 ≤ servers) (enough : servers ≤ partitionCount)
    (large : 2 ^ 16 < partitionCount) (small : partitionCount ≤ 2 ^ 32) :
    ¬ OwnershipAgrees partitionCount servers := by
  intro agrees
  have widthPos : 1 ≤ partitionCount / servers := Nat.div_pos enough (by omega)
  have half : 2 * (partitionCount / servers) ≤ partitionCount :=
    (Nat.mul_le_mul_right _ several).trans (Nat.mul_div_le partitionCount servers)
  have wraps : ∃ factor, partitionCount / servers ≤ 2 ^ 16 * factor ∧ 2 ^ 16 * factor < partitionCount := by
    refine ⟨(partitionCount / servers + (2 ^ 16 - 1)) / 2 ^ 16, ?_, ?_⟩ <;> omega
  obtain ⟨factor, atLeast, below⟩ := wraps
  obtain ⟨key, hash⟩ := exists_key_mod below small
  obtain ⟨idx, inside, computed, client, ranges⟩ := agrees.owner key
  have field : key.hashvalForPartition partitionCount = 0 := by
    unfold Key.hashvalForPartition
    rw [hash]
    omega
  have first : 0 = idx := by
    refine (ranges 0 (by omega)).mp ?_
    rw [field]
    exact zero_inRange_first (by omega) enough
  rw [getHashPartitionIdx_eq, hash] at client
  have quotient : 1 ≤ 2 ^ 16 * factor / (partitionCount / servers) := Nat.div_pos atLeast widthPos
  unfold ownerOf at client
  split at client <;> omega

/-- Two or more hash values too many: the first one of the last server is sent to the one before. -/
theorem ownership_fails_of_uneven (positive : 1 ≤ servers) (enough : servers ≤ partitionCount)
    (small : partitionCount ≤ 2 ^ 16) (uneven : 2 ≤ partitionCount % servers) :
    ¬ OwnershipAgrees partitionCount servers := by
  intro agrees
  have widthPos : 1 ≤ partitionCount / servers := Nat.div_pos enough positive
  have below : (servers - 1) * (partitionCount / servers) < partitionCount := by
    have less : (servers - 1) * (partitionCount / servers) < servers * (partitionCount / servers) :=
      Nat.mul_lt_mul_of_pos_right (by omega) widthPos
    exact less.trans_le (Nat.mul_div_le partitionCount servers)
  obtain ⟨key, hash⟩ := exists_key_mod below (by omega)
  obtain ⟨idx, inside, computed, client, ranges⟩ := agrees.owner key
  have field : key.hashvalForPartition partitionCount = (servers - 1) * (partitionCount / servers) := by
    unfold Key.hashvalForPartition
    rw [hash, Nat.mod_eq_of_lt (by omega)]
  have last : servers - 1 = idx := by
    rw [getHashPartitionIdx_eq, hash] at client
    rw [← client, ownerOf, Nat.mul_div_cancel _ widthPos, if_neg (by omega)]
  have inRange := ((ranges (servers - 1) (by omega)).mpr last).1
  rw [field] at inRange
  exact absurd (hashRange_of_uneven enough small positive uneven) (not_lt.mpr inRange)

end Owners

/-- Switch, server and client agree on the owner of every key, and the ranges of the table cover every
hash value once, exactly if there is one server, or the hash values fit the field of the switch and at
most one is left over when they are split evenly. The counts are 32-bit integers. -/
theorem ownership_agrees_iff {partitionCount servers : Nat} (positive : 1 ≤ servers)
    (enough : servers ≤ partitionCount) (representable : partitionCount < 2 ^ 31) :
    OwnershipAgrees partitionCount servers ↔
      servers = 1 ∨ (partitionCount ≤ 2 ^ 16 ∧ partitionCount % servers ≤ 1) := by
  constructor
  · intro agrees
    by_contra neither
    by_cases large : 2 ^ 16 < partitionCount
    · exact ownership_fails_of_large (by omega) enough large (by omega) agrees
    · exact ownership_fails_of_uneven positive enough (by omega) (by omega) agrees
  · rintro (rfl | ⟨small, even⟩)
    · exact ownershipAgrees_of_single enough
    · exact ownershipAgrees_of_even positive enough small even

theorem ownership_agrees_for_four : OwnershipAgrees 32768 4 :=
  (ownership_agrees_iff (by decide) (by decide) (by decide)).mpr (Or.inr ⟨by decide, by decide⟩)

/-- 32768 hash values and three servers: this key has the hash value 21844, is owned by server 2 for the
client and the servers, and is matched by the range of server 1. -/
theorem ownership_disagrees_for_three :
    Key.getHashpartitionIdx ⟨8645, 0, 0, 0⟩ 32768 3 = some 2 ∧
      Key.hashvalForPartition ⟨8645, 0, 0, 0⟩ 32768 = 21844 ∧
      InRange (hashRange 32768 3 1) 21844 ∧ ¬ OwnershipAgrees 32768 3 := by
  have owned : Key.getHashpartitionIdx ⟨8645, 0, 0, 0⟩ 32768 3 = some 2 := by decide +kernel
  have hashval : Key.hashvalForPartition ⟨8645, 0, 0, 0⟩ 32768 = 21844 := by decide +kernel
  have matched : InRange (hashRange 32768 3 1) 21844 := by
    unfold InRange
    decide +kernel
  refine ⟨owned, hashval, matched, fun agrees => ?_⟩
  obtain ⟨idx, _, computed, _, ranges⟩ := agrees.owner ⟨8645, 0, 0, 0⟩
  have second : idx = 2 := Option.some.inj (computed.symm.trans owned)
  have first : 1 = idx := by
    refine (ranges 1 (by omega)).mp ?_
    rwa [hashval]
  omega

end FarReach
