import FarReach.RangeScan

namespace FarReach

def Key.le (l r : Key) : Bool :=
  (l.keyhihi < r.keyhihi) || ((l.keyhihi == r.keyhihi) && (l.keyhilo < r.keyhilo)) ||
    ((l.keyhihi == r.keyhihi) && (l.keyhilo == r.keyhilo) && (l.keylohi < r.keylohi)) ||
    ((l.keyhihi == r.keyhihi) && (l.keyhilo == r.keyhilo) && (l.keylohi == r.keylohi) &&
      (l.keylolo ≤ r.keylolo))

/-- The keys of a server under range partition. -/
structure ServerRange where
  minStartkey : Key
  maxEndkey : Key
  deriving DecidableEq, Repr

def perserverKeyrange (maxServerTotalLogicalNum : UInt32) : UInt64 := 64 * 1024 / maxServerTotalLogicalNum.toUInt64

/-- The range `run_server_worker` computes when it starts, and its three assertions. -/
def ServerRange.ofServer (maxServerTotalLogicalNum : UInt32) (globalServerLogicalIdx : UInt16) : Option ServerRange :=
  let minStartkeyhihihi := globalServerLogicalIdx.toUInt64 * perserverKeyrange maxServerTotalLogicalNum
  let maxEndkeyhihihi := minStartkeyhihihi - 1 + perserverKeyrange maxServerTotalLogicalNum
  if minStartkeyhihihi ≤ 65535 ∧ maxEndkeyhihihi ≤ 65535 ∧ minStartkeyhihihi ≤ maxEndkeyhihihi then
    some
      { minStartkey := ⟨0, 0, 0, (minStartkeyhihihi <<< 16).toUInt32⟩
        maxEndkey := ⟨0xFFFFFFFF, 0xFFFFFFFF, 0xFFFFFFFF, ((maxEndkeyhihihi <<< 16) ||| 0xFFFF).toUInt32⟩ }
  else none

/-- The range of keys with which a `SCANREQ_SPLIT` is passed on to `range_scan`, behind its two checks. -/
def ServerRange.curRange (range : ServerRange) (key endkey : Key) : Option (Key × Key) :=
  if key.le range.maxEndkey ∧ range.minStartkey.le endkey then
    some (if key.lt range.minStartkey then range.minStartkey else key,
      if range.maxEndkey.lt endkey then range.maxEndkey else endkey)
  else none

/-- The number of records `range_scan` looks for, unless an assertion fails. -/
def ServerRange.scanrecordcnt (range : ServerRange) (key endkey : Key) : Option Nat := do
  let (curStartkey, curEndkey) ← range.curRange key endkey
  curStartkey.getScanrecordcnt curEndkey

theorem ServerRange.ofServer_keylolo {maxServerTotalLogicalNum : UInt32} {globalServerLogicalIdx : UInt16}
    {range : ServerRange} (started : ofServer maxServerTotalLogicalNum globalServerLogicalIdx = some range) :
    range.minStartkey.keylolo = 0 ∧ range.maxEndkey.keylolo = 0xFFFFFFFF := by
  unfold ofServer at started
  dsimp only at started
  split at started
  · cases started
    exact ⟨rfl, rfl⟩
  · cases started

/-- The count depends on the difference of the low words only. -/
theorem Key.getScanrecordcnt_eq_iff {startkey endkey curStartkey curEndkey : Key} {count : Nat}
    (asked : startkey.getScanrecordcnt endkey = some count) :
    curStartkey.getScanrecordcnt curEndkey = some count ↔
      curEndkey.keylolo - curStartkey.keylolo = endkey.keylolo - startkey.keylolo := by
  unfold getScanrecordcnt at asked ⊢
  dsimp only at asked ⊢
  split at asked
  · rename_i inside
    rw [Option.some.injEq] at asked
    constructor
    · intro counted
      split at counted
      · rw [Option.some.injEq] at counted
        exact UInt32.toNat_inj.mp (counted.trans asked.symm)
      · cases counted
    · intro same
      rw [same, if_pos inside, asked]
  · cases asked

/-- Behind the clamp a scan is for as many records as the client asked for exactly if a bound that
replaced a key of the client has the same low word. -/
theorem ServerRange.scanrecordcnt_eq_iff (maxServerTotalLogicalNum : UInt32) (globalServerLogicalIdx : UInt16)
    (range : ServerRange) (started : ofServer maxServerTotalLogicalNum globalServerLogicalIdx = some range)
    (key endkey : Key) (startsInside : key.le range.maxEndkey) (endsInside : range.minStartkey.le endkey)
    (count : Nat) (asked : key.getScanrecordcnt endkey = some count) :
    range.scanrecordcnt key endkey = some count ↔
      (key.lt range.minStartkey → key.keylolo = 0) ∧
        (range.maxEndkey.lt endkey → endkey.keylolo = 0xFFFFFFFF) := by
  obtain ⟨minLow, maxLow⟩ := ofServer_keylolo started
  have few : endkey.keylolo - key.keylolo ≠ 0xFFFFFFFF := by
    intro whole
    unfold Key.getScanrecordcnt at asked
    rw [whole] at asked
    cases asked
  unfold scanrecordcnt curRange
  rw [if_pos ⟨startsInside, endsInside⟩]
  change Key.getScanrecordcnt (ite _ _ _) (ite _ _ _) = some count ↔ _
  rw [Key.getScanrecordcnt_eq_iff asked]
  by_cases before : key.lt range.minStartkey = true
  · by_cases behind : range.maxEndkey.lt endkey = true
    · -- both bounds together ask for all words but one
      rw [if_pos before, if_pos behind, minLow, maxLow]
      simp only [before, behind, true_implies]
      constructor
      · intro same
        exact absurd same.symm few
      · rintro ⟨low, high⟩
        rw [low, high]
    · rw [if_pos before, if_neg behind, minLow]
      simp only [before, behind, Bool.false_eq_true, true_implies, false_implies, and_true]
      grind
  · by_cases behind : range.maxEndkey.lt endkey = true
    · rw [if_neg before, if_pos behind, maxLow]
      simp only [before, behind, Bool.false_eq_true, true_implies, false_implies, true_and]
      grind
    · rw [if_neg before, if_neg behind]
      simp only [before, behind, Bool.false_eq_true, false_implies, and_self]

/-- The second of two servers, and a scan that begins on the first one: its first key is replaced by one with the same
low word. -/
theorem ServerRange.scanrecordcnt_eq_iff_clamped :
    ∃ range, ofServer 2 1 = some range ∧ (⟨0, 0, 0, 0⟩ : Key).lt range.minStartkey ∧
      range.scanrecordcnt ⟨0, 0, 0, 0⟩ ⟨5, 0, 0, 0x80000000⟩ = some 5 := by
  refine ⟨⟨⟨0, 0, 0, 0x80000000⟩, ⟨0xFFFFFFFF, 0xFFFFFFFF, 0xFFFFFFFF, 0xFFFFFFFF⟩⟩, by decide, by decide, ?_⟩
  exact (scanrecordcnt_eq_iff 2 1 _ (by decide) ⟨0, 0, 0, 0⟩ ⟨5, 0, 0, 0x80000000⟩ (by decide) (by decide) 5
    (by decide)).mpr ⟨fun _ => rfl, fun ends => absurd ends (by decide)⟩

/-- A scan for 5 records that begins on the first of two servers is one for 10 on the second. On the middle
one of three servers a scan that begins before it and ends behind it is stopped by an assertion. -/
theorem clamped_scan_counts_wrongly :
    (∃ range, ServerRange.ofServer 2 1 = some range ∧
        (⟨5, 0, 0, 0⟩ : Key).getScanrecordcnt ⟨10, 0, 0, 0x80000000⟩ = some 5 ∧
        range.scanrecordcnt ⟨5, 0, 0, 0⟩ ⟨10, 0, 0, 0x80000000⟩ = some 10) ∧
      ∃ range, ServerRange.ofServer 3 1 = some range ∧
        (⟨5, 0, 0, 0⟩ : Key).getScanrecordcnt ⟨10, 0, 0, 0xC0000000⟩ = some 5 ∧
        (range.curRange ⟨5, 0, 0, 0⟩ ⟨10, 0, 0, 0xC0000000⟩).isSome ∧
        range.scanrecordcnt ⟨5, 0, 0, 0⟩ ⟨10, 0, 0, 0xC0000000⟩ = none := by
  refine ⟨⟨⟨⟨0, 0, 0, 0x80000000⟩, ⟨0xFFFFFFFF, 0xFFFFFFFF, 0xFFFFFFFF, 0xFFFFFFFF⟩⟩, ?_⟩,
    ⟨⟨0, 0, 0, 0x55550000⟩, ⟨0xFFFFFFFF, 0xFFFFFFFF, 0xFFFFFFFF, 0xAAA9FFFF⟩⟩, ?_⟩
  · decide
  · decide

end FarReach
