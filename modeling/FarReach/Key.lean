import Mathlib

namespace FarReach

/-- The 16-byte key of `common/key.h` (`LARGE_KEY`), as its four 32-bit words. -/
structure Key where
  keylolo : UInt32
  keylohi : UInt32
  keyhilo : UInt32
  keyhihi : UInt32
  deriving DecidableEq, Repr

namespace Key

/-- `operator<`: the words are compared from `keyhihi` down to `keylolo`. -/
def lt (l r : Key) : Bool :=
  (l.keyhihi < r.keyhihi) || ((l.keyhihi == r.keyhihi) && (l.keyhilo < r.keyhilo)) ||
    ((l.keyhihi == r.keyhihi) && (l.keyhilo == r.keyhilo) && (l.keylohi < r.keylohi)) ||
    ((l.keyhihi == r.keyhihi) && (l.keyhilo == r.keyhilo) && (l.keylohi == r.keylohi) &&
      (l.keylolo < r.keylolo))

/-- The comparison a `std::map` keyed by `Key` runs on. -/
instance : Ord Key :=
  ⟨compareLex (compareOn keyhihi) (compareLex (compareOn keyhilo)
    (compareLex (compareOn keylohi) (compareOn keylolo)))⟩

theorem compare_def (l r : Key) : compare l r =
    ((compare l.keyhihi r.keyhihi).then ((compare l.keyhilo r.keyhilo).then
      ((compare l.keylohi r.keylohi).then (compare l.keylolo r.keylolo)))) := rfl

instance : Std.TransOrd Key := inferInstanceAs (Std.TransCmp (compareLex _ _))

instance : Std.LawfulEqOrd Key where
  compare_self := Std.ReflCmp.compare_self
  eq_of_compare {l r} same := by
    rw [compare_def] at same
    simp only [Ordering.then_eq_eq, Std.LawfulEqOrd.compare_eq_iff_eq] at same
    obtain ⟨hihi, hilo, lohi, lolo⟩ := same
    cases l
    cases r
    simp_all

theorem compare_eq_lt_iff (l r : Key) : compare l r = .lt ↔ l.lt r = true := by
  rw [compare_def]
  simp only [Ordering.then_eq_lt, Std.compare_eq_lt, Std.LawfulEqOrd.compare_eq_iff_eq, lt,
    Bool.or_eq_true, Bool.and_eq_true, beq_iff_eq,
    decide_eq_true_eq]
  tauto

theorem lt_irrefl (key : Key) : key.lt key = false := by
  have self : compare key key = .eq := Std.LawfulEqOrd.compare_eq_iff_eq.mpr rfl
  rw [← Bool.not_eq_true, ← compare_eq_lt_iff, self]
  decide

theorem lt_of_ne_of_not_lt {l r : Key} (apart : l ≠ r) (notBefore : ¬ l.lt r = true) : r.lt l = true := by
  rw [← compare_eq_lt_iff] at notBefore ⊢
  rw [← Std.OrientedCmp.gt_iff_lt]
  cases order : compare l r with
  | lt => exact absurd order notBefore
  | eq => exact absurd (Std.LawfulEqOrd.compare_eq_iff_eq.mp order) apart
  | gt => rfl

def bytes32 (word : UInt32) : List UInt8 :=
  [(word >>> 24).toUInt8, (word >>> 16).toUInt8, (word >>> 8).toUInt8, word.toUInt8]

def bytes16 (half : UInt16) : List UInt8 := [(half >>> 8).toUInt8, half.toUInt8]

/-- `Key::serialize`: three big-endian words, then the two halves of `keyhihi`, low half first. -/
def serialize (key : Key) : List UInt8 :=
  bytes32 key.keylolo ++ bytes32 key.keylohi ++ bytes32 key.keyhilo ++
    bytes16 (key.keyhihi &&& 0xFFFF).toUInt16 ++ bytes16 ((key.keyhihi >>> 16) &&& 0xFFFF).toUInt16

end Key

def crc32Bit (crc : UInt32) : UInt32 :=
  let mask := 0 - (crc &&& 1)
  (crc >>> 1) ^^^ (0xEDB88320 &&& mask)

def crc32Byte (crc : UInt32) (byte : UInt8) : UInt32 :=
  (List.range 8).foldl (fun crc _ => crc32Bit crc) (crc ^^^ byte.toUInt32)

def crc32 (message : List UInt8) : UInt32 := ~~~ message.foldl crc32Byte 0xFFFFFFFF

namespace Key

def hashBycrc32 (key : Key) : UInt32 := crc32 key.serialize

/-- `Key::get_hashpartition_idx`; the final `INVARIANT` aborts with `none`. -/
def getHashpartitionIdx (key : Key) (partitionnum servernum : Nat) : Option Nat :=
  let hashresult := key.hashBycrc32.toNat % partitionnum
  let targetidx := hashresult / (partitionnum / servernum)
  let targetidx := if targetidx = servernum then targetidx - 1 else targetidx
  if targetidx < servernum then some targetidx else none

/-- When the partitions split evenly over the servers the final check never fires. -/
theorem getHashpartitionIdx_isSome (key : Key) {partitionnum servernum : Nat}
    (positive : 0 < partitionnum) (divides : servernum ∣ partitionnum) :
    (key.getHashpartitionIdx partitionnum servernum).isSome := by
  obtain ⟨width, rfl⟩ := divides
  have servers : 0 < servernum := Nat.pos_of_mul_pos_right positive
  have hash := Nat.mod_lt key.hashBycrc32.toNat positive
  have inside : key.hashBycrc32.toNat % (servernum * width) / width < servernum :=
    Nat.div_lt_of_lt_mul (hash.trans_eq (Nat.mul_comm servernum width))
  unfold getHashpartitionIdx
  simp only [Nat.mul_div_cancel_left width servers]
  rw [if_neg (Nat.ne_of_lt inside), if_pos inside]
  rfl

end Key

end FarReach
