import FarReach.ByteOrder
import FarReach.FieldCodec
import FarReach.ScanClamp

namespace FarReach

open Bytes

namespace Key

def gt (l r : Key) : Bool :=
  (l.keyhihi > r.keyhihi) || ((l.keyhihi == r.keyhihi) && (l.keyhilo > r.keyhilo)) ||
    ((l.keyhihi == r.keyhihi) && (l.keyhilo == r.keyhilo) && (l.keylohi > r.keylohi)) ||
    ((l.keyhihi == r.keyhihi) && (l.keyhilo == r.keyhilo) && (l.keylohi == r.keylohi) &&
      (l.keylolo > r.keylolo))

def ge (l r : Key) : Bool :=
  (l.keyhihi > r.keyhihi) || ((l.keyhihi == r.keyhihi) && (l.keyhilo > r.keyhilo)) ||
    ((l.keyhihi == r.keyhihi) && (l.keyhilo == r.keyhilo) && (l.keylohi > r.keylohi)) ||
    ((l.keyhihi == r.keyhihi) && (l.keyhilo == r.keyhilo) && (l.keylohi == r.keylohi) &&
      (l.keylolo ≥ r.keylolo))

def eq (l r : Key) : Bool :=
  (l.keyhihi == r.keyhihi) && (l.keyhilo == r.keyhilo) && (l.keylohi == r.keylohi) && (l.keylolo == r.keylolo)

def ne (l r : Key) : Bool :=
  (l.keyhihi != r.keyhihi) || (l.keyhilo != r.keyhilo) || (l.keylohi != r.keylohi) || (l.keylolo != r.keylolo)

/-- `to_string_for_rocksdb`: from the most significant byte to the least significant one. -/
def toStringForRocksdb (key : Key) : List UInt8 :=
  let keyhihilo := (key.keyhihi &&& 0xFFFF).toUInt16
  let keyhihihi := ((key.keyhihi >>> 16) &&& 0xFFFF).toUInt16
  [((keyhihihi >>> 8) &&& 0xFF).toUInt8, (keyhihihi &&& 0xFF).toUInt8,
    ((keyhihilo >>> 8) &&& 0xFF).toUInt8, (keyhihilo &&& 0xFF).toUInt8,
    ((key.keyhilo >>> 24) &&& 0xFF).toUInt8, ((key.keyhilo >>> 16) &&& 0xFF).toUInt8,
    ((key.keyhilo >>> 8) &&& 0xFF).toUInt8, (key.keyhilo &&& 0xFF).toUInt8,
    ((key.keylohi >>> 24) &&& 0xFF).toUInt8, ((key.keylohi >>> 16) &&& 0xFF).toUInt8,
    ((key.keylohi >>> 8) &&& 0xFF).toUInt8, (key.keylohi &&& 0xFF).toUInt8,
    ((key.keylolo >>> 24) &&& 0xFF).toUInt8, ((key.keylolo >>> 16) &&& 0xFF).toUInt8,
    ((key.keylolo >>> 8) &&& 0xFF).toUInt8, (key.keylolo &&& 0xFF).toUInt8]

def wordAt (keystr : List UInt8) (i : Nat) : Option UInt32 := do
  let byte0 ← keystr[i]?
  let byte1 ← keystr[i + 1]?
  let byte2 ← keystr[i + 2]?
  let byte3 ← keystr[i + 3]?
  some ((byte0.toUInt32 <<< 24) ||| (byte1.toUInt32 <<< 16) ||| (byte2.toUInt32 <<< 8) ||| byte3.toUInt32)

def halfAt (keystr : List UInt8) (i : Nat) : Option UInt16 := do
  let byte0 ← keystr[i]?
  let byte1 ← keystr[i + 1]?
  some ((byte0.toUInt16 <<< 8) ||| byte1.toUInt16)

/-- `from_string_for_rocksdb`; a string of less than 16 bytes has no result. -/
def fromStringForRocksdb (keystr : List UInt8) : Option Key := do
  let keyhihihi ← halfAt keystr 0
  let keyhihilo ← halfAt keystr 2
  let keyhihi := (keyhihihi.toUInt32 <<< 16) ||| keyhihilo.toUInt32
  let keyhilo ← wordAt keystr 4
  let keylohi ← wordAt keystr 8
  let keylolo ← wordAt keystr 12
  some ⟨keylolo, keylohi, keyhilo, keyhihi⟩

def value (key : Key) : Nat :=
  ((key.keyhihi.toNat * 2 ^ 32 + key.keyhilo.toNat) * 2 ^ 32 + key.keylohi.toNat) * 2 ^ 32 + key.keylolo.toNat

/-- Numbers compare from the highest word down. -/
theorem value_lt_iff (l r : Key) : l.value < r.value ↔ l.keyhihi.toNat < r.keyhihi.toNat ∨
    l.keyhihi.toNat = r.keyhihi.toNat ∧ (l.keyhilo.toNat < r.keyhilo.toNat ∨ l.keyhilo.toNat = r.keyhilo.toNat ∧
      (l.keylohi.toNat < r.keylohi.toNat ∨ l.keylohi.toNat = r.keylohi.toNat ∧
        l.keylolo.toNat < r.keylolo.toNat)) := by
  have bounds : ∀ word : UInt32, word.toNat < 2 ^ 32 := UInt32.toNat_lt
  rw [value, value, leading_lt_iff (bounds _) (bounds _), leading_lt_iff (bounds _) (bounds _),
    leading_lt_iff (bounds _) (bounds _), leading_eq_iff (bounds _) (bounds _), leading_eq_iff (bounds _) (bounds _),
    leading_eq_iff (bounds _) (bounds _)]
  omega

theorem value_eq_iff (l r : Key) : l.value = r.value ↔ l.keyhihi.toNat = r.keyhihi.toNat ∧
    l.keyhilo.toNat = r.keyhilo.toNat ∧ l.keylohi.toNat = r.keylohi.toNat ∧ l.keylolo.toNat = r.keylolo.toNat := by
  have bounds : ∀ word : UInt32, word.toNat < 2 ^ 32 := UInt32.toNat_lt
  rw [value, value, leading_eq_iff (bounds _) (bounds _), leading_eq_iff (bounds _) (bounds _),
    leading_eq_iff (bounds _) (bounds _)]
  omega

theorem operators_iff_value (l r : Key) :
    (l.lt r = true ↔ l.value < r.value) ∧ (l.gt r = true ↔ r.value < l.value) ∧ (l.le r = true ↔ l.value ≤ r.value) ∧
      (l.ge r = true ↔ r.value ≤ l.value) ∧ (l.eq r = true ↔ l.value = r.value) ∧
      (l.ne r = true ↔ l.value ≠ r.value) := by
  simp only [lt, gt, le, ge, eq, ne, Bool.or_eq_true, Bool.and_eq_true, beq_iff_eq, bne_iff_ne, decide_eq_true_eq,
    gt_iff_lt, ge_iff_le, UInt32.lt_iff_toNat_lt, UInt32.le_iff_toNat_le, ← UInt32.toNat_inj, Nat.le_iff_lt_or_eq,
    value_lt_iff, value_eq_iff, ne_eq]
  refine ⟨?_, ?_, ?_, ?_, ?_, ?_⟩ <;> omega

theorem value_injective : Function.Injective value := by
  intro l r same
  have words := (operators_iff_value l r).2.2.2.2.1.mpr same
  simp only [eq, Bool.and_eq_true, beq_iff_eq] at words
  obtain ⟨⟨⟨hihi, hilo⟩, lohi⟩, lolo⟩ := words
  cases l
  cases r
  simp_all

theorem toStringForRocksdb_eq (key : Key) :
    key.toStringForRocksdb = bytes32 key.keyhihi ++ bytes32 key.keyhilo ++ bytes32 key.keylohi ++
      bytes32 key.keylolo := by
  have mask : ∀ n : Nat, n &&& 255 = n % 256 := fun n => Nat.and_two_pow_sub_one_eq_mod n 8
  have halfMask : ∀ n : Nat, n &&& 65535 = n % 65536 := fun n => Nat.and_two_pow_sub_one_eq_mod n 16
  simp only [toStringForRocksdb, bytes32, List.cons_append, List.nil_append, List.cons.injEq, and_true]
  refine ⟨?_, ?_, ?_, ?_, ?_, ?_, ?_, ?_, ?_, ?_, ?_, ?_, ?_, ?_, ?_, ?_⟩ <;> refine UInt8.toNat_inj.mp ?_ <;>
    simp [Nat.shiftRight_eq_div_pow, mask, halfMask] <;> omega

theorem ofBigEndian_toStringForRocksdb (key : Key) : ofBigEndian key.toStringForRocksdb = key.value := by
  have word : ∀ word : UInt32, ofBigEndian (bytes32 word) = word.toNat := fun word => by
    rw [bytes32_eq, ofBigEndian_bigEndian word.toNat_lt]
  simp only [toStringForRocksdb_eq, ofBigEndian_append, word, length_bytes32, value]
  norm_num

theorem toStringForRocksdb_lt_iff (l r : Key) : l.toStringForRocksdb < r.toStringForRocksdb ↔ l.value < r.value := by
  have sizes : l.toStringForRocksdb.length = r.toStringForRocksdb.length := rfl
  rw [lt_iff_ofBigEndian_lt sizes, ofBigEndian_toStringForRocksdb, ofBigEndian_toStringForRocksdb]

theorem toStringForRocksdb_injective : Function.Injective toStringForRocksdb := by
  intro l r same
  refine value_injective ?_
  rw [← ofBigEndian_toStringForRocksdb, ← ofBigEndian_toStringForRocksdb, same]

/-- A shifted number joined by `|` with one that is below the shift. -/
theorem or_eq_add {shift high low : Nat} (below : low < 2 ^ shift) :
    high * 2 ^ shift ||| low = high * 2 ^ shift + low := by
  rw [Nat.mul_comm, ← Nat.two_pow_add_eq_or_of_lt below]

theorem toNat_joinedHalf (byte0 byte1 : UInt8) :
    ((byte0.toUInt16 <<< 8) ||| byte1.toUInt16).toNat = byte0.toNat * 2 ^ 8 + byte1.toNat := by
  have bound0 := byte0.toNat_lt
  have bound1 := byte1.toNat_lt
  have shifted : (byte0.toUInt16 <<< 8).toNat = byte0.toNat * 2 ^ 8 := by
    simp only [UInt16.toNat_shiftLeft, UInt8.toNat_toUInt16, UInt16.reduceToNat, Nat.reduceMod, Nat.shiftLeft_eq]
    omega
  rw [UInt16.toNat_or, shifted, UInt8.toNat_toUInt16, or_eq_add bound1]

theorem toNat_joinedHalves (half0 half1 : UInt16) :
    ((half0.toUInt32 <<< 16) ||| half1.toUInt32).toNat = half0.toNat * 2 ^ 16 + half1.toNat := by
  have bound0 := half0.toNat_lt
  have bound1 := half1.toNat_lt
  have shifted : (half0.toUInt32 <<< 16).toNat = half0.toNat * 2 ^ 16 := by
    simp only [UInt32.toNat_shiftLeft, UInt16.toNat_toUInt32, UInt32.reduceToNat, Nat.reduceMod, Nat.shiftLeft_eq]
    omega
  rw [UInt32.toNat_or, shifted, UInt16.toNat_toUInt32, or_eq_add bound1]

theorem toNat_joinedBytes (byte0 byte1 byte2 byte3 : UInt8) :
    ((byte0.toUInt32 <<< 24) ||| (byte1.toUInt32 <<< 16) ||| (byte2.toUInt32 <<< 8) ||| byte3.toUInt32).toNat =
      (byte0.toNat * 2 ^ 8 + byte1.toNat) * 2 ^ 16 + (byte2.toNat * 2 ^ 8 + byte3.toNat) := by
  have bound0 := byte0.toNat_lt
  have bound1 := byte1.toNat_lt
  have bound2 := byte2.toNat_lt
  have bound3 := byte3.toNat_lt
  have shifted0 : (byte0.toUInt32 <<< 24).toNat = byte0.toNat * 2 ^ 24 := by
    simp only [UInt32.toNat_shiftLeft, UInt8.toNat_toUInt32, UInt32.reduceToNat, Nat.reduceMod, Nat.shiftLeft_eq]
    omega
  have shifted1 : (byte1.toUInt32 <<< 16).toNat = byte1.toNat * 2 ^ 16 := by
    simp only [UInt32.toNat_shiftLeft, UInt8.toNat_toUInt32, UInt32.reduceToNat, Nat.reduceMod, Nat.shiftLeft_eq]
    omega
  have shifted2 : (byte2.toUInt32 <<< 8).toNat = byte2.toNat * 2 ^ 8 := by
    simp only [UInt32.toNat_shiftLeft, UInt8.toNat_toUInt32, UInt32.reduceToNat, Nat.reduceMod, Nat.shiftLeft_eq]
    omega
  -- each byte stays below the shift of the one before
  have upper : byte0.toNat * 2 ^ 24 + byte1.toNat * 2 ^ 16 = (byte0.toNat * 2 ^ 8 + byte1.toNat) * 2 ^ 16 := by ring
  have most : (byte0.toNat * 2 ^ 8 + byte1.toNat) * 2 ^ 16 + byte2.toNat * 2 ^ 8 =
      ((byte0.toNat * 2 ^ 8 + byte1.toNat) * 2 ^ 8 + byte2.toNat) * 2 ^ 8 := by ring
  rw [UInt32.toNat_or, UInt32.toNat_or, UInt32.toNat_or, shifted0, shifted1, shifted2, UInt8.toNat_toUInt32,
    or_eq_add (by omega), upper, or_eq_add (by omega), most, or_eq_add bound3]
  ring

theorem joined_bytes32 (word : UInt32) :
    ((word >>> 24).toUInt8.toUInt32 <<< 24) ||| ((word >>> 16).toUInt8.toUInt32 <<< 16) |||
      ((word >>> 8).toUInt8.toUInt32 <<< 8) ||| word.toUInt8.toUInt32 = word := by
  refine UInt32.toNat_inj.mp ?_
  have bound := word.toNat_lt
  rw [toNat_joinedBytes]
  simp only [UInt32.toNat_toUInt8, UInt32.toNat_shiftRight, UInt32.reduceToNat, Nat.reduceMod,
    Nat.shiftRight_eq_div_pow, Nat.reducePow]
  omega

theorem joinedHalves_bytes32 (word : UInt32) :
    (((word >>> 24).toUInt8.toUInt16 <<< 8 ||| (word >>> 16).toUInt8.toUInt16).toUInt32 <<< 16) |||
      ((word >>> 8).toUInt8.toUInt16 <<< 8 ||| word.toUInt8.toUInt16).toUInt32 = word := by
  rw [← UInt32.toNat_inj, toNat_joinedHalves, toNat_joinedHalf, toNat_joinedHalf, ← toNat_joinedBytes, joined_bytes32]

theorem fromStringForRocksdb_toStringForRocksdb (key : Key) :
    fromStringForRocksdb key.toStringForRocksdb = some key := by
  rw [toStringForRocksdb_eq]
  simp only [fromStringForRocksdb, halfAt, wordAt, bytes32, List.cons_append, List.nil_append, Nat.reduceAdd,
    List.getElem?_cons_zero, List.getElem?_cons_succ, Option.bind_eq_bind, Option.bind_some, joinedHalves_bytes32,
    joined_bytes32]

theorem mapM_fromStringForRocksdb (keys : List Key) :
    (keys.map toStringForRocksdb).mapM fromStringForRocksdb = some keys := by
  induction keys with
  | nil => rfl
  | cons key keys ih =>
    rw [List.map_cons, List.mapM_cons, fromStringForRocksdb_toStringForRocksdb, ih]
    rfl

/-- A search from an encoded key in encoded keys finds the keys that are not below it, in ascending order. -/
theorem enumerates_seek {keystrs : List (List UInt8)} (ascending : keystrs.Pairwise (· < ·))
    (encoded : ∀ keystr ∈ keystrs, ∃ key : Key, key.toStringForRocksdb = keystr) (start : Key) :
    ∃ keys : List Key, (seek keystrs start.toStringForRocksdb).mapM fromStringForRocksdb = some keys ∧
      keys.Pairwise (fun l r => l.lt r = true) ∧
      ∀ key : Key, key ∈ keys ↔ key.toStringForRocksdb ∈ keystrs ∧ key.ge start = true := by
  have found := @mem_seek_iff keystrs ascending start.toStringForRocksdb
  have sorted := pairwise_seek ascending start.toStringForRocksdb
  generalize seek keystrs start.toStringForRocksdb = visited at found sorted
  obtain ⟨keys, rfl⟩ : ∃ keys : List Key, keys.map toStringForRocksdb = visited := by
    have range := Set.range_list_map toStringForRocksdb
    refine (Set.ext_iff.mp range visited).mpr fun keystr member => ?_
    exact encoded keystr (found.mp member).1
  refine ⟨keys, mapM_fromStringForRocksdb keys, ?_, fun key => ?_⟩
  · rw [List.pairwise_map] at sorted
    refine sorted.imp fun {l r} below => ?_
    rw [(operators_iff_value l r).1, ← toStringForRocksdb_lt_iff]
    exact below
  · have here := @found key.toStringForRocksdb
    rw [List.mem_map_of_injective toStringForRocksdb_injective, toStringForRocksdb_lt_iff, Nat.not_lt] at here
    rw [here, (operators_iff_value key start).2.2.2.1]

end Key

/-- The strings under which keys are stored compare, byte by byte, as the operators compare the keys, and give the
keys back; so do the bytes on the wire. A search that RocksDB runs from an encoded key, in the order of its
comparator, meets the stored keys from that key on, in the order of the operators. -/
theorem rocksdb_keeps_key_order :
    (∀ l r : Key, (l.lt r = true ↔ l.toStringForRocksdb < r.toStringForRocksdb) ∧
      (l.gt r = true ↔ r.toStringForRocksdb < l.toStringForRocksdb) ∧
      (l.le r = true ↔ ¬ r.toStringForRocksdb < l.toStringForRocksdb) ∧
      (l.ge r = true ↔ ¬ l.toStringForRocksdb < r.toStringForRocksdb) ∧
      (l.eq r = true ↔ l.toStringForRocksdb = r.toStringForRocksdb) ∧
      (l.ne r = true ↔ l.toStringForRocksdb ≠ r.toStringForRocksdb)) ∧
    Function.Injective Key.toStringForRocksdb ∧
    (∀ key : Key, Key.fromStringForRocksdb key.toStringForRocksdb = some key) ∧
    (∀ (key : Key) (array : List UInt8) (off buflen : Nat), Holds array off key.serialize → 16 ≤ buflen →
      Key.deserialize array off buflen = some (key, 16)) ∧
    ∀ keystrs : List (List UInt8), keystrs.Pairwise (· < ·) →
      (∀ keystr ∈ keystrs, ∃ key : Key, key.toStringForRocksdb = keystr) → ∀ start : Key,
      ∃ keys : List Key, (seek keystrs start.toStringForRocksdb).mapM Key.fromStringForRocksdb = some keys ∧
        keys.Pairwise (fun l r => l.lt r = true) ∧
        ∀ key : Key, key ∈ keys ↔ key.toStringForRocksdb ∈ keystrs ∧ key.ge start = true := by
  refine ⟨fun l r => ?_, Key.toStringForRocksdb_injective, Key.fromStringForRocksdb_toStringForRocksdb,
    fun _ _ _ _ holds long => Key.deserialize_of_holds holds long,
    fun _ ascending encoded start => Key.enumerates_seek ascending encoded start⟩
  obtain ⟨lt, gt, le, ge, eq, ne⟩ := Key.operators_iff_value l r
  have same : l.toStringForRocksdb = r.toStringForRocksdb ↔ l.value = r.value := by
    rw [Key.toStringForRocksdb_injective.eq_iff, Key.value_injective.eq_iff]
  rw [lt, gt, le, ge, eq, ne, Key.toStringForRocksdb_lt_iff, Key.toStringForRocksdb_lt_iff, ne_eq, ne_eq, same,
    Nat.not_lt, Nat.not_lt]
  simp only [and_self, iff_self]

/-- A search among three stored keys, from one that is not stored. -/
theorem rocksdb_keeps_key_order_seek :
    let keystrs := [(⟨1, 0, 0, 0⟩ : Key), ⟨3, 0, 0, 0⟩, ⟨0, 0, 0, 1⟩].map Key.toStringForRocksdb
    ∃ keys : List Key, (seek keystrs (Key.toStringForRocksdb ⟨2, 0, 0, 0⟩)).mapM Key.fromStringForRocksdb =
      some keys ∧
      keys.Pairwise (fun l r => l.lt r = true) ∧
      ∀ key : Key, key ∈ keys ↔ key.toStringForRocksdb ∈ keystrs ∧ key.ge ⟨2, 0, 0, 0⟩ = true :=
  rocksdb_keeps_key_order.2.2.2.2 _ (by decide) (by simp) _

end FarReach
