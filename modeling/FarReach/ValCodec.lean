import FarReach.FieldCodec

namespace FarReach

open Bytes DynamicArray Val

/-- An object of `Val`: `none` is a `val_data` of `nullptr`, and `val_length` is the length of the data. -/
structure ValObject where
  valData : Option (List UInt8)
  deriving DecidableEq, Repr

namespace ValObject

def val (value : ValObject) : Val := value.valData.getD []

def valLength (value : ValObject) : Nat := value.val.length

/-- What the four encoders assert: the data is `nullptr` exactly for an empty value. -/
def Checked (value : ValObject) : Prop :=
  (value.valLength ≠ 0 ∧ value.valData.isSome) ∨ (value.valLength = 0 ∧ value.valData.isNone)

instance (value : ValObject) : Decidable value.Checked := inferInstanceAs (Decidable (_ ∨ _))

/-- `Val::serialize` into a buffer of `buflen` bytes: the bytes it writes and the size it returns. -/
def serialize (value : ValObject) (buflen : Nat) : Option (List UInt8 × Nat) := do
  guard value.Checked
  let serializeSize := 2 + value.valLength + getPaddingSize value.valLength
  guard (serializeSize ≤ buflen)
  some (value.val.serialize, serializeSize)

def dynamicSerialize (value : ValObject) (buf : DynamicArray) (offset : Nat) : Option (DynamicArray × Nat) := do
  guard value.Checked
  value.val.dynamicSerialize buf offset

def serializeLarge (value : ValObject) (buflen : Nat) : Option (List UInt8 × Nat) := do
  guard value.Checked
  let serializeSize := 4 + value.valLength + getPaddingSize value.valLength
  guard (serializeSize ≤ buflen)
  some (value.val.largeBytes, serializeSize)

def dynamicSerializeLarge (value : ValObject) (buf : DynamicArray) (offset : Nat) : Option (DynamicArray × Nat) := do
  guard value.Checked
  value.val.dynamicSerializeLarge buf offset

/-- `to_string_for_rocksdb`: the bytes of the value, and `seq` as it is in memory. -/
def toStringForRocksdb (value : ValObject) (seq : UInt32) : List UInt8 := value.val ++ littleEndian 4 seq.toNat

/-- `from_string_for_rocksdb`; `val_length` keeps 32 bits of the length. -/
def fromStringForRocksdb (valstr : List UInt8) : Option (ValObject × UInt32) := do
  guard (4 ≤ valstr.length)
  let valLength := (valstr.length - 4) % 2 ^ 32
  let valData ← readAt valstr 0 valLength
  let seq ← readAt valstr valLength 4
  some (⟨if 0 < valLength then some valData else none⟩, (ofLittleEndian seq).toUInt32)

end ValObject

/-- An encoder has written bytes, and where memory holds them the decoder returns the value and the same size. -/
def BufferRoundTrip (result : Option (List UInt8 × Nat)) (decode : List UInt8 → Nat → Nat → Option (Val × Nat))
    (val : Val) : Prop :=
  ∃ bytes size, result = some (bytes, size) ∧ bytes.length = size ∧
    ∀ array off buflen, Holds array off bytes → size ≤ buflen → decode array off buflen = some (val, size)

/-- An encoder has written into the array at `offset`, and the decoder returns the value and the same size there. -/
def ArrayRoundTrip (result : Option (DynamicArray × Nat)) (offset : Nat)
    (decode : List UInt8 → Nat → Nat → Option (Val × Nat)) (val : Val) : Prop :=
  ∃ after size, result = some (after, size) ∧
    ∀ buflen, size ≤ buflen → decode after.array offset buflen = some (val, size)

namespace ValObject

theorem checked_iff (value : ValObject) : value.Checked ↔ value.valData ≠ some [] := by
  obtain ⟨valData⟩ := value
  cases valData with
  | none => simp [Checked, valLength, val]
  | some bytes => cases bytes <;> simp [Checked, valLength, val]

/-- Padding fills up to a multiple of 8, exactly for lengths up to 128. -/
theorem getPaddingSize_spec (vallen : Nat) :
    getPaddingSize vallen < 8 ∧ (vallen ≤ 128 → (vallen + getPaddingSize vallen) % 8 = 0) ∧
      (128 < vallen → getPaddingSize vallen = 0) := by
  unfold getPaddingSize
  split
  · split <;> omega
  · omega

section RoundTrips

variable {value : ValObject}

theorem serialize_of_fits {buflen : Nat} (checked : value.Checked)
    (fits : 2 + value.valLength + getPaddingSize value.valLength ≤ buflen) :
    value.serialize buflen = some (value.val.serialize, value.val.serialize.length) := by
  rw [length_serialize]
  simp only [serialize, guard, checked, fits, if_true, Option.pure_def, Option.bind_eq_bind, Option.bind_some]
  rfl

theorem serializeLarge_of_fits {buflen : Nat} (checked : value.Checked)
    (fits : 4 + value.valLength + getPaddingSize value.valLength ≤ buflen) :
    value.serializeLarge buflen = some (value.val.largeBytes, value.val.largeBytes.length) := by
  rw [length_largeBytes]
  simp only [serializeLarge, guard, checked, fits, if_true, Option.pure_def, Option.bind_eq_bind, Option.bind_some]
  rfl

theorem checked_of_guarded {β : Type} {rest : Unit → Option β} {result : β}
    (ran : (guard value.Checked >>= rest) = some result) : value.Checked := by
  by_contra unchecked
  rw [guard, if_neg unchecked] at ran
  cases ran

/-- A fixed buffer returns the value exactly if the assertion holds and the length fits 16 bits. -/
theorem bufferRoundTrip_iff {buflen : Nat} (fits : 2 + value.valLength + getPaddingSize value.valLength ≤ buflen) :
    BufferRoundTrip (value.serialize buflen) deserialize value.val ↔ value.Checked ∧ value.valLength < 65536 := by
  constructor
  · rintro ⟨bytes, size, ran, _, decodes⟩
    have decoded := decodes bytes 0 size (holds_zero_iff.mpr (List.prefix_refl _)) le_rfl
    exact ⟨checked_of_guarded ran, length_of_deserialize decoded⟩
  · rintro ⟨checked, short⟩
    refine ⟨_, _, serialize_of_fits checked fits, rfl, fun array off buflen holds long => ?_⟩
    exact deserialize_of_holds short holds long

theorem arrayRoundTrip_iff {buf : DynamicArray} {offset : Nat}
    (fits : offset + (2 + value.valLength + getPaddingSize value.valLength) ≤ buf.maxcapability) :
    ArrayRoundTrip (value.dynamicSerialize buf offset) offset deserialize value.val ↔
      value.Checked ∧ value.valLength < 65536 := by
  constructor
  · rintro ⟨after, size, ran, decodes⟩
    exact ⟨checked_of_guarded ran, length_of_deserialize (decodes size le_rfl)⟩
  · rintro ⟨checked, short⟩
    have length := length_serialize value.val
    obtain ⟨after, written, wrote⟩ := (writes_dynamicSerialize value.val buf offset).1 (by rw [length]; exact fits)
    refine ⟨after, value.val.serialize.length, ?_, fun buflen long => ?_⟩
    · simp only [dynamicSerialize, guard, checked, if_true, Option.pure_def, Option.bind_eq_bind, Option.bind_some]
      rw [written, ← length]
    · exact deserialize_of_holds short wrote.holds long

theorem bufferRoundTrip_large_iff {buflen : UInt32}
    (fits : 4 + value.valLength + getPaddingSize value.valLength ≤ buflen.toNat) :
    BufferRoundTrip (value.serializeLarge buflen.toNat) deserializeLarge value.val ↔ value.Checked := by
  constructor
  · rintro ⟨bytes, size, ran, _, _⟩
    exact checked_of_guarded ran
  · intro checked
    have bound := buflen.toNat_lt
    have short : value.val.length < 2 ^ 32 := by
      change value.valLength < _
      omega
    refine ⟨_, _, serializeLarge_of_fits checked fits, rfl, fun array off buflen holds long => ?_⟩
    exact deserializeLarge_of_holds short holds long

theorem arrayRoundTrip_large_iff {buf : DynamicArray} {offset : Nat}
    (fits : offset + (4 + value.valLength + getPaddingSize value.valLength) ≤ buf.maxcapability) :
    ArrayRoundTrip (value.dynamicSerializeLarge buf offset) offset deserializeLarge value.val ↔ value.Checked := by
  constructor
  · rintro ⟨after, size, ran, _⟩
    exact checked_of_guarded ran
  · intro checked
    have bounded := buf.bounded
    have short : value.val.length < 2 ^ 32 := by
      change value.valLength < _
      omega
    have length := length_largeBytes value.val
    obtain ⟨after, written, wrote⟩ :=
      (writes_dynamicSerializeLarge value.val buf offset).1 (by rw [length]; exact fits)
    refine ⟨after, value.val.largeBytes.length, ?_, fun buflen long => ?_⟩
    · simp only [dynamicSerializeLarge, guard, checked, if_true, Option.pure_def, Option.bind_eq_bind,
        Option.bind_some]
      rw [written, ← length]
    · exact deserializeLarge_of_holds short wrote.holds long

/-- The string form gives the bytes of the value and the number back; an empty value comes back as `nullptr`. -/
theorem fromStringForRocksdb_toStringForRocksdb (short : value.valLength < 2 ^ 32) (seq : UInt32) :
    ∃ decoded, fromStringForRocksdb (value.toStringForRocksdb seq) = some (decoded, seq) ∧
      decoded.val = value.val := by
  have length : (value.toStringForRocksdb seq).length = value.valLength + 4 := by
    rw [toStringForRocksdb, List.length_append, length_littleEndian]
    rfl
  have size : (value.toStringForRocksdb seq).length - 4 = value.valLength := by omega
  have dataRead : readAt (value.toStringForRocksdb seq) 0 value.valLength = some value.val := by
    rw [readAt, if_pos (by omega), List.drop_zero, toStringForRocksdb]
    exact congrArg some (List.take_left' rfl)
  have seqRead : readAt (value.toStringForRocksdb seq) value.valLength 4 = some (littleEndian 4 seq.toNat) := by
    refine Holds.readAt ?_ (length_littleEndian _ _) (by decide)
    have whole := holds_zero_iff.mpr (List.prefix_refl (value.val ++ littleEndian 4 seq.toNat))
    have second := (holds_append.mp whole).2
    rw [Nat.zero_add] at second
    exact second
  refine ⟨⟨if 0 < value.valLength then some value.val else none⟩, ?_, ?_⟩
  · simp only [fromStringForRocksdb, guard, show 4 ≤ (value.toStringForRocksdb seq).length by omega, if_true, size,
      Nat.mod_eq_of_lt short, dataRead, seqRead, Option.pure_def, Option.bind_eq_bind, Option.bind_some,
      toUInt32_ofLittleEndian]
  · by_cases nonempty : 0 < value.valLength
    · rw [if_pos nonempty]
      rfl
    · rw [if_neg nonempty]
      have empty : value.val.length = 0 := Nat.eq_zero_of_not_pos nonempty
      exact (List.eq_nil_of_length_eq_zero empty).symm

end RoundTrips

end ValObject

/-- The codecs of a value, in any buffer and any array that it fits. Large packets and the string form return every
value, with any number, unless it is empty and its data is not `nullptr`; a length of 16 bits returns those shorter
than 2^16 bytes. -/
theorem val_codecs_iff (value : ValObject) :
    (∀ buflen : UInt32, 2 + value.valLength + getPaddingSize value.valLength ≤ buflen.toNat →
      (BufferRoundTrip (value.serialize buflen.toNat) deserialize value.val ↔
        value.valData ≠ some [] ∧ value.valLength < 65536)) ∧
    (∀ (buf : DynamicArray) (offset : Nat),
      offset + (2 + value.valLength + getPaddingSize value.valLength) ≤ buf.maxcapability →
      (ArrayRoundTrip (value.dynamicSerialize buf offset) offset deserialize value.val ↔
        value.valData ≠ some [] ∧ value.valLength < 65536)) ∧
    (∀ buflen : UInt32, 4 + value.valLength + getPaddingSize value.valLength ≤ buflen.toNat →
      (BufferRoundTrip (value.serializeLarge buflen.toNat) deserializeLarge value.val ↔
        value.valData ≠ some [])) ∧
    (∀ (buf : DynamicArray) (offset : Nat),
      offset + (4 + value.valLength + getPaddingSize value.valLength) ≤ buf.maxcapability →
      (ArrayRoundTrip (value.dynamicSerializeLarge buf offset) offset deserializeLarge value.val ↔
        value.valData ≠ some [])) ∧
    (value.valLength < 2 ^ 32 → ∀ seq, ∃ decoded,
      ValObject.fromStringForRocksdb (value.toStringForRocksdb seq) = some (decoded, seq) ∧
        decoded.val = value.val) ∧
    getPaddingSize value.valLength < 8 ∧
    (value.valLength ≤ 128 → (value.valLength + getPaddingSize value.valLength) % 8 = 0) ∧
    (128 < value.valLength → getPaddingSize value.valLength = 0) := by
  rw [← value.checked_iff]
  refine ⟨fun _ fits => ValObject.bufferRoundTrip_iff fits, fun _ _ fits => ValObject.arrayRoundTrip_iff fits,
    fun _ fits => ValObject.bufferRoundTrip_large_iff fits, fun _ _ fits => ValObject.arrayRoundTrip_large_iff fits,
    fun short seq => ?_, ValObject.getPaddingSize_spec value.valLength⟩
  exact value.fromStringForRocksdb_toStringForRocksdb short seq

theorem val_codecs_five :
    BufferRoundTrip (ValObject.serialize ⟨some [1, 2, 3, 4, 5]⟩ 100) deserialize [1, 2, 3, 4, 5] :=
  ((val_codecs_iff ⟨some [1, 2, 3, 4, 5]⟩).1 100 (by decide)).mpr (by decide)

/-- A value of 2^16 bytes, well below the limit of the arrays, is not what the 16-bit codecs return, and an empty
value made from a buffer is not even written. -/
theorem long_and_empty_value_lost :
    (∃ value : ValObject, value.valLength = 65536 ∧
      ¬ BufferRoundTrip (value.serialize 8388608) deserialize value.val ∧
      ¬ ArrayRoundTrip (value.dynamicSerialize (allocated 40960 8388608 (by decide) (by decide) (by decide)) 0) 0
        deserialize value.val) ∧
    ∀ buflen, ValObject.serialize ⟨some []⟩ buflen = none := by
  refine ⟨⟨⟨some (List.replicate 65536 0)⟩, List.length_replicate, ?_⟩, fun _ => rfl⟩
  generalize data : List.replicate 65536 (0 : UInt8) = bytes
  have length : ValObject.valLength ⟨some bytes⟩ = 65536 := by
    rw [← data]
    exact List.length_replicate
  have padding : getPaddingSize 65536 = 0 := by decide
  constructor
  · rw [ValObject.bufferRoundTrip_iff (by rw [length, padding]; decide), length]
    exact fun both => absurd both.2 (Nat.lt_irrefl _)
  · rw [ValObject.arrayRoundTrip_iff (by rw [length, padding]; change _ ≤ 8388608; decide), length]
    exact fun both => absurd both.2 (Nat.lt_irrefl _)

end FarReach
