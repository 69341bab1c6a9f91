import FarReach.Bytes

namespace FarReach

open Bytes

/-- `DynamicArray`; `_curcapability` is the length of `array`. Capabilities are small enough for the
`int` arithmetic of `dynamic_reserve` not to overflow. -/
structure DynamicArray where
  cursize : Nat
  array : List UInt8
  mincapability : Nat
  maxcapability : Nat
  positive : 0 < mincapability
  mincapability_le : mincapability ≤ array.length
  cursize_le : cursize ≤ array.length
  curcapability_le : array.length ≤ maxcapability
  bounded : maxcapability ≤ 2 ^ 30

namespace DynamicArray

/-- What `DynamicArray::init` allocates, which exits unless `maxcapability > mincapability`. -/
def allocated (mincapability maxcapability : Nat) (positive : 0 < mincapability)
    (larger : mincapability < maxcapability) (bounded : maxcapability ≤ 2 ^ 30) : DynamicArray :=
  ⟨0, List.replicate mincapability 0, mincapability, maxcapability, positive, by simp, by simp,
    by simpa using larger.le, bounded⟩

def clear (buf : DynamicArray) : DynamicArray :=
  { buf with
    cursize := 0
    array := List.replicate buf.mincapability 0
    mincapability_le := by simp
    cursize_le := by simp
    curcapability_le := by simpa using buf.mincapability_le.trans buf.curcapability_le }

def doubleUntil (target : Nat) : Nat → Nat → Nat
  | 0, capability => capability
  | fuel + 1, capability => if capability < target then doubleUntil target fuel (2 * capability) else capability

theorem le_doubleUntil {target fuel capability : Nat} (positive : 0 < capability)
    (enough : target ≤ capability + fuel) : target ≤ doubleUntil target fuel capability := by
  induction fuel generalizing capability with
  | zero => exact enough
  | succ fuel ih =>
    unfold doubleUntil
    split
    · exact ih (by omega) (by omega)
    · omega

/-- `dynamic_reserve`: exit beyond `_maxcapability`, grow and copy beyond `_curcapability`. -/
def dynamicReserve (buf : DynamicArray) (off len : Nat) : Option DynamicArray :=
  if buf.maxcapability < off + len then none
  else if buf.array.length < off + len then
    if buf.maxcapability ≤ buf.array.length then none
    else
      let newcapability :=
        min (doubleUntil (off + len) (off + len) (2 * buf.array.length)) buf.maxcapability
      some
        { buf with
          array := buf.array ++ List.replicate (newcapability - buf.array.length) 0
          mincapability_le := by
            rw [List.length_append]
            exact buf.mincapability_le.trans (Nat.le_add_right _ _)
          cursize_le := by
            rw [List.length_append]
            exact buf.cursize_le.trans (Nat.le_add_right _ _)
          curcapability_le := by
            have capability := buf.curcapability_le
            simp only [List.length_append, List.length_replicate, newcapability]
            omega }
  else some buf

/-- What `dynamic_memcpy` does after the reservation; writing outside the array has no result. -/
def place (buf : DynamicArray) (off : Nat) (bytes : List UInt8) : Option DynamicArray :=
  if fits : off + bytes.length ≤ buf.array.length then
    some
      { buf with
        cursize := if off + bytes.length > buf.cursize then off + bytes.length else buf.cursize
        array := overwrite buf.array off bytes
        mincapability_le := by simpa using buf.mincapability_le
        cursize_le := by
          have size := buf.cursize_le
          rw [length_overwrite]
          split <;> omega
        curcapability_le := by simpa using buf.curcapability_le }
  else none

def dynamicMemcpy (buf : DynamicArray) (off : Nat) (srcarray : List UInt8) : Option DynamicArray := do
  let buf ← buf.dynamicReserve off srcarray.length
  buf.place off srcarray

def dynamicMemset (buf : DynamicArray) (off : Nat) (value : UInt8) (len : Nat) : Option DynamicArray := do
  let buf ← buf.dynamicReserve off len
  buf.place off (List.replicate len value)

/-- Behind its size the array is zero, as `clear` and every growth leave it. -/
def Zeroed (buf : DynamicArray) : Prop := ∀ i, buf.cursize ≤ i → i < buf.array.length → buf.array[i]? = some 0

/-- `after` is `before` with `bytes` written at `off`: everything apart from them is kept, and what is new is zero. -/
structure Wrote (before : DynamicArray) (off : Nat) (bytes : List UInt8) (after : DynamicArray) : Prop where
  cursize : after.cursize = max before.cursize (off + bytes.length)
  maxcapability : after.maxcapability = before.maxcapability
  fits : off + bytes.length ≤ after.array.length
  holds : Holds after.array off bytes
  frame : ∀ pos other, Holds before.array pos other →
    pos + other.length ≤ off ∨ off + bytes.length ≤ pos → Holds after.array pos other
  zeros : before.Zeroed → ∀ pos, before.cursize ≤ pos → pos < after.array.length →
    pos < off ∨ off + bytes.length ≤ pos → after.array[pos]? = some 0

variable {left right : List UInt8} {off : Nat} {buf : DynamicArray}

theorem Wrote.zeroed {bytes : List UInt8} {after : DynamicArray} (wrote : Wrote buf off bytes after)
    (zeroed : buf.Zeroed) : after.Zeroed := by
  intro pos behind inside
  rw [wrote.cursize] at behind
  exact wrote.zeros zeroed pos (by omega) inside (Or.inr (by omega))

theorem Wrote.append {first second third : DynamicArray} (one : Wrote first off left second)
    (two : Wrote second (off + left.length) right third) :
    Wrote first off (left ++ right) third := by
  refine ⟨?_, two.maxcapability.trans one.maxcapability, ?_, ?_, ?_, ?_⟩
  · rw [two.cursize, one.cursize, List.length_append]
    omega
  · have fits := two.fits
    rw [List.length_append]
    omega
  · exact holds_append.mpr ⟨two.frame _ _ one.holds (Or.inl le_rfl), two.holds⟩
  · intro pos other held apart
    rw [List.length_append] at apart
    exact two.frame _ _ (one.frame _ _ held (by omega)) (by omega)
  · intro zeroed pos behind inside apart
    rw [List.length_append] at apart
    have size := one.cursize
    have fits := one.fits
    by_cases old : second.cursize ≤ pos
    · exact two.zeros (one.zeroed zeroed) pos old inside (by omega)
    · -- a gap before the first bytes, which the second ones leave
      have gap := one.zeros zeroed pos behind (by omega) (Or.inl (by omega))
      exact holds_singleton_iff.mp (two.frame pos [0] (holds_singleton_iff.mpr gap) (Or.inl (by simp; omega)))

/-- A computation that writes `bytes` at `off` when they fit below the maximum capability, and exits
otherwise; `finish` is what it returns besides the array. -/
def Writes {β : Type} (buf : DynamicArray) (off : Nat) (bytes : List UInt8) (result : Option β)
    (finish : DynamicArray → β) : Prop :=
  (off + bytes.length ≤ buf.maxcapability → ∃ after, result = some (finish after) ∧ Wrote buf off bytes after) ∧
    (buf.maxcapability < off + bytes.length → result = none)

theorem Writes.bind {β γ : Type} {first : Option β} {finish : DynamicArray → β} {rest : β → Option γ}
    {finish' : DynamicArray → γ} (one : Writes buf off left first finish)
    (two : ∀ after, Wrote buf off left after → Writes after (off + left.length) right (rest (finish after)) finish') :
    Writes buf off (left ++ right) (first >>= rest) finish' := by
  unfold Writes
  rw [List.length_append]
  constructor
  · intro fits
    obtain ⟨middle, rfl, wrote⟩ := one.1 (by omega)
    have capability := wrote.maxcapability
    obtain ⟨after, result, wrote'⟩ := (two middle wrote).1 (by omega)
    exact ⟨after, result, wrote.append wrote'⟩
  · intro exceeds
    by_cases leftFits : off + left.length ≤ buf.maxcapability
    · obtain ⟨middle, rfl, wrote⟩ := one.1 leftFits
      have capability := wrote.maxcapability
      exact (two middle wrote).2 (by omega)
    · rw [one.2 (by omega)]
      rfl

theorem writes_nil {β : Type} (used : off ≤ buf.cursize) (finish : DynamicArray → β) :
    Writes buf off [] (some (finish buf)) finish := by
  have size := buf.cursize_le
  have capability := buf.curcapability_le
  refine ⟨fun _ => ⟨buf, rfl, ?_, rfl, ?_, by simp [Holds], fun _ _ held _ => held,
    fun zeroed pos behind inside _ => zeroed pos behind inside⟩, fun exceeds => ?_⟩
  · simpa using used
  · exact used.trans size
  · rw [List.length_nil] at exceeds
    omega

theorem writes_foldlM {α : Type} {step : DynamicArray × Nat → α → Option (DynamicArray × Nat)}
    {bytes : α → List UInt8} {items : List α}
    (writes : ∀ item ∈ items, ∀ buf off,
      Writes buf off (bytes item) (step (buf, off) item) (·, off + (bytes item).length))
    (used : off ≤ buf.cursize ∨ items ≠ []) :
    Writes buf off (items.flatMap bytes) (items.foldlM step (buf, off)) (·, off + (items.flatMap bytes).length) := by
  induction items generalizing buf off with
  | nil => exact writes_nil (used.resolve_right fun none => none rfl) (·, off)
  | cons item items ih =>
    rw [List.flatMap_cons, List.length_append, ← Nat.add_assoc, List.foldlM_cons]
    refine (writes item List.mem_cons_self buf off).bind fun after wrote => ?_
    refine ih (fun later member => writes later (List.mem_cons_of_mem _ member)) (Or.inl ?_)
    rw [wrote.cursize]
    exact Nat.le_max_right _ _

theorem Writes.finish {β γ : Type} {bytes : List UInt8} {first : Option β} {finish : DynamicArray → β}
    (one : Writes buf off bytes first finish) (last : β → γ) :
    Writes buf off bytes (first >>= fun value => some (last value)) (fun after => last (finish after)) := by
  refine ⟨fun fits => ?_, fun exceeds => ?_⟩
  · obtain ⟨after, rfl, wrote⟩ := one.1 fits
    exact ⟨after, rfl, wrote⟩
  · rw [one.2 exceeds]
    rfl

theorem writes_place_reserved (buf : DynamicArray) (off : Nat) (bytes : List UInt8) :
    Writes buf off bytes (do let reserved ← buf.dynamicReserve off bytes.length; reserved.place off bytes) id := by
  refine ⟨fun fits => ?_, fun exceeds => ?_⟩
  · -- the reserved array extends the old one and has room for the bytes
    obtain ⟨reserved, reserve, ⟨count, extends'⟩, room, size, capability⟩ :
        ∃ reserved, buf.dynamicReserve off bytes.length = some reserved ∧
          (∃ count, reserved.array = buf.array ++ List.replicate count 0) ∧
          off + bytes.length ≤ reserved.array.length ∧
          reserved.cursize = buf.cursize ∧ reserved.maxcapability = buf.maxcapability := by
      unfold dynamicReserve
      rw [if_neg (by omega)]
      by_cases grows : buf.array.length < off + bytes.length
      · rw [if_pos grows, if_neg (by omega)]
        refine ⟨_, rfl, ⟨_, rfl⟩, ?_, rfl, rfl⟩
        have positive := buf.positive.trans_le buf.mincapability_le
        have enough : off + bytes.length ≤
            doubleUntil (off + bytes.length) (off + bytes.length) (2 * buf.array.length) :=
          le_doubleUntil (by omega) (by omega)
        simp only [List.length_append, List.length_replicate]
        omega
      · rw [if_neg grows]
        exact ⟨buf, rfl, ⟨0, by simp⟩, by omega, rfl, rfl⟩
    rw [reserve]
    simp only [Option.bind_eq_bind, Option.bind_some, place, room, dite_true]
    refine ⟨_, rfl, ?_, capability, by simpa using room, holds_overwrite room, ?_, ?_⟩
    · simp only [size]
      split <;> omega
    · intro pos other held apart
      refine Holds.overwrite ?_ apart
      rw [extends']
      exact held.append_left
    · intro zeroed pos behind inside apart
      refine holds_singleton_iff.mp (Holds.overwrite (holds_singleton_iff.mpr ?_) (by simp; omega))
      rw [length_overwrite, extends', List.length_append, List.length_replicate] at inside
      rw [extends']
      by_cases old : pos < buf.array.length
      · rw [List.getElem?_append_left old]
        exact zeroed pos behind old
      · rw [List.getElem?_append_right (by omega)]
        exact List.getElem?_replicate_of_lt (by omega)
  · unfold dynamicReserve
    rw [if_pos exceeds]
    rfl

theorem writes_dynamicMemcpy (buf : DynamicArray) (off : Nat) (bytes : List UInt8) :
    Writes buf off bytes (buf.dynamicMemcpy off bytes) id :=
  writes_place_reserved buf off bytes

theorem writes_dynamicMemset (buf : DynamicArray) (off : Nat) (value : UInt8) (len : Nat) :
    Writes buf off (List.replicate len value) (buf.dynamicMemset off value len) id := by
  have writes := writes_place_reserved buf off (List.replicate len value)
  rwa [List.length_replicate] at writes

end DynamicArray

end FarReach
