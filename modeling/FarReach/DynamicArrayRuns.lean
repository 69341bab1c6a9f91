import FarReach.DynamicArray
import FarReach.Splices

namespace FarReach

open Bytes

/-- The two implementations of the array, of the server and of the client library. -/
inductive ArrayCode where
  | cpp
  | java
  deriving DecidableEq, Repr

/-- `DynamicArray` of either implementation, with any capabilities; `_curcapability` is the length of `array`. -/
structure ArrayState where
  cursize : Nat
  array : List UInt8
  mincapability : Nat
  maxcapability : Nat
  deriving DecidableEq, Repr

inductive ArrayCall where
  | memcpy (off : Nat) (srcarray : List UInt8)
  | memset (off : Nat) (value : Int32) (len : Nat)
  | clear
  deriving DecidableEq, Repr

namespace ArrayState

/-- `init` exits unless `maxcapability > mincapability`; no array of negative size can be allocated. -/
def init (mincapability maxcapability : Int32) : Option ArrayState :=
  if maxcapability ≤ mincapability then none
  else if mincapability < 0 then none
  else some ⟨0, List.replicate mincapability.toInt.toNat 0, mincapability.toInt.toNat, maxcapability.toInt.toNat⟩

/-- `2 * capability` of an `int`: undefined in C++ where it overflows, wrapped around in Java. -/
def twice (code : ArrayCode) (capability : Int) : Option Int :=
  match code with
  | .cpp => if 2 * capability < 2 ^ 31 then some (2 * capability) else none
  | .java => some (Int.bmod (2 * capability) (2 ^ 32))

/-- The `while` loop of `dynamic_reserve`, for as many rounds as there is fuel. -/
def doubleWhile (code : ArrayCode) (target : Nat) : Nat → Int → Option Int
  | 0, _ => none
  | fuel + 1, newcapability =>
    if newcapability < target then do
      let newcapability ← twice code newcapability
      doubleWhile code target fuel newcapability
    else some newcapability

/-- `dynamic_reserve`; only the C++ code asserts a positive capability before it doubles it. -/
def dynamicReserve (code : ArrayCode) (fuel : Nat) (buf : ArrayState) (off len : Nat) : Option ArrayState :=
  if buf.maxcapability < off + len then none
  else if buf.array.length < off + len then
    if buf.maxcapability ≤ buf.array.length then none
    else do
      guard (code = .cpp → 0 < buf.array.length)
      let newcapability ← twice code buf.array.length
      let newcapability ← doubleWhile code (off + len) fuel newcapability
      let newcapability := if (buf.maxcapability : Int) < newcapability then buf.maxcapability
        else newcapability.toNat
      some { buf with array := overwrite (List.replicate newcapability 0) 0 buf.array }
  else some buf

def place (buf : ArrayState) (off : Nat) (bytes : List UInt8) : Option ArrayState :=
  if off + bytes.length ≤ buf.array.length then
    some { buf with
      array := overwrite buf.array off bytes
      cursize := if off + bytes.length > buf.cursize then off + bytes.length else buf.cursize }
  else none

def dynamicMemcpy (code : ArrayCode) (fuel : Nat) (buf : ArrayState) (off : Nat) (srcarray : List UInt8) :
    Option ArrayState := do
  let buf ← buf.dynamicReserve code fuel off srcarray.length
  buf.place off srcarray

/-- `dynamic_memset`, which keeps the low byte of `value`. -/
def dynamicMemset (code : ArrayCode) (fuel : Nat) (buf : ArrayState) (off : Nat) (value : Int32) (len : Nat) :
    Option ArrayState := do
  let buf ← buf.dynamicReserve code fuel off len
  buf.place off (List.replicate len value.toUInt32.toUInt8)

def clear (buf : ArrayState) : ArrayState :=
  { buf with array := List.replicate buf.mincapability 0, cursize := 0 }

def call (code : ArrayCode) (fuel : Nat) (buf : ArrayState) : ArrayCall → Option ArrayState
  | .memcpy off srcarray => buf.dynamicMemcpy code fuel off srcarray
  | .memset off value len => buf.dynamicMemset code fuel off value len
  | .clear => some buf.clear

end ArrayState

namespace ArrayCall

def endOffset : ArrayCall → Nat
  | memcpy off srcarray => off + srcarray.length
  | memset off _ len => off + len
  | clear => 0

def onList (content : List UInt8) : ArrayCall → List UInt8
  | memcpy off srcarray => splice 0 content off srcarray
  | memset off value len => splice 0 content off (List.replicate len value.toUInt32.toUInt8)
  | clear => []

def largestEnd (size : Nat) : ArrayCall → Nat
  | clear => 0
  | call => max size call.endOffset

end ArrayCall

/-- The calls return, and leave the bytes of the list and its size, the largest end offset written. -/
def RefinesList (code : ArrayCode) (fuel : Nat) (buf : ArrayState) (calls : List ArrayCall) : Prop :=
  ∃ after, calls.foldlM (ArrayState.call code fuel) buf = some after ∧
    after.cursize = calls.foldl ArrayCall.largestEnd 0 ∧
    after.array.take after.cursize = calls.foldl ArrayCall.onList []

/-- The minimum capability, doubled some times, is enough for `size` bytes and fits an `int`. -/
def ArrayState.Doubled (buf : ArrayState) (size : Nat) : Prop :=
  ∃ k, size ≤ buf.mincapability * 2 ^ k ∧ buf.mincapability * 2 ^ k < 2 ^ 31

/-- What the calls keep: the array holds the content and zeros behind it, and its length is the minimum capability
doubled some times, or the maximum if that is less. -/
structure ArrayState.Represents (buf : ArrayState) (content : List UInt8) : Prop where
  padded : Padded 0 buf.array content
  cursize : buf.cursize = content.length
  ordered : buf.mincapability ≤ buf.maxcapability
  within : buf.array.length ≤ buf.maxcapability
  capability : ∃ j, buf.mincapability * 2 ^ j < 2 ^ 31 ∧ (buf.array.length = buf.mincapability * 2 ^ j ∨
    buf.array.length = buf.maxcapability ∧ buf.maxcapability ≤ buf.mincapability * 2 ^ j)

namespace ArrayState

theorem represents_blank {mincapability maxcapability : Nat} (ordered : mincapability ≤ maxcapability)
    (small : mincapability < 2 ^ 31) :
    Represents ⟨0, List.replicate mincapability 0, mincapability, maxcapability⟩ [] := by
  refine ⟨padded_replicate _, rfl, ordered, ?_, 0, ?_, Or.inl ?_⟩
  · rw [List.length_replicate]
    exact ordered
  · change mincapability * 2 ^ 0 < 2 ^ 31
    omega
  · rw [List.length_replicate, Nat.pow_zero, Nat.mul_one]

theorem represents_init {mincapability maxcapability : Int32} {buf : ArrayState}
    (initialised : init mincapability maxcapability = some buf) : buf.Represents [] := by
  unfold init at initialised
  split at initialised
  · cases initialised
  · rename_i larger
    split at initialised
    · cases initialised
    · cases initialised
      rw [Int32.not_le, Int32.lt_iff_toInt_lt] at larger
      have bound := mincapability.toInt_lt
      have ordered : mincapability.toInt.toNat ≤ maxcapability.toInt.toNat := by omega
      exact represents_blank ordered (by omega)

section Growth

variable {code : ArrayCode} {target capability : Nat}

theorem twice_of_fits (fits : 2 * capability < 2 ^ 31) :
    twice code capability = some ((2 * capability : Nat) : Int) := by
  cases code with
  | cpp =>
    unfold twice
    rw [if_pos (by omega)]
    rfl
  | java =>
    unfold twice
    rw [Int.bmod_eq_of_le (by omega) (by omega)]
    rfl

theorem doubleWhile_of_fits {k fuel : Nat} (reaches : target ≤ capability * 2 ^ k)
    (fits : capability * 2 ^ k < 2 ^ 31) (enough : k < fuel) :
    ∃ m ≤ k, doubleWhile code target fuel capability = some ((capability * 2 ^ m : Nat) : Int) ∧
      target ≤ capability * 2 ^ m := by
  induction fuel generalizing k capability with
  | zero => omega
  | succ fuel ih =>
    unfold doubleWhile
    by_cases less : capability < target
    · cases k with
      | zero =>
        rw [Nat.pow_zero, Nat.mul_one] at reaches
        omega
      | succ k =>
        have shifted : capability * 2 ^ (k + 1) = 2 * capability * 2 ^ k := by ring
        rw [shifted] at reaches fits
        have double : 2 * capability < 2 ^ 31 := (Nat.le_mul_of_pos_right _ (by positivity)).trans_lt fits
        obtain ⟨m, small, loop, reached⟩ := ih reaches fits (by omega)
        have again : 2 * capability * 2 ^ m = capability * 2 ^ (m + 1) := by ring
        refine ⟨m + 1, by omega, ?_, again ▸ reached⟩
        rw [if_pos (by omega), twice_of_fits double, ← again]
        exact loop
    · refine ⟨0, Nat.zero_le _, ?_, by omega⟩
      rw [if_neg (by omega), Nat.pow_zero, Nat.mul_one]

/-- In C++ the loop ends with nothing else than a doubled capability that fits an `int`. -/
theorem doubleWhile_cpp {fuel : Nat} {newcapability : Int} (fits : capability < 2 ^ 31)
    (loop : doubleWhile .cpp target fuel capability = some newcapability) :
    ∃ m, newcapability = ((capability * 2 ^ m : Nat) : Int) ∧ capability * 2 ^ m < 2 ^ 31 ∧
      target ≤ capability * 2 ^ m := by
  induction fuel generalizing capability with
  | zero => cases loop
  | succ fuel ih =>
    unfold doubleWhile at loop
    split at loop
    · by_cases double : 2 * capability < 2 ^ 31
      · rw [twice_of_fits double] at loop
        obtain ⟨m, same, small, reached⟩ := ih double loop
        have again : 2 * capability * 2 ^ m = capability * 2 ^ (m + 1) := by ring
        rw [again] at same small reached
        exact ⟨m + 1, same, small, reached⟩
      · have overflow : twice .cpp capability = none := by
          unfold twice
          rw [if_neg (by omega)]
        rw [overflow] at loop
        cases loop
    · cases loop
      refine ⟨0, ?_, ?_, ?_⟩ <;> rw [Nat.pow_zero, Nat.mul_one] <;> omega

end Growth

section Calls

variable {code : ArrayCode} {fuel off len : Nat} {buf after : ArrayState} {content : List UInt8}

theorem Represents.capability_of_lt (represents : buf.Represents content) (short : buf.array.length < off + len)
    (within : off + len ≤ buf.maxcapability) :
    ∃ j, buf.array.length = buf.mincapability * 2 ^ j ∧ buf.mincapability * 2 ^ j < 2 ^ 31 := by
  obtain ⟨j, fits, same | ⟨same, _⟩⟩ := represents.capability
  · exact ⟨j, same, fits⟩
  · omega

/-- A reservation whose loop ends: the new array has the old one in front, and zeros behind it. -/
theorem dynamicReserve_of_loop {newcapability : Nat} (short : buf.array.length < off + len)
    (within : off + len ≤ buf.maxcapability) (nonempty : 0 < buf.array.length) (fits : 2 * buf.array.length < 2 ^ 31)
    (loop : doubleWhile code (off + len) fuel ((2 * buf.array.length : Nat) : Int) = some (newcapability : Int))
    (reached : off + len ≤ newcapability) :
    buf.dynamicReserve code fuel off len = some { buf with
      array := buf.array ++ List.replicate (min newcapability buf.maxcapability - buf.array.length) 0 } := by
  have asserted : code = .cpp → 0 < buf.array.length := fun _ => nonempty
  have size : (if (buf.maxcapability : Int) < (newcapability : Int) then buf.maxcapability
      else (newcapability : Int).toNat) = min newcapability buf.maxcapability := by
    split <;> omega
  unfold ArrayState.dynamicReserve
  rw [if_neg (by omega), if_pos short, if_neg (by omega), guard, if_pos asserted, twice_of_fits fits]
  simp only [Option.pure_def, Option.bind_eq_bind, Option.bind_some, loop, size]
  rw [overwrite_replicate (le_min (by omega) (by omega))]

theorem Represents.reserved {m : Nat} (represents : buf.Represents content) (short : buf.array.length < off + len)
    (within : off + len ≤ buf.maxcapability) (fits : buf.mincapability * 2 ^ m < 2 ^ 31)
    (reached : off + len ≤ buf.mincapability * 2 ^ m) {array : List UInt8} (grown : array = buf.array ++
      List.replicate (min (buf.mincapability * 2 ^ m) buf.maxcapability - buf.array.length) 0) :
    Represents { buf with array := array } content ∧ off + len ≤ array.length := by
  have length : array.length = min (buf.mincapability * 2 ^ m) buf.maxcapability := by
    rw [grown, List.length_append, List.length_replicate]
    omega
  refine ⟨⟨?_, represents.cursize, represents.ordered, ?_, m, fits, ?_⟩, by omega⟩
  · rw [grown]
    exact represents.padded.extend _
  · exact length.trans_le (min_le_right _ _)
  · change array.length = buf.mincapability * 2 ^ m ∨
      array.length = buf.maxcapability ∧ buf.maxcapability ≤ buf.mincapability * 2 ^ m
    omega

theorem Represents.dynamicReserve (represents : buf.Represents content) (enough : 31 ≤ fuel)
    (within : off + len ≤ buf.maxcapability) (doubled : buf.Doubled (off + len)) :
    ∃ array, buf.dynamicReserve code fuel off len = some { buf with array := array } ∧
      Represents { buf with array := array } content ∧ off + len ≤ array.length := by
  by_cases short : buf.array.length < off + len
  · obtain ⟨j, same, _⟩ := represents.capability_of_lt short within
    obtain ⟨k, reaches, fits⟩ := doubled
    have positive : 0 < buf.mincapability := by
      by_contra none
      rw [show buf.mincapability = 0 by omega] at reaches
      omega
    have more : j < k := by
      refine (Nat.pow_lt_pow_iff_right (by decide : 1 < 2)).mp ?_
      refine Nat.lt_of_mul_lt_mul_left (a := buf.mincapability) ?_
      omega
    have few : k < 31 := by
      refine (Nat.pow_lt_pow_iff_right (by decide : 1 < 2)).mp ?_
      exact (Nat.le_mul_of_pos_left _ positive).trans_lt fits
    obtain ⟨rest, rfl⟩ : ∃ rest, k = j + 1 + rest := ⟨k - (j + 1), by omega⟩
    have split : ∀ n, buf.mincapability * 2 ^ (j + 1 + n) = 2 * buf.array.length * 2 ^ n := by
      intro n
      rw [same]
      ring
    rw [split] at reaches fits
    have double : 2 * buf.array.length < 2 ^ 31 := (Nat.le_mul_of_pos_right _ (by positivity)).trans_lt fits
    obtain ⟨m, small, loop, reached⟩ := @doubleWhile_of_fits code _ _ rest fuel reaches fits (by omega)
    have nonempty : 0 < buf.array.length := same ▸ Nat.mul_pos positive (by positivity)
    have smaller : 2 * buf.array.length * 2 ^ m ≤ 2 * buf.array.length * 2 ^ rest :=
      Nat.mul_le_mul_left _ (Nat.pow_le_pow_right (by decide) small)
    rw [← split] at loop reached smaller
    exact ⟨_, dynamicReserve_of_loop short within nonempty double loop reached,
      represents.reserved short within (by omega) reached rfl⟩
  · refine ⟨buf.array, ?_, represents, by omega⟩
    unfold ArrayState.dynamicReserve
    rw [if_neg (by omega), if_neg short]

/-- In C++ no other reservation succeeds. -/
theorem Represents.doubled_of_dynamicReserve (represents : buf.Represents content)
    (returns : (buf.dynamicReserve .cpp fuel off len).isSome) : buf.Doubled (off + len) := by
  unfold ArrayState.dynamicReserve at returns
  split at returns
  · cases returns
  · rename_i within
    split at returns
    · rename_i short
      obtain ⟨j, same, fits⟩ := represents.capability_of_lt short (by omega)
      split at returns
      · cases returns
      · obtain ⟨reserved, succeeded⟩ := Option.isSome_iff_exists.mp returns
        simp only [guard, Option.bind_eq_bind, Option.bind_eq_some_iff] at succeeded
        obtain ⟨_, _, newcapability, double, looped, loop, _⟩ := succeeded
        by_cases fit : 2 * buf.array.length < 2 ^ 31
        · rw [twice_of_fits fit] at double
          cases double
          obtain ⟨m, _, small, reached⟩ := doubleWhile_cpp fit loop
          have again : 2 * buf.array.length * 2 ^ m = buf.mincapability * 2 ^ (j + 1 + m) := by
            rw [same]
            ring
          rw [again] at small reached
          exact ⟨j + 1 + m, reached, small⟩
        · unfold twice at double
          rw [if_neg (by omega)] at double
          cases double
    · obtain ⟨j, fits, same⟩ := represents.capability
      exact ⟨j, by omega, fits⟩

theorem Represents.place {bytes : List UInt8} (represents : buf.Represents content)
    (room : off + bytes.length ≤ buf.array.length) :
    ∃ after, buf.place off bytes = some after ∧ after.Represents (splice 0 content off bytes) ∧
      after.mincapability = buf.mincapability ∧ after.maxcapability = buf.maxcapability := by
  refine ⟨_, if_pos room, ⟨represents.padded.overwrite room, ?_, represents.ordered, ?_, ?_⟩, rfl, rfl⟩
  · change (if off + bytes.length > buf.cursize then off + bytes.length else buf.cursize) = _
    rw [length_splice, represents.cursize]
    split <;> omega
  · change (overwrite buf.array off bytes).length ≤ _
    rw [length_overwrite]
    exact represents.within
  · change ∃ j, _ ∧ ((overwrite buf.array off bytes).length = _ ∨ (overwrite buf.array off bytes).length = _ ∧ _)
    rw [length_overwrite]
    exact represents.capability

theorem Represents.clear (represents : buf.Represents content) : buf.clear.Represents [] := by
  obtain ⟨j, fits, _⟩ := represents.capability
  have low : buf.mincapability ≤ buf.mincapability * 2 ^ j := Nat.le_mul_of_pos_right _ (by positivity)
  exact represents_blank represents.ordered (by omega)

theorem Represents.write {bytes : List UInt8} (represents : buf.Represents content) (enough : 31 ≤ fuel)
    (within : off + bytes.length ≤ buf.maxcapability) (doubled : buf.Doubled (off + bytes.length)) :
    ∃ after, (do let reserved ← buf.dynamicReserve code fuel off bytes.length; reserved.place off bytes) =
      some after ∧
      after.Represents (splice 0 content off bytes) ∧ after.mincapability = buf.mincapability ∧
      after.maxcapability = buf.maxcapability := by
  obtain ⟨array, reserve, reserved, room⟩ :=
    @Represents.dynamicReserve code _ _ _ _ _ represents enough within doubled
  obtain ⟨after, placed, kept⟩ := reserved.place room
  refine ⟨after, ?_, kept⟩
  rw [reserve]
  exact placed

theorem Represents.call {call : ArrayCall} (represents : buf.Represents content) (enough : 31 ≤ fuel)
    (within : call.endOffset ≤ buf.maxcapability) (doubled : buf.Doubled call.endOffset) :
    ∃ after, buf.call code fuel call = some after ∧ after.Represents (call.onList content) ∧
      after.mincapability = buf.mincapability ∧ after.maxcapability = buf.maxcapability := by
  cases call with
  | memcpy off srcarray => exact represents.write enough within doubled
  | memset off value len =>
    have length : (List.replicate len value.toUInt32.toUInt8).length = len := List.length_replicate
    have writes := @Represents.write code fuel off buf content (List.replicate len value.toUInt32.toUInt8)
      represents enough
    rw [length] at writes
    exact writes within doubled
  | clear => exact ⟨buf.clear, rfl, represents.clear, rfl, rfl⟩

theorem Represents.doubled_of_call {call : ArrayCall} (represents : buf.Represents content)
    (returns : (buf.call .cpp fuel call).isSome) : buf.Doubled call.endOffset := by
  cases call with
  | memcpy off srcarray =>
    exact represents.doubled_of_dynamicReserve (Option.isSome_of_isSome_bind returns)
  | memset off value len =>
    exact represents.doubled_of_dynamicReserve (Option.isSome_of_isSome_bind returns)
  | clear =>
    obtain ⟨j, fits, _⟩ := represents.capability
    exact ⟨j, Nat.zero_le _, fits⟩

theorem Represents.calls {calls : List ArrayCall} (represents : buf.Represents content) (enough : 31 ≤ fuel)
    (within : ∀ call ∈ calls, call.endOffset ≤ buf.maxcapability)
    (doubled : ∀ call ∈ calls, buf.Doubled call.endOffset) :
    ∃ after, calls.foldlM (ArrayState.call code fuel) buf = some after ∧
      after.Represents (calls.foldl ArrayCall.onList content) := by
  induction calls generalizing buf content with
  | nil => exact ⟨buf, rfl, represents⟩
  | cons call calls ih =>
    obtain ⟨middle, first, kept, sameMin, sameMax⟩ := @Represents.call code _ _ _ _ represents enough
      (within call List.mem_cons_self) (doubled call List.mem_cons_self)
    have restWithin : ∀ call ∈ calls, call.endOffset ≤ middle.maxcapability := fun later member =>
      sameMax ▸ within later (List.mem_cons_of_mem _ member)
    have restDoubled : ∀ call ∈ calls, middle.Doubled call.endOffset := fun later member => by
      unfold Doubled
      rw [sameMin]
      exact doubled later (List.mem_cons_of_mem _ member)
    obtain ⟨after, rest, last⟩ := ih kept restWithin restDoubled
    refine ⟨after, ?_, last⟩
    rw [List.foldlM_cons, first]
    exact rest

/-- In C++ no other run returns. -/
theorem Represents.doubled_of_calls {calls : List ArrayCall} (represents : buf.Represents content)
    (enough : 31 ≤ fuel) (within : ∀ call ∈ calls, call.endOffset ≤ buf.maxcapability)
    (returns : (calls.foldlM (ArrayState.call .cpp fuel) buf).isSome) :
    ∀ call ∈ calls, buf.Doubled call.endOffset := by
  induction calls generalizing buf content with
  | nil => exact fun _ member => nomatch member
  | cons call calls ih =>
    rw [List.foldlM_cons] at returns
    have firstDoubled := represents.doubled_of_call (Option.isSome_of_isSome_bind returns)
    obtain ⟨middle, first, kept, sameMin, sameMax⟩ := @Represents.call .cpp _ _ _ _ represents enough
      (within call List.mem_cons_self) firstDoubled
    rw [first] at returns
    have rest := ih kept (fun later member => sameMax ▸ within later (List.mem_cons_of_mem _ member)) returns
    intro later member
    rcases List.mem_cons.mp member with rfl | member
    · exact firstDoubled
    · have laterDoubled := rest later member
      unfold Doubled at laterDoubled ⊢
      rwa [sameMin] at laterDoubled

end Calls

end ArrayState

theorem length_foldl_onList (calls : List ArrayCall) (content : List UInt8) :
    (calls.foldl ArrayCall.onList content).length = calls.foldl ArrayCall.largestEnd content.length := by
  induction calls generalizing content with
  | nil => rfl
  | cons call calls ih =>
    rw [List.foldl_cons, List.foldl_cons, ih]
    congr 1
    cases call with
    | memcpy off srcarray => exact length_splice _ _ _
    | memset off value len =>
      rw [ArrayCall.onList, length_splice, List.length_replicate]
      rfl
    | clear => rfl

/-- Calls within the maximum capability refine the list of bytes, in both implementations, exactly if for each of them
the minimum capability can be doubled up to its end offset without an overflow; it is the C++ code that needs this for
every call. -/
theorem dynamicArray_refines_list {mincapability maxcapability : Int32} {buf : ArrayState}
    (initialised : ArrayState.init mincapability maxcapability = some buf) {fuel : Nat} (enough : 31 ≤ fuel)
    {calls : List ArrayCall} (within : ∀ call ∈ calls, call.endOffset ≤ buf.maxcapability) :
    ((∀ code, RefinesList code fuel buf calls) ↔ ∀ call ∈ calls, buf.Doubled call.endOffset) ∧
      (RefinesList .cpp fuel buf calls ↔ ∀ call ∈ calls, buf.Doubled call.endOffset) := by
  have represents := ArrayState.represents_init initialised
  have sufficient : (∀ call ∈ calls, buf.Doubled call.endOffset) → ∀ code, RefinesList code fuel buf calls := by
    intro doubled code
    obtain ⟨after, run, last⟩ := @ArrayState.Represents.calls code _ _ _ _ represents enough within doubled
    refine ⟨after, run, ?_, ?_⟩
    · rw [last.cursize, length_foldl_onList]
      rfl
    · rw [last.cursize]
      exact last.padded.take
  have necessary : RefinesList .cpp fuel buf calls → ∀ call ∈ calls, buf.Doubled call.endOffset := by
    rintro ⟨after, run, _⟩
    exact represents.doubled_of_calls enough within (by rw [run]; rfl)
  exact ⟨⟨fun refines => necessary (refines .cpp), sufficient⟩, necessary, fun doubled => sufficient doubled .cpp⟩

/-- Three writes into an array of 4 to 100 bytes, out of order, with a gap in front of the second. -/
theorem dynamicArray_refines_list_three :
    RefinesList .java 31 ⟨0, List.replicate 4 0, 4, 100⟩
      [.memcpy 2 [1, 2, 3], .memset 8 (-1) 2, .clear, .memcpy 60 [7]] := by
  have initialised : ArrayState.init 4 100 = some ⟨0, List.replicate 4 0, 4, 100⟩ := rfl
  refine (dynamicArray_refines_list initialised le_rfl ?_).1.mpr ?_ .java
  · decide
  · intro call member
    refine ⟨4, ?_, by decide⟩
    revert call
    decide

theorem ArrayState.doubleWhile_java_zero {target : Nat} (positive : 0 < target) (fuel : Nat) :
    doubleWhile .java target fuel 0 = none := by
  induction fuel with
  | zero => rfl
  | succ fuel ih =>
    unfold doubleWhile
    rw [if_pos (by omega)]
    exact ih

theorem ArrayState.dynamicReserve_overflow {buf : ArrayState} (length : buf.array.length = 2 ^ 30)
    (maxcapability : buf.maxcapability = 2 ^ 30 + 1) (code : ArrayCode) (fuel : Nat) :
    buf.dynamicReserve code fuel (2 ^ 30) 1 = none := by
  unfold ArrayState.dynamicReserve
  rw [if_neg (by omega), if_pos (by omega), if_neg (by omega), length]
  cases code with
  | cpp => rfl
  | java =>
    have negative : twice .java ((2 ^ 30 : Nat) : Int) = some (-2147483648) := by decide
    have loop : doubleWhile .java (2 ^ 30 + 1) fuel (-2147483648) = none := by
      cases fuel with
      | zero => rfl
      | succ fuel =>
        unfold doubleWhile
        rw [if_pos (by decide)]
        exact doubleWhile_java_zero (by decide) fuel
    simp only [guard, reduceCtorEq, false_implies, if_true, Option.pure_def, Option.bind_eq_bind, Option.bind_some,
      negative, loop, Option.bind_none]

/-- An array of no minimum capability cannot hold a byte, and one of 2^30 bytes cannot grow by one: the C++ code
aborts or overflows, and the loop of the Java code never ends. -/
theorem dynamicArray_cannot_grow :
    (∃ buf, ArrayState.init 0 1 = some buf ∧
      ∀ code fuel, [ArrayCall.memcpy 0 [1]].foldlM (ArrayState.call code fuel) buf = none) ∧
    ∃ buf, ArrayState.init 1073741824 1073741825 = some buf ∧
      ∀ code fuel, [ArrayCall.memset 1073741824 0 1].foldlM (ArrayState.call code fuel) buf = none := by
  refine ⟨⟨⟨0, [], 0, 1⟩, rfl, fun code fuel => ?_⟩,
    ⟨0, List.replicate 1073741824 0, 1073741824, 1073741825⟩, rfl, fun code fuel => ?_⟩
  · have stuck : ArrayState.dynamicReserve code fuel ⟨0, [], 0, 1⟩ 0 1 = none := by
      cases code with
      | cpp => rfl
      | java =>
        have loop := ArrayState.doubleWhile_java_zero (by decide : 0 < 1) fuel
        have still : ArrayState.twice .java 0 = some 0 := by decide
        simp [ArrayState.dynamicReserve, guard, still, loop]
    rw [List.foldlM_cons, ArrayState.call, ArrayState.dynamicMemcpy, List.length_singleton, stuck]
    rfl
  · have stuck : ArrayState.dynamicReserve code fuel
        ⟨0, List.replicate 1073741824 0, 1073741824, 1073741825⟩ 1073741824 1 = none :=
      ArrayState.dynamicReserve_overflow List.length_replicate rfl code fuel
    rw [List.foldlM_cons, ArrayState.call, ArrayState.dynamicMemset, stuck]
    rfl

namespace DynamicArray

def toState (buf : DynamicArray) : ArrayState := ⟨buf.cursize, buf.array, buf.mincapability, buf.maxcapability⟩

theorem doubleWhile_eq_doubleUntil {code : ArrayCode} {target capability k fuel steps : Nat} (small : target ≤ 2 ^ 30)
    (reaches : target ≤ capability * 2 ^ k) (enough : k < fuel) (positive : 0 < capability)
    (enoughSteps : target ≤ capability + steps) :
    ArrayState.doubleWhile code target fuel capability =
      some ((doubleUntil target steps capability : Nat) : Int) := by
  induction fuel generalizing k capability steps with
  | zero => omega
  | succ fuel ih =>
    unfold ArrayState.doubleWhile
    by_cases less : capability < target
    · cases k with
      | zero =>
        rw [Nat.pow_zero, Nat.mul_one] at reaches
        omega
      | succ k =>
        cases steps with
        | zero => omega
        | succ steps =>
          have shifted : capability * 2 ^ (k + 1) = 2 * capability * 2 ^ k := by ring
          rw [if_pos (by omega), ArrayState.twice_of_fits (by omega), doubleUntil, if_pos less]
          exact ih (shifted ▸ reaches) (by omega) (by omega) (by omega)
    · rw [if_neg (by omega)]
      cases steps with
      | zero => rfl
      | succ steps => rw [doubleUntil, if_neg less]

theorem toState_dynamicReserve {code : ArrayCode} {fuel : Nat} (enough : 31 ≤ fuel) (buf : DynamicArray)
    (off len : Nat) :
    buf.toState.dynamicReserve code fuel off len = (buf.dynamicReserve off len).map toState := by
  have bounded := buf.bounded
  have nonempty := buf.positive.trans_le buf.mincapability_le
  by_cases exceeds : buf.maxcapability < off + len
  · rw [dynamicReserve, if_pos exceeds, ArrayState.dynamicReserve]
    exact if_pos exceeds
  by_cases short : buf.array.length < off + len
  · have reaches : off + len ≤ 2 * buf.array.length * 2 ^ 30 := by omega
    have loop := @doubleWhile_eq_doubleUntil code (off + len) (2 * buf.array.length) 30 fuel (off + len)
      (by omega) reaches (by omega) (by omega) (by omega)
    have grows : off + len ≤ doubleUntil (off + len) (off + len) (2 * buf.array.length) :=
      le_doubleUntil (by omega) (by omega)
    rw [dynamicReserve, if_neg exceeds, if_pos short, if_neg (by omega)]
    exact @ArrayState.dynamicReserve_of_loop code fuel off len buf.toState _ short (Nat.le_of_not_lt exceeds) nonempty
      (by change 2 * buf.array.length < _; omega) loop grows
  · rw [dynamicReserve, if_neg exceeds, if_neg short, ArrayState.dynamicReserve]
    exact (if_neg exceeds).trans (if_neg short)

theorem toState_place (buf : DynamicArray) (off : Nat) (bytes : List UInt8) :
    buf.toState.place off bytes = (buf.place off bytes).map toState := by
  unfold ArrayState.place place
  by_cases fits : off + bytes.length ≤ buf.array.length
  · rw [dif_pos fits]
    exact if_pos fits
  · rw [dif_neg fits]
    exact if_neg fits

theorem toState_dynamicMemcpy {code : ArrayCode} {fuel : Nat} (enough : 31 ≤ fuel) (buf : DynamicArray) (off : Nat)
    (srcarray : List UInt8) :
    buf.toState.dynamicMemcpy code fuel off srcarray = (buf.dynamicMemcpy off srcarray).map toState := by
  unfold ArrayState.dynamicMemcpy dynamicMemcpy
  rw [toState_dynamicReserve enough]
  cases buf.dynamicReserve off srcarray.length with
  | none => rfl
  | some reserved => exact toState_place reserved off srcarray

theorem exists_doubling {size capability n : Nat} (small : size ≤ 2 ^ 30) (fits : capability < 2 ^ 31)
    (reaches : size ≤ capability * 2 ^ n) : ∃ k, size ≤ capability * 2 ^ k ∧ capability * 2 ^ k < 2 ^ 31 := by
  induction n generalizing capability with
  | zero => exact ⟨0, reaches, by omega⟩
  | succ n ih =>
    by_cases enough : size ≤ capability
    · exact ⟨0, by omega, by omega⟩
    · have shifted : ∀ k, capability * 2 ^ (k + 1) = 2 * capability * 2 ^ k := fun k => by ring
      rw [shifted] at reaches
      obtain ⟨k, found⟩ := ih (by omega) reaches
      exact ⟨k + 1, (shifted k).symm ▸ found⟩

/-- Positive capabilities of at most 2^30 bytes can always be doubled far enough. -/
theorem doubled (buf : DynamicArray) {size : Nat} (small : size ≤ 2 ^ 30) : buf.toState.Doubled size := by
  have positive := buf.positive
  have bounded := (buf.mincapability_le.trans buf.curcapability_le).trans buf.bounded
  refine @exists_doubling size buf.mincapability 30 small (by omega) ?_
  omega

theorem dynamicMemcpy_represents {buf : DynamicArray} {content : List UInt8}
    (represents : buf.toState.Represents content) {off : Nat} {bytes : List UInt8}
    (fits : off + bytes.length ≤ buf.maxcapability) :
    ∃ after, buf.dynamicMemcpy off bytes = some after ∧ after.toState.Represents (splice 0 content off bytes) ∧
      after.maxcapability = buf.maxcapability := by
  have bounded := buf.bounded
  obtain ⟨written, write, kept, _, same⟩ := @ArrayState.Represents.write .cpp 31 _ _ _ _ represents le_rfl fits
    (buf.doubled (by omega))
  have mapped : (buf.dynamicMemcpy off bytes).map toState = some written := by
    rw [← toState_dynamicMemcpy le_rfl]
    exact write
  obtain ⟨after, copied, rfl⟩ := Option.map_eq_some_iff.mp mapped
  exact ⟨after, copied, kept, same⟩

end DynamicArray

end FarReach
