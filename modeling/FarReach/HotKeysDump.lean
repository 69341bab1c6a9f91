import FarReach.OrderedMap

namespace FarReach

/-- Sums of `int`s wrap around. -/
def javaInt (n : Int) : Int := n.bmod (2 ^ 32)

theorem javaInt_lt (n : Int) : javaInt n < 2 ^ 31 := by
  have bound : n.bmod (2 ^ 32) < ((2 ^ 32 : Nat) + 1) / 2 := Int.bmod_lt (by decide)
  unfold javaInt
  omega

theorem javaInt_of_nonneg {n : Int} (nonneg : 0 ≤ n) (small : n < 2 ^ 31) : javaInt n = n := by
  refine Int.bmod_eq_of_le ?_ ?_ <;> omega

theorem javaInt_add_left (a b : Int) : javaInt (javaInt a + b) = javaInt (a + b) := Int.bmod_add_bmod

section Dump

variable {K : Type} [Ord K] [Std.TransOrd K]

variable (K) in
/-- The frequencies a client has recorded: a key enters with 1, and every further request adds 1. -/
structure KeyFrequencyRecords where
  frequencies : Std.ExtTreeMap K Int
  counted : ∀ (key : K) (frequency : Int), frequencies[key]? = some frequency → 0 < frequency ∧ frequency < 2 ^ 31

variable (K) in
/-- The order in which a `HashMap` lists its entries; nothing is known about it. -/
structure EntryOrder where
  entrySet : Std.ExtTreeMap K Int → List (K × Int)
  listed : ∀ map, (entrySet map).Perm map.toList

def addRecords (order : EntryOrder K) (total records : Std.ExtTreeMap K Int) : Std.ExtTreeMap K Int :=
  (order.entrySet records).foldl
    (fun total entry => total.insert entry.1 (javaInt (total[entry.1]?.getD 0 + entry.2))) total

/-- The outer loop: with `i` rounds behind it, it takes the first map out of the list and goes on as long
as `i` is below the size of what is left. -/
def aggregateRecords (order : EntryOrder K) : Nat → List (KeyFrequencyRecords K) → Std.ExtTreeMap K Int →
    Std.ExtTreeMap K Int
  | _, [], total => total
  | i, records :: rest, total =>
    if i < rest.length + 1 then aggregateRecords order (i + 1) rest (addRecords order total records.frequencies)
    else total

def totalKeyFrequencyRecords (order : EntryOrder K) (keyFrequencyRecordsList : List (KeyFrequencyRecords K)) :
    Std.ExtTreeMap K Int :=
  aggregateRecords order 0 keyFrequencyRecordsList ∅

variable (K) in
structure HotKeysDump where
  hotest : List (K × Int)
  nearhot : List (K × Int)
  coldest : List (K × Int)

/-- `dumpHotKeys`. The loop that writes the second file leaves it behind a line, so it writes one line even
if `maxnum` is zero. -/
def dumpHotKeys (order : EntryOrder K) (maxLoadBatchSize : Nat)
    (keyFrequencyRecordsList : List (KeyFrequencyRecords K)) : HotKeysDump K :=
  let sortedKeyFrequencyRecords :=
    (order.entrySet (totalKeyFrequencyRecords order keyFrequencyRecordsList)).mergeSort fun a b => b.2 ≤ a.2
  let maxnum :=
    if sortedKeyFrequencyRecords.length > maxLoadBatchSize then maxLoadBatchSize
    else sortedKeyFrequencyRecords.length
  { hotest := sortedKeyFrequencyRecords.take maxnum
    nearhot := (sortedKeyFrequencyRecords.drop maxnum).take (max maxnum 1)
    coldest := sortedKeyFrequencyRecords.reverse.take maxnum }

def totalFrequencyOf (keyFrequencyRecordsList : List (KeyFrequencyRecords K)) (key : K) : Int :=
  (keyFrequencyRecordsList.map fun records => records.frequencies[key]?.getD 0).sum

/-- A list of the most frequent keys with their frequencies, in descending order, as long as `size` allows. -/
structure IsTop (frequency : K → Int) (size : Nat) (dumped : List (K × Int)) : Prop where
  descending : dumped.Pairwise fun a b => b.2 ≤ a.2
  distinct : dumped.Pairwise fun a b => a.1 ≠ b.1
  frequencies : ∀ entry ∈ dumped, entry.2 = frequency entry.1
  highest : ∀ entry ∈ dumped, ∀ key, 0 < frequency key → (∀ other ∈ dumped, other.1 ≠ key) →
    frequency key ≤ entry.2
  full : dumped.length = size ∨
    dumped.length < size ∧ ∀ key, 0 < frequency key → ∃ entry ∈ dumped, entry.1 = key

end Dump

section Aggregate

variable {K : Type} [Ord K] [Std.TransOrd K] [Std.LawfulEqOrd K] [DecidableEq K] (order : EntryOrder K)

omit [DecidableEq K] [Std.LawfulEqOrd K] in
/-- The loop shortens the list while it counts up, so it ends with half of the clients. -/
theorem aggregateRecords_eq (i : Nat) (list : List (KeyFrequencyRecords K)) (total : Std.ExtTreeMap K Int) :
    aggregateRecords order i list total =
      (list.take ((list.length - i + 1) / 2)).foldl
        (fun total records => addRecords order total records.frequencies) total := by
  induction list generalizing i total with
  | nil => simp [aggregateRecords]
  | cons records rest ih =>
    unfold aggregateRecords
    by_cases more : i < rest.length + 1
    · have half : ((records :: rest).length - i + 1) / 2 = (rest.length - (i + 1) + 1) / 2 + 1 := by
        simp only [List.length_cons]
        omega
      rw [if_pos more, ih, half, List.take_succ_cons, List.foldl_cons]
    · have none : ((records :: rest).length - i + 1) / 2 = 0 := by
        simp only [List.length_cons]
        omega
      rw [if_neg more, none, List.take_zero, List.foldl_nil]

theorem getD_insertSum (total : Std.ExtTreeMap K Int) (entry : K × Int) (key : K) {sum : Int}
    (start : total[key]?.getD 0 = javaInt sum) :
    (total.insert entry.1 (javaInt (total[entry.1]?.getD 0 + entry.2)))[key]?.getD 0 =
      javaInt (sum + (([entry].filter fun entry => entry.1 = key).map Prod.snd).sum) := by
  rw [OrderedMap.lookup_insert]
  by_cases same : key = entry.1
  · subst same
    simp [start, javaInt_add_left]
  · simp [same, Ne.symm same, start]

theorem getD_foldl_entries (entries : List (K × Int)) (total : Std.ExtTreeMap K Int) (key : K) {sum : Int}
    (start : total[key]?.getD 0 = javaInt sum) :
    (entries.foldl (fun total entry => total.insert entry.1 (javaInt (total[entry.1]?.getD 0 + entry.2)))
        total)[key]?.getD 0 =
      javaInt (sum + ((entries.filter fun entry => entry.1 = key).map Prod.snd).sum) := by
  induction entries generalizing total sum with
  | nil => simpa using start
  | cons entry rest ih =>
    have split : (entry :: rest).filter (fun entry => entry.1 = key) =
        [entry].filter (fun entry => entry.1 = key) ++ rest.filter (fun entry => entry.1 = key) := by
      rw [← List.filter_append, List.singleton_append]
    rw [List.foldl_cons, ih _ (getD_insertSum total entry key start), split, List.map_append, List.sum_append,
      add_assoc]

theorem getD_addRecords (total records : Std.ExtTreeMap K Int) (key : K) {sum : Int}
    (start : total[key]?.getD 0 = javaInt sum) :
    (addRecords order total records)[key]?.getD 0 = javaInt (sum + records[key]?.getD 0) := by
  unfold addRecords
  rw [getD_foldl_entries _ _ _ start, OrderedMap.filter_key_of_perm (order.listed records)]
  cases records[key]? <;> simp

theorem getD_foldl_addRecords (list : List (KeyFrequencyRecords K)) (total : Std.ExtTreeMap K Int)
    (key : K) {sum : Int} (start : total[key]?.getD 0 = javaInt sum) :
    (list.foldl (fun total records => addRecords order total records.frequencies) total)[key]?.getD 0 =
      javaInt (sum + totalFrequencyOf list key) := by
  induction list generalizing total sum with
  | nil => simpa [totalFrequencyOf] using start
  | cons records rest ih =>
    rw [List.foldl_cons, ih _ (getD_addRecords order total _ key start), add_assoc]
    rfl

/-- What the loops count for a key: the requests of the first half of the clients. -/
theorem totalKeyFrequencyRecords_getD (list : List (KeyFrequencyRecords K)) (key : K) :
    (totalKeyFrequencyRecords order list)[key]?.getD 0 =
      javaInt (totalFrequencyOf (list.take ((list.length + 1) / 2)) key) := by
  unfold totalKeyFrequencyRecords
  have start : (∅ : Std.ExtTreeMap K Int)[key]?.getD 0 = javaInt 0 := by simp [javaInt]
  rw [aggregateRecords_eq, getD_foldl_addRecords order _ ∅ key start, zero_add, Nat.sub_zero]

end Aggregate

section Totals

variable {K : Type} [Ord K] [Std.TransOrd K]

theorem KeyFrequencyRecords.getD_nonneg (records : KeyFrequencyRecords K) (key : K) :
    0 ≤ records.frequencies[key]?.getD 0 := by
  cases found : records.frequencies[key]? with
  | none => exact le_rfl
  | some frequency => exact (records.counted key frequency found).1.le

theorem totalFrequencyOf_nonneg (list : List (KeyFrequencyRecords K)) (key : K) : 0 ≤ totalFrequencyOf list key := by
  refine List.sum_nonneg fun frequency member => ?_
  obtain ⟨records, _, rfl⟩ := List.mem_map.mp member
  exact records.getD_nonneg key

theorem totalFrequencyOf_append (first second : List (KeyFrequencyRecords K)) (key : K) :
    totalFrequencyOf (first ++ second) key = totalFrequencyOf first key + totalFrequencyOf second key := by
  simp [totalFrequencyOf]

/-- No requests at all: no client has recorded anything. -/
theorem totalFrequencyOf_eq_zero_iff (list : List (KeyFrequencyRecords K)) :
    (∀ key, totalFrequencyOf list key = 0) ↔ ∀ records ∈ list, records.frequencies = ∅ := by
  constructor
  · intro zero records member
    refine Std.ExtTreeMap.eq_empty_iff_forall_not_mem.mpr fun key present => ?_
    obtain ⟨frequency, found⟩ := Option.isSome_iff_exists.mp
      (Std.ExtTreeMap.mem_iff_isSome_getElem?.mp present)
    have positive := (records.counted key frequency found).1
    have below : records.frequencies[key]?.getD 0 ≤ totalFrequencyOf list key := by
      refine List.single_le_sum (fun frequency inside => ?_) _ (List.mem_map_of_mem member)
      obtain ⟨other, _, rfl⟩ := List.mem_map.mp inside
      exact other.getD_nonneg key
    rw [found, zero key] at below
    exact absurd below (not_le.mpr positive)
  · intro empty key
    refine List.sum_eq_zero fun frequency member => ?_
    obtain ⟨records, inside, rfl⟩ := List.mem_map.mp member
    simp [empty records inside]

end Totals

section Top

variable {K : Type} [Ord K] [Std.TransOrd K] [Std.LawfulEqOrd K] [DecidableEq K] (order : EntryOrder K)

omit [Ord K] [Std.TransOrd K] [Std.LawfulEqOrd K] [DecidableEq K] in
theorem isTop_take {frequency : K → Int} {sorted : List (K × Int)} (size : Nat)
    (descending : sorted.Pairwise fun a b => b.2 ≤ a.2) (distinct : sorted.Pairwise fun a b => a.1 ≠ b.1)
    (value : ∀ entry ∈ sorted, entry.2 = frequency entry.1)
    (present : ∀ key, 0 < frequency key → ∃ entry ∈ sorted, entry.1 = key) :
    IsTop frequency size (sorted.take (if sorted.length > size then size else sorted.length)) := by
  refine ⟨descending.sublist (List.take_sublist ..), distinct.sublist (List.take_sublist ..),
    fun entry member => value entry (List.mem_of_mem_take member), ?_, ?_⟩
  · intro entry member key positive outside
    obtain ⟨other, inSorted, rfl⟩ := present key positive
    rw [← List.take_append_drop (if sorted.length > size then size else sorted.length) sorted] at inSorted descending
    rcases List.mem_append.mp inSorted with inTake | inDrop
    · exact absurd rfl (outside other inTake)
    · rw [← value other (List.mem_of_mem_drop inDrop)]
      exact (List.pairwise_append.mp descending).2.2 entry member other inDrop
  · by_cases many : sorted.length > size
    · left
      rw [List.length_take, if_pos many]
      omega
    · rw [if_neg many, List.take_length]
      by_cases equal : sorted.length = size
      · exact Or.inl equal
      · exact Or.inr ⟨by omega, present⟩

/-- The first file has the top of the frequencies that were aggregated. -/
theorem isTop_hotest (maxLoadBatchSize : Nat) (list : List (KeyFrequencyRecords K)) {frequency : K → Int}
    (aggregated : ∀ key, (totalKeyFrequencyRecords order list)[key]?.getD 0 = frequency key) :
    IsTop frequency maxLoadBatchSize (dumpHotKeys order maxLoadBatchSize list).hotest := by
  let total := totalKeyFrequencyRecords order list
  let sorted := (order.entrySet total).mergeSort fun a b => decide (b.2 ≤ a.2)
  have listed : sorted.Perm total.toList := (List.mergeSort_perm _ _).trans (order.listed total)
  refine @isTop_take K frequency sorted maxLoadBatchSize ?_ ?_ ?_ ?_
  · have ordered := @List.pairwise_mergeSort _ (fun a b : K × Int => decide (b.2 ≤ a.2))
      (fun a b c first second => by simp only [decide_eq_true_eq] at *; omega)
      (fun a b => by simp only [Bool.or_eq_true, decide_eq_true_eq]; omega) (order.entrySet total)
    exact ordered.imp fun above => of_decide_eq_true above
  · exact (OrderedMap.toList_distinct total).perm listed.symm fun different => different.symm
  · intro entry member
    have found := Std.ExtTreeMap.mem_toList_iff_getElem?_eq_some.mp (listed.mem_iff.mp member)
    rw [← aggregated, found]
    rfl
  · intro key positive
    cases found : total[key]? with
    | none =>
      have zero := aggregated key
      rw [found] at zero
      simp only [Option.getD_none] at zero
      omega
    | some count =>
      exact ⟨(key, count), listed.mem_iff.mpr (Std.ExtTreeMap.mem_toList_iff_getElem?_eq_some.mpr found), rfl⟩

/-- The dump counts the requests of every client and has the top of all frequencies exactly if the clients
of the second half have recorded nothing and every sum is an `int`. -/
theorem dumpHotKeys_counts_all_iff (maxLoadBatchSize : Nat) (list : List (KeyFrequencyRecords K)) :
    ((∀ key, (totalKeyFrequencyRecords order list)[key]?.getD 0 = totalFrequencyOf list key) ∧
        IsTop (totalFrequencyOf list) maxLoadBatchSize (dumpHotKeys order maxLoadBatchSize list).hotest) ↔
      (∀ records ∈ list.drop ((list.length + 1) / 2), records.frequencies = ∅) ∧
        ∀ key, totalFrequencyOf list key < 2 ^ 31 := by
  have split : ∀ key, totalFrequencyOf list key =
      totalFrequencyOf (list.take ((list.length + 1) / 2)) key +
        totalFrequencyOf (list.drop ((list.length + 1) / 2)) key := by
    intro key
    rw [← totalFrequencyOf_append, List.take_append_drop]
  rw [← totalFrequencyOf_eq_zero_iff]
  constructor
  · rintro ⟨aggregated, _⟩
    have small : ∀ key, totalFrequencyOf list key < 2 ^ 31 := by
      intro key
      rw [← aggregated key, totalKeyFrequencyRecords_getD]
      exact javaInt_lt _
    refine ⟨fun key => ?_, small⟩
    have first := totalFrequencyOf_nonneg (list.take ((list.length + 1) / 2)) key
    have second := totalFrequencyOf_nonneg (list.drop ((list.length + 1) / 2)) key
    have parts := split key
    have bound := small key
    have same := aggregated key
    rw [totalKeyFrequencyRecords_getD, javaInt_of_nonneg first (by omega)] at same
    omega
  · rintro ⟨idle, small⟩
    have aggregated : ∀ key, (totalKeyFrequencyRecords order list)[key]?.getD 0 = totalFrequencyOf list key := by
      intro key
      have parts := split key
      rw [idle key, add_zero] at parts
      rw [totalKeyFrequencyRecords_getD, ← parts]
      exact javaInt_of_nonneg (totalFrequencyOf_nonneg list key) (small key)
    exact ⟨aggregated, isTop_hotest order maxLoadBatchSize list aggregated⟩

end Top

def oneRequest (key : Nat) : KeyFrequencyRecords Nat where
  frequencies := (∅ : Std.ExtTreeMap Nat Int).insert key 1
  counted other frequency found := by
    rw [OrderedMap.lookup_insert] at found
    split at found
    · cases found
      decide
    · simp at found

def inKeyOrder : EntryOrder Nat := ⟨fun map => map.toList, fun _ => .refl _⟩

theorem dumpHotKeys_counts_all_iff_single :
    (∀ key, (totalKeyFrequencyRecords inKeyOrder [oneRequest 1])[key]?.getD 0 = totalFrequencyOf [oneRequest 1] key) ∧
      IsTop (totalFrequencyOf [oneRequest 1]) 10 (dumpHotKeys inKeyOrder 10 [oneRequest 1]).hotest := by
  refine (dumpHotKeys_counts_all_iff inKeyOrder 10 [oneRequest 1]).mpr ⟨nofun, fun key => ?_⟩
  simp only [totalFrequencyOf, oneRequest, List.map_cons, List.map_nil, List.sum_cons, List.sum_nil,
    OrderedMap.lookup_insert]
  split <;> simp

/-- Of two clients the second is not counted, and its key is not dumped. -/
theorem second_client_not_counted :
    totalFrequencyOf [oneRequest 1, oneRequest 2] 2 = 1 ∧
      (totalKeyFrequencyRecords inKeyOrder [oneRequest 1, oneRequest 2])[2]?.getD 0 = 0 ∧
      (dumpHotKeys inKeyOrder 10 [oneRequest 1, oneRequest 2]).hotest = [(1, 1)] := by
  have single : totalKeyFrequencyRecords inKeyOrder [oneRequest 1, oneRequest 2] = (oneRequest 1).frequencies := by
    decide +kernel
  have listed : inKeyOrder.entrySet (oneRequest 1).frequencies = [(1, 1)] := by decide +kernel
  refine ⟨by decide +kernel, by rw [single]; decide +kernel, ?_⟩
  simp [dumpHotKeys, single, listed]

end FarReach
