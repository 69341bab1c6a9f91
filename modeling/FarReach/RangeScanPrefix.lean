import FarReach.RangeScan
import FarReach.SortedEntries

namespace FarReach

open SortedEntries Function

/-- The newer of two records of a key; on a tie the first. -/
def newestRecord : Option SnapshotRecord → Option SnapshotRecord → Option SnapshotRecord
  | none, record => record
  | record, none => record
  | some a, some b => some (if a.seq ≥ b.seq then a else b)

@[simp] theorem newestRecord_none (record : Option SnapshotRecord) : newestRecord record none = record := by
  cases record <;> rfl

@[simp] theorem none_newestRecord (record : Option SnapshotRecord) : newestRecord none record = record := rfl

theorem newestRecord_ne_none {a b : Option SnapshotRecord} (found : newestRecord a b ≠ none) :
    a ≠ none ∨ b ≠ none := by
  cases a with
  | none => exact Or.inr found
  | some _ => exact Or.inl (by simp)

section Merge

variable {veca vecb : List (Key × SnapshotRecord)} {viewa viewb : Key → Option SnapshotRecord}

def keeps (needExist : Bool) (record : SnapshotRecord) : Bool := !needExist || record.stat

/-- One round of the loop: the record of the least key goes to the front of what the later rounds make of
the other keys. -/
theorem enumerates_round {needExist : Bool} {front : Key × SnapshotRecord} {rest : List (Key × SnapshotRecord)}
    {resta restb : Key → Option SnapshotRecord}
    (lists : Enumerates rest fun key => (newestRecord (resta key) (restb key)).filter (keeps needExist))
    (least : ∀ key, resta key ≠ none ∨ restb key ≠ none → compare front.1 key = .lt)
    (newest : newestRecord (viewa front.1) (viewb front.1) = some front.2)
    (others : ∀ key, key ≠ front.1 → viewa key = resta key ∧ viewb key = restb key) :
    Enumerates ([front].filter (keepsRecord needExist) ++ rest)
      fun key => (newestRecord (viewa key) (viewb key)).filter (keeps needExist) := by
  have placed := lists.cons_filter front (keeps needExist) fun key defined =>
    least key (newestRecord_ne_none fun absent => defined (by rw [absent]; rfl))
  have view : update (fun key => (newestRecord (resta key) (restb key)).filter (keeps needExist)) front.1
      ((some front.2).filter (keeps needExist)) =
        fun key => (newestRecord (viewa key) (viewb key)).filter (keeps needExist) := by
    funext key
    by_cases same : key = front.1
    · subst same
      rw [update_self, newest]
    · rw [update_of_ne same, (others key same).1, (others key same).2]
  rw [← view]
  exact placed

/-- `merge_sort` may be called: equal keys are allowed or there are none. -/
def Mergeable (needExist : Bool) (viewa viewb : Key → Option SnapshotRecord) : Prop :=
  needExist = true ∨ ∀ key, viewa key = none ∨ viewb key = none

theorem Mergeable.update_left {needExist : Bool} (mergeable : Mergeable needExist viewa viewb) (first : Key) :
    Mergeable needExist (update viewa first none) viewb := by
  refine mergeable.imp_right fun apart key => ?_
  by_cases same : key = first
  · exact Or.inl (by rw [same, update_self])
  · rw [update_of_ne same]
    exact apart key

theorem Mergeable.symm {needExist : Bool} (mergeable : Mergeable needExist viewa viewb) :
    Mergeable needExist viewb viewa :=
  mergeable.imp_right fun apart key => (apart key).symm

section Rounds

variable {needExist : Bool} {a b : Key × SnapshotRecord} {resta restb rest : List (Key × SnapshotRecord)}

/-- The first record of the first list goes: the second list has none for its key. -/
theorem enumerates_first (listsA : Enumerates (a :: resta) viewa) (listsB : Enumerates (b :: restb) viewb)
    (before : compare a.1 b.1 = .lt)
    (lists : Enumerates rest fun key =>
      (newestRecord (update viewa a.1 none key) (viewb key)).filter (keeps needExist)) :
    Enumerates ([a].filter (keepsRecord needExist) ++ rest)
      fun key => (newestRecord (viewa key) (viewb key)).filter (keeps needExist) := by
  have absent : viewb a.1 = none := by
    by_contra defined
    exact not_lt_self _ (listsB.lt_of_lt_head before defined)
  refine enumerates_round lists ?_ ?_ ?_
  · rintro key (inA | inB)
    · exact listsA.lt_of_tail inA
    · exact listsB.lt_of_lt_head before inB
  · rw [absent, newestRecord_none, listsA.view_head]
  · exact fun key other => ⟨(update_of_ne other ..).symm, rfl⟩

theorem enumerates_second (listsA : Enumerates (a :: resta) viewa) (listsB : Enumerates (b :: restb) viewb)
    (before : compare b.1 a.1 = .lt)
    (lists : Enumerates rest fun key =>
      (newestRecord (viewa key) (update viewb b.1 none key)).filter (keeps needExist)) :
    Enumerates ([b].filter (keepsRecord needExist) ++ rest)
      fun key => (newestRecord (viewa key) (viewb key)).filter (keeps needExist) := by
  have absent : viewa b.1 = none := by
    by_contra defined
    exact not_lt_self _ (listsA.lt_of_lt_head before defined)
  refine enumerates_round lists ?_ ?_ ?_
  · rintro key (inA | inB)
    · exact listsA.lt_of_lt_head before inA
    · exact listsB.lt_of_tail inB
  · rw [absent, none_newestRecord, listsB.view_head]
  · exact fun key other => ⟨rfl, (update_of_ne other ..).symm⟩

/-- Both lists begin with one key: the newer record goes, the other is dropped. -/
theorem enumerates_both (listsA : Enumerates (a :: resta) viewa) (listsB : Enumerates (b :: restb) viewb)
    (same : a.1 = b.1)
    (lists : Enumerates rest fun key => (newestRecord (update viewa a.1 none key)
      (update viewb b.1 none key)).filter (keeps needExist)) :
    Enumerates ([if a.2.seq ≥ b.2.seq then a else b].filter (keepsRecord needExist) ++ rest)
      fun key => (newestRecord (viewa key) (viewb key)).filter (keeps needExist) := by
  have frontKey : (if a.2.seq ≥ b.2.seq then a else b).1 = a.1 := by
    split
    · rfl
    · exact same.symm
  refine enumerates_round lists ?_ ?_ ?_
  · rw [frontKey]
    rintro key (inA | inB)
    · exact listsA.lt_of_tail inA
    · rw [same]
      exact listsB.lt_of_tail inB
  · rw [frontKey, listsA.view_head, same, listsB.view_head]
    simp only [newestRecord]
    split <;> rfl
  · rw [frontKey]
    intro key other
    exact ⟨(update_of_ne other ..).symm, (update_of_ne (same ▸ other) ..).symm⟩

/-- `merge_sort` meets one key in both lists only where that is allowed. -/
theorem Mergeable.of_same (mergeable : Mergeable needExist viewa viewb) (listsA : Enumerates (a :: resta) viewa)
    (listsB : Enumerates (b :: restb) viewb) (same : a.1 = b.1) : needExist = true := by
  refine mergeable.resolve_right fun disjoint => ?_
  rcases disjoint a.1 with absent | absent
  · rw [listsA.view_head] at absent
    cases absent
  · rw [same, listsB.view_head] at absent
    cases absent

end Rounds

/-- The merge loop on two sorted lists without a forbidden pair: the newest record of every key, in key
order. The induction follows the loop; in each round the key that goes is taken out of the views. -/
theorem mergeLoop_enumerates (needExist : Bool) (fuel : Nat) (listsA : Enumerates veca viewa)
    (listsB : Enumerates vecb viewb) (enough : veca.length + vecb.length ≤ fuel)
    (mergeable : Mergeable needExist viewa viewb) :
    ∃ merged, mergeLoop needExist fuel veca vecb = some merged ∧
      Enumerates merged fun key => (newestRecord (viewa key) (viewb key)).filter (keeps needExist) := by
  induction fuel generalizing veca vecb viewa viewb with
  | zero =>
    have emptyA : veca = [] := List.eq_nil_of_length_eq_zero (by omega)
    have emptyB : vecb = [] := List.eq_nil_of_length_eq_zero (by omega)
    subst emptyA emptyB
    refine ⟨[], by simp [mergeLoop], List.Pairwise.nil, fun key value => ?_⟩
    simp [listsA.view_nil key, listsB.view_nil key]
  | succ fuel ih =>
    cases veca with
    | nil =>
      refine ⟨vecb.filter (keepsRecord needExist), by simp [mergeLoop], ?_⟩
      simp only [listsA.view_nil, none_newestRecord]
      exact listsB.filter (keeps needExist)
    | cons a resta =>
      cases vecb with
      | nil =>
        refine ⟨(a :: resta).filter (keepsRecord needExist), by simp [mergeLoop], ?_⟩
        simp only [listsB.view_nil, newestRecord_none]
        exact listsA.filter (keeps needExist)
      | cons b restb =>
        simp only [List.length_cons] at enough
        by_cases beforeB : a.1.lt b.1 = true
        · obtain ⟨rest, ran, lists⟩ := ih listsA.tail listsB (by simp only [List.length_cons]; omega)
            (mergeable.update_left a.1)
          exact ⟨[a].filter (keepsRecord needExist) ++ rest, by simp [mergeLoop, beforeB, ran],
            enumerates_first listsA listsB ((Key.compare_eq_lt_iff _ _).mpr beforeB) lists⟩
        · by_cases beforeA : b.1.lt a.1 = true
          · obtain ⟨rest, ran, lists⟩ := ih listsA listsB.tail (by simp only [List.length_cons]; omega)
              (mergeable.symm.update_left b.1).symm
            exact ⟨[b].filter (keepsRecord needExist) ++ rest, by simp [mergeLoop, beforeB, beforeA, ran],
              enumerates_second listsA listsB ((Key.compare_eq_lt_iff _ _).mpr beforeA) lists⟩
          · have same : a.1 = b.1 := by
              by_contra different
              exact beforeA (Key.lt_of_ne_of_not_lt different beforeB)
            have exist : needExist = true := mergeable.of_same listsA listsB same
            obtain ⟨rest, ran, lists⟩ := ih listsA.tail listsB.tail (by omega) (Or.inl exist)
            exact ⟨[if a.2.seq ≥ b.2.seq then a else b].filter (keepsRecord needExist) ++ rest,
              by simp [mergeLoop, beforeB, beforeA, exist, ← ran], enumerates_both listsA listsB same lists⟩

end Merge

/-- The three parts of a snapshot that a scan reads. -/
structure SnapshotParts where
  db : Database
  deletedSet : Std.ExtTreeMap Key Nat
  inswitchSnapshot : Std.ExtTreeMap Key SnapshotRecord

/-- The record of the merged view: the newer one of the server side and the switch, if it is live. -/
def mergedRecord (stored : Option (Val × Nat)) (tombstone : Option Nat) (inswitch : Option SnapshotRecord) :
    Option SnapshotRecord :=
  (newestRecord
    (newestRecord (stored.map fun version => ⟨version.1, version.2, true⟩)
      (tombstone.map fun seq => ⟨[], seq, false⟩))
    inswitch).filter (·.stat)

def SnapshotParts.live (parts : SnapshotParts) (startkey key : Key) : Option SnapshotRecord :=
  if compare key startkey = .lt then none
  else mergedRecord parts.db[key]? parts.deletedSet[key]? parts.inswitchSnapshot[key]?

/-- What a source has for a key, if its first `count` entries get that far. -/
def reached {V : Type} (map : Std.ExtTreeMap Key V) (startkey : Key) (count : Nat) (key : Key) : Option V :=
  if rank (OrderedMap.entriesFrom map startkey) key < count then map[key]? else none

/-- The live records as the first `count` entries of each source show them. -/
def SnapshotParts.liveReached (parts : SnapshotParts) (startkey : Key) (count : Nat) (key : Key) :
    Option SnapshotRecord :=
  if compare key startkey = .lt then none
  else mergedRecord (reached parts.db startkey count key) (reached parts.deletedSet startkey count key)
    (reached parts.inswitchSnapshot startkey count key)

/-- The first `count` live records of the merged view in key order, or all if there are fewer. -/
def SnapshotParts.IsFirstLive (parts : SnapshotParts) (startkey : Key) (count : Nat)
    (results : List (Key × SnapshotRecord)) : Prop :=
  ∃ all, Enumerates all (parts.live startkey) ∧ results = all.take count

inductive SnapshotSource where
  | db
  | deletedSet
  | inswitch

theorem SnapshotSource.forall_iff {P : SnapshotSource → Prop} :
    (∀ source, P source) ↔ P .db ∧ P .deletedSet ∧ P .inswitch := by
  refine ⟨fun all => ⟨all _, all _, all _⟩, ?_⟩
  rintro ⟨inDb, inDeletedSet, inSwitch⟩ (_ | _ | _)
  exacts [inDb, inDeletedSet, inSwitch]

theorem SnapshotSource.exists_iff {P : SnapshotSource → Prop} :
    (∃ source, P source) ↔ P .db ∨ P .deletedSet ∨ P .inswitch := by
  constructor
  · rintro ⟨_ | _ | _, holds⟩
    exacts [Or.inl holds, Or.inr (Or.inl holds), Or.inr (Or.inr holds)]
  · rintro (holds | holds | holds)
    exacts [⟨_, holds⟩, ⟨_, holds⟩, ⟨_, holds⟩]

def SnapshotParts.record (parts : SnapshotParts) (key : Key) : SnapshotSource → Option SnapshotRecord
  | .db => parts.db[key]?.map fun version => ⟨version.1, version.2, true⟩
  | .deletedSet => parts.deletedSet[key]?.map fun seq => ⟨[], seq, false⟩
  | .inswitch => parts.inswitchSnapshot[key]?

def SnapshotParts.before (parts : SnapshotParts) (startkey key : Key) : SnapshotSource → Nat
  | .db => rank (OrderedMap.entriesFrom parts.db startkey) key
  | .deletedSet => rank (OrderedMap.entriesFrom parts.deletedSet startkey) key
  | .inswitch => rank (OrderedMap.entriesFrom parts.inswitchSnapshot startkey) key

def SnapshotParts.Shows (parts : SnapshotParts) (startkey : Key) (count : Nat) (key : Key) (source : SnapshotSource)
    (record : SnapshotRecord) : Prop :=
  parts.before startkey key source < count ∧ parts.record key source = some record

/-- The source of the newest record of a key; the server side wins a tie. -/
@[mk_iff]
structure SnapshotParts.IsNewest (parts : SnapshotParts) (key : Key) (source : SnapshotSource)
    (record : SnapshotRecord) : Prop where
  holds : parts.record key source = some record
  newest : ∀ other rival, parts.record key other = some rival → rival.seq ≤ record.seq
  tie : source = .inswitch → ∀ other rival, parts.record key other = some rival → rival.seq = record.seq →
    other = .inswitch

/-- The newest record of a key is hidden by the cut of its source only if another source shows the same record,
or if it is a deletion and no source shows a live record. -/
def SnapshotParts.Determined (parts : SnapshotParts) (startkey : Key) (count : Nat) (key : Key) : Prop :=
  ∀ source record, parts.IsNewest key source record → count ≤ parts.before startkey key source →
    (∃ other, parts.Shows startkey count key other record) ∨
      record.stat = false ∧ ∀ other shown, parts.Shows startkey count key other shown → shown.stat = false

/-- The cuts of the sources hide nothing that matters of a key with fewer than `count` live keys before it. -/
def SnapshotParts.CutHarmless (parts : SnapshotParts) (startkey : Key) (count : Nat) : Prop :=
  ∀ key, ¬ compare key startkey = .lt →
    {other | compare other key = .lt ∧ (parts.live startkey other).isSome = true}.ncard < count →
      parts.Determined startkey count key

theorem SnapshotParts.live_eq_liveReached_iff (parts : SnapshotParts) {startkey key : Key} (count : Nat)
    (disjoint : parts.db[key]? = none ∨ parts.deletedSet[key]? = none) (reach : ¬ compare key startkey = .lt) :
    parts.live startkey key = parts.liveReached startkey count key ↔ parts.Determined startkey count key := by
  unfold live liveReached reached Determined
  rw [if_neg reach, if_neg reach]
  simp only [SnapshotSource.forall_iff, SnapshotSource.exists_iff, Shows, isNewest_iff, record, before]
  generalize rank (OrderedMap.entriesFrom parts.db startkey) key = beforeDb
  generalize rank (OrderedMap.entriesFrom parts.deletedSet startkey) key = beforeDeleted
  generalize rank (OrderedMap.entriesFrom parts.inswitchSnapshot startkey) key = beforeInswitch
  generalize parts.db[key]? = stored at disjoint ⊢
  generalize parts.deletedSet[key]? = tombstone at disjoint ⊢
  generalize parts.inswitchSnapshot[key]? = inswitch
  unfold mergedRecord
  -- at most one source of the server side holds the key, so that the newest record has one rival
  rcases disjoint with rfl | rfl
  · rcases tombstone with _ | seq <;> rcases inswitch with _ | ⟨val, seq', _ | _⟩ <;> simp [newestRecord]
    all_goals grind
  · rcases stored with _ | ⟨val, seq⟩ <;> rcases inswitch with _ | ⟨val', seq', _ | _⟩ <;> simp [newestRecord]
    all_goals grind

theorem mergeSort_enumerates {veca vecb : List (Key × SnapshotRecord)} {viewa viewb : Key → Option SnapshotRecord}
    (needExist : Bool) (listsA : Enumerates veca viewa) (listsB : Enumerates vecb viewb)
    (mergeable : Mergeable needExist viewa viewb) :
    ∃ merged, mergeSort veca vecb needExist = some merged ∧
      Enumerates merged fun key => (newestRecord (viewa key) (viewb key)).filter (keeps needExist) :=
  mergeLoop_enumerates needExist _ listsA listsB le_rfl mergeable

theorem newestRecord_eq_some_iff {a b : Option SnapshotRecord} {record : SnapshotRecord} :
    newestRecord a b = some record ↔
      (a = some record ∧ ∀ other, b = some other → other.seq ≤ record.seq) ∨
        (b = some record ∧ ∀ other, a = some other → other.seq < record.seq) := by
  cases a with
  | none => simp
  | some first =>
    cases b with
    | none => simp
    | some second =>
      by_cases newer : second.seq ≤ first.seq
      · have chosen : newestRecord (some first) (some second) = some first := by simp [newestRecord, newer]
        rw [chosen]
        simp only [Option.some.injEq, forall_eq']
        constructor
        · rintro rfl
          exact Or.inl ⟨rfl, newer⟩
        · rintro (⟨same, _⟩ | ⟨rfl, older⟩)
          · exact same
          · omega
      · have chosen : newestRecord (some first) (some second) = some second := by simp [newestRecord, newer]
        rw [chosen]
        simp only [Option.some.injEq, forall_eq']
        constructor
        · rintro rfl
          exact Or.inr ⟨rfl, by omega⟩
        · rintro (⟨rfl, older⟩ | ⟨same, _⟩)
          · omega
          · exact same

/-- `merge_sort` on two lists with ascending keys: the result ascends, and the record it has for a key is
the newer one of the two lists, the first on a tie, as long as `need_exist` does not ask for a live one. -/
theorem mergeSort_of_sorted (veca vecb : List (Key × SnapshotRecord)) (needExist : Bool)
    (sortedA : veca.Pairwise fun left right => left.1.lt right.1)
    (sortedB : vecb.Pairwise fun left right => left.1.lt right.1)
    (disjoint : needExist = false → ∀ a ∈ veca, ∀ b ∈ vecb, a.1 ≠ b.1) :
    ∃ merged, mergeSort veca vecb needExist = some merged ∧
      (merged.Pairwise fun left right => left.1.lt right.1) ∧
      ∀ key record, (key, record) ∈ merged ↔
        (needExist = true → record.stat = true) ∧
          (((key, record) ∈ veca ∧ ∀ other, (key, other) ∈ vecb → other.seq ≤ record.seq) ∨
            ((key, record) ∈ vecb ∧ ∀ other, (key, other) ∈ veca → other.seq < record.seq)) := by
  have listsA := Sorted.enumerates (sortedA.imp fun before => (Key.compare_eq_lt_iff _ _).mpr before)
  have listsB := Sorted.enumerates (sortedB.imp fun before => (Key.compare_eq_lt_iff _ _).mpr before)
  have mergeable : Mergeable needExist (valueOf veca) (valueOf vecb) := by
    cases needExist with
    | true => exact Or.inl rfl
    | false =>
      refine Or.inr fun key => ?_
      by_contra both
      obtain ⟨inA, inB⟩ := not_or.mp both
      obtain ⟨a, foundA⟩ := Option.ne_none_iff_exists'.mp inA
      obtain ⟨b, foundB⟩ := Option.ne_none_iff_exists'.mp inB
      exact disjoint rfl _ ((listsA.mem_iff key a).mpr foundA) _ ((listsB.mem_iff key b).mpr foundB) rfl
  obtain ⟨merged, ran, lists⟩ := mergeSort_enumerates needExist listsA listsB mergeable
  refine ⟨merged, ran, lists.sorted.imp fun before => (Key.compare_eq_lt_iff _ _).mp before, fun key record => ?_⟩
  have kept : keeps needExist record = true ↔ (needExist = true → record.stat = true) := by
    cases needExist <;> simp [keeps]
  rw [lists.mem_iff, Option.filter_eq_some_iff, newestRecord_eq_some_iff, kept, and_comm]
  simp only [listsA.mem_iff, listsB.mem_iff]

/-- One key in both lists with one sequence number, and one deleted key. -/
theorem mergeSort_of_sorted_tie :
    ∃ merged,
      mergeSort [(⟨1, 0, 0, 0⟩, ⟨[7], 3, true⟩), (⟨2, 0, 0, 0⟩, ⟨[], 4, false⟩)]
        [(⟨1, 0, 0, 0⟩, ⟨[8], 3, true⟩)] true =
          some merged ∧
        (⟨1, 0, 0, 0⟩, ⟨[7], 3, true⟩) ∈ merged := by
  obtain ⟨merged, ran, _, mem_iff⟩ := mergeSort_of_sorted
    [(⟨1, 0, 0, 0⟩, ⟨[7], 3, true⟩), (⟨2, 0, 0, 0⟩, ⟨[], 4, false⟩)] [(⟨1, 0, 0, 0⟩, ⟨[8], 3, true⟩)] true
    (by decide) (by decide) (by decide)
  exact ⟨merged, ran, (mem_iff _ _).mpr (by simp)⟩

theorem filter_keeps_false (record : Option SnapshotRecord) : record.filter (keeps false) = record := by
  cases record <;> rfl

/-- Both merges of `range_scan` on any three sorted sources of which the first two share no key. -/
theorem mergeSort_twice {dbResults : List (Key × Val × Nat)} {deletedResults : List (Key × Nat)}
    {inswitchResults : List (Key × SnapshotRecord)} {stored : Key → Option (Val × Nat)} {tombstone : Key → Option Nat}
    {inswitch : Key → Option SnapshotRecord} (listsDb : Enumerates dbResults stored)
    (listsDeleted : Enumerates deletedResults tombstone) (listsInswitch : Enumerates inswitchResults inswitch)
    (disjoint : ∀ key, stored key = none ∨ tombstone key = none) :
    ∃ serverside results,
      mergeSort (dbResults.map liveRecord) (deletedResults.map deletedRecord) false = some serverside ∧
      mergeSort serverside inswitchResults true = some results ∧
      Enumerates results fun key => mergedRecord (stored key) (tombstone key) (inswitch key) := by
  obtain ⟨serverside, merged, lists⟩ := mergeSort_enumerates false
    (listsDb.mapValues fun version => (⟨version.1, version.2, true⟩ : SnapshotRecord))
    (listsDeleted.mapValues fun seq => (⟨[], seq, false⟩ : SnapshotRecord))
    (Or.inr fun key => (disjoint key).imp (fun absent => by simp [absent]) fun absent => by simp [absent])
  simp only [filter_keeps_false] at lists
  obtain ⟨results, mergedAll, listsAll⟩ := mergeSort_enumerates true lists listsInswitch (Or.inl rfl)
  exact ⟨serverside, results, merged, mergedAll, listsAll⟩

section Scan

variable (parts : SnapshotParts) (startkey endkey : Key)

/-- The merged view has an enumeration: the merges of the whole sources. -/
theorem exists_enumerates_live (disjoint : ∀ key : Key, parts.db[key]? = none ∨ parts.deletedSet[key]? = none) :
    ∃ all, Enumerates all (parts.live startkey) := by
  obtain ⟨_, all, -, -, lists⟩ := mergeSort_twice (enumerates_entriesFrom parts.db startkey)
    (enumerates_entriesFrom parts.deletedSet startkey) (enumerates_entriesFrom parts.inswitchSnapshot startkey)
    fun key => by
      split
      · exact Or.inl rfl
      · exact disjoint key
  refine ⟨all, ?_⟩
  have view : (fun key => mergedRecord (if compare key startkey = .lt then none else parts.db[key]?)
      (if compare key startkey = .lt then none else parts.deletedSet[key]?)
      (if compare key startkey = .lt then none else parts.inswitchSnapshot[key]?)) = parts.live startkey := by
    funext key
    unfold SnapshotParts.live
    split <;> rfl
  rwa [view] at lists

/-- What `range_scan` returns is the beginning of the view its cut sources show. -/
theorem scanSnapshot_enumerates {count : Nat} (counted : startkey.getScanrecordcnt endkey = some count)
    (disjoint : ∀ key : Key, parts.db[key]? = none ∨ parts.deletedSet[key]? = none) :
    ∃ shown, scanSnapshot parts.db parts.deletedSet parts.inswitchSnapshot startkey endkey = some (shown.take count) ∧
      Enumerates shown (parts.liveReached startkey count) := by
  obtain ⟨serverside, shown, merged, mergedAll, lists⟩ := mergeSort_twice
    ((enumerates_entriesFrom parts.db startkey).take count)
    ((enumerates_entriesFrom parts.deletedSet startkey).take count)
    ((enumerates_entriesFrom parts.inswitchSnapshot startkey).take count)
    fun key => by
      rcases disjoint key with none | none
      · exact Or.inl (by simp [none])
      · exact Or.inr (by simp [none])
  refine ⟨shown, ?_, ?_⟩
  · simp only [scanSnapshot, counted, Option.bind_eq_bind, Option.bind_some, merged, mergedAll, Option.pure_def]
  · refine ⟨lists.sorted, fun key value => ?_⟩
    rw [lists.mem_iff]
    unfold SnapshotParts.liveReached reached
    by_cases before : compare key startkey = .lt
    · simp [before, mergedRecord]
    · simp [before]

end Scan

/-- A range scan returns the first live records of the merged view exactly when cutting the sources off
before the merge does no harm. -/
theorem range_scan_first_live_iff {wrapper : RocksdbWrapper} {db : Database}
    (snapshot : wrapper.spPtr.or wrapper.snapshotdbPtr = some db)
    (disjoint : ∀ key : Key, db[key]? = none ∨ wrapper.snapshotDeletedSet.recordsSortedBykey[key]? = none)
    {startkey endkey : Key} {count : Nat} (counted : startkey.getScanrecordcnt endkey = some count) :
    (∃ results, wrapper.rangeScan startkey endkey = some results ∧
        SnapshotParts.IsFirstLive ⟨db, wrapper.snapshotDeletedSet.recordsSortedBykey, wrapper.inswitchSnapshot⟩
          startkey count results) ↔
      SnapshotParts.CutHarmless ⟨db, wrapper.snapshotDeletedSet.recordsSortedBykey, wrapper.inswitchSnapshot⟩
        startkey count := by
  generalize view : (⟨db, wrapper.snapshotDeletedSet.recordsSortedBykey, wrapper.inswitchSnapshot⟩ : SnapshotParts) =
    parts
  have disjointParts : ∀ key : Key, parts.db[key]? = none ∨ parts.deletedSet[key]? = none := by
    rw [← view]
    exact disjoint
  obtain ⟨shown, scanned, listsShown⟩ := scanSnapshot_enumerates parts startkey endkey counted disjointParts
  obtain ⟨all, listsAll⟩ := exists_enumerates_live parts startkey disjointParts
  have ran : wrapper.rangeScan startkey endkey = some (shown.take count) := by
    rw [← scanned, ← view]
    simp [RocksdbWrapper.rangeScan, snapshot]
  have prefixes : all.take count = shown.take count ↔ parts.CutHarmless startkey count := by
    rw [listsAll.take_eq_take_iff listsShown count]
    simp only [listsAll.rank_eq_ncard]
    refine forall_congr' fun key => ?_
    by_cases below : compare key startkey = .lt
    · simp [below, SnapshotParts.live, SnapshotParts.liveReached]
    · simp only [below, not_false_eq_true, true_imp_iff]
      exact imp_congr_right fun _ => parts.live_eq_liveReached_iff count (disjointParts key) below
  rw [ran, ← prefixes]
  constructor
  · rintro ⟨results, same, other, listsOther, rfl⟩
    rw [listsAll.unique listsOther]
    exact (Option.some.inj same).symm
  · intro same
    exact ⟨shown.take count, rfl, all, listsAll, same.symm⟩

/-- A snapshot with two live records at the server; the switch has deleted the first one. -/
def deletedInSwitch : SnapshotParts where
  db := (Std.ExtTreeMap.insert (∅ : Database) ⟨1, 0, 0, 0⟩ ([1], 1)).insert ⟨2, 0, 0, 0⟩ ([2], 2)
  deletedSet := ∅
  inswitchSnapshot := Std.ExtTreeMap.insert ∅ ⟨1, 0, 0, 0⟩ ⟨[], 3, false⟩

def SnapshotParts.server (parts : SnapshotParts) : RocksdbWrapper :=
  { RocksdbWrapper.fresh ∅ 0 0 with
    spPtr := some parts.db
    snapshotDeletedSet := { DeletedSet.new 10 100 with recordsSortedBykey := parts.deletedSet }
    inswitchSnapshot := parts.inswitchSnapshot }

/-- A snapshot with three tombstones before the second live record, of which a scan for two records reads
two. -/
def hiddenTombstone : SnapshotParts where
  db := (Std.ExtTreeMap.insert (∅ : Database) ⟨1, 0, 0, 0⟩ ([1], 1)).insert ⟨5, 0, 0, 0⟩ ([5], 2)
  deletedSet := ((Std.ExtTreeMap.insert ∅ ⟨2, 0, 0, 0⟩ 3).insert ⟨3, 0, 0, 0⟩ 4).insert ⟨4, 0, 0, 0⟩ 6
  inswitchSnapshot := Std.ExtTreeMap.insert ∅ ⟨1, 0, 0, 0⟩ ⟨[9], 7, true⟩

def SnapshotParts.keys (parts : SnapshotParts) : SnapshotSource → List Key
  | .db => parts.db.keys
  | .deletedSet => parts.deletedSet.keys
  | .inswitch => parts.inswitchSnapshot.keys

theorem SnapshotParts.mem_keys {parts : SnapshotParts} {key : Key} {source : SnapshotSource}
    {record : SnapshotRecord} (held : parts.record key source = some record) : key ∈ parts.keys source := by
  cases source <;>
    · rw [keys, Std.ExtTreeMap.mem_keys, Std.ExtTreeMap.mem_iff_isSome_getElem?]
      unfold SnapshotParts.record at held
      grind

theorem SnapshotParts.stat_deletedSet {parts : SnapshotParts} {key : Key} {record : SnapshotRecord}
    (held : parts.record key .deletedSet = some record) : record.stat = false := by
  obtain ⟨seq, -, rfl⟩ := Option.map_eq_some_iff.mp held
  rfl

/-- Only tombstones are hidden, and no other source holds their keys. -/
theorem hiddenTombstone_cutHarmless : hiddenTombstone.CutHarmless ⟨1, 0, 0, 0⟩ 2 := by
  have shownDb : ∀ key ∈ hiddenTombstone.keys .db, hiddenTombstone.before ⟨1, 0, 0, 0⟩ key .db < 2 := by
    decide +kernel
  have shownInswitch : ∀ key ∈ hiddenTombstone.keys .inswitch,
      hiddenTombstone.before ⟨1, 0, 0, 0⟩ key .inswitch < 2 := by decide +kernel
  have alone : ∀ key ∈ hiddenTombstone.keys .deletedSet,
      key ∉ hiddenTombstone.keys .db ∧ key ∉ hiddenTombstone.keys .inswitch := by decide +kernel
  intro key _ _ source record newest hidden
  have member := SnapshotParts.mem_keys newest.holds
  cases source with
  | db => exact absurd (shownDb key member) (by omega)
  | inswitch => exact absurd (shownInswitch key member) (by omega)
  | deletedSet =>
    refine Or.inr ⟨SnapshotParts.stat_deletedSet newest.holds, fun other shown shows => ?_⟩
    have inOther := SnapshotParts.mem_keys shows.2
    cases other with
    | db => exact absurd inOther (alone key member).1
    | inswitch => exact absurd inOther (alone key member).2
    | deletedSet => exact SnapshotParts.stat_deletedSet shows.2

theorem range_scan_first_live_iff_hidden :
    2 ≤ hiddenTombstone.before ⟨1, 0, 0, 0⟩ ⟨4, 0, 0, 0⟩ .deletedSet ∧
      ∃ results, hiddenTombstone.server.rangeScan ⟨1, 0, 0, 0⟩ ⟨3, 0, 0, 0⟩ = some results ∧
        hiddenTombstone.IsFirstLive ⟨1, 0, 0, 0⟩ 2 results := by
  refine ⟨by decide +kernel, ?_⟩
  have disjoint (key : Key) : hiddenTombstone.db[key]? = none ∨ hiddenTombstone.deletedSet[key]? = none := by
    by_contra both
    simp only [not_or, ← Option.isSome_iff_ne_none, ← Std.ExtTreeMap.mem_iff_isSome_getElem?,
      ← Std.ExtTreeMap.mem_keys] at both
    have apart : ∀ key ∈ hiddenTombstone.db.keys, key ∉ hiddenTombstone.deletedSet.keys := by decide +kernel
    exact apart key both.1 both.2
  exact (@range_scan_first_live_iff hiddenTombstone.server _ rfl disjoint ⟨1, 0, 0, 0⟩ ⟨3, 0, 0, 0⟩ 2
    (by decide)).mpr hiddenTombstone_cutHarmless

/-- A scan for one record is cut off at the record that the switch has deleted, and returns nothing. -/
theorem range_scan_misses_live :
    ¬ ∃ results, deletedInSwitch.server.rangeScan ⟨1, 0, 0, 0⟩ ⟨2, 0, 0, 0⟩ = some results ∧
        deletedInSwitch.IsFirstLive ⟨1, 0, 0, 0⟩ 1 results := by
  rintro ⟨results, scanned, all, lists, rfl⟩
  have nothing : deletedInSwitch.server.rangeScan ⟨1, 0, 0, 0⟩ ⟨2, 0, 0, 0⟩ = some [] := by decide +kernel
  have second : ((⟨2, 0, 0, 0⟩ : Key), (⟨[2], 2, true⟩ : SnapshotRecord)) ∈ all :=
    (lists.mem_iff _ _).mpr (by decide +kernel)
  cases all with
  | nil => cases second
  | cons first rest =>
    rw [nothing] at scanned
    cases scanned

end FarReach
