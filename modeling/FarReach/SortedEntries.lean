import FarReach.OrderedMap

namespace SortedEntries

variable {K V : Type} [Ord K]

def Sorted (entries : List (K × V)) : Prop := entries.Pairwise fun left right => compare left.1 right.1 = .lt

def rank (entries : List (K × V)) (key : K) : Nat := entries.countP fun entry => compare entry.1 key == .lt

/-- The list has the entries of a partial function, in key order. -/
structure Enumerates (entries : List (K × V)) (view : K → Option V) : Prop where
  sorted : Sorted entries
  mem_iff : ∀ key value, (key, value) ∈ entries ↔ view key = some value

theorem rank_cons_of_lt {entry : K × V} {entries : List (K × V)} {key : K} (before : compare entry.1 key = .lt) :
    rank (entry :: entries) key = rank entries key + 1 := by
  simp [rank, before]

variable [Std.TransOrd K]

theorem not_lt_self (key : K) : compare key key ≠ .lt := by
  have self : compare key key = .eq := Std.ReflCmp.compare_self
  rw [self]
  decide

theorem not_lt_of_lt {left right : K} (before : compare left right = .lt) : compare right left ≠ .lt := by
  intro after
  exact not_lt_self left (Std.TransCmp.lt_trans before after)

section Lists

variable {entry : K × V} {entries others : List (K × V)}

theorem Sorted.rank_cons_self (sorted : Sorted (entry :: entries)) : rank (entry :: entries) entry.1 = 0 := by
  rw [rank, List.countP_eq_zero]
  intro other member
  rcases List.mem_cons.mp member with rfl | later
  · simp
  · simp [not_lt_of_lt ((List.pairwise_cons.mp sorted).1 other later)]

theorem Sorted.rank_cons_of_not_lt {key : K} (sorted : Sorted (entry :: entries))
    (notBefore : compare entry.1 key ≠ .lt) : rank (entry :: entries) key = 0 := by
  rw [rank, List.countP_eq_zero]
  intro other member
  rcases List.mem_cons.mp member with rfl | later
  · simp [notBefore]
  · have after := (List.pairwise_cons.mp sorted).1 other later
    simp only [beq_iff_eq]
    exact fun before => notBefore (Std.TransCmp.lt_trans after before)

/-- The first entries of a list are those with few entries before them. -/
theorem Sorted.mem_take_iff (sorted : Sorted entries) (n : Nat) :
    entry ∈ entries.take n ↔ entry ∈ entries ∧ rank entries entry.1 < n := by
  induction entries generalizing n with
  | nil => simp
  | cons first rest ih =>
    cases n with
    | zero => simp
    | succ n =>
      obtain ⟨before, sortedRest⟩ := List.pairwise_cons.mp sorted
      rw [List.take_succ_cons, List.mem_cons, List.mem_cons, ih sortedRest]
      constructor
      · rintro (rfl | ⟨later, early⟩)
        · exact ⟨Or.inl rfl, by rw [sorted.rank_cons_self]; omega⟩
        · exact ⟨Or.inr later, by rw [rank_cons_of_lt (before entry later)]; omega⟩
      · rintro ⟨rfl | later, early⟩
        · exact Or.inl rfl
        · rw [rank_cons_of_lt (before entry later)] at early
          exact Or.inr ⟨later, by omega⟩

theorem agree_cons_iff (sorted : Sorted (entry :: entries)) (sortedOthers : Sorted (entry :: others)) (n : Nat) :
    (∀ key, rank (entry :: entries) key < n + 1 → ∀ value,
        (key, value) ∈ entry :: entries ↔ (key, value) ∈ entry :: others) ↔
      ∀ key, rank entries key < n → ∀ value, (key, value) ∈ entries ↔ (key, value) ∈ others := by
  have ahead : ∀ {rest : List (K × V)} {key value}, Sorted (entry :: rest) → (key, value) ∈ rest →
      compare entry.1 key = .lt := fun sortedRest later => (List.pairwise_cons.mp sortedRest).1 _ later
  constructor
  · intro agree key early value
    by_cases before : compare entry.1 key = .lt
    · have whole := agree key (by rw [rank_cons_of_lt before]; omega) value
      have different : (key, value) ≠ entry := by
        rintro rfl
        exact not_lt_self _ before
      simpa only [List.mem_cons, different, false_or] using whole
    · exact ⟨fun later => absurd (ahead sorted later) before, fun later => absurd (ahead sortedOthers later) before⟩
  · intro agree key early value
    rw [List.mem_cons, List.mem_cons]
    by_cases before : compare entry.1 key = .lt
    · rw [rank_cons_of_lt before] at early
      rw [agree key (by omega) value]
    · have outside : (key, value) ∉ entries := fun later => before (ahead sorted later)
      have outsideOthers : (key, value) ∉ others := fun later => before (ahead sortedOthers later)
      simp only [outside, outsideOthers, or_false]

/-- Two sorted lists begin with the same `n` entries if and only if they agree on every key that has
fewer than `n` entries of the first list before it. -/
theorem Sorted.take_eq_take_iff (sorted : Sorted entries) (sortedOthers : Sorted others) (n : Nat) :
    entries.take n = others.take n ↔
      ∀ key, rank entries key < n → ∀ value, (key, value) ∈ entries ↔ (key, value) ∈ others := by
  induction n generalizing entries others with
  | zero => simp
  | succ n ih =>
    cases entries with
    | nil =>
      cases others with
      | nil => simp
      | cons other rest =>
        simp only [List.take_nil, List.take_succ_cons, reduceCtorEq, false_iff]
        intro agree
        have gone := (agree other.1 (Nat.zero_lt_succ n) other.2).mpr List.mem_cons_self
        cases gone
    | cons entry rest =>
      cases others with
      | nil =>
        simp only [List.take_succ_cons, List.take_nil, reduceCtorEq, false_iff]
        intro agree
        have gone := (agree entry.1 (by rw [sorted.rank_cons_self]; omega) entry.2).mp List.mem_cons_self
        cases gone
      | cons other others =>
        rw [List.take_succ_cons, List.take_succ_cons, List.cons.injEq]
        constructor
        · rintro ⟨rfl, rests⟩
          exact (agree_cons_iff sorted sortedOthers n).mpr
            ((ih (List.pairwise_cons.mp sorted).2 (List.pairwise_cons.mp sortedOthers).2).mp rests)
        · intro agree
          have same : entry = other := by
            have member := (agree entry.1 (by rw [sorted.rank_cons_self]; omega) entry.2).mp List.mem_cons_self
            rcases List.mem_cons.mp member with same | later
            · exact same
            · have before := (List.pairwise_cons.mp sortedOthers).1 _ later
              have first : rank (entry :: rest) other.1 = 0 := sorted.rank_cons_of_not_lt (not_lt_of_lt before)
              have back := (agree other.1 (by rw [first]; omega) other.2).mpr List.mem_cons_self
              rcases List.mem_cons.mp back with same | behind
              · exact same.symm
              · exact absurd ((List.pairwise_cons.mp sorted).1 _ behind) (not_lt_of_lt before)
          subst same
          exact ⟨rfl, (ih (List.pairwise_cons.mp sorted).2 (List.pairwise_cons.mp sortedOthers).2).mpr
            ((agree_cons_iff sorted sortedOthers n).mp agree)⟩

end Lists

section Views

variable {entries others : List (K × V)} {view otherView : K → Option V}

theorem Enumerates.take (lists : Enumerates entries view) (n : Nat) :
    Enumerates (entries.take n) fun key => if rank entries key < n then view key else none := by
  refine ⟨lists.sorted.sublist (List.take_sublist n entries), fun key value => ?_⟩
  rw [lists.sorted.mem_take_iff, lists.mem_iff]
  split
  · rename_i early
    exact and_iff_left early
  · rename_i late
    simp [late]

omit [Std.TransOrd K] in
theorem Enumerates.filter (lists : Enumerates entries view) (keep : V → Bool) :
    Enumerates (entries.filter fun entry => keep entry.2) fun key => (view key).filter keep := by
  refine ⟨lists.sorted.sublist List.filter_sublist, fun key value => ?_⟩
  rw [List.mem_filter, lists.mem_iff, Option.filter_eq_some_iff]

omit [Std.TransOrd K] in
theorem Enumerates.mapValues {W : Type} (lists : Enumerates entries view) (f : V → W) :
    Enumerates (entries.map fun entry => (entry.1, f entry.2)) fun key => (view key).map f := by
  refine ⟨List.pairwise_map.mpr lists.sorted, fun key value => ?_⟩
  rw [List.mem_map, Option.map_eq_some_iff]
  constructor
  · rintro ⟨entry, member, same⟩
    cases same
    exact ⟨entry.2, (lists.mem_iff _ _).mp member, rfl⟩
  · rintro ⟨value, found, rfl⟩
    exact ⟨(key, value), (lists.mem_iff _ _).mpr found, rfl⟩

theorem Enumerates.take_eq_take_iff (lists : Enumerates entries view) (listsOther : Enumerates others otherView)
    (n : Nat) : entries.take n = others.take n ↔ ∀ key, rank entries key < n → view key = otherView key := by
  rw [lists.sorted.take_eq_take_iff listsOther.sorted]
  refine forall_congr' fun key => imp_congr_right fun _ => ?_
  simp only [lists.mem_iff, listsOther.mem_iff]
  exact Option.ext_iff.symm

/-- A partial function is enumerated in one way only. -/
theorem Enumerates.unique (lists : Enumerates entries view) (listsOther : Enumerates others view) :
    entries = others := by
  have prefixes := (lists.take_eq_take_iff listsOther (entries.length + others.length)).mpr fun _ _ => rfl
  rwa [List.take_of_length_le (by omega), List.take_of_length_le (by omega)] at prefixes

/-- The entries before a key are counted by the keys before it. -/
theorem Enumerates.rank_eq_ncard (lists : Enumerates entries view) (key : K) :
    rank entries key = {other | compare other key = .lt ∧ (view other).isSome = true}.ncard := by
  classical
  have distinct : ((entries.filter fun entry => compare entry.1 key == .lt).map Prod.fst).Nodup := by
    refine List.pairwise_map.mpr ((lists.sorted.sublist List.filter_sublist).imp ?_)
    intro left right before same
    rw [same] at before
    exact not_lt_self _ before
  have same : {other | compare other key = .lt ∧ (view other).isSome = true} =
      (((entries.filter fun entry => compare entry.1 key == .lt).map Prod.fst).toFinset : Set K) := by
    ext other
    simp only [Set.mem_ofPred_eq, List.coe_toFinset, List.mem_map, List.mem_filter, beq_iff_eq,
      Option.isSome_iff_exists]
    constructor
    · rintro ⟨before, value, found⟩
      exact ⟨(other, value), ⟨(lists.mem_iff _ _).mpr found, before⟩, rfl⟩
    · rintro ⟨⟨_, value⟩, ⟨member, before⟩, rfl⟩
      exact ⟨before, value, (lists.mem_iff _ _).mp member⟩
  rw [same, Set.ncard_coe_finset, List.toFinset_card_of_nodup distinct, List.length_map, rank,
    List.countP_eq_length_filter]

section Heads

variable [DecidableEq K] {entry : K × V}

omit [Std.TransOrd K] [DecidableEq K] in
theorem Enumerates.view_nil (lists : Enumerates [] view) (key : K) : view key = none := by
  cases found : view key with
  | none => rfl
  | some value => cases (lists.mem_iff key value).mpr found

omit [Std.TransOrd K] [DecidableEq K] in
theorem Enumerates.view_head (lists : Enumerates (entry :: entries) view) : view entry.1 = some entry.2 :=
  (lists.mem_iff _ _).mp List.mem_cons_self

theorem Enumerates.tail (lists : Enumerates (entry :: entries) view) :
    Enumerates entries (Function.update view entry.1 none) := by
  obtain ⟨before, sorted⟩ := List.pairwise_cons.mp lists.sorted
  refine ⟨sorted, fun key value => ?_⟩
  by_cases same : key = entry.1
  · subst same
    rw [Function.update_self]
    refine ⟨fun later => absurd (before _ later) (not_lt_self _), fun impossible => by cases impossible⟩
  · have different : (key, value) ≠ entry := fun equal => same (congrArg Prod.fst equal)
    rw [Function.update_of_ne same, ← lists.mem_iff, List.mem_cons]
    simp only [different, false_or]

omit [Std.TransOrd K] [DecidableEq K] in
/-- The first key of a list lies before all its other keys. -/
theorem Enumerates.head_lt (lists : Enumerates (entry :: entries) view) {key : K} (apart : key ≠ entry.1)
    (defined : view key ≠ none) : compare entry.1 key = .lt := by
  obtain ⟨value, found⟩ := Option.ne_none_iff_exists'.mp defined
  have member := (lists.mem_iff key value).mpr found
  rcases List.mem_cons.mp member with same | later
  · exact absurd (congrArg Prod.fst same) apart
  · exact (List.pairwise_cons.mp lists.sorted).1 _ later

omit [Std.TransOrd K] in
theorem Enumerates.lt_of_tail (lists : Enumerates (entry :: entries) view) {key : K}
    (defined : Function.update view entry.1 none key ≠ none) : compare entry.1 key = .lt := by
  by_cases same : key = entry.1
  · subst same
    simp at defined
  · rw [Function.update_of_ne same] at defined
    exact lists.head_lt same defined

theorem Enumerates.lt_of_lt_head (lists : Enumerates (entry :: entries) view) {first key : K}
    (before : compare first entry.1 = .lt) (defined : view key ≠ none) : compare first key = .lt := by
  by_cases same : key = entry.1
  · rw [same]
    exact before
  · exact Std.TransCmp.lt_trans before (lists.head_lt same defined)

/-- An entry that lies before all others is put in front of a list, unless it is filtered out. -/
theorem Enumerates.cons_filter (lists : Enumerates entries view) (entry : K × V) (keep : V → Bool)
    (before : ∀ key, view key ≠ none → compare entry.1 key = .lt) :
    Enumerates ([entry].filter (fun entry => keep entry.2) ++ entries)
      (Function.update view entry.1 ((some entry.2).filter keep)) := by
  have absent : view entry.1 = none := by
    by_contra defined
    exact not_lt_self _ (before _ defined)
  by_cases kept : keep entry.2 = true
  · have front : [entry].filter (fun entry => keep entry.2) = [entry] := by simp [kept]
    rw [front, List.singleton_append, Option.filter_some_pos kept]
    refine ⟨List.pairwise_cons.mpr ⟨fun other member => ?_, lists.sorted⟩, fun key value => ?_⟩
    · exact before _ (by rw [(lists.mem_iff _ _).mp member]; simp)
    · rw [List.mem_cons, lists.mem_iff]
      by_cases same : key = entry.1
      · subst same
        rw [Function.update_self, absent]
        simp [Prod.ext_iff, eq_comm]
      · have different : (key, value) ≠ entry := fun equal => same (congrArg Prod.fst equal)
        rw [Function.update_of_ne same]
        simp only [different, false_or]
  · have unchanged : Function.update view entry.1 none = view := by
      rw [← absent]
      exact Function.update_eq_self ..
    have front : [entry].filter (fun entry => keep entry.2) = [] := by simp [kept]
    rw [front, List.nil_append, Option.filter_some_neg (Bool.eq_false_iff.mpr kept), unchanged]
    exact lists

end Heads

def valueOf [DecidableEq K] (entries : List (K × V)) (key : K) : Option V :=
  (entries.find? fun entry => entry.1 = key).map Prod.snd

/-- In a sorted list that is the only one. -/
theorem Sorted.enumerates [DecidableEq K] {entries : List (K × V)} (sorted : Sorted entries) :
    Enumerates entries (valueOf entries) := by
  refine ⟨sorted, fun key value => ?_⟩
  induction entries with
  | nil => simp [valueOf]
  | cons entry rest ih =>
    obtain ⟨before, sortedRest⟩ := List.pairwise_cons.mp sorted
    by_cases same : entry.1 = key
    · have later : (key, value) ∉ rest := by
        intro member
        have ahead := before _ member
        rw [same] at ahead
        exact not_lt_self key ahead
      have first : valueOf (entry :: rest) key = some entry.2 := by simp [valueOf, same]
      rw [first, List.mem_cons, or_iff_left later, Option.some.injEq, Prod.ext_iff]
      exact ⟨fun equal => equal.2.symm, fun equal => ⟨same.symm, equal.symm⟩⟩
    · have skipped : valueOf (entry :: rest) key = valueOf rest key := by simp [valueOf, same]
      have different : (key, value) ≠ entry := fun equal => same (congrArg Prod.fst equal).symm
      rw [skipped, ← ih sortedRest, List.mem_cons, or_iff_right different]

theorem enumerates_entriesFrom [Std.LawfulEqOrd K] (map : Std.ExtTreeMap K V) (start : K) :
    Enumerates (OrderedMap.entriesFrom map start) fun key => if compare key start = .lt then none else map[key]? := by
  unfold OrderedMap.entriesFrom
  refine ⟨map.ordered_keys_toList.sublist List.filter_sublist, fun key value => ?_⟩
  rw [List.mem_filter, Std.ExtTreeMap.mem_toList_iff_getElem?_eq_some]
  split
  · rename_i before
    simp [before]
  · rename_i notBefore
    simp [notBefore]

end Views

end SortedEntries
