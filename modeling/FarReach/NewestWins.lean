import FarReach.OrderedMap

namespace NewestWins

variable {K V R : Type} [Ord K] [Std.TransOrd K] [Std.LawfulEqOrd K] [LinearOrder R]

def insertIfNewer (rank : V → R) (map : Std.ExtTreeMap K V) (entry : K × V) : Std.ExtTreeMap K V :=
  match map[entry.1]? with
  | none => map.insert entry.1 entry.2
  | some old => if rank old < rank entry.2 then map.insert entry.1 entry.2 else map

/-- What is found under a key is an entry of the key with the highest rank, or there is none. -/
structure Newest (rank : V → R) (entries : List (K × V)) (key : K) (found : Option V) : Prop where
  entered : ∀ value, found = some value → (key, value) ∈ entries
  highest : ∀ other, (key, other) ∈ entries → ∃ value, found = some value ∧ rank other ≤ rank value

variable {rank : V → R} {entries : List (K × V)} {key : K} {found : Option V}

omit [Ord K] [Std.TransOrd K] [Std.LawfulEqOrd K] in
theorem Newest.empty (rank : V → R) (key : K) : Newest rank [] key none where
  entered _ absent := nomatch absent
  highest _ member := nomatch member

omit [Ord K] [Std.TransOrd K] [Std.LawfulEqOrd K] in
theorem Newest.other (newest : Newest rank entries key found) {entry : K × V} (apart : key ≠ entry.1) :
    Newest rank (entries ++ [entry]) key found := by
  constructor
  · intro value here
    exact List.mem_append_left _ (newest.entered value here)
  · intro other member
    rcases List.mem_append.mp member with before | last
    · exact newest.highest other before
    · exact absurd (congrArg Prod.fst (List.mem_singleton.mp last)) apart

omit [Ord K] [Std.TransOrd K] [Std.LawfulEqOrd K] in
theorem Newest.replace (newest : Newest rank entries key found) {new : V}
    (higher : ∀ old, found = some old → rank old ≤ rank new) :
    Newest rank (entries ++ [(key, new)]) key (some new) := by
  constructor
  · intro value here
    cases here
    exact List.mem_append_right _ (List.mem_singleton_self _)
  · intro other member
    refine ⟨new, rfl, ?_⟩
    rcases List.mem_append.mp member with before | last
    · obtain ⟨old, here, below⟩ := newest.highest other before
      exact below.trans (higher old here)
    · cases List.mem_singleton.mp last
      exact le_rfl

omit [Ord K] [Std.TransOrd K] [Std.LawfulEqOrd K] in
theorem Newest.keep {old new : V} (newest : Newest rank entries key (some old)) (lower : rank new ≤ rank old) :
    Newest rank (entries ++ [(key, new)]) key (some old) := by
  constructor
  · intro value here
    exact List.mem_append_left _ (newest.entered value here)
  · intro other member
    rcases List.mem_append.mp member with before | last
    · exact newest.highest other before
    · cases List.mem_singleton.mp last
      exact ⟨old, rfl, lower⟩

omit [Ord K] [Std.TransOrd K] [Std.LawfulEqOrd K] in
theorem Newest.mono {S : Type} [LinearOrder S] {other : V → S} (newest : Newest rank entries key found)
    (agree : ∀ left ∈ entries, ∀ right ∈ entries, rank left.2 ≤ rank right.2 → other left.2 ≤ other right.2) :
    Newest other entries key found := by
  refine ⟨newest.entered, fun value member => ?_⟩
  obtain ⟨best, here, below⟩ := newest.highest value member
  exact ⟨best, here, agree _ member _ (newest.entered best here) below⟩

omit [Ord K] [Std.TransOrd K] [Std.LawfulEqOrd K] in
theorem Newest.of_mem_iff {others : List (K × V)} (same : ∀ entry, entry ∈ entries ↔ entry ∈ others)
    (newest : Newest rank entries key found) : Newest rank others key found :=
  ⟨fun value here => (same _).mp (newest.entered value here),
    fun other member => newest.highest other ((same _).mpr member)⟩

variable [DecidableEq K]

theorem lookup_insertIfNewer_of_ne (map : Std.ExtTreeMap K V) (entry : K × V) (apart : key ≠ entry.1) :
    (insertIfNewer rank map entry)[key]? = map[key]? := by
  have inserted : (map.insert entry.1 entry.2)[key]? = map[key]? := by
    rw [OrderedMap.lookup_insert, if_neg apart]
  unfold insertIfNewer
  split
  · exact inserted
  · split
    · exact inserted
    · rfl

theorem newest_insertIfNewer {map : Std.ExtTreeMap K V} (newest : ∀ key, Newest rank entries key map[key]?)
    (entry : K × V) (key : K) : Newest rank (entries ++ [entry]) key (insertIfNewer rank map entry)[key]? := by
  obtain ⟨entered, new⟩ := entry
  by_cases same : key = entered
  · subst same
    have before := newest key
    unfold insertIfNewer
    cases old : map[key]? with
    | none =>
      rw [old] at before
      simp only [OrderedMap.lookup_insert, if_true]
      exact before.replace fun _ absent => nomatch absent
    | some value =>
      rw [old] at before
      by_cases higher : rank value < rank new
      · simp only [higher, if_true, OrderedMap.lookup_insert]
        refine before.replace fun _ here => ?_
        cases here
        exact higher.le
      · simp only [higher, if_false, old]
        exact before.keep (not_lt.mp higher)
  · rw [lookup_insertIfNewer_of_ne map (entered, new) same]
    exact (newest key).other same

/-- A loop of such insertions finds the newest of all entries, in whatever order they come. -/
theorem newest_foldl {map : Std.ExtTreeMap K V} (newest : ∀ key, Newest rank entries key map[key]?)
    (more : List (K × V)) (key : K) :
    Newest rank (entries ++ more) key (more.foldl (insertIfNewer rank) map)[key]? := by
  induction more generalizing entries map with
  | nil =>
    rw [List.append_nil]
    exact newest key
  | cons entry rest ih =>
    have rest := ih (newest_insertIfNewer newest entry)
    rwa [List.append_assoc] at rest

omit [DecidableEq K] in
/-- The entries of a map may stand for all the entries it holds the newest of. -/
theorem Newest.of_listed {map : Std.ExtTreeMap K V} {listed sources : List (K × V)}
    (listing : listed.Perm map.toList) (held : Newest rank sources key map[key]?)
    (newest : Newest rank (entries ++ listed) key found) : Newest rank (entries ++ sources) key found := by
  have mem_listed : ∀ value, (key, value) ∈ listed ↔ map[key]? = some value := fun value =>
    listing.mem_iff.trans Std.ExtTreeMap.mem_toList_iff_getElem?_eq_some
  constructor
  · intro value here
    rcases List.mem_append.mp (newest.entered value here) with before | last
    · exact List.mem_append_left _ before
    · exact List.mem_append_right _ (held.entered value ((mem_listed value).mp last))
  · intro other member
    rcases List.mem_append.mp member with before | last
    · exact newest.highest other (List.mem_append_left _ before)
    · obtain ⟨best, here, below⟩ := held.highest other last
      obtain ⟨value, there, above⟩ := newest.highest best (List.mem_append_right _ ((mem_listed best).mpr here))
      exact ⟨value, there, below.trans above⟩

end NewestWins
