import FarReach.Loops

namespace OrderedMap

variable {K V : Type} [Ord K] [Std.TransOrd K] [Std.LawfulEqOrd K]

theorem toList_distinct (map : Std.ExtTreeMap K V) :
    map.toList.Pairwise (fun left right => left.1 ≠ right.1) := by
  refine Std.ExtTreeMap.distinct_keys_toList.imp ?_
  intro left right different same
  exact different (Std.LawfulEqOrd.compare_eq_iff_eq.mpr same)

omit [Ord K] [Std.TransOrd K] [Std.LawfulEqOrd K] in
theorem filter_key_of_distinct [DecidableEq K] {entries : List (K × V)} {key : K} {value : V}
    (distinct : entries.Pairwise fun left right => left.1 ≠ right.1) (member : (key, value) ∈ entries) :
    (entries.filter fun entry => entry.1 = key) = [(key, value)] := by
  induction entries with
  | nil => cases member
  | cons entry rest ih =>
    obtain ⟨apart, distinctRest⟩ := List.pairwise_cons.mp distinct
    rcases List.mem_cons.mp member with same | later
    · subst same
      have none : (rest.filter fun entry => entry.1 = key) = [] := by
        refine List.filter_eq_nil_iff.mpr fun other inRest => ?_
        simpa using (apart other inRest).symm
      rw [List.filter_cons_of_pos (by simp), none]
    · rw [List.filter_cons_of_neg (by simpa using apart _ later), ih distinctRest later]

/-- The entries of a map in any order: those of a key are its value, or there is none. -/
theorem filter_key_of_perm [DecidableEq K] {map : Std.ExtTreeMap K V} {entries : List (K × V)}
    (listed : entries.Perm map.toList) (key : K) :
    (entries.filter fun entry => entry.1 = key) = (map[key]?.map fun value => (key, value)).toList := by
  cases found : map[key]? with
  | none =>
    refine List.filter_eq_nil_iff.mpr fun entry member => ?_
    have present := Std.ExtTreeMap.mem_toList_iff_getElem?_eq_some.mp (listed.mem_iff.mp member)
    simp only [decide_eq_true_eq]
    intro same
    rw [same, found] at present
    cases present
  | some value =>
    have member : (key, value) ∈ entries :=
      listed.mem_iff.mpr (Std.ExtTreeMap.mem_toList_iff_getElem?_eq_some.mpr found)
    have distinct : entries.Pairwise fun left right => left.1 ≠ right.1 :=
      (toList_distinct map).perm listed.symm fun different => different.symm
    exact filter_key_of_distinct distinct member

def entriesFrom (map : Std.ExtTreeMap K V) (key : K) : List (K × V) :=
  map.toList.filter fun entry => compare entry.1 key != .lt

theorem head?_entriesFrom (map : Std.ExtTreeMap K V) (key : K) (value : V) :
    (entriesFrom map key).head? = some (key, value) ↔ map[key]? = some value := by
  constructor
  · intro first
    have member := List.mem_of_mem_head? (Option.mem_def.mpr first)
    exact Std.ExtTreeMap.mem_toList_iff_getElem?_eq_some.mp (List.mem_filter.mp member).1
  · intro found
    have member := Std.ExtTreeMap.mem_toList_iff_getElem?_eq_some.mpr found
    have sorted := map.ordered_keys_toList
    unfold entriesFrom
    revert member sorted
    induction map.toList with
    | nil => simp
    | cons entry rest ih =>
      intro member sorted
      obtain ⟨first, sorted⟩ := List.pairwise_cons.mp sorted
      rcases List.mem_cons.mp member with same | later
      · subst same
        simp
      · have below := first _ later
        rw [List.filter_cons_of_neg (by simpa using below)]
        exact ih later sorted

open Std.DTreeMap.Internal in
omit [Std.LawfulEqOrd K] in
/-- The front of a map is the first of its entries in key order. -/
theorem minEntry?_eq_head? (map : Std.ExtTreeMap K V) : map.minEntry? = map.toList.head? := by
  have leftmost : ∀ tree : Impl K (fun _ => V),
      Impl.Const.minEntry? tree = (tree.toListModel.map fun entry => (entry.1, entry.2)).head? := by
    intro tree
    induction tree with
    | leaf => simp [Impl.Const.minEntry?, Impl.toListModel]
    | inner _ key value left right ih =>
      cases left with
      | leaf => simp [Impl.Const.minEntry?, Impl.toListModel]
      | inner _ _ _ _ _ =>
        rw [Impl.Const.minEntry?, ih]
        simp [Impl.toListModel]
  obtain ⟨⟨entries⟩⟩ := map
  induction entries using Quotient.ind with
  | _ tree =>
    show Impl.Const.minEntry? tree.inner = (Impl.Const.toList tree.inner).head?
    rw [leftmost, Impl.Const.toList_eq_toListModel_map]

/-- The front of a map is one of its entries, and no entry has a smaller key. -/
theorem minEntry?_eq_some (map : Std.ExtTreeMap K V) {key : K} {value : V}
    (front : map.minEntry? = some (key, value)) :
    map[key]? = some value ∧
      ∀ other found, map[other]? = some found → other = key ∨ compare key other = .lt := by
  rw [minEntry?_eq_head?] at front
  have sorted := map.ordered_keys_toList
  have member : ∀ entry, entry ∈ map.toList ↔ map[entry.1]? = some entry.2 := by
    intro entry
    exact Std.ExtTreeMap.mem_toList_iff_getElem?_eq_some
  cases entries : map.toList with
  | nil => simp [entries] at front
  | cons first rest =>
    simp only [entries, List.head?_cons, Option.some.injEq] at front
    subst front
    rw [entries, List.pairwise_cons] at sorted
    have here := (member (key, value)).mp (by simp [entries])
    refine ⟨here, ?_⟩
    intro other found lookup
    have listed := (member (other, found)).mpr lookup
    rw [entries, List.mem_cons] at listed
    rcases listed with same | later
    · exact Or.inl (congrArg Prod.fst same)
    · exact Or.inr (sorted.1 _ later)

theorem minEntry?_eq_none (map : Std.ExtTreeMap K V) (front : map.minEntry? = none) (key : K) :
    map[key]? = none := by
  rw [minEntry?_eq_head?, List.head?_eq_none_iff] at front
  cases found : map[key]? with
  | none => rfl
  | some value =>
    have member := Std.ExtTreeMap.mem_toList_iff_getElem?_eq_some.mpr found
    rw [front] at member
    cases member

omit [Std.LawfulEqOrd K] in
theorem size_insert (map : Std.ExtTreeMap K V) (key : K) (value : V) :
    (map.insert key value).size = if map[key]?.isSome then map.size else map.size + 1 := by
  rw [Std.ExtTreeMap.size_insert, Std.ExtTreeMap.contains_eq_isSome_getElem?]

omit [Std.LawfulEqOrd K] in
theorem size_erase (map : Std.ExtTreeMap K V) (key : K) :
    (map.erase key).size = if map[key]?.isSome then map.size - 1 else map.size := by
  rw [Std.ExtTreeMap.size_erase, Std.ExtTreeMap.contains_eq_isSome_getElem?]

variable [DecidableEq K]

theorem lookup_insert (map : Std.ExtTreeMap K V) (key other : K) (value : V) :
    (map.insert key value)[other]? = if other = key then some value else map[other]? := by
  rw [Std.ExtTreeMap.getElem?_insert]
  by_cases same : other = key
  · simp [same]
  · simp [same, Ne.symm same]

theorem lookup_erase (map : Std.ExtTreeMap K V) (key other : K) :
    (map.erase key)[other]? = if other = key then none else map[other]? := by
  rw [Std.ExtTreeMap.getElem?_erase]
  by_cases same : other = key
  · simp [same]
  · simp [same, Ne.symm same]

theorem insert_eq_self_iff (map : Std.ExtTreeMap K V) (key : K) (value : V) :
    map.insert key value = map ↔ map[key]? = some value := by
  constructor
  · intro same
    have found := lookup_insert map key key value
    rwa [same, if_pos rfl] at found
  · intro found
    refine Std.ExtTreeMap.ext_getElem? fun other => ?_
    rw [lookup_insert]
    split
    · rename_i same
      rw [same, found]
    · rfl

theorem erase_eq_self_iff (map : Std.ExtTreeMap K V) (key : K) : map.erase key = map ↔ map[key]? = none := by
  constructor
  · intro same
    have gone := lookup_erase map key key
    rwa [same, if_pos rfl] at gone
  · intro gone
    refine Std.ExtTreeMap.ext_getElem? fun other => ?_
    rw [lookup_erase]
    split
    · rename_i same
      rw [same, gone]
    · rfl

/-- Inserting without overwriting keeps the value that came first. -/
theorem lookup_insertIfNew (map : Std.ExtTreeMap K V) (key other : K) (value : V) :
    (map.insertIfNew key value)[other]? =
      if other = key then map[key]?.or (some value) else map[other]? := by
  rw [Std.ExtTreeMap.getElem?_insertIfNew]
  by_cases same : other = key
  · subst same
    cases found : map[other]? with
    | none => simp [Std.ExtTreeMap.mem_iff_isSome_getElem?, found]
    | some old => simp [Std.ExtTreeMap.mem_iff_isSome_getElem?, found]
  · simp [same, Ne.symm same]

theorem mem_of_foldl_insertIfNew {entries : List (K × V)} {map : Std.ExtTreeMap K V} {key : K} {value : V}
    (found : (entries.foldl (fun built entry => built.insertIfNew entry.1 entry.2) map)[key]? = some value) :
    map[key]? = some value ∨ (key, value) ∈ entries := by
  induction entries generalizing map with
  | nil => exact Or.inl found
  | cons entry rest ih =>
    rcases ih found with before | inRest
    · rw [lookup_insertIfNew] at before
      split at before
      · rename_i same
        rcases Option.or_eq_some_iff.mp before with old | ⟨_, new⟩
        · exact Or.inl (by rw [same]; exact old)
        · cases new
          subst same
          exact Or.inr List.mem_cons_self
      · exact Or.inl before
    · exact Or.inr (List.mem_cons_of_mem entry inRest)

omit [Std.LawfulEqOrd K] [DecidableEq K] in
theorem size_foldl_insertIfNew_le (entries : List (K × V)) (map : Std.ExtTreeMap K V) :
    (entries.foldl (fun built entry => built.insertIfNew entry.1 entry.2) map).size ≤ map.size + entries.length := by
  induction entries generalizing map with
  | nil => exact le_rfl
  | cons entry rest ih =>
    have one : (map.insertIfNew entry.1 entry.2).size ≤ map.size + 1 := Std.ExtTreeMap.size_insertIfNew_le
    have later := ih (map.insertIfNew entry.1 entry.2)
    rw [List.foldl_cons, List.length_cons]
    omega

/-- Reading the entries of a map back, without overwriting, rebuilds the map. -/
theorem foldl_insertIfNew_toList (map : Std.ExtTreeMap K V) :
    map.toList.foldl (fun built entry => built.insertIfNew entry.1 entry.2) ∅ = map := by
  apply Std.ExtTreeMap.ext_getElem?
  intro key
  have loop := Loops.foldl_keyed (· = ·) (fun _ => rfl) Eq.trans
    (fun (built : Std.ExtTreeMap K V) key => built[key]?)
    (fun built entry => built.insertIfNew entry.1 entry.2) (fun old value => old.or (some value))
    (fun _ _ => True) (fun _ => trivial)
    (fun {built entry _} key _ => lookup_insertIfNew built entry.1 key entry.2)
    key map.toList ∅ trivial (toList_distinct map)
  cases found : map[key]? with
  | none =>
    rw [loop.2]
    · simp
    · intro entry member same
      subst same
      rw [Std.ExtTreeMap.mem_toList_iff_getElem?_eq_some.mp member] at found
      cases found
  | some value =>
    obtain ⟨middle, rfl, final⟩ := loop.1 value (Std.ExtTreeMap.mem_toList_iff_getElem?_eq_some.mpr found)
    rw [final]
    simp

end OrderedMap
