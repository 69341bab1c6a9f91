import Mathlib

namespace MatchTable

variable {O T A : Type} [DecidableEq O] [DecidableEq T]

/-- An exact-match table: the key is an operation with further fields, and a miss runs the default
action. -/
structure Table (O T A : Type) where
  entries : List ((O × T) × A)
  default : A

/-- The entries a controller adds in nested loops over `ranges`, where each round adds `body`. -/
def loop (ranges : List T) (body : T → List (O × A)) : List ((O × T) × A) :=
  ranges.flatMap fun fields => (body fields).map fun entry => ((entry.1, fields), entry.2)

@[simp] def Table.lookup (table : Table O T A) (op : O) (fields : T) : A :=
  (table.entries.lookup (op, fields)).getD table.default

theorem lookup_round (body : List (O × A)) (round fields : T) (op : O) :
    (body.map fun entry => ((entry.1, round), entry.2)).lookup (op, fields) =
      if fields = round then body.lookup op else none := by
  induction body with
  | nil => simp
  | cons entry rest ih =>
    rw [List.map_cons, List.lookup_cons, List.lookup_cons, ih]
    by_cases same : fields = round
    · subst same
      by_cases head : op = entry.1
      · subst head
        simp only [beq_self_eq_true, if_true]
      · have other : ((op, fields) == (entry.1, fields)) = false := by simpa using head
        simp only [other, beq_eq_false_iff_ne.mpr head, if_true]
    · have other : ((op, fields) == (entry.1, round)) = false := by simpa using fun _ => same
      simp only [other, same, if_false]

/-- A lookup finds the entry that the round for its own fields has added, if there is such a round. -/
@[simp] theorem lookup_loop (ranges : List T) (body : T → List (O × A)) (op : O) (fields : T) :
    (loop ranges body).lookup (op, fields) = if fields ∈ ranges then (body fields).lookup op else none := by
  induction ranges with
  | nil => rfl
  | cons round rest ih =>
    have unfolded : loop (round :: rest) body =
        ((body round).map fun entry => ((entry.1, round), entry.2)) ++ loop rest body := rfl
    rw [unfolded, List.lookup_append, lookup_round, ih]
    by_cases same : fields = round
    · subst same
      cases (body fields).lookup op <;> simp
    · simp [same]

@[simp] theorem lookup_entry (entry : O × A) (rest : List (O × A)) (op : O) :
    (entry :: rest).lookup op = if op = entry.1 then some entry.2 else rest.lookup op := by
  rw [List.lookup_cons]
  by_cases same : op = entry.1
  · simp [same]
  · simp [same, beq_eq_false_iff_ne.mpr same]

/-- Entries that depend on a condition. -/
@[simp] theorem lookup_ite (condition : Prop) [Decidable condition] (added other : List (O × A)) (op : O) :
    (if condition then added else other).lookup op =
      if condition then added.lookup op else other.lookup op := by
  split <;> rfl

attribute [simp] List.lookup_append

theorem lookup_filter_ne {K V : Type} [BEq K] [LawfulBEq K] [DecidableEq K] (entries : List (K × V))
    (removed key : K) :
    (entries.filter fun entry => entry.1 ≠ removed).lookup key = if key = removed then none
      else entries.lookup key := by
  induction entries with
  | nil => simp
  | cons entry rest ih =>
    rw [List.filter_cons, List.lookup_cons]
    by_cases gone : entry.1 = removed
    · rw [if_neg (by simpa using gone), ih]
      by_cases same : key = removed
      · rw [if_pos same, if_pos same]
      · have other : (key == entry.1) = false := beq_eq_false_iff_ne.mpr (gone ▸ same)
        rw [if_neg same, if_neg same, other]
    · rw [if_pos (by simpa using gone), List.lookup_cons, ih]
      by_cases found : key = entry.1
      · have kept : key ≠ removed := found ▸ gone
        simp [found, gone]
      · simp only [beq_eq_false_iff_ne.mpr found]

/-- An action that is entered in some rounds only, under a condition on the round. -/
theorem getD_entered (round entered : Prop) [Decidable round] [Decidable entered] (action default : A) :
    (if round then if entered then some action else none else none).getD default =
      if round ∧ entered then action else default := by
  by_cases first : round <;> by_cases second : entered <;> simp [first, second]

end MatchTable
