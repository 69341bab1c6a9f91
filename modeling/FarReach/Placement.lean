import Mathlib

namespace Placement

variable {P I K : Type} [DecidableEq P] [DecidableEq I] [DecidableEq K]

/-- Keys in slots, where a slot is a place in a part, and an index from the keys to their places: the two
are inverse to each other, and no key is in two slots. -/
structure Placed (index : K → Option I) (slots : P × I → Option K) : Prop where
  found {slot : P × I} {key : K} : slots slot = some key → index key = some slot.2
  occupied {key : K} {place : I} : index key = some place → ∃ part, slots (part, place) = some key
  single {slot other : P × I} {key : K} : slots slot = some key → slots other = some key → slot = other

/-- Entering a place for a key that may have one already. -/
def enter (index : K → Option I) (key : K) (place : I) : K → Option I :=
  Function.update index key ((index key).or (some place))

variable {index : K → Option I} {slots : P × I → Option K} {slot : P × I} {key victim : K}

omit [DecidableEq P] [DecidableEq I] [DecidableEq K] in
theorem placed_empty : @Placed P I K (fun _ : K => (none : Option I)) fun _ => none where
  found := by
    intro slot key holds
    cases holds
  occupied := by
    intro key place entered
    cases entered
  single := by
    intro slot other key holds
    cases holds

theorem Placed.clear (placed : Placed index slots) (held : slots slot = some victim) :
    Placed (Function.update index victim none) (Function.update slots slot none) where
  found := by
    intro other key holds
    by_cases same : other = slot
    · rw [same, Function.update_self] at holds
      cases holds
    · rw [Function.update_of_ne same] at holds
      have kept : key ≠ victim := fun equal => same (placed.single holds (equal ▸ held))
      rw [Function.update_of_ne kept]
      exact placed.found holds
  occupied := by
    intro key place entered
    have kept : key ≠ victim := by
      rintro rfl
      rw [Function.update_self] at entered
      cases entered
    rw [Function.update_of_ne kept] at entered
    obtain ⟨part, holds⟩ := placed.occupied entered
    refine ⟨part, ?_⟩
    rw [Function.update_of_ne, holds]
    rintro rfl
    exact kept (Option.some.inj (holds.symm.trans held))
  single := by
    intro left right key first second
    by_cases clearedLeft : left = slot
    · rw [clearedLeft, Function.update_self] at first
      cases first
    by_cases clearedRight : right = slot
    · rw [clearedRight, Function.update_self] at second
      cases second
    rw [Function.update_of_ne clearedLeft] at first
    rw [Function.update_of_ne clearedRight] at second
    exact placed.single first second

theorem Placed.fill_new (placed : Placed index slots) (free : slots slot = none) (new : index key = none) :
    Placed (Function.update index key (some slot.2)) (Function.update slots slot (some key)) where
  found := by
    intro other name holds
    by_cases same : other = slot
    · rw [same, Function.update_self] at holds
      rw [same, ← Option.some.inj holds, Function.update_self]
    · rw [Function.update_of_ne same] at holds
      have entered := placed.found holds
      rw [Function.update_of_ne, entered]
      rintro rfl
      cases new.symm.trans entered
  occupied := by
    intro name place entered
    by_cases same : name = key
    · rw [same, Function.update_self] at entered
      refine ⟨slot.1, ?_⟩
      rw [← Option.some.inj entered, same, Function.update_self]
    · rw [Function.update_of_ne same] at entered
      obtain ⟨part, holds⟩ := placed.occupied entered
      refine ⟨part, ?_⟩
      rw [Function.update_of_ne, holds]
      rintro rfl
      cases free.symm.trans holds
  single := by
    -- the new key is in no old slot
    have only : ∀ other, Function.update slots slot (some key) other = some key → other = slot := by
      intro other holds
      by_contra different
      rw [Function.update_of_ne different] at holds
      cases new.symm.trans (placed.found holds)
    intro left right name first second
    by_cases same : name = key
    · rw [only left (same ▸ first), only right (same ▸ second)]
    · have old : ∀ other, Function.update slots slot (some key) other = some name → slots other = some name := by
        intro other holds
        by_cases filled : other = slot
        · rw [filled, Function.update_self] at holds
          exact absurd (Option.some.inj holds).symm same
        · rwa [Function.update_of_ne filled] at holds
      exact placed.single (old left first) (old right second)

/-- A key can be put into a free slot exactly if it has none yet. -/
theorem Placed.fill_iff (placed : Placed index slots) (free : slots slot = none) (key : K) :
    Placed (enter index key slot.2) (Function.update slots slot (some key)) ↔ index key = none := by
  constructor
  · intro filled
    by_contra known
    obtain ⟨place, entered⟩ := Option.ne_none_iff_exists'.mp known
    obtain ⟨part, holds⟩ := placed.occupied entered
    have different : (part, place) ≠ slot := by
      rintro rfl
      cases free.symm.trans holds
    have twice : Function.update slots slot (some key) (part, place) = some key := by
      rw [Function.update_of_ne different, holds]
    exact different (filled.single twice (Function.update_self slot (some key) slots))
  · intro new
    unfold enter
    rw [new, Option.none_or]
    exact placed.fill_new free new

/-- A key can take the slot of a victim exactly if it has no other one. -/
theorem Placed.replace_iff (placed : Placed index slots) (held : slots slot = some victim) (key : K) :
    Placed (enter (Function.update index victim none) key slot.2) (Function.update slots slot (some key)) ↔
      index key = none ∨ victim = key := by
  have cleared := placed.clear held
  have filled := cleared.fill_iff (Function.update_self slot none slots) key
  rw [Function.update_idem] at filled
  rw [filled]
  by_cases same : key = victim
  · simp [same]
  · simp [same, Ne.symm same]

end Placement
