import Mathlib

namespace Versioned

/-- A version of one key: a live value or a deletion, stamped with a sequence number. -/
inductive Entry (V : Type) where
  | live (value : V) (seq : Nat)
  | deleted (seq : Nat)
  deriving DecidableEq, Repr

def Entry.seq {V : Type} : Entry V → Nat
  | .live _ seq => seq
  | .deleted seq => seq

@[simp] theorem Entry.seq_live {V : Type} (value : V) (seq : Nat) : (Entry.live value seq).seq = seq := rfl

@[simp] theorem Entry.seq_deleted {V : Type} (seq : Nat) : (Entry.deleted seq : Entry V).seq = seq := rfl

/-- What a store remembers about one key: the stored version and, independently, a tombstone. -/
@[ext] structure Cell (V : Type) where
  stored : Option (V × Nat)
  tombstone : Option Nat
  deriving DecidableEq, Repr

namespace Cell

variable {V : Type}

def ofEntry : Entry V → Cell V
  | .live value seq => ⟨some (value, seq), none⟩
  | .deleted seq => ⟨none, some seq⟩

/-- Apply a version. A newer tombstone blocks it; otherwise the tombstone is dropped, and a
`checked` version additionally loses against a newer stored one. -/
def apply (cell : Cell V) (entry : Entry V) (checked : Bool) : Cell V :=
  if cell.tombstone.any (entry.seq < ·) then cell
  else if checked && cell.stored.any (entry.seq < ·.2) then { cell with tombstone := none }
  else ofEntry entry

def entries (cell : Cell V) : List (Entry V) :=
  (cell.stored.map fun version => Entry.live version.1 version.2).toList ++
    (cell.tombstone.map Entry.deleted).toList

/-- The version a read reports: the stored one, otherwise the tombstone. -/
def held (cell : Cell V) : Option (Entry V) :=
  (cell.stored.map fun version => Entry.live version.1 version.2).or (cell.tombstone.map Entry.deleted)

/-- The same cell, except that its tombstone may have been forgotten. -/
def Forgets (later earlier : Cell V) : Prop :=
  later.stored = earlier.stored ∧ (later.tombstone = earlier.tombstone ∨ later.tombstone = none)

theorem Forgets.refl (cell : Cell V) : Forgets cell cell := ⟨rfl, Or.inl rfl⟩

theorem Forgets.trans {first second third : Cell V} (late : Forgets third second)
    (early : Forgets second first) : Forgets third first := by
  refine ⟨late.1.trans early.1, ?_⟩
  rcases late.2 with same | gone
  · rw [same]
    exact early.2
  · exact Or.inr gone

theorem Forgets.entries_subset {later earlier : Cell V} (forgets : Forgets later earlier) :
    later.entries ⊆ earlier.entries := by
  obtain ⟨stored, same | gone⟩ := forgets
  · rw [Cell.ext stored same]
    exact List.Subset.refl _
  · simp [entries, stored, gone]

theorem held_ofEntry (entry : Entry V) : (ofEntry entry).held = some entry := by
  cases entry <;> rfl

theorem held_eq_none_iff (cell : Cell V) : cell.held = none ↔ cell.entries = [] := by
  cases cell with
  | mk stored tombstone => cases stored <;> cases tombstone <;> simp [held, entries]

theorem apply_cases (cell : Cell V) (entry : Entry V) (checked : Bool) :
    (cell.apply entry checked = cell ∧ ∃ deletedSeq, cell.tombstone = some deletedSeq ∧ entry.seq < deletedSeq) ∨
      (cell.apply entry checked = { cell with tombstone := none } ∧
        checked = true ∧ ∃ version, cell.stored = some version ∧ entry.seq < version.2) ∨
      (cell.apply entry checked = ofEntry entry ∧
        ∀ deletedSeq, cell.tombstone = some deletedSeq → deletedSeq ≤ entry.seq) := by
  unfold apply
  split
  · rename_i blocked
    exact Or.inl ⟨rfl, by simpa [Option.any_eq_true] using blocked⟩
  · rename_i unblocked
    have unblocked : ∀ deletedSeq, cell.tombstone = some deletedSeq → deletedSeq ≤ entry.seq := by
      simpa [Option.any_eq_true] using unblocked
    split
    · rename_i lost
      refine Or.inr (Or.inl ⟨rfl, ?_⟩)
      simpa [Option.any_eq_true] using lost
    · exact Or.inr (Or.inr ⟨rfl, unblocked⟩)

theorem entries_apply_subset (cell : Cell V) (entry : Entry V) (checked : Bool) :
    (cell.apply entry checked).entries ⊆ cell.entries ++ [entry] := by
  rcases apply_cases cell entry checked with ⟨kept, _⟩ | ⟨lost, _⟩ | ⟨taken, _⟩
  · rw [kept]
    exact List.subset_append_left _ _
  · rw [lost]
    simp [entries]
  · rw [taken]
    cases entry <;> simp [entries, ofEntry]

/-- A version at least as new as everything in the cell is taken, checked or not. -/
theorem apply_of_newest {cell : Cell V} {entry : Entry V} (checked : Bool)
    (newest : ∀ old ∈ cell.entries, old.seq ≤ entry.seq) : cell.apply entry checked = ofEntry entry := by
  rcases apply_cases cell entry checked with
    ⟨_, deletedSeq, found, newer⟩ | ⟨_, _, version, found, newer⟩ | ⟨taken, _⟩
  · have bound := newest (.deleted deletedSeq) (by simp [entries, found])
    exact absurd newer (Nat.not_lt.mpr bound)
  · have bound := newest (.live version.1 version.2) (by simp [entries, found])
    exact absurd newer (Nat.not_lt.mpr bound)
  · exact taken

/-- A checked version strictly older than what the cell holds changes nothing a read can see. -/
theorem held_apply_of_older {cell : Cell V} {entry current : Entry V} (held : cell.held = some current)
    (older : entry.seq < current.seq) : (cell.apply entry true).held = some current := by
  obtain ⟨stored, tombstone⟩ := cell
  cases stored with
  | none =>
    cases tombstone with
    | none => simp [Cell.held] at held
    | some deletedSeq =>
      have same : Entry.deleted deletedSeq = current := by simpa [Cell.held] using held
      subst same
      simp_all [apply, Cell.held]
  | some version =>
    have same : Entry.live version.1 version.2 = current := by simpa [Cell.held] using held
    subst same
    unfold apply
    split
    · exact held
    · rw [if_pos (by simpa using older)]
      rfl

/-- A key is not stored and deleted at the same time. -/
def Exclusive (cell : Cell V) : Prop := cell.stored = none ∨ cell.tombstone = none

theorem Exclusive.apply {cell : Cell V} (exclusive : cell.Exclusive) (entry : Entry V) (checked : Bool) :
    (cell.apply entry checked).Exclusive := by
  rcases apply_cases cell entry checked with ⟨kept, _⟩ | ⟨lost, _⟩ | ⟨taken, _⟩
  · rwa [kept]
  · rw [lost]
    exact Or.inr rfl
  · rw [taken]
    cases entry with
    | live value seq => exact Or.inr rfl
    | deleted seq => exact Or.inl rfl

theorem Forgets.exclusive {later earlier : Cell V} (forgets : Forgets later earlier)
    (exclusive : earlier.Exclusive) : later.Exclusive := by
  rcases forgets.2 with same | gone
  · exact exclusive.imp (fun absent => forgets.1.trans absent) (fun absent => same.trans absent)
  · exact Or.inr gone

/-- A cell with nothing stored takes a live version exactly when its tombstone is not newer. -/
theorem stored_apply_of_absent {cell : Cell V} {entry : Entry V} {checked : Bool} {value : V} {seq : Nat}
    (absent : cell.stored = none) :
    (cell.apply entry checked).stored = some (value, seq) ↔
      entry = .live value seq ∧ ∀ deletedSeq, cell.tombstone = some deletedSeq → deletedSeq ≤ seq := by
  rcases apply_cases cell entry checked with
    ⟨kept, deletedSeq, found, newer⟩ | ⟨_, _, version, found, _⟩ | ⟨taken, unblocked⟩
  · rw [kept, absent]
    refine ⟨by simp, ?_⟩
    rintro ⟨rfl, admitted⟩
    exact absurd newer (Nat.not_lt.mpr (admitted deletedSeq found))
  · rw [absent] at found
    cases found
  · rw [taken]
    cases entry with
    | live value' seq' =>
      simp only [ofEntry, Option.some.injEq, Prod.mk.injEq, Entry.live.injEq]
      refine ⟨?_, fun same => same.1⟩
      rintro ⟨rfl, rfl⟩
      exact ⟨⟨rfl, rfl⟩, unblocked⟩
    | deleted seq' => simp [ofEntry]

theorem Forgets.held_eq {later earlier : Cell V} (forgets : Forgets later earlier) :
    later.held = none ∨ later.held = earlier.held := by
  obtain ⟨sameStored, same | gone⟩ := forgets
  · right
    unfold held
    rw [sameStored, same]
  · cases found : earlier.stored with
    | none => exact Or.inl (by simp [held, sameStored, found, gone])
    | some version => exact Or.inr (by simp [held, sameStored, found])

/-- Whatever tombstones are forgotten before and after a version is applied, a read then reports
nothing, the version, or what it reported before. -/
theorem held_of_forgets {before middle after : Cell V} {entry : Entry V} {checked : Bool}
    (early : Forgets middle before) (late : Forgets after (middle.apply entry checked)) :
    after.held = none ∨ after.held = before.held ∨ after.held = some entry := by
  rcases apply_cases middle entry checked with ⟨kept, _⟩ | ⟨lost, _, version, found, _⟩ | ⟨taken, _⟩
  · rw [kept] at late
    rcases Forgets.held_eq (late.trans early) with gone | same
    · exact Or.inl gone
    · exact Or.inr (Or.inl same)
  · have forgets : Forgets { middle with tombstone := none } middle := ⟨rfl, Or.inr rfl⟩
    rw [lost] at late
    rcases Forgets.held_eq ((late.trans forgets).trans early) with gone | same
    · exact Or.inl gone
    · exact Or.inr (Or.inl same)
  · rw [taken] at late
    rcases late.held_eq with gone | same
    · exact Or.inl gone
    · exact Or.inr (Or.inr (same.trans (held_ofEntry entry)))

end Cell

/-- `candidate` is one of `versions` and none of them is newer; with no version there is none. -/
def IsNewest {V : Type} (candidate : Option (Entry V)) (versions : List (Entry V)) : Prop :=
  match candidate with
  | none => versions = []
  | some entry => entry ∈ versions ∧ ∀ other ∈ versions, other.seq ≤ entry.seq

instance {V : Type} [DecidableEq V] (candidate : Option (Entry V)) (versions : List (Entry V)) :
    Decidable (IsNewest candidate versions) :=
  match candidate with
  | none => inferInstanceAs (Decidable (versions = []))
  | some entry => inferInstanceAs (Decidable (entry ∈ versions ∧ ∀ other ∈ versions, other.seq ≤ entry.seq))

end Versioned
