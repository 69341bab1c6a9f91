import FarReach.KvStore

namespace FarReach

open Versioned

inductive Write where
  | put (key : Key) (val : Val) (seq : Nat) (checkseq : Bool)
  | remove (key : Key) (seq : Nat) (checkseq : Bool)
  deriving DecidableEq, Repr

def Write.key : Write → Key
  | put key _ _ _ => key
  | remove key _ _ => key

def Write.apply (kv : KvStore) : Write → KvStore
  | put key val seq checkseq => (kv.put key val seq checkseq).2
  | remove key seq checkseq => (kv.remove key seq checkseq).2

/-- One write, seen from any key: its own cell takes the version, and tombstones may be forgotten. -/
theorem Write.cell_apply (kv : KvStore) (write : Write) (key : Key) :
    ∃ entry checkseq, ((write.apply kv).cell key).Forgets
      (if key = write.key then (kv.cell write.key).apply entry checkseq else kv.cell key) := by
  cases write with
  | put writeKey val seq checkseq =>
    refine ⟨.live val seq, checkseq, ?_⟩
    have exact_cell := KvStore.cell_put kv writeKey key val seq checkseq
    unfold Write.apply
    rw [exact_cell]
    exact Cell.Forgets.refl _
  | remove writeKey seq checkseq =>
    exact ⟨.deleted seq, checkseq, KvStore.cell_remove_forgets kv writeKey key seq checkseq⟩

def KvStore.Disjoint (kv : KvStore) : Prop := ∀ key, (kv.cell key).Exclusive

theorem KvStore.Disjoint.apply {kv : KvStore} (disjoint : kv.Disjoint) (write : Write) :
    (write.apply kv).Disjoint := by
  intro key
  obtain ⟨entry, checkseq, forgets⟩ := write.cell_apply kv key
  refine forgets.exclusive ?_
  split
  · exact (disjoint write.key).apply entry checkseq
  · exact disjoint key

/-- A history of writes keeps the database and the tombstones disjoint. -/
theorem KvStore.Disjoint.history {kv : KvStore} (disjoint : kv.Disjoint) (history : List Write) :
    (history.foldl Write.apply kv).Disjoint := by
  induction history generalizing kv with
  | nil => exact disjoint
  | cons write rest ih => exact ih (disjoint.apply write)

end FarReach
