import Mathlib

namespace KeyRoles

variable {K : Type} [DecidableEq K]

/-- Every known key has exactly one role: it waits, at one place, or it is cached, or it is on its way out. -/
structure Accounted (known : Finset K) (waiting : List K) (cached : K → Prop) (leaving : Option K) : Prop where
  once : waiting.Nodup
  known_iff (key : K) : key ∈ known ↔ key ∈ waiting ∨ cached key ∨ leaving = some key
  uncached (key : K) : key ∈ waiting → ¬ cached key
  gone (key : K) : leaving = some key → key ∉ waiting ∧ ¬ cached key

variable {known : Finset K} {waiting : List K} {cached : K → Prop} {leaving : Option K} {key : K}

omit [DecidableEq K] in
theorem Accounted.empty : @Accounted K ∅ [] (fun _ => False) none where
  once := List.nodup_nil
  known_iff := by simp
  uncached key member := by cases member
  gone key absent := by cases absent

omit [DecidableEq K] in
theorem Accounted.perm {other : List K} (accounted : Accounted known waiting cached leaving)
    (same : waiting.Perm other) : Accounted known other cached leaving where
  once := same.nodup_iff.mp accounted.once
  known_iff key := by rw [accounted.known_iff, same.mem_iff]
  uncached key member := accounted.uncached key (same.mem_iff.mpr member)
  gone key out := ⟨fun member => (accounted.gone key out).1 (same.mem_iff.mpr member), (accounted.gone key out).2⟩

omit [DecidableEq K] in
theorem Accounted.congr {other : K → Prop} (accounted : Accounted known waiting cached leaving)
    (same : ∀ key, cached key ↔ other key) : Accounted known waiting other leaving := by
  have equal : cached = other := funext fun key => propext (same key)
  rwa [equal] at accounted

theorem Accounted.enter (accounted : Accounted known waiting cached leaving) (new : key ∉ known) :
    Accounted (insert key known) (key :: waiting) cached leaving := by
  rw [accounted.known_iff, not_or, not_or] at new
  obtain ⟨notWaiting, notCached, staying⟩ := new
  refine ⟨List.nodup_cons.mpr ⟨notWaiting, accounted.once⟩, fun other => ?_, fun other member => ?_,
    fun other out => ?_⟩
  · rw [Finset.mem_insert, accounted.known_iff, List.mem_cons, or_assoc]
  · rcases List.mem_cons.mp member with rfl | before
    · exact notCached
    · exact accounted.uncached other before
  · refine ⟨fun member => ?_, (accounted.gone other out).2⟩
    rcases List.mem_cons.mp member with rfl | before
    · exact staying out
    · exact (accounted.gone other out).1 before

omit [DecidableEq K] in
theorem Accounted.settle (accounted : Accounted known (key :: waiting) cached leaving) :
    Accounted known waiting (fun other => other = key ∨ cached other) leaving := by
  obtain ⟨apart, once⟩ := List.nodup_cons.mp accounted.once
  refine ⟨once, fun other => ?_, fun other member => ?_, fun other out => ?_⟩
  · rw [accounted.known_iff, List.mem_cons]
    tauto
  · rintro (rfl | before)
    · exact apart member
    · exact accounted.uncached other (List.mem_cons_of_mem key member) before
  · obtain ⟨notWaiting, notCached⟩ := accounted.gone other out
    refine ⟨fun member => notWaiting (List.mem_cons_of_mem key member), ?_⟩
    rintro (rfl | before)
    · exact notWaiting List.mem_cons_self
    · exact notCached before

omit [DecidableEq K] in
theorem Accounted.release (accounted : Accounted known waiting cached none) (here : cached key) :
    Accounted known waiting (fun other => other ≠ key ∧ cached other) (some key) := by
  refine ⟨accounted.once, fun other => ?_, fun other member both => ?_, fun other out => ?_⟩
  · rw [accounted.known_iff]
    by_cases same : other = key
    · subst same
      simp [here]
    · simp [same, Ne.symm same]
  · exact accounted.uncached other member both.2
  · cases out
    exact ⟨fun member => accounted.uncached key member here, fun both => both.1 rfl⟩

theorem Accounted.forget (accounted : Accounted known waiting cached (some key)) :
    Accounted (known.erase key) waiting cached none := by
  obtain ⟨notWaiting, notCached⟩ := accounted.gone key rfl
  refine ⟨accounted.once, fun other => ?_, accounted.uncached, fun other absent => by cases absent⟩
  rw [Finset.mem_erase, accounted.known_iff]
  by_cases same : other = key
  · subst same
    simp [notWaiting, notCached]
  · simp [same, Ne.symm same]

omit [DecidableEq K] in
/-- A waiting key that is dropped stays known without any role. -/
theorem Accounted.dropped (accounted : Accounted known (key :: waiting) cached leaving) :
    key ∈ known ∧ ¬ (key ∈ waiting ∨ cached key ∨ leaving = some key) := by
  have member : key ∈ key :: waiting := List.mem_cons_self
  refine ⟨(accounted.known_iff key).mpr (Or.inl member), ?_⟩
  rintro (again | here | out)
  · exact (List.nodup_cons.mp accounted.once).1 again
  · exact accounted.uncached key member here
  · exact (accounted.gone key out).1 member

end KeyRoles
