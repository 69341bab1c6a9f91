import Mathlib

namespace Loops

variable {S A : Type}

/-- The rule for a loop that may abort: an invariant about the elements already handled, which
every round re-establishes without aborting, holds after the loop. -/
theorem foldlM_some_of_invariant (step : S → A → Option S) (Inv : List A → S → Prop)
    (advance : ∀ done state item, Inv done state → ∃ next, step state item = some next ∧ Inv (done ++ [item]) next)
    (todo done : List A) (state : S) (before : Inv done state) :
    ∃ final, todo.foldlM step state = some final ∧ Inv (done ++ todo) final := by
  induction todo generalizing done state with
  | nil => exact ⟨state, rfl, by simpa using before⟩
  | cons item rest ih =>
    obtain ⟨next, stepped, after⟩ := advance done state item before
    obtain ⟨final, ran, holds⟩ := ih (done ++ [item]) next after
    refine ⟨final, ?_, by simpa using holds⟩
    rw [List.foldlM_cons, stepped]
    exact ran

/-- The same rule for two nested loops; the invariant speaks about the flattened prefix. -/
theorem foldlM_nested_some_of_invariant (step : S → A → Option S) (Inv : List A → S → Prop)
    (advance : ∀ done state item, Inv done state → ∃ next, step state item = some next ∧ Inv (done ++ [item]) next)
    (todo : List (List A)) (done : List A) (state : S) (before : Inv done state) :
    ∃ final, todo.foldlM (fun state items => items.foldlM step state) state = some final ∧
      Inv (done ++ todo.flatten) final := by
  induction todo generalizing done state with
  | nil => exact ⟨state, rfl, by simpa using before⟩
  | cons items rest ih =>
    obtain ⟨next, stepped, after⟩ := foldlM_some_of_invariant step Inv advance items done state before
    obtain ⟨final, ran, holds⟩ := ih (done ++ items) next after
    refine ⟨final, ?_, by simpa using holds⟩
    rw [List.foldlM_cons, stepped]
    exact ran

/-- A running maximum reaches a bound only by its start or by an element. -/
theorem le_foldl_max_iff {bound start : Nat} (items : List Nat) :
    bound ≤ items.foldl max start ↔ bound ≤ start ∨ ∃ item ∈ items, bound ≤ item := by
  induction items generalizing start with
  | nil => simp
  | cons item rest ih =>
    rw [List.foldl_cons, ih, le_max_iff]
    simp only [List.mem_cons, exists_eq_or_imp]
    exact or_assoc

/-- Two nested loops are one loop over the flattened list. -/
theorem foldlM_flatten (step : S → A → Option S) (lists : List (List A)) (state : S) :
    lists.foldlM (fun state items => items.foldlM step state) state = lists.flatten.foldlM step state := by
  induction lists generalizing state with
  | nil => rfl
  | cons items rest ih =>
    rw [List.foldlM_cons, List.flatten_cons, List.foldlM_append]
    congr 1
    funext next
    exact ih next

/-- A loop whose every round checks its element, and never in vain, is a plain loop. -/
theorem foldlM_checked (ok : A → Prop) [DecidablePred ok] (step : S → A → S) (items : List A) (state : S)
    (all : ∀ item ∈ items, ok item) :
    items.foldlM (fun state item => if ok item then some (step state item) else none) state =
      some (items.foldl step state) := by
  induction items generalizing state with
  | nil => rfl
  | cons item rest ih =>
    rw [List.foldlM_cons, if_pos (all item List.mem_cons_self)]
    exact ih (step state item) fun later member => all later (List.mem_cons_of_mem _ member)

/-- Of what is held and a new element the lighter one; of two equally heavy ones the first. -/
def keepSmaller (weight : A → Nat) (held : Option A) (item : A) : Option A :=
  match held with
  | none => some item
  | some old => if weight item < weight old then some item else some old

/-- What is kept of a list is one of its lightest elements. -/
theorem foldl_keepSmaller (weight : A → Nat) (items : List A) (held : Option A) :
    (items.foldl (keepSmaller weight) held = none ↔ held = none ∧ items = []) ∧
      ∀ kept, items.foldl (keepSmaller weight) held = some kept →
        kept ∈ held.toList ++ items ∧ ∀ item ∈ held.toList ++ items, weight kept ≤ weight item := by
  induction items generalizing held with
  | nil =>
    refine ⟨by simp, ?_⟩
    intro kept same
    have same : held = some kept := same
    subst same
    simp
  | cons item rest ih =>
    obtain ⟨nothing, something⟩ := ih (keepSmaller weight held item)
    rw [List.foldl_cons]
    cases held with
    | none =>
      have now : keepSmaller weight none item = some item := rfl
      rw [now] at nothing something ⊢
      refine ⟨by simp [nothing], ?_⟩
      intro kept same
      exact something kept same
    | some old =>
      by_cases lighter : weight item < weight old
      · have now : keepSmaller weight (some old) item = some item := by simp [keepSmaller, lighter]
        rw [now] at nothing something ⊢
        refine ⟨by simp [nothing], ?_⟩
        intro kept same
        obtain ⟨member, least⟩ := something kept same
        have below := least item (by simp)
        refine ⟨List.mem_append_right _ member, ?_⟩
        intro other inside
        rcases List.mem_append.mp inside with first | later
        · have same : other = old := by simpa using first
          subst same
          omega
        · exact least other later
      · have now : keepSmaller weight (some old) item = some old := by simp [keepSmaller, lighter]
        rw [now] at nothing something ⊢
        refine ⟨by simp [nothing], ?_⟩
        intro kept same
        obtain ⟨member, least⟩ := something kept same
        have below := least old (by simp)
        constructor
        · simp only [Option.toList_some, List.mem_append, List.mem_cons, List.not_mem_nil, or_false] at member ⊢
          tauto
        · intro other inside
          rcases List.mem_append.mp inside with first | later
          · exact least other (List.mem_append_left _ first)
          · rcases List.mem_cons.mp later with here | rest
            · subst here
              omega
            · exact least other (List.mem_append_right _ rest)

section Keyed

variable {K R C : Type} [DecidableEq K]

/-- The rule for a loop over entries with pairwise different keys, where a round updates only the
view of its own key, up to a preorder `rel`. `Ok` is what a round may rely on. -/
theorem foldl_keyed (rel : C → C → Prop) (refl : ∀ view, rel view view)
    (trans : ∀ {late middle early}, rel late middle → rel middle early → rel late early)
    (view : S → K → C) (step : S → K × R → S) (update : C → R → C) (Ok : S → List (K × R) → Prop)
    (keep : ∀ {state item rest}, Ok state (item :: rest) → Ok (step state item) rest)
    (own : ∀ {state item rest} key, Ok state (item :: rest) →
      rel (view (step state item) key)
        (if key = item.1 then update (view state item.1) item.2 else view state key))
    (key : K) (items : List (K × R)) (state : S) (ok : Ok state items)
    (distinct : items.Pairwise (fun left right => left.1 ≠ right.1)) :
    (∀ record, (key, record) ∈ items → ∃ middle, rel middle (view state key) ∧
        rel (view (items.foldl step state) key) (update middle record)) ∧
      ((∀ item ∈ items, item.1 ≠ key) → rel (view (items.foldl step state) key) (view state key)) := by
  induction items generalizing state with
  | nil => exact ⟨by simp, fun _ => refl _⟩
  | cons item rest ih =>
    obtain ⟨apart, distinct⟩ := List.pairwise_cons.mp distinct
    obtain ⟨present, absent⟩ := ih (step state item) (keep ok) distinct
    have round := own key ok
    rw [List.foldl_cons]
    by_cases same : key = item.1
    · rw [if_pos same] at round
      have untouched := absent (fun later member => same ▸ (apart later member).symm)
      refine ⟨?_, fun none => absurd same.symm (none item List.mem_cons_self)⟩
      intro record member
      have head : item = (key, record) := by
        rcases List.mem_cons.mp member with head | later
        · exact head.symm
        · exact absurd same.symm (apart (key, record) later)
      subst head
      exact ⟨_, refl _, trans untouched round⟩
    · rw [if_neg same] at round
      refine ⟨?_, ?_⟩
      · intro record member
        have later : (key, record) ∈ rest := by
          rcases List.mem_cons.mp member with head | later
          · exact absurd (congrArg Prod.fst head) same
          · exact later
        obtain ⟨middle, early, late⟩ := present record later
        exact ⟨middle, trans early round, late⟩
      · intro none
        exact trans (absent fun later member => none later (List.mem_cons_of_mem _ member)) round

end Keyed

end Loops
