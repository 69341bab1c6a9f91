import Mathlib

namespace Sketches

variable {R K B C : Type} [DecidableEq B] [AddMonoidWithOne C]

/-- A request adds one to the counter of its bucket in every row; other keys may have the same bucket. -/
def count (bucket : R → K → B) (counters : R → B → C) (key : K) : R → B → C := fun row =>
  Function.update (counters row) (bucket row key) (counters row (bucket row key) + 1)

def hits (bucket : R → K → B) (requests : List K) (row : R) (place : B) : Nat :=
  requests.countP fun key => bucket row key = place

theorem hits_append (bucket : R → K → B) (requests : List K) (key : K) (row : R) (place : B) :
    hits bucket (requests ++ [key]) row place =
      hits bucket requests row place + if bucket row key = place then 1 else 0 := by
  unfold hits
  rw [List.countP_append, List.countP_singleton]
  simp only [decide_eq_true_eq]

/-- The counters are the numbers of hits, as far as their type can tell. -/
def Counted (bucket : R → K → B) (requests : List K) (counters : R → B → C) : Prop :=
  ∀ row place, counters row place = (hits bucket requests row place : C)

theorem Counted.empty (bucket : R → K → B) : Counted bucket [] (fun _ _ => (0 : C)) := by
  intro row place
  simp [hits]

theorem Counted.count {bucket : R → K → B} {requests : List K} {counters : R → B → C}
    (counted : Counted bucket requests counters) (key : K) :
    Counted bucket (requests ++ [key]) (count bucket counters key) := by
  intro row place
  unfold Sketches.count
  rw [hits_append]
  by_cases same : bucket row key = place
  · subst same
    rw [Function.update_self, if_pos rfl, counted, Nat.cast_add, Nat.cast_one]
  · rw [Function.update_of_ne (Ne.symm same), if_neg same, counted, Nat.add_zero]

/-- A bucket is hit at least as often as some requests for it are made. -/
theorem countP_le_hits {bucket : R → K → B} {requests : List K} {row : R} {place : B} {p : K → Bool}
    (hit : ∀ key ∈ requests, p key = true → bucket row key = place) :
    requests.countP p ≤ hits bucket requests row place :=
  List.countP_mono_left fun key member holds => decide_eq_true (hit key member holds)

end Sketches
