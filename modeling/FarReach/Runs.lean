import Mathlib

namespace Runs

variable {S E : Type}

/-- The states of the runs from `start` in which every event is `allowed` in the state it meets. -/
inductive Reaches (step : S → E → S) (allowed : S → E → Prop) (start : S) : S → Prop where
  | start : Reaches step allowed start start
  | next {state : S} (before : Reaches step allowed start state) (event : E) (ok : allowed state event) :
      Reaches step allowed start (step state event)

section Rules

variable {step : S → E → S} {allowed : S → E → Prop} {start state : S}

/-- The invariant rule: what holds at the start and is kept by every allowed event holds throughout. -/
theorem Reaches.invariant (Inv : S → Prop) (base : Inv start)
    (keeps : ∀ state event, Inv state → allowed state event → Inv (step state event))
    (run : Reaches step allowed start state) : Inv state := by
  induction run with
  | start => exact base
  | next _ event ok holds => exact keeps _ event holds ok

def AllAllowed (step : S → E → S) (allowed : S → E → Prop) : S → List E → Prop
  | _, [] => True
  | state, event :: rest => allowed state event ∧ AllAllowed step allowed (step state event) rest

instance AllAllowed.decidable [∀ state event, Decidable (allowed state event)] (events : List E) (state : S) :
    Decidable (AllAllowed step allowed state events) :=
  match events with
  | [] => isTrue trivial
  | event :: rest =>
    have := AllAllowed.decidable rest (step state event)
    inferInstanceAs (Decidable (_ ∧ _))

/-- What holds in every state of the run of a list of events. -/
def Always (step : S → E → S) (Inv : S → Prop) : S → List E → Prop
  | state, [] => Inv state
  | state, event :: rest => Inv state ∧ Always step Inv (step state event) rest

theorem Always.last {Inv : S → Prop} {events : List E} (holds : Always step Inv state events) :
    Inv (events.foldl step state) := by
  induction events generalizing state with
  | nil => exact holds
  | cons event rest ih => exact ih holds.2

/-- When the allowed events are exactly those behind which `Holds` is still true, and they keep an
invariant that implies it, a run of possible events satisfies `Holds` throughout exactly if all of them
are allowed. -/
theorem always_iff_of_possible {Inv Holds : S → Prop} {possible : S → E → Prop}
    (holds : ∀ state, Inv state → Holds state)
    (keeps : ∀ state event, Inv state → possible state event → allowed state event → Inv (step state event))
    (needs : ∀ state event, Inv state → possible state event → Holds (step state event) → allowed state event)
    (events : List E) (base : Inv state) (run : AllAllowed step possible state events) :
    Always step Holds state events ↔ AllAllowed step allowed state events := by
  induction events generalizing state with
  | nil => exact ⟨fun _ => trivial, fun _ => holds state base⟩
  | cons event rest ih =>
    obtain ⟨here, rest_possible⟩ := run
    unfold Always AllAllowed
    constructor
    · intro ⟨_, later⟩
      have next : Holds (step state event) := by
        cases rest with
        | nil => exact later
        | cons _ _ => exact later.1
      have ok := needs state event base here next
      exact ⟨ok, (ih (keeps state event base here ok) rest_possible).mp later⟩
    · intro ⟨ok, later⟩
      exact ⟨holds state base, (ih (keeps state event base here ok) rest_possible).mpr later⟩

theorem allAllowed_of_all (all : ∀ state event, allowed state event) (events : List E) :
    AllAllowed step allowed state events := by
  induction events generalizing state with
  | nil => trivial
  | cons event rest ih => exact ⟨all state event, ih⟩

theorem always_iff_allAllowed {Inv Holds : S → Prop} (holds : ∀ state, Inv state → Holds state)
    (keeps : ∀ state event, Inv state → allowed state event → Inv (step state event))
    (needs : ∀ state event, Inv state → Holds (step state event) → allowed state event)
    (events : List E) (base : Inv state) :
    Always step Holds state events ↔ AllAllowed step allowed state events :=
  have run : AllAllowed step (fun _ _ => True) state events := allAllowed_of_all (fun _ _ => trivial) events
  always_iff_of_possible holds (fun state event inv _ => keeps state event inv)
    (fun state event inv _ => needs state event inv) events base run

/-- A list of events that can be carried out one after the other leads to a state of a run. -/
theorem Reaches.foldl (run : Reaches step allowed start state) (events : List E)
    (ok : AllAllowed step allowed state events) : Reaches step allowed start (events.foldl step state) := by
  induction events generalizing state with
  | nil => exact run
  | cons event rest ih => exact ih (run.next event ok.1) ok.2

end Rules

section Lockstep

variable {T R : Type}

/-- Calls one after the other, with the result of each; a call that fails ends the run. -/
def answers (call : S → E → Option (S × R)) : S → List E → Option (S × List R)
  | state, [] => some (state, [])
  | state, event :: rest => do
    let (state, result) ← call state event
    let (state, results) ← answers call state rest
    some (state, result :: results)

/-- Calls that fail together, and otherwise give the same results and keep the states related, do so in every run. -/
theorem answers_rel {related : S → T → Prop} {call : S → E → Option (S × R)} {other : T → E → Option (T × R)}
    (step : ∀ state state' event, related state state' →
      Option.Rel (fun one two => related one.1 two.1 ∧ one.2 = two.2) (call state event) (other state' event))
    (events : List E) {state : S} {state' : T} (start : related state state') :
    Option.Rel (fun one two => related one.1 two.1 ∧ one.2 = two.2) (answers call state events)
      (answers other state' events) := by
  induction events generalizing state state' with
  | nil => exact .some ⟨start, rfl⟩
  | cons event rest ih =>
    have first := step state state' event start
    unfold answers
    generalize call state event = one at first
    generalize other state' event = two at first
    cases first with
    | none => exact .none
    | @some one two both =>
      obtain ⟨next, result⟩ := one
      obtain ⟨next', result'⟩ := two
      obtain ⟨kept, rfl⟩ := both
      have later := ih kept
      change Option.Rel _ ((answers call next rest).bind _) ((answers other next' rest).bind _)
      generalize answers call next rest = one at later
      generalize answers other next' rest = two at later
      cases later with
      | none => exact .none
      | some both => exact .some ⟨both.1, congrArg (result :: ·) both.2⟩

end Lockstep

end Runs
