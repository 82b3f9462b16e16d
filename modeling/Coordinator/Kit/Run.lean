import Mathlib.Tactic.Common

/-! Runs of a step function over a list of events, the states they pass through, and the
induction that carries an invariant from the first state to all of them. -/

namespace Coordinator.Kit.Run

variable {State Event : Type} (step : State → Event → State)

def final (start : State) (events : List Event) : State := events.foldl step start

/-- Every event of the run is allowed in the state it meets. -/
def Along (Allowed : State → Event → Prop) : State → List Event → Prop
  | _, [] => True
  | state, event :: rest => Allowed state event ∧ Along Allowed (step state event) rest

/-- A property of the steps holds of each step that the run takes. -/
def Steps (Property : State → Event → State → Prop) (start : State) (events : List Event) : Prop :=
  Along step (fun state event => Property state event (step state event)) start events

theorem final_append (start : State) (first second : List Event) :
    final step start (first ++ second) = final step (final step start first) second := by
  simp [final]

theorem final_nil (start : State) : final step start [] = start := rfl

theorem final_cons (start : State) (event : Event) (rest : List Event) :
    final step start (event :: rest) = final step (step start event) rest := rfl

theorem final_snoc (start : State) (events : List Event) (event : Event) :
    final step start (events ++ [event]) = step (final step start events) event := by
  simp [final]

/-- An invariant kept by each allowed step holds at the end of a run of allowed steps. -/
theorem invariant {Invariant : State → Prop} {Allowed : State → Event → Prop}
    (keeps : ∀ state event, Invariant state → Allowed state event → Invariant (step state event)) :
    ∀ (events : List Event) (start : State), Invariant start → Along step Allowed start events →
      Invariant (final step start events) := by
  intro events
  induction events with
  | nil =>
    intro start holds _
    exact holds
  | cons event rest ih =>
    intro start holds along
    exact ih (step start event) (keeps start event holds along.1) along.2

/-- An invariant that every step keeps holds at the end of every run. -/
theorem invariant_always {Invariant : State → Prop}
    (keeps : ∀ state event, Invariant state → Invariant (step state event)) (events : List Event) {start : State}
    (holds : Invariant start) : Invariant (final step start events) := by
  induction events generalizing start with
  | nil => exact holds
  | cons event rest ih => exact ih (keeps start event holds)

/-- A property that every allowed step has under the invariant is one of all steps of the run. -/
theorem steps_of_invariant {Invariant : State → Prop} {Allowed : State → Event → Prop}
    {Property : State → Event → State → Prop}
    (keeps : ∀ state event, Invariant state → Allowed state event → Invariant (step state event))
    (holds : ∀ state event, Invariant state → Allowed state event → Property state event (step state event)) :
    ∀ (events : List Event) (start : State), Invariant start → Along step Allowed start events →
      Steps step Property start events := by
  intro events
  induction events with
  | nil =>
    intro start _ _
    exact trivial
  | cons event rest ih =>
    intro start valid along
    exact ⟨holds start event valid along.1, ih (step start event) (keeps start event valid along.1) along.2⟩

/-- What every event satisfies is satisfied along the run. -/
theorem along_of_forall {Allowed : Event → Prop} : ∀ {events : List Event} {start : State},
    (∀ event ∈ events, Allowed event) → Along step (fun _ event => Allowed event) start events := by
  intro events
  induction events with
  | nil =>
    intro _ _
    exact trivial
  | cons event rest ih =>
    intro start all
    exact ⟨all event (by simp), ih fun other member => all other (by simp [member])⟩

theorem along_mono {Allowed Other : State → Event → Prop} (weaker : ∀ state event, Allowed state event → Other state event) :
    ∀ {events : List Event} {start : State}, Along step Allowed start events → Along step Other start events := by
  intro events
  induction events with
  | nil =>
    intro _ _
    exact trivial
  | cons event rest ih =>
    intro start along
    exact ⟨weaker start event along.1, ih along.2⟩

theorem along_append {Allowed : State → Event → Prop} (first second : List Event) :
    ∀ start : State, Along step Allowed start (first ++ second) ↔
      Along step Allowed start first ∧ Along step Allowed (final step start first) second := by
  induction first with
  | nil => simp [Along, final]
  | cons event rest ih =>
    intro start
    simp only [List.cons_append, Along, ih, final_cons]
    exact and_assoc.symm

end Coordinator.Kit.Run
