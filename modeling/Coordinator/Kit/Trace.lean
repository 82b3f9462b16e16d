import Coordinator.Kit.Run

/-! Computations that leave effects behind. What a computation has done stays done when it fails,
so that a crash leaves a prefix of its effects, and the rules speak about every such prefix. -/

namespace Coordinator.Kit

structure Trace (Effect ε α : Type) where
  effects : List Effect
  outcome : Except ε α

namespace Trace

variable {Effect ε α β : Type}

def bind (first : Trace Effect ε α) (rest : α → Trace Effect ε β) : Trace Effect ε β :=
  match first.outcome with
  | .ok value => ⟨first.effects ++ (rest value).effects, (rest value).outcome⟩
  | .error fault => ⟨first.effects, .error fault⟩

instance : Monad (Trace Effect ε) where
  pure value := ⟨[], .ok value⟩
  bind := bind

def emit (effect : Effect) : Trace Effect ε Unit := ⟨[effect], .ok ()⟩

/-- A computation without effects. -/
def lift (x : Except ε α) : Trace Effect ε α := ⟨[], x⟩

def fail (fault : ε) : Trace Effect ε α := lift (.error fault)

/-- Run a computation to its outcome, which the caller handles. -/
def attempt (t : Trace Effect ε α) : Trace Effect ε (Except ε α) := ⟨t.effects, .ok t.outcome⟩

theorem emit_bind (effect : Effect) (rest : Unit → Trace Effect ε β) :
    (emit effect >>= rest) = ⟨effect :: (rest ()).effects, (rest ()).outcome⟩ := rfl

theorem lift_ok_bind (value : α) (rest : α → Trace Effect ε β) : (lift (.ok value) >>= rest) = rest value := rfl

theorem lift_error_bind (fault : ε) (rest : α → Trace Effect ε β) : (lift (.error fault) >>= rest) = fail fault := rfl

theorem attempt_bind (t : Trace Effect ε α) (rest : Except ε α → Trace Effect ε β) :
    (attempt t >>= rest) = ⟨t.effects ++ (rest t.outcome).effects, (rest t.outcome).outcome⟩ := rfl

section rules

variable {State : Type} (step : State → Effect → State) (Allowed : State → Effect → Prop)

/-- Each effect is allowed in the state that it meets, and the outcome and the state that the
computation leaves satisfy the postcondition. -/
def Meets (state : State) (t : Trace Effect ε α) (post : Except ε α → State → Prop) : Prop :=
  Run.Along step Allowed state t.effects ∧ post t.outcome (Run.final step state t.effects)

namespace Meets

variable {step Allowed} {state : State} {post : Except ε α → State → Prop}

theorem pure {value : α} (holds : post (.ok value) state) : Meets step Allowed state (Pure.pure value) post :=
  ⟨trivial, holds⟩

theorem fail {fault : ε} (holds : post (.error fault) state) : Meets step Allowed state (Trace.fail fault) post :=
  ⟨trivial, holds⟩

/-- The first part ends in a state from which the rest of the computation is judged. -/
theorem bind {first : Trace Effect ε β} {rest : β → Trace Effect ε α} (mid : Except ε β → State → Prop)
    (meets : Meets step Allowed state first mid)
    (failed : ∀ fault after, mid (.error fault) after → post (.error fault) after)
    (continued : ∀ value after, mid (.ok value) after → Meets step Allowed after (rest value) post) :
    Meets step Allowed state (first >>= rest) post := by
  obtain ⟨effects, outcome⟩ := first
  obtain ⟨along, ends⟩ := meets
  cases outcome with
  | error fault => exact ⟨along, failed fault _ ends⟩
  | ok value =>
    obtain ⟨later, last⟩ := continued value _ ends
    have joined : (⟨effects, .ok value⟩ >>= rest : Trace Effect ε α) =
      ⟨effects ++ (rest value).effects, (rest value).outcome⟩ := rfl
    rw [joined]
    refine ⟨(Run.along_append step effects _ state).mpr ⟨along, later⟩, ?_⟩
    rw [Run.final_append]
    exact last

theorem emit_bind {effect : Effect} {rest : Unit → Trace Effect ε α} (allowed : Allowed state effect)
    (meets : Meets step Allowed (step state effect) (rest ()) post) :
    Meets step Allowed state (emit effect >>= rest) post := by
  rw [Trace.emit_bind]
  exact ⟨⟨allowed, meets.1⟩, meets.2⟩

theorem lift_bind {x : Except ε β} {rest : β → Trace Effect ε α} (failed : ∀ fault, x = .error fault → post (.error fault) state)
    (continued : ∀ value, x = .ok value → Meets step Allowed state (rest value) post) :
    Meets step Allowed state (lift x >>= rest) post := by
  cases x with
  | error fault => exact fail (failed fault rfl)
  | ok value => exact continued value rfl

theorem attempt_bind {t : Trace Effect ε β} {rest : Except ε β → Trace Effect ε α} (mid : Except ε β → State → Prop)
    (meets : Meets step Allowed state t mid)
    (continued : ∀ outcome after, mid outcome after → Meets step Allowed after (rest outcome) post) :
    Meets step Allowed state (attempt t >>= rest) post := by
  obtain ⟨later, last⟩ := continued _ _ meets.2
  rw [Trace.attempt_bind]
  refine ⟨(Run.along_append step _ _ state).mpr ⟨meets.1, later⟩, ?_⟩
  rw [Run.final_append]
  exact last

theorem ite {condition : Prop} [Decidable condition] {left right : Trace Effect ε α}
    (holds : condition → Meets step Allowed state left post) (fails : ¬condition → Meets step Allowed state right post) :
    Meets step Allowed state (if condition then left else right) post := by
  by_cases known : condition
  · rw [if_pos known]
    exact holds known
  · rw [if_neg known]
    exact fails known

/-- A crash leaves the first effects of the computation, and they are allowed as well. -/
theorem cut {t : Trace Effect ε α} (meets : Meets step Allowed state t post) (count : Nat) :
    Run.Along step Allowed state (t.effects.take count) := by
  have along := meets.1
  rw [← List.take_append_drop count t.effects] at along
  exact ((Run.along_append step _ _ state).mp along).1

end Meets

end rules

end Trace

end Coordinator.Kit
