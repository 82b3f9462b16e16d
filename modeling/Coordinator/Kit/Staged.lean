import Mathlib.Tactic.Common

/-! Approval in stages with a bounded history. The stages of a plan are passed in order; a rejection
or a reopening leaves a debt that only some stages clear. A state has a way out exactly when the
moves that are left suffice for its shortest one. -/

namespace Coordinator.Kit.Staged

/-- Number of stages, the stages that clear a debt, and the bounds of rejections and of moves. -/
structure Plan where
  stages : Nat
  clears : Nat → Bool
  maxRounds : Nat
  maxMoves : Nat

structure State where
  /-- Passed stages. -/
  done : Nat
  /-- The next stage is open. -/
  opened : Bool
  /-- A rejection or reopening awaits a stage that clears it. -/
  owing : Bool
  rounds : Nat
  moves : Nat

inductive Move
  | start
  | accept
  | reject
  | reopen (stage : Nat)

variable (plan : Plan)

/-- The state after one move, where the move is allowed. -/
def move (s : State) : Move → Option State
  | .start =>
      if s.opened = false ∧ s.done < plan.stages ∧ s.moves < plan.maxMoves then
        some { s with opened := true, moves := s.moves + 1 }
      else none
  | .accept =>
      if s.opened = true ∧ s.moves < plan.maxMoves then
        some { s with done := s.done + 1, opened := false, owing := s.owing && !plan.clears s.done, moves := s.moves + 1 }
      else none
  | .reject =>
      if s.opened = true ∧ s.rounds < plan.maxRounds ∧ s.moves < plan.maxMoves then
        some { s with owing := true, rounds := s.rounds + 1, moves := s.moves + 1 }
      else none
  | .reopen stage =>
      if s.opened = false ∧ stage < s.done ∧ s.rounds < plan.maxRounds ∧ s.moves < plan.maxMoves then
        some { done := stage, opened := true, owing := true, rounds := s.rounds + 1, moves := s.moves + 1 }
      else none

def run (s : State) (moves : List Move) : Option State := moves.foldlM (move plan) s

/-- The open stage is one of the plan's, and the bounds are kept. -/
structure WellFormed (s : State) : Prop where
  within : s.done + (if s.opened then 1 else 0) ≤ plan.stages
  bounded : s.moves ≤ plan.maxMoves

/-- Every stage is passed, none is open and nothing is owed. -/
def Admitted (s : State) : Prop := s.done = plan.stages ∧ s.opened = false ∧ s.owing = false

/-- Nothing is owed once every stage is passed. -/
def Cleared (s : State) : Prop := s.done = plan.stages → s.owing = false

/-- Moves that pass the rest of the stages. -/
def rest (s : State) : Nat := 2 * (plan.stages - s.done) - (if s.opened then 1 else 0)

/-- Some stage from here on clears a debt. -/
def ClearsFrom (done : Nat) : Prop := ∃ stage, done ≤ stage ∧ stage < plan.stages ∧ plan.clears stage = true

/-- The stages ahead clear what is owed, and the moves suffice for them. -/
def Forward (s : State) : Prop :=
  (s.owing = true → ClearsFrom plan s.done) ∧ s.moves + rest plan s ≤ plan.maxMoves

/-- A passed stage that clears can be reopened, and the moves suffice for it and all after it. -/
def Back (s : State) : Prop :=
  s.rounds < plan.maxRounds ∧ ∃ stage < s.done, plan.clears stage = true ∧
    s.moves + (if s.opened then 1 else 0) + 2 * (plan.stages - stage) ≤ plan.maxMoves

def Solvable (s : State) : Prop := Forward plan s ∨ Back plan s

variable {plan} {s next last : State}

theorem move_wellFormed {m : Move} (fits : WellFormed plan s) (moved : move plan s m = some next) :
    WellFormed plan next := by
  have within := fits.within
  cases m with
  | start =>
    simp only [move, Option.ite_none_right_eq_some, Option.some.injEq] at moved
    obtain ⟨⟨closed, ahead, room⟩, rfl⟩ := moved
    exact ⟨ahead, room⟩
  | accept =>
    simp only [move, Option.ite_none_right_eq_some, Option.some.injEq] at moved
    obtain ⟨⟨opened, room⟩, rfl⟩ := moved
    exact ⟨by simpa [opened] using within, room⟩
  | reject =>
    simp only [move, Option.ite_none_right_eq_some, Option.some.injEq] at moved
    obtain ⟨⟨-, -, room⟩, rfl⟩ := moved
    exact ⟨within, room⟩
  | reopen stage =>
    simp only [move, Option.ite_none_right_eq_some, Option.some.injEq] at moved
    obtain ⟨⟨closed, earlier, -, room⟩, rfl⟩ := moved
    refine ⟨?_, room⟩
    simp only [closed, Bool.false_eq_true, ↓reduceIte] at within ⊢
    omega

/-- A last stage that clears leaves nothing owed. -/
theorem move_cleared {m : Move} (fits : WellFormed plan s) (last : plan.clears (plan.stages - 1) = true)
    (moved : move plan s m = some next) : Cleared plan next := by
  have within := fits.within
  intro all
  cases m with
  | start =>
    simp only [move, Option.ite_none_right_eq_some, Option.some.injEq] at moved
    obtain ⟨⟨-, ahead, -⟩, rfl⟩ := moved
    exact absurd all (Nat.ne_of_lt ahead)
  | accept =>
    simp only [move, Option.ite_none_right_eq_some, Option.some.injEq] at moved
    obtain ⟨-, rfl⟩ := moved
    have here : s.done = plan.stages - 1 := by
      simp only at all
      omega
    simp [here, last]
  | reject =>
    simp only [move, Option.ite_none_right_eq_some, Option.some.injEq] at moved
    obtain ⟨⟨opened, -, -⟩, rfl⟩ := moved
    simp only [opened, ↓reduceIte] at within all
    omega
  | reopen stage =>
    simp only [move, Option.ite_none_right_eq_some, Option.some.injEq] at moved
    obtain ⟨⟨closed, earlier, -, -⟩, rfl⟩ := moved
    simp only [closed, Bool.false_eq_true, ↓reduceIte] at within all
    omega

/-- A state from which one move leads to a way out has one itself. -/
theorem solvable_of_move {m : Move} (fits : WellFormed plan s) (moved : move plan s m = some next)
    (solvable : Solvable plan next) : Solvable plan s := by
  have within := fits.within
  cases m with
  | start =>
    simp only [move, Option.ite_none_right_eq_some, Option.some.injEq] at moved
    obtain ⟨⟨closed, ahead, -⟩, rfl⟩ := moved
    obtain ⟨clears, fits⟩ | ⟨rounds, stage, earlier, clears, fits⟩ := solvable
    · refine .inl ⟨clears, ?_⟩
      simp only [rest, closed, Bool.false_eq_true, ↓reduceIte] at fits ⊢
      omega
    · refine .inr ⟨rounds, stage, earlier, clears, ?_⟩
      simp only [closed, Bool.false_eq_true, ↓reduceIte] at fits ⊢
      omega
  | accept =>
    simp only [move, Option.ite_none_right_eq_some, Option.some.injEq] at moved
    obtain ⟨⟨opened, -⟩, rfl⟩ := moved
    simp only [opened, ↓reduceIte] at within
    obtain ⟨clears, fits⟩ | ⟨rounds, stage, earlier, clears, fits⟩ := solvable
    · refine .inl ⟨fun owing => ?_, ?_⟩
      · by_cases here : plan.clears s.done = true
        · exact ⟨s.done, Nat.le_refl _, by omega, here⟩
        · obtain ⟨stage, later, inside, clear⟩ := clears (by simp [owing, here])
          exact ⟨stage, Nat.le_of_succ_le later, inside, clear⟩
      · simp only [rest, opened, Bool.false_eq_true, ↓reduceIte] at fits ⊢
        omega
    · simp only [Bool.false_eq_true, ↓reduceIte] at earlier fits
      obtain same | earlier := Nat.lt_succ_iff_lt_or_eq.mp earlier |>.symm
      · -- the stage just accepted clears, so it does before it is accepted
        subst same
        refine .inl ⟨fun _ => ⟨s.done, Nat.le_refl _, by omega, clears⟩, ?_⟩
        simp only [rest, opened, ↓reduceIte]
        omega
      · refine .inr ⟨rounds, stage, earlier, clears, ?_⟩
        simp only [opened, ↓reduceIte]
        omega
  | reject =>
    simp only [move, Option.ite_none_right_eq_some, Option.some.injEq] at moved
    obtain ⟨⟨opened, -, -⟩, rfl⟩ := moved
    obtain ⟨clears, fits⟩ | ⟨rounds, stage, earlier, clears, fits⟩ := solvable
    · refine .inl ⟨fun _ => clears rfl, ?_⟩
      simp only [rest] at fits ⊢
      omega
    · refine .inr ⟨Nat.lt_of_succ_lt rounds, stage, earlier, clears, ?_⟩
      simp only at fits
      omega
  | reopen target =>
    simp only [move, Option.ite_none_right_eq_some, Option.some.injEq] at moved
    obtain ⟨⟨closed, passed, free, -⟩, rfl⟩ := moved
    simp only [closed, Bool.false_eq_true, ↓reduceIte] at within
    obtain ⟨clears, fits⟩ | ⟨rounds, stage, earlier, clears, fits⟩ := solvable
    · obtain ⟨stage, later, inside, clear⟩ := clears rfl
      simp only [rest, ↓reduceIte] at fits
      by_cases ahead : s.done ≤ stage
      · refine .inl ⟨fun _ => ⟨stage, ahead, inside, clear⟩, ?_⟩
        simp only [rest, closed, Bool.false_eq_true, ↓reduceIte]
        omega
      · refine .inr ⟨free, stage, by omega, clear, ?_⟩
        simp only [closed, Bool.false_eq_true, ↓reduceIte]
        simp only at later
        omega
    · refine .inr ⟨free, stage, by simp only at earlier; omega, clears, ?_⟩
      simp only [closed, Bool.false_eq_true, ↓reduceIte] at fits ⊢
      omega

theorem run_cons (m : Move) (moves : List Move) :
    run plan s (m :: moves) = (move plan s m).bind (fun next => run plan next moves) := rfl

theorem admitted_forward (fits : WellFormed plan s) (admitted : Admitted plan s) : Forward plan s := by
  obtain ⟨all, closed, clear⟩ := admitted
  refine ⟨fun owing => by simp [clear] at owing, ?_⟩
  have bounded := fits.bounded
  simp only [rest, all, closed]
  omega

/-- Every state on the way to an admitted one is solvable. -/
theorem solvable_of_run {moves : List Move} (fits : WellFormed plan s) (ran : run plan s moves = some last)
    (admitted : Admitted plan last) : Solvable plan s := by
  induction moves generalizing s with
  | nil =>
    obtain rfl := Option.some.inj ran
    exact .inl (admitted_forward fits admitted)
  | cons m moves ih =>
    rw [run_cons] at ran
    obtain ⟨next, moved, ran⟩ := Option.bind_eq_some_iff.mp ran
    exact solvable_of_move fits moved (ih (move_wellFormed fits moved) ran)

theorem rest_pos (fits : WellFormed plan s) (opened : s.opened = true) : 1 ≤ rest plan s := by
  have within := fits.within
  simp only [rest, opened, ↓reduceIte] at within ⊢
  omega

theorem admitted_of_rest (fits : WellFormed plan s) (forward : Forward plan s) (none : rest plan s = 0) :
    Admitted plan s := by
  have closed : s.opened = false := Bool.not_eq_true _ ▸ fun opened => by
    have positive := rest_pos fits opened
    omega
  have all : s.done = plan.stages := by
    have within := fits.within
    simp only [rest, closed, Bool.false_eq_true, ↓reduceIte] at none within
    omega
  refine ⟨all, closed, Bool.not_eq_true _ ▸ fun owing => ?_⟩
  obtain ⟨stage, later, inside, -⟩ := forward.1 owing
  omega

/-- While stages remain, one move forward is allowed and leaves one move fewer. -/
theorem forward_move (fits : WellFormed plan s) (forward : Forward plan s) (some_ : rest plan s ≠ 0) :
    ∃ m next, move plan s m = some next ∧ Forward plan next ∧ rest plan next + 1 = rest plan s := by
  obtain ⟨clears, room⟩ := forward
  have within := fits.within
  cases opened : s.opened with
  | true =>
    have free : s.moves < plan.maxMoves := by omega
    refine ⟨.accept, _, if_pos ⟨opened, free⟩, ⟨fun owing => ?_, ?_⟩, ?_⟩
    · -- the stage that clears is not the accepted one, so it lies ahead
      simp only [Bool.and_eq_true, Bool.not_eq_true'] at owing
      obtain ⟨stage, later, inside, clear⟩ := clears owing.1
      refine ⟨stage, Nat.lt_of_le_of_ne later fun same => ?_, inside, clear⟩
      subst same
      cases clear.symm.trans owing.2
    · simp only [rest, opened, Bool.false_eq_true, ↓reduceIte] at room some_ ⊢
      omega
    · simp only [rest, opened, Bool.false_eq_true, ↓reduceIte] at room some_ ⊢
      omega
  | false =>
    simp only [rest, opened, Bool.false_eq_true, ↓reduceIte] at room some_ within
    refine ⟨.start, _, if_pos ⟨opened, by omega, by omega⟩, ⟨clears, ?_⟩, ?_⟩
    · simp only [rest, ↓reduceIte]
      omega
    · simp only [rest, opened, Bool.false_eq_true, ↓reduceIte]
      omega

/-- Going forward, the remaining stages are passed one by one. -/
theorem run_of_forward (left : Nat) (fits : WellFormed plan s) (forward : Forward plan s) (short : rest plan s ≤ left) :
    ∃ moves last, run plan s moves = some last ∧ Admitted plan last := by
  induction left generalizing s with
  | zero => exact ⟨[], s, rfl, admitted_of_rest fits forward (by omega)⟩
  | succ left ih =>
    by_cases none : rest plan s = 0
    · exact ⟨[], s, rfl, admitted_of_rest fits forward none⟩
    · obtain ⟨m, next, moved, onward, fewer⟩ := forward_move fits forward none
      obtain ⟨moves, last, ran, admitted⟩ := ih (move_wellFormed fits moved) onward (by omega)
      exact ⟨m :: moves, last, by rw [run_cons, moved]; exact ran, admitted⟩

/-- A closed state goes back to a stage that clears and forward from there. -/
theorem run_of_closed (fits : WellFormed plan s) (closed : s.opened = false) (back : Back plan s) :
    ∃ moves last, run plan s moves = some last ∧ Admitted plan last := by
  obtain ⟨rounds, stage, earlier, clears, room⟩ := back
  have within := fits.within
  simp only [closed, Bool.false_eq_true, ↓reduceIte] at room within
  have moved : move plan s (.reopen stage) =
      some { done := stage, opened := true, owing := true, rounds := s.rounds + 1, moves := s.moves + 1 } :=
    if_pos ⟨closed, earlier, rounds, by omega⟩
  have forward : Forward plan
      { done := stage, opened := true, owing := true, rounds := s.rounds + 1, moves := s.moves + 1 } := by
    refine ⟨fun _ => ⟨stage, Nat.le_refl _, by omega, clears⟩, ?_⟩
    simp only [rest, ↓reduceIte]
    omega
  obtain ⟨moves, last, ran, admitted⟩ := run_of_forward _ (move_wellFormed fits moved) forward (Nat.le_refl _)
  exact ⟨.reopen stage :: moves, last, by rw [run_cons, moved]; exact ran, admitted⟩

theorem run_of_back (fits : WellFormed plan s) (back : Back plan s) :
    ∃ moves last, run plan s moves = some last ∧ Admitted plan last := by
  cases opened : s.opened with
  | false => exact run_of_closed fits opened back
  | true =>
    -- the open stage has to be accepted before another one is reopened
    obtain ⟨rounds, stage, earlier, clears, room⟩ := back
    simp only [opened, ↓reduceIte] at room
    have moved : move plan s .accept = some
        { s with done := s.done + 1, opened := false, owing := s.owing && !plan.clears s.done, moves := s.moves + 1 } :=
      if_pos ⟨opened, by omega⟩
    obtain ⟨moves, last, ran, admitted⟩ := run_of_closed (move_wellFormed fits moved) rfl
      ⟨rounds, stage, Nat.lt_succ_of_lt earlier, clears, by simp only [Bool.false_eq_true, ↓reduceIte]; omega⟩
    exact ⟨.accept :: moves, last, by rw [run_cons, moved]; exact ran, admitted⟩

/-- A state leads to an admitted one exactly when it is solvable. -/
theorem solvable_iff (fits : WellFormed plan s) :
    (∃ moves last, run plan s moves = some last ∧ Admitted plan last) ↔ Solvable plan s := by
  constructor
  · rintro ⟨moves, last, ran, admitted⟩
    exact solvable_of_run fits ran admitted
  · rintro (forward | back)
    · exact run_of_forward _ fits forward (Nat.le_refl _)
    · exact run_of_back fits back

/-- Where nothing is owed, or a stage ahead clears it, only the moves decide. -/
theorem solvable_of_ahead (clears : s.owing = true → ClearsFrom plan s.done) (fits : WellFormed plan s) :
    Solvable plan s ↔ s.moves + rest plan s ≤ plan.maxMoves := by
  have within := fits.within
  constructor
  · rintro (forward | ⟨-, stage, earlier, -, room⟩)
    · exact forward.2
    · rw [rest]
      split at room <;> simp_all <;> omega
  · exact fun room => .inl ⟨clears, room⟩

/-- What is owed and not cleared by a stage ahead needs a reopening. -/
theorem solvable_of_behind (owing : s.owing = true) (behind : ¬ ClearsFrom plan s.done) :
    Solvable plan s ↔ Back plan s :=
  ⟨fun solvable => solvable.resolve_left (fun forward => behind (forward.1 owing)), .inr⟩

end Coordinator.Kit.Staged
