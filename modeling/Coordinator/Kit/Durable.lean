import Coordinator.Kit.Trace

/-! Programs over a durable store. Each commit leaves the store in a new state. A commit that raises
does not tell whether it took effect, and a process that dies leaves what its last commit left. -/

namespace Coordinator.Kit

/-- How a commit ends: it returns, or it raises, with or without effect. -/
inductive Fate
  | done
  | kept
  | lost
  deriving DecidableEq

namespace Durable

variable {σ ε α : Type}

/-- The effects of a program are the states that it leaves the store in. -/
def leaves (_ after : σ) : σ := after

/-- Commit a new state. The handler of a commit that raises goes on from what is durable then. -/
def commit (fate : Fate) (before after : σ) (raised : σ → Trace σ ε α) (next : Trace σ ε α) : Trace σ ε α :=
  match fate with
  | .done => Trace.emit after >>= fun _ => next
  | .kept => Trace.emit after >>= fun _ => raised after
  | .lost => raised before

/-- The commits that a program makes, where the process may die after some of them. -/
def made (died : Option Nat) (program : Trace σ ε α) : List σ :=
  match died with
  | none => program.effects
  | some count => program.effects.take count

/-- What a program leaves of a store. -/
def left (died : Option Nat) (before : σ) (program : Trace σ ε α) : σ := Run.final leaves before (made died program)

/-- Each commit of the program is allowed in the store that it meets. -/
abbrev Meets (Allowed : σ → σ → Prop) (before : σ) (program : Trace σ ε α) (post : Except ε α → σ → Prop) : Prop :=
  Trace.Meets leaves Allowed before program post

variable {Allowed : σ → σ → Prop} {before after : σ} {program : Trace σ ε α} {post : Except ε α → σ → Prop}

theorem Meets.commit {fate : Fate} {raised : σ → Trace σ ε α} {next : Trace σ ε α} (allowed : Allowed before after)
    (continued : Meets Allowed after next post) (kept : fate = .kept → Meets Allowed after (raised after) post)
    (lost : fate = .lost → Meets Allowed before (raised before) post) :
    Meets Allowed before (Durable.commit fate before after raised next) post := by
  cases fate with
  | done => exact Trace.Meets.emit_bind allowed continued
  | kept => exact Trace.Meets.emit_bind allowed (kept rfl)
  | lost => exact lost rfl

section writes

/-- Each commit of the program is allowed, whatever it returns. -/
abbrev Writes (Allowed : σ → σ → Prop) (before : σ) (program : Trace σ ε α) : Prop :=
  Meets Allowed before program (fun _ _ => True)

variable {β : Type} {rest : β → Trace σ ε α}

theorem Writes.fail (fault : ε) : Writes Allowed before (Trace.fail fault : Trace σ ε α) := Trace.Meets.fail trivial

theorem Writes.pure (value : α) : Writes Allowed before (Pure.pure value : Trace σ ε α) := Trace.Meets.pure trivial

theorem Writes.lift (x : Except ε α) : Writes Allowed before (Trace.lift x) := ⟨trivial, trivial⟩

theorem Writes.lift_bind {x : Except ε β} (continued : ∀ value, x = .ok value → Writes Allowed before (rest value)) :
    Writes Allowed before (Trace.lift x >>= rest) :=
  Trace.Meets.lift_bind (fun _ _ => trivial) continued

theorem Writes.map {first : Trace σ ε β} (f : β → α) (writes : Writes Allowed before first) :
    Writes Allowed before (f <$> first) :=
  Trace.Meets.bind _ writes (fun _ _ _ => trivial) fun value _ _ => Writes.pure (f value)

end writes

/-- Whether or not the process dies, its commits are allowed. -/
theorem along_of_meets (meets : Meets Allowed before program post) (died : Option Nat) :
    Run.Along leaves Allowed before (made died program) := by
  cases died with
  | none => exact meets.1
  | some count => exact Trace.Meets.cut meets count

/-- States that follow each other by commits, where further ones follow the last of them. -/
theorem chain_of_along {Follows : σ → σ → Prop} {states later : List σ} :
    ∀ {before : σ}, Run.Along leaves Follows before states → List.IsChain Follows (Run.final leaves before states :: later) →
      List.IsChain Follows (before :: (states ++ later)) := by
  induction states with
  | nil =>
    intro before _ chain
    exact chain
  | cons state rest ih =>
    intro before along chain
    exact .cons_cons along.1 (ih along.2 chain)

/-- What every commit keeps is kept by a program, whether or not its process dies. -/
theorem left_invariant {Invariant : σ → Prop} (keeps : ∀ before after, Invariant before → Allowed before after → Invariant after)
    (meets : Meets Allowed before program post) (holds : Invariant before) (died : Option Nat) :
    Invariant (left died before program) :=
  Run.invariant leaves keeps _ before holds (along_of_meets meets died)

/-- A program that dies before its first commit, or makes none, leaves the store alone. -/
theorem left_of_effects_nil (quiet : program.effects = []) (died : Option Nat) : left died before program = before := by
  cases died with
  | none => rw [left, made, quiet, Run.final_nil]
  | some count => rw [left, made, quiet, List.take_nil, Run.final_nil]

theorem left_fail (fault : ε) (died : Option Nat) : left died before (Trace.fail fault : Trace σ ε α) = before :=
  left_of_effects_nil rfl died

/-- Settling the chosen ones of the pending entries of a journal leaves the others pending. -/
theorem filter_settle {Entry : Type} (pending chosen : Entry → Bool) (settled : Entry → Entry)
    (final : ∀ entry, pending (settled entry) = false) (entries : List Entry) :
    (entries.map (fun entry => if pending entry && chosen entry then settled entry else entry)).filter pending =
      (entries.filter pending).filter (fun entry => !chosen entry) := by
  induction entries with
  | nil => rfl
  | cons entry rest ih =>
    cases waits : pending entry <;> cases picked : chosen entry <;>
      simp only [List.map_cons, List.filter_cons, waits, picked, final, Bool.and_true, Bool.and_false, Bool.not_true, Bool.not_false,
        Bool.false_eq_true, reduceIte, ih]

/-! Programs that return. -/

/-- The program returns a value and leaves the store in a state. -/
def Returns (before : σ) (program : Trace σ ε α) (value : α) (after : σ) : Prop :=
  program.outcome = .ok value ∧ left none before program = after

section returns

variable {β : Type} {value : α} {x : Except ε β} {rest : β → Trace σ ε α} {fate : Fate} {middle : σ}

@[simp] theorem returns_pure {result : α} : Returns before (pure result : Trace σ ε α) value after ↔ result = value ∧ before = after := by
  change (Except.ok result : Except ε α) = .ok value ∧ before = after ↔ _
  simp

@[simp] theorem returns_fail {fault : ε} : Returns before (Trace.fail fault : Trace σ ε α) value after ↔ False := by
  simp [Returns, Trace.fail, Trace.lift]

theorem returns_lift {y : Except ε α} : Returns before (Trace.lift y : Trace σ ε α) value after ↔ y = .ok value ∧ before = after :=
  Iff.rfl

@[simp] theorem returns_lift_bind : Returns before (Trace.lift x >>= rest) value after ↔
    ∃ read, x = .ok read ∧ Returns before (rest read) value after := by
  cases x with
  | error fault =>
    rw [Trace.lift_error_bind]
    simp
  | ok read =>
    rw [Trace.lift_ok_bind]
    simp

theorem returns_map {first : Trace σ ε β} {f : β → α} :
    Returns before (f <$> first) value after ↔ ∃ read, Returns before first read after ∧ f read = value := by
  obtain ⟨effects, outcome⟩ := first
  cases outcome with
  | error fault =>
    change (Except.error fault : Except ε α) = .ok value ∧ _ ↔ _
    simp [Returns]
  | ok read =>
    change (Except.ok (f read) : Except ε α) = .ok value ∧ Run.final leaves before (effects ++ []) = after ↔ _
    simp [Returns, left, made, and_comm]

/-- A program goes on only after a commit that did not raise, where no handler returns. -/
theorem returns_commit {raised : σ → Trace σ ε α} {next : Trace σ ε α}
    (never : ∀ durable value after, ¬ Returns durable (raised durable) value after) :
    Returns before (commit fate before middle raised next) value after ↔ fate = .done ∧ Returns middle next value after := by
  have quiet : ∀ durable, (raised durable).outcome ≠ .ok value := fun durable returned => never durable value _ ⟨returned, rfl⟩
  cases fate with
  | done => exact ⟨fun returned => ⟨rfl, returned⟩, fun both => both.2⟩
  | kept => exact ⟨fun returned => absurd returned.1 (quiet middle), fun both => absurd both.1 nofun⟩
  | lost => exact ⟨fun returned => absurd returned.1 (quiet before), fun both => absurd both.1 nofun⟩

end returns

/-! Programs that fail only before their first commit. -/

/-- The program returns after at most so many commits. -/
def Ends (bound : Nat) (program : Trace σ ε α) : Prop := (∃ value, program.outcome = .ok value) ∧ program.effects.length ≤ bound

/-- The program fails without a commit, or returns after at most two. -/
def Atomic (program : Trace σ ε α) : Prop := (∃ fault, program = Trace.fail fault) ∨ Ends 2 program

section atomic

variable {β : Type} {bound : Nat} {value : α} {raised : σ → Trace σ ε α} {next : Trace σ ε α}

theorem Ends.pure : Ends bound (Pure.pure value : Trace σ ε α) := ⟨⟨value, rfl⟩, Nat.zero_le _⟩

theorem Ends.commit {fate : Fate} (done : fate = .done) (ends : Ends bound next) :
    Ends (bound + 1) (Durable.commit fate before after raised next) := by
  subst done
  exact ⟨ends.1, Nat.succ_le_succ ends.2⟩

theorem Ends.mono {larger : Nat} (ends : Ends bound program) (within : bound ≤ larger) : Ends larger program :=
  ⟨ends.1, Nat.le_trans ends.2 within⟩

theorem Atomic.fail (fault : ε) : Atomic (Trace.fail fault : Trace σ ε α) := .inl ⟨fault, rfl⟩

theorem Atomic.lift (x : Except ε α) : Atomic (Trace.lift x : Trace σ ε α) := by
  cases x with
  | error fault => exact .inl ⟨fault, rfl⟩
  | ok value => exact .inr ⟨⟨value, rfl⟩, Nat.zero_le _⟩

theorem Atomic.lift_bind {x : Except ε β} {rest : β → Trace σ ε α} (continued : ∀ value, x = .ok value → Atomic (rest value)) :
    Atomic (Trace.lift x >>= rest) := by
  cases x with
  | error fault => exact .inl ⟨fault, rfl⟩
  | ok value => exact continued value rfl

theorem Atomic.map {first : Trace σ ε β} (f : β → α) (atomic : Atomic first) : Atomic (f <$> first) := by
  obtain ⟨fault, rfl⟩ | ⟨⟨value, returned⟩, within⟩ := atomic
  · exact .inl ⟨fault, rfl⟩
  · obtain ⟨effects, outcome⟩ := first
    cases returned
    refine .inr ⟨⟨f value, rfl⟩, ?_⟩
    change (effects ++ []).length ≤ 2
    rwa [List.append_nil]

/-- A program that returns with at most two commits leaves the store alone, or is cut at its first commit, or leaves
what it returns with. -/
theorem Atomic.left_cases (atomic : Atomic program) (writes : Writes Allowed before program) (died : Option Nat) :
    left died before program = before ∨ Allowed before (left died before program) ∧ died = some 1 ∨
      ∃ value, Returns before program value (left died before program) := by
  obtain ⟨fault, rfl⟩ | ⟨⟨value, returned⟩, within⟩ := atomic
  · exact .inl (left_fail fault died)
  · obtain ⟨effects, outcome⟩ := program
    match died, effects with
    | none, effects => exact .inr (.inr ⟨value, returned, rfl⟩)
    | some 0, effects => exact .inl rfl
    | some 1, [] => exact .inl rfl
    | some 1, first :: rest => exact .inr (.inl ⟨writes.1.1, rfl⟩)
    | some (count + 2), effects =>
      have whole : left (some (count + 2)) before ⟨effects, outcome⟩ = left none before ⟨effects, outcome⟩ := by
        rw [left, made, left, made, List.take_of_length_le (Nat.le_trans within (Nat.le_add_left 2 count))]
      exact .inr (.inr ⟨value, returned, whole.symm⟩)

end atomic

end Durable

end Coordinator.Kit
