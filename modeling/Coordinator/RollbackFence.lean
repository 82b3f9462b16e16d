import Coordinator.RollbackRecords
import Coordinator.Kit.Run
import Mathlib.Logic.Function.Basic

/-! Processes that roll back over one journal. The check of a checkpoint and the start of its restore
are two sections under the lock, and a process may die in or between any of them. -/

namespace Coordinator.RollbackRecords
open Kit

inductive Phase
  | idle
  | checked (target : Target)
  | started (target : Target) (record : Record)
  deriving DecidableEq

/-- How an operation that has started can end. -/
inductive Ending
  | completed
  | ambiguous

def Ending.status : Ending → Status
  | .completed => .rollbackCompleted
  | .ambiguous => .ambiguous

inductive Event
  | check (pid : Nat) (checkpoint : CheckpointRef) (currentCommit : String) (reconcile : Bool)
  | plan (pid : Nat) (at_ : String) (fresh : Operation)
  | start (pid : Nat) (at_ : String) (fresh : Operation)
  | close (pid : Nat) (ending : Ending) (rollbackCommit at_ : String)
  | die (pid : Nat)

/-- The journal, with every record that was ever appended to it, and what each process has done. -/
@[ext] structure Processes where
  recorded : List Record
  journal : List Record
  phases : Nat → Phase

namespace Processes

def none_ : Processes := ⟨[], [], fun _ => .idle⟩

def enter (s : Processes) (pid : Nat) (phase : Phase) : Processes := { s with phases := Function.update s.phases pid phase }

def commit (s : Processes) (journal records : List Record) : Processes :=
  { s with recorded := s.recorded ++ records, journal := journal }

@[simp] theorem enter_journal (s : Processes) (pid : Nat) (phase : Phase) : (s.enter pid phase).journal = s.journal := rfl
@[simp] theorem enter_phase (s : Processes) (pid : Nat) (phase : Phase) : (s.enter pid phase).phases pid = phase :=
  Function.update_self ..
@[simp] theorem commit_journal (s : Processes) (journal records : List Record) : (s.commit journal records).journal = journal := rfl

/-- A process that dies after it has planned leaves its plan behind. -/
def plan (s : Processes) (target : Target) (at_ : String) (fresh : Operation) : Processes :=
  match planRollback s.journal target at_ fresh with
  | .ok (journal, planned) => s.commit journal [planned]
  | .error _ => s

def startFresh (s : Processes) (pid : Nat) (target : Target) (at_ : String) (fresh : Operation) : Processes :=
  match planRollback s.journal target at_ fresh with
  | .ok (journal, planned) =>
      match startPlanned journal target at_ planned with
      | .ok (journal, started) => (s.commit journal [planned, started]).enter pid (.started target started)
      | .error _ => (s.commit journal [planned]).enter pid .idle
  | .error _ => s.enter pid .idle

def startAgain (s : Processes) (pid : Nat) (target : Target) (at_ : String) (previous : Record) : Processes :=
  match startReconciled s.journal target at_ previous with
  | .ok (journal, started, _) => (s.commit journal [started]).enter pid (.started target started)
  | .error _ => s.enter pid .idle

def close (s : Processes) (pid : Nat) (target : Target) (started : Record) (ending : Ending) (rollbackCommit at_ : String) :
    Processes :=
  match closeRollback s.journal target started ending.status rollbackCommit at_ with
  | .ok (journal, record) => (s.commit journal [record]).enter pid .idle
  | .error _ => s.enter pid .idle

def step (s : Processes) : Event → Processes
  | .check pid checkpoint currentCommit reconcile =>
      match admitRollback s.journal checkpoint currentCommit reconcile with
      | .ok target => s.enter pid (.checked target)
      | .error _ => s.enter pid .idle
  | .plan pid at_ fresh =>
      match s.phases pid with
      | .checked target =>
          match target.resumed with
          | some _ => s.enter pid .idle
          | none => (s.plan target at_ fresh).enter pid .idle
      | _ => s
  | .start pid at_ fresh =>
      match s.phases pid with
      | .checked target =>
          match target.resumed with
          | some previous => s.startAgain pid target at_ previous
          | none => s.startFresh pid target at_ fresh
      | _ => s
  | .close pid ending rollbackCommit at_ =>
      match s.phases pid with
      | .started target started => s.close pid target started ending rollbackCommit at_
      | _ => s
  | .die pid => s.enter pid .idle

/-- Some rollback of the checkpoint has been recorded as completed. -/
def Completed (recorded : List Record) (checkpoint : String) : Prop :=
  ∃ record ∈ recorded, record.checkpoint = checkpoint ∧ record.status = .rollbackCompleted

/-- The last record of the checkpoint says that a rollback is going on or is ambiguous. -/
def Pending (recorded : List Record) (checkpoint : String) : Prop :=
  ∃ last, latestOf recorded checkpoint = some last ∧ last.status.pending = true

/-- A completed rollback is neither admitted nor started again, and one that is going on or is ambiguous
only by reconciling it. -/
def Fenced (s : Processes) : Event → Processes → Prop
  | .check pid checkpoint _ reconcile, next => ∀ target, next.phases pid = .checked target →
      ¬Completed s.recorded checkpoint.name ∧ (Pending s.recorded checkpoint.name → reconcile = true)
  | .start pid _ _, next => ∀ target started, s.phases pid = .checked target → next.phases pid = .started target started →
      ¬Completed s.recorded target.checkpoint.name ∧
      (Pending s.recorded target.checkpoint.name → ∃ previous, target.resumed = some previous)
  | _, _ => True

/-- Room for some records of a checkpoint, without pushing out the last record of another one, unless
that one is only planned. -/
def Room (s : Processes) (count : Nat) (checkpoint : String) : Prop :=
  Journal.Sheds Record.checkpoint maxRollbackRecords count checkpoint (fun last => last.status = .planned) s.journal

/-- The last record of the checkpoint is still the one that the check has found. -/
def Unchanged (s : Processes) (target : Target) : Prop := latestOf s.journal target.checkpoint.name = target.previous

/-- What a step may not meet: that the journal pushes out the last record of a checkpoint, that another
process has recorded a rollback of the checkpoint since it was checked, or has completed it meanwhile. -/
def Undisturbed (s : Processes) : Event → Prop
  | .plan pid _ _ => ∀ target, s.phases pid = .checked target → s.Unchanged target ∧ s.Room 1 target.checkpoint.name
  | .start pid _ _ => ∀ target, s.phases pid = .checked target →
      s.Unchanged target ∧ s.Room (if target.resumed.isSome then 1 else 2) target.checkpoint.name
  | .close pid ending _ _ => ∀ target started, s.phases pid = .started target started →
      (ending.status = .ambiguous → ∀ last, latestOf s.journal target.checkpoint.name = some last →
        last.status ≠ .rollbackCompleted) ∧ s.Room 1 target.checkpoint.name
  | .check .. | .die _ => True

/-- The records that a step appends, all of one checkpoint. -/
inductive Writes (s : Processes) : Event → Target → List Record → Prop
  | plan {pid : Nat} {at_ : String} {fresh : Operation} {target : Target} {planned : Record}
      (checked : s.phases pid = .checked target) (named : planned.checkpoint = target.checkpoint.name)
      (status : planned.status = .planned) : Writes s (.plan pid at_ fresh) target [planned]
  | fresh {pid : Nat} {at_ : String} {fresh : Operation} {target : Target} {planned started : Record}
      (checked : s.phases pid = .checked target) (unresumed : target.resumed = none)
      (named : planned.checkpoint = target.checkpoint.name ∧ planned.status = .planned)
      (going : started.checkpoint = target.checkpoint.name ∧ started.status = .restoreStarted) :
      Writes s (.start pid at_ fresh) target [planned, started]
  | again {pid : Nat} {at_ : String} {fresh : Operation} {target : Target} {previous started : Record}
      (checked : s.phases pid = .checked target) (resumed : target.resumed = some previous)
      (going : started.checkpoint = target.checkpoint.name ∧ started.status = .restoreStarted) :
      Writes s (.start pid at_ fresh) target [started]
  | close {pid : Nat} {ending : Ending} {rollbackCommit at_ : String} {target : Target} {started record : Record}
      (going : s.phases pid = .started target started) (named : record.checkpoint = target.checkpoint.name)
      (status : record.status = ending.status) : Writes s (.close pid ending rollbackCommit at_) target [record]

section steps

variable {s : Processes} {event : Event} {target : Target} {records : List Record}

/-- A step leaves the journal as it is, or appends its records to it. -/
inductive Leaves (s : Processes) (event : Event) (next : Processes) : Prop
  | same (recorded : next.recorded = s.recorded) (journal : next.journal = s.journal)
  | appended (target : Target) (records : List Record) (writes : Writes s event target records)
      (recorded : next.recorded = s.recorded ++ records)
      (journal : next.journal = Journal.retain maxRollbackRecords (s.journal ++ records))

theorem plan_leaves {pid : Nat} {at_ : String} {fresh : Operation} (checked : s.phases pid = .checked target) :
    Leaves s (.plan pid at_ fresh) ((s.plan target at_ fresh).enter pid .idle) := by
  unfold plan
  split
  · next journal planned planning =>
    obtain ⟨built, appended⟩ := planRollback_eq_ok.mp planning
    obtain ⟨-, -, rfl⟩ := appendRecord_eq_ok.mp appended
    obtain ⟨named, status⟩ := buildRecord_named built
    exact .appended target [planned] (.plan checked named status) rfl rfl
  · exact .same rfl rfl

theorem startFresh_leaves {pid : Nat} {at_ : String} {fresh : Operation} (checked : s.phases pid = .checked target)
    (unresumed : target.resumed = none) : Leaves s (.start pid at_ fresh) (s.startFresh pid target at_ fresh) := by
  unfold startFresh
  split
  · next journal planned planning =>
    obtain ⟨after, started, starting⟩ := startPlanned_of_planned planning
    obtain ⟨built, appended⟩ := planRollback_eq_ok.mp planning
    obtain ⟨rebuilt, followed⟩ := startPlanned_eq_ok.mp starting
    obtain ⟨-, -, rfl⟩ := appendRecord_eq_ok.mp appended
    obtain ⟨-, -, rfl⟩ := appendRecord_eq_ok.mp followed
    have twice : Journal.push maxRollbackRecords (Journal.push maxRollbackRecords s.journal planned) started =
        Journal.retain maxRollbackRecords (s.journal ++ [planned, started]) := by
      rw [Journal.push, Journal.push, Journal.retain_append, List.append_assoc, List.singleton_append]
    rw [starting]
    refine .appended target [planned, started]
      (.fresh checked unresumed (buildRecord_named built) (buildRecord_named rebuilt)) rfl ?_
    rw [enter_journal, commit_journal, twice]
  · exact .same rfl rfl

theorem startAgain_leaves {pid : Nat} {at_ : String} {fresh : Operation} {previous : Record}
    (checked : s.phases pid = .checked target) (resumed : target.resumed = some previous) :
    Leaves s (.start pid at_ fresh) (s.startAgain pid target at_ previous) := by
  unfold startAgain
  split
  · next journal started skip starting =>
    obtain ⟨-, built, appended⟩ := startReconciled_eq_ok.mp starting
    obtain ⟨-, -, rfl⟩ := appendRecord_eq_ok.mp appended
    exact .appended target [started] (.again checked resumed (buildRecord_named built)) rfl rfl
  · exact .same rfl rfl

theorem close_leaves {pid : Nat} {started : Record} {ending : Ending} {rollbackCommit at_ : String}
    (going : s.phases pid = .started target started) :
    Leaves s (.close pid ending rollbackCommit at_) (s.close pid target started ending rollbackCommit at_) := by
  unfold close
  split
  · next journal record closing =>
    obtain ⟨built, appended⟩ := closeRollback_eq_ok.mp closing
    obtain ⟨-, -, rfl⟩ := appendRecord_eq_ok.mp appended
    obtain ⟨named, status⟩ := buildRecord_named built
    exact .appended target [record] (.close going named status) rfl rfl
  · exact .same rfl rfl

theorem step_leaves (s : Processes) (event : Event) : Leaves s event (s.step event) := by
  cases event with
  | check pid checkpoint currentCommit reconcile =>
    unfold step
    dsimp only
    split <;> exact .same rfl rfl
  | plan pid at_ fresh =>
    unfold step
    dsimp only
    split
    · next target checked =>
      split
      · exact .same rfl rfl
      · exact plan_leaves checked
    · exact .same rfl rfl
  | start pid at_ fresh =>
    unfold step
    dsimp only
    split
    · next target checked =>
      split
      · next previous resumed => exact startAgain_leaves checked resumed
      · next unresumed => exact startFresh_leaves checked unresumed
    · exact .same rfl rfl
  | close pid ending rollbackCommit at_ =>
    unfold step
    dsimp only
    split
    · next target started going => exact close_leaves going
    · exact .same rfl rfl
  | die pid => exact .same rfl rfl

theorem enter_checked {pid other : Nat} {phase : Phase} (entered : (s.enter pid phase).phases other = .checked target) :
    s.phases other = .checked target ∨ phase = .checked target := by
  simp only [enter, Function.update_apply] at entered
  split at entered
  · exact .inr entered
  · exact .inl entered

/-- A process has checked what it had checked before, or what it is admitted to now. -/
theorem step_checked {pid : Nat} (entered : (s.step event).phases pid = .checked target) :
    s.phases pid = .checked target ∨
      ∃ checkpoint currentCommit reconcile, admitRollback s.journal checkpoint currentCommit reconcile = .ok target := by
  have idle (next : Processes) (same : next.phases = s.phases) {other : Nat} {phase : Phase}
      (entered : (next.enter other phase).phases pid = .checked target) (neither : phase ≠ .checked target) :
      s.phases pid = .checked target := by
    obtain before | now := enter_checked entered
    · exact same ▸ before
    · exact absurd now neither
  cases event with
  | check other checkpoint currentCommit reconcile =>
    unfold step at entered
    dsimp only at entered
    split at entered
    · next found admission =>
      obtain before | now := enter_checked entered
      · exact .inl before
      · cases now
        exact .inr ⟨checkpoint, currentCommit, reconcile, admission⟩
    · exact .inl (idle s rfl entered (by simp))
  | plan other at_ fresh =>
    unfold step at entered
    dsimp only at entered
    split at entered
    · next checked =>
      split at entered
      · exact .inl (idle s rfl entered (by simp))
      · unfold plan at entered
        split at entered
        · exact .inl (idle _ rfl entered (by simp))
        · exact .inl (idle s rfl entered (by simp))
    · exact .inl entered
  | start other at_ fresh =>
    unfold step at entered
    dsimp only at entered
    split at entered
    · next checked =>
      split at entered
      · unfold startAgain at entered
        split at entered
        · exact .inl (idle _ rfl entered (by simp))
        · exact .inl (idle s rfl entered (by simp))
      · unfold startFresh at entered
        split at entered
        · split at entered
          · exact .inl (idle _ rfl entered (by simp))
          · exact .inl (idle _ rfl entered (by simp))
        · exact .inl (idle s rfl entered (by simp))
    · exact .inl entered
  | close other ending rollbackCommit at_ =>
    unfold step at entered
    dsimp only at entered
    split at entered
    · unfold close at entered
      split at entered
      · exact .inl (idle _ rfl entered (by simp))
      · exact .inl (idle s rfl entered (by simp))
    · exact .inl entered
  | die other => exact .inl (idle s rfl entered (by simp))

end steps

section fence

variable {s next : Processes} {event : Event} {target : Target} {records : List Record} {checkpoint : String}

/-- What a last record says, unless it is a plan. -/
def outstanding (last : Option Record) : Option Status := (last.map Record.status).filter (· ≠ .planned)

theorem outstanding_eq_some {last : Option Record} {status : Status} :
    outstanding last = some status ↔ (∃ record, last = some record ∧ record.status = status) ∧ status ≠ .planned := by
  simp [outstanding, Option.filter_eq_some_iff]

theorem outstanding_planned {record : Record} (planned : record.status = .planned) : outstanding (some record) = none := by
  simp [outstanding, planned]

/-- The journal says of every checkpoint what was last recorded of it, a completed rollback is the
last word on its checkpoint, and what a process has found is open to it. -/
structure Guarded (s : Processes) : Prop where
  words : ∀ checkpoint, outstanding (latestOf s.journal checkpoint) = outstanding (latestOf s.recorded checkpoint)
  ends : ∀ checkpoint, Completed s.recorded checkpoint →
    outstanding (latestOf s.recorded checkpoint) = some .rollbackCompleted
  found : ∀ pid target, s.phases pid = .checked target → ∀ last, target.previous = some last →
    last.status ≠ .rollbackCompleted ∧ (last.status.pending = true → target.reconcile = true)

/-- Where the journal does not say that a rollback is completed, none has been. -/
theorem Guarded.not_completed (guarded : s.Guarded)
    (still : ∀ last, latestOf s.journal checkpoint = some last → last.status ≠ .rollbackCompleted) :
    ¬Completed s.recorded checkpoint := by
  intro completed
  have word := guarded.ends checkpoint completed
  rw [← guarded.words, outstanding_eq_some] at word
  obtain ⟨⟨last, found, status⟩, -⟩ := word
  exact still last found status

/-- A rollback that is going on or is ambiguous is one that the journal knows. -/
theorem Guarded.pending (guarded : s.Guarded) (pending : Pending s.recorded checkpoint) :
    ∃ last, latestOf s.journal checkpoint = some last ∧ last.status.pending = true := by
  obtain ⟨recorded, found, going⟩ := pending
  have unplanned : recorded.status ≠ .planned := fun planned => by simp [planned, Status.pending] at going
  have word : outstanding (latestOf s.recorded checkpoint) = some recorded.status :=
    outstanding_eq_some.mpr ⟨⟨recorded, found, rfl⟩, unplanned⟩
  rw [← guarded.words, outstanding_eq_some] at word
  obtain ⟨⟨last, kept, status⟩, -⟩ := word
  exact ⟨last, kept, status ▸ going⟩

/-- What a check has found unchanged may be started: no rollback of the checkpoint is completed, and one
that is going on or ambiguous is reconciled. -/
theorem Guarded.startable (guarded : s.Guarded) {pid : Nat} (checked : s.phases pid = .checked target)
    (unchanged : s.Unchanged target) : ¬Completed s.recorded target.checkpoint.name ∧
      (Pending s.recorded target.checkpoint.name → ∃ previous, target.resumed = some previous) := by
  have found := guarded.found pid target checked
  rw [← unchanged] at found
  refine ⟨guarded.not_completed fun last last_ => (found last last_).1, fun pending => ?_⟩
  obtain ⟨last, kept, going⟩ := guarded.pending pending
  exact ⟨last, by rw [Target.resumed, (found last kept).2 going, if_pos rfl, ← unchanged, kept]⟩

theorem Writes.named (writes : Writes s event target records) : ∀ record ∈ records, record.checkpoint = target.checkpoint.name := by
  cases writes with
  | plan checked named status => simpa using named
  | fresh checked unresumed named going => simpa using ⟨named.1, going.1⟩
  | again checked resumed going => simpa using going.1
  | close going named status => simpa using named

theorem Writes.ne_nil (writes : Writes s event target records) : records ≠ [] := by
  cases writes <;> exact List.cons_ne_nil _ _

theorem Writes.few (writes : Writes s event target records) : records.length ≤ 2 := by
  cases writes <;> simp

theorem Writes.room (writes : Writes s event target records) (undisturbed : s.Undisturbed event) :
    s.Room records.length target.checkpoint.name := by
  cases writes with
  | plan checked named status => exact (undisturbed target checked).2
  | fresh checked unresumed named going =>
    have room := (undisturbed target checked).2
    rwa [unresumed] at room
  | again checked resumed going =>
    have room := (undisturbed target checked).2
    rwa [resumed] at room
  | close going named status => exact (undisturbed target _ going).2

/-- A step either completes a rollback, or its checkpoint has no completed one. -/
theorem Writes.settled (writes : Writes s event target records) (guarded : s.Guarded) (undisturbed : s.Undisturbed event) :
    (∃ record, records = [record] ∧ record.status = .rollbackCompleted) ∨
      ¬Completed (s.recorded ++ records) target.checkpoint.name := by
  have open_ (none : ¬Completed s.recorded target.checkpoint.name) (others : ∀ record ∈ records, record.status ≠ .rollbackCompleted) :
      ¬Completed (s.recorded ++ records) target.checkpoint.name := by
    rintro ⟨record, member, named, status⟩
    obtain old | new := List.mem_append.mp member
    · exact none ⟨record, old, named, status⟩
    · exact others record new status
  cases writes with
  | plan checked named status =>
    refine .inr (open_ (guarded.startable checked (undisturbed target checked).1).1 ?_)
    simp [status]
  | fresh checked unresumed named going =>
    refine .inr (open_ (guarded.startable checked (undisturbed target checked).1).1 ?_)
    simp [named.2, going.2]
  | again checked resumed going =>
    refine .inr (open_ (guarded.startable checked (undisturbed target checked).1).1 ?_)
    simp [going.2]
  | @close _ ending _ _ _ _ _ going named status =>
    cases ending with
    | completed => exact .inl ⟨_, rfl, status⟩
    | ambiguous =>
      refine .inr (open_ (guarded.not_completed ((undisturbed target _ going).1 rfl)) ?_)
      simp [status, Ending.status]

/-- Appended records leave the journal in agreement with all that was recorded. -/
theorem words_append (guarded : s.Guarded) (writes : Writes s event target records) (undisturbed : s.Undisturbed event)
    (checkpoint : String) :
    outstanding (latestOf (Journal.retain maxRollbackRecords (s.journal ++ records)) checkpoint) =
      outstanding (latestOf (s.recorded ++ records) checkpoint) := by
  have both : outstanding (latestOf (s.journal ++ records) checkpoint) =
      outstanding (latestOf (s.recorded ++ records) checkpoint) := by
    have before := guarded.words checkpoint
    simp only [latestOf] at before ⊢
    rw [Journal.latest_append_or, Journal.latest_append_or]
    cases Journal.latest Record.checkpoint records checkpoint with
    | none => exact before
    | some last => rfl
  rw [← both]
  have few : records.length ≤ maxRollbackRecords := writes.few.trans (by decide)
  obtain kept | ⟨gone, last, found, planned⟩ :=
    Journal.latest_retain_append (writes.room undisturbed) few writes.named writes.ne_nil checkpoint
  · rw [latestOf, kept]
    rfl
  · rw [latestOf, latestOf, gone, found, outstanding_planned planned]
    rfl

/-- A completed rollback stays the last word on its checkpoint. -/
theorem ends_append (guarded : s.Guarded) (writes : Writes s event target records) (undisturbed : s.Undisturbed event)
    (completed : Completed (s.recorded ++ records) checkpoint) :
    outstanding (latestOf (s.recorded ++ records) checkpoint) = some .rollbackCompleted := by
  by_cases same : checkpoint = target.checkpoint.name
  · subst same
    obtain ⟨record, rfl, status⟩ | none := writes.settled guarded undisturbed
    · have named := writes.named record (by simp)
      rw [latestOf, Journal.latest_append, if_pos named]
      exact outstanding_eq_some.mpr ⟨⟨record, rfl, status⟩, by decide⟩
    · exact absurd completed none
  · have others : ∀ record ∈ records, record.checkpoint ≠ checkpoint := fun record member =>
      writes.named record member ▸ Ne.symm same
    obtain ⟨record, member, named, status⟩ := completed
    rw [latestOf, Journal.latest_append_others others]
    obtain old | new := List.mem_append.mp member
    · exact guarded.ends checkpoint ⟨record, old, named, status⟩
    · exact absurd named (others record new)

theorem guarded_step (guarded : s.Guarded) (undisturbed : s.Undisturbed event) : (s.step event).Guarded := by
  have found : ∀ pid target, (s.step event).phases pid = .checked target → ∀ last, target.previous = some last →
      last.status ≠ .rollbackCompleted ∧ (last.status.pending = true → target.reconcile = true) := by
    intro pid target checked
    obtain before | ⟨checkpoint, currentCommit, reconcile, admission⟩ := step_checked checked
    · exact guarded.found pid target before
    · obtain ⟨-, opens, rfl⟩ := admitRollback_eq_ok.mp admission
      exact opens
  obtain ⟨recorded, journal⟩ | ⟨target, records, writes, recorded, journal⟩ := step_leaves s event
  · exact { words := recorded ▸ journal ▸ guarded.words, ends := recorded ▸ guarded.ends, found }
  · refine ⟨fun checkpoint => ?_, fun checkpoint completed => ?_, found⟩
    · rw [recorded, journal]
      exact words_append guarded writes undisturbed checkpoint
    · rw [recorded] at completed ⊢
      exact ends_append guarded writes undisturbed completed

theorem fenced_step (guarded : s.Guarded) (undisturbed : s.Undisturbed event) : s.Fenced event (s.step event) := by
  cases event with
  | check pid checkpoint currentCommit reconcile =>
    intro target entered
    unfold step at entered
    dsimp only at entered
    split at entered
    · next admission =>
      obtain ⟨-, opens, -⟩ := admitRollback_eq_ok.mp admission
      refine ⟨guarded.not_completed fun last found => (opens last found).1, fun pending => ?_⟩
      obtain ⟨last, found, going⟩ := guarded.pending pending
      exact (opens last found).2 going
    · simp [enter] at entered
  | start pid at_ fresh => exact fun target _ checked _ => guarded.startable checked (undisturbed target checked).1
  | _ => exact trivial

/-- In every run whose steps are undisturbed, no rollback is admitted or started on a checkpoint that has
a completed one, and one that is going on or ambiguous is only reconciled. -/
theorem fenced_run (events : List Event) (undisturbed : Run.Along step Undisturbed none_ events) :
    Run.Steps step Fenced none_ events := by
  have begun : Guarded none_ :=
    { words := fun _ => rfl
      ends := by rintro checkpoint ⟨record, member, -⟩; cases member
      found := by intro pid target checked; cases checked }
  exact Run.steps_of_invariant step (fun _ _ guarded undisturbed => guarded_step guarded undisturbed)
    (fun _ _ guarded undisturbed => fenced_step guarded undisturbed) events none_ begun undisturbed

end fence

def sampleHead : String := "bbbbbbbbbbbbbbbbbbbbbbbbbbbbbbbbbbbbbbbb"

def sampleResult : String := "cccccccccccccccccccccccccccccccccccccccc"

def sampleTime : String := "2026-09-24T00:00:00+00:00"

def sampleOperation : Operation := ⟨"0f8fad5b-d9cb-469f-a165-70867728950e", by decide +kernel⟩

def laterOperation : Operation := ⟨"7c9e6679-7425-40de-944b-e07fc1f90ae7", by decide +kernel⟩

/-- A checkpoint of one task. -/
def sampleCheckpoint (revision : Nat) : CheckpointRef :=
  { name := "AR-0001-r" ++ Text.padded 4 revision, task := "AR-0001",
    sourceCommit := "aaaaaaaaaaaaaaaaaaaaaaaaaaaaaaaaaaaaaaaa" }

/-- A checkpoint is rolled back, and is then refused. -/
def sampleEvents : List Event :=
  [.check 0 (sampleCheckpoint 1) sampleHead false, .start 0 sampleTime sampleOperation,
    .close 0 .completed sampleResult sampleTime, .check 1 (sampleCheckpoint 1) sampleResult false]

/-- A short journal has room. -/
theorem room_of_short {s : Processes} {count : Nat} {checkpoint : String} (short : s.journal.length + count ≤ maxRollbackRecords) :
    s.Room count checkpoint := by
  intro last found
  rw [Nat.sub_eq_zero_of_le short] at found
  cases found

theorem fenced_run_once : Run.Steps step Fenced none_ sampleEvents := by
  refine fenced_run sampleEvents ⟨trivial, ?_, ?_, trivial, trivial⟩
  · intro target checked
    have found : (none_.step (.check 0 (sampleCheckpoint 1) sampleHead false)).phases 0 =
        .checked ⟨sampleCheckpoint 1, sampleHead, none, false⟩ := by decide +kernel
    rw [found, Phase.checked.injEq] at checked
    subst checked
    exact ⟨by unfold Unchanged; decide +kernel, room_of_short (by decide +kernel)⟩
  · intro target started going
    exact ⟨by simp [Ending.status], room_of_short (by decide +kernel)⟩

section rollbacks

variable {s : Processes} {checkpoint : CheckpointRef} (operation : Operation)

/-- One process checks a checkpoint and rolls it back. -/
def rollbackEvents (checkpoint : CheckpointRef) (operation : Operation) : List Event :=
  [.check 0 checkpoint sampleHead false, .start 0 sampleTime operation, .close 0 .completed sampleResult sampleTime]

def entry (checkpoint : CheckpointRef) (operation : Operation) (status : Status) (rollbackCommit : String) (revision : Int) :
    Record :=
  { operationId := operation, checkpoint := checkpoint.name, task := checkpoint.task, sourceCommit := checkpoint.sourceCommit,
    currentCommit := sampleHead, rollbackCommit, recordedAt := sampleTime, status, revision }

def freshTarget (checkpoint : CheckpointRef) : Target := ⟨checkpoint, sampleHead, none, false⟩

def rollbackEntries (checkpoint : CheckpointRef) (operation : Operation) : List Record :=
  [entry checkpoint operation .planned "" 1, entry checkpoint operation .restoreStarted "" 2,
    entry checkpoint operation .rollbackCompleted sampleResult 3]

theorem entry_built (recordable : Recordable checkpoint sampleHead) (status : Status) {rollbackCommit : String} {revision : Int}
    (result : rollbackCommit = "" ∨ RetryCircuit.isCommit rollbackCommit = true) (counted : 1 ≤ revision) :
    buildRecord checkpoint sampleHead sampleTime status operation rollbackCommit revision =
      .ok (entry checkpoint operation status rollbackCommit revision) :=
  buildRecord_eq_ok.mpr ⟨recordable, result, counted, rfl⟩

theorem entry_appended {journal : List Record} {record : Record} (loadable : Loadable journal)
    {checkpoint : CheckpointRef} {status : Status} {rollbackCommit : String} {revision : Int}
    (built : buildRecord checkpoint sampleHead sampleTime status operation rollbackCommit revision = .ok record) :
    appendRecord journal record = .ok (Journal.push maxRollbackRecords journal record) :=
  appendRecord_eq_ok.mpr ⟨(validateRecord_of_build built).mpr (by decide), loadable, rfl⟩

theorem step_check {pid : Nat} {currentCommit : String} {reconcile : Bool} {target : Target}
    (admission : admitRollback s.journal checkpoint currentCommit reconcile = .ok target) :
    s.step (.check pid checkpoint currentCommit reconcile) = s.enter pid (.checked target) := by
  rw [step, admission]

theorem step_startFresh {pid : Nat} {at_ : String} {target : Target} {journal after : List Record} {planned started : Record}
    (checked : s.phases pid = .checked target) (unresumed : target.resumed = none)
    (planning : planRollback s.journal target at_ operation = .ok (journal, planned))
    (starting : startPlanned journal target at_ planned = .ok (after, started)) :
    s.step (.start pid at_ operation) = (s.commit after [planned, started]).enter pid (.started target started) := by
  simp only [step, checked, unresumed, startFresh, planning, starting]

theorem step_close {pid : Nat} {ending : Ending} {rollbackCommit at_ : String} {target : Target}
    {before journal : List Record} {started record : Record} (going : s.phases pid = .started target started)
    (closing : closeRollback before target started ending.status rollbackCommit at_ = .ok (journal, record))
    (held : s.journal = before) :
    s.step (.close pid ending rollbackCommit at_) = (s.commit journal [record]).enter pid .idle := by
  simp only [step, going, close, held, closing]

theorem unknown_admitted (loadable : Loadable s.journal) (unknown : latestOf s.journal checkpoint.name = none) :
    admitRollback s.journal checkpoint sampleHead false = .ok (freshTarget checkpoint) :=
  admitRollback_eq_ok.mpr ⟨loadable, by simp [unknown], by rw [unknown, freshTarget]⟩

/-- A journal that has lost the record of a completed rollback admits it again. -/
theorem unknown_not_fenced (loadable : Loadable s.journal) (unknown : latestOf s.journal checkpoint.name = none)
    (completed : Completed s.recorded checkpoint.name) :
    ¬s.Fenced (.check 0 checkpoint sampleHead false) (s.step (.check 0 checkpoint sampleHead false)) := by
  intro fenced
  have entered : (s.step (.check 0 checkpoint sampleHead false)).phases 0 = .checked (freshTarget checkpoint) := by
    rw [step_check (unknown_admitted loadable unknown), enter_phase]
  exact (fenced (freshTarget checkpoint) entered).1 completed

/-- The rollback of a checkpoint that the journal does not know is recorded by three records. -/
theorem rollback_final (loadable : Loadable s.journal) (unknown : latestOf s.journal checkpoint.name = none)
    (recordable : Recordable checkpoint sampleHead) (idle : s.phases = fun _ => .idle) :
    Run.final step s (rollbackEvents checkpoint operation) =
      s.commit (Journal.retain maxRollbackRecords (s.journal ++ rollbackEntries checkpoint operation))
        (rollbackEntries checkpoint operation) := by
  have result : RetryCircuit.isCommit sampleResult = true := by decide +kernel
  have plan := entry_built operation recordable .planned (.inl rfl) (by decide : (1 : Int) ≤ 1)
  have start := entry_built operation recordable .restoreStarted (.inl rfl) (by decide : (1 : Int) ≤ 2)
  have complete := entry_built operation recordable .rollbackCompleted (.inr result) (by decide : (1 : Int) ≤ 3)
  have planned := entry_appended operation loadable plan
  have started := entry_appended operation (loadable_append planned) start
  have completed := entry_appended operation (loadable_append started) complete
  have admission := unknown_admitted loadable unknown
  have planning : planRollback s.journal (freshTarget checkpoint) sampleTime operation = .ok (_, _) :=
    planRollback_eq_ok.mpr ⟨plan, planned⟩
  have starting : startPlanned _ (freshTarget checkpoint) sampleTime (entry checkpoint operation .planned "" 1) = .ok (_, _) :=
    startPlanned_eq_ok.mpr ⟨start, started⟩
  have closing : closeRollback _ (freshTarget checkpoint) (entry checkpoint operation .restoreStarted "" 2)
      Ending.completed.status sampleResult sampleTime = .ok (_, _) := closeRollback_eq_ok.mpr ⟨complete, completed⟩
  have second : (s.enter 0 (.checked (freshTarget checkpoint))).step (.start 0 sampleTime operation) = _ :=
    step_startFresh operation (enter_phase ..) rfl planning starting
  rw [rollbackEvents, Run.final_cons, step_check admission, Run.final_cons, second, Run.final_cons,
    step_close (enter_phase ..) closing (by rw [enter_journal, commit_journal]), Run.final_nil]
  refine Processes.ext ?_ ?_ ?_
  · exact List.append_assoc _ _ _
  · simp only [enter_journal, commit_journal, Journal.push, Journal.retain_append, List.append_assoc,
      List.cons_append, List.nil_append, rollbackEntries]
  · change Function.update (Function.update (Function.update s.phases 0 _) 0 _) 0 Phase.idle = s.phases
    rw [Function.update_idem, Function.update_idem, idle, Function.update_eq_self_iff]

theorem rollback_loadable (loadable : Loadable s.journal) (recordable : Recordable checkpoint sampleHead) :
    Loadable (Journal.retain maxRollbackRecords (s.journal ++ rollbackEntries checkpoint operation)) := by
  have result : RetryCircuit.isCommit sampleResult = true := by decide +kernel
  have valid (status : Status) {rollbackCommit : String} {revision : Int}
      (result : rollbackCommit = "" ∨ RetryCircuit.isCommit rollbackCommit = true) (counted : 1 ≤ revision) :
      validateRecord (entry checkpoint operation status rollbackCommit revision) = .ok () :=
    (validateRecord_of_build (entry_built operation recordable status result counted)).mpr (by decide)
  refine ⟨fun item member => ?_, Journal.retain_length⟩
  obtain old | new := List.mem_append.mp ((List.drop_sublist _ _).subset member)
  · exact loadable.1 item old
  · simp only [rollbackEntries, List.mem_cons, List.not_mem_nil, or_false] at new
    obtain rfl | rfl | rfl := new
    · exact valid .planned (.inl rfl) (by decide)
    · exact valid .restoreStarted (.inl rfl) (by decide)
    · exact valid .rollbackCompleted (.inr result) (by decide)

/-- Checkpoints are rolled back one after the other, each by an operation of its own. -/
def rollbacks (operations : String → Operation) (checkpoints : List CheckpointRef) : List Event :=
  checkpoints.flatMap fun checkpoint => rollbackEvents checkpoint (operations checkpoint.name)

def entries (operations : String → Operation) (checkpoints : List CheckpointRef) : List Record :=
  checkpoints.flatMap fun checkpoint => rollbackEntries checkpoint (operations checkpoint.name)

theorem rollbacks_final (operations : String → Operation) {checkpoints : List CheckpointRef} (loadable : Loadable s.journal)
    (unknown : ∀ record ∈ s.journal, record.checkpoint ∉ checkpoints.map CheckpointRef.name)
    (distinct : (checkpoints.map CheckpointRef.name).Nodup)
    (recordable : ∀ checkpoint ∈ checkpoints, Recordable checkpoint sampleHead) (idle : s.phases = fun _ => .idle) :
    Loadable (Journal.retain maxRollbackRecords (s.journal ++ entries operations checkpoints)) ∧
      Run.final step s (rollbacks operations checkpoints) =
        s.commit (Journal.retain maxRollbackRecords (s.journal ++ entries operations checkpoints))
          (entries operations checkpoints) := by
  induction checkpoints generalizing s with
  | nil =>
    have all : Journal.retain maxRollbackRecords s.journal = s.journal := by
      rw [Journal.retain, Nat.sub_eq_zero_of_le loadable.2, List.drop_zero]
    rw [entries, List.flatMap_nil, List.append_nil, all, commit, List.append_nil]
    exact ⟨loadable, rfl⟩
  | cons checkpoint rest ih =>
    rw [List.map_cons, List.nodup_cons] at distinct
    rw [List.forall_mem_cons] at recordable
    have first : latestOf s.journal checkpoint.name = none := Journal.latest_eq_none.mpr fun record member same =>
      unknown record member (by simp [same])
    have others : ∀ record ∈ Journal.retain maxRollbackRecords (s.journal ++ rollbackEntries checkpoint (operations checkpoint.name)),
        record.checkpoint ∉ rest.map CheckpointRef.name := by
      intro record member
      obtain old | new := List.mem_append.mp ((List.drop_sublist _ _).subset member)
      · exact fun later => unknown record old (List.mem_cons_of_mem _ later)
      · have named : record.checkpoint = checkpoint.name := by
          simp only [rollbackEntries, List.mem_cons, List.not_mem_nil, or_false] at new
          obtain rfl | rfl | rfl := new <;> rfl
        rw [named]
        exact distinct.1
    obtain ⟨kept, final⟩ := ih (s := s.commit (Journal.retain maxRollbackRecords
      (s.journal ++ rollbackEntries checkpoint (operations checkpoint.name))) (rollbackEntries checkpoint (operations checkpoint.name)))
      (rollback_loadable _ loadable recordable.1) others distinct.2 recordable.2 idle
    rw [commit_journal, Journal.retain_append, List.append_assoc] at kept final
    refine ⟨kept, ?_⟩
    rw [rollbacks, List.flatMap_cons, Run.final_append, rollback_final _ loadable first recordable.1 idle]
    refine final.trans (Processes.ext ?_ rfl rfl)
    exact List.append_assoc _ _ _

end rollbacks

/-- Two processes check the checkpoint before either of them starts. -/
def racingEvents : List Event :=
  [.check 0 (sampleCheckpoint 1) sampleHead false, .check 1 (sampleCheckpoint 1) sampleHead false,
    .start 0 sampleTime sampleOperation, .close 0 .completed sampleResult sampleTime, .start 1 sampleTime laterOperation]

/-- The checkpoint and twenty-two later ones are rolled back. -/
def manyCheckpoints : List CheckpointRef := (List.range 23).map (fun n => sampleCheckpoint (n + 1))

theorem sampleCheckpoint_recordable {revision : Nat} (named : isCheckpoint ("AR-0001-r" ++ Text.padded 4 revision) = true) :
    Recordable (sampleCheckpoint revision) sampleHead :=
  { name := named
    task := (by decide +kernel : ExecutionEnvelope.isTask "AR-0001" = true)
    source := (by decide +kernel : RetryCircuit.isCommit "aaaaaaaaaaaaaaaaaaaaaaaaaaaaaaaaaaaaaaaa" = true)
    current := by decide +kernel }

/-- The operation of a checkpoint, numbered after it. -/
def numberedOperation (checkpoint : String) : Operation :=
  let text := "0f8fad5b-d9cb-469f-a165-70867728" ++ checkpoint.takeEnd 4
  if canonical : isUuid text = true then ⟨text, canonical⟩ else sampleOperation

theorem many_recordable : ∀ checkpoint ∈ manyCheckpoints, Recordable checkpoint sampleHead := by
  have named : ∀ n ∈ List.range 23, isCheckpoint ("AR-0001-r" ++ Text.padded 4 (n + 1)) = true := by decide +kernel
  intro checkpoint member
  obtain ⟨n, listed, rfl⟩ := List.mem_map.mp member
  exact sampleCheckpoint_recordable (named n listed)

/-- The journal keeps nothing of the first of the rollbacks. -/
theorem many_forgotten :
    latestOf (Journal.retain maxRollbackRecords (none_.journal ++ entries numberedOperation manyCheckpoints))
      (sampleCheckpoint 1).name = none := by
  decide +kernel

/-- A completed rollback is started again after a race, and admitted again once its record has been pushed out. -/
theorem completed_rollback_repeated :
    ¬Run.Steps step Fenced none_ racingEvents ∧
    ¬Run.Steps step Fenced none_
      (rollbacks numberedOperation manyCheckpoints ++ [.check 0 (sampleCheckpoint 1) sampleHead false]) := by
  constructor
  · rintro ⟨-, -, -, -, restarted, -⟩
    obtain ⟨open_, -⟩ := restarted (freshTarget (sampleCheckpoint 1))
      (entry (sampleCheckpoint 1) laterOperation .restoreStarted "" 2) (by decide +kernel) (by decide +kernel)
    exact open_ (by unfold Completed; decide +kernel)
  · rw [Run.Steps, Run.along_append]
    rintro ⟨-, admitted, -⟩
    have begun : Loadable none_.journal := ⟨List.forall_mem_nil _, by decide⟩
    obtain ⟨loadable, final⟩ := rollbacks_final (s := none_) numberedOperation begun
      (List.forall_mem_nil _) (by decide +kernel) many_recordable rfl
    rw [final] at admitted
    refine unknown_not_fenced loadable many_forgotten ?_ admitted
    refine ⟨entry (sampleCheckpoint 1) (numberedOperation (sampleCheckpoint 1).name) .rollbackCompleted sampleResult 3, ?_, rfl, rfl⟩
    exact List.mem_append_right _ (List.mem_flatMap.mpr ⟨sampleCheckpoint 1, List.mem_map.mpr ⟨0, by decide, rfl⟩,
      by simp [rollbackEntries]⟩)

end Processes

end Coordinator.RollbackRecords
