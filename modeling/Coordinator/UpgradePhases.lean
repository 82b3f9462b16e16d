import Coordinator.UpgradeHistory

/-! The phases of an upgrade run in order and at most once. An execution meets a journal in which all
earlier phases have succeeded with their evidence, and an upgrade is complete when all eight have. -/

namespace Coordinator.Upgrade
open Kit

/-- The record says that its phase succeeded, with all the evidence that the phase requires. -/
def Record.Proven (record : Record) : Prop :=
  record.outcome = .success ∧ ∃ phase result, record.phase = .phase phase ∧ record.result = some result ∧
    ∀ field ∈ requiredEvidence phase, isTrue (result.get field) = true

/-- The records are those of these phases, each of which has succeeded. -/
def Succeeded (known : List Phase) (records : List Record) : Prop :=
  records.map Record.phase = known.map Step.phase ∧ ∀ record ∈ records, record.Proven

namespace Engine

variable (engine : Engine)

/-- The effects so far allow the execution of a phase: the journal has opened it after the success of all
earlier ones, it was not executed before, and no journal has told of a failure, a doubt or a rollback. -/
structure Cleared (history : List Effect) (phase : Phase) : Prop where
  opened : ∃ value earlier, disk history = some value ∧ value.records = earlier ++ [engine.startedRecord phase] ∧
    Succeeded (phases.takeWhile (· ≠ phase)) earlier
  fresh : .execute (.phase phase) ∉ history
  clean : ∀ value, .write value ∈ history → ∀ record ∈ value.records, record.Clean

/-- What the order of the phases asks of an effect after the others. -/
def Ordered (history : List Effect) : Effect → Prop
  | .execute (.phase phase) => engine.Cleared history phase
  | .execute .rollback => True
  | .write value => value.status = .completed → Succeeded phases value.records

theorem earlier_phases {index : Nat} {phase : Phase} (current : phases[index]? = some phase) :
    phases.takeWhile (· ≠ phase) = phases.take index := by
  have same : index = phases.idxOf phase := index_unique current (by cases phase <;> rfl)
  subst same
  cases phase <;> rfl

variable {engine}

theorem evidence_of_checkResult {phase : Phase} {result : Dict} (admitted : engine.checkResult phase result = .ok ()) :
    ∀ field ∈ requiredEvidence phase, isTrue (result.get field) = true := by
  simp only [checkResult, raiseIf_bind_ok, Bool.or_eq_false_iff, List.any_eq_false] at admitted
  intro field member
  simpa using admitted.1.1.1 field member

theorem succeeded_successes {p : Progress} (valid : engine.Valid p) : Succeeded (phases.take p.done.length) (engine.successes p.done) := by
  refine ⟨map_phase_successes p.done, fun record member => ?_⟩
  obtain ⟨index, inside, same⟩ := List.mem_iff_getElem.mp member
  simp only [successes, List.length_zipWith, List.getElem_zipWith] at inside same
  subst same
  have admitted := valid.evident index phases[index] p.done[index] (List.getElem?_eq_getElem _) (List.getElem?_eq_getElem _)
  exact ⟨rfl, _, _, rfl, rfl, evidence_of_checkResult admitted⟩

theorem cleared_of_opens {Good : Progress → Prop} {p : Progress} {history : List Effect} {phase : Phase}
    (holds : engine.Holds Good p history) (opens : p.Opens phase) (fresh : .execute (.phase phase) ∉ history) :
    engine.Cleared history phase where
  opened := by
    refine ⟨engine.journal p, engine.successes p.done, holds.stored, ?_, ?_⟩
    · simp [journal, opens.1, opens.2.1, reversalRecords, openedRecords, opens.2.2, openedRecord]
    · rw [earlier_phases opens.2.2]
      exact succeeded_successes holds.valid
  fresh := fresh
  clean := holds.clean ⟨opens.2.1, .inr opens.1⟩

theorem succeeded_of_completed {p : Progress} (valid : engine.Valid p) (completed : p.status = .completed) :
    Succeeded phases (engine.journal p).records := by
  obtain ⟨all, idle, forth⟩ := valid.finished (Progress.finished_of_forward (Progress.forward_of_completed completed))
  have succeeded := succeeded_successes valid
  rw [all, List.take_length] at succeeded
  simpa [journal, idle, forth, reversalRecords, openedRecords_none] using succeeded

theorem ordered_of_lawful {Good : Progress → Prop} {history : List Effect} {effect : Effect}
    (lawful : engine.Lawful Good history effect) : engine.Ordered history effect := by
  cases effect with
  | write value =>
    intro completed
    rcases lawful with ⟨_, rfl⟩ | ⟨p, after, holds, moves, _, rfl⟩
    · cases completed
    · exact succeeded_of_completed (holds.valid.move moves) completed
  | execute step =>
    cases step with
    | phase phase =>
      obtain ⟨p, holds, opens, fresh⟩ := lawful
      exact cleared_of_opens holds opens fresh
    | rollback => trivial

end Engine

/-- In every run of calls, with any adapters and handlers and with crashes anywhere, the phases are
executed in order and at most once, and only eight successes complete the upgrade. -/
theorem phases_in_order (engine : Engine) (events : List Event) :
    Run.Along snoc engine.Ordered [] (engine.history events) := by
  have endorsed : Run.Along engine.act (engine.Endorsed fun _ => True) [] events := by
    have any : Run.Along engine.act (fun _ _ => True) [] events := Run.along_of_forall engine.act fun _ _ => trivial
    refine Run.along_mono engine.act (fun _ _ _ _ _ _ _ => ?_) any
    exact ⟨fun _ _ => trivial, fun _ _ _ _ => trivial, fun _ _ _ _ _ => trivial, fun _ _ _ => trivial⟩
  exact Run.along_mono snoc (fun _ _ => Engine.ordered_of_lawful) (Engine.lawful_history (fun _ _ => trivial) events endorsed).1

end Coordinator.Upgrade
