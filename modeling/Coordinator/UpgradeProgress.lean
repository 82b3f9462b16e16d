import Coordinator.UpgradeEngine

/-! How far an upgrade has come, as an automaton: phases that have succeeded, a phase that was opened
after them and a rollback. The journals that the engine writes are those of the automaton, and it
executes a phase only when the automaton has just opened it. -/

namespace Coordinator.Upgrade
open Kit

inductive Opened where
  | started
  | failed (error : String)
  | ambiguous (error : String)

inductive Reversal where
  | started
  | verified (result : Dict)
  | rejected (error : String)
  | ambiguous (error : String)
  | completed (result : Dict)

structure Progress where
  done : List Dict
  opened : Option Opened
  reversal : Option (PhaseContext × Reversal)
  finished : Bool

namespace Progress

variable (p : Progress)

/-- The number of phases that have a record. -/
def reached : Nat := p.done.length + if p.opened.isSome then 1 else 0

def forwardStatus : Status :=
  match p.opened with
  | some .started => .running
  | some (.failed _) => .failed
  | some (.ambiguous _) => .safeMode
  | none => if p.finished then .completed else if p.done.isEmpty then .planned else .running

def status : Status :=
  match p.reversal with
  | some (_, .rejected _) => .failed
  | some (_, .ambiguous _) => .safeMode
  | some (_, .completed _) => .rolledBack
  | _ => p.forwardStatus

def phase : Option Step :=
  match p.reversal with
  | some (_, .completed _) => some .rollback
  | _ => if p.reached = 0 then none else (phases[p.reached - 1]?).map Step.phase

theorem forward_of_completed {p : Progress} (completed : p.status = .completed) : p.forwardStatus = .completed := by
  unfold status at completed
  split at completed
  · cases completed
  · cases completed
  · cases completed
  · exact completed

theorem finished_of_forward {p : Progress} (completed : p.forwardStatus = .completed) : p.finished = true := by
  unfold forwardStatus at completed
  split at completed
  · cases completed
  · cases completed
  · cases completed
  · cases known : p.finished with
    | true => rfl
    | false =>
      rw [known, if_neg (by simp)] at completed
      split at completed <;> cases completed

/-- No phase has failed or is ambiguous, and no rollback has begun. -/
def Clean : Prop := p.reversal = none ∧ (p.opened = none ∨ p.opened = some .started)

end Progress

def Record.Clean (record : Record) : Prop :=
  record.phase ≠ .rollback ∧ (record.outcome = .started ∨ record.outcome = .success)

namespace Engine

variable (engine : Engine)

def successRecord (phase : Phase) (result : Dict) : Record :=
  { engine.startedRecord phase with outcome := .success, result := some result }

def openedRecord (phase : Phase) : Opened → Record
  | .started => engine.startedRecord phase
  | .failed error => { engine.startedRecord phase with outcome := .failed, error := some error }
  | .ambiguous error => { engine.startedRecord phase with outcome := .ambiguous, error := some error }

def reversalRecord (context : PhaseContext) : Reversal → Record
  | .started => engine.rollbackRecord context
  | .verified result => { engine.rollbackRecord context with outcome := .rollbackVerified, result := some result }
  | .rejected error => { engine.rollbackRecord context with outcome := .failed, error := some error }
  | .ambiguous error => { engine.rollbackRecord context with outcome := .ambiguous, error := some error }
  | .completed result => { engine.rollbackRecord context with outcome := .rollbackCompleted, result := some result }

def successes (done : List Dict) : List Record := List.zipWith engine.successRecord phases done

def openedRecords (done : List Dict) (opened : Option Opened) : List Record :=
  match phases[done.length]?, opened with
  | some phase, some opened => [engine.openedRecord phase opened]
  | _, _ => []

def reversalRecords : Option (PhaseContext × Reversal) → List Record
  | some (context, reversal) => [engine.reversalRecord context reversal]
  | none => []

/-- The journal of an upgrade that has come so far. -/
def journal (p : Progress) : Journal :=
  ⟨journalSchemaVersion, engine.operationId, p.status, p.phase, engine.context,
    engine.successes p.done ++ engine.openedRecords p.done p.opened ++ engine.reversalRecords p.reversal⟩

/-- What holds of an upgrade that the engine has led: there are phases for its records, each
success was admitted with its evidence, and a rollback has a context of this operation. -/
structure Valid (p : Progress) : Prop where
  room : p.reached ≤ phases.length
  evident : ∀ (index : Nat) (phase : Phase) (result : Dict), phases[index]? = some phase → p.done[index]? = some result →
    engine.checkResult phase result = .ok ()
  finished : p.finished = true → p.done.length = phases.length ∧ p.opened = none ∧ p.reversal = none
  begun : p.reversal.isSome = true → 0 < p.reached
  context : ∀ context reversal, p.reversal = some (context, reversal) → engine.rollbackContext context.asdict = .ok context

/-- One move of an upgrade. -/
inductive Moves : Progress → Progress → Prop where
  | opens {p : Progress} (idle : p.opened = none) (forward : p.reversal = none) (unfinished : p.finished = false)
      (left : p.done.length < phases.length) : Moves p { p with opened := some .started }
  | stops {p : Progress} (opened : Opened) (running : p.opened = some .started) (forward : p.reversal = none) :
      Moves p { p with opened := some opened }
  | succeeds {p : Progress} {phase : Phase} {result : Dict} (running : p.opened = some .started) (forward : p.reversal = none)
      (current : phases[p.done.length]? = some phase) (admitted : engine.checkResult phase result = .ok ()) :
      Moves p { p with done := p.done ++ [result], opened := none }
  | finishes {p : Progress} (idle : p.opened = none) (forward : p.reversal = none) (all : p.done.length = phases.length) :
      Moves p { p with finished := true }
  | reverts {p : Progress} {context : PhaseContext} (forward : p.reversal = none) (unfinished : p.finished = false)
      (begun : 0 < p.reached) (supplied : engine.rollbackContext context.asdict = .ok context) :
      Moves p { p with reversal := some (context, .started) }
  | settles {p : Progress} {context : PhaseContext} (reversal : Reversal)
      (reverting : p.reversal = some (context, .started)) : Moves p { p with reversal := some (context, reversal) }
  | releases {p : Progress} {context : PhaseContext} {result : Dict}
      (verified : p.reversal = some (context, .verified result)) :
      Moves p { p with reversal := some (context, .completed result) }

namespace Valid

variable {engine}

theorem start : engine.Valid ⟨[], none, none, false⟩ where
  room := by simp [Progress.reached]
  evident index phase result _ found := by simp at found
  finished flag := by simp at flag
  begun some_ := by simp at some_
  context context reversal some_ := by simp at some_

/-- The rollback of a valid upgrade comes to another stage. -/
theorem reverted {p : Progress} {context : PhaseContext} {before : Reversal} (valid : engine.Valid p)
    (reverting : p.reversal = some (context, before)) (reversal : Reversal) :
    engine.Valid { p with reversal := some (context, reversal) } := by
  refine ⟨valid.room, valid.evident, ?_, ?_, ?_⟩
  · intro flag
    have none_ := (valid.finished flag).2.2
    rw [reverting] at none_
    cases none_
  · exact fun _ => valid.begun (by rw [reverting]; rfl)
  · intro context known same
    cases same
    exact valid.context _ _ reverting

theorem move {p after : Progress} (valid : engine.Valid p) (moves : engine.Moves p after) : engine.Valid after := by
  cases moves with
  | opens idle forward unfinished left =>
    refine ⟨?_, valid.evident, ?_, ?_, valid.context⟩
    · simp only [Progress.reached, Option.isSome_some, if_true]
      exact left
    · intro flag
      rw [unfinished] at flag
      cases flag
    · intro some_
      simp [forward] at some_
  | stops opened running forward =>
    refine ⟨?_, valid.evident, ?_, ?_, valid.context⟩
    · have room := valid.room
      simpa [Progress.reached, running] using room
    · intro flag
      have idle := (valid.finished flag).2.1
      rw [running] at idle
      cases idle
    · intro some_
      simp [forward] at some_
  | succeeds running forward current admitted =>
    refine ⟨?_, ?_, ?_, ?_, valid.context⟩
    · have room := valid.room
      simp only [Progress.reached, running, Option.isSome_some, if_true] at room
      simpa [Progress.reached] using room
    · intro index known found at_ stored
      by_cases earlier : index < p.done.length
      · rw [List.getElem?_append_left earlier] at stored
        exact valid.evident index known found at_ stored
      · rw [List.getElem?_append_right (by omega)] at stored
        obtain ⟨here, same⟩ := List.getElem?_eq_some_iff.mp stored
        have last : index = p.done.length := by
          simp only [List.length_singleton] at here
          omega
        subst last
        simp only [Nat.sub_self, List.getElem_cons_zero] at same
        rw [current] at at_
        cases at_
        cases same
        exact admitted
    · intro flag
      have idle := (valid.finished flag).2.1
      rw [running] at idle
      cases idle
    · intro some_
      simp [forward] at some_
  | finishes idle forward all => exact ⟨valid.room, valid.evident, fun _ => ⟨all, idle, forward⟩, valid.begun, valid.context⟩
  | reverts forward unfinished begun supplied =>
    refine ⟨valid.room, valid.evident, ?_, fun _ => begun, ?_⟩
    · intro flag
      rw [unfinished] at flag
      cases flag
    · intro context reversal same
      cases same
      exact supplied
  | settles reversal reverting => exact valid.reverted reverting reversal
  | releases verified => exact valid.reverted verified _

end Valid

/-- How an opened phase ends that is refused. -/
def refused (refusal : Refusal) : Opened := if refusal.ambiguous then .ambiguous refusal.error else .failed refusal.error

/-! The journals of the moves. -/

theorem successes_snoc {done : List Dict} {phase : Phase} (current : phases[done.length]? = some phase) (result : Dict) :
    engine.successes (done ++ [result]) = engine.successes done ++ [engine.successRecord phase result] := by
  unfold successes
  generalize phases = known at current
  induction done generalizing known with
  | nil =>
    cases known with
    | nil => cases current
    | cons first rest =>
      cases current
      simp
  | cons earlier rest ih =>
    cases known with
    | nil => cases current
    | cons first others => simpa using ih others (by simpa using current)

theorem openedRecords_none (done : List Dict) : engine.openedRecords done none = [] := by
  unfold openedRecords
  cases phases[done.length]? <;> rfl

theorem journal_planned : engine.journal ⟨[], none, none, false⟩ = engine.planned := by
  simp [journal, planned, Progress.status, Progress.forwardStatus, Progress.phase, Progress.reached, successes,
    reversalRecords, openedRecords_none]

variable {p : Progress} {phase : Phase}

theorem journal_stopped (idle : p.opened = none) (forward : p.reversal = none) (current : phases[p.done.length]? = some phase)
    (opened : Opened) :
    engine.journal { p with opened := some opened } =
      (engine.journal p).inPhase ({ p with opened := some opened } : Progress).status phase (engine.openedRecord phase opened) := by
  obtain ⟨done, _, _, finished⟩ := p
  cases idle
  cases forward
  have records : engine.openedRecords done (some opened) = [engine.openedRecord phase opened] := by
    simp [openedRecords, current]
  simp [journal, Journal.inPhase, Journal.withRecord, records, openedRecords_none, reversalRecords, Progress.phase,
    Progress.reached, current]

theorem journal_opens (idle : p.opened = none) (forward : p.reversal = none) (current : phases[p.done.length]? = some phase) :
    engine.journal { p with opened := some .started } = (engine.journal p).inPhase .running phase (engine.startedRecord phase) := by
  rw [journal_stopped engine idle forward current]
  simp [Progress.status, forward, Progress.forwardStatus, openedRecord]

theorem journal_refused (idle : p.opened = none) (forward : p.reversal = none) (current : phases[p.done.length]? = some phase)
    (refusal : Refusal) :
    engine.journal { p with opened := some (refused refusal) } = (engine.journal p).inPhase refusal.status phase
      { engine.startedRecord phase with outcome := refusal.outcome, error := some refusal.error } := by
  rw [journal_stopped engine idle forward current]
  unfold refused Refusal.status Refusal.outcome
  cases refusal.ambiguous <;> simp [Progress.status, forward, Progress.forwardStatus, openedRecord]

theorem journal_succeeds (idle : p.opened = none) (forward : p.reversal = none) (unfinished : p.finished = false)
    (current : phases[p.done.length]? = some phase) (result : Dict) :
    engine.journal { p with done := p.done ++ [result] } =
      (engine.journal p).inPhase .running phase (engine.successRecord phase result) := by
  obtain ⟨done, _, _, _⟩ := p
  cases idle
  cases forward
  cases unfinished
  simp [journal, Journal.inPhase, Journal.withRecord, successes_snoc engine current, openedRecords_none, reversalRecords,
    Progress.phase, Progress.reached, Progress.status, Progress.forwardStatus, current]

theorem journal_finishes (idle : p.opened = none) (forward : p.reversal = none) :
    engine.journal { p with finished := true } = { engine.journal p with status := .completed } := by
  have status : ({ p with finished := true } : Progress).status = .completed := by
    simp [Progress.status, forward, Progress.forwardStatus, idle]
  have at_ : ({ p with finished := true } : Progress).phase = p.phase := by
    simp [Progress.phase, forward, Progress.reached]
  simp [journal, status, at_]

theorem journal_reverts (forward : p.reversal = none) (context : PhaseContext) :
    engine.journal { p with reversal := some (context, .started) } =
      (engine.journal p).withRecord (engine.rollbackRecord context) := by
  have status : ({ p with reversal := some (context, .started) } : Progress).status = p.status := by
    simp [Progress.status, forward, Progress.forwardStatus]
  have at_ : ({ p with reversal := some (context, .started) } : Progress).phase = p.phase := by
    simp [Progress.phase, forward, Progress.reached]
  simp [journal, Journal.withRecord, status, at_, forward, reversalRecords, reversalRecord]

theorem journal_verified (forward : p.reversal = none) (context : PhaseContext) (result : Dict) :
    engine.journal { p with reversal := some (context, .verified result) } =
      (engine.journal p).withRecord { engine.rollbackRecord context with outcome := .rollbackVerified, result := some result } := by
  have status : ({ p with reversal := some (context, .verified result) } : Progress).status = p.status := by
    simp [Progress.status, forward, Progress.forwardStatus]
  have at_ : ({ p with reversal := some (context, .verified result) } : Progress).phase = p.phase := by
    simp [Progress.phase, forward, Progress.reached]
  simp [journal, Journal.withRecord, status, at_, forward, reversalRecords, reversalRecord]

/-- How a rollback ends that an exception has stopped. -/
def stoppedBy (fault : Fault) : Reversal := if fault.rejected then .rejected fault.name else .ambiguous fault.name

theorem journal_rejected (forward : p.reversal = none) (context : PhaseContext) (error : String) :
    engine.journal { p with reversal := some (context, .rejected error) } =
      { (engine.journal p).withRecord { engine.rollbackRecord context with outcome := .failed, error := some error } with
        status := .failed } := by
  have at_ : ({ p with reversal := some (context, .rejected error) } : Progress).phase = p.phase := by
    simp [Progress.phase, forward, Progress.reached]
  simp [journal, Journal.withRecord, Progress.status, at_, forward, reversalRecords, reversalRecord]

theorem journal_ambiguous (forward : p.reversal = none) (context : PhaseContext) (error : String) :
    engine.journal { p with reversal := some (context, .ambiguous error) } =
      { (engine.journal p).withRecord { engine.rollbackRecord context with outcome := .ambiguous, error := some error } with
        status := .safeMode } := by
  have at_ : ({ p with reversal := some (context, .ambiguous error) } : Progress).phase = p.phase := by
    simp [Progress.phase, forward, Progress.reached]
  simp [journal, Journal.withRecord, Progress.status, at_, forward, reversalRecords, reversalRecord]

/-- The records of phases are of phases. -/
theorem phase_of_forward {record : Record} (member : record ∈ engine.successes p.done ++ engine.openedRecords p.done p.opened) :
    ∃ phase, record.phase = .phase phase := by
  rcases List.mem_append.mp member with earlier | last
  · obtain ⟨index, _, same⟩ := List.mem_iff_getElem.mp earlier
    simp only [successes, List.getElem_zipWith] at same
    subst same
    exact ⟨_, rfl⟩
  · cases current : phases[p.done.length]? with
    | none => simp [openedRecords, current] at last
    | some phase =>
      cases opened : p.opened with
      | none => simp [openedRecords, current, opened] at last
      | some stage =>
        simp only [openedRecords, current, opened, List.mem_singleton] at last
        subst last
        cases stage <;> exact ⟨phase, rfl⟩

theorem journal_released {context : PhaseContext} {result : Dict} (verified : p.reversal = some (context, .verified result)) :
    engine.journal { p with reversal := some (context, .completed result) } = (engine.journal p).released := by
  have kept : (engine.successes p.done ++ engine.openedRecords p.done p.opened).map (fun record =>
      if record.phase = .rollback then { record with outcome := .rollbackCompleted } else record) =
      engine.successes p.done ++ engine.openedRecords p.done p.opened := by
    refine (List.map_congr_left fun record member => ?_).trans (List.map_id _)
    obtain ⟨phase, same⟩ := engine.phase_of_forward member
    simp [same]
  unfold Journal.released journal
  rw [verified, List.map_append, kept]
  rfl

end Engine

end Coordinator.Upgrade
