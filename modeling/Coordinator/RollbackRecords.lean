import Coordinator.Kit.Journal
import Coordinator.Records

/-! Records of rollback operations in a bounded journal, and how the rollback command is admitted and
authorized by them. -/

namespace Coordinator.RollbackRecords
open Kit

def maxRollbackRecords : Nat := 64

inductive Status
  | planned
  | restoreStarted
  | rollbackCompleted
  | ambiguous
  deriving DecidableEq

/-- A UUID as its text is printed. -/
def isUuid (s : String) : Bool :=
  match s.toList.splitOn '-' with
  | [a, b, c, d, e] => Text.exactly 8 Text.isHex a && Text.exactly 4 Text.isHex b && Text.exactly 4 Text.isHex c &&
      Text.exactly 4 Text.isHex d && Text.exactly 12 Text.isHex e
  | _ => false

structure Operation where
  text : String
  canonical : isUuid text = true
  deriving DecidableEq

/-- `AR-`, four digits, `-r` and four digits. -/
def isCheckpoint (s : String) : Bool :=
  match s.toList.splitOn '-' with
  | [lead, number, revision] => lead == ['A', 'R'] && Text.exactly 4 Text.isDigit number &&
      revision.head? == some 'r' && Text.exactly 4 Text.isDigit revision.tail
  | _ => false

structure Record where
  operationId : Operation
  checkpoint : String
  task : String
  sourceCommit : String
  currentCommit : String
  rollbackCommit : String
  recordedAt : String
  status : Status
  revision : Int
  deriving DecidableEq

/-- What a rollback reads of a checkpoint record. -/
structure CheckpointRef where
  name : String
  task : String
  sourceCommit : String
  deriving DecidableEq

def CheckpointRef.ofRecord (checkpoint : Json) : CheckpointRef :=
  { name := checkpoint.textOr "name", task := checkpoint.textOr "task", sourceCommit := checkpoint.textOr "source_commit" }

def raiseText (bad : Bool) (message : String) : Outcome Unit := raiseIf bad (.error message)

/-- Build one record of the state of an operation. -/
def buildRecord (checkpoint : CheckpointRef) (currentCommit recordedAt : String) (status : Status) (operationId : Operation)
    (rollbackCommit : String) (revision : Int) : Outcome Record := do
  raiseText (!isCheckpoint checkpoint.name) "invalid rollback checkpoint"
  raiseText (!ExecutionEnvelope.isTask checkpoint.task) "invalid rollback task"
  raiseText (!RetryCircuit.isCommit checkpoint.sourceCommit || !RetryCircuit.isCommit currentCommit)
    "invalid rollback commit"
  raiseText (rollbackCommit != "" && !RetryCircuit.isCommit rollbackCommit) "invalid rollback result commit"
  raiseText (revision < 1) "invalid rollback revision"
  pure { operationId, checkpoint := checkpoint.name, task := checkpoint.task, sourceCommit := checkpoint.sourceCommit,
         currentCommit, rollbackCommit, recordedAt, status, revision }

/-- Validate the identity and the content of a record. -/
def validateRecord (record : Record) : Outcome Unit := do
  raiseText (!isCheckpoint record.checkpoint) "invalid rollback checkpoint"
  raiseText (!ExecutionEnvelope.isTask record.task) "invalid rollback task"
  raiseText (!RetryCircuit.isCommit record.sourceCommit || !RetryCircuit.isCommit record.currentCommit)
    "invalid rollback commit"
  raiseText (record.rollbackCommit != "" && !RetryCircuit.isCommit record.rollbackCommit)
    "invalid rollback result commit"
  raiseText (record.recordedAt == "") "invalid rollback timestamp"
  raiseText (record.revision < 1) "invalid rollback revision"

/-- The validated journal. -/
def loadRecords (journal : List Record) : Outcome (List Record) := do
  journal.forM validateRecord
  raiseText (maxRollbackRecords < journal.length) "rollback journal exceeds bound"
  pure journal

/-- Append a record; the journal keeps its last ones. -/
def appendRecord (journal : List Record) (record : Record) : Outcome (List Record) := do
  validateRecord record
  let existing ← loadRecords journal
  pure (Journal.push maxRollbackRecords existing record)

/-- The newest record of a checkpoint. -/
def latestOf (journal : List Record) (checkpoint : String) : Option Record :=
  Journal.latest Record.checkpoint journal checkpoint

/-- A rollback that has been admitted, and the record that it found. -/
structure Target where
  checkpoint : CheckpointRef
  currentCommit : String
  previous : Option Record
  reconcile : Bool
  deriving DecidableEq

/-- What earlier records of the checkpoint admit. -/
def admitRollback (journal : List Record) (checkpoint : CheckpointRef) (currentCommit : String) (reconcile : Bool) :
    Outcome Target := do
  let records ← loadRecords journal
  let previous := latestOf records checkpoint.name
  raiseText (previous.any (fun record => decide (record.status = .rollbackCompleted)))
    "checkpoint rollback is already completed"
  raiseText (previous.any (fun record => decide (record.status = .restoreStarted ∨ record.status = .ambiguous)) && !reconcile)
    "checkpoint rollback requires explicit ambiguous recovery"
  pure { checkpoint, currentCommit, previous, reconcile }

/-- The head at which an operation may go on, and whether the product is already reverted there. -/
def reconcileSkips (previous : Record) (currentCommit : String) : Outcome Bool :=
  if previous.rollbackCommit = "" then do
    raiseText (currentCommit != previous.currentCommit) "reconcile product head changed during ambiguous rollback"
    pure false
  else do
    raiseText (currentCommit != previous.rollbackCommit) "reconcile product head does not match rollback commit"
    pure true

/-- A fresh operation is planned before it starts. -/
def planRollback (journal : List Record) (target : Target) (at_ : String) (fresh : Operation) :
    Outcome (List Record × Record) := do
  let planned ← buildRecord target.checkpoint target.currentCommit at_ .planned fresh "" 1
  let journal ← appendRecord journal planned
  pure (journal, planned)

def startPlanned (journal : List Record) (target : Target) (at_ : String) (planned : Record) :
    Outcome (List Record × Record) := do
  let started ← buildRecord target.checkpoint target.currentCommit at_ .restoreStarted planned.operationId "" 2
  let journal ← appendRecord journal started
  pure (journal, started)

def startReconciled (journal : List Record) (target : Target) (at_ : String) (previous : Record) :
    Outcome (List Record × Record × Bool) := do
  let skip ← reconcileSkips previous target.currentCommit
  let started ← buildRecord target.checkpoint target.currentCommit at_ .restoreStarted previous.operationId
    previous.rollbackCommit (previous.revision + 1)
  let journal ← appendRecord journal started
  pure (journal, started, skip)

/-- The record that an operation goes on from, if it is reconciled. -/
def Target.resumed (target : Target) : Option Record := if target.reconcile then target.previous else none

/-- Authorize a fresh restore, or go on with an operation at the head that it recorded. -/
def startRollback (journal : List Record) (target : Target) (at_ : String) (fresh : Operation) :
    Outcome (List Record × Record × Bool) :=
  match target.resumed with
  | some previous => startReconciled journal target at_ previous
  | none => do
      let (journal, planned) ← planRollback journal target at_ fresh
      let (journal, started) ← startPlanned journal target at_ planned
      pure (journal, started, false)

/-- Record how an operation that has started ends. -/
def closeRollback (journal : List Record) (target : Target) (started : Record) (status : Status) (rollbackCommit at_ : String) :
    Outcome (List Record × Record) := do
  let record ← buildRecord target.checkpoint target.currentCommit at_ status started.operationId rollbackCommit
    (started.revision + 1)
  let journal ← appendRecord journal record
  pure (journal, record)

theorem raiseText_eq_ok {bad : Bool} {message : String} {u : Unit} : raiseText bad message = .ok u ↔ bad = false :=
  raiseIf_eq_ok

section specs

variable {journal next : List Record} {record : Record} {checkpoint : CheckpointRef} {currentCommit at_ rollbackCommit : String}
  {status : Status} {operation fresh : Operation} {revision : Int} {target : Target}

/-- What every record of a checkpoint at a head needs. -/
structure Recordable (checkpoint : CheckpointRef) (currentCommit : String) : Prop where
  name : isCheckpoint checkpoint.name = true
  task : ExecutionEnvelope.isTask checkpoint.task = true
  source : RetryCircuit.isCommit checkpoint.sourceCommit = true
  current : RetryCircuit.isCommit currentCommit = true

theorem buildRecord_eq_ok :
    buildRecord checkpoint currentCommit at_ status operation rollbackCommit revision = .ok record ↔
      Recordable checkpoint currentCommit ∧ (rollbackCommit = "" ∨ RetryCircuit.isCommit rollbackCommit = true) ∧
      1 ≤ revision ∧
      record = { operationId := operation, checkpoint := checkpoint.name, task := checkpoint.task,
                 sourceCommit := checkpoint.sourceCommit, currentCommit, rollbackCommit, recordedAt := at_, status, revision } := by
  simp only [buildRecord, bind_eq_ok, raiseText_eq_ok, exists_unit, pure_eq_ok, Bool.not_eq_false', Bool.or_eq_false_iff,
    Bool.and_eq_false_iff, bne_eq_false_iff_eq, decide_eq_false_iff_not, not_lt]
  constructor
  · rintro ⟨name, task, ⟨source, current⟩, result, counted, rfl⟩
    exact ⟨⟨name, task, source, current⟩, result, counted, rfl⟩
  · rintro ⟨⟨name, task, source, current⟩, result, counted, rfl⟩
    exact ⟨name, task, ⟨source, current⟩, result, counted, rfl⟩

theorem buildRecord_named (built : buildRecord checkpoint currentCommit at_ status operation rollbackCommit revision = .ok record) :
    record.checkpoint = checkpoint.name ∧ record.status = status := by
  obtain ⟨-, -, -, rfl⟩ := buildRecord_eq_ok.mp built
  exact ⟨rfl, rfl⟩

/-- The record that is built is valid as soon as it is dated. -/
theorem validateRecord_of_build (built : buildRecord checkpoint currentCommit at_ status operation rollbackCommit revision = .ok record) :
    validateRecord record = .ok () ↔ at_ ≠ "" := by
  obtain ⟨⟨name, task, source, current⟩, result, counted, rfl⟩ := buildRecord_eq_ok.mp built
  have fits : ¬revision < 1 := by omega
  simp only [validateRecord, bind_eq_ok, raiseText_eq_ok, exists_unit, name, task, source, current, Bool.not_true,
    Bool.or_self, true_and, Bool.and_eq_false_iff, bne_eq_false_iff_eq, Bool.not_eq_false', result, beq_eq_false_iff_ne,
    decide_eq_false_iff_not, fits, not_false_eq_true, and_true]

theorem loadRecords_eq_ok {records : List Record} :
    loadRecords journal = .ok records ↔
      (∀ item ∈ journal, validateRecord item = .ok ()) ∧ journal.length ≤ maxRollbackRecords ∧ journal = records := by
  simp only [loadRecords, bind_eq_ok, raiseText_eq_ok, exists_unit, pure_eq_ok, forM_eq_ok, decide_eq_false_iff_not,
    not_lt]

/-- A journal that can be loaded. -/
def Loadable (journal : List Record) : Prop :=
  (∀ item ∈ journal, validateRecord item = .ok ()) ∧ journal.length ≤ maxRollbackRecords

theorem appendRecord_eq_ok :
    appendRecord journal record = .ok next ↔
      validateRecord record = .ok () ∧ Loadable journal ∧ Journal.push maxRollbackRecords journal record = next := by
  simp only [appendRecord, bind_eq_ok, exists_unit, loadRecords_eq_ok, pure_eq_ok]
  constructor
  · rintro ⟨valid, existing, ⟨sound, bound, rfl⟩, pushed⟩
    exact ⟨valid, ⟨sound, bound⟩, pushed⟩
  · rintro ⟨valid, ⟨sound, bound⟩, pushed⟩
    exact ⟨valid, journal, ⟨sound, bound, rfl⟩, pushed⟩

theorem loadable_append (appended : appendRecord journal record = .ok next) : Loadable next := by
  obtain ⟨valid, loadable, rfl⟩ := appendRecord_eq_ok.mp appended
  refine ⟨fun item member => ?_, Journal.push_length⟩
  obtain old | new := List.mem_append.mp ((Journal.push_sublist maxRollbackRecords journal record).subset member)
  · exact loadable.1 item old
  · rw [List.mem_singleton.mp new]
    exact valid

/-- The records that keep a rollback out unless it is reconciled. -/
def Status.pending : Status → Bool
  | .restoreStarted | .ambiguous => true
  | .planned | .rollbackCompleted => false

theorem admitRollback_eq_ok {reconcile : Bool} :
    admitRollback journal checkpoint currentCommit reconcile = .ok target ↔
      Loadable journal ∧
      (∀ last, latestOf journal checkpoint.name = some last →
        last.status ≠ .rollbackCompleted ∧ (last.status.pending = true → reconcile = true)) ∧
      target = { checkpoint, currentCommit, previous := latestOf journal checkpoint.name, reconcile } := by
  have fence : ∀ previous : Option Record,
      previous.any (fun record => decide (record.status = .rollbackCompleted)) = false ∧
      (previous.any (fun record => decide (record.status = .restoreStarted ∨ record.status = .ambiguous)) && !reconcile) = false ↔
      ∀ last, previous = some last → last.status ≠ .rollbackCompleted ∧ (last.status.pending = true → reconcile = true) := by
    intro previous
    cases previous with
    | none => simp
    | some record => cases recorded : record.status <;> simp [Status.pending, recorded]
  simp only [admitRollback, bind_eq_ok, raiseText_eq_ok, exists_unit, loadRecords_eq_ok, pure_eq_ok]
  rw [← fence]
  constructor
  · rintro ⟨records, ⟨sound, bound, rfl⟩, open_, explicit, rfl⟩
    exact ⟨⟨sound, bound⟩, ⟨open_, explicit⟩, rfl⟩
  · rintro ⟨⟨sound, bound⟩, ⟨open_, explicit⟩, rfl⟩
    exact ⟨journal, ⟨sound, bound, rfl⟩, open_, explicit, rfl⟩

theorem planRollback_eq_ok {planned : Record} :
    planRollback journal target at_ fresh = .ok (next, planned) ↔
      buildRecord target.checkpoint target.currentCommit at_ .planned fresh "" 1 = .ok planned ∧
      appendRecord journal planned = .ok next := by
  simp only [planRollback, bind_eq_ok, pure_eq_ok, Prod.mk.injEq]
  constructor
  · rintro ⟨record, built, after, appended, rfl, rfl⟩
    exact ⟨built, appended⟩
  · rintro ⟨built, appended⟩
    exact ⟨planned, built, next, appended, rfl, rfl⟩

theorem startPlanned_eq_ok {planned started : Record} :
    startPlanned journal target at_ planned = .ok (next, started) ↔
      buildRecord target.checkpoint target.currentCommit at_ .restoreStarted planned.operationId "" 2 = .ok started ∧
      appendRecord journal started = .ok next := by
  simp only [startPlanned, bind_eq_ok, pure_eq_ok, Prod.mk.injEq]
  constructor
  · rintro ⟨record, built, after, appended, rfl, rfl⟩
    exact ⟨built, appended⟩
  · rintro ⟨built, appended⟩
    exact ⟨started, built, next, appended, rfl, rfl⟩

/-- What has been planned can be started. -/
theorem startPlanned_of_planned {planned : Record} (planning : planRollback journal target at_ fresh = .ok (next, planned)) :
    ∃ after started, startPlanned next target at_ planned = .ok (after, started) := by
  obtain ⟨built, appended⟩ := planRollback_eq_ok.mp planning
  obtain ⟨valid, -, -⟩ := appendRecord_eq_ok.mp appended
  have dated := (validateRecord_of_build built).mp valid
  obtain ⟨recordable, -, -, -⟩ := buildRecord_eq_ok.mp built
  obtain ⟨started, again⟩ : ∃ started, buildRecord target.checkpoint target.currentCommit at_ .restoreStarted
      planned.operationId "" 2 = .ok started := ⟨_, buildRecord_eq_ok.mpr ⟨recordable, .inl rfl, by decide, rfl⟩⟩
  have accepted := appendRecord_eq_ok.mpr ⟨(validateRecord_of_build again).mpr dated, loadable_append appended, rfl⟩
  exact ⟨_, started, startPlanned_eq_ok.mpr ⟨again, accepted⟩⟩

theorem startReconciled_eq_ok {previous started : Record} {skip : Bool} :
    startReconciled journal target at_ previous = .ok (next, started, skip) ↔
      reconcileSkips previous target.currentCommit = .ok skip ∧
      buildRecord target.checkpoint target.currentCommit at_ .restoreStarted previous.operationId previous.rollbackCommit
        (previous.revision + 1) = .ok started ∧
      appendRecord journal started = .ok next := by
  simp only [startReconciled, bind_eq_ok, pure_eq_ok, Prod.mk.injEq]
  constructor
  · rintro ⟨skipped, skips, record, built, after, appended, rfl, rfl, rfl⟩
    exact ⟨skips, built, appended⟩
  · rintro ⟨skips, built, appended⟩
    exact ⟨skip, skips, started, built, next, appended, rfl, rfl, rfl⟩

theorem closeRollback_eq_ok {started : Record} :
    closeRollback journal target started status rollbackCommit at_ = .ok (next, record) ↔
      buildRecord target.checkpoint target.currentCommit at_ status started.operationId rollbackCommit
        (started.revision + 1) = .ok record ∧
      appendRecord journal record = .ok next := by
  simp only [closeRollback, bind_eq_ok, pure_eq_ok, Prod.mk.injEq]
  constructor
  · rintro ⟨record, built, after, appended, rfl, rfl⟩
    exact ⟨built, appended⟩
  · rintro ⟨built, appended⟩
    exact ⟨record, built, next, appended, rfl, rfl⟩

end specs

end Coordinator.RollbackRecords
