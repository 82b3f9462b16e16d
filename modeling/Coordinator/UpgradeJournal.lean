import Coordinator.UpgradeAdmission

/-! The journal of an upgrade and the checks of its loader. A journal is one file that every write
replaces as a whole; the values in it that a reader could find with another type are held typed. -/

namespace Coordinator.Upgrade
open Kit

inductive Step where
  | phase (phase : Phase)
  | rollback
  deriving DecidableEq

def Step.text : Step → String
  | .phase known => known.text
  | .rollback => "rollback"

inductive RecordOutcome where
  | started
  | success
  | failed
  | ambiguous
  | rollbackVerified
  | rollbackCompleted
  deriving DecidableEq

inductive Status where
  | planned
  | running
  | failed
  | completed
  | rolledBack
  | safeMode
  deriving DecidableEq

structure Record where
  operationId : String
  stepId : String
  phase : Step
  outcome : RecordOutcome
  context : PhaseContext
  result : Option Dict
  error : Option String

structure Journal where
  schemaVersion : Nat
  operationId : String
  status : Status
  phase : Option Step
  context : PhaseContext
  records : List Record

def journalSchemaVersion : Nat := 3

/-- The longest name of a step, with the point before it. -/
def longestStep : Nat := ((phases.map Step.phase ++ [Step.rollback]).map (fun step => step.text.length + 1)).foldl max 0

def maxOperationIdLength : Nat := 128 - longestStep

def stepId (operationId : String) (step : Step) : String := operationId ++ "." ++ step.text

def requiredEvidence : Phase → List String
  | .discover => ["release_authentic", "runtime_supported", "backend_identity_verified"]
  | .preflight => ["preflight_admitted", "capacity_verified", "backend_identity_verified"]
  | .quiesce => ["barrier_acquired", "workers_drained", "leases_fenced", "fencing_verified"]
  | .backup => ["backup_verified", "restore_roundtrip_verified", "backend_identity_verified"]
  | .stage => ["staged_verified", "manifest_verified", "backend_identity_verified"]
  | .commit => ["quiesced", "backup_verified", "selector_verified", "selector_commit_atomic", "fencing_verified",
      "selector_before_verified", "selector_after_verified"]
  | .validate => ["runtime_validated", "backend_roundtrip_valid", "projections_valid", "binding_valid"]
  | .reopen => ["validated", "barrier_held"]

def rollbackEvidence : List String := ["restored_verified", "runtime_validated", "backend_roundtrip_valid"]

def rollbackResultFields : List String := rollbackEvidence ++ ["backend", "fencing_token"]

/-- What a target may change: the fields of an envelope that a rollback does not take over. -/
def childFields : List String := ["target", "barrier_identity_digest", "envelope_digest"]

def sessionFields : List String := envelopeFields.filter (fun field => !childFields.contains field)

def upgradeError {α : Type} (message : String) : Outcome α := .error (.upgradeError message)

def refuseIf (bad : Bool) (message : String) : Outcome Unit := raiseIf bad (.upgradeError message)

def validateContext (operationId : String) (supplied : Dict) : Outcome PhaseContext := do
  refuseIf (!(Json.obj supplied).hasExactly envelopeFields || supplied.get "operation_id" != .str operationId)
    "complete bound phase context is required"
  let context ← orRaise (validateEnvelope supplied) (.upgradeError "invalid phase context identity envelope")
  refuseIf (maxOperationIdLength < context.operationId.length) "invalid operation_id"
  pure context

theorem validateContext_of_envelope {context : PhaseContext} (canonical : context.isEnvelope = true)
    (short : context.operationId.length ≤ maxOperationIdLength) :
    validateContext context.operationId context.asdict = .ok context := by
  have named : context.asdict.get "operation_id" = .str context.operationId := rfl
  have fields : (!(Json.obj context.asdict).hasExactly envelopeFields || context.asdict.get "operation_id" != .str context.operationId) =
      false := by simp [asdict_exact, named, bne]
  have bounded : decide (maxOperationIdLength < context.operationId.length) = false := by simpa using short
  simp only [validateContext, refuseIf, raiseIf_bind_ok, orRaise_bind_ok, pure_eq_ok]
  exact ⟨fields, context, validateEnvelope_asdict.mpr canonical, bounded, rfl⟩

/-- The identity of an engine, which its construction has validated. -/
structure Engine where
  operationId : String
  context : PhaseContext
  validated : validateContext operationId context.asdict = .ok context

/-- What an adapter answers the loader: an exception, nothing of use or a mapping. -/
structure Verifier where
  verifyRollbackContext : PhaseContext → Outcome (Option Dict)
  revalidateRollback : PhaseContext → Dict → Outcome (Option Dict)

def agrees (fields : List String) (durable : Dict) (context : PhaseContext) : Bool :=
  fields.all (fun field => durable.get field == context.asdict.get field)

def isVerified (context : PhaseContext) : Outcome (Option Dict) → Bool
  | .ok (some durable) => agrees envelopeFields durable context
  | _ => false

def requireVerified (context : PhaseContext) (answer : Outcome (Option Dict)) : Outcome Unit := do
  refuseIf (!allowed answer) "rollback authority verification failed"
  refuseIf (!isVerified context answer) "rollback context is not verified by authority"

/-- The fields that an outcome puts beside those of every record: a result, or an error. -/
def RecordOutcome.evidence : RecordOutcome → Bool × Bool
  | .started => (false, false)
  | .success => (true, false)
  | .failed => (false, true)
  | .ambiguous => (false, true)
  | .rollbackVerified => (true, false)
  | .rollbackCompleted => (true, false)

def Record.evidence (record : Record) : Bool × Bool := (record.result.isSome, record.error.isSome)

namespace Engine

variable (engine : Engine)

/-- A supplied rollback context: it is valid, aims at the rollback and changes no other field. -/
def rollbackContext (supplied : Dict) : Outcome PhaseContext := do
  let context ← validateContext engine.operationId supplied
  refuseIf (context.target != "rollback") "rollback context target is invalid"
  match sessionFields.find? (fun field => context.asdict.get field != engine.context.asdict.get field) with
  | some field => upgradeError ("rollback context mismatch: " ++ field)
  | none => pure context

def checkRollbackRecord (verifier : Verifier) (record : Record) : Outcome Unit := do
  refuseIf (record.operationId != engine.operationId || record.stepId != stepId engine.operationId .rollback)
    "upgrade journal rollback identity is invalid"
  refuseIf (!([.started, .rollbackVerified, .rollbackCompleted, .ambiguous]).contains record.outcome)
    "upgrade journal rollback outcome is invalid"
  let context ← engine.rollbackContext record.context.asdict
  requireVerified context (verifier.verifyRollbackContext context)
  refuseIf (record.evidence != record.outcome.evidence) "rollback record fields are invalid"

def checkPhaseRecord (expected : Nat) (phase : Phase) (record : Record) : Outcome Unit := do
  refuseIf (phases[expected]? != some phase || record.operationId != engine.operationId ||
    record.stepId != stepId engine.operationId (.phase phase)) "upgrade journal phase identity is invalid"
  refuseIf (128 < record.stepId.length) "upgrade journal step identity is invalid"
  refuseIf (!([.started, .success, .failed, .ambiguous]).contains record.outcome) "upgrade journal outcome is invalid"
  refuseIf (record.context != engine.context) "upgrade journal record fields are invalid"
  refuseIf (record.evidence != record.outcome.evidence) "phase outcome fields are invalid"

/-- The scan of the records: the outcomes of the phases so far, and whether a rollback has come. -/
structure Scan where
  phaseOutcomes : List RecordOutcome
  rollbackSeen : Bool

def scanRecord (verifier : Verifier) (scan : Scan) (record : Record) : Outcome Scan :=
  match record.phase with
  | .rollback => do
      refuseIf scan.rollbackSeen "duplicate rollback record"
      engine.checkRollbackRecord verifier record
      pure { scan with rollbackSeen := true }
  | .phase phase => do
      refuseIf scan.rollbackSeen "phase follows rollback record"
      engine.checkPhaseRecord scan.phaseOutcomes.length phase record
      pure { scan with phaseOutcomes := scan.phaseOutcomes ++ [record.outcome] }

/-- The result of a verified rollback: its evidence, the backend and the token of its context. -/
def isRollbackResult (context : PhaseContext) (result : Dict) : Bool :=
  (Json.obj result).hasExactly rollbackResultFields && rollbackEvidence.all (fun field => isTrue (result.get field)) &&
    result.get "backend" == .str engine.context.backend && result.get "fencing_token" == .str context.fencingToken

def hasRollbackResult (record : Record) : Bool :=
  match record.result with
  | some result => engine.isRollbackResult record.context result
  | none => false

/-- The authority still has the runtime that a completed rollback left. -/
def isRevalidated : Outcome (Option Dict) → Bool
  | .ok (some evidence) => rollbackEvidence.all (fun field => isTrue (evidence.get field))
  | _ => false

def checkRollbackCompletion (verifier : Verifier) (record : Record) : Outcome Unit :=
  let result := record.result.getD []
  let evidence := verifier.revalidateRollback record.context result
  do
    refuseIf (!allowed evidence) "rollback revalidation failed"
    refuseIf (!isRevalidated evidence) "rollback runtime is not revalidated"

/-- What a status allows of the phases and of the rollback. -/
def checkStatus (verifier : Verifier) (value : Journal) (outcomes : List RecordOutcome) : Outcome Unit := do
  let rollbacks := value.records.filter (fun record => record.phase == .rollback)
  let verified := rollbacks.filter (fun record => record.outcome == .rollbackVerified)
  let completed := rollbacks.filter (fun record => record.outcome == .rollbackCompleted)
  refuseIf (value.status == .planned && !value.records.isEmpty) "planned journal contains records"
  refuseIf (value.status == .planned && value.phase.isSome) "planned journal has an active phase"
  refuseIf (value.status == .running && !(outcomes.getLast? == some .started || outcomes.getLast? == some .success))
    "running journal is not recoverable"
  refuseIf (value.status == .running && value.phase != (phases[outcomes.length - 1]?).map .phase)
    "running journal phase is inconsistent"
  refuseIf ((value.status == .failed || value.status == .safeMode) && outcomes.isEmpty) "failed journal has no failed phase"
  refuseIf ((verified ++ completed).any (fun record => !engine.hasRollbackResult record)) "rollback result schema is invalid"
  refuseIf (value.status == .completed && (outcomes != List.replicate phases.length .success || !rollbacks.isEmpty))
    "completed journal is incomplete"
  refuseIf ((value.status == .failed || value.status == .safeMode) && !completed.isEmpty)
    "failed journal has rollback completion"
  refuseIf (value.status == .safeMode && !verified.isEmpty) "safe-mode journal cannot discard verified rollback recovery"
  if value.status = .rolledBack then
    match completed with
    | [record] => checkRollbackCompletion verifier record
    | _ => upgradeError "rolled-back journal lacks rollback completion"
  refuseIf (value.status == .rolledBack && value.phase != some .rollback) "rolled-back journal phase is inconsistent"

def load (verifier : Verifier) (value : Journal) : Outcome Journal := do
  refuseIf (value.schemaVersion == 2) "upgrade journal schema v2 requires recovery with its originating runtime"
  refuseIf (value.schemaVersion != journalSchemaVersion || value.operationId != engine.operationId)
    "upgrade journal identity or records are invalid"
  refuseIf (value.context != engine.context) "upgrade journal context is invalid or changed"
  let scan ← value.records.foldlM (engine.scanRecord verifier) ⟨[], false⟩
  engine.checkStatus verifier value scan.phaseOutcomes
  pure value

/-- Read the journal that is there. -/
def readJournal (verifier : Verifier) (journal : Option Journal) : Outcome Journal := do
  let value ← orRaise journal (.upgradeError "upgrade journal is unreadable")
  engine.load verifier value

end Engine

end Coordinator.Upgrade
