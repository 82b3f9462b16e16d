import Coordinator.Kit.Trace
import Coordinator.UpgradeJournal

/-! The upgrade engine: it plans an operation, takes it through its phases and takes it back. A call
leaves a trace of journal writes and of executions by the adapter, and a crash cuts the trace off. A
write that fails leaves the journal as it was, or as written, and ends the call like a crash. -/

namespace Coordinator.Upgrade
open Kit

inductive Effect where
  | write (value : Journal)
  | execute (step : Step)

abbrev Attempted (α : Type) := Trace Effect Fault α

def refuse {α : Type} (message : String) : Attempted α := Trace.fail (.upgradeError message)

def guardThat (bad : Bool) (message : String) : Attempted Unit := Trace.lift (refuseIf bad message)

/-- What the adapter and the handler of one phase answer when they are asked. -/
structure PhaseCall where
  snapshot : Outcome Dict
  execute : Outcome Dict
  refreshAfterCommit : Outcome Unit
  handler : Option (Outcome Dict)

structure ApplyCall where
  adapter : Bool
  verifier : Verifier
  commitEvidence : Option Dict
  phase : Phase → PhaseCall

/-- What the adapter answers while a verified rollback is released. -/
structure Release where
  verify : Outcome (Option Dict)
  begin_ : Outcome (Option Dict)
  complete : Outcome (Option Dict)
  revalidate : Outcome (Option Dict)
  revalidateReleased : Outcome (Option Dict)

structure RollbackCall where
  phaseAdapter : Bool
  adapter : Bool
  requiresBoundRollback : Bool
  boundVerifier : Option (Outcome Dict)
  snapshot : Outcome Dict
  verify : PhaseContext → Outcome (Option Dict)
  verifier : Verifier
  execute : Outcome Dict
  handler : Outcome Dict
  release : Option Release

/-- A handler's answer changes a value that the backend has given. -/
def overrides (result handlerResult : Dict) : Bool :=
  handlerResult.keys.any (fun key => result.has key && result.get key != handlerResult.get key)

namespace Journal

variable (value : Journal)

def withRecord (record : Record) : Journal := { value with records := value.records ++ [record] }

/-- The journal of a phase whose record is the last one. -/
def inPhase (status : Status) (phase : Phase) (record : Record) : Journal :=
  { value.withRecord record with status := status, phase := some (.phase phase) }

/-- The loader has seen one rollback record at most, and it becomes complete. -/
def released : Journal :=
  { value with
    records := value.records.map (fun record => if record.phase = .rollback then { record with outcome := .rollbackCompleted } else record)
    status := .rolledBack
    phase := some .rollback }

end Journal

/-- How a phase ends that must not go on: whether it failed or is ambiguous, what its record says, and
the error of the call. -/
structure Refusal where
  ambiguous : Bool
  error : String
  message : String

namespace Refusal

variable (refusal : Refusal)

def outcome : RecordOutcome := if refusal.ambiguous then .ambiguous else .failed

def status : Status := if refusal.ambiguous then .safeMode else .failed

end Refusal

def isFenced : Phase → Bool
  | .discover => false
  | .preflight => false
  | _ => true

def phaseMutation (phase : Phase) : Bool := phase == .commit

namespace Engine

variable (engine : Engine)

def planned : Journal := ⟨journalSchemaVersion, engine.operationId, .planned, none, engine.context, []⟩

def plan (journal : Option Journal) : Attempted Journal := do
  guardThat journal.isSome "operation already planned"
  Trace.emit (.write engine.planned)
  pure engine.planned

def bindSnapshot (snapshot : Dict) : Outcome Unit :=
  match envelopeFields.find? (fun field => snapshot.get field != engine.context.asdict.get field) with
  | some field => upgradeError ("admission snapshot identity mismatch: " ++ field)
  | none => .ok ()

def startedRecord (phase : Phase) : Record :=
  ⟨engine.operationId, stepId engine.operationId (.phase phase), .phase phase, .started, engine.context, none, none⟩

/-- The adapter's execution of a phase, once the authority is what the phase expects. -/
def dispatch (call : ApplyCall) (started : Journal) (phase : Phase) (handler : Outcome Dict) : Attempted Dict := do
  let snapshot ← Trace.lift (call.phase phase).snapshot
  Trace.lift (engine.bindSnapshot snapshot)
  Trace.lift (admitPhase phase snapshot)
  Trace.emit (.execute (.phase phase))
  let adapterResult ← Trace.lift (call.phase phase).execute
  Trace.lift (if phase = .commit then (call.phase phase).refreshAfterCommit.mapError (fun _ => .commitDispatch) else .ok ())
  let result := if phase = .commit then adapterResult.update (call.commitEvidence.getD []) else adapterResult
  let handlerResult ← Trace.lift handler
  guardThat (overrides result handlerResult) "handler cannot override backend evidence"
  let _ ← Trace.lift (engine.load call.verifier started)
  pure (result.update handlerResult)

/-- The checks of the result of a phase. -/
def checkResult (phase : Phase) (result : Dict) : Except Refusal Unit := do
  raiseIf ((requiredEvidence phase).any (fun field => !isTrue (result.get field)) ||
      !(result.get "mutates_authority").isBool || isTrue (result.get "mutates_authority") != phaseMutation phase)
    ⟨false, "required evidence missing", "phase evidence incomplete: " ++ phase.text⟩
  raiseIf (result.get "backend" != .str engine.context.backend)
    ⟨false, "backend identity mismatch", "phase backend mismatch: " ++ phase.text⟩
  (admitPhase phase result).mapError fun fault => ⟨false, fault.name, "phase admission denied: " ++ phase.text⟩
  raiseIf (isFenced phase && result.get "fencing_token" != .str engine.context.fencingToken)
    ⟨false, "fencing token mismatch", "phase fencing mismatch: " ++ phase.text⟩
  raiseIf (isTrue (result.get "ambiguous"))
    ⟨true, "external outcome is ambiguous", "phase outcome is ambiguous: " ++ phase.text⟩

def refusalOf (phase : Phase) (fault : Fault) : Refusal :=
  if fault.ambiguous then ⟨true, fault.name, "phase outcome is ambiguous: " ++ phase.text⟩
  else ⟨false, fault.name, "phase failed: " ++ phase.text⟩

/-- Record a refusal, and raise its error. -/
def stop (value : Journal) (phase : Phase) (refusal : Refusal) : Attempted Journal := do
  Trace.emit (.write (value.inPhase refusal.status phase
    { engine.startedRecord phase with outcome := refusal.outcome, error := some refusal.error }))
  refuse refusal.message

def runPhase (call : ApplyCall) (phase : Phase) (value : Journal) : Attempted Journal :=
  match (call.phase phase).handler with
  | none => refuse ("missing phase handler: " ++ phase.text)
  | some handler => do
      let started := value.inPhase .running phase (engine.startedRecord phase)
      Trace.emit (.write started)
      match ← Trace.attempt (engine.dispatch call started phase handler) with
      | .error fault => engine.stop value phase (refusalOf phase fault)
      | .ok result =>
          match engine.checkResult phase result with
          | .error refusal => engine.stop value phase refusal
          | .ok () => do
              let next := value.inPhase .running phase { engine.startedRecord phase with outcome := .success, result := some result }
              Trace.emit (.write next)
              pure next

/-- The loop over the phases: those that have succeeded are passed over. -/
def runPhases (call : ApplyCall) (completed : List Step) : List Phase → Journal → Attempted Journal
  | [], value => pure value
  | phase :: rest, value =>
      if completed.contains (.phase phase) then runPhases call completed rest value
      else do
        let next ← engine.runPhase call phase value
        runPhases call completed rest next

def apply (call : ApplyCall) (journal : Option Journal) : Attempted Journal := do
  let value ← Trace.lift (engine.readJournal call.verifier journal)
  if value.status = .completed then pure value
  else do
    guardThat (value.status == .failed || value.status == .safeMode || value.status == .rolledBack)
      "journal requires explicit recovery before apply"
    guardThat (!call.adapter) "backend adapter is required for authoritative upgrade"
    let phaseRecords := value.records.map Record.phase
    guardThat (phaseRecords != phaseRecords.eraseDups || phaseRecords != (phases.take phaseRecords.length).map Step.phase)
      "upgrade journal phase ordering is invalid"
    let completed := (value.records.filter (fun record => record.outcome == .success)).map Record.phase
    guardThat (value.status == .running && value.records.getLast?.map Record.outcome == some .started)
      "started phase requires explicit recovery"
    let last ← engine.runPhases call completed phases value
    Trace.emit (.write { last with status := .completed })
    pure { last with status := .completed }

/-- The snapshot that a rollback starts from. A bound capability verifies, and never authorizes. -/
def rollbackSnapshot (call : RollbackCall) : Outcome Dict :=
  if call.requiresBoundRollback then
    match call.boundVerifier with
    | none => upgradeError "rollback requires a trusted bound backend capability"
    | some (.error _) => upgradeError "trusted bound rollback verification failed"
    | some (.ok result) => .ok (result.set "rollback_context_verified" (.bool false))
  else call.snapshot

/-- The context of a rollback that the authority has verified. -/
def verifyRollback (call : RollbackCall) : Outcome PhaseContext := do
  refuseIf call.phaseAdapter "public rollback dispatch is disabled"
  refuseIf (!call.adapter) "backend adapter is required for rollback"
  let snapshot ← rollbackSnapshot call
  refuseIf (!isTrue (snapshot.get "rollback_context_verified")) "backend did not verify rollback context"
  let context ← engine.rollbackContext (selectFields snapshot envelopeFields)
  requireVerified context (call.verify context)
  pure context

/-- The result of a rollback, once the backend has executed it. -/
def rollbackResult (call : RollbackCall) : Outcome Dict := do
  let adapterResult ← call.execute
  refuseIf (rollbackEvidence.any (fun field => !isTrue (adapterResult.get field))) "backend did not verify known-good runtime"
  let handlerResult ← call.handler
  refuseIf (overrides adapterResult handlerResult) "handler cannot override backend evidence"
  refuseIf (handlerResult.keys.any rollbackEvidence.contains) "handler cannot provide backend rollback evidence"
  let result := adapterResult.update handlerResult
  refuseIf (!rollbackResultFields.all result.has) "backend rollback result identity is incomplete"
  pure (selectFields result rollbackResultFields)

def statusOf : Outcome (Option Dict) → Json
  | .ok (some durable) => durable.get "status"
  | _ => .null

def requireRevalidation (answer : Outcome (Option Dict)) (result : Dict) : Outcome Unit :=
  match answer with
  | .ok (some evidence) => refuseIf (rollbackResultFields.any (fun field => evidence.get field != result.get field))
      "rollback runtime revalidation changed"
  | .ok none => upgradeError "rollback runtime revalidation is invalid"
  | .error fault => .error fault

/-- The barrier is released, in the middle of it where an earlier release has stopped. -/
def releaseBarrier (release : Release) (context : PhaseContext) (result : Dict) : Outcome Unit := do
  refuseIf (!isVerified context release.verify) "rollback release identity changed"
  let held := statusOf release.verify == .str "held"
  refuseIf (held && statusOf release.begin_ != .str "releasing") "rollback barrier did not enter releasing"
  let releasing := held || statusOf release.verify == .str "releasing"
  refuseIf (!releasing && statusOf release.verify != .str "released") "rollback barrier state is not recoverable"
  requireRevalidation release.revalidate result
  refuseIf (releasing && statusOf release.complete != .str "released") "rollback barrier was not durably released"
  requireRevalidation release.revalidateReleased result

def finishVerifiedRollback (call : RollbackCall) (context : PhaseContext) (value : Journal) (record : Record) : Attempted Journal :=
  match call.release with
  | none => refuse "rollback release recovery API is unavailable"
  | some release => do
      guardThat (!allowed (releaseBarrier release context (record.result.getD [])))
        "verified rollback release requires reconciliation"
      Trace.emit (.write value.released)
      pure value.released

def rollbackRecord (context : PhaseContext) : Record :=
  ⟨engine.operationId, stepId engine.operationId .rollback, .rollback, .started, context, none, none⟩

/-- Record what went wrong with a rollback, and raise its error. -/
def stopRollback (value : Journal) (context : PhaseContext) (fault : Fault) : Attempted Journal :=
  if fault.rejected then do
    Trace.emit (.write { value.withRecord { engine.rollbackRecord context with outcome := .failed, error := some fault.name } with
      status := .failed })
    refuse "rollback phase rejected"
  else do
    Trace.emit (.write { value.withRecord { engine.rollbackRecord context with outcome := .ambiguous, error := some fault.name } with
      status := .safeMode })
    refuse "rollback ambiguous; safe mode required"

/-- The adapter's execution of a rollback. -/
def dispatchRollback (call : RollbackCall) : Attempted Dict := do
  Trace.emit (.execute .rollback)
  Trace.lift (rollbackResult call)

def rollbackLocked (call : RollbackCall) (context : PhaseContext) (journal : Option Journal) : Attempted Journal := do
  let value ← Trace.lift (engine.readJournal call.verifier journal)
  guardThat (!(value.status == .failed || value.status == .running || value.status == .safeMode))
    "rollback requires failed, running, or safe-mode operation"
  match value.records.find? (fun record => record.phase == .rollback) with
  | some record => do
      guardThat (record.outcome != .rollbackVerified) "rollback outcome requires explicit reconciliation"
      finishVerifiedRollback call context value record
  | none => do
      Trace.emit (.write (value.withRecord (engine.rollbackRecord context)))
      match ← Trace.attempt (dispatchRollback call) with
      | .error fault => engine.stopRollback value context fault
      | .ok result => do
          let record := { engine.rollbackRecord context with outcome := .rollbackVerified, result := some result }
          Trace.emit (.write (value.withRecord record))
          finishVerifiedRollback call context (value.withRecord record) record

def rollback (call : RollbackCall) (journal : Option Journal) : Attempted Journal := do
  let context ← Trace.lift (engine.verifyRollback call)
  engine.rollbackLocked call context journal

end Engine

/-! Calls of one engine on its journal, each of which may crash after any of its effects. -/

inductive Call where
  | plan
  | apply (call : ApplyCall)
  | rollback (call : RollbackCall)

structure Event where
  call : Call
  reached : Nat

def Effect.leaves (journal : Option Journal) : Effect → Option Journal
  | .write value => some value
  | .execute _ => journal

/-- The journal that the effects so far have left. -/
def disk (history : List Effect) : Option Journal := history.foldl Effect.leaves none

namespace Engine

variable (engine : Engine)

def run (call : Call) (journal : Option Journal) : Attempted Journal :=
  match call with
  | .plan => engine.plan journal
  | .apply call => engine.apply call journal
  | .rollback call => engine.rollback call journal

def act (history : List Effect) (event : Event) : List Effect :=
  history ++ (engine.run event.call (disk history)).effects.take event.reached

/-- All effects of a run, in their order. -/
def history (events : List Event) : List Effect := Run.final engine.act [] events

end Engine

end Coordinator.Upgrade
