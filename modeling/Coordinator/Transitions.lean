import Coordinator.PredicateLedger
import Coordinator.Records
import Coordinator.TaskValidation

/-! The lifecycle transitions: one handler for each kind of mutation, from the metadata of the
target to its new metadata and the note of the change. -/

namespace Coordinator.Transitions
open Kit TaskGraph

/-- What a handler reads besides the metadata of its target. -/
structure Context where
  files : Files
  world : Moment
  /-- The target as the command line names it. -/
  name : String
  tasks : List Task
  /-- Session records of the target, oldest first. -/
  sessions : List Json
  /-- Checkpoint records of the target, oldest first. -/
  checkpoints : List Json

def Context.metas (ctx : Context) : List Meta := ctx.tasks.map (·.fields)

def fail (message : String) : Fault := .error message

def blank (note : String) : Bool := Text.isBlank note

/-! Admission of completion and claims. -/

/-- Completion of an active task needs its evidence, its children, its drift and its assumptions. -/
def requireDoneAdmission (ctx : Context) (task : Meta) : Outcome Unit :=
  if status task != .str "in_progress" then pure ()
  else do
    raiseSome (TaskSpec.doneAdmissionError ctx.files task)
    raiseSome (openChildError task ctx.tasks)
    raiseSome (ChangeDrift.doneAdmissionError task)
    let stale ← AssumptionRevalidation.freshnessError ctx.files ctx.world task ctx.metas
    raiseSome stale

def requireReleaseAdmission (ctx : Context) (task : Meta) (releasedTo : String) : Outcome Unit :=
  if releasedTo = "done" then requireDoneAdmission ctx task else pure ()

def pendingDependencies (task : Meta) (tasks : List Task) : List String :=
  ((dependenciesOf task).items.filter (fun item => !(item.isStr && dependencySatisfied item.text tasks))).map
    Json.toText

def requireDependencies (ctx : Context) (task : Meta) : Outcome Unit :=
  raiseIf (!(pendingDependencies task ctx.tasks).isEmpty)
    (fail ("unfinished dependencies: " ++ Text.joined ", " (pendingDependencies task ctx.tasks)))

def requireNoClaim (ctx : Context) (task : Meta) : Outcome Unit :=
  raiseIf ((owner task).truthy || (claimExpires task).truthy) (fail (ctx.name ++ " has active claim metadata"))

def requireStatus (task : Meta) (expected message : String) : Outcome Unit :=
  raiseIf (status task != .str expected) (fail message)

structure ClaimRequest where
  owner : String
  leaseMinutes : Int
  workerPid : Option Int
  workerStartTime : Option Int
  /-- The revision that a claim with a receipt is fenced to. -/
  receiptRevision : Option Int

/-- Other active tasks of an owner. -/
def heldBy (ctx : Context) (ownerId : String) : List Meta :=
  ctx.metas.filter (fun item =>
    status item == .str "in_progress" && owner item == .str ownerId && item.get "id" != .str ctx.name)

def applyClaim (ctx : Context) (task : Meta) (request : ClaimRequest) : Outcome (Meta × String) := do
  requireOptionalRevision task request.receiptRevision
  raiseIf (request.leaseMinutes ≤ 0) (fail "lease must be positive")
  requireStatus task "open" (ctx.name ++ " is not open")
  requireRoleAdmission ctx.world request.owner
  requireDependencies ctx task
  OracleLifecycle.transitionAllowed task "claim"
  let held := heldBy ctx request.owner
  raiseIf (!held.isEmpty)
    (fail ("owner already holds " ++ Text.joined "" ((held.take 1).map (fun item => (item.get "id").toText))))
  let task ← attachClaimProcess ctx.world ((task.set "owner" (.str request.owner)).set "status" (.str "in_progress"))
    request.workerPid request.workerStartTime
  let lease ← leaseText ctx.world request.leaseMinutes
  pure (task.set "claim_expires" (.str lease), "Claimed by " ++ request.owner ++ ".")

/-- The sole transition from planned to open. -/
def applyPromote (ctx : Context) (task : Meta) (expectedRevision : Int) (note : String) : Outcome (Meta × String) := do
  requireRevision task expectedRevision
  requireStatus task "planned" (ctx.name ++ " is not planned")
  requireNoClaim ctx task
  requireDependencies ctx task
  OracleLifecycle.transitionAllowed task "promote"
  raiseIf (blank note) (fail "promotion note must not be empty")
  pure (task.set "status" (.str "open"), note)

/-! Pause and the ways back from a blocked task. -/

/-- Freeze an owned task and its lease at one exact revision. -/
def applyPause (ctx : Context) (task : Meta) (ownerId : String) (expectedRevision : Int) (note : String) :
    Outcome (Meta × String) := do
  requireOwner task ctx.name ownerId
  requireRoleAdmission ctx.world ownerId
  requireNoExecutionReservation task
  requireRevision task expectedRevision
  requireStatus task "in_progress" (ctx.name ++ " is not in progress")
  raiseIf (blank note) (fail "pause note must not be empty")
  pure (clearClaim (task.set "status" (.str "blocked")), note)

def coherentPauseSession (record : Json) (taskId : String) (revision : Int) : Bool :=
  let state := record.get "step_state"
  record.get "task" == .str taskId && record.get "trigger" == .str "pause" &&
    record.get "status" == .str "blocked" && state.isObj && state.get "status" == .str "blocked" &&
    state.get "task_revision" == .int revision

/-- The target and revision that a session reference names. -/
def sessionReference? (reference : String) : Option (String × Int) :=
  match reference.toList.splitOn '@' with
  | [task, first :: rest] =>
      if ExecutionEnvelope.isTask (String.ofList task) && '1' ≤ first && first ≤ '9' && rest.all Text.isDigit then
        some (String.ofList task, ((first :: rest).foldl (fun n c => 10 * n + Datetime.digitValue c) 0 : Nat))
      else none
  | _ => none

/-- The validated session records of the target at one revision. -/
def sessionsAt (ctx : Context) (revision : Int) : Outcome (List Json) := do
  let records ← Records.loadSessionRecords ctx.name ctx.sessions
  let current := records.filter (fun record => record.get "task_revision" == .int revision)
  current.forM Records.validateSessionRecord
  pure current

def sessionForReference (ctx : Context) (reference : String) : Outcome Json := do
  let (taskId, revision) ← orRaise (sessionReference? reference)
    (fail "session reference must use TASK@REVISION for the target task")
  raiseIf (taskId != ctx.name) (fail "session reference must use TASK@REVISION for the target task")
  let current ← sessionsAt ctx revision
  match current with
  | [] => throw (fail "no session snapshot at requested revision")
  | [record] => do
      raiseIf (!coherentPauseSession record ctx.name revision)
        (fail "session reference is not a coherent paused snapshot")
      pure record
  | _ => throw (fail "session provenance is ambiguous")

def requireBlocked (ctx : Context) (task : Meta) (expectedRevision : Int) : Outcome Unit := do
  requireRevision task expectedRevision
  requireStatus task "blocked" (ctx.name ++ " is not blocked")
  requireNoClaim ctx task

/-- Reopen one exact paused snapshot. -/
def applyResume (ctx : Context) (task : Meta) (expectedRevision : Int) (session note : String) :
    Outcome (Meta × String) := do
  requireBlocked ctx task expectedRevision
  let record ← sessionForReference ctx session
  raiseIf (record.get "task_revision" != .int expectedRevision)
    (fail "session snapshot revision does not match expected revision")
  raiseIf (blank note) (fail "resume note must not be empty")
  pure ((task.set "next_action" (.str (record.get "next_action").toText)).set "status" (.str "open"), note)

inductive Provenance where
  | external
  | pause
  deriving DecidableEq

/-- Classify a blocked state from its exact-revision session evidence. -/
def blockedProvenance (ctx : Context) (revision : Int) : Outcome Provenance := do
  let current ← sessionsAt ctx revision
  match current with
  | [] => pure .external
  | [record] => do
      raiseIf (!coherentPauseSession record ctx.name revision) (fail "blocked provenance is ambiguous")
      pure .pause
  | _ => throw (fail "blocked provenance is ambiguous")

/-- Reopen one exact externally blocked revision. -/
def applyUnblock (ctx : Context) (task : Meta) (expectedRevision : Int) (note : String) : Outcome (Meta × String) := do
  requireBlocked ctx task expectedRevision
  let provenance ← blockedProvenance ctx (Meta.revision task)
  raiseIf (provenance != .external) (fail "task is paused; use resume with its exact session reference")
  raiseIf (blank note) (fail "unblock note must not be empty")
  pure (task.set "status" (.str "open"), note)

/-! Recovery of an expired claim. -/

/-- The record of the present revision, once no record is malformed or newer. -/
def currentRecoverySession (records : List Json) (revision : Int) : Outcome (Option Json) := do
  records.forM (fun session => do
    Records.validateSessionRecord session
    raiseIf (revision < Records.revisionOf session) (fail "session snapshot revision is newer than the task"))
  pure (records.reverse.find? (fun session => session.get "task_revision" == .int revision))

/-- What the recovery takes from the session evidence, the legacy notice or the absent worker. -/
def recoveryEvidence (ctx : Context) (task : Meta) (current : Option Json) (note : String) (allowLegacy : Bool) :
    Outcome (Meta × String) :=
  match current with
  | some session => pure (task.set "next_action" (.str (session.get "next_action").toText), note)
  | none =>
      if legacyRecoveryAdmitted ctx.world allowLegacy task then pure (task, "LEGACY_NO_IDENTITY_RECOVERY: " ++ note)
      else do
        requireClaimedWorkerAbsent ctx.world task
        pure (task, note)

def applyRecoverExpired (ctx : Context) (task : Meta) (expectedRevision : Int) (note : String) (allowLegacy : Bool) :
    Outcome (Meta × String) := do
  requireNoExecutionReservation task
  requireRevision task expectedRevision
  raiseIf (status task != .str "in_progress" || !(owner task).truthy)
    (fail (ctx.name ++ " does not have an active claim"))
  let expiry ← orRaise (expiry? (claimExpires task)) (fail (ctx.name ++ " has invalid claim expiry"))
  raiseIf (ctx.world.instant < expiry) (fail (ctx.name ++ " claim has not expired"))
  raiseIf (blank note) (fail "expired-claim recovery note must not be empty")
  let task ← RetryCircuit.requireNoLiveReservation task ctx.world.now
  let records ← Records.loadSessionRecords ctx.name ctx.sessions
  let previousOwner := (owner task).toText
  let current ← currentRecoverySession records (Meta.revision task)
  let (task, recoveryNote) ← recoveryEvidence ctx task current note allowLegacy
  pure (clearClaim (task.set "status" (.str "open")),
    "Recovered expired claim formerly owned by " ++ previousOwner ++ ". " ++ recoveryNote)

/-! Acceptance and bindings. -/

def applyAccept (ctx : Context) (task : Meta) (request : PredicateLedger.Request) : Outcome (Meta × String) := do
  requireRoleAdmission ctx.world request.owner
  -- the handler hands no tasks on
  PredicateLedger.applyAcceptance ctx.files ctx.world task [] { request with task := ctx.name }

/-- Bind a validated specification to a task that has none. -/
def applyBindSpec (ctx : Context) (task : Meta) (ownerId : String) (expectedRevision : Int) (specRef : String)
    (specRevision : Int) : Outcome (Meta × String) := do
  requireOwner task ctx.name ownerId
  requireRoleAdmission ctx.world ownerId
  requireStatus task "in_progress" "bind-spec requires an active task"
  requireLease ctx.world task "bind-spec"
  requireRevision task expectedRevision
  raiseIf (["spec_ref", "spec_revision", "spec_acceptance"].any task.has)
    (fail "bind-spec requires an unbound task spec")
  let candidate := (task.set "spec_ref" (.str specRef)).set "spec_revision" (.int specRevision)
  let errors := TaskSpec.taskSpecErrors ctx.files candidate true
  raiseIf (!errors.isEmpty) (fail ("bind-spec task spec is invalid: " ++ Text.joined "; " errors))
  pure (candidate, "Bound task spec " ++ specRef ++ " revision " ++ toString specRevision ++ ".")

def validBindingBranch (world : Moment) (branch : String) : Bool :=
  branch.length ≤ 128 && branch != "DETACHED" && world.branchRef branch

structure WorktreeRequest where
  owner : String
  expectedRevision : Int
  branch : String
  worktreeKey : String

def bindingIdentityConflicts (ctx : Context) (task : Meta) (request : WorktreeRequest) : Bool :=
  ctx.metas.any (fun other => other.get "id" != task.get "id" && status other == .str "in_progress" &&
    (other.get "branch" == .str request.branch || other.get "worktree_key" == .str request.worktreeKey))

/-- Admit a first binding or the completion of a partial one. -/
def requireBindWorktreeAdmission (ctx : Context) (task : Meta) (request : WorktreeRequest) : Outcome Unit := do
  requireActiveBindingOwner ctx.world task ctx.name request.owner request.expectedRevision
  raiseIf (!validBindingBranch ctx.world request.branch) (fail "bind-worktree branch is invalid")
  raiseIf (!TaskValidation.validBindingWorktree ctx.files (.str request.worktreeKey))
    (fail "bind-worktree worktree key is invalid")
  raiseIf (bindingIdentityConflicts ctx task request) (fail "bind-worktree identity conflicts with an active task")
  let branch := task.get "branch"
  let key := task.get "worktree_key"
  raiseIf (branch.truthy && key.truthy && branch == .str request.branch && key == .str request.worktreeKey)
    (.replay ("Worktree " ++ request.worktreeKey ++ " on branch " ++ request.branch ++ " is already bound."))
  raiseIf (branch.truthy && key.truthy) (fail "bind-worktree requires empty legacy worktree metadata")
  raiseIf branch.truthy (fail "bind-worktree requires an empty legacy branch")
  raiseIf (key.truthy && key != .str request.worktreeKey)
    (fail "bind-worktree worktree key conflicts with declared legacy metadata")

def applyBindWorktree (ctx : Context) (task : Meta) (request : WorktreeRequest) : Outcome (Meta × String) := do
  requireBindWorktreeAdmission ctx task request
  requireNoExecutionReservation task
  pure ((task.set "branch" (.str request.branch)).set "worktree_key" (.str request.worktreeKey),
    "Bound worktree " ++ request.worktreeKey ++ " on branch " ++ request.branch ++ ".")

structure EnvelopeRequest where
  owner : String
  expectedRevision : Int
  envelopeRef : String
  envelopeRevision : Int

def EnvelopeRequest.named (request : EnvelopeRequest) (name : String) : ExecutionEnvelope.Request :=
  ⟨name, request.envelopeRef, request.envelopeRevision⟩

/-- Load an envelope and check its identity against the exact task revision. -/
def bindEnvelopeCandidate (ctx : Context) (task : Meta) (request : EnvelopeRequest) : Outcome Json := do
  raiseIf (!((task.get "spec_ref").isStr && (task.get "spec_revision").int?.isSome))
    (fail "bind-envelope requires a bound task spec")
  let (loaded, found) ← ExecutionEnvelope.load ctx.files.envelope request.envelopeRef
  raiseIf (!found.isEmpty || loaded.isNone)
    (fail ("bind-envelope envelope is invalid: " ++ Text.joined "; " found))
  let envelope := loaded.getD .null
  raiseIf (envelope.get "task" != .str ctx.name || envelope.get "spec_ref" != task.get "spec_ref")
    (fail "bind-envelope envelope task or spec does not match")
  raiseIf (envelope.get "task_revision" != task.get "task_revision")
    (fail "bind-envelope envelope task revision does not match")
  raiseIf (envelope.get "spec_revision" != task.get "spec_revision")
    (fail "bind-envelope envelope spec revision does not match")
  raiseIf (envelope.get "envelope_revision" != .int request.envelopeRevision)
    (fail "bind-envelope envelope revision does not match")
  pure envelope

def applyBindEnvelope (ctx : Context) (task : Meta) (request : EnvelopeRequest) : Outcome (Meta × String) := do
  requireActiveBindingOwner ctx.world task ctx.name request.owner request.expectedRevision
  requireNoExecutionReservation task
  let envelope ← bindEnvelopeCandidate ctx task request
  let bound := ExecutionEnvelope.bind task (request.named ctx.name) envelope
  let same := ExecutionEnvelope.bindingFields.all (fun name => task.get name == bound.get name)
  let unbound := ExecutionEnvelope.bindingFields.all (fun name => (task.get name).isNull)
  raiseIf (!unbound && same)
    (.replay ("Execution envelope " ++ request.envelopeRef ++ " is already bound."))
  raiseIf (!unbound) (fail "bind-envelope requires an unbound execution envelope")
  pure (bound, "Bound execution envelope " ++ request.envelopeRef ++ " revision " ++
    toString request.envelopeRevision ++ ".")

def applyReplaceEnvelope (ctx : Context) (task : Meta) (request : EnvelopeRequest) : Outcome (Meta × String) := do
  requireActiveBindingOwner ctx.world task ctx.name request.owner request.expectedRevision
  requireNoExecutionReservation task
  ExecutionEnvelope.replaceBound task (request.named ctx.name) ctx.files.envelope ctx.world.now

/-! Changes by the owner. -/

def requireNoBoundExecution (task : Meta) : Outcome Unit :=
  raiseIf (!(reservation task).isNull) (fail "EXECUTION_IN_PROGRESS: use the bound command completion path")

def applyHeartbeat (ctx : Context) (task : Meta) (ownerId : String) (leaseMinutes : Int)
    (expectedRevision : Option Int) : Outcome (Meta × String) := do
  requireOwner task ctx.name ownerId
  requireNoBoundExecution task
  raiseIf (leaseMinutes ≤ 0 || status task != .str "in_progress")
    (fail "heartbeat requires an active task and positive lease")
  requireOptionalRevision task expectedRevision
  let lease ← leaseText ctx.world leaseMinutes
  pure (task.set "claim_expires" (.str lease), "Heartbeat by " ++ ownerId ++ ".")

def applyRelease (ctx : Context) (task : Meta) (ownerId releasedTo note : String) : Outcome (Meta × String) := do
  requireOwner task ctx.name ownerId
  requireNoExecutionReservation task
  requireReleaseAdmission ctx task releasedTo
  OracleLifecycle.transitionAllowed task "release"
  pure (clearClaim (task.set "status" (.str releasedTo)), note)

structure UpdateRequest where
  owner : String
  expectedRevision : Option Int
  status : Option String
  priority : Option String
  summary : Option String
  nextAction : Option String
  note : String
  /-- The trigger that a run gives its closing update. -/
  sessionTrigger : Option String

def setGiven (task : Meta) (key : String) (value : Option String) : Meta :=
  match value with
  | some text => task.set key (.str text)
  | none => task

/-- The fields of an update that the command line gives. -/
def updated (task : Meta) (request : UpdateRequest) : Meta :=
  setGiven (setGiven (setGiven (setGiven task "status" request.status) "priority" request.priority)
    "summary" request.summary) "next_action" request.nextAction

def applyUpdate (ctx : Context) (task : Meta) (request : UpdateRequest) : Outcome (Meta × String) := do
  requireOwner task ctx.name request.owner
  requireRoleAdmission ctx.world request.owner
  requireNoBoundExecution task
  requireOptionalRevision task request.expectedRevision
  raiseIf (request.status.any (· != "in_progress")) (fail "use release for a non-active status")
  pure (AutonomyLimits.carryRunHold request.sessionTrigger "update" (updated task request), request.note)

/-! Checkpoints and gates. -/

def applyCheckpoint (ctx : Context) (task : Meta) (ownerId : String) (expectedRevision : Int) (sourceCommit : String) :
    Outcome (Meta × String) := do
  requireOwner task ctx.name ownerId
  requireRevision task expectedRevision
  requireRoleAdmission ctx.world ownerId
  pure (task.set "checkpoint_commit" (.str sourceCommit), "Checkpointed source commit " ++ sourceCommit ++ ".")

def rollbackFields : List String :=
  ["priority", "summary", "next_action", "depends_on", "superseded_by", "spec_ref", "spec_revision",
    "spec_acceptance", "branch", "worktree_key", "checkpoint_commit"]

/-- The fields that a rollback takes from the recorded state. -/
def restored (task : Meta) (state : Json) : Meta :=
  let task := if state.has "short_title" then task.set "short_title" (state.get "short_title")
    else task.pop "short_title"
  rollbackFields.foldl (fun current field =>
    if state.has field then current.set field (state.get field) else current) task

def restoredStatus (state : Json) : Json :=
  if state.get "status" == .str "in_progress" then .str "open" else state.get "status"

def applyRollback (ctx : Context) (task : Meta) (checkpointName : String) : Outcome (Meta × String) := do
  let checkpoint ← Records.findCheckpoint ctx.checkpoints checkpointName
  raiseIf ((owner task).truthy || (claimExpires task).truthy)
    (fail "rollback requires the target task to have no active claim")
  let state := checkpoint.get "state"
  raiseIf (!state.isObj || state.get "id" != task.get "id")
    (fail "rollback checkpoint task does not match target task")
  let task := clearClaim ((restored task state).set "status" (restoredStatus state))
  let sourceCommit := (checkpoint.get "source_commit").toText
  pure (task.set "checkpoint_commit" (.str sourceCommit),
    "Restored checkpoint " ++ (checkpoint.get "name").toText ++ " from source commit " ++ sourceCommit ++ ".")

/-- A gate event as the command line gives it, with its artifacts as `REF=DIGEST`. -/
structure GateRequest where
  expectedRevision : Int
  stage : String
  action : String
  disposition : String
  before : List String
  after : List String
  publicRef : String
  sessionId : String
  requestRef : String
  activation : String
  tuiContractVersion : String

def artifactValue (label value : String) : Outcome OracleLifecycle.ArtifactRef := do
  raiseIf (!Text.contains '=' value) (fail (label ++ " must use REF=DIGEST"))
  let artifact : OracleLifecycle.ArtifactRef :=
    ⟨String.ofList (value.toList.takeWhile (· ≠ '=')), String.ofList ((value.toList.dropWhile (· ≠ '=')).drop 1)⟩
  artifact.check
  pure artifact

/-- A complete session record, or none when no part of one is given. -/
def humanSessionValues (request : GateRequest) (recordedAt : String) : Outcome (Option Json) :=
  let given := [request.sessionId, request.requestRef, request.activation, request.tuiContractVersion]
  if given.all (· == "") then pure none
  else do
    raiseIf (request.action != "open") (fail "human session metadata is valid only when opening a gate")
    raiseIf (given.any (· == ""))
      (fail "human session metadata requires --session-id, --request-ref, --activation, and --tui-contract-version")
    pure (some (.obj [("schema_version", .str "1.0"), ("session_id", .str request.sessionId),
      ("request_ref", .str request.requestRef), ("activation", .str request.activation),
      ("status", .str "presenting"), ("task_revision", .int request.expectedRevision),
      ("tui_contract_version", .str request.tuiContractVersion), ("opened_at", .str recordedAt)]))

def applyGate (ctx : Context) (task : Meta) (request : GateRequest) : Outcome (Meta × String) := do
  raiseIf (!(OracleLifecycle.gateSequence ++ OracleLifecycle.stageGateSequence).contains request.stage)
    (fail "unknown interaction gate stage")
  let before ← request.before.mapM (artifactValue "--before")
  let after ← request.after.mapM (artifactValue "--after")
  let event : OracleLifecycle.InteractionEvent :=
    { taskId := taskText task, taskRevision := request.expectedRevision, stage := request.stage,
      action := request.action, disposition := request.disposition, before := before, after := after,
      publicRef := request.publicRef, recordedAt := ctx.world.now }
  event.check
  let session ← humanSessionValues request ctx.world.now
  OracleLifecycle.applyEvent task event session

/-! The autonomy phases of a run. -/

structure AutonomyRequest where
  owner : String
  expectedRevision : Int
  policy : Option AutonomyLimits.Policy

def applyAutonomyPreflight (ctx : Context) (task : Meta) (request : AutonomyRequest) (diffBytes : Int) :
    Outcome (Meta × String) := do
  requireActiveBindingOwner ctx.world task ctx.name request.owner request.expectedRevision
  let (task, note, _) ← AutonomyLimits.applyPreflight task request.policy ctx.world.now diffBytes
  pure (task, note)

def applyAutonomyRecord (ctx : Context) (task : Meta) (request : AutonomyRequest) (report : AutonomyLimits.Report) :
    Outcome (Meta × String) := do
  requireActiveBindingOwner ctx.world task ctx.name request.owner request.expectedRevision
  AutonomyLimits.applyRecord task request.policy ctx.world.now report

/-! The kinds of mutations and their dispatch. -/

inductive Mutation where
  | claim (request : ClaimRequest)
  | heartbeat (owner : String) (leaseMinutes : Int) (expectedRevision : Option Int)
  | release (owner releasedTo note : String)
  | update (request : UpdateRequest)
  | promote (expectedRevision : Int) (note : String)
  | pause (owner : String) (expectedRevision : Int) (note : String)
  | resume (expectedRevision : Int) (session note : String)
  | unblock (expectedRevision : Int) (note : String)
  | recoverExpired (expectedRevision : Int) (note : String) (allowLegacy : Bool)
  | recoverExecution (expectedRevision : Option Int)
  | abandonExecution (request : Execution.AbandonRequest)
  | gate (request : GateRequest)
  | changeDrift (request : ChangeDrift.Request)
  | assumption (request : AssumptionRevalidation.Request)
  | retryCircuit (owner : String) (expectedRevision : Int) (attempt action reason : String)
  | retryCircuitReserve (owner : String) (expectedRevision : Int) (slot : RetryCircuit.SlotRequest)
  | retryCircuitResolve (owner : String) (expectedRevision : Int) (identity reservation : String)
      (failure : Option String)
  | checkpoint (owner : String) (expectedRevision : Int) (sourceCommit : String)
  | rollback (checkpointName : String)
  | accept (request : PredicateLedger.Request)
  | bindSpec (owner : String) (expectedRevision : Int) (specRef : String) (specRevision : Int)
  | bindWorktree (request : WorktreeRequest)
  | repairLegacyBinding (expectedRevision : Int) (worktreeKey note : String)
  | repairPredicateLedger (request : PredicateLedger.RepairRequest)
  | bindEnvelope (request : EnvelopeRequest)
  | replaceEnvelope (request : EnvelopeRequest)
  | executionStart (request : Execution.StartRequest)
  | executionResult (expectedRevision : Option Int) (request : Execution.ReceiptRequest)
  | executionFinish (owner executionId : String) (expectedRevision : Option Int) (note : String)
  | autonomyDispose (owner : String) (expectedRevision : Int) (reason : String)
  | autonomyPreflight (request : AutonomyRequest) (diffBytes : Int)
  | autonomyRecord (request : AutonomyRequest) (report : AutonomyLimits.Report)

/-- The kind under which a mutation is dispatched and recorded. -/
def Mutation.kind : Mutation → String
  | .claim .. => "claim"
  | .heartbeat .. => "heartbeat"
  | .release .. => "release"
  | .update .. => "update"
  | .promote .. => "promote"
  | .pause .. => "pause"
  | .resume .. => "resume"
  | .unblock .. => "unblock"
  | .recoverExpired .. => "recover-expired"
  | .recoverExecution .. => "recover-execution"
  | .abandonExecution .. => "abandon-execution"
  | .gate .. => "gate"
  | .changeDrift .. => "change-drift"
  | .assumption .. => "assumption"
  | .retryCircuit .. => "retry-circuit"
  | .retryCircuitReserve .. => "retry-circuit-reserve"
  | .retryCircuitResolve .. => "retry-circuit-resolve"
  | .checkpoint .. => "checkpoint"
  | .rollback .. => "rollback"
  | .accept .. => "accept"
  | .bindSpec .. => "bind-spec"
  | .bindWorktree .. => "bind-worktree"
  | .repairLegacyBinding .. => "repair-legacy-binding"
  | .repairPredicateLedger .. => "repair-predicate-ledger"
  | .bindEnvelope .. => "bind-envelope"
  | .replaceEnvelope .. => "replace-envelope"
  | .executionStart .. => "execution-start"
  | .executionResult .. => "execution-result"
  | .executionFinish .. => "execution-finish"
  | .autonomyDispose .. => "autonomy-limits"
  | .autonomyPreflight .. => "autonomy-limits-preflight"
  | .autonomyRecord .. => "autonomy-limits-record"

/-- The trigger of the session record that a mutation leaves, when it leaves one. -/
def Mutation.sessionTrigger : Mutation → Option String
  | .update request => Records.sessionTriggerOf "update" request.sessionTrigger
  | .pause .. => Records.sessionTriggerOf "pause" none
  | _ => none

/-- Only the repair of a ledger is validated without the ledger. -/
def Mutation.includeLedger : Mutation → Bool
  | .repairPredicateLedger _ => false
  | _ => true

/-- The revision that a command line demands of its target. -/
def Mutation.expectedRevision : Mutation → Option Int
  | .claim request => request.receiptRevision
  | .heartbeat _ _ expected | .executionResult expected _ | .executionFinish _ _ expected _
  | .recoverExecution expected => expected
  | .release .. | .rollback _ => none
  | .update request => request.expectedRevision
  | .promote expected _ | .pause _ expected _ | .resume expected _ _ | .unblock expected _
  | .recoverExpired expected _ _ | .retryCircuit _ expected _ _ _ | .retryCircuitReserve _ expected _
  | .retryCircuitResolve _ expected _ _ _ | .checkpoint _ expected _ | .bindSpec _ expected _ _
  | .repairLegacyBinding expected _ _ | .autonomyDispose _ expected _ => some expected
  | .abandonExecution request => request.expectedRevision
  | .gate request => some request.expectedRevision
  | .changeDrift request => some request.expectedRevision
  | .assumption request => some request.expectedRevision
  | .accept request => some request.expectedRevision
  | .bindWorktree request => some request.expectedRevision
  | .repairPredicateLedger request => some request.expectedRevision
  | .bindEnvelope request | .replaceEnvelope request => some request.expectedRevision
  | .executionStart request => some request.expectedRevision
  | .autonomyPreflight request _ | .autonomyRecord request _ => some request.expectedRevision

def applyTransition (ctx : Context) (task : Meta) : Mutation → Outcome (Meta × String)
  | .claim request => applyClaim ctx task request
  | .heartbeat ownerId leaseMinutes expected => applyHeartbeat ctx task ownerId leaseMinutes expected
  | .release ownerId releasedTo note => applyRelease ctx task ownerId releasedTo note
  | .update request => applyUpdate ctx task request
  | .promote expected note => applyPromote ctx task expected note
  | .pause ownerId expected note => applyPause ctx task ownerId expected note
  | .resume expected session note => applyResume ctx task expected session note
  | .unblock expected note => applyUnblock ctx task expected note
  | .recoverExpired expected note allowLegacy => applyRecoverExpired ctx task expected note allowLegacy
  | .recoverExecution expected => Execution.recover ctx.world task expected
  | .abandonExecution request => Execution.abandon ctx.world task request
  | .gate request => applyGate ctx task request
  | .changeDrift request => ChangeDrift.apply ctx.files ctx.world task { request with task := ctx.name }
  | .assumption request =>
      AssumptionRevalidation.apply ctx.files ctx.world task ctx.metas { request with task := ctx.name }
  | .retryCircuit ownerId expected attempt action reason =>
      RetryCircuit.apply task ownerId expected attempt action reason ctx.world.now
  | .retryCircuitReserve ownerId expected slot => RetryCircuit.applyReserve task ownerId expected slot ctx.world.now
  | .retryCircuitResolve ownerId expected identity slot failure =>
      RetryCircuit.applyResolve task ownerId expected identity slot failure ctx.world.now
  | .checkpoint ownerId expected sourceCommit => applyCheckpoint ctx task ownerId expected sourceCommit
  | .rollback checkpointName => applyRollback ctx task checkpointName
  | .accept request => applyAccept ctx task request
  | .bindSpec ownerId expected specRef specRevision => applyBindSpec ctx task ownerId expected specRef specRevision
  | .bindWorktree request => applyBindWorktree ctx task request
  | .repairLegacyBinding expected key note => PredicateLedger.repairLegacyBinding task expected key note
  | .repairPredicateLedger request => PredicateLedger.repair ctx.files task request
  | .bindEnvelope request => applyBindEnvelope ctx task request
  | .replaceEnvelope request => applyReplaceEnvelope ctx task request
  | .executionStart request => Execution.start ctx.world task { request with task := ctx.name }
  | .executionResult expected request => Execution.result task expected request
  | .executionFinish ownerId executionId expected note => Execution.finish task ownerId executionId expected note
  | .autonomyDispose ownerId expected reason =>
      AutonomyLimits.applyDispose task ownerId expected reason ctx.world.now
  | .autonomyPreflight request diffBytes => applyAutonomyPreflight ctx task request diffBytes
  | .autonomyRecord request report => applyAutonomyRecord ctx task request report

/-! What a check that passes says. -/

def Unowned (task : Meta) : Prop := (owner task).truthy = false ∧ (claimExpires task).truthy = false

theorem requireStatus_eq_ok {task : Meta} {expected message : String} :
    requireStatus task expected message = .ok () ↔ status task = .str expected := by
  rw [requireStatus, raiseIf_eq_ok, bne, Bool.not_eq_false', Json.beq_str]

theorem requireNoClaim_eq_ok {ctx : Context} {task : Meta} : requireNoClaim ctx task = .ok () ↔ Unowned task := by
  rw [requireNoClaim, raiseIf_eq_ok, Bool.or_eq_false_iff, Unowned]

theorem requireDependencies_eq_ok {ctx : Context} {task : Meta} :
    requireDependencies ctx task = .ok () ↔ pendingDependencies task ctx.tasks = [] := by
  rw [requireDependencies, raiseIf_eq_ok, Bool.not_eq_false', List.isEmpty_iff]

theorem requireNoBoundExecution_eq_ok {task : Meta} :
    requireNoBoundExecution task = .ok () ↔ (reservation task).isNull = true := by
  rw [requireNoBoundExecution, raiseIf_eq_ok, Bool.not_eq_false']

end Coordinator.Transitions
