import Coordinator.Kit.Frame
import Coordinator.Transitions

/-! What each transition may write. The handlers of a mutation change only the listed fields of
their target, whatever the arguments and the world. -/

namespace Coordinator.Transitions
open Kit TaskGraph Dict

/-- A handler returns metadata that differs from its target only under the listed fields. -/
abbrev Writes (names : List String) (task : Meta) (x : Outcome (Meta × String)) : Prop :=
  Ensures (fun result => Within names task result.1) x

def claimFields : List String := ["owner", "claim_expires", "claim_process"]

theorem clearClaim_within {names : List String} {before after : Meta} (frame : Within names before after)
    (listed : ∀ name ∈ claimFields, name ∈ names) : Within names before (clearClaim after) :=
  ((frame.set (listed _ (by simp [claimFields])) _).set (listed _ (by simp [claimFields])) _).pop
    (listed _ (by simp [claimFields]))

/-- Closing the claim and moving to another status. -/
theorem closed_within (task : Meta) (status : Json) :
    Within ("status" :: claimFields) task (clearClaim (task.set "status" status)) :=
  clearClaim_within ((within_refl _ task).set (by simp) status) (fun _ member => by simp [member])

section handlers

variable (ctx : Context) (task : Meta)

theorem attachClaimProcess_within {names : List String} {before : Meta} (frame : Within names before task)
    (listed : "claim_process" ∈ names) (pid start : Option Int) :
    Ensures (Within names before) (attachClaimProcess ctx.world task pid start) := by
  unfold attachClaimProcess
  refine .bind fun identity _ => ?_
  cases identity with
  | none => exact .pure (frame.pop listed)
  | some identity => exact .pure ((frame.pop listed).set listed _)

theorem applyClaim_within (request : ClaimRequest) :
    Writes ("status" :: claimFields) task (applyClaim ctx task request) := by
  unfold applyClaim
  iterate 7 refine .bind fun _ _ => ?_
  refine .bind fun claimed attached => .bind fun lease _ => .pure ?_
  have opened : Within ("status" :: claimFields) task
      ((task.set "owner" (.str request.owner)).set "status" (.str "in_progress")) :=
    ((within_refl _ task).set (by simp [claimFields]) _).set (by simp) _
  exact (attachClaimProcess_within ctx _ opened (by simp [claimFields]) _ _ claimed attached).set
    (by simp [claimFields]) _

theorem applyHeartbeat_within (ownerId : String) (minutes : Int) (expected : Option Int) :
    Writes ["claim_expires"] task (applyHeartbeat ctx task ownerId minutes expected) := by
  unfold applyHeartbeat
  iterate 5 refine .bind fun _ _ => ?_
  exact .pure ((within_refl _ task).set (by simp) _)

theorem applyRelease_within (ownerId releasedTo note : String) :
    Writes ("status" :: claimFields) task (applyRelease ctx task ownerId releasedTo note) := by
  unfold applyRelease
  iterate 4 refine .bind fun _ _ => ?_
  exact .pure (closed_within task _)

def updateFields : List String := ["status", "priority", "summary", "next_action", "autonomy_limits"]

theorem setGiven_within {names : List String} {before after : Meta} {key : String} (frame : Within names before after)
    (listed : key ∈ names) (value : Option String) : Within names before (setGiven after key value) := by
  cases value with
  | none => exact frame
  | some word => exact frame.set listed _

theorem carryRunHold_within {names : List String} {before after : Meta} (frame : Within names before after)
    (listed : "autonomy_limits" ∈ names) (trigger : Option String) (kind : String) :
    Within names before (AutonomyLimits.carryRunHold trigger kind after) := by
  simp only [AutonomyLimits.carryRunHold]
  split
  · exact frame.set listed _
  · exact frame

theorem applyUpdate_within (request : UpdateRequest) : Writes updateFields task (applyUpdate ctx task request) := by
  unfold applyUpdate
  iterate 5 refine .bind fun _ _ => ?_
  refine .pure (carryRunHold_within ?_ (by simp [updateFields]) _ _)
  iterate 4 refine setGiven_within ?_ (by simp [updateFields]) _
  exact within_refl _ task

theorem applyPromote_within (expected : Int) (note : String) :
    Writes ["status"] task (applyPromote ctx task expected note) := by
  unfold applyPromote
  iterate 6 refine .bind fun _ _ => ?_
  exact .pure ((within_refl _ task).set (by simp) _)

theorem applyPause_within (ownerId : String) (expected : Int) (note : String) :
    Writes ("status" :: claimFields) task (applyPause ctx task ownerId expected note) := by
  unfold applyPause
  iterate 6 refine .bind fun _ _ => ?_
  exact .pure (closed_within task _)

theorem applyResume_within (expected : Int) (session note : String) :
    Writes ["next_action", "status"] task (applyResume ctx task expected session note) := by
  unfold applyResume
  iterate 4 refine .bind fun _ _ => ?_
  exact .pure (((within_refl _ task).set (by simp) _).set (by simp) _)

theorem applyUnblock_within (expected : Int) (note : String) :
    Writes ["status"] task (applyUnblock ctx task expected note) := by
  unfold applyUnblock
  iterate 4 refine .bind fun _ _ => ?_
  exact .pure ((within_refl _ task).set (by simp) _)

/-! The retry circuit lives in one field. -/

theorem cleanupExpired_within (recordedAt : String) :
    Ensures (fun result => Within ["retry_circuit"] task result.1) (RetryCircuit.cleanupExpired task recordedAt) := by
  unfold RetryCircuit.cleanupExpired
  iterate 2 refine .bind fun _ _ => ?_
  refine .ite (fun _ => .pure (within_refl _ task)) (fun _ => .bind fun _ _ => .pure ?_)
  exact (within_refl _ task).set (by simp) _

theorem requireNoLiveReservation_within (recordedAt : String) :
    Ensures (Within ["retry_circuit"] task) (RetryCircuit.requireNoLiveReservation task recordedAt) := by
  unfold RetryCircuit.requireNoLiveReservation
  refine .bind fun cleaned returned => .bind fun _ _ => .pure ?_
  exact cleanupExpired_within task recordedAt cleaned returned

theorem recordFailure_within {before : Meta} (frame : Within ["retry_circuit"] before task)
    (identity failure : String) (window : Int) (recordedAt : String) :
    Writes ["retry_circuit"] before (RetryCircuit.recordFailure task identity failure window recordedAt) := by
  unfold RetryCircuit.recordFailure
  iterate 5 refine .bind fun _ _ => ?_
  exact .pure (frame.set (by simp) _)

theorem retryReserve_within (identity : String) (window : Int) (slot recordedAt expiresAt : String) :
    Writes ["retry_circuit"] task (RetryCircuit.reserve task identity window slot recordedAt expiresAt) := by
  unfold RetryCircuit.reserve
  iterate 5 refine .bind fun _ _ => ?_
  refine .bind fun cleaned returned => ?_
  iterate 4 refine .bind fun _ _ => ?_
  exact .pure ((cleanupExpired_within task recordedAt cleaned returned).set (by simp) _)

theorem retryResolve_within (identity slot : String) (failure : Option String) (recordedAt : String) :
    Writes ["retry_circuit"] task (RetryCircuit.resolve task identity slot failure recordedAt) := by
  unfold RetryCircuit.resolve
  iterate 2 refine .bind fun _ _ => ?_
  have written (value : Json) : Within ["retry_circuit"] task (task.set "retry_circuit" value) :=
    (within_refl _ task).set (by simp) value
  cases failure with
  | none =>
    refine .ite (fun _ => .pure ((written _).pop (by simp))) (fun _ => .bind fun _ _ => .pure (written _))
  | some failure => exact recordFailure_within _ (written _) _ _ _ _

theorem retryRecover_within {before : Meta} (frame : Within ["retry_circuit"] before task)
    (identity kind reason recordedAt : String) :
    Writes ["retry_circuit"] before (RetryCircuit.recover task identity kind reason recordedAt) := by
  unfold RetryCircuit.recover
  iterate 6 refine .bind fun _ _ => ?_
  exact .pure (frame.set (by simp) _)

theorem retryApply_within (ownerId : String) (expected : Int) (attempt action reason recordedAt : String) :
    Writes ["retry_circuit"] task
      (RetryCircuit.apply task ownerId expected attempt action reason recordedAt) := by
  unfold RetryCircuit.apply
  iterate 2 refine .bind fun _ _ => ?_
  refine .bind fun cleaned returned => ?_
  exact retryRecover_within cleaned (requireNoLiveReservation_within task recordedAt cleaned returned) _ _ _ _

theorem applyReserve_within (ownerId : String) (expected : Int) (slot : RetryCircuit.SlotRequest)
    (recordedAt : String) :
    Writes ["retry_circuit"] task (RetryCircuit.applyReserve task ownerId expected slot recordedAt) := by
  unfold RetryCircuit.applyReserve
  iterate 2 refine .bind fun _ _ => ?_
  exact retryReserve_within task _ _ _ _ _

theorem applyResolve_within (ownerId : String) (expected : Int) (identity slot : String) (failure : Option String)
    (recordedAt : String) :
    Writes ["retry_circuit"] task
      (RetryCircuit.applyResolve task ownerId expected identity slot failure recordedAt) := by
  unfold RetryCircuit.applyResolve
  iterate 3 refine .bind fun _ _ => ?_
  exact retryResolve_within task _ _ _ _

/-! Recovery, executions and repairs. -/

def recoveryFields : List String := ["retry_circuit", "next_action", "status"] ++ claimFields

theorem recoveryEvidence_within {names : List String} {before : Meta} (frame : Within names before task)
    (listed : "next_action" ∈ names) (current : Option Json) (note : String) (allowLegacy : Bool) :
    Writes names before (recoveryEvidence ctx task current note allowLegacy) := by
  unfold recoveryEvidence
  cases current with
  | some session => exact .pure (frame.set listed _)
  | none => exact .ite (fun _ => .pure frame) (fun _ => .bind fun _ _ => .pure frame)

theorem applyRecoverExpired_within (expected : Int) (note : String) (allowLegacy : Bool) :
    Writes recoveryFields task (applyRecoverExpired ctx task expected note allowLegacy) := by
  unfold applyRecoverExpired
  iterate 6 refine .bind fun _ _ => ?_
  refine .bind fun cleaned returned => ?_
  iterate 2 refine .bind fun _ _ => ?_
  refine .bind fun evident found => .pure ?_
  have swept : Within recoveryFields task cleaned :=
    (requireNoLiveReservation_within task _ cleaned returned).mono (by simp [recoveryFields])
  have noted : Within recoveryFields task evident.1 :=
    recoveryEvidence_within ctx cleaned swept (by simp [recoveryFields]) _ _ _ evident found
  exact clearClaim_within (noted.set (by simp [recoveryFields]) _) (fun _ member => by simp [recoveryFields, member])

theorem recoverExecution_within (expected : Option Int) :
    Writes ["execution_reservation"] task (Execution.recover ctx.world task expected) := by
  unfold Execution.recover
  iterate 5 refine .bind fun _ _ => ?_
  exact .pure ((within_refl _ task).pop (by simp))

def abandonFields : List String := ["execution_abandonments", "execution_reservation", "status"] ++ claimFields

theorem abandon_within (request : Execution.AbandonRequest) :
    Writes abandonFields task (Execution.abandon ctx.world task request) := by
  unfold Execution.abandon
  iterate 4 refine .bind fun _ _ => ?_
  have written (records : Json) : Within abandonFields task
      (clearClaim ((((task.set "execution_abandonments" records).pop "execution_reservation").set
        "status" (.str "open")))) :=
    clearClaim_within ((((within_refl _ task).set (by simp [abandonFields]) _).pop (by simp [abandonFields])).set
      (by simp [abandonFields]) _) (fun _ member => by simp [abandonFields, member])
  split
  · iterate 4 refine .bind fun _ _ => ?_
    exact .pure (written _)
  · iterate 5 refine .bind fun _ _ => ?_
    exact .pure (written _)

theorem start_within (request : Execution.StartRequest) :
    Writes ["execution_reservation", "claim_expires"] task (Execution.start ctx.world task request) := by
  unfold Execution.start
  iterate 9 refine .bind fun _ _ => ?_
  have reserved (value : Json) : Within ["execution_reservation", "claim_expires"] task
      (task.set "execution_reservation" value) := (within_refl _ task).set (by simp) value
  refine .pure ?_
  split
  · exact (reserved _).set (by simp) _
  · exact reserved _

theorem finish_within (ownerId executionId : String) (expected : Option Int) (note : String) :
    Writes ["execution_reservation"] task (Execution.finish task ownerId executionId expected note) := by
  unfold Execution.finish
  iterate 4 refine .bind fun _ _ => ?_
  exact .pure ((within_refl _ task).pop (by simp))

theorem result_within (expected : Option Int) (request : Execution.ReceiptRequest) :
    Writes ["execution_result"] task (Execution.result task expected request) := by
  unfold Execution.result
  iterate 4 refine .bind fun _ _ => ?_
  exact .pure ((within_refl _ task).set (by simp) _)

theorem repair_within (request : PredicateLedger.RepairRequest) :
    Writes ["evidence_ledger"] task (PredicateLedger.repair ctx.files task request) := by
  unfold PredicateLedger.repair
  iterate 14 refine .bind fun _ _ => ?_
  exact .pure ((within_refl _ task).set (by simp) _)

theorem repairLegacyBinding_within (expected : Int) (key note : String) :
    Writes ["worktree_key"] task (PredicateLedger.repairLegacyBinding task expected key note) := by
  unfold PredicateLedger.repairLegacyBinding
  iterate 5 refine .bind fun _ _ => ?_
  exact .pure ((within_refl _ task).set (by simp) _)

/-! Records of the owner: drift, assumptions, acceptance and bindings. -/

theorem changeDrift_within (request : ChangeDrift.Request) :
    Writes ["change_drift"] task (ChangeDrift.apply ctx.files ctx.world task request) := by
  unfold ChangeDrift.apply
  iterate 6 refine .bind fun _ _ => ?_
  dsimp only
  split
  · exact .throw _
  · iterate 2 refine .bind fun _ _ => ?_
    exact .pure ((within_refl _ task).set (by simp) _)

theorem assumption_within (metas : List Meta) (request : AssumptionRevalidation.Request) :
    Writes ["assumption_revalidation"] task
      (AssumptionRevalidation.apply ctx.files ctx.world task metas request) := by
  unfold AssumptionRevalidation.apply
  iterate 13 refine .bind fun _ _ => ?_
  exact .pure ((within_refl _ task).set (by simp) _)

def acceptFields : List String := ["spec_acceptance", "evidence_ledger"]

theorem applyPredicateAcceptance_within (request : PredicateLedger.Request) (inputs : PredicateLedger.PredicateInputs) :
    Writes acceptFields task (PredicateLedger.applyPredicateAcceptance ctx.files task request inputs) := by
  unfold PredicateLedger.applyPredicateAcceptance
  iterate 6 refine .bind fun _ _ => ?_
  exact .pure ((within_refl _ task).set (by simp [acceptFields]) _)

theorem applyAccept_within (request : PredicateLedger.Request) :
    Writes acceptFields task (applyAccept ctx task request) := by
  unfold applyAccept PredicateLedger.applyAcceptance
  iterate 4 refine .bind fun _ _ => ?_
  refine .bind fun stale _ => ?_
  cases stale with
  | some error => exact .throw _
  | none =>
    refine .bind fun inputs _ => ?_
    cases inputs with
    | some inputs => exact applyPredicateAcceptance_within ctx task _ inputs
    | none =>
      dsimp only
      split
      · exact .throw _
      · exact .pure ((within_refl _ task).set (by simp [acceptFields]) _)

theorem applyBindSpec_within (ownerId : String) (expected : Int) (specRef : String) (specRevision : Int) :
    Writes ["spec_ref", "spec_revision"] task (applyBindSpec ctx task ownerId expected specRef specRevision) := by
  unfold applyBindSpec
  iterate 7 refine .bind fun _ _ => ?_
  exact .pure (((within_refl _ task).set (by simp) _).set (by simp) _)

theorem applyBindWorktree_within (request : WorktreeRequest) :
    Writes ["branch", "worktree_key"] task (applyBindWorktree ctx task request) := by
  unfold applyBindWorktree
  iterate 2 refine .bind fun _ _ => ?_
  exact .pure (((within_refl _ task).set (by simp) _).set (by simp) _)

theorem bind_within {names : List String} {before : Meta} (frame : Within names before task)
    (listed : ∀ name ∈ ExecutionEnvelope.bindingFields, name ∈ names) (request : ExecutionEnvelope.Request)
    (envelope : Json) : Within names before (ExecutionEnvelope.bind task request envelope) := by
  unfold ExecutionEnvelope.bind
  iterate 5 refine Within.set ?_ (listed _ (by simp [ExecutionEnvelope.bindingFields])) _
  exact frame

theorem applyBindEnvelope_within (request : EnvelopeRequest) :
    Writes ExecutionEnvelope.bindingFields task (applyBindEnvelope ctx task request) := by
  unfold applyBindEnvelope
  iterate 5 refine .bind fun _ _ => ?_
  exact .pure (bind_within task (within_refl _ task) (fun _ member => member) _ _)

def replacementFields : List String := "execution_envelope_replacements" :: ExecutionEnvelope.bindingFields

theorem applyReplaceEnvelope_within (request : EnvelopeRequest) :
    Writes replacementFields task (applyReplaceEnvelope ctx task request) := by
  unfold applyReplaceEnvelope ExecutionEnvelope.replaceBound
  iterate 18 refine .bind fun _ _ => ?_
  exact .pure (bind_within _ ((within_refl _ task).set (by simp [replacementFields]) _)
    (fun _ member => by simp [replacementFields, member]) _ _)

/-! Checkpoints, gates and autonomy. -/

theorem applyCheckpoint_within (ownerId : String) (expected : Int) (sourceCommit : String) :
    Writes ["checkpoint_commit"] task (applyCheckpoint ctx task ownerId expected sourceCommit) := by
  unfold applyCheckpoint
  iterate 3 refine .bind fun _ _ => ?_
  exact .pure ((within_refl _ task).set (by simp) _)

def restoredFields : List String := ["short_title"] ++ rollbackFields ++ ["status"] ++ claimFields

theorem restored_within (state : Json) : Within restoredFields task (restored task state) := by
  have fields (names : List String) (listed : ∀ name ∈ names, name ∈ restoredFields) :
      ∀ current : Meta, Within restoredFields task current → Within restoredFields task
        (names.foldl (fun current field =>
          if state.has field then current.set field (state.get field) else current) current) := by
    induction names with
    | nil => exact fun _ frame => frame
    | cons name rest ih =>
      intro current frame
      refine ih (fun other member => listed other (by simp [member])) _ ?_
      dsimp only
      split
      · exact frame.set (listed name (by simp)) _
      · exact frame
  unfold restored
  refine fields rollbackFields (fun _ member => by simp [restoredFields, member]) _ ?_
  split
  · exact (within_refl _ task).set (by simp [restoredFields]) _
  · exact (within_refl _ task).pop (by simp [restoredFields])

theorem applyRollback_within (checkpointName : String) :
    Writes restoredFields task (applyRollback ctx task checkpointName) := by
  unfold applyRollback
  iterate 3 refine .bind fun _ _ => ?_
  refine .pure (Within.set ?_ (by simp [restoredFields, rollbackFields]) _)
  exact clearClaim_within ((restored_within task _).set (by simp [restoredFields]) _)
    (fun _ member => by simp [restoredFields, member])

theorem applyGate_within (request : GateRequest) :
    Writes ["oracle_gate"] task (applyGate ctx task request) := by
  unfold applyGate OracleLifecycle.applyEvent
  iterate 13 refine .bind fun _ _ => ?_
  exact .pure ((within_refl _ task).set (by simp) _)

theorem applyPreflight_within (policy : Option AutonomyLimits.Policy) (at_ : String) (diffBytes : Int) :
    Ensures (fun result => Within ["autonomy_limits"] task result.1)
      (AutonomyLimits.applyPreflight task policy at_ diffBytes) := by
  unfold AutonomyLimits.applyPreflight
  cases policy with
  | none => exact .pure (within_refl _ task)
  | some selected =>
    iterate 2 refine .bind fun _ _ => ?_
    split
    · exact .pure ((within_refl _ task).set (by simp) _)
    · exact .pure ((within_refl _ task).set (by simp) _)

theorem applyAutonomyPreflight_within (request : AutonomyRequest) (diffBytes : Int) :
    Writes ["autonomy_limits"] task (applyAutonomyPreflight ctx task request diffBytes) := by
  unfold applyAutonomyPreflight
  refine .bind fun _ _ => .bind fun outcome returned => .pure ?_
  exact applyPreflight_within task _ _ _ outcome returned

theorem applyAutonomyRecord_within (request : AutonomyRequest) (report : AutonomyLimits.Report) :
    Writes ["autonomy_limits"] task (applyAutonomyRecord ctx task request report) := by
  unfold applyAutonomyRecord AutonomyLimits.applyRecord
  refine .bind fun _ _ => ?_
  cases request.policy with
  | none => exact .pure (within_refl _ task)
  | some selected =>
    iterate 2 refine .bind fun _ _ => ?_
    dsimp only
    split
    · exact .pure ((within_refl _ task).set (by simp) _)
    · exact .pure ((within_refl _ task).set (by simp) _)

theorem applyDispose_within (ownerId : String) (expected : Int) (reason at_ : String) :
    Writes ["autonomy_limits"] task (AutonomyLimits.applyDispose task ownerId expected reason at_) := by
  unfold AutonomyLimits.applyDispose
  iterate 5 refine .bind fun _ _ => ?_
  exact .pure ((within_refl _ task).set (by simp) _)

end handlers

/-- The fields that a mutation may write before its revision advances. -/
def Mutation.writes : Mutation → List String
  | .claim .. | .release .. | .pause .. => "status" :: claimFields
  | .heartbeat .. => ["claim_expires"]
  | .update .. => updateFields
  | .promote .. | .unblock .. => ["status"]
  | .resume .. => ["next_action", "status"]
  | .recoverExpired .. => recoveryFields
  | .recoverExecution .. | .executionFinish .. => ["execution_reservation"]
  | .abandonExecution .. => abandonFields
  | .gate .. => ["oracle_gate"]
  | .changeDrift .. => ["change_drift"]
  | .assumption .. => ["assumption_revalidation"]
  | .retryCircuit .. | .retryCircuitReserve .. | .retryCircuitResolve .. => ["retry_circuit"]
  | .checkpoint .. => ["checkpoint_commit"]
  | .rollback .. => restoredFields
  | .accept .. => acceptFields
  | .bindSpec .. => ["spec_ref", "spec_revision"]
  | .bindWorktree .. => ["branch", "worktree_key"]
  | .repairLegacyBinding .. => ["worktree_key"]
  | .repairPredicateLedger .. => ["evidence_ledger"]
  | .bindEnvelope .. => ExecutionEnvelope.bindingFields
  | .replaceEnvelope .. => replacementFields
  | .executionStart .. => ["execution_reservation", "claim_expires"]
  | .executionResult .. => ["execution_result"]
  | .autonomyDispose .. | .autonomyPreflight .. | .autonomyRecord .. => ["autonomy_limits"]

/-- Every mutation keeps to its fields. -/
theorem transition_within (ctx : Context) (task : Meta) (m : Mutation) :
    Writes m.writes task (applyTransition ctx task m) := by
  cases m with
  | claim request => exact applyClaim_within ctx task request
  | heartbeat ownerId minutes expected => exact applyHeartbeat_within ctx task ownerId minutes expected
  | release ownerId releasedTo note => exact applyRelease_within ctx task ownerId releasedTo note
  | update request => exact applyUpdate_within ctx task request
  | promote expected note => exact applyPromote_within ctx task expected note
  | pause ownerId expected note => exact applyPause_within ctx task ownerId expected note
  | resume expected session note => exact applyResume_within ctx task expected session note
  | unblock expected note => exact applyUnblock_within ctx task expected note
  | recoverExpired expected note allowLegacy => exact applyRecoverExpired_within ctx task expected note allowLegacy
  | recoverExecution expected => exact recoverExecution_within ctx task expected
  | abandonExecution request => exact abandon_within ctx task request
  | gate request => exact applyGate_within ctx task request
  | changeDrift request => exact changeDrift_within ctx task _
  | assumption request => exact assumption_within ctx task _ _
  | retryCircuit ownerId expected attempt action reason => exact retryApply_within task ownerId expected _ _ _ _
  | retryCircuitReserve ownerId expected slot => exact applyReserve_within task ownerId expected slot _
  | retryCircuitResolve ownerId expected identity slot failure =>
    exact applyResolve_within task ownerId expected identity slot failure _
  | checkpoint ownerId expected sourceCommit => exact applyCheckpoint_within ctx task ownerId expected sourceCommit
  | rollback checkpointName => exact applyRollback_within ctx task checkpointName
  | accept request => exact applyAccept_within ctx task request
  | bindSpec ownerId expected specRef specRevision => exact applyBindSpec_within ctx task ownerId expected _ _
  | bindWorktree request => exact applyBindWorktree_within ctx task request
  | repairLegacyBinding expected key note => exact repairLegacyBinding_within task expected key note
  | repairPredicateLedger request => exact repair_within ctx task request
  | bindEnvelope request => exact applyBindEnvelope_within ctx task request
  | replaceEnvelope request => exact applyReplaceEnvelope_within ctx task request
  | executionStart request => exact start_within ctx task _
  | executionResult expected request => exact result_within task expected request
  | executionFinish ownerId executionId expected note => exact finish_within task ownerId executionId expected note
  | autonomyDispose ownerId expected reason => exact applyDispose_within task ownerId expected reason _
  | autonomyPreflight request diffBytes => exact applyAutonomyPreflight_within ctx task request diffBytes
  | autonomyRecord request report => exact applyAutonomyRecord_within ctx task request report

/-- No mutation writes what a task is, at which revision it stands or what was observed of it. -/
theorem not_mem_writes (m : Mutation) {key : String}
    (fixed : key ∈ ["id", "task_revision", "updated_at", "observed_branch", "observed_head", "observed_dirty"]) :
    key ∉ m.writes := by
  revert key
  cases m <;> (simp only [Mutation.writes]; decide)

/-- A mutation whose fields leave the status out keeps it. -/
theorem status_kept {ctx : Context} {task after : Meta} {m : Mutation} {note : String}
    (done : applyTransition ctx task m = .ok (after, note)) (apart : "status" ∉ m.writes) :
    status after = status task := (transition_within ctx task m (after, note) done).get apart

/-! Where each mutation leaves the status. -/

/-- The state that a rollback restores, null when the checkpoint cannot be found. -/
def rollbackState (ctx : Context) (checkpointName : String) : Json :=
  match Records.findCheckpoint ctx.checkpoints checkpointName with
  | .ok checkpoint => checkpoint.get "state"
  | .error _ => .null

/-- The status that a mutation gives its target. -/
def landing (ctx : Context) (task : Meta) : Mutation → Json
  | .claim _ => .str "in_progress"
  | .release _ releasedTo _ => .str releasedTo
  | .update request => request.status.elim (status task) .str
  | .promote .. | .resume .. | .unblock .. | .recoverExpired .. | .abandonExecution .. => .str "open"
  | .pause .. => .str "blocked"
  | .rollback checkpointName => restoredStatus (rollbackState ctx checkpointName)
  | _ => status task

@[simp] theorem status_clearClaim (task : Meta) : status (clearClaim task) = status task := by
  simp [status, clearClaim]

@[simp] theorem status_set_status (task : Meta) (value : Json) : status (task.set "status" value) = value := by
  simp [status]

theorem status_set_of_ne {task : Meta} {key : String} (other : "status" ≠ key) (value : Json) :
    status (task.set key value) = status task := by
  simp [status, other]

section landings

variable (ctx : Context) (task : Meta)

/-- The handler's result has a status. -/
abbrev Lands (value : Json) (x : Outcome (Meta × String)) : Prop := Ensures (fun result => status result.1 = value) x

theorem applyClaim_lands (request : ClaimRequest) : Lands (.str "in_progress") (applyClaim ctx task request) := by
  unfold applyClaim
  iterate 7 refine .bind fun _ _ => ?_
  refine .bind fun claimed attached => .bind fun lease _ => .pure ?_
  have kept := (attachClaimProcess_within ctx _ (within_refl ["claim_process"] _) (by simp) _ _ claimed attached).get
    (show "status" ∉ _ by decide)
  rw [status_set_of_ne (by decide), status, kept]
  simp

theorem updated_status (request : UpdateRequest) :
    status (updated task request) = request.status.elim (status task) .str := by
  have kept (key : String) (other : "status" ≠ key) (current : Meta) (value : Option String) :
      status (setGiven current key value) = status current := by
    cases value with
    | none => rfl
    | some word => exact status_set_of_ne other _
  rw [updated, kept _ (by decide), kept _ (by decide), kept _ (by decide)]
  cases request.status with
  | none => rfl
  | some word => exact status_set_status task _

theorem applyUpdate_lands (request : UpdateRequest) :
    Lands (request.status.elim (status task) .str) (applyUpdate ctx task request) := by
  unfold applyUpdate
  iterate 5 refine .bind fun _ _ => ?_
  refine .pure ?_
  rw [← updated_status]
  exact (carryRunHold_within (within_refl ["autonomy_limits"] _) (by simp) _ _).get (by decide)

theorem applyRelease_lands (ownerId releasedTo note : String) :
    Lands (.str releasedTo) (applyRelease ctx task ownerId releasedTo note) := by
  unfold applyRelease
  iterate 4 refine .bind fun _ _ => ?_
  exact .pure (by simp)

theorem applyPromote_lands (expected : Int) (note : String) :
    Lands (.str "open") (applyPromote ctx task expected note) := by
  unfold applyPromote
  iterate 6 refine .bind fun _ _ => ?_
  exact .pure (by simp)

theorem applyPause_lands (ownerId : String) (expected : Int) (note : String) :
    Lands (.str "blocked") (applyPause ctx task ownerId expected note) := by
  unfold applyPause
  iterate 6 refine .bind fun _ _ => ?_
  exact .pure (by simp)

theorem applyResume_lands (expected : Int) (session note : String) :
    Lands (.str "open") (applyResume ctx task expected session note) := by
  unfold applyResume
  iterate 4 refine .bind fun _ _ => ?_
  exact .pure (by simp)

theorem applyUnblock_lands (expected : Int) (note : String) :
    Lands (.str "open") (applyUnblock ctx task expected note) := by
  unfold applyUnblock
  iterate 4 refine .bind fun _ _ => ?_
  exact .pure (by simp)

theorem applyRecoverExpired_lands (expected : Int) (note : String) (allowLegacy : Bool) :
    Lands (.str "open") (applyRecoverExpired ctx task expected note allowLegacy) := by
  unfold applyRecoverExpired
  iterate 9 refine .bind fun _ _ => ?_
  refine .bind fun evident _ => .pure ?_
  simp

theorem abandon_lands (request : Execution.AbandonRequest) :
    Lands (.str "open") (Execution.abandon ctx.world task request) := by
  unfold Execution.abandon
  iterate 4 refine .bind fun _ _ => ?_
  split
  · iterate 4 refine .bind fun _ _ => ?_
    exact .pure (by simp)
  · iterate 5 refine .bind fun _ _ => ?_
    exact .pure (by simp)

theorem applyRollback_lands (checkpointName : String) :
    Lands (restoredStatus (rollbackState ctx checkpointName)) (applyRollback ctx task checkpointName) := by
  unfold applyRollback
  refine .bind fun checkpoint found => ?_
  iterate 2 refine .bind fun _ _ => ?_
  refine .pure ?_
  rw [status_set_of_ne (by decide)]
  simp [rollbackState, found]

end landings

/-- Every accepted mutation leaves the status at its landing. -/
theorem status_landing {ctx : Context} {task after : Meta} {m : Mutation} {note : String}
    (applied : applyTransition ctx task m = .ok (after, note)) : status after = landing ctx task m := by
  cases m with
  | claim request => exact applyClaim_lands ctx task request (after, note) applied
  | release ownerId releasedTo word => exact applyRelease_lands ctx task ownerId releasedTo word (after, note) applied
  | update request => exact applyUpdate_lands ctx task request (after, note) applied
  | promote expected word => exact applyPromote_lands ctx task expected word (after, note) applied
  | pause ownerId expected word => exact applyPause_lands ctx task ownerId expected word (after, note) applied
  | resume expected session word => exact applyResume_lands ctx task expected session word (after, note) applied
  | unblock expected word => exact applyUnblock_lands ctx task expected word (after, note) applied
  | recoverExpired expected word allowLegacy =>
    exact applyRecoverExpired_lands ctx task expected word allowLegacy (after, note) applied
  | abandonExecution request => exact abandon_lands ctx task request (after, note) applied
  | rollback checkpointName => exact applyRollback_lands ctx task checkpointName (after, note) applied
  | _ => exact status_kept applied (by simp only [Mutation.writes]; decide)

end Coordinator.Transitions
