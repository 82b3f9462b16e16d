import Coordinator.Lease

/-! The two journals beside a task: session records of its progress and checkpoint records that
a rollback restores. Both are bounded and keep their newest entries. -/

namespace Coordinator.Records
open Kit

def maxSessionBytes : Nat := 4096
def maxSessionRecords : Nat := 32
def maxCheckpoints : Nat := 16
def triggers : List String := ["update", "run", "pause"]

def sessionFields : List String :=
  ["schema_version", "task", "task_revision", "recorded_at", "trigger", "status", "context_digest",
    "step_state", "artifact_refs", "next_action"]

def getOr (task : Meta) (key : String) (default : Json) : Json := (task.find key).getD default

def prefixedRef (lead : String) (value : Json) : List String :=
  if value.isStr && value.text != "" then [lead ++ value.text] else []

theorem lead_nonempty {lead : String} (led : lead ≠ "") (rest : String) : lead ++ rest ≠ "" :=
  fun empty => led (String.append_eq_empty_iff.mp empty).1

theorem prefixedRef_nonempty {lead : String} (led : lead ≠ "") (value : Json) :
    ∀ item ∈ prefixedRef lead value, item ≠ "" := by
  intro item member
  rw [prefixedRef] at member
  split at member
  · rw [List.mem_singleton.mp member]
    exact lead_nonempty led _
  · cases member

def ledgerArtifactRefs (ledger : Json) : List String :=
  prefixedRef "candidate:" (ledger.get "candidate_ref") ++
    ((ledger.get "steps").items.filter (fun step => step.isObj && (step.get "evidence_ref").isStr)).map
      (fun step => "evidence:" ++ (step.get "evidence_ref").text)

def sessionArtifactRefs (task : Meta) : List String :=
  let checkpoint := task.get "checkpoint_commit"
  ((prefixedRef "spec:" (task.get "spec_ref") ++ prefixedRef "envelope:" (task.get "execution_envelope_ref") ++
    prefixedRef "evidence:" ((task.get "spec_acceptance").get "evidence_ref") ++
    ledgerArtifactRefs (task.get "evidence_ledger") ++
    (if checkpoint.isStr && Text.hexText 40 checkpoint.text then ["git:" ++ checkpoint.text] else [])).reverse.dedup.reverse).take 8

def contextOf (task : Meta) : Json :=
  .obj [("task", task.get "id"), ("branch", getOr task "branch" (.str "")),
    ("worktree_key", getOr task "worktree_key" (.str "")), ("spec_ref", getOr task "spec_ref" (.str "")),
    ("spec_revision", getOr task "spec_revision" (.int 0)),
    ("execution_envelope_ref", getOr task "execution_envelope_ref" (.str "")),
    ("execution_envelope_revision", getOr task "execution_envelope_revision" (.int 0)),
    ("execution_envelope_digest", getOr task "execution_envelope_digest" (.str ""))]

def validateHeader (record : Json) : Outcome Unit := do
  raiseIf (!record.hasExactly sessionFields) (.error "session record fields are not exact")
  raiseIf ((record.get "schema_version").exactInt? != some 1) (.error "unsupported session record schema")
  raiseIf (!((record.get "task").isStr && ExecutionEnvelope.isTask (record.get "task").text))
    (.error "invalid session record task")
  raiseIf (!ExecutionEnvelope.positive (record.get "task_revision")) (.error "invalid session record revision")
  raiseIf (!RetryCircuit.nonemptyStr (record.get "recorded_at")) (.error "invalid session record timestamp")
  raiseIf (!RetryCircuit.oneOf (record.get "trigger") triggers) (.error "invalid session record trigger")
  raiseIf (!RetryCircuit.nonemptyStr (record.get "status")) (.error "invalid session record status")
  raiseIf (!((record.get "context_digest").isStr && Text.isDigest (record.get "context_digest").text))
    (.error "invalid session context digest")

def validateState (record : Json) : Outcome Unit := do
  let state := record.get "step_state"
  raiseIf (!state.hasExactly ["status", "task_revision"]) (.error "invalid session step state")
  raiseIf (!ExecutionEnvelope.positive (state.get "task_revision")) (.error "invalid session step revision")
  raiseIf (state.get "status" != record.get "status") (.error "session step status differs from record status")
  raiseIf (state.get "task_revision" != record.get "task_revision")
    (.error "session step revision differs from record revision")

def validatePayload (record : Json) : Outcome Unit := do
  let refs := record.get "artifact_refs"
  raiseIf (!refs.isArr || 8 < refs.items.length || !refs.items.all RetryCircuit.nonemptyStr)
    (.error "invalid session artifact refs")
  let next := record.get "next_action"
  raiseIf (!next.isStr || Text.contains '\n' next.text || 1024 < next.text.length)
    (.error "invalid session next action")
  raiseIf (maxSessionBytes < record.canonical.length) (.error "session record exceeds bounded size")

/-- Reject a malformed or overlarge session record. -/
def validateSessionRecord (record : Json) : Outcome Unit := do
  validateHeader record
  validateState record
  validatePayload record

/-- The snapshot of a task at one revision, without its notes. -/
def sessionSnapshot (task : Meta) (trigger recordedAt : String) : Json :=
  let status : Json := .str (task.get "status").toText
  .obj [("schema_version", .int 1), ("task", .str (task.get "id").toText),
    ("task_revision", .int (Meta.revision task)), ("recorded_at", .str recordedAt), ("trigger", .str trigger),
    ("status", status), ("context_digest", .str (RetryCircuit.digest (contextOf task))),
    ("step_state", .obj [("status", status), ("task_revision", .int (Meta.revision task))]),
    ("artifact_refs", .arr ((sessionArtifactRefs task).map .str)),
    ("next_action", .str (task.textOr "next_action"))]

def buildSessionRecord (task : Meta) (trigger recordedAt : String) : Outcome Json := do
  raiseIf (!triggers.contains trigger) (.error "unknown session trigger")
  let record := sessionSnapshot task trigger recordedAt
  validateSessionRecord record
  pure record

def revisionOf (record : Json) : Int := (record.get "task_revision").int?.getD 0

/-- A history as its reader accepts it: bounded, of one task and without a repeated revision. -/
def historyValid (taskId : String) (history : List Json) : Bool :=
  history.length ≤ maxSessionRecords &&
    history.all (fun record => allowed (validateSessionRecord record) && record.get "task" == .str taskId) &&
    RetryCircuit.distinct (history.map (·.get "task_revision"))

def loadSessionRecords (taskId : String) (history : List Json) : Outcome (List Json) := do
  raiseIf (!historyValid taskId history) (.error "session history is invalid")
  pure history

/-- Append one record to a history in which no record has its revision; the oldest ones drop out. -/
def insertSessionRecord (history : List Json) (record : Json) : Outcome (List Json) := do
  raiseIf (history.any (fun item => item.get "task_revision" == record.get "task_revision"))
    (.error "duplicate session revision")
  pure (AutonomyLimits.lastOf maxSessionRecords (history ++ [record]))

/-- Append one record to the history that a file holds, which its reader must accept. -/
def appendSessionRecord (history : List Json) (record : Json) : Outcome (List Json) := do
  validateSessionRecord record
  let records ← loadSessionRecords (record.get "task").text history
  insertSessionRecord records record

/-- The mutations that leave a session record, and its trigger. -/
def sessionTriggerOf (kind : String) (sessionTrigger : Option String) : Option String :=
  let trigger := sessionTrigger.getD kind
  if (kind == "update" && ["update", "run"].contains trigger) || (kind == "pause" && trigger == "pause") then
    some trigger
  else none

def checkpointArtifactRefs (task : Meta) : List String :=
  (prefixedRef "spec:" (task.get "spec_ref") ++ prefixedRef "envelope:" (task.get "execution_envelope_ref") ++
    prefixedRef "evidence:" ((task.get "spec_acceptance").get "evidence_ref")).take 8

def checkpointName (taskId : String) (revision : Int) : String :=
  taskId ++ "-r" ++ Text.padded 4 revision.toNat

/-- The record of a task's metadata at a source commit. -/
def buildCheckpoint (task : Meta) (body sourceCommit recordedAt : String) : Outcome Json := do
  raiseIf (!RetryCircuit.isCommit sourceCommit)
    (.error "checkpoint source commit must be a 40-character hexadecimal commit")
  let taskId := taskText task
  raiseIf (!ExecutionEnvelope.isTask taskId) (.error "invalid checkpoint task")
  pure (.obj [("schema_version", .int 1), ("name", .str (checkpointName taskId (Meta.revision task))),
    ("task", .str taskId), ("task_revision", .int (Meta.revision task)), ("recorded_at", .str recordedAt),
    ("source_commit", .str sourceCommit), ("state", .obj task),
    ("body_digest", .str (Sha256.hexdigest body.toList)),
    ("artifact_refs", .arr ((checkpointArtifactRefs task).map .str))])

def checkpointFields : List String :=
  ["schema_version", "name", "task", "task_revision", "recorded_at", "source_commit", "state", "body_digest",
    "artifact_refs"]

def validateCheckpoint (record : Json) : Outcome Unit := do
  raiseIf (!record.hasExactly checkpointFields) (.error "invalid checkpoint fields")
  raiseIf (record.get "schema_version" != .int 1) (.error "unsupported checkpoint schema")
  let task := record.get "task"
  raiseIf (!(task.isStr && ExecutionEnvelope.isTask task.text)) (.error "invalid checkpoint task")
  raiseIf (record.get "name" != .str (checkpointName task.text (revisionOf record)))
    (.error "invalid checkpoint name")
  raiseIf (!ExecutionEnvelope.positive (record.get "task_revision")) (.error "invalid checkpoint revision")
  raiseIf (!((record.get "source_commit").isStr && RetryCircuit.isCommit (record.get "source_commit").text))
    (.error "invalid checkpoint source commit")
  raiseIf (!(record.get "state").isObj || (record.get "state").get "id" != task) (.error "invalid checkpoint state")
  raiseIf (!RetryCircuit.nonemptyStr (record.get "recorded_at")) (.error "invalid checkpoint timestamp")
  raiseIf (!((record.get "body_digest").isStr && Text.hexText 64 (record.get "body_digest").text))
    (.error "invalid checkpoint body digest")
  let refs := record.get "artifact_refs"
  raiseIf (!refs.isArr || 8 < refs.items.length || !refs.items.all RetryCircuit.nonemptyStr)
    (.error "invalid checkpoint artifact refs")

def decodeCheckpoints (history : List Json) : Outcome (List Json) := do
  history.forM validateCheckpoint
  raiseIf (maxCheckpoints < history.length) (.error "checkpoint history exceeds bound")
  pure history

/-- The validated checkpoint under a name. -/
def findCheckpoint (history : List Json) (name : String) : Outcome Json := do
  let records ← decodeCheckpoints history
  orRaise (records.find? (fun record => record.get "name" == .str name)) (.error ("unknown checkpoint " ++ name))

def insertCheckpoint (history : List Json) (record : Json) : Outcome (List Json) := do
  raiseIf (history.any (fun item => item.get "task_revision" == record.get "task_revision"))
    (.error "UNIQUE constraint failed: checkpoint_records.task_id, checkpoint_records.task_revision")
  pure (AutonomyLimits.lastOf maxCheckpoints (history ++ [record]))

def appendCheckpoint (history : List Json) (record : Json) : Outcome (List Json) := do
  validateCheckpoint record
  let records ← decodeCheckpoints history
  pure (AutonomyLimits.lastOf maxCheckpoints (records ++ [record]))

end Coordinator.Records
