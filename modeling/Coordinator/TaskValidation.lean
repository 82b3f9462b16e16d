import Coordinator.Execution
import Coordinator.OracleLifecycle
import Coordinator.TaskGraph
import Coordinator.TaskSpec
import Coordinator.AssumptionRevalidation

/-! Validation of a mutation: the metadata of its target, the claim that the target carries and
the identities and relations of the whole task set. -/

namespace Coordinator.TaskValidation
open Kit TaskGraph

def fieldErrors (path : String) (task : Meta) : List String :=
  (req.filter (fun name => !task.has name)).map (fun name => path ++ ": missing " ++ name) ++
    (task.keys.filter (fun name => !knownFields.contains name)).map (fun name => path ++ ": unknown field " ++ name)

def shortTitleErrors (files : Files) (taskId : String) (value : Json) : List String :=
  if value.isNull then []
  else if !value.isStr || Text.isBlank value.text ||
      value.text.toList.any (fun c => c.toNat < 32 || c.toNat == 127) then [taskId ++ ": invalid short_title"]
  else if 120 < value.text.length then [taskId ++ ": short_title exceeds 120 characters"]
  else if 4 < (Text.words value.text).length then [taskId ++ ": short_title exceeds four words"]
  else errorIf (!(files.privateText value.text).isEmpty) (taskId ++ ": privacy-unsafe short_title")

/-- A direct worktree under the projects root that is not the product checkout. -/
def validBindingWorktree (files : Files) (value : Json) : Bool :=
  ChangeDrift.validWorktreeKey value &&
    match files.config with
    | none => !files.configPresent
    | some settings =>
        !([".", "..", settings.textOr "product_worktree"].contains value.text) &&
          if settings.has "projects_root" then
            RetryCircuit.nonemptyStr (settings.get "projects_root") &&
              files.insideRoot (settings.get "projects_root").text value.text
          else !settings.isEmpty

def executionMetadataErrors (taskId : String) (task : Meta) : List String :=
  let reported (error : Option String) : List String := error.toList.map (fun text => taskId ++ ": " ++ text)
  errorIf (!(task.get "claim_process").isNull && !validClaimProcess (task.get "claim_process"))
    (taskId ++ ": invalid claim_process") ++
  errorIf (!(reservation task).isNull && !ExecutionEnvelope.validReservation (reservation task))
    (taskId ++ ": invalid execution_reservation") ++
  errorIf (!(task.get "execution_result").isNull && !Execution.receiptValid (task.get "execution_result"))
    (taskId ++ ": invalid execution_result") ++
  errorIf (!Execution.validRecords (task.get "execution_abandonments"))
    (taskId ++ ": invalid execution_abandonments") ++
  errorIf (!ExecutionEnvelope.validBinding task) (taskId ++ ": invalid execution envelope binding") ++
  errorIf (!ExecutionEnvelope.validReplacements (task.get "execution_envelope_replacements"))
    (taskId ++ ": invalid execution envelope replacements") ++
  reported (ChangeDrift.metadataError task) ++ reported (AssumptionRevalidation.metadataError task) ++
  reported (RetryCircuit.metadataError task) ++ reported (AutonomyLimits.metadataError task)

def revisionValid (task : Meta) : Bool := (task.get "task_revision").int?.any (fun number => decide (1 ≤ number))

def valueErrors (files : Files) (path : String) (task : Meta) : List String :=
  let taskId := taskText task
  errorIf (!((task.get "id").isStr && isTaskId (task.get "id").text)) (path ++ ": invalid id") ++
  errorIf (!RetryCircuit.oneOf (task.get "status") statuses) (taskId ++ ": invalid status") ++
  errorIf (!RetryCircuit.oneOf (task.get "priority") priorities) (taskId ++ ": invalid priority") ++
  errorIf (!revisionValid task) (taskId ++ ": invalid revision") ++
  (["title", "summary", "next_action", "updated_at"].filter
    (fun name => !RetryCircuit.nonemptyStr (task.get name))).map (fun name => taskId ++ ": invalid " ++ name) ++
  shortTitleErrors files taskId (task.get "short_title") ++
  errorIf (!(task.get "worktree_key").isNull && task.get "worktree_key" != .str "" &&
    !validBindingWorktree files (task.get "worktree_key")) (taskId ++ ": invalid worktree_key") ++
  (OracleLifecycle.gateErrors (task.get "oracle_gate")).map (fun error => taskId ++ ": " ++ error) ++
  executionMetadataErrors taskId task

/-- The bound envelope agrees with the fields that describe it. -/
def envelopeErrors (taskId : String) (task : Meta) : List String :=
  let envelope := task.get "execution_envelope"
  if !(task.get "execution_envelope_ref").isStr then []
  else match ExecutionEnvelope.errors envelope with
    | none => ["TypeError: unhashable type"]
    | some found =>
        if !envelope.isObj || !found.isEmpty then
          [taskId ++ ": invalid execution envelope: " ++ Text.joined "; " found]
        else if task.get "execution_envelope_digest" != .str (ExecutionEnvelope.canonicalDigest envelope) then
          [taskId ++ ": execution envelope digest mismatch"]
        else if task.get "execution_envelope_revision" != envelope.get "envelope_revision" then
          [taskId ++ ": execution envelope revision mismatch"]
        else errorIf (task.get "execution_envelope_task_revision" != envelope.get "task_revision")
          (taskId ++ ": execution envelope task revision mismatch")

def referenceErrors (files : Files) (task : Meta) : List String :=
  let taskId := taskText task
  let checkpoint := task.get "checkpoint_commit"
  let plan := task.get "plan"
  errorIf (Datetime.read (task.textOr "updated_at")).isNone (taskId ++ ": invalid updated_at") ++
  errorIf (checkpoint.truthy && !(checkpoint.isStr && RetryCircuit.isCommit checkpoint.text))
    (taskId ++ ": invalid checkpoint commit") ++
  errorIf (plan.truthy && !(plan.isStr && files.planIsFile plan.text))
    (taskId ++ ": missing plan " ++ plan.toText) ++
  envelopeErrors taskId task

/-- The errors of one task by itself; the ledger of its evidence may be left out. -/
def basicTaskErrors (files : Files) (path : String) (task : Meta) (includeLedger : Bool) : List String :=
  fieldErrors path task ++ valueErrors files path task ++ referenceErrors files task ++
    TaskSpec.taskSpecErrors files task includeLedger

/-- The errors of the claim on one task, regardless of the others. -/
def claimErrors (world : Moment) (task : Meta) : List String :=
  let taskId := taskText task
  if status task != .str "in_progress" then
    errorIf ((owner task).truthy || (claimExpires task).truthy) (taskId ++ ": inactive task retains claim")
  else
    errorIf (!(owner task).truthy) (taskId ++ ": active without claim") ++
      activeExpiryErrors world taskId (claimExpires task)

def isActive (task : Meta) : Bool := status task == .str "in_progress"

/-- The fields that no two active tasks share. -/
def activeFields : List String := ["owner", "worktree_key", "branch"]

def sharedFieldErrors (before : List Task) (task : Task) (field : String) : List String :=
  let value := task.fields.get field
  if !value.truthy then []
  else if !ExecutionEnvelope.hashable value then ["TypeError: unhashable type"]
  else match before.find? (fun other => isActive other.fields && other.fields.get field == value) with
    | some other => [idOf task ++ ": active " ++ field ++ " also used by " ++ idOf other]
    | none => []

/-- The errors of the identities of a task among those before it. -/
def identityErrors (before : List Task) (task : Task) : List String :=
  errorIf (before.any (fun other => idOf other == idOf task)) ("duplicate " ++ idOf task) ++
    if isActive task.fields then activeFields.flatMap (sharedFieldErrors before task) else []

def identitiesErrors : List Task → List Task → List String
  | _, [] => []
  | before, task :: rest => identityErrors before task ++ identitiesErrors (before ++ [task]) rest

/-- The errors of the task set: identities, active keys, dependencies, hierarchy and successors. -/
def mutationGlobalErrors (tasks : List Task) : List String :=
  identitiesErrors [] tasks ++ graphErrors tasks ++ hierarchyErrors tasks ++ supersessionErrors tasks

/-- The errors of a task set whose member under a path has been written anew. -/
def mutationErrors (files : Files) (world : Moment) (tasks : List Task) (path : String) (task : Meta)
    (includeLedger : Bool) : List String :=
  basicTaskErrors files path task includeLedger ++ claimErrors world task ++ mutationGlobalErrors tasks

end Coordinator.TaskValidation
