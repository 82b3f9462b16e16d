import Coordinator.Kit.Guard
import Coordinator.Kit.Datetime

/-! Task metadata: the JSON object at the head of a task file, its closed set of fields and
the faults that a lifecycle operation raises. -/

namespace Coordinator
open Kit

abbrev Meta := Dict

/-- What an operation raises: an error with its text, or the notice of an admitted replay. -/
inductive Fault where
  | error (message : String)
  | replay (message : String)
  deriving DecidableEq

abbrev Outcome (α : Type) := Except Fault α

def statuses : List String :=
  ["in_progress", "open", "blocked", "planned", "future", "done", "cancelled", "superseded"]

def priorities : List String := ["P0", "P1", "P2", "P3", "P4"]

def req : List String :=
  ["schema_version", "id", "title", "status", "priority", "summary", "next_action", "task_revision",
    "updated_at"]

def knownFields : List String := req ++
  ["short_title", "owner", "role", "team", "claim_expires", "claim_process", "worktree_key", "branch",
    "checkpoint_commit", "plan", "depends_on", "observed_branch", "observed_head", "observed_dirty",
    "superseded_by", "oracle_gate", "spec_ref", "spec_revision", "spec_acceptance", "evidence_ledger",
    "execution_envelope_ref", "execution_envelope_revision", "execution_envelope_task_revision",
    "execution_envelope_digest", "execution_envelope", "execution_reservation", "execution_result",
    "execution_abandonments", "parent_task_ref", "children", "issue_series", "change_drift",
    "assumption_revalidation", "retry_circuit", "autonomy_limits"]

/-- `AR-` and four decimal digits of any script. -/
def isTaskId (s : String) : Bool :=
  match Text.stripPrefix? "AR-".toList s.toList with
  | some rest => Text.exactly 4 Text.isDecimal rest
  | none => false

/-- The task revision as a number. -/
def Meta.revision (task : Meta) : Int := (task.get "task_revision").int?.getD 0

def staleRevision (expected : Int) (task : Meta) : Fault :=
  .error ("stale revision: expected " ++ toString expected ++ ", current " ++ (task.get "task_revision").toText)

/-- Raise the error when there is one. -/
def raiseSome : Option String → Outcome Unit
  | some message => .error (.error message)
  | none => .ok ()

@[simp] theorem raiseSome_eq_ok {error : Option String} {u : Unit} : raiseSome error = .ok u ↔ error = none := by
  cases error <;> simp [raiseSome]

theorem revision_set_of_ne {task : Meta} {key : String} {value : Json} (other : "task_revision" ≠ key) :
    Meta.revision (task.set key value) = Meta.revision task := by
  simp [Meta.revision, other]

@[simp] theorem revision_set_revision (task : Meta) (number : Int) :
    Meta.revision (task.set "task_revision" (.int number)) = number := by
  simp [Meta.revision, Json.int?]

theorem beq_revision_iff {task : Meta} {value number : Int} (known : (task.get "task_revision").int? = some value) :
    (task.get "task_revision" == .int number) = true ↔ number = Meta.revision task := by
  rw [Json.beq_int_of_int? known, Meta.revision, known]
  exact eq_comm

end Coordinator
