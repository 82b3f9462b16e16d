import Coordinator.Environment

/-! Claims and leases: the expiry of a claim, the worker process behind it, the execution
fence of a task and the checks that its owner must pass. -/

namespace Coordinator
open Kit

/-- Recognize a legacy or scope-bound claim-time process identity. -/
def validClaimProcess (value : Json) : Bool :=
  (value.hasExactly ["pid", "start_time"] ||
      value.hasExactly ["pid", "start_time", "boot_digest", "pid_namespace"]) &&
    (value.get "pid").exactInt?.any (fun pid => decide (0 < pid)) &&
    (value.get "start_time").exactInt?.any (fun start => decide (0 ≤ start)) &&
    (value.hasExactly ["pid", "start_time"] ||
      ((value.get "boot_digest").isStr && Text.isDigest (value.get "boot_digest").text &&
        (value.get "pid_namespace").isStr &&
        (match (value.get "pid_namespace").text.toList.splitOn ':' with
          | [device, inode] => !device.isEmpty && device.all Text.isDigit && !inode.isEmpty && inode.all Text.isDigit
          | _ => false)))

def scopedClaimProcess (value : Json) : Bool :=
  value.hasExactly ["pid", "start_time", "boot_digest", "pid_namespace"] && validClaimProcess value

/-- The instant at which a claim expires. -/
def parseClaimExpiry (expiry : Json) : Except String Int :=
  match expiry with
  | .str word =>
      if word = "" then .error "missing or non-string claim expiry"
      else match Datetime.read word with
        | none => .error ("Invalid isoformat string: " ++ word)
        | some parsed =>
            if parsed.offset.isNone then .error "claim expiry lacks timezone"
            else match Datetime.aware? word with
              | some at_ => .ok at_
              | none => .error "date value out of range"
  | _ => .error "missing or non-string claim expiry"

def expiry? (value : Json) : Option Int := (parseClaimExpiry value).toOption

def claimExpires (task : Meta) : Json := task.get "claim_expires"

def owner (task : Meta) : Json := task.get "owner"

def status (task : Meta) : Json := task.get "status"

def requireRoleAdmission (world : Moment) (ownerId : String) : Outcome Unit :=
  match world.roleDenied ownerId "implementer" with
  | some reason => .error (.error reason)
  | none => pure ()

def ownedBy (task : Meta) (name : String) : String :=
  name ++ " is owned by " ++ (if (owner task).truthy then (owner task).toText else "nobody")

def requireOwner (task : Meta) (name ownerId : String) : Outcome Unit :=
  raiseIf (owner task != .str ownerId) (.error (ownedBy task name))

def requireRevision (task : Meta) (expectedRevision : Int) : Outcome Unit :=
  raiseIf (task.get "task_revision" != .int expectedRevision) (staleRevision expectedRevision task)

def requireOptionalRevision (task : Meta) (requested : Option Int) : Outcome Unit :=
  match requested with
  | some expectedRevision => requireRevision task expectedRevision
  | none => pure ()

/-- The lease lies in the future; its text must denote a time. -/
def requireLease (world : Moment) (task : Meta) (command : String) : Outcome Unit :=
  raiseIf (!(expiry? (claimExpires task)).any (fun expiry => decide (world.instant < expiry)))
    (.error (command ++ " requires an unexpired owner lease"))

def requireActiveBindingOwner (world : Moment) (task : Meta) (name ownerId : String) (expectedRevision : Int) :
    Outcome Unit := do
  requireOwner task name ownerId
  requireRoleAdmission world ownerId
  raiseIf (status task != .str "in_progress") (.error "bind-worktree requires an active task")
  requireLease world task "bind-worktree"
  requireRevision task expectedRevision

def reservation (task : Meta) : Json := task.get "execution_reservation"

def requireNoExecutionReservation (task : Meta) : Outcome Unit :=
  raiseIf (!(reservation task).isNull)
    (.error "EXECUTION_RECOVERY_REQUIRED: task has a bound execution reservation")

/-- A valid reservation whose expiry lies in the future. -/
def liveExecutionReservation (world : Moment) (task : Meta) : Bool :=
  ExecutionEnvelope.validReservation (reservation task) &&
    ((Datetime.read ((reservation task).textOr "expires_at")).bind Datetime.instant?).any
      (fun expires => decide (world.instant < expires))

/-- The process named at claim time, none when no worker was named. -/
def claimedProcessIdentity (world : Moment) (workerPid workerStartTime : Option Int) : Outcome (Option Json) :=
  match workerPid, workerStartTime with
  | none, none => pure none
  | some pid, some start => do
      raiseIf (pid ≤ 0 || start < 0)
        (.error "claim worker identity requires positive --worker-pid and --worker-start-time")
      match world.processStartTime pid, world.workerScope with
      | .error reason, _ => throw (.error reason)
      | .ok found, scope => do
          raiseIf (found != some start) (.error "claim worker identity is not a live matching process")
          match scope with
          | .error reason => throw (.error reason)
          | .ok (bootDigest, pidNamespace) => pure (some (.obj
              [("pid", .int pid), ("start_time", .int start), ("boot_digest", .str bootDigest),
                ("pid_namespace", .str pidNamespace)]))
  | _, _ => throw (.error "claim worker identity requires positive --worker-pid and --worker-start-time")

def attachClaimProcess (world : Moment) (task : Meta) (workerPid workerStartTime : Option Int) : Outcome Meta := do
  let task := task.pop "claim_process"
  let identity ← claimedProcessIdentity world workerPid workerStartTime
  match identity with
  | some identity => pure (task.set "claim_process" identity)
  | none => pure task

def requireClaimedWorkerAbsent (world : Moment) (task : Meta) : Outcome Unit := do
  let identity := task.get "claim_process"
  raiseIf (!scopedClaimProcess identity)
    (.error "snapshot-less recovery requires a scope-bound claim-time worker identity")
  match world.workerScope with
  | .error reason => throw (.error reason)
  | .ok (bootDigest, pidNamespace) => do
      raiseIf (identity.get "boot_digest" != .str bootDigest || identity.get "pid_namespace" != .str pidNamespace)
        (.error "snapshot-less recovery cannot verify the claim execution scope")
      match world.processStartTime ((identity.get "pid").int?.getD 0) with
      | .error reason => throw (.error reason)
      | .ok found =>
          raiseIf (found.map Json.int |>.any (· == identity.get "start_time"))
            (.error "former worker process is still alive")

/-- An acknowledged recovery of a claim from before process identities. -/
def legacyRecoveryAdmitted (world : Moment) (allowLegacy : Bool) (task : Meta) : Bool :=
  allowLegacy && !task.has "claim_process" &&
    (expiry? (claimExpires task)).any (fun expiry => decide (expiry ≤ world.instant))

def activeExpiryErrors (world : Moment) (taskId : String) (expiry : Json) : List String :=
  if !expiry.truthy then [taskId ++ ": active without claim"]
  else match expiry? expiry with
    | none => [taskId ++ ": invalid claim expiry"]
    | some parsed => if parsed ≤ world.instant then [taskId ++ ": expired claim"] else []

/-- A task without its claim. -/
def clearClaim (task : Meta) : Meta :=
  ((task.set "owner" (.str "")).set "claim_expires" (.str "")).pop "claim_process"

/-- The lease that ends some minutes from now. -/
def leaseText (world : Moment) (minutes : Int) : Outcome String := do
  let expires ← orRaise (world.clock.after? (minutes * 60)) (.error "date value out of range")
  pure expires.isoformat

/-! What a check that passes says. -/

theorem requireRoleAdmission_eq_ok {world : Moment} {ownerId : String} :
    requireRoleAdmission world ownerId = .ok () ↔ world.roleDenied ownerId "implementer" = none := by
  unfold requireRoleAdmission
  cases world.roleDenied ownerId "implementer" <;> simp

theorem requireOwner_eq_ok {task : Meta} {name ownerId : String} :
    requireOwner task name ownerId = .ok () ↔ owner task = .str ownerId := by
  rw [requireOwner, raiseIf_eq_ok, bne, Bool.not_eq_false', Json.beq_str]

/-- A revision check on a task whose revision is a number. -/
theorem requireRevision_eq_ok {task : Meta} {number expected : Int}
    (known : (task.get "task_revision").int? = some number) :
    requireRevision task expected = .ok () ↔ Meta.revision task = expected := by
  rw [requireRevision, raiseIf_eq_ok, bne, Bool.not_eq_false', beq_revision_iff known]
  exact eq_comm

theorem requireOptionalRevision_some {task : Meta} {expected : Int} :
    requireOptionalRevision task (some expected) = requireRevision task expected := rfl

theorem requireNoExecutionReservation_eq_ok {task : Meta} :
    requireNoExecutionReservation task = .ok () ↔ (reservation task).isNull = true := by
  rw [requireNoExecutionReservation, raiseIf_eq_ok, Bool.not_eq_false']

end Coordinator
