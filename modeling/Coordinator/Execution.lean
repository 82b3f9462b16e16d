import Coordinator.Lease

/-! Bound executions: the reservation of a command, its terminal receipt, the audited
abandonment of an unknown one and the transitions between them. -/

namespace Coordinator.Execution
open Kit

def receiptFields : List String :=
  ["execution_id", "owner", "envelope_digest", "argv_digest", "classification", "returncode", "recorded_at"]

/-- Validate one terminal receipt. -/
def receiptValid (value : Json) : Bool :=
  value.hasExactly receiptFields && Text.hexText 32 (value.get "execution_id").toText &&
    (value.get "owner").isStr && (value.get "owner").text != "" &&
    Text.isDigest (value.get "envelope_digest").toText && Text.hexText 64 (value.get "argv_digest").toText &&
    RetryCircuit.oneOf (value.get "classification") ["EXIT", "SUBPROCESS_TIMEOUT"] &&
    (value.get "returncode").exactInt?.isSome && ExecutionEnvelope.zoned value "recorded_at"

def identityFields : List String := ["execution_id", "owner", "envelope_digest", "argv_digest"]

/-- The receipt proves the completion of exactly this reservation. -/
def receiptMatches (reservation result : Json) : Bool :=
  receiptValid result && identityFields.all (fun key => result.get key == reservation.get key)

structure ReceiptRequest where
  executionId : String
  owner : String
  classification : String
  returncode : Int
  recordedAt : String

def buildReceipt (reservation : Json) (request : ReceiptRequest) : Outcome Json := do
  raiseIf (reservation.get "execution_id" != .str request.executionId)
    (.error "execution reservation no longer matches this command")
  raiseIf (reservation.get "owner" != .str request.owner)
    (.error "execution reservation owner does not match")
  let result : Json := .obj
    [("execution_id", .str request.executionId), ("owner", .str request.owner),
      ("envelope_digest", reservation.get "envelope_digest"), ("argv_digest", reservation.get "argv_digest"),
      ("classification", .str request.classification), ("returncode", .int request.returncode),
      ("recorded_at", .str request.recordedAt)]
  raiseIf (!receiptValid result) (.error "invalid execution result")
  pure result

def maxRecords : Nat := 32

def publicEvidenceRef (value : String) : Bool :=
  ExecutionEnvelope.isRef value &&
    (Text.splitOn '/' value).all (fun component => !(["." , "..", "private"].contains component))

def abandonmentFields : List String :=
  ["schema_version", "execution_id", "owner", "reservation_digest", "evidence_ref", "evidence_digest", "recorded_at"]

def abandonmentValid (record : Json) : Bool :=
  record.hasExactly abandonmentFields && record.get "schema_version" == .int 1 &&
    Text.hexText 32 (record.get "execution_id").toText && (record.get "owner").isStr &&
    (record.get "owner").text != "" && Text.isDigest (record.get "reservation_digest").toText &&
    (record.get "evidence_ref").isStr && publicEvidenceRef (record.get "evidence_ref").text &&
    Text.isDigest (record.get "evidence_digest").toText && ExecutionEnvelope.zoned record "recorded_at"

def validRecords (value : Json) : Bool :=
  value.isNull || (value.isArr && value.items.length ≤ maxRecords && value.items.all abandonmentValid &&
    decide ((value.items.map (fun record => (record.get "execution_id").toText)).Nodup))

structure StartRequest where
  task : String
  owner : String
  expectedRevision : Int
  executionId : String
  expiresAt : String
  commandClass : String
  scopeDigest : String
  argvDigest : String

/-- Reserve one execution; a lease that ends before it is extended to its end. -/
def start (world : Moment) (task : Meta) (request : StartRequest) : Outcome (Meta × String) := do
  requireActiveBindingOwner world task request.task request.owner request.expectedRevision
  raiseIf (!(task.get "execution_envelope").isObj)
    (.error "execution reservation requires a bound execution envelope")
  raiseIf (liveExecutionReservation world task)
    (.error "EXECUTION_IN_PROGRESS: bound task already has a live execution")
  raiseIf (!(reservation task).isNull)
    (.error "EXECUTION_RECOVERY_REQUIRED: expired execution reservation remains")
  raiseIf (!Text.hexText 32 request.executionId) (.error "invalid execution reservation identifier")
  let expires ← orRaise (Datetime.read request.expiresAt) (.error "invalid execution reservation expiry")
  let instant ← orRaise expires.instant? (.error "TypeError: can't compare offset-naive and offset-aware datetimes")
  raiseIf (instant ≤ world.instant) (.error "execution reservation expiry must be in the future")
  let expiresText := expires.wholeSeconds.isoformat
  let reserved : Json := .obj
    [("execution_id", .str request.executionId), ("owner", .str request.owner),
      ("task_revision", task.get "task_revision"), ("envelope_digest", task.get "execution_envelope_digest"),
      ("command_class", .str request.commandClass), ("scope_digest", .str request.scopeDigest),
      ("argv_digest", .str request.argvDigest), ("expires_at", .str expiresText)]
  let task := task.set "execution_reservation" reserved
  let claimExpiry ← orRaise (expiry? (claimExpires task)) (.error "missing or non-string claim expiry")
  let task := if claimExpiry < instant then task.set "claim_expires" (.str expiresText) else task
  pure (task, "Reserved bound execution " ++ request.executionId ++ ".")

def holdsExecution (task : Meta) (executionId : String) : Bool :=
  (reservation task).isObj && (reservation task).get "execution_id" == .str executionId

/-- Clear a reservation whose exact result is recorded. -/
def finish (task : Meta) (owner executionId : String) (expectedRevision : Option Int) (note : String) :
    Outcome (Meta × String) := do
  raiseIf (!holdsExecution task executionId) (.error "execution reservation no longer matches this command")
  raiseIf ((reservation task).get "owner" != .str owner) (.error "execution reservation owner does not match")
  requireOptionalRevision task expectedRevision
  raiseIf (!receiptMatches (reservation task) (task.get "execution_result"))
    (.error "execution finish requires an exact durable result")
  pure (task.pop "execution_reservation", note)

/-- Record a terminal receipt and keep its reservation. -/
def result (task : Meta) (expectedRevision : Option Int) (request : ReceiptRequest) : Outcome (Meta × String) := do
  raiseIf (!holdsExecution task request.executionId)
    (.error "execution reservation no longer matches this command")
  requireOptionalRevision task expectedRevision
  let recorded ← buildReceipt (reservation task) request
  raiseIf (task.get "execution_result" == recorded)
    (.replay ("Execution result " ++ request.executionId ++ " is already recorded."))
  pure (task.set "execution_result" recorded, "Recorded execution result " ++ request.executionId ++ ".")

/-- Recover an expired reservation whose completion is proved. -/
def recover (world : Moment) (task : Meta) (expectedRevision : Option Int) : Outcome (Meta × String) := do
  requireOptionalRevision task expectedRevision
  raiseIf (!ExecutionEnvelope.validReservation (reservation task))
    (.error "execution recovery requires a valid reservation")
  raiseIf (liveExecutionReservation world task)
    (.error "EXECUTION_IN_PROGRESS: execution reservation has not expired")
  requireClaimedWorkerAbsent world task
  raiseIf (!receiptMatches (reservation task) (task.get "execution_result"))
    (.error "EXECUTION_RESULT_UNKNOWN: reservation-specific completion evidence is unavailable")
  pure (task.pop "execution_reservation",
    "Recovered completed execution " ++ ((reservation task).get "execution_id").toText ++ ".")

structure AbandonRequest where
  executionId : String
  expectedRevision : Option Int
  evidenceRef : String
  evidenceDigest : String
  allowLegacyWithoutIdentity : Bool

def buildAbandonment (reservation : Json) (request : AbandonRequest) (recordedAt : String) : Outcome Json := do
  let record : Json := .obj
    [("schema_version", .int 1), ("execution_id", .str request.executionId),
      ("owner", reservation.get "owner"), ("reservation_digest", .str (RetryCircuit.digest reservation)),
      ("evidence_ref", .str request.evidenceRef), ("evidence_digest", .str request.evidenceDigest),
      ("recorded_at", .str recordedAt)]
  raiseIf (!abandonmentValid record) (.error "invalid execution abandonment evidence")
  pure record

/-- The claim has expired, so that a worker without an identity need not be looked for. -/
def expiredClaim (world : Moment) (task : Meta) : Bool :=
  (claimExpires task).isStr && (claimExpires task).text != "" &&
    ((Datetime.read (claimExpires task).text).bind Datetime.instant?).any
      (fun expiry => decide (expiry ≤ world.instant))

/-- Give up an expired reservation of unknown outcome, and the claim with it. -/
def abandon (world : Moment) (task : Meta) (request : AbandonRequest) : Outcome (Meta × String) := do
  requireOptionalRevision task request.expectedRevision
  let reserved := reservation task
  raiseIf (!ExecutionEnvelope.validReservation reserved)
    (.error "execution abandonment requires a valid reservation")
  raiseIf (reserved.get "execution_id" != .str request.executionId)
    (.error "execution abandonment reservation identity does not match")
  raiseIf (liveExecutionReservation world task)
    (.error "EXECUTION_IN_PROGRESS: execution reservation has not expired")
  if request.allowLegacyWithoutIdentity && !task.has "claim_process" && expiredClaim world task then pure ()
  else requireClaimedWorkerAbsent world task
  raiseIf (receiptMatches reserved (task.get "execution_result"))
    (.error "execution abandonment rejects a reservation with a durable result")
  let record ← buildAbandonment reserved request world.now
  let records := (task.get "execution_abandonments").items
  raiseIf (records.any (fun item => item.get "execution_id" == record.get "execution_id"))
    (.replay ("Execution " ++ request.executionId ++ " is already abandoned."))
  raiseIf (!validRecords (.arr (records ++ [record])))
    (.error "execution abandonment history is invalid or full")
  let previousOwner := (owner task).toText
  let task := (task.set "execution_abandonments" (.arr (records ++ [record]))).pop "execution_reservation"
  pure (clearClaim (task.set "status" (.str "open")),
    "Abandoned expired execution " ++ request.executionId ++ " and recovered claim formerly owned by " ++
      previousOwner ++ " after local evidence verification.")

end Coordinator.Execution
