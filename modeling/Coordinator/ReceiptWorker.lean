import Coordinator.Intents
import Coordinator.ReceiptCommits

/-! The worker that executes queued intents. The receipts and the commits are stored apart, so a
worker that dies between two of its steps leaves an intent whose fate the next one has to read off
the commits. It never executes one again. -/

namespace Coordinator.ReceiptWorker
open Kit Receipts

/-- The texts that tell a refused mutation from a failed one. -/
def rejectableTexts : List String :=
  ["stale revision", "is owned by", "heartbeat requires an active task", "is not planned", "is not open",
    "unfinished dependencies", "has active claim metadata", "owner already holds", "role admission denied",
    "claim worker identity is not a live matching process"]

def rejectable (error : String) : Bool := rejectableTexts.any fun text => Text.occursIn text error

section intents

variable (core : Core) (projectId : String) (intent : Intent)

def isRevision (value : Json) : Bool := value.exactInt?.any fun n => decide (1 ≤ n)

def isLease (value : Json) : Bool := value.exactInt?.any fun n => decide (1 ≤ n) && decide (n ≤ 1440)

def isNote (value : Json) : Bool :=
  value.isStr && decide (1 ≤ value.text.length) && decide (value.text.length ≤ maxNote) && !Text.contains '\x00' value.text

def leaseNames : List String := ["expected_revision", "lease_minutes", "operation", "owner", "project_id", "task"]

/-- The owner, the lease and the revision of a heartbeat or a claim. -/
def leaseFields (payload : Json) : Bool :=
  (payload.get "owner").isStr && isLease (payload.get "lease_minutes") && isRevision (payload.get "expected_revision")

/-- The worker process that a claim names, if it names one. -/
def workerFields (payload : Json) : Bool :=
  !payload.has "worker_pid" || (payload.get "worker_pid").exactInt?.any (fun n => decide (0 < n)) &&
    (payload.get "worker_start_time").exactInt?.any (fun n => decide (0 ≤ n))

/-- The payload of an intent, if it is the canonical one for its columns and its operation. -/
def validatedIntent : Attempt Dict := do
  let payload ← orRaise (core.loads intent.payloadJson) "receipt intent payload is not JSON"
  let canonical := payload.canonical
  raiseIf (!payload.isObj || intent.payloadJson ≠ String.ofList canonical || Sha256.hexdigest canonical ≠ intent.inputDigest ||
    !(payload.get "project_id" == .str projectId) || !(payload.get "task" == .str intent.taskId) ||
    !(payload.get "expected_revision" == .int intent.expectedRevision))
    "receipt intent does not match canonical typed fields"
  let operation := payload.get "operation"
  raiseIf (operation == .str "heartbeat" && !(payload.hasExactly leaseNames && leaseFields payload))
    "receipt heartbeat intent fields are invalid"
  raiseIf (operation == .str "claim" &&
    !((payload.hasExactly leaseNames || payload.hasExactly (leaseNames ++ ["worker_pid", "worker_start_time"])) &&
      leaseFields payload && workerFields payload))
    "receipt claim intent fields are invalid"
  raiseIf (operation == .str "promote" &&
    !(payload.hasExactly ["expected_revision", "note", "operation", "project_id", "task"] && isNote (payload.get "note") &&
      isRevision (payload.get "expected_revision")))
    "receipt promote intent fields are invalid"
  raiseIf (operation == .str "update" &&
    !(payload.hasExactly ["changes", "expected_revision", "note", "operation", "owner", "project_id", "task"] &&
      (payload.get "owner").isStr && isNote (payload.get "note") && isRevision (payload.get "expected_revision") &&
      allowed (validateUpdateChanges (payload.get "changes"))))
    "receipt update intent fields are invalid"
  raiseIf (!operations.any fun name => operation == .str name) "receipt operation is unsupported"
  return payload.fields

end intents

/-- Why the commits are searched for the marker of an intent: its execution failed with a text, or
its worker died and a new one goes through the reservations, with these left. -/
inductive Origin where
  | failed (error : String)
  | interrupted (rest : List Intent)

/-- Where the worker stands between two of its steps. -/
inductive Stage where
  | down
  | ready
  | reserved (intent : Intent)
  | executed (intent : Intent) (oid : String)
  | verified (intent : Intent) (oid : String) (revision : Int)
  | searching (intent : Intent) (origin : Origin)
  | found (intent : Intent) (origin : Origin) (oid : String)
  | confirmed (intent : Intent) (origin : Origin) (oid : String) (revision : Int)
  | absent (intent : Intent) (origin : Origin)
  | unknown (intent : Intent) (origin : Origin)

structure System where
  store : Store
  repository : Repository
  stage : Stage
  /-- the mutations that were begun, in order -/
  executed : List (Intent × Dict)
  /-- every state of the repository so far -/
  past : List Repository

/-- What the worker meets in one step. A failure is raised in place of an answer of Git or of the
database; a mutation answers with the commit it made or raises, and may have committed either way. -/
structure World where
  now : Nat
  failure : Option String
  mutation : Repository × Attempt String

def tried {α : Type} (failure : Option String) (answer : Attempt α) : Attempt α :=
  match failure with
  | some error => .error error
  | none => answer

/-- The text of an exception that the store raises. -/
def faultText : Receipts.Fault → String
  | .valueError message | .conflict message | .runtimeError message | .integrityError message | .overflowError message => message

/-- Go through the reservations that an earlier worker left. -/
def recoverRunning : List Intent → Stage
  | [] => .ready
  | intent :: rest => .searching intent (.interrupted rest)

/-- What comes after the outcome of an intent is on record. -/
def Origin.next : Origin → Stage
  | failed _ => .ready
  | interrupted rest => recoverRunning rest

/-- What comes after a mutation. -/
def mutated (intent : Intent) : Attempt String → Stage
  | .ok oid => .executed intent oid
  | .error error => .searching intent (.failed error)

/-- Record that no commit speaks for an intent. -/
def Origin.record (store : Store) (receiptId : String) : Origin → Receipts.Outcome (Store × Intent)
  | failed error =>
      if rejectable error then recordRejection store receiptId "ADMISSION_REJECTED"
      else recordAmbiguity store receiptId "MUTATION_OUTCOME_UNKNOWN"
  | interrupted _ => recordAmbiguity store receiptId "INTERRUPTED_BEFORE_COMMIT"

namespace System

variable (core : Core) (system : System) (world : World)

/-- The outcome of a call to the store, unless the call fails. -/
def stored {α : Type} (outcome : Receipts.Outcome α) : Attempt α := tried world.failure (outcome.mapError faultText)

/-- Record an outcome and go on. A failure leaves the worker, and with it the service lock. -/
def closing (origin : Origin) (outcome : Receipts.Outcome (Store × Intent)) : System :=
  match stored world outcome with
  | .ok (store, _) => { system with store, stage := origin.next }
  | .error _ => { system with stage := .down }

def reserve : System :=
  match stored world (claimNext system.store world.now) with
  | .ok (store, some intent) => { system with store, stage := .reserved intent }
  | .ok (_, none) => system
  | .error _ => { system with stage := .down }

/-- Begin the mutation of a reserved intent. -/
def execute (intent : Intent) : System :=
  match validatedIntent core system.store.projectId intent with
  | .error error => { system with stage := .searching intent (.failed error) }
  | .ok payload =>
      { system with
        repository := world.mutation.1
        executed := system.executed ++ [(intent, payload)]
        past := system.past ++ [world.mutation.1]
        stage := mutated intent world.mutation.2 }

def verify (intent : Intent) (oid : String) : Attempt Int :=
  tried world.failure (verifyLocalCommit core system.repository intent oid)

/-- Verify the commit that the mutation answered with. -/
def verifyExecuted (intent : Intent) (oid : String) : System :=
  match system.verify core world intent oid with
  | .ok revision => { system with stage := .verified intent oid revision }
  | .error error => { system with stage := .searching intent (.failed error) }

def recordVerified (intent : Intent) (oid : String) (revision : Int) : System :=
  match stored world (recordLocalCommit system.store intent.receiptId oid revision) with
  | .ok (store, _) => { system with store, stage := .ready }
  | .error error => { system with stage := .searching intent (.failed error) }

def search (intent : Intent) (origin : Origin) : System :=
  match tried world.failure (findReceiptCommit system.repository intent.receiptId) with
  | .ok (some oid) => { system with stage := .found intent origin oid }
  | .ok none => { system with stage := .absent intent origin }
  | .error _ => { system with stage := .unknown intent origin }

/-- Verify the commit that the search found. -/
def verifyFound (intent : Intent) (origin : Origin) (oid : String) : System :=
  match system.verify core world intent oid with
  | .ok revision => { system with stage := .confirmed intent origin oid revision }
  | .error _ => { system with stage := .unknown intent origin }

def recordConfirmed (intent : Intent) (origin : Origin) (oid : String) (revision : Int) : System :=
  match stored world (recordLocalCommit system.store intent.receiptId oid revision) with
  | .ok (store, _) => { system with store, stage := origin.next }
  | .error _ => { system with stage := .unknown intent origin }

/-- One step of the worker. -/
def work : System :=
  match system.stage with
  | .down => system
  | .ready => system.reserve world
  | .reserved intent => system.execute core world intent
  | .executed intent oid => system.verifyExecuted core world intent oid
  | .verified intent oid revision => system.recordVerified world intent oid revision
  | .searching intent origin => system.search world intent origin
  | .found intent origin oid => system.verifyFound core world intent origin oid
  | .confirmed intent origin oid revision => system.recordConfirmed world intent origin oid revision
  | .absent intent origin => system.closing world origin (origin.record system.store intent.receiptId)
  | .unknown intent origin =>
      system.closing world origin (recordAmbiguity system.store intent.receiptId "COMMIT_EVIDENCE_UNKNOWN")

end System

/-- What happens around and in a worker. Clients enqueue, publishers observe the remote, and anyone
may change the repository, all at any time. A worker can die at any time, which frees the service
lock; only then does another one start. -/
inductive Action where
  | enqueue (key task : String) (expectedRevision : Int) (request : Request) (receiptId : String) (now : Nat)
  | observed (receiptId remoteOid : String) (now : Nat)
  | publicationFailed (receiptId code : String)
  | changed (repository : Repository)
  | start
  | crash
  | work (world : World)

def act (core : Core) (system : System) : Action → System
  | .enqueue key task expectedRevision request receiptId now =>
      { system with store := step system.store (.enqueue key task expectedRevision request receiptId now) }
  | .observed receiptId remoteOid now =>
      { system with store := step system.store (.recordRemoteObservation receiptId remoteOid now) }
  | .publicationFailed receiptId code =>
      { system with store := step system.store (.recordPublicationFailure receiptId code) }
  | .changed repository => { system with repository, past := system.past ++ [repository] }
  | .start =>
      match system.stage with
      | .down => { system with stage := recoverRunning (running system.store) }
      | _ => system
  | .crash => { system with stage := .down }
  | .work world => system.work core world

/-- Before any client or worker. -/
def initially (projectId : String) (repository : Repository) : System := ⟨⟨projectId, []⟩, repository, .down, [], [repository]⟩

end Coordinator.ReceiptWorker
