import Coordinator.Kit.Guard
import Coordinator.Kit.Run
import Coordinator.Kit.Sha256
import Coordinator.Kit.Table
import Mathlib.Data.List.MinMax

/-! The store of receipts: a queue of intents that clients enqueue under idempotency keys and
workers claim, execute and close with an outcome. A call is one transaction. One that fails or is
rolled back leaves the store alone. -/

namespace Coordinator.Receipts
open Kit

inductive Fault where
  | valueError (message : String)
  | conflict (message : String)
  | runtimeError (message : String)
  | integrityError (constraint : String)
  | overflowError (message : String)
  deriving DecidableEq

abbrev Outcome (α : Type) := Except Fault α

def isToken (s : String) : Bool :=
  s.toList.all (fun c => Text.isAlnum c || "._:-".toList.contains c) && 1 ≤ s.length && s.length ≤ 128

/-- Thirty-two lower-case hexadecimal digits: receipts, publication jobs and leases. -/
def isIdentifier (s : String) : Bool := Text.hexText 32 s

def isCommit (s : String) : Bool := Text.hexText 40 s

/-- The integers that a column can hold. -/
def fitsColumn (n : Int) : Bool := -9223372036854775808 ≤ n && n ≤ 9223372036854775807

def overflow : Fault := .overflowError "Python int too large to convert to SQLite INTEGER"

def priorities : List String := ["P0", "P1", "P2", "P3", "P4"]
def maxSummary : Nat := 4000
def maxNextAction : Nat := 1024
def maxNote : Nat := 4096

inductive Phase where
  | queuedLocal
  | running
  | completedLocal
  | publishedRemote
  | rejected
  | ambiguous
  deriving DecidableEq

/-- A row of the intents. Times are counted in milliseconds, which their text form keeps in order. -/
structure Intent where
  receiptId : String
  idempotencyKey : String
  operation : String
  taskId : String
  expectedRevision : Int
  payloadJson : String
  inputDigest : String
  phase : Phase
  startedAt : Option Nat
  commitOid : Option String
  resultRevision : Option Int
  errorCode : Option String
  remoteOid : Option String
  remoteObservedAt : Option Nat
  publicationError : Option String
  createdAt : Nat
  deriving DecidableEq

/-- A store is bound to one project, which all its rows carry. -/
structure Store where
  projectId : String
  intents : List Intent

namespace Store

variable (store : Store)

def select (receiptId : String) : Option Intent := Table.select Intent.receiptId store.intents receiptId

/-- Rewrite the row of a receipt while it is in a phase. -/
def update (receiptId : String) (phase : Phase) (change : Intent → Intent) : Store :=
  { store with
    intents := Table.update Intent.receiptId store.intents receiptId (fun row => row.phase = phase) change }

end Store

/-- The changes that an update may carry. -/
def validateUpdateChanges (changes : Json) : Outcome Dict := do
  let allowed := ["status", "priority", "summary", "next_action"]
  let text (key : String) := (changes.get key).toText
  raiseIf (!changes.isObj || changes.fields.isEmpty || changes.fields.any (fun entry => !allowed.contains entry.1)
    || changes.fields.any (fun entry => !entry.2.isStr)
    || (changes.has "summary" && ((text "summary").length < 1 || maxSummary < (text "summary").length
      || Text.contains '\x00' (text "summary")))
    || (changes.has "next_action" && ((text "next_action").length < 1 || maxNextAction < (text "next_action").length
      || Text.contains '\x00' (text "next_action") || Text.contains '\n' (text "next_action")))
    || (changes.has "status" && text "status" ≠ "in_progress")
    || (changes.has "priority" && !priorities.contains (text "priority")))
    (.valueError "invalid fast update changes")
  return changes.fields

section enqueue

variable (store : Store) (key task owner : String) (expectedRevision leaseMinutes : Int)
  -- what the clock and the generator of identifiers answer
  (receiptId : String) (now : Nat)

/-- Store one canonical intent under its idempotency key, or find the one that is bound to it. -/
def enqueue (payload : Dict) : Outcome (Store × Intent) := do
  raiseIf (!isToken key || !isToken task || expectedRevision < 1) (.valueError "invalid receipt key, task, or revision")
  let canonical := (Json.obj payload).canonical
  let inputDigest := Sha256.hexdigest canonical
  raiseIf (!(payload.get "operation").isStr) (.valueError "invalid receipt operation")
  match Table.select Intent.idempotencyKey store.intents key with
  | some existing =>
      raiseIf (existing.inputDigest ≠ inputDigest || existing.payloadJson ≠ String.ofList canonical)
        (.conflict "idempotency key already binds different input")
      return (store, existing)
  | none =>
      raiseIf (!fitsColumn expectedRevision) overflow
      raiseIf (store.select receiptId).isSome (.integrityError "UNIQUE constraint failed: intents.receipt_id")
      let row : Intent := ⟨receiptId, key, (payload.get "operation").text, task, expectedRevision, String.ofList canonical,
        inputDigest, .queuedLocal, none, none, none, none, none, none, none, now⟩
      return ({ store with intents := store.intents ++ [row] }, row)

def enqueueHeartbeat : Outcome (Store × Intent) := do
  raiseIf (!isToken key || !isToken task) (.valueError "invalid receipt key or task")
  raiseIf (!isToken owner) (.valueError "invalid owner")
  raiseIf (expectedRevision < 1 || leaseMinutes < 1 || 1440 < leaseMinutes) (.valueError "invalid revision or lease")
  enqueue store key task expectedRevision receiptId now
    [("expected_revision", .int expectedRevision), ("lease_minutes", .int leaseMinutes), ("operation", .str "heartbeat"),
      ("owner", .str owner), ("project_id", .str store.projectId), ("task", .str task)]

def enqueueClaim (workerPid workerStartTime : Option Int) : Outcome (Store × Intent) := do
  raiseIf (!isToken key || !isToken task) (.valueError "invalid receipt key or task")
  raiseIf (!isToken owner) (.valueError "invalid owner")
  raiseIf (expectedRevision < 1 || leaseMinutes < 1 || 1440 < leaseMinutes) (.valueError "invalid revision or lease")
  raiseIf (workerPid.isSome != workerStartTime.isSome || workerPid.any (· ≤ 0) || workerStartTime.any (· < 0))
    (.valueError "invalid claim worker identity")
  let worker (name : String) (value : Option Int) : Dict := (value.map fun n => (name, Json.int n)).toList
  enqueue store key task expectedRevision receiptId now
    (([("expected_revision", .int expectedRevision), ("lease_minutes", .int leaseMinutes), ("operation", .str "claim"),
      ("owner", .str owner), ("project_id", .str store.projectId), ("task", .str task)] : Dict) ++
        worker "worker_pid" workerPid ++ worker "worker_start_time" workerStartTime)

def enqueuePromote (note : String) : Outcome (Store × Intent) := do
  raiseIf (note.length < 1 || maxNote < note.length || Text.contains '\x00' note) (.valueError "invalid promote note")
  enqueue store key task expectedRevision receiptId now
    [("expected_revision", .int expectedRevision), ("note", .str note), ("operation", .str "promote"),
      ("project_id", .str store.projectId), ("task", .str task)]

def enqueueUpdate (changes : Json) (note : String) : Outcome (Store × Intent) := do
  let invalid : Fault := .valueError "invalid update receipt intent"
  raiseIf (!isToken key || !isToken task || !isToken owner || expectedRevision < 1 || note.length < 1 ||
    maxNote < note.length || Text.contains '\x00' note) invalid
  match validateUpdateChanges changes with
  | .error _ => throw invalid
  | .ok validated =>
      enqueue store key task expectedRevision receiptId now
        [("changes", .obj (validated.insertionSort (fun a b => a.1 ≤ b.1))), ("expected_revision", .int expectedRevision),
          ("note", .str note), ("operation", .str "update"), ("owner", .str owner),
          ("project_id", .str store.projectId), ("task", .str task)]

end enqueue

section records

variable (store : Store)

/-- Reserve the oldest queued intent, if there is one. -/
def claimNext (now : Nat) : Outcome (Store × Option Intent) :=
  match (store.intents.filter (fun row => row.phase = .queuedLocal)).argmin Intent.createdAt with
  | none => return (store, none)
  | some selected => do
      let claimed := store.update selected.receiptId .queuedLocal
        (fun row => { row with phase := .running, startedAt := some now })
      let hidden : Fault := .runtimeError "receipt reservation was not visible"
      let row ← orRaise (claimed.select selected.receiptId) hidden
      raiseIf (row.phase ≠ .running) hidden
      return (claimed, some row)

/-- Write the outcome of a running intent. A repeated call must name the same outcome. -/
def finish (row : Intent) (phase : Phase) (commitOid : Option String) (resultRevision : Option Int)
    (errorCode : Option String) : Outcome Store :=
  if row.phase = phase then do
    raiseIf (row.commitOid ≠ commitOid || row.resultRevision ≠ resultRevision || row.errorCode ≠ errorCode)
      (.conflict "receipt outcome differs")
    return store
  else do
    raiseIf (row.phase ≠ .running) (.runtimeError "receipt is not running")
    raiseIf (resultRevision.any fun n => !fitsColumn n) overflow
    return store.update row.receiptId .running fun row => { row with phase, commitOid, resultRevision, errorCode }

def finishRunning (receiptId : String) (phase : Phase) (commitOid : Option String) (resultRevision : Option Int)
    (errorCode : Option String) : Outcome (Store × Intent) := do
  raiseIf (!isIdentifier receiptId) (.valueError "invalid receipt id")
  let row ← orRaise (store.select receiptId) (.runtimeError "unknown receipt")
  let finished ← finish store row phase commitOid resultRevision errorCode
  let hidden : Fault := .runtimeError "receipt outcome was not visible"
  let current ← orRaise (finished.select receiptId) hidden
  raiseIf (current.phase ≠ phase) hidden
  return (finished, current)

def read (receiptId : String) : Outcome (Option Intent) := do
  raiseIf (!isIdentifier receiptId) (.valueError "invalid receipt id")
  return store.select receiptId

def recordLocalCommit (receiptId commitOid : String) (resultRevision : Int) : Outcome (Store × Intent) := do
  raiseIf (!isCommit commitOid || resultRevision < 2) (.valueError "invalid local commit evidence")
  let receipt ← read store receiptId
  raiseIf (!receipt.any fun row => resultRevision = row.expectedRevision + 1)
    (.valueError "commit revision does not match queued fence")
  finishRunning store receiptId .completedLocal (some commitOid) (some resultRevision) none

def recordRejection (receiptId errorCode : String) : Outcome (Store × Intent) := do
  raiseIf (!isToken errorCode) (.valueError "invalid rejection code")
  finishRunning store receiptId .rejected none none (some errorCode)

def recordAmbiguity (receiptId errorCode : String) : Outcome (Store × Intent) := do
  raiseIf (!isToken errorCode) (.valueError "invalid ambiguity code")
  finishRunning store receiptId .ambiguous none none (some errorCode)

/-- The place of a time in an ascending order, which has the missing ones first. -/
def ascending : Option Nat → Nat
  | none => 0
  | some time => time + 1

/-- The reservations that were never closed, in the order they were made. -/
def running : List Intent :=
  (store.intents.filter (fun row => row.phase = .running)).insertionSort
    (fun a b => ascending a.startedAt ≤ ascending b.startedAt)

/-- Store the remote commit that was observed for a locally completed intent. -/
def recordRemoteObservation (receiptId remoteOid : String) (now : Nat) : Outcome (Store × Intent) := do
  raiseIf (!isCommit remoteOid) (.valueError "invalid observed remote oid")
  let unfinished : Fault := .runtimeError "receipt has no local commit to publish"
  let row ← orRaise (store.select receiptId) unfinished
  raiseIf (row.phase ≠ .completedLocal && row.phase ≠ .publishedRemote) unfinished
  raiseIf (row.phase = .publishedRemote && row.remoteOid ≠ some remoteOid)
    (.conflict "remote receipt already binds another observation")
  let observed := store.update receiptId .completedLocal fun row =>
    { row with phase := .publishedRemote, remoteOid := some remoteOid, remoteObservedAt := some now, publicationError := none }
  let current ← orRaise (observed.select receiptId) (.runtimeError "remote receipt was not visible")
  return (observed, current)

/-- Note why the last attempt to publish failed. It says nothing about the outcome. -/
def recordPublicationFailure (receiptId code : String) : Outcome (Store × Intent) := do
  raiseIf (!isToken code) (.valueError "invalid publication failure code")
  let noted := store.update receiptId .completedLocal fun row => { row with publicationError := some code }
  let incomplete : Fault := .runtimeError "receipt is not locally completed"
  let row ← orRaise (noted.select receiptId) incomplete
  raiseIf (row.phase ≠ .completedLocal) incomplete
  return (noted, row)

end records

end Coordinator.Receipts
