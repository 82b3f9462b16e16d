import Coordinator.TaskSpec
import Coordinator.AssumptionRevalidation

/-! Acceptance: the ordinary acceptance of a task, the predicate ledger with its change of
candidate, and the two audited repairs of inactive tasks. -/

namespace Coordinator.PredicateLedger
open Kit TaskSpec

structure Request where
  task : String
  owner : String
  expectedRevision : Int
  note : String
  evidenceClass : String
  evidenceRef : String
  evidenceDigest : String
  predicate : Option String
  candidateRef : Option String
  candidateDigest : Option String
  reopen : Bool

structure PredicateInputs where
  predicate : String
  candidateRef : String
  candidateDigest : String
  reopen : Bool

def predicateAcceptanceInputs (request : Request) : Outcome (Option PredicateInputs) :=
  match request.predicate, request.candidateRef, request.candidateDigest, request.reopen with
  | none, none, none, false => pure none
  | some predicate, some candidateRef, some candidateDigest, reopen => do
      raiseIf (predicate == "" || candidateRef == "" || candidateDigest == "")
        (.error "predicate acceptance requires predicate, candidate ref, and candidate digest")
      pure (some ⟨predicate, candidateRef, candidateDigest, reopen⟩)
  | _, _, _, _ => throw (.error "predicate acceptance requires predicate, candidate ref, and candidate digest")

def readSpec (files : Files) (task : Meta) : Outcome Json :=
  match files.spec (task.get "spec_ref").toText with
  | .ok spec => pure spec
  | .error reason => .error (.error reason)

/-- Require a valid bound specification that declares the predicate. -/
def validateSpec (files : Files) (task : Meta) (predicate : String) : Outcome Unit := do
  raiseIf (!task.has "spec_ref" || !task.has "spec_revision")
    (.error "predicate acceptance requires a bound task spec")
  raiseIf (!(taskSpecErrors files (task.pop "evidence_ledger") true).isEmpty)
    (.error "predicate acceptance task spec is unavailable")
  let spec ← readSpec files task
  raiseIf (!(predicatesOf spec).any (· == .str predicate))
    (.error "predicate acceptance names an unknown predicate")

def ledgerOf (task : Meta) (inputs : PredicateInputs) : Outcome Dict :=
  match task.get "evidence_ledger" with
  | .null => pure [("candidate_ref", .str inputs.candidateRef), ("candidate_digest", .str inputs.candidateDigest),
      ("steps", .arr [])]
  | .obj fields => pure fields
  | _ => throw (.error "predicate evidence ledger is malformed")

def candidateChanged (ledger : Dict) (inputs : PredicateInputs) : Bool :=
  ledger.get "candidate_ref" != .str inputs.candidateRef ||
    ledger.get "candidate_digest" != .str inputs.candidateDigest

/-- A passing row becomes historical. -/
def staled (step : Json) : Json :=
  if step.isObj && isPass step then .obj (step.fields.set "status" (.str "stale")) else step

def historicalSteps (steps : Json) : Json := if steps.isArr then .arr (steps.items.map staled) else steps

/-- The ledger in the historical form that a new candidate requires. -/
def prospective (ledger : Dict) (inputs : PredicateInputs) : Dict :=
  ((ledger.set "candidate_ref" (.str inputs.candidateRef)).set "candidate_digest"
    (.str inputs.candidateDigest)).set "steps" (historicalSteps (ledger.get "steps"))

def requireLedger (files : Files) (task : Meta) : Outcome Unit :=
  raiseIf (!(evidenceLedgerErrors files task).isEmpty)
    (.error ("predicate evidence is invalid: " ++ Text.joined "; " (evidenceLedgerErrors files task)))

def newStep (task : Meta) (request : Request) (inputs : PredicateInputs) : Json :=
  .obj [("predicate_id", .str inputs.predicate), ("status", .str "pass"),
    ("candidate_ref", .str inputs.candidateRef), ("candidate_digest", .str inputs.candidateDigest),
    ("evidence_class", .str request.evidenceClass), ("evidence_ref", .str request.evidenceRef),
    ("evidence_digest", .str request.evidenceDigest),
    ("recorded_task_revision", .int (Meta.revision task + 1))]

/-- Replace the passing row of a predicate and keep the old one as history. -/
def recordStep (task : Meta) (ledger : Dict) (request : Request) (inputs : PredicateInputs) (changed : Bool) : Meta :=
  let steps := (ledger.get "steps").items
  let steps := if changed then steps.map staled else steps
  let ledger := if changed then (ledger.set "candidate_ref" (.str inputs.candidateRef)).set "candidate_digest"
    (.str inputs.candidateDigest) else ledger
  let steps := steps.map (fun row => if row.get "predicate_id" == .str inputs.predicate then staled row else row)
  task.set "evidence_ledger" (.obj (ledger.set "steps" (.arr (steps ++ [newStep task request inputs]))))

def applyPredicateAcceptance (files : Files) (task : Meta) (request : Request) (inputs : PredicateInputs) :
    Outcome (Meta × String) := do
  validateSpec files task inputs.predicate
  let ledger ← ledgerOf task inputs
  let changed := candidateChanged ledger inputs
  raiseIf (changed && !inputs.reopen)
    (.error "candidate changed; reopen predicate evidence before recording")
  raiseIf (inputs.reopen && !changed) (.error "reopen requires a different candidate")
  requireLedger files (if changed then task.set "evidence_ledger" (.obj (prospective ledger inputs)) else task)
  let task := recordStep task ledger request inputs changed
  requireLedger files task
  pure (task, request.note)

def acceptanceRecord (task : Meta) (request : Request) : Json :=
  .obj (([("status", .str "pass"), ("evidence_class", .str request.evidenceClass),
    ("evidence_ref", .str request.evidenceRef), ("evidence_digest", .str request.evidenceDigest)] : Dict) ++
      if task.has "spec_ref" && task.has "spec_revision" then
        [("spec_ref", task.get "spec_ref"), ("spec_revision", task.get "spec_revision")]
      else [("match", Json.str "best_effort")])

/-- Accept a task, or one of its predicates, once its material assumptions are fresh. -/
def applyAcceptance (files : Files) (world : Moment) (task : Meta) (tasks : List Meta) (request : Request) :
    Outcome (Meta × String) := do
  requireOwner task request.task request.owner
  raiseIf (status task != .str "in_progress") (.error "accept requires an active task")
  requireRevision task request.expectedRevision
  let stale ← AssumptionRevalidation.freshnessError files world task tasks
  match stale with
  | some error => throw (.error error)
  | none => do
      let inputs ← predicateAcceptanceInputs request
      match inputs with
      | some inputs => applyPredicateAcceptance files task request inputs
      | none => do
          let task := task.set "spec_acceptance" (acceptanceRecord task request)
          match doneAdmissionError files task with
          | some error => throw (.error error)
          | none => pure (task, request.note)

structure RepairRequest where
  expectedRevision : Int
  predicate : String
  evidenceClass : String
  evidenceRef : String
  evidenceDigest : String
  candidateRef : String
  candidateDigest : String
  reason : String

/-- The digest of a relative file whose reference is not bounded otherwise. -/
def relativeDigest (files : Files) (reference : String) : Option String :=
  if Text.isAbsolute reference || (Text.pathParts reference).contains ".." then none else files.artifact reference

def repairReasonValid (reason : String) : Bool :=
  !Text.isBlank reason && reason.length ≤ 512 && reason.toList.all (fun c => 32 ≤ c.toNat)

/-- The historical rows of a repaired ledger; a row that is no object ends the repair. -/
def repairedRows (steps : List Json) (predicate : String) : Outcome (List Json) := do
  raiseIf (steps.any (fun row => !row.isObj))
    (.error "predicate-ledger repair found a malformed historical row")
  pure (steps.map (fun row => if row.get "predicate_id" == .str predicate then staled row else row))

def repairStep (task : Meta) (request : RepairRequest) : Json :=
  .obj [("predicate_id", .str request.predicate), ("status", .str "pass"),
    ("candidate_ref", .str request.candidateRef), ("candidate_digest", .str request.candidateDigest),
    ("evidence_class", .str request.evidenceClass), ("evidence_ref", .str request.evidenceRef),
    ("evidence_digest", .str request.evidenceDigest),
    ("recorded_task_revision", .int (Meta.revision task + 1))]

/-- Append a fresh pass to the ledger of a done task and keep every earlier row. -/
def repair (files : Files) (task : Meta) (request : RepairRequest) : Outcome (Meta × String) := do
  requireRevision task request.expectedRevision
  raiseIf (status task != .str "done" || (owner task).truthy || (claimExpires task).truthy)
    (.error "predicate-ledger repair requires a done, inactive, unowned task")
  raiseIf (!repairReasonValid request.reason) (.error "predicate-ledger repair reason is empty or unbounded")
  raiseIf (!isEvidenceRef request.evidenceRef || (Text.pathParts request.evidenceRef).contains "..")
    (.error "predicate-ledger repair evidence ref is unsafe")
  raiseIf (!Text.isDigest request.evidenceDigest ||
      relativeDigest files request.evidenceRef != some request.evidenceDigest)
    (.error "predicate-ledger repair evidence digest is not fresh")
  let ledger := task.get "evidence_ledger"
  raiseIf (!ledger.hasExactly ledgerFields || !(ledger.get "steps").isArr)
    (.error "predicate-ledger repair requires a canonical evidence ledger")
  raiseIf (!(taskSpecErrors files (task.pop "evidence_ledger") true).isEmpty)
    (.error "predicate-ledger repair task spec is unavailable")
  raiseIf (!task.has "spec_ref") (.error "KeyError: 'spec_ref'")
  let spec ← readSpec files task
  raiseIf (!(predicatesOf spec).any (· == .str request.predicate))
    (.error "predicate-ledger repair names an unknown predicate")
  raiseIf (!Text.isDigest request.candidateDigest ||
      relativeDigest files request.candidateRef != some request.candidateDigest)
    (.error "predicate-ledger repair candidate is stale")
  raiseIf (ledger.get "candidate_ref" == .str request.candidateRef &&
      ledger.get "candidate_digest" == .str request.candidateDigest)
    (.error "predicate-ledger repair candidate is not new")
  raiseIf (!(evidenceClasses files).contains request.evidenceClass)
    (.error "predicate-ledger repair evidence class is unknown")
  let historical ← repairedRows (ledger.get "steps").items request.predicate
  let prospective := ((ledger.fields.set "candidate_ref" (.str request.candidateRef)).set "candidate_digest"
    (.str request.candidateDigest)).set "steps" (.arr (historical ++ [repairStep task request]))
  pure (task.set "evidence_ledger" (.obj prospective), request.reason)

/-- Clear one stale worktree key of an inactive task. -/
def repairLegacyBinding (task : Meta) (expectedRevision : Int) (worktreeKey note : String) :
    Outcome (Meta × String) := do
  requireRevision task expectedRevision
  raiseIf (!RetryCircuit.oneOf (status task) ["open", "done"] || (owner task).truthy || (claimExpires task).truthy)
    (.error "repair-legacy-binding requires an inactive, unowned task")
  raiseIf (status task == .str "open" && (task.get "branch").truthy)
    (.error "repair-legacy-binding requires an empty legacy branch")
  raiseIf (task.get "worktree_key" != .str worktreeKey)
    (.error "repair-legacy-binding worktree key does not match retained metadata")
  raiseIf (Text.isBlank note) (.error "repair-legacy-binding note must not be empty")
  pure (task.set "worktree_key" (.str ""), note)

end Coordinator.PredicateLedger
