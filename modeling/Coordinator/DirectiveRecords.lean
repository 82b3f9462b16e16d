import Mathlib.Data.List.Sort
import Coordinator.ExecutionEnvelope
import Coordinator.Kit.Journal

/-! Directives of the board: revision-fenced records in a bounded journal, the conflicts between them,
and the commands that create and move them. -/

namespace Coordinator.DirectiveRecords
open Kit

def maxDirectives : Nat := 64

inductive Lifecycle
  | proposed
  | active
  | superseded
  | revoked
  | escalated
  deriving DecidableEq

structure Scope where
  roles : List String
  tasks : List String
  deriving DecidableEq

structure Directive where
  directiveId : String
  authority : String
  precedence : Int
  scope : Scope
  statement : String
  lifecycle : Lifecycle
  revision : Int
  owner : String
  claimExpires : String
  guidanceRef : String
  createdAt : String
  updatedAt : String
  deriving DecidableEq

/-- `UD-` and four ASCII digits. -/
def isDirectiveId (s : String) : Bool :=
  match Text.stripPrefix? "UD-".toList s.toList with
  | some rest => Text.exactly 4 Text.isDigit rest
  | none => false

def isRef (s : String) : Bool := Text.shape Text.isAlnum ExecutionEnvelope.isRefTail 2 127 s

def isGuidance (s : String) : Bool := s == "AR-0053"

def raiseText (bad : Bool) (message : String) : Outcome Unit := raiseIf bad (.error message)

def scopeList (values : List String) (pattern : String → Bool) (label : String) : Outcome Unit := do
  raiseText (!decide values.Nodup) "directive scope contains duplicates"
  raiseText (values.any (fun item => !pattern item)) ("invalid directive " ++ label ++ " scope")

def Scope.check (scope : Scope) : Outcome Unit := do
  raiseText (scope.roles.isEmpty && scope.tasks.isEmpty) "directive scope must target a role or task"
  scopeList scope.roles isRef "role"
  scopeList scope.tasks ExecutionEnvelope.isTask "task"

def Scope.sorted (scope : Scope) : Scope :=
  { roles := scope.roles.insertionSort (· ≤ ·), tasks := scope.tasks.insertionSort (· ≤ ·) }

def Directive.checkIdentity (record : Directive) : Outcome Unit := do
  raiseText (!isDirectiveId record.directiveId) "invalid directive id"
  raiseText (!isRef record.authority) "invalid directive authority"
  raiseText (record.precedence < 1) "invalid directive precedence"
  record.scope.check

def Directive.checkContent (record : Directive) : Outcome Unit := do
  raiseText (Text.isBlank record.statement || Text.contains '\n' record.statement || 4096 < record.statement.length)
    "invalid directive statement"
  raiseText (record.revision < 1) "invalid directive revision"
  raiseText (record.owner != "" && !isRef record.owner) "invalid directive owner"
  raiseText (record.guidanceRef != "" && !isGuidance record.guidanceRef) "invalid directive guidance reference"
  raiseText (record.createdAt == "") "invalid directive created_at"
  raiseText (record.updatedAt == "") "invalid directive updated_at"

/-- Validate the content of a directive. -/
def validateDirective (record : Directive) : Outcome Unit := do
  record.checkIdentity
  record.checkContent

/-- What creates a directive. -/
structure CreateArgs where
  directiveId : String
  authority : String
  precedence : Int
  roleScope : List String
  taskScope : List String
  statement : String
  owner : String
  leaseMinutes : Int
  guidanceRef : String

def buildDirective (args : CreateArgs) (recordedAt claimExpires : String) : Outcome Directive := do
  raiseText (!isDirectiveId args.directiveId) "invalid directive id"
  let scope : Scope := { roles := args.roleScope, tasks := args.taskScope }
  scope.check
  let record : Directive :=
    { directiveId := args.directiveId, authority := args.authority, precedence := args.precedence,
      scope := scope.sorted, statement := Text.strip args.statement, lifecycle := .proposed, revision := 1,
      owner := args.owner, claimExpires := claimExpires, guidanceRef := args.guidanceRef, createdAt := recordedAt,
      updatedAt := recordedAt }
  validateDirective record
  pure record

/-- Validate the records of a journal, and its bound. -/
def loadDirectives (journal : List Directive) : Outcome (List Directive) := do
  journal.forM validateDirective
  raiseText (maxDirectives < journal.length) "directive journal exceeds bound"
  pure journal

/-- One more record, which may replace the latest one of its directive. -/
def enter (latest : List Directive) (record : Directive) : Outcome (List Directive) :=
  match latest.find? (fun current => current.directiveId == record.directiveId) with
  | some current => do
      raiseText (record.revision ≤ current.revision) "directive revisions are not strictly increasing"
      pure (latest.map (fun other => if other.directiveId == record.directiveId then record else other))
  | none => pure (latest ++ [record])

/-- The latest record of each directive, by id. -/
def latestDirectives (journal : List Directive) : Outcome (List Directive) := do
  let records ← loadDirectives journal
  let latest ← records.foldlM enter []
  pure (latest.insertionSort (fun left right => left.directiveId ≤ right.directiveId))

/-- Append a revision with bounded retention. -/
def appendDirective (journal : List Directive) (record : Directive) : Outcome (List Directive) := do
  validateDirective record
  let existing ← loadDirectives journal
  let same := existing.filter (fun item => item.directiveId = record.directiveId)
  raiseText (same.getLast?.any (fun last => decide (record.revision ≠ last.revision + 1)))
    "directive revision is not the next CAS revision"
  pure (Journal.push maxDirectives existing record)

/-- Two directives address a common role or task. -/
def scopesOverlap (left right : Directive) : Bool :=
  left.scope.roles.any (right.scope.roles.contains ·) || left.scope.tasks.any (right.scope.tasks.contains ·)

def conflicts (record candidate : Directive) : Bool :=
  record.lifecycle == .active && record.precedence == candidate.precedence &&
    record.directiveId != candidate.directiveId && scopesOverlap record candidate &&
    record.statement != candidate.statement

def conflictingDirectives (records : List Directive) (candidate : Directive) : List Directive :=
  records.filter (fun record => conflicts record candidate)

inductive Action
  | activate
  | escalate
  | supersede
  | revoke
  deriving DecidableEq

structure TransitionArgs where
  directiveId : String
  action : Action
  owner : String
  expectedRevision : Int
  guidanceRef : String

/-- The owner's claim on a directive has not expired. -/
def directiveClaimIsLive (record : Directive) (owner : String) (clock : Clock) : Outcome Unit := do
  raiseText (record.owner != owner)
    ("directive is owned by " ++ (if record.owner = "" then "nobody" else record.owner))
  let expires ← orRaise (Datetime.fromisoformat record.claimExpires) (.error "directive claim expiry is invalid")
  raiseText (!expires.instant?.any (fun instant => decide ((clock.micros : Int) < instant))) "directive claim has expired"

def directiveClaimExpiry (minutes : Int) (clock : Clock) : Outcome String := do
  raiseText (minutes ≤ 0) "directive lease must be positive"
  let expires ← orRaise (clock.after? (minutes * 60)) (.error "date value out of range")
  pure (Datetime.isoformat expires)

def createDirective (args : CreateArgs) (records : List Directive) (clock : Clock) : Outcome Directive := do
  raiseText (records.any (fun item => item.directiveId == args.directiveId))
    ("directive already exists: " ++ args.directiveId)
  let expires ← directiveClaimExpiry args.leaseMinutes clock
  buildDirective args clock.stamp expires

def directiveLifecycle (action : Action) (candidate : Directive) (records : List Directive) : Outcome Lifecycle :=
  match action with
  | .activate => do
      let found := conflictingDirectives records { candidate with lifecycle := .active }
      raiseText (!found.isEmpty && candidate.guidanceRef != "AR-0053")
        "directive conflict requires guidance escalation AR-0053"
      pure (if found.isEmpty then .active else .escalated)
  | .escalate => do
      raiseText (candidate.guidanceRef != "AR-0053") "directive escalation requires guidance AR-0053"
      pure .escalated
  | .supersede => pure .superseded
  | .revoke => pure .revoked

def transitionDirective (args : TransitionArgs) (records : List Directive) (clock : Clock) : Outcome Directive := do
  let current ← orRaise (records.find? (fun item => item.directiveId == args.directiveId))
    (.error ("unknown directive: " ++ args.directiveId))
  raiseText (current.revision != args.expectedRevision)
    ("stale directive revision: expected " ++ toString args.expectedRevision ++ ", current " ++ toString current.revision)
  directiveClaimIsLive current args.owner clock
  let candidate : Directive :=
    { current with
      revision := current.revision + 1, updatedAt := clock.stamp
      guidanceRef := if args.guidanceRef = "" then current.guidanceRef else args.guidanceRef }
  let lifecycle ← directiveLifecycle args.action candidate records
  pure (if lifecycle = .active then { candidate with lifecycle }
    else { candidate with lifecycle, owner := "", claimExpires := "" })

inductive Command
  | list (lifecycle : Option Lifecycle)
  | create (args : CreateArgs)
  | transition (args : TransitionArgs)

/-- The journal after a command that is accepted. -/
def cmdDirective (journal : List Directive) (clock : Clock) (command : Command) : Outcome (List Directive) := do
  let records ← latestDirectives journal
  match command with
  | .list _ => pure journal
  | .create args => do
      let record ← createDirective args records clock
      appendDirective journal record
  | .transition args => do
      let record ← transitionDirective args records clock
      appendDirective journal record

/-- The first active directive that conflicts with a later one, if there is one. -/
def conflictErrors : List Directive → List String
  | [] => []
  | record :: rest =>
      if (conflictingDirectives rest record).isEmpty then conflictErrors rest
      else ["directive validation failed: active conflict requires guidance AR-0053: " ++
        ",".intercalate ((conflictingDirectives rest record).map Directive.directiveId)]

/-- Validate the journal of directives. -/
def directiveValidationErrors (journal : List Directive) : List String :=
  match latestDirectives journal with
  | .error (.error message) => ["directive validation failed: " ++ message]
  | .error (.replay message) => ["directive validation failed: " ++ message]
  | .ok records =>
      match records.forM validateDirective with
      | .error (.error message) => ["directive validation failed: " ++ message]
      | .error (.replay message) => ["directive validation failed: " ++ message]
      | .ok _ => conflictErrors (records.filter (fun record => record.lifecycle = .active))

end Coordinator.DirectiveRecords
