import Coordinator.Authority
import Coordinator.Receipts

/-! What a commit of the state repository says about a receipt. A commit speaks for an intent if
its message carries the marker of the receipt and its tree differs from its parent's by exactly the
effect that the intent asks for. -/

namespace Coordinator.ReceiptWorker
open Kit Receipts
open Authority (transitionNote)

/-- A computation that answers or raises an exception with a text. -/
abbrev Attempt (α : Type) := Except String α

structure Commit where
  oid : String
  message : String
  parents : List String
  /-- the files of its tree under their paths -/
  files : List (String × String)
  committer : String

/-- The commits that some reference leads to, and those among them that lead up to the head. -/
structure Repository where
  commits : List Commit
  active : List String

/-- A task file of a commit: its name, metadata and body. -/
abbrev TaskFile := String × Meta × String

/-- What the coordinator offers to the worker. -/
structure Core where
  loads : String → Option Json
  renderCurrent : List TaskFile → String
  renderStatusViews : List TaskFile → Attempt (List (String × String))
  statusView : Bool
  commitSignoff : Bool

section git

variable (repository : Repository) (oid path : String)

def commitOf : Attempt Commit :=
  orRaise (repository.commits.find? (fun commit => commit.oid = oid)) ("unknown revision " ++ oid)

def Commit.file? (commit : Commit) (path : String) : Option String :=
  (commit.files.find? (fun file => file.1 = path)).map Prod.snd

def parentOf : Attempt String := do
  let commit ← commitOf repository oid
  orRaise commit.parents.head? ("unknown revision " ++ oid ++ "^")

/-- The text of a file in a commit. -/
def fileOf : Attempt String := do
  let commit ← commitOf repository oid
  orRaise (commit.file? path) ("path " ++ path ++ " does not exist in " ++ oid)

/-- The text of a file in a commit, empty where there is none. -/
def fileOrEmpty : String :=
  match fileOf repository oid path with
  | .ok text => text
  | .error _ => ""

/-- The paths at which a commit differs from its only parent. -/
def changedPaths : Attempt (List String) := do
  let commit ← commitOf repository oid
  match commit.parents with
  | [parent] => do
      let before ← commitOf repository parent
      let paths := (before.files ++ commit.files).map Prod.fst
      return (paths.filter fun path => before.file? path ≠ commit.file? path).dedup
  | _ => return []

end git

def isOid (s : String) : Bool := Text.hexText 40 s

/-- The line of a commit message that names a receipt. -/
def markerOf (receiptId : String) : String := "Handoffctl-Receipt: " ++ receiptId

def markers (message receiptId : String) : Nat := (Text.splitlines message).count (markerOf receiptId)

/-- The one commit whose message carries the marker on exactly one line, if there is one. -/
def findReceiptCommit (repository : Repository) (receiptId : String) : Attempt (Option String) := do
  let candidates := repository.commits.filter fun commit => Text.occursIn (markerOf receiptId) commit.message
  let exact := candidates.filter fun commit => isOid commit.oid && markers commit.message receiptId = 1
  raiseIf (1 < exact.length) "multiple commits carry one receipt marker"
  return exact.head?.map Commit.oid

section verification

variable (core : Core) (repository : Repository)

/-- The metadata and the body of a task file in a commit. -/
def taskRecord (oid path : String) : Attempt (Meta × String) := do
  let source ← fileOf repository oid path
  let front ← orRaise (Text.stripPrefix? "---\n".toList source.toList) "receipt task has no front matter"
  let (head, body) ← orRaise (Text.breakAt "\n---\n".toList front) "receipt task front matter is incomplete"
  match core.loads (String.ofList head) with
  | some (.obj fields) => return (fields, String.ofList body)
  | some _ => throw "receipt task front matter is invalid"
  | none => throw "receipt task front matter is not JSON"

/-- The views of the tasks that a commit holds. -/
def taskViews (oid : String) : Attempt (List (String × String)) := do
  let commit ← commitOf repository oid
  let names := (commit.files.map Prod.fst).filter fun name => Text.hasPrefix "tasks/" name && Text.hasSuffix ".md" name
  let tasks ← names.mapM fun name => do
    let (task, body) ← taskRecord core repository oid name
    return ((name, task, body) : TaskFile)
  let status ← if core.statusView then core.renderStatusViews tasks else return []
  return ("CURRENT.md", core.renderCurrent tasks) :: status

structure TaskChange where
  before : Meta
  beforeBody : String
  after : Meta
  afterBody : String

/-- The change of the one task that a commit touches, beside the views of its tasks. -/
def taskChange (oid task : String) (sidecars : List String) : Attempt TaskChange := do
  let outside : String := "receipt commit changes paths outside target task"
  let paths ← changedPaths repository oid
  let isTarget (path : String) : Bool :=
    path = "tasks/" ++ task ++ ".md" || (Text.hasPrefix ("tasks/" ++ task ++ "-") path && Text.hasSuffix ".md" path)
  match paths.filter isTarget with
  | [target] => do
      let projections := paths.filter fun path => path ≠ target
      raiseIf (projections.any fun path => !sidecars.contains path && !(["CURRENT.md", "STATUS.md"].contains path) &&
        !Text.hasPrefix "status/STATUS-" path) outside
      let parent ← parentOf repository oid
      raiseIf (!isOid parent) "receipt commit has no valid parent"
      let (before, beforeBody) ← taskRecord core repository parent target
      let (after, afterBody) ← taskRecord core repository oid target
      let beforeViews ← taskViews core repository parent
      let views ← taskViews core repository oid
      raiseIf (projections.any fun path => !(beforeViews.map Prod.fst).contains path && !(views.map Prod.fst).contains path &&
        !sidecars.contains path) outside
      raiseIf (views.any fun view => fileOrEmpty repository oid view.1 ≠ view.2)
        "receipt commit task projection does not match committed tasks"
      raiseIf (beforeViews.any fun view => !(views.map Prod.fst).contains view.1 && (fileOf repository oid view.1).isOk)
        "receipt commit retains an obsolete task projection"
      return ⟨before, beforeBody, after, afterBody⟩
  | _ => throw "receipt commit does not change exactly one target task"

def heartbeatFields : List String := ["task_revision", "updated_at", "claim_expires"]
def claimFields : List String := ["task_revision", "updated_at", "claim_expires", "owner", "status", "claim_process"]
def promoteFields : List String := ["task_revision", "updated_at", "status"]
def updateFields : List String := ["task_revision", "updated_at", "status", "priority", "summary", "next_action"]

/-- The fields that an operation leaves alone. -/
def stable (changing : List String) (task : Meta) : Json := .obj (task.filter fun entry => !changing.contains entry.1)

/-- A field that must be there, as text. -/
def required (task : Meta) (key : String) : Attempt String :=
  orRaise ((task.find key).map Json.toText) ("'" ++ key ++ "'")

/-- The lease that a commit grants is the requested one, up to two seconds. -/
def verifyLease (after : Meta) (minutes : Int) (operation : String) : Attempt Unit := do
  let invalid : String := "Invalid isoformat string"
  let updated ← required after "updated_at"
  let updated ← orRaise (Datetime.fromisoformat updated) invalid
  let expiry ← required after "claim_expires"
  let expiry ← orRaise (Datetime.fromisoformat expiry) invalid
  match updated.instant?, expiry.instant? with
  | some start, some finish =>
      raiseIf (2 * Datetime.second < (finish - start - minutes * 60 * Datetime.second).natAbs)
        ("receipt commit lease does not match queued " ++ operation)
  | _, _ => throw ("receipt commit " ++ operation ++ " timestamps are naive")

/-- The body of the commit ends with the note of the operation. -/
def verifyBody (change : TaskChange) (note operation : String) : Attempt Unit := do
  let at_ ← required change.after "updated_at"
  raiseIf (change.afterBody ≠ transitionNote change.beforeBody note at_)
    ("receipt commit body does not match " ++ operation)

/-- Beside the fields of the operation, the metadata of the commit is that of its parent. -/
def verifyStable (change : TaskChange) (changing : List String) (operation : String) : Attempt Unit :=
  raiseIf (!(stable changing change.before == stable changing change.after))
    ("receipt commit changes non-" ++ operation ++ " task fields")

variable (intent : Intent) (payload : Dict) (oid : String)

/-- Both sides of the change are the intent's task, at its revision and at the next. -/
def atRevisions (change : TaskChange) : Bool :=
  change.before.get "id" == .str intent.taskId && change.after.get "id" == .str intent.taskId &&
    change.before.get "task_revision" == .int intent.expectedRevision &&
    change.after.get "task_revision" == .int (intent.expectedRevision + 1)

/-- The intent's owner holds the task before and after. -/
def heldByOwner (change : TaskChange) : Bool :=
  change.before.get "owner" == payload.get "owner" && change.before.get "status" == .str "in_progress" &&
    change.after.get "owner" == payload.get "owner" && change.after.get "status" == .str "in_progress"

def unclaimed (task : Meta) : Bool := !(task.get "owner").truthy && !(task.get "claim_expires").truthy

def verifyHeartbeatDelta : Attempt Int := do
  let change ← taskChange core repository oid intent.taskId []
  raiseIf (!(atRevisions intent change && heldByOwner payload change)) "receipt commit task state does not match intent"
  verifyStable change heartbeatFields "heartbeat"
  verifyLease change.after ((payload.get "lease_minutes").int?.getD 0) "heartbeat"
  verifyBody change ("Heartbeat by " ++ (payload.get "owner").toText ++ ".") "heartbeat"
  return intent.expectedRevision + 1

def verifyPromoteDelta : Attempt Int := do
  let change ← taskChange core repository oid intent.taskId []
  raiseIf (!(atRevisions intent change && change.before.get "status" == .str "planned" && unclaimed change.before &&
    change.after.get "status" == .str "open" && unclaimed change.after))
    "receipt commit task state does not match promote intent"
  verifyStable change promoteFields "promote"
  verifyBody change (payload.get "note").toText "promote"
  return intent.expectedRevision + 1

/-- The worker that the claim is bound to, or none. -/
def identityMatches (identity : Json) : Bool :=
  if payload.has "worker_pid" then
    identity.isObj && identity.get "pid" == payload.get "worker_pid" &&
      identity.get "start_time" == payload.get "worker_start_time" && scopedClaimProcess identity
  else identity.isNull

def verifyClaimDelta : Attempt Int := do
  let change ← taskChange core repository oid intent.taskId []
  raiseIf (!(atRevisions intent change && change.before.get "status" == .str "open" && unclaimed change.before &&
    change.after.get "status" == .str "in_progress" && change.after.get "owner" == payload.get "owner" &&
    identityMatches payload (change.after.get "claim_process")))
    "receipt commit task state does not match claim intent"
  verifyStable change claimFields "claim"
  verifyLease change.after ((payload.get "lease_minutes").int?.getD 0) "claim"
  verifyBody change ("Claimed by " ++ (payload.get "owner").toText ++ ".") "claim"
  return intent.expectedRevision + 1

/-- Decode the bounded session history of one task. -/
def sessionRows (source task : String) : Attempt (List Json) := do
  let rows ← (Text.splitlines source).mapM fun line => do
    let invalid : String := "receipt session line is invalid"
    let row ← orRaise (core.loads line) invalid
    raiseIf (!row.isObj || !allowed (Records.validateSessionRecord row)) invalid
    raiseIf (!(row.get "task" == .str task)) "receipt session does not match target task"
    return row
  raiseIf (!RetryCircuit.distinct (rows.map (·.get "task_revision"))) "receipt session does not match target task"
  raiseIf (Records.maxSessionRecords < rows.length) "receipt session exceeds bounded retention"
  return rows

/-- The session history grows by exactly the record of the update. -/
def verifyUpdateSession (path : String) (after : Meta) : Attempt Unit := do
  let parent ← parentOf repository oid
  let before ← sessionRows core (fileOrEmpty repository parent path) intent.taskId
  let found ← sessionRows core (fileOrEmpty repository oid path) intent.taskId
  let at_ ← required after "updated_at"
  match Records.buildSessionRecord after "update" at_ with
  | .error _ => throw "invalid session record"
  | .ok expected =>
      raiseIf (!(Json.arr found == .arr (AutonomyLimits.lastOf Records.maxSessionRecords (before ++ [expected]))))
        "receipt session does not match update"

def verifyUpdateDelta : Attempt Int := do
  let session := "sessions/" ++ intent.taskId ++ ".jsonl"
  let change ← taskChange core repository oid intent.taskId [session]
  let changes := payload.get "changes"
  raiseIf (!changes.isObj) "receipt update changes are invalid"
  raiseIf (!(atRevisions intent change && heldByOwner payload change))
    "receipt commit task state does not match update intent"
  verifyStable change updateFields "update"
  raiseIf (["status", "priority", "summary", "next_action"].any fun name =>
    !(change.after.get name == Records.getOr changes.fields name (change.before.get name)))
    "receipt commit changes fields outside update intent"
  verifyBody change (payload.get "note").toText "update"
  verifyUpdateSession core repository intent oid session change.after
  return intent.expectedRevision + 1

def operations : List String := ["claim", "heartbeat", "promote", "update"]

def verifyOperationDelta (operation : String) : Attempt Int :=
  if operation = "heartbeat" then verifyHeartbeatDelta core repository intent payload oid
  else if operation = "claim" then verifyClaimDelta core repository intent payload oid
  else if operation = "update" then verifyUpdateDelta core repository intent payload oid
  else verifyPromoteDelta core repository intent payload oid

/-- A well-formed commit that leads up to the head of the active branch. -/
def requireActiveBranchCommit : Attempt Unit := do
  raiseIf (!isOid oid) "invalid receipt commit oid"
  raiseIf (!repository.active.contains oid) "receipt commit is not on the active state branch"

/-- Verify marker, branch and effect of a commit before it is recorded as the outcome of an intent. -/
def verifyLocalCommit : Attempt Int := do
  requireActiveBranchCommit repository oid
  let commit ← commitOf repository oid
  raiseIf (markers commit.message intent.receiptId ≠ 1) "receipt commit marker is missing or duplicated"
  raiseIf (!operations.contains intent.operation) "receipt operation is unsupported"
  raiseIf ((Text.splitlines commit.message).head? ≠ some ("chore(state): " ++ intent.operation ++ " " ++ intent.taskId))
    "receipt commit operation does not match intent"
  match core.loads intent.payloadJson with
  | some (.obj payload) => do
      let revision ← verifyOperationDelta core repository intent payload oid intent.operation
      raiseIf (core.commitSignoff && (Text.splitlines commit.message).count ("Signed-off-by: " ++ commit.committer) ≠ 1)
        "receipt commit DCO does not match committer"
      return revision
  | some _ => throw "receipt intent payload is invalid"
  | none => throw "receipt intent payload is not JSON"

end verification

/-- No commit has the marker on exactly one line of its message. -/
def Unmarked (repository : Repository) (receiptId : String) : Prop :=
  ∀ commit ∈ repository.commits, isOid commit.oid = true → markers commit.message receiptId ≠ 1

theorem unmarked_of_find {repository : Repository} {receiptId : String}
    (absent : findReceiptCommit repository receiptId = .ok none) : Unmarked repository receiptId := by
  intro commit member wellFormed marked
  obtain ⟨-, answer⟩ := raiseIf_bind_ok.mp absent
  rw [pure_eq_ok, Option.map_eq_none_iff, List.head?_eq_none_iff, List.filter_eq_nil_iff] at answer
  have line : markerOf receiptId ∈ Text.splitlines commit.message := by
    rw [← List.count_pos_iff, ← markers, marked]
    exact Nat.one_pos
  have candidate : commit ∈ repository.commits.filter fun commit => Text.occursIn (markerOf receiptId) commit.message :=
    List.mem_filter.mpr ⟨member, Text.occursIn_of_mem_splitlines line⟩
  exact answer commit candidate (by simp [wellFormed, marked])

/-- The fields that an operation may change. -/
def changing (operation : String) : List String :=
  if operation = "heartbeat" then heartbeatFields
  else if operation = "claim" then claimFields
  else if operation = "update" then updateFields
  else promoteFields

/-- The note that an operation leaves in the body. -/
def noteOf (operation : String) (payload : Dict) : String :=
  if operation = "heartbeat" then "Heartbeat by " ++ (payload.get "owner").toText ++ "."
  else if operation = "claim" then "Claimed by " ++ (payload.get "owner").toText ++ "."
  else (payload.get "note").toText

/-- The files beside the task and its views that an operation changes. -/
def sidecars (operation task : String) : List String :=
  if operation = "update" then ["sessions/" ++ task ++ ".jsonl"] else []

/-- The effect of a commit is that of the intent: one task goes from the intent's revision to the
next, with nothing but the operation's fields and its note changed. -/
structure Effective (core : Core) (repository : Repository) (intent : Intent) (payload : Dict) (oid : String)
    (change : TaskChange) : Prop where
  decoded : core.loads intent.payloadJson = some (.obj payload)
  one : taskChange core repository oid intent.taskId (sidecars intent.operation intent.taskId) = .ok change
  revisions : atRevisions intent change = true
  rest : (stable (changing intent.operation) change.before == stable (changing intent.operation) change.after) = true
  body : ∃ at_, required change.after "updated_at" = .ok at_ ∧
    change.afterBody = transitionNote change.beforeBody (noteOf intent.operation payload) at_

/-- What speaks for an intent in a repository: a commit of the active branch with the intent's
marker, the title of its operation, and its effect. -/
structure Carried (core : Core) (repository : Repository) (intent : Intent) (commit : Commit) : Prop where
  member : commit ∈ repository.commits
  active : commit.oid ∈ repository.active
  marked : markers commit.message intent.receiptId = 1
  title : (Text.splitlines commit.message).head? = some ("chore(state): " ++ intent.operation ++ " " ++ intent.taskId)
  effect : ∃ payload change, Effective core repository intent payload commit.oid change

section evidence

variable {core : Core} {repository : Repository} {intent : Intent} {payload : Dict} {oid : String} {revision : Int}

theorem verifyBody_eq_ok {change : TaskChange} {note operation : String} (verified : verifyBody change note operation = .ok ()) :
    ∃ at_, required change.after "updated_at" = .ok at_ ∧ change.afterBody = transitionNote change.beforeBody note at_ := by
  obtain ⟨at_, updated, same⟩ := bind_eq_ok.mp verified
  exact ⟨at_, updated, by simpa using raiseIf_eq_ok.mp same⟩

theorem verifyStable_eq_ok {change : TaskChange} {fields : List String} {operation : String}
    (verified : verifyStable change fields operation = .ok ()) :
    (stable fields change.before == stable fields change.after) = true := by
  simpa using raiseIf_eq_ok.mp verified

section operations

variable (decoded : core.loads intent.payloadJson = some (.obj payload))

include decoded

theorem verifyClaimDelta_effective (operation : intent.operation = "claim")
    (verified : verifyClaimDelta core repository intent payload oid = .ok revision) :
    ∃ change, Effective core repository intent payload oid change := by
  obtain ⟨change, one, verified⟩ := bind_eq_ok.mp verified
  obtain ⟨state, verified⟩ := raiseIf_bind_ok.mp verified
  obtain ⟨⟨⟩, rest, verified⟩ := bind_eq_ok.mp verified
  obtain ⟨⟨⟩, -, verified⟩ := bind_eq_ok.mp verified
  obtain ⟨⟨⟩, body, -⟩ := bind_eq_ok.mp verified
  simp only [Bool.not_eq_false', Bool.and_eq_true] at state
  refine ⟨change, decoded, ?_, state.1.1.1.1.1, ?_, ?_⟩
  · simpa [sidecars, operation] using one
  · simpa [changing, operation] using verifyStable_eq_ok rest
  · simpa [noteOf, operation] using verifyBody_eq_ok body

theorem verifyHeartbeatDelta_effective (operation : intent.operation = "heartbeat")
    (verified : verifyHeartbeatDelta core repository intent payload oid = .ok revision) :
    ∃ change, Effective core repository intent payload oid change := by
  obtain ⟨change, one, verified⟩ := bind_eq_ok.mp verified
  obtain ⟨state, verified⟩ := raiseIf_bind_ok.mp verified
  obtain ⟨⟨⟩, rest, verified⟩ := bind_eq_ok.mp verified
  obtain ⟨⟨⟩, -, verified⟩ := bind_eq_ok.mp verified
  obtain ⟨⟨⟩, body, -⟩ := bind_eq_ok.mp verified
  simp only [Bool.not_eq_false', Bool.and_eq_true] at state
  refine ⟨change, decoded, ?_, state.1, ?_, ?_⟩
  · simpa [sidecars, operation] using one
  · simpa [changing, operation] using verifyStable_eq_ok rest
  · simpa [noteOf, operation] using verifyBody_eq_ok body

theorem verifyPromoteDelta_effective (operation : intent.operation = "promote")
    (verified : verifyPromoteDelta core repository intent payload oid = .ok revision) :
    ∃ change, Effective core repository intent payload oid change := by
  obtain ⟨change, one, verified⟩ := bind_eq_ok.mp verified
  obtain ⟨state, verified⟩ := raiseIf_bind_ok.mp verified
  obtain ⟨⟨⟩, rest, verified⟩ := bind_eq_ok.mp verified
  obtain ⟨⟨⟩, body, -⟩ := bind_eq_ok.mp verified
  simp only [Bool.not_eq_false', Bool.and_eq_true] at state
  refine ⟨change, decoded, ?_, state.1.1.1.1, ?_, ?_⟩
  · simpa [sidecars, operation] using one
  · simpa [changing, operation] using verifyStable_eq_ok rest
  · simpa [noteOf, operation] using verifyBody_eq_ok body

theorem verifyUpdateDelta_effective (operation : intent.operation = "update")
    (verified : verifyUpdateDelta core repository intent payload oid = .ok revision) :
    ∃ change, Effective core repository intent payload oid change := by
  obtain ⟨change, one, verified⟩ := bind_eq_ok.mp verified
  obtain ⟨-, verified⟩ := raiseIf_bind_ok.mp verified
  obtain ⟨state, verified⟩ := raiseIf_bind_ok.mp verified
  obtain ⟨⟨⟩, rest, verified⟩ := bind_eq_ok.mp verified
  obtain ⟨-, verified⟩ := raiseIf_bind_ok.mp verified
  obtain ⟨⟨⟩, body, -⟩ := bind_eq_ok.mp verified
  simp only [Bool.not_eq_false', Bool.and_eq_true] at state
  refine ⟨change, decoded, ?_, state.1, ?_, ?_⟩
  · simpa [sidecars, operation] using one
  · simpa [changing, operation] using verifyStable_eq_ok rest
  · simpa [noteOf, operation] using verifyBody_eq_ok body

theorem verifyOperationDelta_effective (known : operations.contains intent.operation = true)
    (verified : verifyOperationDelta core repository intent payload oid intent.operation = .ok revision) :
    ∃ change, Effective core repository intent payload oid change := by
  have listed : intent.operation = "claim" ∨ intent.operation = "heartbeat" ∨ intent.operation = "promote" ∨
      intent.operation = "update" := by
    simpa [operations] using known
  rcases listed with operation | operation | operation | operation
  · have same : verifyOperationDelta core repository intent payload oid intent.operation =
        verifyClaimDelta core repository intent payload oid := by simp [verifyOperationDelta, operation]
    exact verifyClaimDelta_effective decoded operation (same ▸ verified)
  · have same : verifyOperationDelta core repository intent payload oid intent.operation =
        verifyHeartbeatDelta core repository intent payload oid := by simp [verifyOperationDelta, operation]
    exact verifyHeartbeatDelta_effective decoded operation (same ▸ verified)
  · have same : verifyOperationDelta core repository intent payload oid intent.operation =
        verifyPromoteDelta core repository intent payload oid := by simp [verifyOperationDelta, operation]
    exact verifyPromoteDelta_effective decoded operation (same ▸ verified)
  · have same : verifyOperationDelta core repository intent payload oid intent.operation =
        verifyUpdateDelta core repository intent payload oid := by simp [verifyOperationDelta, operation]
    exact verifyUpdateDelta_effective decoded operation (same ▸ verified)

end operations

/-- A commit that the worker verified speaks for the intent. -/
theorem carried_of_verified (verified : verifyLocalCommit core repository intent oid = .ok revision) :
    ∃ commit, commit.oid = oid ∧ Carried core repository intent commit := by
  unfold verifyLocalCommit at verified
  obtain ⟨⟨⟩, onBranch, verified⟩ := bind_eq_ok.mp verified
  obtain ⟨-, active⟩ := raiseIf_bind_ok.mp onBranch
  obtain ⟨commit, located, verified⟩ := bind_eq_ok.mp verified
  obtain ⟨marked, verified⟩ := raiseIf_bind_ok.mp verified
  obtain ⟨known, verified⟩ := raiseIf_bind_ok.mp verified
  obtain ⟨title, verified⟩ := raiseIf_bind_ok.mp verified
  have found := orRaise_eq_ok.mp located
  have same : commit.oid = oid := by simpa using List.find?_some found
  refine ⟨commit, same, List.mem_of_find?_eq_some found, ?_, by simpa using marked, by simpa using title, ?_⟩
  · rw [same]
    simpa using raiseIf_eq_ok.mp active
  · rw [same]
    split at verified
    · next payload decoded =>
      obtain ⟨revision, effect, -⟩ := bind_eq_ok.mp verified
      exact ⟨payload, verifyOperationDelta_effective decoded (by simpa using known) effect⟩
    · exact (throw_eq_ok.mp verified).elim
    · exact (throw_eq_ok.mp verified).elim

end evidence

end Coordinator.ReceiptWorker
