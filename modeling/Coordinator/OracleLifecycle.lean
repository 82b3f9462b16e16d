import Coordinator.Environment

/-! Interaction gates: the record of a task's gate, the events that open, resolve and reopen
its stages, and the operations that an unresolved gate blocks. -/

namespace Coordinator.OracleLifecycle
open Kit

def gateSequence : List String := ["intake", "discussion", "formal_spec_review", "reconciliation"]
def stageGateSequence : List String := ["role", "spec", "decision"]
def dispositions : List String :=
  ["accepted", "rejected", "clarify", "user-added-option", "contradiction", "unresolved"]
def actions : List String := ["open", "resolve", "reopen"]
def maxDiscussionRounds : Int := 16
def sessionActivations : List String :=
  ["user-decision", "user-detail-request", "user-proposal-review", "agent-uncertainty",
    "policy-required-approval"]
def sessionStatuses : List String := ["presenting", "clarification_requested", "resolved"]

def isUpperWord (c : Char) : Bool := Text.isUpper c || Text.isDigit c || c == '-'

/-- A fixed prefix and up to 127 upper-case letters, digits and hyphens. -/
def isReference (lead s : String) : Bool :=
  match Text.stripPrefix? lead.toList s.toList with
  | some rest => !rest.isEmpty && rest.length ≤ 127 && rest.all isUpperWord
  | none => false

/-- Two equal characters stand next to each other. -/
def doubled (c : Char) : List Char → Bool
  | a :: b :: rest => (a == c && b == c) || doubled c (b :: rest)
  | _ => false

def publicRef (s : String) : Bool :=
  Text.shape Text.isAlnum ExecutionEnvelope.isRefTail 0 127 s && !doubled '.' s.toList && !doubled '/' s.toList

def zonedText (s : String) : Option Bool := (Datetime.read s).map (fun d => d.offset.isSome)

def timestampError (value : Json) (label : String) : Option String :=
  match value with
  | .str word => match zonedText word with
      | none => some (label ++ " is invalid")
      | some false => some (label ++ " requires a timezone")
      | some true => none
  | _ => some (label ++ " is invalid")

def sessionRequired : List String :=
  ["schema_version", "session_id", "request_ref", "activation", "status", "task_revision",
    "tui_contract_version", "opened_at"]

def presentingStatus (value : Json) : Bool := value.get "status" == .str "presenting"

/-- Validate the optional record of a presented session. -/
def humanSessionErrors (value : Json) : List String :=
  if value.isNull then []
  else if !value.isObj then ["oracle_gate.human_session must be an object"]
  else if !sessionRequired.all value.has ||
      !value.fields.keys.all (fun name => (sessionRequired ++ ["closed_at"]).contains name) then
    ["oracle_gate.human_session fields are incomplete or unknown"]
  else if value.get "schema_version" != .str "1.0" || value.get "tui_contract_version" != .str "1.0" then
    ["oracle_gate.human_session contract version is unsupported"]
  else if !((value.get "session_id").isStr && isReference "AWTUI-" (value.get "session_id").text) then
    ["oracle_gate.human_session.session_id is invalid"]
  else if !((value.get "request_ref").isStr && isReference "AWG-" (value.get "request_ref").text) then
    ["oracle_gate.human_session.request_ref is invalid"]
  else if !RetryCircuit.oneOf (value.get "activation") sessionActivations ||
      !RetryCircuit.oneOf (value.get "status") sessionStatuses then
    ["oracle_gate.human_session activation or status is invalid"]
  else if !ExecutionEnvelope.positive (value.get "task_revision") then
    ["oracle_gate.human_session.task_revision is invalid"]
  else match timestampError (value.get "opened_at") "oracle_gate.human_session.opened_at" with
    | some error => [error]
    | none =>
      match if value.has "closed_at" then
          timestampError (value.get "closed_at") "oracle_gate.human_session.closed_at" else none with
      | some error => [error]
      | none =>
        if presentingStatus value && value.has "closed_at" then
          ["oracle_gate.human_session.presenting session cannot be closed"]
        else if !presentingStatus value && !value.has "closed_at" then
          ["oracle_gate.human_session closed session lacks closed_at"]
        else []

structure ArtifactRef where
  ref : String
  digest : String

def ArtifactRef.check (artifact : ArtifactRef) : Outcome Unit := do
  raiseIf (!publicRef artifact.ref) (.error "artifact ref must be a public-safe reference")
  raiseIf (!Text.isDigest artifact.digest) (.error "artifact digest must be a sha256 digest")

def ArtifactRef.asRecord (artifact : ArtifactRef) : Json :=
  .obj [("ref", .str artifact.ref), ("digest", .str artifact.digest)]

/-- One revision-bound gate event. -/
structure InteractionEvent where
  taskId : String
  taskRevision : Int
  stage : String
  action : String
  disposition : String
  before : List ArtifactRef
  after : List ArtifactRef
  publicRef : String
  recordedAt : String

def InteractionEvent.check (event : InteractionEvent) : Outcome Unit := do
  raiseIf (!isTaskId event.taskId) (.error "event task_id is invalid")
  raiseIf (event.taskRevision < 1) (.error "event task_revision must be positive")
  raiseIf (!actions.contains event.action) (.error "unknown interaction event action")
  raiseIf (!dispositions.contains event.disposition) (.error "unknown interaction disposition")
  raiseIf (event.before.isEmpty || event.after.isEmpty)
    (.error "interaction event requires before and after artifacts")
  raiseIf (!OracleLifecycle.publicRef event.publicRef) (.error "event public_ref must be a public-safe reference")
  let zoned ← orRaise (zonedText event.recordedAt) (.error "event recorded_at is invalid")
  raiseIf (!zoned) (.error "event recorded_at requires a timezone")

def InteractionEvent.asRecord (event : InteractionEvent) : Json :=
  .obj [("task_id", .str event.taskId), ("task_revision", .int event.taskRevision), ("stage", .str event.stage),
    ("action", .str event.action), ("disposition", .str event.disposition),
    ("before", .arr (event.before.map ArtifactRef.asRecord)), ("after", .arr (event.after.map ArtifactRef.asRecord)),
    ("public_ref", .str event.publicRef), ("recorded_at", .str event.recordedAt)]

def eventFields : List String :=
  ["task_id", "task_revision", "stage", "action", "disposition", "before", "after", "public_ref", "recorded_at"]

def readRefs (value : Json) (name : String) : Outcome (List ArtifactRef) := do
  raiseIf (!value.isArr) (.error ("event " ++ name ++ " must be a list"))
  value.items.mapM (fun item => do
    raiseIf (!(item.isObj && item.has "ref" && item.has "digest"))
      (.error ("event " ++ name ++ " contains an invalid artifact"))
    let artifact : ArtifactRef := { ref := (item.get "ref").toText, digest := (item.get "digest").toText }
    artifact.check
    pure artifact)

/-- Validate the record of an event as its reader does. -/
def checkRecord (value : Json) : Outcome Unit := do
  raiseIf (!value.hasExactly eventFields) (.error "interaction event fields are incomplete or unknown")
  let revision ← orRaise (value.get "task_revision").exactInt?
    (.error "interaction event task_revision is invalid")
  raiseIf (!(gateSequence ++ stageGateSequence).contains (value.get "stage").toText)
    (.error "unknown interaction gate stage")
  let before ← readRefs (value.get "before") "before"
  let after ← readRefs (value.get "after") "after"
  InteractionEvent.check
    { taskId := (value.get "task_id").toText, taskRevision := revision, stage := (value.get "stage").toText,
      action := (value.get "action").toText, disposition := (value.get "disposition").toText, before := before,
      after := after, publicRef := (value.get "public_ref").toText,
      recordedAt := (value.get "recorded_at").toText }

def gateRequired : List String := ["required", "open_stage", "completed", "events"]
def gateOptional : List String :=
  ["stage_sequence", "human_session", "authorized", "discussion_rounds", "reconciliation_required"]

/-- The stages of a gate; a null sequence counts as none. -/
def sequenceOf (value : Json) : List Json :=
  if (value.get "stage_sequence").isNull then gateSequence.map .str else (value.get "stage_sequence").items

def stageSequenceValid (value : Json) : Bool :=
  value.isNull || (value.isArr && !value.items.isEmpty && RetryCircuit.distinct value.items &&
    value.items.all (fun item => RetryCircuit.oneOf item (gateSequence ++ stageGateSequence)))

def isTrue : Json → Bool
  | .bool flag => flag
  | _ => false

/-- A field that is absent or a boolean. -/
def boolOrAbsent (value : Json) (key : String) : Bool := !value.has key || (value.get key).isBool

def roundsValid (value : Json) : Bool :=
  !value.has "discussion_rounds" || (value.get "discussion_rounds").int?.any
    (fun rounds => decide (0 ≤ rounds) && decide (rounds ≤ maxDiscussionRounds))

/-- Validate the optional gate record of a task. -/
def gateErrors (value : Json) : List String :=
  if value.isNull then []
  else if !value.isObj then ["oracle_gate must be an object"]
  else if !gateRequired.all value.has ||
      !value.fields.keys.all (fun name => (gateRequired ++ gateOptional).contains name) then
    ["oracle_gate fields are incomplete or unknown"]
  else if !isTrue (value.get "required") then ["oracle_gate.required must be true"]
  else if !stageSequenceValid (value.get "stage_sequence") then ["oracle_gate.stage_sequence is invalid"]
  else if !(value.get "open_stage").isNull && !(sequenceOf value).any (· == value.get "open_stage") then
    ["oracle_gate.open_stage is invalid"]
  else if !(value.get "completed").isArr ||
      (value.get "completed").items.any (fun item => !(sequenceOf value).any (· == item)) then
    ["oracle_gate.completed is invalid"]
  else if !roundsValid value then ["oracle_gate.discussion_rounds is invalid"]
  else if !boolOrAbsent value "authorized" then ["oracle_gate.authorized is invalid"]
  else if !boolOrAbsent value "reconciliation_required" then
    ["oracle_gate.reconciliation_required is invalid"]
  else if !(humanSessionErrors (value.get "human_session")).isEmpty then
    humanSessionErrors (value.get "human_session")
  else if !(value.get "events").isArr || 32 < (value.get "events").items.length then
    ["oracle_gate.events is invalid or unbounded"]
  else match (value.get "events").items.forM checkRecord with
    | .error (.error reason) => ["oracle_gate event invalid: " ++ reason]
    | .error (.replay reason) => ["oracle_gate event invalid: " ++ reason]
    | .ok _ =>
      let session := value.get "human_session"
      if !session.isNull && !(value.get "events").items.any (fun item =>
          item.get "action" == .str "open" && item.get "task_revision" == session.get "task_revision") then
        ["oracle_gate.human_session lacks its opening event"]
      else []

def gate (task : Meta) : Json := task.get "oracle_gate"

def sameItems (value : Json) (stages : List Json) : Bool := value == .arr stages

/-- Reject an autonomous operation while a required gate is unresolved. -/
def transitionAllowed (task : Meta) (operation : String) : Outcome Unit := do
  let value := gate task
  raiseIf (value.isObj && value.has "stage_sequence" && (value.get "stage_sequence").isNull)
    (.error "TypeError: 'NoneType' object is not iterable")
  let incomplete := value.isObj && value.has "completed" && !sameItems (value.get "completed") (sequenceOf value)
  let presenting := value.isObj && (value.get "human_session").isObj && presentingStatus (value.get "human_session")
  let reason := if (value.get "open_stage").truthy then (value.get "open_stage").toText
    else if presenting then "presenting" else "reconciliation"
  raiseIf (value.isObj && isTrue (value.get "required") &&
      ((value.get "open_stage").truthy || (value.get "reconciliation_required").truthy || incomplete || presenting) &&
      ["promote", "claim", "run", "release"].contains operation)
    (.error ("interaction gate unresolved: " ++ reason))

def freshGate : Json :=
  .obj [("required", .bool true), ("open_stage", .null), ("completed", .arr []), ("events", .arr []),
    ("discussion_rounds", .int 0), ("reconciliation_required", .bool false)]

def setDefault (fields : Dict) (key : String) (value : Json) : Dict :=
  if fields.has key then fields else fields.set key value

def raiseFirst (errors : List String) : Outcome Unit :=
  match errors with
  | [] => pure ()
  | error :: _ => .error (.error error)

/-- Another round of discussion, up to the limit. -/
def anotherRound (current : Dict) : Outcome Dict := do
  let rounds := (current.get "discussion_rounds").int?.getD 0
  raiseIf (maxDiscussionRounds ≤ rounds) (.error "repeated discussion limit exceeded")
  pure ((current.set "discussion_rounds" (.int (rounds + 1))).set "reconciliation_required" (.bool true))

/-- What an event does to the open stage and the completed ones. -/
def advance (current : Dict) (event : InteractionEvent) (index : Nat) (completed : List Json) :
    Outcome (Dict × List Json) := do
  let openStage := current.get "open_stage"
  let stage : Json := .str event.stage
  if event.action = "open" then
    raiseIf (!openStage.isNull) (.error "interaction gate already open")
    raiseIf (completed.any (· == stage) || index != completed.length)
      (.error "interaction gate skipped or already completed")
    pure (current.set "open_stage" stage, completed)
  else if event.action = "resolve" then
    raiseIf (openStage != stage) (.error "interaction event does not match open gate")
    if event.disposition = "accepted" then pure (current.set "open_stage" .null, completed ++ [stage])
    else do
      let current ← anotherRound (current.set "open_stage" stage)
      pure (current, completed)
  else
    raiseIf (!completed.any (· == stage) || !openStage.isNull) (.error "only a completed gate can be reopened")
    let current ← anotherRound (current.set "open_stage" stage)
    pure (current, completed.take index)

/-- A resolved event closes the session that was presenting. -/
def closeSession (current : Dict) (event : InteractionEvent) (humanSession : Option Json) : Dict :=
  let session := current.get "human_session"
  match humanSession with
  | some opened => current.set "human_session" opened
  | none =>
      if event.action = "resolve" && session.isObj &&
          RetryCircuit.oneOf (session.get "status") ["presenting", "clarification_requested"] then
        current.set "human_session" (.obj ((session.fields.set "status"
          (.str (if event.disposition = "accepted" then "resolved" else "clarification_requested"))).set
            "closed_at" (.str event.recordedAt)))
      else current

/-- A session is recorded only by the event that opens a gate, and only while none is presenting. -/
def requireHumanSession (current : Dict) (event : InteractionEvent) (humanSession : Option Json) : Outcome Unit :=
  match humanSession with
  | none => pure ()
  | some session => do
      raiseIf (event.action != "open") (.error "human session metadata is valid only when opening a gate")
      raiseFirst (humanSessionErrors session)
      raiseIf (session.get "task_revision" != .int event.taskRevision)
        (.error "human session task_revision does not match gate event")
      raiseIf (current.has "human_session" && (current.get "human_session").isNull)
        (.error "AttributeError: 'NoneType' object has no attribute 'get'")
      raiseIf (presentingStatus (current.get "human_session")) (.error "a human session is already presenting")

/-- Apply one event to the gate of a task. -/
def applyEvent (task : Meta) (event : InteractionEvent) (humanSession : Option Json) :
    Outcome (Meta × String) := do
  raiseIf (task.get "id" != .str event.taskId) (.error "event task_id does not match task")
  raiseIf (task.get "task_revision" != .int event.taskRevision) (.error "stale interaction event revision")
  let current := (if (gate task).truthy then gate task else freshGate).fields
  let current := if !current.has "stage_sequence" && stageGateSequence.contains event.stage then
    current.set "stage_sequence" (.arr (stageGateSequence.map .str)) else current
  raiseFirst (if (gate task).truthy && !(gate task).isObj then gateErrors (gate task) else gateErrors (.obj current))
  requireHumanSession current event humanSession
  raiseIf (current.has "stage_sequence" && (current.get "stage_sequence").isNull)
    (.error "TypeError: 'NoneType' object is not iterable")
  let completed := (current.get "completed").items
  let current := setDefault (setDefault (current.pop "authorized") "discussion_rounds" (.int 0))
    "reconciliation_required" (.bool false)
  let index ← orRaise ((sequenceOf (.obj current)).findIdx? (· == .str event.stage))
    (.error "unknown interaction gate stage")
  let (current, completed) ← advance current event index completed
  let current := if event.action = "resolve" && event.disposition = "accepted" &&
      ["reconciliation", "decision"].contains event.stage then
    current.set "reconciliation_required" (.bool false) else current
  let current := closeSession (current.set "completed" (.arr completed)) event humanSession
  let events := (current.get "events").items ++ [event.asRecord]
  raiseIf (32 < events.length) (.error "interaction event history is bounded at 32 events")
  pure (task.set "oracle_gate" (.obj (current.set "events" (.arr events))),
    "Recorded " ++ event.action ++ " interaction gate " ++ event.stage ++ "; event=" ++
      RetryCircuit.digest event.asRecord ++ ".")

end Coordinator.OracleLifecycle
