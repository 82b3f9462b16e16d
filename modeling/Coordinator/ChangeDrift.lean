import Coordinator.Lease

/-! Change drift: linked records of a worktree's baseline, of the work that differs from it and
of the explanations that completion requires. -/

namespace Coordinator.ChangeDrift
open Kit

def maxRecords : Nat := 32
def kinds : List String := ["baseline", "delta", "explain", "rescope"]
def classifications : List String := ["in_scope", "out_of_scope"]

def digest (value : Json) : String := RetryCircuit.digest value

def safePath (value : Json) : Bool :=
  value.isStr && value.text != "" && value.text.length ≤ 1024 && !Text.contains '\x00' value.text &&
    !Text.isAbsolute value.text && !(Text.pathParts value.text).contains ".."

def validWorktreeKey (value : Json) : Bool :=
  value.isStr && Text.shape Text.isAlnum ExecutionEnvelope.isNameTail 0 127 value.text

/-- Each element is strictly before the next. -/
def ascending : List String → Bool
  | a :: b :: rest => decide (a < b) && ascending (b :: rest)
  | _ => true

/-- A scope is canonical when it is a sorted list of distinct safe paths. -/
def scopeValid (value : Json) : Bool :=
  value.isArr && !value.items.isEmpty && value.items.length ≤ 64 && value.items.all safePath &&
    ascending (value.items.map Json.text)

def normalizeScope (values : List String) : Outcome (List String) := do
  raiseIf (values.isEmpty || 64 < values.length || !values.all (fun path => safePath (.str path)))
    (.error "change-drift scope must be a bounded list of safe paths")
  let normalized := values.dedup.insertionSort (· ≤ ·)
  raiseIf (normalized.length != values.length) (.error "change-drift scope contains duplicates")
  pure normalized

def inside (path : String) (scope : List String) : Bool :=
  scope.any (fun item => path == item || Text.hasPrefix (item ++ "/") path)

def contentDigestValid (value : Json) : Bool :=
  value.isStr && (value.text == "" || Text.hexText 40 value.text || Text.hexText 64 value.text)

def entryFields : List String := ["path", "previous_path", "status", "generated", "content_digest"]

def entryValid (classified : Bool) (entry : Json) : Bool :=
  entry.hasExactly (entryFields ++ if classified then ["classification", "material"] else []) &&
    safePath (entry.get "path") && (entry.get "previous_path").isStr &&
    ((entry.get "previous_path").text == "" || safePath (entry.get "previous_path")) &&
    (entry.get "status").isStr && (entry.get "status").text.length == 2 && (entry.get "generated").isBool &&
    contentDigestValid (entry.get "content_digest") &&
    (!classified || (RetryCircuit.oneOf (entry.get "classification") classifications && (entry.get "material").isBool))

def entryKey (entry : Json) : String × String × String :=
  ((entry.get "path").toText, (entry.get "previous_path").toText, (entry.get "status").toText)

def keyLe (a b : String × String × String) : Bool :=
  decide (a.1 < b.1) || (a.1 == b.1 && (decide (a.2.1 < b.2.1) || (a.2.1 == b.2.1 && decide (a.2.2 ≤ b.2.2))))

def sortedEntries : List Json → Bool
  | a :: b :: rest => keyLe (entryKey a) (entryKey b) && sortedEntries (b :: rest)
  | _ => true

def validateObservation (payload : Json) (withScope classified : Bool) : Outcome Unit := do
  raiseIf (!payload.hasExactly (["head", "entries"] ++ if withScope then ["scope"] else ["baseline_digest"]) ||
      !(payload.get "head").isStr) (.error "invalid change-drift observation payload")
  let entries := payload.get "entries"
  raiseIf (!entries.isArr || 4096 < entries.items.length) (.error "invalid change-drift observation entries")
  raiseIf (!entries.items.all (entryValid classified)) (.error "invalid change-drift observation entry")
  raiseIf (!sortedEntries entries.items) (.error "change-drift observation entries are not canonical")
  raiseIf (withScope && !scopeValid (payload.get "scope")) (.error "invalid change-drift baseline payload")

def recordFields : List String :=
  ["schema_version", "kind", "task", "task_revision", "recorded_at", "payload", "previous_digest", "digest"]

def identityFields : List String :=
  ["schema_version", "kind", "task", "task_revision", "payload", "previous_digest"]

def identityOf (record : Json) : Json := .obj (identityFields.map (fun key => (key, record.get key)))

def explanationValid (payload : Json) : Bool :=
  let paths := payload.get "paths"
  payload.hasExactly ["delta_digest", "paths", "reason", "generated"] &&
    Text.isDigest (payload.get "delta_digest").toText && paths.isArr && !paths.items.isEmpty &&
    paths.items.length ≤ 64 && paths.items.all safePath && RetryCircuit.distinct paths.items &&
    (payload.get "reason").isStr && !Text.isBlank (payload.get "reason").text &&
    (payload.get "reason").text.length ≤ 1000 && !Text.contains '\n' (payload.get "reason").text &&
    (payload.get "generated").isBool

def validate (record : Json) : Outcome Unit := do
  raiseIf (!record.hasExactly recordFields) (.error "change-drift record fields are not exact")
  raiseIf (record.get "schema_version" != .int 2 || !RetryCircuit.oneOf (record.get "kind") kinds ||
      !ExecutionEnvelope.isTask (record.get "task").toText ||
      !ExecutionEnvelope.positive (record.get "task_revision") ||
      !RetryCircuit.nonemptyStr (record.get "recorded_at") || !(record.get "previous_digest").isStr ||
      ((record.get "previous_digest").text != "" && !Text.isDigest (record.get "previous_digest").text) ||
      record.get "digest" != .str (digest (identityOf record)))
    (.error "invalid change-drift record identity")
  let payload := record.get "payload"
  raiseIf (!payload.isObj) (.error "invalid change-drift record payload")
  match (record.get "kind").text with
  | "baseline" => validateObservation payload true false
  | "delta" => do
      raiseIf (!payload.hasExactly ["baseline_digest", "head", "entries"] ||
          !Text.isDigest (payload.get "baseline_digest").toText) (.error "invalid change-drift delta payload")
      validateObservation payload false true
  | "explain" => raiseIf (!explanationValid payload) (.error "invalid change-drift explanation payload")
  | _ =>
      raiseIf (!payload.hasExactly ["baseline_digest", "scope"] ||
        !Text.isDigest (payload.get "baseline_digest").toText || !scopeValid (payload.get "scope"))
        (.error "invalid change-drift re-scope payload")

def kindOf (record : Json) : String := (record.get "kind").text
def payloadOf (record : Json) : Json := record.get "payload"
def revisionOf (record : Json) : Int := (record.get "task_revision").int?.getD 0

def latest (history : List Json) (kind : String) : Option Json :=
  history.reverse.find? (fun record => kindOf record == kind)

/-- Entries of the latest delta that are material and not explained. -/
def unresolved (history : List Json) : List Json :=
  match latest history "delta" with
  | none => []
  | some current =>
      let explained := (history.filter (fun record => kindOf record == "explain" &&
        (payloadOf record).get "delta_digest" == current.get "digest")).flatMap
          (fun record => ((payloadOf record).get "paths").items)
      ((payloadOf current).get "entries").items.filter (fun entry =>
        (entry.get "material").truthy && !explained.any (· == entry.get "path"))

/-- The active baseline and the active delta after a prefix of the history. -/
structure Cycle where
  baseline : Option Json
  delta : Option Json

def linked (cycle : Cycle) (record : Json) : Bool :=
  match cycle.baseline with
  | some baseline => cycle.delta.isNone && (payloadOf record).get "baseline_digest" == baseline.get "digest"
  | none => false

/-- What one record does to the cycle that its predecessors built. -/
def follow (cycle : Cycle) (before : List Json) (record : Json) : Outcome Cycle :=
  match kindOf record with
  | "baseline" => do
      raiseIf (cycle.delta.isSome && !(unresolved before).isEmpty)
        (.error "change-drift baseline bypasses unresolved work")
      pure ⟨some record, none⟩
  | "rescope" => do
      raiseIf (!linked cycle record) (.error "change-drift re-scope is not linked to the active baseline")
      pure cycle
  | "delta" => do
      raiseIf (!linked cycle record) (.error "change-drift delta is not linked to the active baseline")
      pure { cycle with delta := some record }
  | _ => do
      let delta ← orRaise cycle.delta (.error "change-drift explanation is not linked to the active delta")
      raiseIf ((payloadOf record).get "delta_digest" != delta.get "digest")
        (.error "change-drift explanation is not linked to the active delta")
      let material := ((payloadOf delta).get "entries").items.map (·.get "path")
      raiseIf (((payloadOf record).get "paths").items.any (fun path => !material.any (· == path)))
        (.error "change-drift explanation names unrelated paths")
      pure cycle

/-- Validate the rest of a history against the records already seen, newest last. -/
def checkHistory (taskId : Json) : List Json → Cycle → List Json → Outcome Unit
  | _, _, [] => pure ()
  | before, cycle, record :: rest => do
      validate record
      raiseIf (record.get "task" != taskId) (.error "change-drift record task differs from task")
      let previous := before.getLast?
      raiseIf (record.get "previous_digest" != (previous.map (·.get "digest")).getD (.str ""))
        (.error "change-drift history is not linked")
      raiseIf (revisionOf record ≤ (previous.map revisionOf).getD 0)
        (.error "change-drift history revisions are not increasing")
      let cycle ← follow cycle before record
      checkHistory taskId (before ++ [record]) cycle rest

def records (task : Meta) : Outcome (List Json) := do
  let value := if task.has "change_drift" then task.get "change_drift" else .arr []
  raiseIf (!value.isArr || maxRecords < value.items.length) (.error "invalid change-drift history")
  checkHistory (task.get "id") [] ⟨none, none⟩ value.items
  pure value.items

def faultText : Fault → String
  | .error message => message
  | .replay message => message

def metadataError (task : Meta) : Option String :=
  match records task with
  | .ok _ => none
  | .error fault => some (faultText fault)

def activeScope (history : List Json) (baseline : Json) : Json :=
  history.foldl (fun scope record =>
    if kindOf record == "rescope" && (payloadOf record).get "baseline_digest" == baseline.get "digest" then
      (payloadOf record).get "scope" else scope) ((payloadOf baseline).get "scope")

/-- Why a recorded cycle is not complete. -/
def completionError (history : List Json) : Option String :=
  match history.getLast? with
  | none => none
  | some current =>
      if kindOf current != "delta" && kindOf current != "explain" then
        some "CHANGE_DRIFT_DELTA_REQUIRED: active baseline requires a post-work delta"
      else if (unresolved history).isEmpty then none
      else some "CHANGE_DRIFT_UNEXPLAINED"

/-- Why the recorded drift does not admit the end of the task. -/
def doneAdmissionError (task : Meta) : Option String :=
  match records task with
  | .error fault => some ("change-drift record is invalid: " ++ faultText fault)
  | .ok history =>
      match completionError history with
      | some error =>
          if error != "CHANGE_DRIFT_UNEXPLAINED" then some error
          else some ("CHANGE_DRIFT_UNEXPLAINED: material changed paths require explanation: " ++
            Text.joined ", " ((unresolved history).map (fun entry => (entry.get "path").toText)))
      | none => none

def record (kind task : String) (revision : Int) (recordedAt : String) (payload : Json) (previousDigest : String) :
    Outcome Json := do
  raiseIf (!kinds.contains kind || !ExecutionEnvelope.isTask task || revision < 1 || recordedAt == "")
    (.error "invalid change-drift record identity")
  raiseIf (previousDigest != "" && !Text.isDigest previousDigest) (.error "invalid change-drift predecessor")
  let identity : Dict :=
    [("schema_version", .int 2), ("kind", .str kind), ("task", .str task), ("task_revision", .int revision),
      ("payload", payload), ("previous_digest", .str previousDigest)]
  pure (.obj (identity ++ [("recorded_at", .str recordedAt), ("digest", .str (digest (.obj identity)))]))

def observe (world : Moment) (key : String) : Outcome (String × List Json) :=
  match world.driftObservation key with
  | .ok found => pure found
  | .error reason => .error (.error reason)

/-- A changed entry with its place inside or outside the scope. -/
def classified (scope : List String) (entry : Json) : Json :=
  let previous := (entry.get "previous_path").toText
  let paths := (entry.get "path").toText :: if previous == "" then [] else [previous]
  .obj ((entry.fields.set "classification"
    (.str (if paths.all (fun path => inside path scope) then "in_scope" else "out_of_scope"))).set
      "material" (.bool true))

def pathPair (entry : Json) : String × String := ((entry.get "path").toText, (entry.get "previous_path").toText)

/-- The entries that differ from the baseline, in the worktree and in the commits since. -/
def changedEntries (baselineEntries current committed : List Json) (scope : List String) : List Json :=
  let before (entry : Json) : Option Json := baselineEntries.reverse.find? (fun old => pathPair old == pathPair entry)
  let worked := (current.filter (fun entry => !(before entry).any (· == entry))).map (classified scope)
  let known (entry : Json) : Bool := (baselineEntries.reverse.find? (fun old =>
    (old.get "path").toText == (entry.get "path").toText)).any (fun old =>
      (old.get "content_digest").toText == (entry.get "content_digest").toText)
  let changed := committed.foldl (fun found entry =>
    if known entry || found.any (fun old => pathPair old == pathPair entry) then found
    else found ++ [classified scope entry]) worked
  changed.insertionSort (fun a b => keyLe (entryKey a) (entryKey b))

structure Request where
  task : String
  owner : String
  expectedRevision : Int
  action : String
  scopePath : List String
  path : List String
  reason : String
  generated : Bool

def previousDigest (history : List Json) : String :=
  match history.getLast? with
  | some last => (last.get "digest").text
  | none => ""

def requireBaseline (history : List Json) (purpose : String) : Outcome Json := do
  let base ← orRaise (latest history "baseline") (.error ("change-drift " ++ purpose ++ " requires a baseline"))
  raiseIf (!(["baseline", "rescope"].contains ((history.getLast?.map kindOf).getD "")))
    (.error ("change-drift " ++ purpose ++ " requires a baseline"))
  pure base

/-- The next record of a history, and the history that it extends. -/
def nextRecord (world : Moment) (key : String) (history : List Json) (revision : Int) (timestamp : String)
    (request : Request) : Outcome (Json × List Json) :=
  match request.action with
  | "baseline" => do
      raiseIf (!history.isEmpty && (completionError history).isSome)
        (.error "change-drift baseline requires completion of the active cycle")
      let (head, entries) ← observe world key
      let scope ← normalizeScope request.scopePath
      let made ← record "baseline" request.task revision timestamp
        (.obj [("head", .str head), ("entries", .arr entries), ("scope", .arr (scope.map .str))]) ""
      pure (made, [])
  | "delta" => do
      let base ← requireBaseline history "delta"
      let (head, entries) ← observe world key
      let baseHead := ((payloadOf base).get "head").toText
      let committed ← if baseHead == head then pure [] else
        match world.driftCommitted key baseHead head with
        | .ok found => pure found
        | .error reason => throw (.error reason)
      let scope := (activeScope history base).items.map Json.toText
      let changed := changedEntries ((payloadOf base).get "entries").items entries committed scope
      let made ← record "delta" request.task revision timestamp
        (.obj [("baseline_digest", base.get "digest"), ("head", .str head), ("entries", .arr changed)])
        (previousDigest history)
      pure (made, history)
  | "explain" => do
      let current ← orRaise (latest history "delta") (.error "change-drift explanation requires a delta")
      raiseIf (request.path.isEmpty || 64 < request.path.length ||
          !request.path.all (fun path => safePath (.str path))) (.error "invalid change-drift explanation paths")
      raiseIf (Text.isBlank request.reason || 1000 < request.reason.length || Text.contains '\n' request.reason)
        (.error "change-drift explanation reason is invalid")
      let made ← record "explain" request.task revision timestamp
        (.obj [("delta_digest", current.get "digest"),
          ("paths", .arr ((request.path.dedup.insertionSort (· ≤ ·)).map .str)),
          ("reason", .str request.reason), ("generated", .bool request.generated)])
        (previousDigest history)
      pure (made, history)
  | "rescope" => do
      let base ← requireBaseline history "re-scope"
      let scope ← normalizeScope request.scopePath
      let made ← record "rescope" request.task revision timestamp
        (.obj [("baseline_digest", base.get "digest"), ("scope", .arr (scope.map .str))])
        (previousDigest history)
      pure (made, history)
  | _ => throw (.error "unknown change-drift action")

/-- Append the record of one drift action to an owned task. -/
def apply (files : Files) (world : Moment) (task : Meta) (request : Request) : Outcome (Meta × String) := do
  let settings ← orRaise files.config (.error "local configuration is unavailable")
  raiseIf (!settings.has "projects_root") (.error "KeyError: 'projects_root'")
  raiseIf (owner task != .str request.owner || status task != .str "in_progress")
    (.error "change-drift requires the active task owner")
  requireRevision task request.expectedRevision
  let history ← records task
  let revision := Meta.revision task + 1
  let key := task.get "worktree_key"
  raiseIf (!validWorktreeKey key || key.text == settings.textOr "product_worktree")
    (.error "change-drift requires a bound worktree")
  match world.worktreeRefused key.text with
  | some reason => throw (.error reason)
  | none => do
      let (made, history) ← nextRecord world key.text history revision world.now request
      raiseIf (maxRecords ≤ history.length)
        (.error "change-drift active cycle reached its bounded record limit")
      pure (task.set "change_drift" (.arr (history ++ [made])),
        "Recorded change-drift " ++ request.action ++ " " ++ (made.get "digest").text ++ ".")

end Coordinator.ChangeDrift
