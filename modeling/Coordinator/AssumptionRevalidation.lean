import Coordinator.ChangeDrift

/-! Declared assumptions of a task: the linked history of their bindings and the freshness that
a material assumption owes before acceptance and completion. -/

namespace Coordinator.AssumptionRevalidation
open Kit

def maxRecords : Nat := 64
def kinds : List String := ["base", "dependency", "observation"]
def actions : List String := ["declare", "revalidate", "dispose"]
def recordFields : List String :=
  ["schema_version", "action", "id", "kind", "material", "binding", "task_revision", "previous_digest",
    "reason", "digest"]

def digest (value : Json) : String := RetryCircuit.digest value

def isAssumptionTail (c : Char) : Bool := Text.isLower c || Text.isDigit c || c == '-'
def isAssumptionId (s : String) : Bool := Text.shape Text.isLower isAssumptionTail 0 63 s
def isHead (s : String) : Bool := Text.hexText 40 s || Text.hexText 64 s

def validateBinding (kind : String) (binding : Json) : Outcome Unit := do
  raiseIf (!binding.isObj) (.error "assumption binding is invalid")
  match kind with
  | "base" =>
      raiseIf (!binding.hasExactly ["head"] || !isHead (binding.get "head").toText)
        (.error "assumption base binding is invalid")
  | "dependency" =>
      raiseIf (!binding.hasExactly ["task", "task_revision"] ||
        !ExecutionEnvelope.isTask (binding.get "task").toText ||
        !ExecutionEnvelope.positive (binding.get "task_revision"))
        (.error "assumption dependency binding is invalid")
  | "observation" =>
      raiseIf (!binding.hasExactly ["ref", "digest"] || !ChangeDrift.safePath (binding.get "ref") ||
        !Text.isDigest (binding.get "digest").toText)
        (.error "assumption observation binding is invalid")
  | _ => throw (.error "assumption kind is invalid")

def identityOf (record : Json) : Json := .obj (record.fields.pop "digest")

def identityValid (record : Json) : Bool :=
  record.get "schema_version" == .int 1 && RetryCircuit.oneOf (record.get "action") actions &&
    isAssumptionId (record.get "id").toText && RetryCircuit.oneOf (record.get "kind") kinds &&
    (record.get "material").isBool && ExecutionEnvelope.positive (record.get "task_revision") &&
    (record.get "previous_digest").isStr && (record.get "reason").isStr &&
    (record.get "reason").text.length ≤ 512 && !Text.contains '\n' (record.get "reason").text &&
    record.get "digest" == .str (digest (identityOf record)) &&
    ((record.get "previous_digest").text == "" || Text.isDigest (record.get "previous_digest").text)

def validate (record : Json) : Outcome Unit := do
  raiseIf (!record.hasExactly recordFields) (.error "assumption record fields are not exact")
  raiseIf (!identityValid record) (.error "assumption record identity is invalid")
  if record.get "action" == .str "dispose" then
    raiseIf (Text.isBlank (record.get "reason").text) (.error "assumption disposition reason is invalid")
  else raiseIf ((record.get "reason").text != "") (.error "assumption non-disposition reason is invalid")
  validateBinding (record.get "kind").text (record.get "binding")

/-- The latest record under an identifier, its first declaration keeping its place. -/
def active (history : List Json) : Dict :=
  history.foldl (fun found record => found.set (record.get "id").toText record) []

/-- What a record may do to the earlier record under its identifier. -/
def follow (old : Option Json) (record : Json) : Outcome Unit :=
  if record.get "action" == .str "declare" then
    raiseIf old.isSome (.error "assumption is declared more than once")
  else do
    let old ← orRaise old (.error "assumption follow-up is not linked to declaration")
    raiseIf (old.get "kind" != record.get "kind" || old.get "material" != record.get "material")
      (.error "assumption follow-up is not linked to declaration")
    raiseIf (old.get "action" == .str "dispose") (.error "disposed assumption cannot be changed")
    raiseIf (record.get "action" == .str "revalidate" && old.get "binding" == record.get "binding")
      (.error "assumption revalidation requires a changed binding")

def revisionOf (record : Json) : Int := (record.get "task_revision").int?.getD 0

def checkHistory : List Json → List Json → Outcome Unit
  | _, [] => pure ()
  | before, record :: rest => do
      validate record
      let previous := before.getLast?
      raiseIf (record.get "previous_digest" != (previous.map (·.get "digest")).getD (.str "") ||
          revisionOf record ≤ (previous.map revisionOf).getD 0)
        (.error "assumption history is not linked")
      follow ((active before).find (record.get "id").toText) record
      checkHistory (before ++ [record]) rest

def records (task : Meta) : Outcome (List Json) := do
  let ledger := if task.has "assumption_revalidation" then task.get "assumption_revalidation" else .arr []
  raiseIf (!ledger.isArr || maxRecords < ledger.items.length) (.error "assumption history is invalid")
  checkHistory [] ledger.items
  pure ledger.items

def metadataError (task : Meta) : Option String :=
  match records task with
  | .ok _ => none
  | .error fault => some (ChangeDrift.faultText fault)

def isLive (record : Json) : Bool := (record.get "material").truthy && record.get "action" != .str "dispose"

/-- An active material record needs a look at its present binding. -/
def needsAdmission (task : Meta) : Outcome Bool := do
  let history ← records task
  pure ((active history).any (fun entry => isLive entry.2))

def dependency (tasks : List Meta) (dependencyId : String) : Outcome Json := do
  raiseIf (!ExecutionEnvelope.isTask dependencyId) (.error "assumption dependency is invalid")
  let found ← orRaise (tasks.find? (fun task => task.get "id" == .str dependencyId))
    (.error "assumption dependency is unavailable")
  raiseIf (found.get "task_revision").exactInt?.isNone (.error "assumption dependency is unavailable")
  pure (.obj [("task", .str dependencyId), ("task_revision", found.get "task_revision")])

def worldResult (result : Except String String) : Outcome String :=
  match result with
  | .ok value => pure value
  | .error reason => .error (.error reason)

/-- The present binding of one kind of assumption. -/
def binding (world : Moment) (task : Meta) (tasks : List Meta) (kind reference : String) : Outcome Json :=
  match kind with
  | "base" => do
      raiseIf (reference != "") (.error "assumption base does not accept a reference")
      raiseIf (!ChangeDrift.safePath (task.get "worktree_key"))
        (.error "assumption base requires a safely bound worktree")
      let head ← worldResult (world.worktreeHead (task.get "worktree_key"))
      raiseIf (!isHead head) (.error "assumption base observation requires a Git HEAD")
      pure (.obj [("head", .str head)])
  | "dependency" => dependency tasks reference
  | "observation" => do
      raiseIf (!ChangeDrift.safePath (.str reference)) (.error "assumption observation ref is unsafe")
      let found ← worldResult (world.observationDigest reference)
      pure (.obj [("ref", .str reference), ("digest", .str found)])
  | _ => throw (.error "assumption kind is invalid")

def referenceOf (record : Json) : String :=
  match (record.get "kind").text with
  | "dependency" => ((record.get "binding").get "task").toText
  | "observation" => ((record.get "binding").get "ref").toText
  | _ => ""

def currentBinding (world : Moment) (task : Meta) (tasks : List Meta) (record : Json) : Outcome Json :=
  binding world task tasks (record.get "kind").text (referenceOf record)

/-- The first stale material assumption of the active records. -/
def firstStale (world : Moment) (task : Meta) (tasks : List Meta) : Dict → Outcome (Option String)
  | [] => pure none
  | (assumptionId, record) :: rest =>
      if !isLive record then firstStale world task tasks rest
      else do
        let current ← currentBinding world task tasks record
        if current != record.get "binding" then
          pure (some ("ASSUMPTION_REVALIDATION_REQUIRED: " ++ assumptionId ++ " (" ++
            (record.get "kind").toText ++ ")"))
        else firstStale world task tasks rest

def admissionError (world : Moment) (task : Meta) (tasks : List Meta) : Option String :=
  match (do let history ← records task; firstStale world task tasks (active history)) with
  | .ok found => found
  | .error fault => some ("ASSUMPTION_REVALIDATION_REQUIRED: " ++ ChangeDrift.faultText fault)

/-- The freshness check of acceptance and completion: it is made only where a record needs it. -/
def freshnessError (files : Files) (world : Moment) (task : Meta) (tasks : List Meta) : Outcome (Option String) := do
  let needed ← needsAdmission task
  if needed then do
    let settings ← orRaise files.config (.error "local configuration is unavailable")
    raiseIf (!settings.has "projects_root") (.error "KeyError: 'projects_root'")
    pure (admissionError world task tasks)
  else pure none

structure Request where
  task : String
  owner : String
  expectedRevision : Int
  action : String
  assumptionId : String
  kind : Option String
  material : Option Bool
  reference : Option String
  reason : String

/-- Materiality, kind and reference of the record that an action appends. -/
def requestIdentity (request : Request) (existing : Option Json) : Outcome (Bool × String × String) :=
  if request.action = "declare" then do
    raiseIf existing.isSome (.error "assumption is already declared")
    match request.kind, request.material with
    | some kind, some material => pure (material, kind, request.reference.getD "")
    | _, _ => throw (.error "assumption declaration requires kind and material policy")
  else do
    let existing ← orRaise existing (.error "assumption must be declared before follow-up")
    let material := (existing.get "material").truthy
    let kind := (existing.get "kind").toText
    raiseIf (existing.get "action" == .str "dispose") (.error "disposed assumption cannot be changed")
    raiseIf (request.kind.any (· != kind)) (.error "assumption kind cannot change")
    match kind with
    | "dependency" => pure (material, kind, ((existing.get "binding").get "task").toText)
    | "observation" => pure (material, kind, ((existing.get "binding").get "ref").toText)
    | _ => do
        raiseIf (request.reference.getD "" != "") (.error "assumption base does not accept a reference")
        pure (material, kind, "")

def record (action assumptionId kind : String) (material : Bool) (bound : Json) (revision : Int)
    (previousDigest reason : String) : Outcome Json := do
  raiseIf (!actions.contains action || !isAssumptionId assumptionId || !kinds.contains kind || revision < 1 ||
      (previousDigest != "" && !Text.isDigest previousDigest))
    (.error "invalid assumption record identity")
  let identity : Dict :=
    [("schema_version", .int 1), ("action", .str action), ("id", .str assumptionId), ("kind", .str kind),
      ("material", .bool material), ("binding", bound), ("task_revision", .int revision),
      ("previous_digest", .str previousDigest), ("reason", .str reason)]
  pure (.obj (identity ++ [("digest", .str (digest (.obj identity)))]))

/-- Append a declaration, a revalidation with a changed binding or a disposition. -/
def apply (files : Files) (world : Moment) (task : Meta) (tasks : List Meta) (request : Request) :
    Outcome (Meta × String) := do
  let settings ← orRaise files.config (.error "local configuration is unavailable")
  raiseIf (!settings.has "projects_root") (.error "KeyError: 'projects_root'")
  raiseIf (task.get "id" != .str request.task) (.error "assumption task does not match selected task")
  requireOwner task request.task request.owner
  raiseIf (status task != .str "in_progress") (.error "assumption changes require an active task")
  requireRevision task request.expectedRevision
  let history ← records task
  raiseIf (maxRecords ≤ history.length) (.error "assumption history reached its bounded record limit")
  let existing := (active history).find request.assumptionId
  let (material, kind, reference) ← requestIdentity request existing
  let bound ← binding world task tasks kind reference
  raiseIf (request.action == "revalidate" && (existing.map (·.get "binding")).all (bound == ·))
    (.error "assumption revalidation requires a changed binding")
  raiseIf (request.action == "dispose" && Text.isBlank request.reason)
    (.error "assumption disposition requires a reason")
  let made ← record request.action request.assumptionId kind material bound (Meta.revision task + 1)
    (ChangeDrift.previousDigest history) (if request.action == "dispose" then request.reason else "")
  pure (task.set "assumption_revalidation" (.arr (history ++ [made])),
    "Recorded assumption " ++ request.action ++ " for " ++ request.assumptionId ++ ".")

end Coordinator.AssumptionRevalidation
