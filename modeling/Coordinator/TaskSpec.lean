import Coordinator.Environment

/-! Task specifications: the shape of a specification, its binding in task metadata, the ledger
of predicate evidence and the proof that the end of a task requires. -/

namespace Coordinator.TaskSpec
open Kit

def builtinClasses : List String :=
  ["mechanical", "contract-test", "property-or-fuzz", "bounded-model", "environmental"]

/-- The evidence vocabulary of the policy in force. -/
def evidenceClasses (files : Files) : List String := builtinClasses ++ files.additionalEvidenceClasses

def isEvidenceTail (c : Char) : Bool := ExecutionEnvelope.isRefTail c || c == ':'

def isSpecRef (s : String) : Bool := ExecutionEnvelope.isRef s
def isToolRef (s : String) : Bool := Text.shape Text.isAlnum isEvidenceTail 0 127 s
def isIdRef (s : String) : Bool := ExecutionEnvelope.isItemId s
def isEvidenceRef (s : String) : Bool := Text.shape Text.isAlnum isEvidenceTail 2 255 s

def isClassName (s : String) : Bool :=
  match s.toList with
  | first :: rest => Text.isLower first && !rest.isEmpty && rest.all (fun c => Text.isLower c || c == '-')
  | [] => false

def isLine (s : String) : Bool := s != "" && s.length ≤ 1000 && !Text.contains '\n' s

def specFields : List String :=
  ["acceptance_predicates", "allowed_tools", "definition_of_done", "forbidden_tools", "gates", "inputs", "outputs",
    "required_evidence_classes", "schema_version", "spec_ref", "spec_revision"]

def sorted (messages : List String) : List String := messages.dedup.insertionSort (· ≤ ·)

def strings (value : Json) (field : String) (pattern : String → Bool) (allowEmpty : Bool) : List String :=
  if !value.isArr || (value.items.isEmpty && !allowEmpty) then [field ++ " must be a non-empty array"]
  else
    (value.items.filter (fun item => !(item.isStr && pattern item.text))).map
      (fun _ => field ++ " contains an invalid value") ++
    (if !value.items.all ExecutionEnvelope.hashable then ["TypeError: unhashable type"]
      else if RetryCircuit.distinct value.items then [] else [field ++ " must not contain duplicates"])

def namedItem (field : String) (item : Json) : List String :=
  if !item.hasExactly ["id", "description"] then [field ++ " items must contain only id and description"]
  else
    (if (item.get "id").isStr && isIdRef (item.get "id").text then [] else [field ++ " has an invalid id"]) ++
    (if (item.get "description").isStr && !Text.isBlank (item.get "description").text then []
      else [field ++ " has an invalid description"])

def namedItems (value : Json) (field : String) : List String :=
  if !value.isArr || value.items.isEmpty then [field ++ " must be a non-empty array"]
  else
    let identifiers := (value.items.filter (fun item => item.hasExactly ["id", "description"] &&
      (item.get "id").isStr && isIdRef (item.get "id").text)).map (·.get "id")
    value.items.flatMap (namedItem field) ++
      (if RetryCircuit.distinct identifiers then [] else [field ++ " ids must be unique"])

def identityErrors (value : Json) : List String :=
  (value.fields.keys.filter (fun field => !specFields.contains field)).map ("spec contains unknown field: " ++ ·) ++
  (specFields.filter (fun field => !value.has field)).map ("spec missing field: " ++ ·) ++
  (if value.get "schema_version" == .int 1 then [] else ["spec schema_version must be 1"]) ++
  (if (value.get "spec_ref").isStr && isSpecRef (value.get "spec_ref").text then [] else ["spec_ref is invalid"]) ++
  (if ExecutionEnvelope.positive (value.get "spec_revision") then []
    else ["spec_revision must be a positive integer"])

def collectionErrors (value : Json) : List String :=
  namedItems (value.get "acceptance_predicates") "acceptance_predicates" ++
  strings (value.get "definition_of_done") "definition_of_done" isLine false ++
  namedItems (value.get "inputs") "inputs" ++ namedItems (value.get "outputs") "outputs" ++
  namedItems (value.get "gates") "gates"

def texts (value : Json) : List String := (value.items.filter (·.isStr)).map Json.text

def toolErrors (value : Json) (classes : List String) : List String :=
  let overlap := sorted ((texts (value.get "allowed_tools")).filter
    (fun item => (texts (value.get "forbidden_tools")).contains item))
  let evidence := value.get "required_evidence_classes"
  let unknown := sorted ((texts evidence).filter (fun item => !classes.contains item))
  strings (value.get "allowed_tools") "allowed_tools" isToolRef false ++
  strings (value.get "forbidden_tools") "forbidden_tools" isToolRef true ++
  (if overlap.isEmpty then []
    else ["allowed_tools and forbidden_tools overlap: " ++ Text.joined ", " overlap]) ++
  strings evidence "required_evidence_classes" isClassName false ++
  (if unknown.isEmpty then [] else ["unknown evidence class: " ++ Text.joined ", " unknown])

/-- The errors of one task specification, in order and without repetition. -/
def specErrors (value : Json) (classes : List String) : List String :=
  if !value.isObj then ["spec must be an object"]
  else sorted (identityErrors value ++ collectionErrors value ++ toolErrors value classes)

def metadataErrors (taskId : String) (task : Meta) : List String :=
  if !(task.get "spec_ref").isStr then [taskId ++ ": spec_ref is required"]
  else if !ExecutionEnvelope.positive (task.get "spec_revision") then
    [taskId ++ ": spec_revision must be a positive integer"]
  else []

def loadSpec (files : Files) (taskId specRef : String) : Except String Json :=
  if !isSpecRef specRef || (Text.pathParts specRef).contains ".." then .error (taskId ++ ": spec_ref is unsafe")
  else match files.spec specRef with
    | .ok value => .ok value
    | .error reason => .error (taskId ++ ": cannot read spec_ref: " ++ reason)

/-- The digest of a local artifact under a bounded relative reference, or null. -/
def artifactDigest (files : Files) (reference : Json) : Json :=
  if reference.isStr && isEvidenceRef reference.text && !Text.isAbsolute reference.text &&
      !(Text.pathParts reference.text).contains ".." then
    match files.artifact reference.text with
    | some found => .str found
    | none => .null
  else .null

def ledgerFields : List String := ["candidate_ref", "candidate_digest", "steps"]

def stepFields : List String :=
  ["predicate_id", "status", "candidate_ref", "candidate_digest", "evidence_class", "evidence_ref",
    "evidence_digest", "recorded_task_revision"]

def isPass (step : Json) : Bool := step.get "status" == .str "pass"

def evidenceRefValid (value : Json) : Bool := value.isStr && isEvidenceRef value.text
def digestValid (value : Json) : Bool := value.isStr && Text.isDigest value.text

/-- The errors of one ledger row; `seen` are the predicates that passed in earlier rows. -/
def stepErrors (files : Files) (task : Meta) (ledger : Json) (predicates : List Json) (seen : List String)
    (step : Json) : List String :=
  let candidateRef := ledger.get "candidate_ref"
  let candidateDigest := ledger.get "candidate_digest"
  let predicate := step.get "predicate_id"
  let sameCandidate := step.get "candidate_ref" == candidateRef && step.get "candidate_digest" == candidateDigest
  let when (bad : Bool) (message : String) : List String := if bad then [message] else []
  when (!predicates.any (· == predicate) || (predicate.isStr && seen.contains predicate.text && isPass step))
    "evidence ledger predicate is invalid or duplicated" ++
  when (!RetryCircuit.oneOf (step.get "status") ["pass", "stale"]) "evidence ledger step status is invalid" ++
  when (!evidenceRefValid (step.get "candidate_ref")) "evidence ledger step candidate ref is invalid" ++
  when (!digestValid (step.get "candidate_digest")) "evidence ledger step candidate digest is invalid" ++
  when (isPass step && !sameCandidate) "evidence ledger passing step candidate does not match ledger" ++
  when (isPass step && artifactDigest files (step.get "candidate_ref") != step.get "candidate_digest")
    "evidence ledger step candidate artifact digest is invalid" ++
  when (!isPass step && sameCandidate) "evidence ledger stale step candidate matches ledger" ++
  when (!RetryCircuit.oneOf (step.get "evidence_class") (evidenceClasses files))
    "evidence ledger evidence class is unknown" ++
  when (!evidenceRefValid (step.get "evidence_ref")) "evidence ledger evidence ref is invalid" ++
  when (!digestValid (step.get "evidence_digest")) "evidence ledger evidence digest is invalid" ++
  when (isPass step && artifactDigest files (step.get "evidence_ref") != step.get "evidence_digest")
    "evidence ledger evidence artifact digest is invalid" ++
  when (!(step.get "recorded_task_revision").exactInt?.any
      (fun revision => decide (1 ≤ revision) && decide (revision ≤ Meta.revision task + 1)))
    "evidence ledger step revision is invalid"

def ledgerSteps (files : Files) (task : Meta) (ledger : Json) (predicates : List Json) :
    List String → List Json → List String
  | _, [] => []
  | seen, step :: rest =>
      if !step.hasExactly stepFields then
        "evidence ledger step is incomplete or unknown" :: ledgerSteps files task ledger predicates seen rest
      else
        let predicate := step.get "predicate_id"
        stepErrors files task ledger predicates seen step ++
          ledgerSteps files task ledger predicates
            (if predicate.isStr && isPass step then predicate.text :: seen else seen) rest

def predicatesOf (spec : Json) : List Json := ((spec.get "acceptance_predicates").items.filter (·.isObj)).map (·.get "id")

/-- Validate the optional predicate ledger and the artifacts that its passing rows name. -/
def evidenceLedgerErrors (files : Files) (task : Meta) : List String :=
  let ledger := task.get "evidence_ledger"
  if ledger.isNull then []
  else if !ledger.hasExactly ledgerFields then ["evidence ledger is incomplete or unknown"]
  else if artifactDigest files (ledger.get "candidate_ref") != ledger.get "candidate_digest" then
    ["evidence ledger candidate artifact digest is invalid"]
  else if !(ledger.get "steps").isArr then ["evidence ledger steps are invalid"]
  else match loadSpec files (taskText task) (task.get "spec_ref").toText with
    | .error _ => ["evidence ledger task spec is unavailable"]
    | .ok spec =>
        if !spec.isObj then ["evidence ledger task spec is unavailable"]
        else sorted (ledgerSteps files task ledger (predicatesOf spec) [] (ledger.get "steps").items)

def hasSpec (task : Meta) : Bool := task.has "spec_ref" || task.has "spec_revision"

/-- Validate the optional specification binding of a task, and its ledger unless that is left out. -/
def taskSpecErrors (files : Files) (task : Meta) (includeLedger : Bool) : List String :=
  let taskId := if task.has "id" then taskText task else "task"
  if !hasSpec task then []
  else if !(metadataErrors taskId task).isEmpty then metadataErrors taskId task
  else match loadSpec files taskId (task.get "spec_ref").text with
    | .error reason => [reason]
    | .ok spec => sorted ((specErrors spec (evidenceClasses files)).map (fun error => taskId ++ ": " ++ error) ++
        (if spec.isObj && spec.get "spec_revision" != task.get "spec_revision" then
          [taskId ++ ": spec_revision does not match referenced spec"] else []) ++
        (if spec.isObj && spec.get "spec_ref" != task.get "spec_ref" then
          [taskId ++ ": spec_ref does not match referenced spec"] else []) ++
        (if includeLedger then evidenceLedgerErrors files task else []))

/-- The first predicate of the specification that no passing row covers. -/
def nextUnmetPredicate (files : Files) (task : Meta) : Option Json :=
  if !task.has "spec_ref" then none
  else match loadSpec files (taskText task) (task.get "spec_ref").toText with
    | .error _ => none
    | .ok spec =>
        if !spec.isObj then none
        else
          let steps := ((task.get "evidence_ledger").get "steps").items
          let passing := (steps.filter (fun step => step.isObj && isPass step)).map (·.get "predicate_id")
          ((spec.get "acceptance_predicates").items.find? (fun item =>
            !passing.any (· == item.get "id"))).map (·.get "id")

def acceptanceFields (task : Meta) : List String :=
  ["status", "evidence_class", "evidence_ref", "evidence_digest"] ++
    if hasSpec task then ["spec_ref", "spec_revision"] else ["match"]

def acceptanceError (files : Files) (task : Meta) : Option String :=
  let acceptance := task.get "spec_acceptance"
  if !acceptance.hasExactly (acceptanceFields task) then some "spec_acceptance is incomplete or unknown"
  else if !hasSpec task && acceptance.get "match" != .str "best_effort" then
    some "acceptance match is not best_effort"
  else if hasSpec task && acceptance.get "spec_ref" != task.get "spec_ref" then
    some "acceptance spec_ref does not match task spec"
  else if hasSpec task && acceptance.get "spec_revision" != task.get "spec_revision" then
    some "acceptance spec_revision does not match task spec"
  else if acceptance.get "status" != .str "pass" then some "acceptance status is not pass"
  else if !RetryCircuit.oneOf (acceptance.get "evidence_class") (evidenceClasses files) then
    some "acceptance evidence class is unknown"
  else if !evidenceRefValid (acceptance.get "evidence_ref") then some "acceptance evidence ref is invalid"
  else if !digestValid (acceptance.get "evidence_digest") then some "acceptance evidence digest is invalid"
  else none

/-- Why a task may not become done: its specification, its ledger or its acceptance lacks proof. -/
def doneAdmissionError (files : Files) (task : Meta) : Option String :=
  let denied (reason : String) : Option String := some ("done admission denied: " ++ reason)
  if !(taskSpecErrors files task true).isEmpty then
    denied (Text.joined "; " (taskSpecErrors files task true))
  else if !(task.get "evidence_ledger").isNull then
    if !(evidenceLedgerErrors files task).isEmpty then
      denied (Text.joined "; " (evidenceLedgerErrors files task))
    else if (nextUnmetPredicate files task).isSome then denied "predicate evidence steps remain unmet"
    else none
  else (acceptanceError files task).bind denied

end Coordinator.TaskSpec
