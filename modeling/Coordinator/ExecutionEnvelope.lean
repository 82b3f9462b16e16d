import Coordinator.RetryCircuit

/-! Execution envelopes: the closed shape of an envelope, its binding in task metadata, the
durable execution reservation and the replacement of a bound envelope by a narrower one. -/

namespace Coordinator.ExecutionEnvelope
open Kit

def commandClasses : List String := ["git-publication", "read", "source-write", "test"]
def capabilityKeys : List String := ["git_metadata", "network"]
def rootNames : List String := ["product", "source", "state"]
def rootSelectors : List String := ["product-root", "state-root", "source-root"]

def isRefTail (c : Char) : Bool := Text.isAlnum c || c == '.' || c == '_' || c == '/' || c == '-'
def isNameTail (c : Char) : Bool := Text.isAlnum c || c == '.' || c == '_' || c == '-'

def isRef (s : String) : Bool := Text.shape Text.isAlnum isRefTail 2 255 s

def isItemId (s : String) : Bool := Text.shape Text.isAlnum isNameTail 2 63 s

/-- `AR-` and four ASCII digits. -/
def isTask (s : String) : Bool :=
  match Text.stripPrefix? "AR-".toList s.toList with
  | some rest => Text.exactly 4 Text.isDigit rest
  | none => false

theorem isTask_iff {name : String} :
    isTask name = true ↔
      ∃ number, name.toList = 'A' :: 'R' :: '-' :: number ∧ Text.exactly 4 Text.isDigit number = true := by
  rw [isTask]
  cases stripped : Text.stripPrefix? "AR-".toList name.toList with
  | none =>
    simp only [Bool.false_eq_true, false_iff, not_exists, not_and]
    intro number spelled
    rw [spelled] at stripped
    have found := Text.stripPrefix?_append "AR-".toList number
    exact absurd (stripped.symm.trans found) (by simp)
  | some rest =>
    have spelled := Text.stripPrefix?_eq_some.mp stripped
    simp [spelled]

/-- A task identifier, `-e` and a positive number. -/
def isEnvelopeId (s : String) : Bool :=
  isTask (String.ofList (s.toList.take 7)) &&
    (match s.toList.drop 7 with
      | '-' :: 'e' :: first :: rest => '1' ≤ first && first ≤ '9' && rest.all Text.isDigit
      | _ => false)

def canonicalDigest (value : Json) : String := RetryCircuit.digest value

/-- Values that a set can hold; a list or an object raises a type error there. -/
def hashable : Json → Bool
  | .arr _ => false
  | .obj _ => false
  | _ => true

def pathValid (field : String) (item : Json) : Option String :=
  match item with
  | .str path =>
      if Text.contains ':' path then
        let root := String.ofList (path.toList.takeWhile (· ≠ ':'))
        let relative := String.ofList (path.toList.drop (root.length + 1))
        if !rootNames.contains root || relative == "" || Text.hasPrefix "/" relative || !isRef relative then
          some (field ++ " contains an invalid root-qualified path")
        else none
      else if rootSelectors.contains path then none
      else if !isRef path || Text.hasPrefix "." path then some (field ++ " contains an unsafe path")
      else none
  | _ => some (field ++ " contains an unsafe path")

/-- The errors of one path list; none at all when an item cannot be hashed. -/
def paths (value : Json) (field : String) : Option (List String) :=
  if !value.isArr || value.items.isEmpty || 64 < value.items.length then
    some [field ++ " must be a bounded nonempty list"]
  else if !value.items.all hashable then none
  else some ((if RetryCircuit.distinct value.items then [] else [field ++ " contains duplicates"]) ++
    (value.items.findSome? (pathValid field)).toList)

def positive (value : Json) : Bool := value.exactInt?.any (fun number => decide (1 ≤ number))

def identityErrors (value : Json) : List String :=
  let envelopeId := value.get "envelope_id"
  let task := value.get "task"
  (if value.get "schema_version" == .int 1 && (value.get "schema_version").exactInt?.isSome ||
      value.get "schema_version" == .int 2 && (value.get "schema_version").exactInt?.isSome then []
    else ["envelope schema_version must be 1 or 2"]) ++
  (if envelopeId.isStr && isEnvelopeId envelopeId.text then [] else ["envelope_id is invalid"]) ++
  (if task.isStr && isTask task.text then [] else ["task is invalid"]) ++
  (if envelopeId.isStr && task.isStr && !Text.hasPrefix (task.text ++ "-") envelopeId.text then
    ["envelope_id does not match task"] else []) ++
  (["envelope_revision", "task_revision", "spec_revision"].filter
    (fun name => !positive (value.get name))).map (· ++ " is invalid") ++
  (if (value.get "spec_ref").isStr && isRef (value.get "spec_ref").text then [] else ["spec_ref is invalid"])

def capabilityErrors (value : Json) : List String :=
  let capabilities := value.get "capabilities"
  if capabilities.isNull then []
  else if value.get "schema_version" != .int 2 then ["capabilities require envelope schema_version 2"]
  else if !capabilities.hasExactly capabilityKeys then
    ["capabilities must contain exactly git_metadata and network"]
  else (capabilityKeys.findSome? (fun name =>
    let item := capabilities.get name
    if item.hasExactly ["allowed"] && (item.get "allowed").isBool then none
    else some ("capability " ++ name ++ " is invalid"))).toList

def bounded (value : Json) : Bool := value.isArr && !value.items.isEmpty && value.items.length ≤ 32

def identifierErrors (value : Json) (name : String) : List String :=
  let items := value.get name
  if !bounded items then [name ++ " must be a bounded nonempty list"]
  else
    let ids := (items.items.filter (·.isObj)).map (·.get "id")
    if ids.length != items.items.length || !ids.all (fun item => item.isStr && isItemId item.text) ||
        !RetryCircuit.distinct ids then [name ++ " identifiers are invalid"]
    else []

def outputValid (item : Json) : Bool :=
  item.hasExactly ["id", "description"] && (item.get "description").isStr &&
    !Text.isBlank (item.get "description").text && (item.get "description").text.length ≤ 1000

def evidenceValid (item : Json) : Bool :=
  item.hasExactly ["id", "class", "required"] && (item.get "class").isStr &&
    Text.isHyphenated (item.get "class").text && (item.get "required").isBool

/-- The items a loop over a field visits; a value that cannot be iterated raises. -/
def iterate (value : Json) (name : String) : Option (List Json) :=
  if !value.has name then some []
  else match value.get name with
    | .arr items => some items
    | .obj entries => some ((Dict.keys entries).map .str)
    | .str word => some (word.toList.map (fun c => .str (String.ofList [c])))
    | _ => none

def itemShapeErrors (value : Json) : Option (List String) := do
  let outputs ← iterate value "outputs"
  let evidence ← iterate value "evidence"
  some ((if outputs.all outputValid then [] else ["outputs contain an invalid item"]) ++
    (if evidence.all evidenceValid then [] else ["evidence contain an invalid item"]))

def collectionErrors (value : Json) : Option (List String) := do
  let shapes ← itemShapeErrors value
  let nonGoals := value.get "non_goals"
  let valid := bounded nonGoals && nonGoals.items.all (fun item =>
    item.isStr && !Text.isBlank item.text && item.text.length ≤ 240)
  some (["outputs", "evidence", "stop_conditions"].flatMap (identifierErrors value) ++ shapes ++
    (if valid then [] else ["non_goals must be a bounded nonempty string list"]))

def validCommandRule (rule : Json) : Bool :=
  rule.isObj && rule.fields.keys.all (["allowed", "timeout_seconds"].contains ·) &&
    (rule.get "allowed").isBool &&
    (!rule.has "timeout_seconds" || (rule.get "timeout_seconds").exactInt?.any
      (fun number => decide (1 ≤ number) && decide (number ≤ 3600)))

def validStopCondition (item : Json) : Option Bool :=
  if item.hasExactly ["id", "kind"] && (item.get "id").isStr && isItemId (item.get "id").text then
    if hashable (item.get "kind") then some (RetryCircuit.oneOf (item.get "kind") ["deny", "pause"]) else none
  else some false

/-- Whether some item is invalid, found in order; a type error ends the search. -/
def anyInvalidStop : List Json → Option Bool
  | [] => some false
  | item :: rest =>
      match validStopCondition item with
      | none => none
      | some false => some true
      | some true => anyInvalidStop rest

def ruleErrors (value : Json) : Option (List String) := do
  let scope := value.get "path_scope"
  let classes := value.get "command_classes"
  let stops := value.get "stop_conditions"
  let scopeErrors ← if !scope.hasExactly ["read", "write"] then
      some ["path_scope must contain exactly read and write"]
    else do
      let read ← paths (scope.get "read") "path_scope.read"
      let write ← paths (scope.get "write") "path_scope.write"
      some (read ++ write)
  let classErrors := if !classes.isObj || classes.fields.isEmpty ||
      !classes.fields.keys.all (commandClasses.contains ·) then ["command_classes are invalid"]
    else if classes.fields.any (fun entry => !validCommandRule entry.2) then
      ["command_classes contain an invalid rule"]
    else []
  let stopErrors ← if !bounded stops then some ["stop_conditions must be a bounded nonempty list"]
    else do
      let invalid ← anyInvalidStop stops.items
      some (if invalid then ["stop_conditions contain an invalid rule"] else [])
  some (scopeErrors ++ classErrors ++ stopErrors)

/-- The fields of an envelope in order; a second version also has its capabilities. -/
def requiredFields (value : Json) : List String :=
  (if value.get "schema_version" == .int 2 && (value.get "schema_version").int?.isSome then ["capabilities"] else []) ++
    ["command_classes", "envelope_id", "envelope_revision", "evidence", "non_goals", "outputs", "path_scope",
      "schema_version", "spec_ref", "spec_revision", "stop_conditions", "task", "task_revision"]

/-- The errors of an envelope; none at all when the validator raises a type error. -/
def errors (value : Json) : Option (List String) :=
  if !value.isObj then some ["envelope must be an object"]
  else do
    let required := requiredFields value
    let collections ← collectionErrors value
    let rules ← ruleErrors value
    some ((required.filter (fun name => !value.has name)).map ("envelope missing field: " ++ ·) ++
      ((value.fields.keys.filter (fun name => !required.contains name)).insertionSort (· ≤ ·)).map
        ("envelope unknown field: " ++ ·) ++
      identityErrors value ++ capabilityErrors value ++ collections ++ rules)

def bindingFields : List String :=
  ["execution_envelope_ref", "execution_envelope_revision", "execution_envelope_task_revision",
    "execution_envelope_digest", "execution_envelope"]

def validBinding (task : Meta) : Bool :=
  bindingFields.all (fun name => (task.get name).isNull) ||
    ((task.get "execution_envelope_ref").isStr && isRef (task.get "execution_envelope_ref").text &&
      positive (task.get "execution_envelope_revision") &&
      positive (task.get "execution_envelope_task_revision") &&
      (task.get "execution_envelope_digest").isStr &&
      Text.isDigest (task.get "execution_envelope_digest").text && (task.get "execution_envelope").isObj)

def replacementValid (item : Json) : Bool :=
  item.hasExactly ["old_ref", "old_revision", "old_task_revision", "old_digest", "new_ref", "new_revision",
      "new_digest", "replaced_at"] &&
    (item.get "old_ref").isStr && (item.get "new_ref").isStr && positive (item.get "old_revision") &&
    positive (item.get "old_task_revision") && Text.isDigest (item.get "old_digest").toText &&
    positive (item.get "new_revision") && Text.isDigest (item.get "new_digest").toText &&
    (item.get "replaced_at").isStr

def validReplacements (value : Json) : Bool :=
  value.isNull || (value.isArr && value.items.length ≤ 16 && value.items.all replacementValid)

/-- A time with an offset, as the text form of a field gives it. -/
def zoned (value : Json) (key : String) : Bool := ((Datetime.read (value.textOr key)).bind (·.offset)).isSome

def reservationFields : List String :=
  ["execution_id", "owner", "task_revision", "envelope_digest", "command_class", "scope_digest",
    "argv_digest", "expires_at"]

def validReservation (value : Json) : Bool :=
  value.hasExactly reservationFields && Text.hexText 32 (value.get "execution_id").toText &&
    (value.get "owner").isStr && (value.get "owner").text != "" && (value.get "owner").text.length ≤ 128 &&
    positive (value.get "task_revision") && Text.isDigest (value.get "envelope_digest").toText &&
    RetryCircuit.oneOf (value.get "command_class") commandClasses &&
    Text.isDigest (value.get "scope_digest").toText && Text.hexText 64 (value.get "argv_digest").toText &&
    zoned value "expires_at"

/-- The file of an envelope as the loader decodes it, or the reason it cannot. -/
abbrev Reader := String → Except String Json

def load (read : Reader) (reference : String) : Outcome (Option Json × List String) :=
  if !isRef reference || Text.hasPrefix "." reference || (Text.pathParts reference).contains ".." then
    pure (none, ["envelope reference is unsafe"])
  else match read reference with
    | .error reason => pure (none, [reason])
    | .ok value => do
        let found ← orRaise (errors value) (.error "TypeError: unhashable type")
        pure (if value.isObj then some value else none, found)

def subset (narrow wide : Json) : Bool := narrow.items.all (fun item => wide.items.any (· == item))

/-- What a command line names of an envelope. -/
structure Request where
  task : String
  envelopeRef : String
  envelopeRevision : Int

def timeoutOf (rule : Json) : Int := (rule.get "timeout_seconds").int?.getD 0

/-- The replacement rules for command classes, in the order of the successor's classes. -/
def checkClasses (old : Json) : List (String × Json) → Outcome Unit
  | [] => pure ()
  | (name, rule) :: rest => do
      let prior := if old.has name then old.get name else .obj [("allowed", .bool false)]
      raiseIf ((rule.get "allowed").truthy && !(prior.get "allowed").truthy)
        (.error "replace-envelope cannot widen command classes")
      raiseIf (prior.has "timeout_seconds" && timeoutOf prior < timeoutOf rule)
        (.error "replace-envelope cannot widen command timeout")
      checkClasses old rest

/-- The capabilities, if there are any, are an object; a valid second version may have null in their place. -/
def describes (envelope : Json) : Bool := !envelope.has "capabilities" || (envelope.get "capabilities").isObj

def bind (task : Meta) (request : Request) (envelope : Json) : Meta :=
  ((((task.set "execution_envelope_ref" (.str request.envelopeRef)).set "execution_envelope_revision"
    (.int request.envelopeRevision)).set "execution_envelope_task_revision" (task.get "task_revision")).set
      "execution_envelope_digest" (.str (canonicalDigest envelope))).set "execution_envelope" envelope

def replaceBound (task : Meta) (request : Request) (read : Reader) (replacedAt : String) :
    Outcome (Meta × String) := do
  let old := task.get "execution_envelope"
  raiseIf (!old.isObj) (.error "replace-envelope requires an existing bound execution envelope")
  let oldRef := task.get "execution_envelope_ref"
  let oldRevision := task.get "execution_envelope_revision"
  let oldTaskRevision := task.get "execution_envelope_task_revision"
  let oldDigest := task.get "execution_envelope_digest"
  raiseIf (!(oldRef.isStr && oldRevision.exactInt?.isSome && oldTaskRevision.exactInt?.isSome && oldDigest.isStr))
    (.error "replace-envelope requires a coherent existing binding")
  let (loaded, found) ← load read request.envelopeRef
  raiseIf (!found.isEmpty || loaded.isNone)
    (.error ("replace-envelope envelope is invalid: " ++ Text.joined "; " found))
  let envelope := loaded.getD .null
  raiseIf (envelope.get "task" != .str request.task || envelope.get "spec_ref" != task.get "spec_ref")
    (.error "replace-envelope envelope task or spec does not match")
  raiseIf (envelope.get "task_revision" != task.get "task_revision" ||
      envelope.get "spec_revision" != task.get "spec_revision")
    (.error "replace-envelope envelope revision does not match task specification")
  raiseIf (envelope.get "envelope_revision" != .int request.envelopeRevision)
    (.error "replace-envelope envelope revision does not match")
  let actualDigest := canonicalDigest envelope
  raiseIf (oldRef == .str request.envelopeRef || envelope.get "envelope_id" == old.get "envelope_id")
    (.error "replace-envelope requires a distinct successor envelope")
  raiseIf (some request.envelopeRevision != oldRevision.exactInt?.map (· + 1) || oldDigest == .str actualDigest)
    (.error "replace-envelope successor revision or bytes are invalid")
  raiseIf (["read", "write"].any (fun access =>
      !subset ((envelope.get "path_scope").get access) ((old.get "path_scope").get access)))
    (.error "replace-envelope cannot widen path scope")
  checkClasses (old.get "command_classes") (envelope.get "command_classes").fields
  raiseIf (!describes envelope) (.error "AttributeError: 'NoneType' object has no attribute 'items'")
  raiseIf (!describes old && (envelope.get "capabilities").fields.any (fun entry => (entry.2.get "allowed").truthy))
    (.error "AttributeError: 'NoneType' object has no attribute 'get'")
  raiseIf ((envelope.get "capabilities").fields.any (fun entry =>
      (entry.2.get "allowed").truthy && !(((old.get "capabilities").get entry.1).get "allowed").truthy))
    (.error "replace-envelope cannot widen capabilities")
  raiseIf (!subset (old.get "non_goals") (envelope.get "non_goals"))
    (.error "replace-envelope cannot remove non-goals")
  let history := task.get "execution_envelope_replacements"
  raiseIf (task.has "execution_envelope_replacements" && !history.isArr)
    (.error "replace-envelope replacement evidence is invalid")
  let replacement : Json := .obj
    [("old_ref", oldRef), ("old_revision", oldRevision), ("old_task_revision", oldTaskRevision),
      ("old_digest", oldDigest), ("new_ref", .str request.envelopeRef),
      ("new_revision", .int request.envelopeRevision), ("new_digest", .str actualDigest),
      ("replaced_at", .str replacedAt)]
  pure (bind (task.set "execution_envelope_replacements" (.arr (history.items ++ [replacement]))) request envelope,
    "Replaced execution envelope " ++ oldRef.text ++ " with " ++ request.envelopeRef ++ " revision " ++
      toString request.envelopeRevision ++ ".")

end Coordinator.ExecutionEnvelope
