import Coordinator.Kit.Paths
import Coordinator.Lease

/-! Admission of a command under the bound envelope: the class of the command, its capabilities, the scope of its declared
paths and its timeout; and the mounts of the sandbox it runs in. -/

namespace Coordinator.ExecutionEnvelope
open Kit

/-- What a look at a directory entry finds, links not followed. -/
inductive Kind where
  | directory
  | file
  | link
  deriving DecidableEq

/-- The entries below one root by their components; none where the look fails. -/
abbrev Tree := List String → Option Kind

/-- The roots that declared paths can name. -/
structure Roots where
  product : Tree
  state : Option Tree
  source : Option Tree

def Roots.find (roots : Roots) (name : String) : Option Tree :=
  if name = "product" then some roots.product
  else if name = "state" then roots.state
  else if name = "source" then roots.source
  else none

/-- The root that a selector stands for. -/
def selectedRoot (declared : String) : Option String :=
  if declared = "product-root" then some "product"
  else if declared = "state-root" then some "state"
  else if declared = "source-root" then some "source"
  else none

/-- Why a path cannot be walked; a null character is no runtime error but an invalid value. -/
inductive ScopeFault where
  | dotted
  | unavailable
  | aliased
  | null
  deriving DecidableEq

def ScopeFault.text : ScopeFault → String
  | .dotted => "execution envelope path scope is unsafe"
  | .unavailable => "execution envelope path scope is unavailable"
  | .aliased => "execution envelope path scope contains a symlink"
  | .null => "embedded null byte"

/-- Look at one component after the other. -/
def walk (tree : Tree) : List String → List String → Except ScopeFault (List String)
  | reached, [] => .ok reached
  | reached, part :: rest =>
      if Text.contains '\x00' part then .error .null
      else match tree (reached ++ [part]) with
        | none => .error .unavailable
        | some .link => .error .aliased
        | some _ => walk tree (reached ++ [part]) rest

def walkParts (tree : Tree) (parts : List String) : Except ScopeFault (List String) :=
  if parts.isEmpty || parts.any (["", ".", ".."].contains ·) then .error .dotted else walk tree [] parts

/-- Resolve a relative path without accepting links; the callers have refused absolute ones. -/
def envelopeScopePath (tree : Tree) (relative : String) : Except ScopeFault (List String) :=
  walkParts tree (Text.pathParts relative)

structure Preflight where
  allowed : Bool
  code : String
  detail : String
  envelopeId : String := ""
  envelopeDigest : String := ""

def denied (code detail : String) : Preflight := { allowed := false, code := code, detail := detail }

/-- The classes that change what they are given. -/
def mutating (command : String) : Bool := command == "source-write" || command == "git-publication"

/-- A declared path, split at its root. -/
structure Declared where
  root : String
  relative : String
  /-- The root came as a selector. -/
  selected : Bool
  /-- The root came before a colon. -/
  qualified : Bool

def parseDeclared (declared : String) : Declared :=
  let qualified := Text.contains ':' declared
  let lead := String.ofList (declared.toList.takeWhile (· ≠ ':'))
  let rest := String.ofList ((declared.toList.dropWhile (· ≠ ':')).drop 1)
  match selectedRoot declared with
  | some root => ⟨root, "", true, qualified⟩
  | none => ⟨if qualified then lead else "product", if qualified then rest else declared, false, qualified⟩

/-- A scope covers a name by the root that it selects, by being that name or by being a directory before it. -/
def covers (root name scope : String) : Bool :=
  selectedRoot scope == some root || name == Text.trimmed scope || Text.hasPrefix (Text.trimmed scope ++ "/") name

def outside (detail : String) : Preflight := denied "PATH_OUTSIDE_SCOPE" detail

/-- Walk to a declared path; a changing class may name a leaf that cannot be reached below a directory that can. -/
def walkDenial (command : String) (tree : Tree) (relative : String) : Option Preflight :=
  match envelopeScopePath tree relative with
  | .ok _ => none
  | .error .null => some (outside "declared path is unavailable or unsafe")
  | .error fault =>
      let parts := Text.pathParts relative
      if !mutating command || parts.length < 2 then
        if fault = .unavailable then some (denied "PATH_SCOPE_UNAVAILABLE" "declared path is unavailable")
        else some (outside "declared path is unavailable or unsafe")
      else match walkParts tree parts.dropLast with
        | .ok _ => none
        | .error _ => some (outside "declared path is unavailable or unsafe")

def declaredDenial (command : String) (scopes : List String) (roots : Roots) (declared : String) : Option Preflight :=
  let path := parseDeclared declared
  match roots.find path.root with
  | none =>
      if path.root == "source" && (path.selected || path.qualified) then
        some (denied "PATH_SCOPE_UNAVAILABLE" "declared root is unavailable")
      else some (outside "declared path has an unavailable or invalid root")
  | some tree =>
      if (path.relative == "" || Text.isAbsolute path.relative) && !path.selected then
        some (outside "declared path has an unavailable or invalid root")
      else
        let relative := if path.selected then "." else path.relative
        let name := if path.qualified then path.root ++ ":" ++ relative else declared
        if !scopes.any (covers path.root name) then some (outside "declared path is outside the command-class scope")
        else if relative == "." then none
        else walkDenial command tree relative

/-- The scopes of an envelope for one access. -/
def scopesOf (envelope : Json) (access : String) : List String :=
  ((envelope.get "path_scope").get access).items.map Json.text

/-- The denial of declared paths that leave the scope of their class. -/
def scopeDenial (envelope : Json) (command : String) (paths : List String) (roots : Roots) : Option Preflight :=
  if mutating command && paths.isEmpty then
    some (denied "SCOPE_DECLARATION_REQUIRED" "mutating command classes require --scope-path")
  else paths.findSome? (declaredDenial command (scopesOf envelope (if mutating command then "write" else "read")) roots)

def capabilityAllowed (envelope : Json) (name : String) : Bool :=
  match ((envelope.get "capabilities").get name).get "allowed" with
  | .bool allowed => allowed
  | _ => false

def capabilityDenial (envelope : Json) (command : String) (authorize : Bool) : Option Preflight :=
  if command == "git-publication" && !capabilityAllowed envelope "git_metadata" then
    some (denied "GIT_METADATA_CAPABILITY_DENIED" "git metadata capability is required")
  else if authorize && command != "git-publication" then
    some (denied "EXTERNAL_SIDE_EFFECTS_DENIED" "external side effects require git-publication")
  else if authorize && !capabilityAllowed envelope "network" then
    some (denied "NETWORK_CAPABILITY_DENIED" "network capability is not authorized")
  else if command == "git-publication" && capabilityAllowed envelope "network" && !authorize then
    some (denied "EXTERNAL_SIDE_EFFECT_AUTHORIZATION_REQUIRED" "network publication requires explicit authorization")
  else none

def classAllowed (envelope : Json) (command : String) : Bool :=
  commandClasses.contains command && (envelope.get "command_classes").has command &&
    (((envelope.get "command_classes").get command).get "allowed").truthy

/-- The command that an owner wants to run. -/
structure Launch where
  command : String
  paths : List String
  authorize : Bool
  timeout : Rat

/-- What the content of an envelope denies. -/
def envelopeDenial (envelope : Json) (launch : Launch) (roots : Roots) : Option Preflight :=
  if !classAllowed envelope launch.command then
    some (denied "COMMAND_CLASS_DENIED" "command class is not allowed by the envelope")
  else (capabilityDenial envelope launch.command launch.authorize).or
    (scopeDenial envelope launch.command launch.paths roots)

/-- The envelope in the task, when it is whole and the one that the task is bound to. -/
def boundEnvelope (task : Meta) : Outcome (Except Preflight Json) := do
  let envelope := task.get "execution_envelope"
  if !(task.get "execution_envelope_ref").isStr || !envelope.isObj then
    pure (.error (denied "ENVELOPE_MISSING" "task has no bound execution envelope"))
  else do
    let found ← orRaise (errors envelope) (.error "TypeError: unhashable type")
    if !found.isEmpty then pure (.error (denied "ENVELOPE_INVALID" (Text.joined "; " found)))
    else if task.get "execution_envelope_digest" != .str (canonicalDigest envelope) then
      pure (.error (denied "ENVELOPE_DIGEST_MISMATCH" "bound envelope data changed"))
    else if envelope.get "task" != task.get "id" ||
        envelope.get "envelope_revision" != task.get "execution_envelope_revision" ||
        envelope.get "task_revision" != task.get "execution_envelope_task_revision" ||
        envelope.get "spec_ref" != task.get "spec_ref" || envelope.get "spec_revision" != task.get "spec_revision" then
      pure (.error (denied "ENVELOPE_REVISION_MISMATCH" "envelope does not match durable task specification"))
    else pure (.ok envelope)

/-- The offset that stands for a trailing Z. -/
def withOffset (word : String) : String :=
  String.ofList (word.toList.flatMap (fun c => if c = 'Z' then "+00:00".toList else [c]))

/-- The denial of a claim without a lease in the future; a lease without an offset cannot be compared. -/
def leaseDenial (world : Moment) (task : Meta) : Outcome (Option Preflight) :=
  match claimExpires task with
  | .str word =>
      if word = "" then pure (some (denied "OWNER_CLAIM_REQUIRED" "active durable owner lease is required"))
      else match Datetime.read (withOffset word) with
        | none => pure (some (denied "OWNER_CLAIM_REQUIRED" "active durable owner lease is invalid"))
        | some expiry => do
            let instant ← orRaise expiry.instant?
              (.error "TypeError: can't compare offset-naive and offset-aware datetimes")
            pure (if instant ≤ world.instant then
              some (denied "OWNER_CLAIM_REQUIRED" "active durable owner lease is expired") else none)
  | _ => pure (some (denied "OWNER_CLAIM_REQUIRED" "active durable owner lease is required"))

/-- Admission under a whole envelope: the claim of the owner, its lease and the content of the envelope. -/
def claimPreflight (world : Moment) (task : Meta) (ownerId : String) (launch : Launch) (roots : Roots) (envelope : Json) :
    Outcome Preflight :=
  if owner task != .str ownerId || status task != .str "in_progress" then
    pure (denied "OWNER_CLAIM_REQUIRED" "active durable owner claim is required")
  else do
    let lapsed ← leaseDenial world task
    pure ((lapsed.or (envelopeDenial envelope launch roots)).getD
      { allowed := true, code := "ALLOWED", detail := "durable envelope admission passed",
        envelopeId := (envelope.get "envelope_id").text,
        envelopeDigest := (task.get "execution_envelope_digest").toText })

/-- Admission of a launch by the durable facts of its task; a source root has been validated or refused. -/
def preflight (world : Moment) (task : Meta) (ownerId : String) (launch : Launch) (product : Tree) (state : Option Tree)
    (source : Option (Except String Tree)) : Outcome Preflight :=
  match source with
  | some (.error reason) => pure (denied "PATH_SCOPE_UNAVAILABLE" reason)
  | _ => do
      let bound ← boundEnvelope task
      match bound with
      | .error denial => pure denial
      | .ok envelope => claimPreflight world task ownerId launch ⟨product, state, source.bind Except.toOption⟩ envelope

/-- The timeout of a launch is within the limit that its class may have. -/
def withinCap (envelope : Json) (launch : Launch) : Bool :=
  match (((envelope.get "command_classes").get launch.command).get "timeout_seconds").int? with
  | some cap => decide (launch.timeout ≤ cap)
  | none => true

/-- One mount: where it appears, the root and the components it comes from, and whether it can be written. -/
structure Mount where
  destination : String
  root : String
  parts : List String
  writable : Bool

def mountOf (roots : Roots) (writable : Bool) (declared : String) : Except String Mount := do
  let path := parseDeclared declared
  let relative := if path.selected then "." else path.relative
  match roots.find path.root with
  | none => throw "execution envelope path scope has an unavailable root"
  | some tree => do
      let destination := if path.qualified || path.selected then path.root ++ "/" ++ relative else relative
      let parts ← if relative == "." then pure [] else (envelopeScopePath tree relative).mapError ScopeFault.text
      pure ⟨destination, path.root, parts, writable⟩

/-- The mounts of one execution: what it may read, the metadata of Git and what it may write. -/
def envelopeSandboxMounts (roots : Roots) (readScope writeScope : List String) (gitMetadata : Bool) :
    Except String (List Mount) := do
  let readMounts ← readScope.mapM (mountOf roots false)
  let writeMounts ← writeScope.mapM (mountOf roots true)
  let metadata ← if gitMetadata then do
      let parts ← (envelopeScopePath roots.product ".git").mapError ScopeFault.text
      pure [⟨if roots.state.isSome then "product/.git" else ".git", "product", parts, false⟩]
    else pure []
  pure (readMounts ++ metadata ++ writeMounts)

/-- The mounts that the launch of a command computes under its envelope. -/
def launchMounts (envelope : Json) (launch : Launch) (roots : Roots) : Except String (List Mount) :=
  envelopeSandboxMounts roots (scopesOf envelope "read") (if mutating launch.command then launch.paths else [])
    (launch.command == "git-publication" && capabilityAllowed envelope "git_metadata")

end Coordinator.ExecutionEnvelope
