import Coordinator.Kit.Guard
import Coordinator.Kit.Sha256

/-! The identity envelope of an upgrade: the seventeen fields that bind an operation to its
authority, its barrier and its artifacts, with the digests over them. -/

namespace Coordinator.Upgrade
open Kit

/-- The exceptions that the engine tells apart, and the class names of the others. -/
inductive Fault where
  | upgradeError (message : String)
  | mutationAmbiguous
  | mutationRejected
  | commitDispatch
  | rollbackDispatch
  | controlStore (name : String)
  | other (name : String)
  deriving DecidableEq

namespace Fault

/-- The name of the class of an exception. -/
def name : Fault → String
  | upgradeError _ => "UpgradeError"
  | mutationAmbiguous => "AuthorityMutationAmbiguousError"
  | mutationRejected => "AuthorityMutationRejectedError"
  | commitDispatch => "CommitDispatchError"
  | rollbackDispatch => "RollbackDispatchError"
  | controlStore name => name
  | other name => name

/-- What leaves the outcome of a phase open. -/
def ambiguous : Fault → Bool
  | mutationAmbiguous => true
  | commitDispatch => true
  | _ => false

/-- What a rollback takes for a refusal without effect. -/
def rejected : Fault → Bool
  | mutationRejected => true
  | controlStore _ => true
  | rollbackDispatch => true
  | _ => false

end Fault

abbrev Outcome (α : Type) := Except Fault α

structure PhaseContext where
  schemaVersion : Int
  backend : String
  projectId : String
  operationId : String
  stateRevision : Int
  authorityRevision : String
  fencingToken : String
  fencingOwner : String
  durableBarrierId : String
  artifactRoot : String
  source : String
  destination : String
  manifest : String
  selectorRef : String
  barrierIdentityDigest : String
  target : String
  envelopeDigest : String
  deriving DecidableEq

namespace PhaseContext

variable (context : PhaseContext)

def asdict : Dict :=
  [("schema_version", .int context.schemaVersion), ("backend", .str context.backend),
    ("project_id", .str context.projectId), ("operation_id", .str context.operationId),
    ("state_revision", .int context.stateRevision), ("authority_revision", .str context.authorityRevision),
    ("fencing_token", .str context.fencingToken), ("fencing_owner", .str context.fencingOwner),
    ("durable_barrier_id", .str context.durableBarrierId), ("artifact_root", .str context.artifactRoot),
    ("source", .str context.source), ("destination", .str context.destination),
    ("manifest", .str context.manifest), ("selector_ref", .str context.selectorRef),
    ("barrier_identity_digest", .str context.barrierIdentityDigest), ("target", .str context.target),
    ("envelope_digest", .str context.envelopeDigest)]

end PhaseContext

def envelopeFields : List String :=
  ["schema_version", "backend", "project_id", "operation_id", "state_revision", "authority_revision",
    "fencing_token", "fencing_owner", "durable_barrier_id", "artifact_root", "source", "destination",
    "manifest", "selector_ref", "barrier_identity_digest", "target", "envelope_digest"]

def barrierIdentityFields : List String :=
  ["schema_version", "project_id", "operation_id", "state_revision", "authority_revision", "durable_barrier_id",
    "fencing_token", "fencing_owner", "target"]

def isTokenChar (c : Char) : Bool := Text.isAlnum c || c == '.' || c == '_' || c == '-'

def isToken (s : String) : Bool := Text.shape Text.isAlnum isTokenChar 0 127 s

/-! Project identities. -/

/-- Every occurrence of a part is left out, found from left to right. -/
def without (part : List Char) : Nat → List Char → List Char
  | 0, cs => cs
  | _ + 1, [] => []
  | fuel + 1, c :: cs =>
      match Text.stripPrefix? part (c :: cs) with
      | some rest => without part fuel rest
      | none => c :: without part fuel cs

/-- A decimal digit of any script as its ASCII form. -/
def asciiDigit (c : Char) : Char :=
  match Text.decimalZeros.find? (fun first => first ≤ c.toNat && c.toNat < first + 10) with
  | some first => Char.ofNat (48 + (c.toNat - first))
  | none => c

def hexValue? (c : Char) : Option Nat :=
  if Text.isDigit c then some (c.toNat - 48)
  else if 'a' ≤ c && c ≤ 'f' then some (c.toNat - 87)
  else if 'A' ≤ c && c ≤ 'F' then some (c.toNat - 55)
  else none

/-- The digits of a number in base sixteen, in groups that single underscores part. -/
def hexNumber? (cs : List Char) : Option Nat :=
  let groups := cs.splitOn '_'
  if groups.any List.isEmpty then none
  else groups.flatten.foldl (fun number c => number.bind fun n => (hexValue? c).map (16 * n + ·)) (some 0)

/-- What a text spells as an integer in base sixteen: blanks around it, a sign and a prefix are
read over. -/
def hexInt? (cs : List Char) : Option Int :=
  let plain := (Text.strip (String.ofList (cs.map asciiDigit))).toList
  let (negative, unsigned) := match plain with
    | '-' :: rest => (true, rest)
    | '+' :: rest => (false, rest)
    | rest => (false, rest)
  let digits := match unsigned with
    | '0' :: 'x' :: '_' :: rest => rest
    | '0' :: 'X' :: '_' :: rest => rest
    | '0' :: 'x' :: rest => rest
    | '0' :: 'X' :: rest => rest
    | rest => rest
  (hexNumber? digits).map fun number => if negative then -(number : Int) else number

def isBrace (c : Char) : Bool := c.toNat == 123 || c.toNat == 125

/-- A UUID of version four, in any of the forms that are read. -/
def isUuid4 (s : String) : Bool :=
  let plain := without "uuid:".toList s.length (without "urn:".toList s.length s.toList)
  let bare := ((plain.dropWhile isBrace).reverse.dropWhile isBrace).reverse
  let hex := bare.filter (· != '-')
  hex.length == 32 && match hexInt? hex with
    | some (.ofNat number) => number / 2 ^ 62 % 4 == 2 && number / 2 ^ 76 % 16 == 4
    | _ => false

/-! Paths. -/

/-- One component of a path after the components kept so far. -/
def normalized (rooted : Bool) (kept : List String) (component : String) : List String :=
  if component = "" || component = "." then kept
  else if component ≠ ".." || (!rooted && kept.isEmpty) || kept.getLast? = some ".." then kept ++ [component]
  else kept.dropLast

def normpath (path : String) : String :=
  let slashes := if !Text.hasPrefix "/" path then "" else if Text.hasPrefix "//" path && !Text.hasPrefix "///" path then "//" else "/"
  let kept := (Text.splitOn '/' path).foldl (normalized (slashes ≠ "")) []
  let text := slashes ++ Text.joined "/" kept
  if text = "" then "." else text

def canonicalPath (path : String) : Bool :=
  Text.hasPrefix "/" path && !Text.hasPrefix "//" path && !Text.contains (Char.ofNat 0) path && normpath path == path && path != "/"

/-- A path leads to another one or below it. -/
def leadsTo (parent child : String) : Bool := (Text.pathParts parent).isPrefixOf (Text.pathParts child)

def isSelectorRef (s : String) : Bool :=
  !Text.hasPrefix "/" s && !(Text.splitOn '/' s).contains ".." &&
    s.toList.all (fun c => isTokenChar c || c == '/') && 1 ≤ s.length && s.length ≤ 255 && normpath s == s

/-! Digests. -/

/-- Escapes of a string literal that leaves other alphabets alone. -/
def rawEscape (c : Char) : List Char := if 126 < c.toNat then [c] else Json.escape c

def rawQuoted (s : String) : List Char := '"' :: (Text.characters s).flatMap rawEscape ++ ['"']

/-- Compact serialization of an object of texts and integers, with its keys in order. -/
def canonicalBytes (fields : Dict) : List Char :=
  let entries := fields.insertionSort (fun a b => a.1 ≤ b.1)
  let shown := fun (value : Json) => match value with
    | .str word => rawQuoted word
    | other => other.canonical
  '\x7b' :: [','].intercalate (entries.map (fun entry => rawQuoted entry.1 ++ ':' :: shown entry.2)) ++ ['\x7d']

def selectFields (record : Dict) (fields : List String) : Dict := fields.map (fun field => (field, record.get field))

def canonicalBarrierDigest (record : Dict) : String := Sha256.hexdigest (canonicalBytes (selectFields record barrierIdentityFields))

def canonicalEnvelopeDigest (record : Dict) : String :=
  Sha256.hexdigest (canonicalBytes (selectFields record (envelopeFields.filter (· ≠ "envelope_digest"))))

/-! The envelope. -/

namespace PhaseContext

variable (context : PhaseContext)

/-- The paths keep their roles apart, and what is written stays under the artifact root. -/
def separated : Bool :=
  leadsTo context.artifactRoot context.destination && leadsTo context.artifactRoot context.manifest &&
    context.destination != context.artifactRoot && context.manifest != context.artifactRoot &&
    [(context.source, context.destination), (context.source, context.manifest), (context.destination, context.manifest)].all
      (fun roles => !leadsTo roles.1 roles.2 && !leadsTo roles.2 roles.1)

def isEnvelope : Bool :=
  context.schemaVersion == 2 && 1 ≤ context.stateRevision && isUuid4 context.projectId &&
    ["git", "sqlite"].contains context.backend && ["new", "rollback"].contains context.target &&
    [context.operationId, context.authorityRevision, context.durableBarrierId, context.fencingToken,
      context.fencingOwner].all isToken &&
    [context.barrierIdentityDigest, context.envelopeDigest].all (Text.hexText 64) &&
    [context.artifactRoot, context.source, context.destination, context.manifest].all canonicalPath &&
    isSelectorRef context.selectorRef && context.separated &&
    context.barrierIdentityDigest == canonicalBarrierDigest context.asdict &&
    context.envelopeDigest == canonicalEnvelopeDigest context.asdict

end PhaseContext

def str? : Json → Option String
  | .str word => some word
  | _ => none

/-- The fields of an envelope with the types that the checks ask for. -/
def readContext (record : Dict) : Option PhaseContext := do
  let schemaVersion ← (record.get "schema_version").exactInt?
  let backend ← str? (record.get "backend")
  let projectId ← str? (record.get "project_id")
  let operationId ← str? (record.get "operation_id")
  let stateRevision ← (record.get "state_revision").exactInt?
  let authorityRevision ← str? (record.get "authority_revision")
  let fencingToken ← str? (record.get "fencing_token")
  let fencingOwner ← str? (record.get "fencing_owner")
  let durableBarrierId ← str? (record.get "durable_barrier_id")
  let artifactRoot ← str? (record.get "artifact_root")
  let source ← str? (record.get "source")
  let destination ← str? (record.get "destination")
  let manifest ← str? (record.get "manifest")
  let selectorRef ← str? (record.get "selector_ref")
  let barrierIdentityDigest ← str? (record.get "barrier_identity_digest")
  let target ← str? (record.get "target")
  let envelopeDigest ← str? (record.get "envelope_digest")
  pure ⟨schemaVersion, backend, projectId, operationId, stateRevision, authorityRevision, fencingToken,
    fencingOwner, durableBarrierId, artifactRoot, source, destination, manifest, selectorRef,
    barrierIdentityDigest, target, envelopeDigest⟩

def validateEnvelope (record : Dict) : Option PhaseContext :=
  if (Json.obj record).hasExactly envelopeFields then (readContext record).filter PhaseContext.isEnvelope else none

theorem get_selectFields (record : Dict) {fields : List String} {field : String} (member : field ∈ fields) :
    (selectFields record fields).get field = record.get field := by
  induction fields with
  | nil => cases member
  | cons first rest ih =>
    by_cases here : first = field
    · subst here
      simp [selectFields, Dict.get, Dict.find]
    · have later := ih ((List.mem_cons.mp member).resolve_left (Ne.symm here))
      simpa [selectFields, Dict.get, Dict.find, here] using later

theorem readContext_asdict (context : PhaseContext) : readContext context.asdict = some context := rfl

theorem asdict_exact (context : PhaseContext) : (Json.obj context.asdict).hasExactly envelopeFields = true := rfl

theorem validateEnvelope_asdict {context : PhaseContext} :
    validateEnvelope context.asdict = some context ↔ context.isEnvelope = true := by
  rw [validateEnvelope, if_pos (asdict_exact context), readContext_asdict, Option.filter_some]
  simp

theorem str?_eq_some {value : Json} {word : String} : str? value = some word ↔ value = .str word := by
  cases value <;> simp [str?]

theorem validateEnvelope_eq_some {record : Dict} {context : PhaseContext} (validated : validateEnvelope record = some context) :
    readContext record = some context ∧ context.isEnvelope = true := by
  unfold validateEnvelope at validated
  split at validated
  · exact Option.filter_eq_some_iff.mp validated
  · cases validated

theorem operationId_of_readContext {record : Dict} {context : PhaseContext} (read : readContext record = some context) :
    record.get "operation_id" = .str context.operationId := by
  -- the fourth of the seventeen fields that are read
  iterate 3 obtain ⟨_, _, read⟩ := Option.bind_eq_some_iff.mp read
  obtain ⟨operationId, named, read⟩ := Option.bind_eq_some_iff.mp read
  iterate 13 obtain ⟨_, _, read⟩ := Option.bind_eq_some_iff.mp read
  cases read
  exact str?_eq_some.mp named

end Coordinator.Upgrade
