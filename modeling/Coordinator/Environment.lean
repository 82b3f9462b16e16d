import Coordinator.ExecutionEnvelope

/-! What the coordinator reads from outside the task store: the files that validators consult,
which stay as they are while the coordinator runs, and the world at the moment of one operation. -/

namespace Coordinator
open Kit

/-- Files of the state repository and settings of the projects root. -/
structure Files where
  /-- A task specification under its reference, decoded, or why it cannot be read. -/
  spec : String → Except String Json
  /-- An execution envelope under its reference, decoded, or why it cannot be read. -/
  envelope : ExecutionEnvelope.Reader
  /-- Digest of the bounded regular file under a safe reference. -/
  artifact : String → Option String
  /-- Whether a plan path, taken from the directory of the task files, is a file. -/
  planIsFile : String → Bool
  /-- Local settings, absent when they cannot be loaded. -/
  config : Option Dict
  /-- Whether a settings file exists at all. -/
  configPresent : Bool
  /-- Whether a name is no symbolic link and lies inside the projects root. -/
  insideRoot : String → String → Bool
  /-- Texts that would disclose private data, as the privacy patterns report them. -/
  privateText : String → List String
  /-- Evidence classes of the task-spec policy beyond the built-in ones. -/
  additionalEvidenceClasses : List String

/-- The world at the moment of one operation. -/
structure Moment where
  clock : Clock
  /-- Why an owner is not admitted to a role, when role management is initialized. -/
  roleDenied : String → String → Option String
  /-- Start time of a process, none for an absent one. -/
  processStartTime : Int → Except String (Option Int)
  /-- Boot digest and process namespace of the coordinator. -/
  workerScope : Except String (String × String)
  /-- Whether Git accepts a branch name and prints it unchanged. -/
  branchRef : String → Bool
  /-- Head commit of the worktree bound under a key. -/
  worktreeHead : Json → Except String String
  /-- Digest of an observed file under a safe reference. -/
  observationDigest : String → Except String String
  /-- Why the worktree bound under a key cannot be opened as a direct directory. -/
  worktreeRefused : String → Option String
  /-- Head and changed entries of the worktree bound under a key. -/
  driftObservation : String → Except String (String × List Json)
  /-- Entries of the committed difference between two heads of that worktree. -/
  driftCommitted : String → String → String → Except String (List Json)
  /-- Why a promotion is refused before any write. -/
  promotionBlocked : Option String
  /-- Why writing, committing or publishing an accepted result fails. -/
  publicationFails : Option String

def Moment.now (world : Moment) : String := world.clock.stamp

/-- The instant of the clock in microseconds. -/
def Moment.instant (world : Moment) : Int := world.clock.micros

def taskText (task : Meta) : String := task.textOr "id"

end Coordinator
