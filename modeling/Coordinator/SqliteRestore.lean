import Coordinator.Environment
import Coordinator.Kit.Attempt

/-! Restoring a SQLite authority from a verified backup: the sidecars of the destination, the copy beside it, the link
that preserves it, the publication by one rename, and what undoes it. -/

namespace Coordinator.SqliteBackup
open Kit

/-- The operations that may fail, in the order in which a restore comes to them. Identity checks compare two readings;
that they differ because another process interferes is a fault of the later one. -/
inductive Step
  | backupFile | session | backupIdentity | digest | integrity | backupReread | sessionAgain
  | walStatus | shmStatus | parentStatus | destinationStatus | walSize | parentReread | destinationReread
  | walReread | shmReread | removeWal | removeShm | syncSidecars
  | safeParent | makeParent | makeTemporary | sourceIdentity | copy | copyIntegrity | sourceReread | chmod | parentCheck
  | destinationIdentity | previousStatus | makePrevious | unlinkPrevious | linkPrevious | linkReread | dropPrevious
  | parentAfter | destinationAfter | destinationLast | replace | syncDirectory
  | undo | syncUndo
  | unlinkTemporary | unlinkTemporaryWal | unlinkTemporaryShm | unlinkPreviousPath
  deriving DecidableEq

/-- The main file of a database: whether it is a regular file, whether it is one of our own without other links, and
the database in it. -/
structure Main (Base : Type) where
  regular : Bool
  owned : Bool
  content : Base

/-- A write-ahead log. An empty file holds no frames. -/
structure Log (Frame : Type) where
  owned : Bool
  size : Nat
  frames : List Frame
  sized : frames ≠ [] → size ≠ 0

/-- The files that a restore touches, and two variables of the installer. A preserved or temporary file may still be
empty. -/
structure Files (Base Frame : Type) where
  destination : Option (Main Base)
  wal : Option (Log Frame)
  /-- Whether the shared-memory file, where there is one, is our own. -/
  shm : Option Bool
  temporary : Option (Option Base)
  temporaryWal : Bool
  temporaryShm : Bool
  previous : Option (Option (Main Base))
  replaced : Bool
  previousPath : Bool

variable {Base Frame : Type}

/-- The content of the authority: its main file with the committed frames of its log. -/
def held (apply : Base → Frame → Base) (files : Files Base Frame) : Option Base :=
  files.destination.map fun main => ((files.wal.map Log.frames).getD []).foldl apply main.content

/-- The library that opens a database to move its log into the main file. Whatever comes of a checkpoint, it keeps the
content of the database and touches no other file, and one that reports nothing left has truncated the log. -/
structure Engine (apply : Base → Frame → Base) where
  checkpoint : Files Base Frame → Option (Int × Int × Int) × Files Base Frame
  keeps : ∀ files, held apply (checkpoint files).2 = held apply files
  apart : ∀ files, (checkpoint files).2 = { files with
    destination := (checkpoint files).2.destination, wal := (checkpoint files).2.wal, shm := (checkpoint files).2.shm }
  truncates : ∀ files, (checkpoint files).1 = some (0, 0, 0) → ∀ log ∈ (checkpoint files).2.wal, log.frames = []

/-- A restore as it is asked for. -/
structure Request (Base : Type) where
  quiesced : Bool
  manifest : Dict
  /-- The digest of the backup and the database in it. -/
  digest : String
  backup : Base
  /-- Whether a database passes its integrity checks and belongs to the binding. -/
  verified : Base → Bool

def manifestFields : List String :=
  ["schema_version", "kind", "database_sha256", "integrity_check", "foreign_key_check", "binding_verified", "wal_consistent"]

def validateManifest (manifest : Dict) : Except String Unit := do
  raiseIf (!(Json.obj manifest).hasExactly manifestFields) "backup manifest has unknown or missing fields"
  raiseIf (manifest.get "schema_version" != .int 1 || manifest.get "kind" != .str "sqlite-online-backup" ||
      manifest.get "integrity_check" != .str "ok" || manifest.get "foreign_key_check" != .str "ok" ||
      manifest.get "binding_verified" != .bool true || manifest.get "wal_consistent" != .bool true)
    "backup manifest has invalid verification claims"

abbrev Restoring (Base Frame : Type) := Attempt (Files Base Frame) String

def ambiguous : String := "SQLite installation failed and authority restore was ambiguous"

section

variable {apply : Base → Frame → Base} (engine : Engine apply) (request : Request Base) (faults : Step → Bool)

/-- An operation on the files. -/
def step (at_ : Step) (message : String) (change : Files Base Frame → Files Base Frame) : Restoring Base Frame Unit :=
  .act (if faults at_ then some message else none) change

/-- A reading that has to show what it did before. -/
def reads (at_ : Step) (message : String) : Restoring Base Frame Unit := .lift (raiseIf (faults at_) message)

def refuse (bad : Bool) (message : String) : Restoring Base Frame Unit := .lift (raiseIf bad message)

def removeSidecars : Restoring Base Frame Unit := do
  let final ← .look id
  .when final.wal.isSome
    (step faults .removeWal "failed to remove checkpointed SQLite sidecar" fun files => { files with wal := none })
  .when final.shm.isSome
    (step faults .removeShm "failed to remove checkpointed SQLite sidecar" fun files => { files with shm := none })
  .when (final.wal.isSome || final.shm.isSome)
    (reads faults .syncSidecars "failed to remove checkpointed SQLite sidecars")

/-- Truncate the log through the library and tell what it reports. -/
def runCheckpoint : Restoring Base Frame Unit := do
  let result ← .ask engine.checkpoint
  refuse result.isNone "restore could not checkpoint destination WAL sidecars"
  refuse (result != some (0, 0, 0)) "restore requires a checkpointed destination without live WAL sidecars"

/-- Checkpoint and remove the sidecars that a dead writer has left. -/
def recoverCheckpointedSidecars : Restoring Base Frame Unit := do
  let initial ← .look id
  reads faults .walStatus "SQLite WAL sidecar metadata is unavailable"
  refuse (initial.wal.any (!·.owned)) "SQLite WAL sidecar is unsafe"
  reads faults .shmStatus "SQLite SHM sidecar metadata is unavailable"
  refuse (initial.shm.any (!·)) "SQLite SHM sidecar is unsafe"
  if initial.wal.isNone && initial.shm.isNone then pure ()
  else
    refuse initial.destination.isNone "restore requires a checkpointed destination without live WAL sidecars"
    reads faults .parentStatus "SQLite destination parent is unavailable"
    reads faults .destinationStatus "existing destination metadata is unavailable"
    refuse (initial.destination.any fun main => !main.regular || !main.owned) "existing destination is unsafe"
    reads faults .walSize "restore requires safe SQLite sidecars"
    refuse (initial.wal.any (·.size != 0)) "restore requires a checkpointed destination without live WAL sidecars"
    runCheckpoint engine
    reads faults .parentReread "SQLite sidecar parent identity changed"
    reads faults .destinationReread "existing destination identity changed"
    let final ← .look id
    reads faults .walReread "SQLite sidecar identity changed"
    reads faults .shmReread "SQLite sidecar identity changed"
    refuse ((initial.wal.isNone && final.wal.isSome) || (initial.shm.isNone && final.shm.isSome))
      "SQLite sidecar identity changed"
    removeSidecars faults

def notRegular (files : Files Base Frame) : Bool := files.destination.any (!·.regular)

/-- Link the destination under the name that was made for it. -/
def linkExisting : Restoring Base Frame Unit := do
  step faults .unlinkPrevious "failed to preserve existing SQLite destination" fun files => { files with previous := none }
  step faults .linkPrevious "failed to preserve existing SQLite destination"
    fun files => { files with previous := files.destination.map some }
  reads faults .linkReread "existing destination changed during preservation"

def dropLink (message : String) : Restoring Base Frame Unit := do
  step faults .dropPrevious "failed to clean up temporary file previous" fun files => { files with previous := none }
  .fail message

/-- Keep the destination under a second name. -/
def backupExisting : Restoring Base Frame Unit := do
  let files ← .look id
  if files.destination.isNone then pure ()
  else
    refuse (notRegular files) "existing destination must be a regular file"
    reads faults .previousStatus "existing destination disappeared"
    step faults .makePrevious "online SQLite backup or installation failed" fun files => { files with previous := some none }
    (linkExisting faults).handle (dropLink faults)
    .act none fun files => { files with previousPath := true }

/-- The copy in its temporary file, with the sidecars of the connection that wrote it. -/
def withCopy (files : Files Base Frame) : Files Base Frame :=
  { files with temporary := some (some request.backup), temporaryWal := true, temporaryShm := true }

/-- The verified copy beside the destination. -/
def copyOnline : Restoring Base Frame Unit := do
  reads faults .sourceIdentity "source database disappeared"
  step faults .copy "online SQLite backup or installation failed" (withCopy request)
  reads faults .copyIntegrity "backup database cannot be opened for integrity verification"
  refuse (!request.verified request.backup) "backup database integrity verification failed"
  reads faults .sourceReread "source database changed during backup"
  reads faults .chmod "online SQLite backup or installation failed"

/-- The installer up to the rename. -/
def prepare : Restoring Base Frame Unit := do
  copyOnline request faults
  reads faults .parentCheck "SQLite destination parent identity changed"
  reads faults .destinationIdentity "existing destination disappeared"
  let files ← .look id
  refuse (notRegular files) "existing destination must be a regular file"
  backupExisting faults
  reads faults .parentAfter "SQLite destination parent identity changed"
  reads faults .destinationAfter "existing destination changed before publication"
  let files ← .look id
  refuse (files.wal.isSome || files.shm.isSome) "SQLite destination sidecar appeared before publication"
  reads faults .destinationLast "existing destination changed before publication"

/-- The rename that publishes the copy. -/
def publish : Restoring Base Frame Unit := do
  step faults .replace "online SQLite backup or installation failed" fun files => { files with
    destination := (files.temporary.bind id).map fun content => ⟨true, true, content⟩, temporary := none, replaced := true }
  reads faults .syncDirectory "online SQLite backup or installation failed"

def restoreExisting : Restoring Base Frame Unit := do
  let files ← .look id
  if !files.previousPath then step faults .undo ambiguous fun files => { files with destination := none }
  else
    step faults .undo ambiguous fun files => { files with destination := files.previous.bind id, previous := none }
    reads faults .syncUndo ambiguous

/-- Undo a publication that did not come to its end. -/
def undoPublication (message : String) : Restoring Base Frame Unit := do
  let files ← .look id
  .when files.replaced do
    restoreExisting faults
    .act none fun files => { files with previousPath := false }
  .fail message

def unlink (at_ : Step) (name : String) (change : Files Base Frame → Files Base Frame) : Restoring Base Frame Unit :=
  step faults at_ ("failed to clean up temporary file " ++ name) change

def lastError (outcomes : List (Except String Unit)) : Except String Unit :=
  (outcomes.reverse.find? fun outcome => !allowed outcome).getD (.ok ())

/-- Remove what is left of the temporary files; the last failure is raised when all have been tried. -/
def cleanup : Restoring Base Frame Unit := do
  let files ← .look id
  let first ← .attempt (unlink faults .unlinkTemporary "temporary" fun files => { files with temporary := none })
  let second ← .attempt (unlink faults .unlinkTemporaryWal "temporary-wal" fun files => { files with temporaryWal := false })
  let third ← .attempt (unlink faults .unlinkTemporaryShm "temporary-shm" fun files => { files with temporaryShm := false })
  let fourth ← .attempt (.when files.previousPath
    (unlink faults .unlinkPreviousPath "previous" fun files => { files with previous := none }))
  .lift (lastError [first, second, third, fourth])

def install : Restoring Base Frame Unit := do
  reads faults .safeParent "SQLite destination parent must not contain symlinks"
  reads faults .makeParent "failed to allocate temporary SQLite destination"
  step faults .makeTemporary "failed to allocate temporary SQLite destination" fun files => { files with temporary := some none }
  .act none fun files => { files with replaced := false, previousPath := false }
  let body : Restoring Base Frame Unit := do
    prepare request faults
    publish faults
  (body.handle (undoPublication faults)).ensuring (cleanup faults)

/-- What is checked of the backup before anything is touched. -/
def admission : Restoring Base Frame Unit := do
  refuse (!request.quiesced) "restore requires a proven quiesced authority"
  reads faults .backupFile "backup database must be a regular file"
  reads faults .session "SQLite lifecycle session is not bound to backup"
  reads faults .backupIdentity "backup database disappeared"
  .lift (validateManifest request.manifest)
  reads faults .digest "database disappeared while hashing"
  refuse (request.manifest.get "database_sha256" != .str request.digest)
    "backup manifest is missing or does not match the backup"
  reads faults .integrity "backup database cannot be opened for integrity verification"
  refuse (!request.verified request.backup) "backup database integrity verification failed"
  reads faults .backupReread "backup database changed during restore"
  reads faults .sessionAgain "SQLite lifecycle session changed before install"

def restoreDatabase : Restoring Base Frame Unit := do
  admission request faults
  recoverCheckpointedSidecars engine faults
  install request faults

end

section returns

variable {apply : Base → Frame → Base} {engine : Engine apply} {request : Request Base} {faults : Step → Bool}
  {before after : Files Base Frame} {u : Unit}

@[simp] theorem returns_step {at_ : Step} {message : String} {change : Files Base Frame → Files Base Frame} :
    Attempt.Returns before (step faults at_ message change) u after ↔ faults at_ = false ∧ change before = after := by
  cases failed : faults at_ <;> simp [step, failed]

variable {α : Type} {rest : Unit → Restoring Base Frame α} {value : α}

@[simp] theorem returns_step_bind {at_ : Step} {message : String} {change : Files Base Frame → Files Base Frame} :
    Attempt.Returns before (step faults at_ message change >>= rest) value after ↔
      faults at_ = false ∧ Attempt.Returns (change before) (rest ()) value after := by
  simp [Attempt.returns_bind, exists_unit]

@[simp] theorem returns_reads {at_ : Step} {message : String} :
    Attempt.Returns before (reads faults at_ message) u after ↔ faults at_ = false ∧ before = after := by
  simp [reads]

@[simp] theorem returns_reads_bind {at_ : Step} {message : String} : Attempt.Returns before (reads faults at_ message >>= rest) value after ↔
    faults at_ = false ∧ Attempt.Returns before (rest ()) value after := by
  simp [Attempt.returns_bind, exists_unit]

@[simp] theorem returns_refuse_bind {bad : Bool} {message : String} : Attempt.Returns before (refuse bad message >>= rest) value after ↔
    bad = false ∧ Attempt.Returns before (rest ()) value after := by
  simp [refuse, exists_unit]

@[simp] theorem returns_refuse {bad : Bool} {message : String} : Attempt.Returns before (refuse bad message) u after ↔
    bad = false ∧ before = after := by
  simp [refuse]

/-- A backup that a restore takes. -/
structure Admitted (request : Request Base) : Prop where
  quiesced : request.quiesced = true
  manifest : validateManifest request.manifest = .ok ()
  digest : request.manifest.get "database_sha256" = .str request.digest
  verified : request.verified request.backup = true

def admitSteps : List Step := [.backupFile, .session, .backupIdentity, .digest, .integrity, .backupReread, .sessionAgain]

theorem returns_admission : Attempt.Returns before (admission request faults : Restoring Base Frame Unit) u after ↔
    (Admitted request ∧ ∀ at_ ∈ admitSteps, faults at_ = false) ∧ before = after := by
  have shape : Admitted request ↔ request.quiesced = true ∧ validateManifest request.manifest = .ok () ∧
      request.manifest.get "database_sha256" = .str request.digest ∧ request.verified request.backup = true :=
    ⟨fun admitted => ⟨admitted.quiesced, admitted.manifest, admitted.digest, admitted.verified⟩,
      fun ⟨quiesced, manifest, digest, verified⟩ => ⟨quiesced, manifest, digest, verified⟩⟩
  simp only [admission, returns_refuse_bind, returns_reads_bind, returns_reads, Attempt.returns_lift_bind, exists_unit,
    Bool.not_eq_false', bne, Json.beq_str, admitSteps, List.forall_mem_cons, shape]
  tauto

def removeSteps (files : Files Base Frame) : List Step :=
  (if files.wal.isSome then [Step.removeWal] else []) ++ (if files.shm.isSome then [Step.removeShm] else []) ++
    if files.wal.isSome || files.shm.isSome then [Step.syncSidecars] else []

theorem returns_removeSidecars : Attempt.Returns before (removeSidecars faults : Restoring Base Frame Unit) u after ↔
    (∀ at_ ∈ removeSteps before, faults at_ = false) ∧ { before with wal := none, shm := none } = after := by
  obtain ⟨destination, wal, shm, temporary, temporaryWal, temporaryShm, previous, replaced, previousPath⟩ := before
  cases wal <;> cases shm <;> simp [removeSidecars, removeSteps, Attempt.returns_bind, Attempt.when] <;> tauto

/-- Sidecars that a restore clears away: its own, with an empty log beside a database of its own from which the
library has nothing left to move. -/
structure Clearable (engine : Engine apply) (before : Files Base Frame) : Prop where
  present : before.destination.isNone = false
  owned : (before.destination.any fun main => !main.regular || !main.owned) = false
  empty : before.wal.any (·.size != 0) = false
  truncated : (engine.checkpoint before).1 = some (0, 0, 0)
  created : ((before.wal.isNone && (engine.checkpoint before).2.wal.isSome) ||
    (before.shm.isNone && (engine.checkpoint before).2.shm.isSome)) = false

/-- The operations of clearing the sidecars. -/
def recoverSteps (engine : Engine apply) (before : Files Base Frame) : List Step :=
  ([.walStatus, .shmStatus] : List Step) ++ if before.wal.isNone && before.shm.isNone then [] else
    ([.parentStatus, .destinationStatus, .walSize, .parentReread, .destinationReread, .walReread, .shmReread] : List Step) ++
      removeSteps (engine.checkpoint before).2

/-- The files without the sidecars of a dead writer. -/
def recovered (engine : Engine apply) (before : Files Base Frame) : Files Base Frame :=
  if before.wal.isNone && before.shm.isNone then before
  else { (engine.checkpoint before).2 with wal := none, shm := none }

structure Recoverable (engine : Engine apply) (before : Files Base Frame) : Prop where
  wal : before.wal.any (!·.owned) = false
  shm : before.shm.any (!·) = false
  clear : (before.wal.isNone && before.shm.isNone) = true ∨ Clearable engine before

theorem returns_runCheckpoint : Attempt.Returns before (runCheckpoint engine : Restoring Base Frame Unit) u after ↔
    (engine.checkpoint before).1 = some (0, 0, 0) ∧ (engine.checkpoint before).2 = after := by
  simp only [runCheckpoint, Attempt.returns_ask_bind, returns_refuse_bind, returns_refuse, bne_eq_false_iff_eq]
  constructor
  · rintro ⟨-, reported, left⟩
    exact ⟨reported, left⟩
  · rintro ⟨reported, left⟩
    exact ⟨by rw [reported]; rfl, reported, left⟩

theorem returns_recover : Attempt.Returns before (recoverCheckpointedSidecars engine faults : Restoring Base Frame Unit) u after ↔
    (Recoverable engine before ∧ ∀ at_ ∈ recoverSteps engine before, faults at_ = false) ∧ recovered engine before = after := by
  have shape : Recoverable engine before ↔ before.wal.any (!·.owned) = false ∧ before.shm.any (!·) = false ∧
      ((before.wal.isNone && before.shm.isNone) = true ∨ Clearable engine before) :=
    ⟨fun ⟨wal, shm, clear⟩ => ⟨wal, shm, clear⟩, fun ⟨wal, shm, clear⟩ => ⟨wal, shm, clear⟩⟩
  have cleared : Clearable engine before ↔ before.destination.isNone = false ∧
      (before.destination.any fun main => !main.regular || !main.owned) = false ∧ before.wal.any (·.size != 0) = false ∧
      (engine.checkpoint before).1 = some (0, 0, 0) ∧ ((before.wal.isNone && (engine.checkpoint before).2.wal.isSome) ||
        (before.shm.isNone && (engine.checkpoint before).2.shm.isSome)) = false :=
    ⟨fun ⟨a, b, c, d, e⟩ => ⟨a, b, c, d, e⟩, fun ⟨a, b, c, d, e⟩ => ⟨a, b, c, d, e⟩⟩
  rw [shape, cleared]
  simp only [recoverCheckpointedSidecars, Attempt.returns_look_bind, returns_reads_bind, returns_refuse_bind, id]
  cases absent : before.wal.isNone && before.shm.isNone with
  | true =>
    simp only [if_true, true_or, and_true, recoverSteps, recovered, absent, Attempt.returns_pure, List.append_nil,
      List.forall_mem_cons]
    tauto
  | false =>
    have run {rest : Unit → Restoring Base Frame Unit} : Attempt.Returns before (runCheckpoint engine >>= rest) u after ↔
        (engine.checkpoint before).1 = some (0, 0, 0) ∧ Attempt.Returns (engine.checkpoint before).2 (rest ()) u after := by
      simp only [Attempt.returns_bind, exists_unit, returns_runCheckpoint, and_assoc, exists_and_left, exists_eq_left']
    simp only [Bool.false_eq_true, if_false, false_or, recoverSteps, recovered, absent, returns_refuse_bind, returns_reads_bind,
      run, Attempt.returns_look_bind, returns_removeSidecars, List.forall_mem_append, List.forall_mem_cons, id]
    tauto

/-- The operations of keeping the destination under a second name. -/
def preserveSteps (files : Files Base Frame) : List Step :=
  if files.destination.isNone then [] else [.previousStatus, .makePrevious, .unlinkPrevious, .linkPrevious, .linkReread]

def preserved (files : Files Base Frame) : Files Base Frame :=
  if files.destination.isNone then files else { files with previous := files.destination.map some, previousPath := true }

theorem returns_backupExisting : Attempt.Returns before (backupExisting faults : Restoring Base Frame Unit) u after ↔
    ((before.destination.isSome = true → notRegular before = false) ∧ ∀ at_ ∈ preserveSteps before, faults at_ = false) ∧
      preserved before = after := by
  simp only [backupExisting, Attempt.returns_look_bind, id]
  cases absent : before.destination.isNone with
  | true =>
    have none_ : before.destination.isSome = false := by simpa using absent
    simp [preserveSteps, preserved, absent, none_]
  | false =>
    have some_ : before.destination.isSome = true := by simpa using absent
    have raises (message : String) (mid last : Files Base Frame) :
        ¬Attempt.Returns mid (dropLink faults message : Restoring Base Frame Unit) () last := by
      simp [dropLink]
    have linked {rest : Unit → Restoring Base Frame Unit} {mid : Files Base Frame} :
        Attempt.Returns mid ((linkExisting faults).handle (dropLink faults) >>= rest) u after ↔
          (faults .unlinkPrevious = false ∧ faults .linkPrevious = false ∧ faults .linkReread = false) ∧
            Attempt.Returns { mid with previous := mid.destination.map some } (rest ()) u after := by
      rw [Attempt.returns_bind]
      simp only [exists_unit, Attempt.returns_handle fun message state => raises message state _, linkExisting, returns_step_bind,
        returns_reads, and_assoc, exists_and_left, exists_eq_left']
    simp only [Bool.false_eq_true, if_false, returns_refuse_bind, returns_reads_bind, returns_step_bind, linked,
      Attempt.returns_act, preserveSteps, preserved, absent, some_, List.forall_mem_cons]
    tauto

/-- The operations of the installer on the files of a destination, up to the rename. -/
def prepareSteps (files : Files Base Frame) : List Step :=
  ([.sourceIdentity, .copy, .copyIntegrity, .sourceReread, .chmod, .parentCheck, .destinationIdentity] : List Step) ++
    preserveSteps files ++ ([.parentAfter, .destinationAfter, .destinationLast] : List Step)

/-- The files with the copy beside the destination and the destination under a second name. -/
def prepared (request : Request Base) (files : Files Base Frame) : Files Base Frame := preserved (withCopy request files)

theorem preserved_sidecars (files : Files Base Frame) : (preserved files).wal = files.wal ∧ (preserved files).shm = files.shm := by
  unfold preserved
  split <;> exact ⟨rfl, rfl⟩

theorem returns_prepare : Attempt.Returns before (prepare request faults : Restoring Base Frame Unit) u after ↔
    (request.verified request.backup = true ∧ notRegular before = false ∧ (before.wal.isSome || before.shm.isSome) = false ∧
      ∀ at_ ∈ prepareSteps before, faults at_ = false) ∧ prepared request before = after := by
  have kept {rest : Unit → Restoring Base Frame Unit} {mid : Files Base Frame} :
      Attempt.Returns mid (backupExisting faults >>= rest) u after ↔
        ((mid.destination.isSome = true → notRegular mid = false) ∧ ∀ at_ ∈ preserveSteps mid, faults at_ = false) ∧
          Attempt.Returns (preserved mid) (rest ()) u after := by
    rw [Attempt.returns_bind]
    simp only [exists_unit, returns_backupExisting, and_assoc, exists_and_left, exists_eq_left']
  have copied {rest : Unit → Restoring Base Frame Unit} : Attempt.Returns before (copyOnline request faults >>= rest) u after ↔
      (request.verified request.backup = true ∧ ∀ at_ ∈ ([.sourceIdentity, .copy, .copyIntegrity, .sourceReread, .chmod] : List Step),
        faults at_ = false) ∧ Attempt.Returns (withCopy request before) (rest ()) u after := by
    rw [Attempt.returns_bind]
    simp only [exists_unit, copyOnline, returns_reads_bind, returns_step_bind, returns_refuse_bind, returns_reads,
      Bool.not_eq_false', List.forall_mem_cons, and_assoc, exists_and_left, exists_eq_left']
    tauto
  have regular : notRegular (withCopy request before) = notRegular before := rfl
  have same : preserveSteps (withCopy request before) = preserveSteps before := rfl
  have sidecars := preserved_sidecars (withCopy request before)
  simp only [prepare, copied, returns_reads_bind, Attempt.returns_look_bind, returns_refuse_bind, kept, returns_reads, id,
    sidecars, prepareSteps, List.forall_mem_append, List.forall_mem_cons, prepared, regular, same]
  change _ ∧ _ ∧ _ ∧ _ ∧ _ ∧ _ ∧ _ ∧ (before.wal.isSome || before.shm.isSome) = false ∧ _ ↔ _
  tauto

end returns

section faults

variable {apply : Base → Frame → Base} {engine : Engine apply} {request : Request Base} {faults : Step → Bool}
  {Invariant : Files Base Frame → Prop}

/-- Computations that keep an invariant and never report an ambiguous restore. -/
abbrev Harmless {α : Type} (Invariant : Files Base Frame → Prop) (program : Restoring Base Frame α) : Prop :=
  Attempt.Keeps (· ≠ ambiguous) Invariant program

theorem harmless_reads {at_ : Step} {message : String} (plain : message ≠ ambiguous) :
    Harmless Invariant (reads faults at_ message) :=
  .lift fun _ raised => (raiseIf_eq_error.mp raised).2 ▸ plain

theorem harmless_refuse {bad : Bool} {message : String} (plain : message ≠ ambiguous) : Harmless Invariant (refuse bad message) :=
  .lift fun _ raised => (raiseIf_eq_error.mp raised).2 ▸ plain

theorem reads_error {at_ : Step} {message raised : String} {before after : Files Base Frame}
    (failed : reads faults at_ message before = (.error raised, after)) : raised = message ∧ before = after := by
  obtain ⟨same, left⟩ := Prod.mk.inj failed
  exact ⟨(raiseIf_eq_error.mp same).2.symm, left⟩

theorem step_error {at_ : Step} {message raised : String} {change : Files Base Frame → Files Base Frame}
    {before after : Files Base Frame} (failed : step faults at_ message change before = (.error raised, after)) :
    raised = message ∧ before = after := by
  unfold step at failed
  cases known : faults at_ with
  | true =>
    rw [known] at failed
    obtain ⟨same, left⟩ := Prod.mk.inj failed
    exact ⟨(Except.error.inj same).symm, left⟩
  | false =>
    rw [known] at failed
    cases (Prod.mk.inj failed).1

theorem harmless_step {at_ : Step} {message : String} {change : Files Base Frame → Files Base Frame} (plain : message ≠ ambiguous)
    (kept : ∀ files, Invariant files → Invariant (change files)) : Harmless Invariant (step faults at_ message change) := by
  refine .act (fun raised same => ?_) kept
  cases failed : faults at_ with
  | true =>
    rw [failed, if_pos rfl] at same
    exact Option.some.inj same ▸ plain
  | false =>
    rw [failed, if_neg Bool.false_ne_true] at same
    cases same

theorem validateManifest_plain {manifest : Dict} {message : String} (refused : validateManifest manifest = .error message) :
    message ≠ ambiguous := by
  simp only [validateManifest, bind_eq_error, raiseIf_eq_error, raiseIf_eq_ok] at refused
  obtain ⟨-, rfl⟩ | ⟨-, -, -, rfl⟩ := refused <;> decide

theorem admission_harmless : Harmless Invariant (admission request faults) := by
  refine .bind (harmless_refuse (by decide)) fun _ => .bind (harmless_reads (by decide)) fun _ => ?_
  refine .bind (harmless_reads (by decide)) fun _ => .bind (harmless_reads (by decide)) fun _ => ?_
  refine .bind (.lift fun _ => validateManifest_plain) fun _ => .bind (harmless_reads (by decide)) fun _ => ?_
  refine .bind (harmless_refuse (by decide)) fun _ => .bind (harmless_reads (by decide)) fun _ => ?_
  refine .bind (harmless_refuse (by decide)) fun _ => .bind (harmless_reads (by decide)) fun _ => ?_
  exact harmless_reads (by decide)

/-- The authority has some content. -/
def Holds (apply : Base → Frame → Base) (content : Option Base) (files : Files Base Frame) : Prop := held apply files = content

/-- The authority has some content, and none of it is in its log. -/
def Cleared (apply : Base → Frame → Base) (content : Option Base) (files : Files Base Frame) : Prop :=
  held apply files = content ∧ ∀ log ∈ files.wal, log.frames = []

theorem held_of_cleared {files : Files Base Frame} (empty : ∀ log ∈ files.wal, log.frames = []) :
    held apply files = files.destination.map Main.content := by
  unfold held
  cases present : files.wal with
  | none => rfl
  | some log =>
    rw [Option.map_some, Option.getD_some, empty log present]
    rfl

theorem Cleared.withoutLog {content : Option Base} {files : Files Base Frame} (cleared : Cleared apply content files) :
    Cleared apply content { files with wal := none } := by
  obtain ⟨same, empty⟩ := cleared
  refine ⟨?_, fun log never => by cases never⟩
  rw [← same, held_of_cleared empty]
  rfl

theorem removeSidecars_harmless {content : Option Base} : Harmless (Cleared apply content) (removeSidecars faults) := by
  refine .bind (.look id) fun final => ?_
  refine .bind (.when fun _ => harmless_step (by decide) fun _ cleared => cleared.withoutLog) fun _ => ?_
  refine .bind (.when fun _ => harmless_step (by decide) fun _ cleared => cleared) fun _ => ?_
  exact .when fun _ => harmless_reads (by decide)

theorem checkpoint_harmless {content : Option Base} {rest : Unit → Restoring Base Frame Unit}
    (continued : Harmless (Cleared apply content) (rest ())) :
    Harmless (Holds apply content) (runCheckpoint engine >>= rest) := by
  intro before same
  have idle : Holds apply content (engine.checkpoint before).2 := (engine.keeps before).trans same
  have ran : Attempt.Ends before (runCheckpoint engine : Restoring Base Frame Unit) fun outcome after =>
      (∀ message, outcome = .error message → message ≠ ambiguous) ∧ Holds apply content after := by
    refine .ask_bind ?_
    have refused : Harmless (Holds apply content) (do
        refuse (engine.checkpoint before).1.isNone "restore could not checkpoint destination WAL sidecars"
        refuse ((engine.checkpoint before).1 != some (0, 0, 0))
          "restore requires a checkpointed destination without live WAL sidecars" : Restoring Base Frame Unit) :=
      .bind (harmless_refuse (by decide)) fun _ => harmless_refuse (by decide)
    exact refused _ idle
  refine Attempt.Ends.bind_run (fun message mid failed => ?_) fun _ mid returned => ?_
  · unfold Attempt.Ends at ran
    rw [failed] at ran
    exact ran
  · obtain ⟨reported, rfl⟩ := returns_runCheckpoint.mp returned
    obtain ⟨plain, left, -⟩ := continued _ ⟨idle, engine.truncates before reported⟩
    exact ⟨plain, left⟩

theorem recover_harmless {content : Option Base} :
    Harmless (Holds apply content) (recoverCheckpointedSidecars engine faults) := by
  refine .bind (.look id) fun initial => .bind (harmless_reads (by decide)) fun _ => ?_
  refine .bind (harmless_refuse (by decide)) fun _ => .bind (harmless_reads (by decide)) fun _ => ?_
  refine .bind (harmless_refuse (by decide)) fun _ => .ite (.pure ()) ?_
  refine .bind (harmless_refuse (by decide)) fun _ => .bind (harmless_reads (by decide)) fun _ => ?_
  refine .bind (harmless_reads (by decide)) fun _ => .bind (harmless_refuse (by decide)) fun _ => ?_
  refine .bind (harmless_reads (by decide)) fun _ => .bind (harmless_refuse (by decide)) fun _ => ?_
  refine checkpoint_harmless (.bind (harmless_reads (by decide)) fun _ => .bind (harmless_reads (by decide)) fun _ => ?_)
  refine .bind (.look id) fun final => .bind (harmless_reads (by decide)) fun _ => .bind (harmless_reads (by decide)) fun _ => ?_
  exact .bind (harmless_refuse (by decide)) fun _ => removeSidecars_harmless

theorem lastError_eq_error {outcomes : List (Except String Unit)} {message : String}
    (raised : lastError outcomes = .error message) : .error message ∈ outcomes := by
  unfold lastError at raised
  cases found : outcomes.reverse.find? fun outcome => !allowed outcome with
  | none => rw [found] at raised; cases raised
  | some outcome =>
    rw [found, Option.getD_some] at raised
    exact raised ▸ List.mem_reverse.mp (List.mem_of_find?_eq_some found)

theorem lastError_eq_ok {outcomes : List (Except String Unit)} : lastError outcomes = .ok () ↔ ∀ outcome ∈ outcomes, outcome = .ok () := by
  constructor
  · intro passed outcome member
    cases outcome with
    | ok u => rfl
    | error message =>
      unfold lastError at passed
      cases found : outcomes.reverse.find? fun outcome => !allowed outcome with
      | none => exact absurd rfl (List.find?_eq_none.mp found _ (List.mem_reverse.mpr member))
      | some first =>
        have bad := List.find?_some found
        rw [found, Option.getD_some] at passed
        rw [passed] at bad
        cases bad
  · intro every
    cases outcome : lastError outcomes with
    | ok u => rfl
    | error message => cases every _ (lastError_eq_error outcome)

/-- An invariant that does not speak about temporary files and the preserved link. -/
def Aside (Invariant : Files Base Frame → Prop) : Prop :=
  ∀ files temporary temporaryWal temporaryShm previous, Invariant files →
    Invariant { files with temporary, temporaryWal, temporaryShm, previous }

theorem cleanup_harmless (aside : Aside Invariant) : Harmless Invariant (cleanup faults) := by
  have removed (at_ : Step) (name : String) (change : Files Base Frame → Files Base Frame)
      (plain : "failed to clean up temporary file " ++ name ≠ ambiguous)
      (same : ∀ files, change files = { files with
        temporary := (change files).temporary
        temporaryWal := (change files).temporaryWal
        temporaryShm := (change files).temporaryShm
        previous := (change files).previous }) : Harmless Invariant (unlink faults at_ name change) := by
    refine harmless_step plain fun files holds => ?_
    rw [same]
    exact aside _ _ _ _ _ holds
  refine .bind (.look id) fun files => ?_
  refine .attempt_bind (removed .unlinkTemporary "temporary" _ (by decide) fun _ => rfl) fun first firstPlain => ?_
  refine .attempt_bind (removed .unlinkTemporaryWal "temporary-wal" _ (by decide) fun _ => rfl) fun second secondPlain => ?_
  refine .attempt_bind (removed .unlinkTemporaryShm "temporary-shm" _ (by decide) fun _ => rfl) fun third thirdPlain => ?_
  refine .attempt_bind (.when fun _ => removed .unlinkPreviousPath "previous" _ (by decide) fun _ => rfl) fun fourth fourthPlain => ?_
  refine .lift fun message raised => ?_
  have listed := lastError_eq_error raised
  simp only [List.mem_cons, List.not_mem_nil, or_false] at listed
  obtain same | same | same | same := listed
  · exact firstPlain message same.symm
  · exact secondPlain message same.symm
  · exact thirdPlain message same.symm
  · exact fourthPlain message same.symm

/-- The destination is what it was and without sidecars; nothing was published. -/
def Unpublished (destination : Option (Main Base)) (files : Files Base Frame) : Prop :=
  files.destination = destination ∧ files.wal = none ∧ files.shm = none ∧ files.replaced = false

theorem unpublished_aside (destination : Option (Main Base)) : Aside (Unpublished destination : Files Base Frame → Prop) :=
  fun _ _ _ _ _ holds => holds

theorem prepare_harmless {destination : Option (Main Base)} :
    Harmless (Unpublished destination : Files Base Frame → Prop) (prepare request faults) := by
  have linked : Harmless (Unpublished destination : Files Base Frame → Prop) (linkExisting faults) :=
    .bind (harmless_step (by decide) fun _ holds => holds) fun _ =>
      .bind (harmless_step (by decide) fun _ holds => holds) fun _ => harmless_reads (by decide)
  have kept : Harmless (Unpublished destination : Files Base Frame → Prop) (backupExisting faults) := by
    refine .bind (.look id) fun files => .ite (.pure ()) (.bind (harmless_refuse (by decide)) fun _ => ?_)
    refine .bind (harmless_reads (by decide)) fun _ => .bind (harmless_step (by decide) fun _ holds => holds) fun _ => ?_
    refine .bind (.handle linked fun message plain => ?_) fun _ => .act (fun _ never => by cases never) fun _ holds => holds
    exact .bind (harmless_step (by decide) fun _ holds => holds) fun _ => .fail plain
  have copied : Harmless (Unpublished destination : Files Base Frame → Prop) (copyOnline request faults) := by
    refine .bind (harmless_reads (by decide)) fun _ => .bind (harmless_step (by decide) fun _ holds => holds) fun _ => ?_
    refine .bind (harmless_reads (by decide)) fun _ => .bind (harmless_refuse (by decide)) fun _ => ?_
    exact .bind (harmless_reads (by decide)) fun _ => harmless_reads (by decide)
  refine .bind copied fun _ => .bind (harmless_reads (by decide)) fun _ => .bind (harmless_reads (by decide)) fun _ => ?_
  refine .bind (.look id) fun _ => .bind (harmless_refuse (by decide)) fun _ => .bind kept fun _ => ?_
  refine .bind (harmless_reads (by decide)) fun _ => .bind (harmless_reads (by decide)) fun _ => .bind (.look id) fun _ => ?_
  exact .bind (harmless_refuse (by decide)) fun _ => harmless_reads (by decide)

/-- Whether something of what an installation leaves behind cannot be removed. -/
def cleanupFails (faults : Step → Bool) (previousPath : Bool) : Bool :=
  faults .unlinkTemporary || faults .unlinkTemporaryWal || faults .unlinkTemporaryShm ||
    (previousPath && faults .unlinkPreviousPath)

/-- What a cleanup leaves: the authority as it was, and no second name of it that could be removed. -/
structure Cleaned (faults : Step → Bool) (before : Files Base Frame) (outcome : Except String Unit) (after : Files Base Frame) :
    Prop where
  returned : outcome = .ok () ↔ cleanupFails faults before.previousPath = false
  plain : ∀ message, outcome = .error message → message ≠ ambiguous
  destination : after.destination = before.destination
  wal : after.wal = before.wal
  previous : before.previousPath = true → faults .unlinkPreviousPath = false → after.previous = none

theorem cleanup_run (before : Files Base Frame) : Attempt.Ends before (cleanup faults) (Cleaned faults before) := by
  have aside : Aside fun files : Files Base Frame => files.destination = before.destination ∧ files.wal = before.wal :=
    fun _ _ _ _ _ holds => holds
  obtain ⟨plain, destination, wal⟩ := (cleanup_harmless aside : Harmless _ (cleanup faults)) before ⟨rfl, rfl⟩
  let first := unlink faults .unlinkTemporary "temporary" (fun files => { files with temporary := none }) before
  let second := unlink faults .unlinkTemporaryWal "temporary-wal" (fun files => { files with temporaryWal := false }) first.2
  let third := unlink faults .unlinkTemporaryShm "temporary-shm" (fun files => { files with temporaryShm := false }) second.2
  let fourth := Attempt.when before.previousPath
    (unlink faults .unlinkPreviousPath "previous" fun files => { files with previous := none }) third.2
  have run : cleanup faults before = (lastError [first.1, second.1, third.1, fourth.1], fourth.2) := rfl
  have done (at_ : Step) (name : String) (change : Files Base Frame → Files Base Frame) (files : Files Base Frame) :
      (unlink faults at_ name change files).1 = .ok () ↔ faults at_ = false := by
    unfold unlink step
    cases faults at_ with
    | true => exact iff_of_false (fun ok => by cases ok) (by decide)
    | false => exact iff_of_true rfl rfl
  refine ⟨?_, plain, destination, wal, fun kept unfailing => ?_⟩
  · have last : fourth.1 = .ok () ↔ (before.previousPath && faults .unlinkPreviousPath) = false := by
      dsimp only [fourth]
      cases before.previousPath with
      | true => exact done _ _ _ _
      | false => exact iff_of_true rfl rfl
    rw [run, lastError_eq_ok]
    simp only [List.forall_mem_cons, done, first, second, third, last, cleanupFails, Bool.or_eq_false_iff, and_assoc]
    simp
  · rw [run]
    dsimp only [fourth]
    rw [kept]
    change (unlink faults .unlinkPreviousPath "previous" (fun files => { files with previous := none }) third.2).2.previous = none
    unfold unlink step
    rw [unfailing]
    rfl

end faults

section atomicity

variable {apply : Base → Frame → Base} {engine : Engine apply} {request : Request Base} {faults : Step → Bool}
  {before : Files Base Frame}

/-- A complete database of the old content is still there under some name. -/
def Present (old : Base) (files : Files Base Frame) : Prop :=
  (∃ main, files.destination = some main ∧ main.content = old) ∨ ∃ main, files.previous = some (some main) ∧ main.content = old

/-- The ends of a restore that lose nothing: the authority is what it was, or it is the verified backup and the restore
returns, or the restore is reported as ambiguous and the old content is there. A plain error leaves all as it was. -/
structure Atomic (apply : Base → Frame → Base) (request : Request Base) (before : Files Base Frame)
    (outcome : Except String Unit) (after : Files Base Frame) : Prop where
  ends : held apply after = held apply before ∨
    (outcome = .ok () ∧ held apply after = some request.backup ∧ request.verified request.backup = true) ∨
    (outcome = .error ambiguous ∧ ∀ old, held apply before = some old → Present old after)
  plain : ∀ message, outcome = .error message → message ≠ ambiguous → held apply after = held apply before

/-- What the installer begins with. -/
def started (files : Files Base Frame) : Files Base Frame :=
  { files with temporary := some none, replaced := false, previousPath := false }

def installSteps (files : Files Base Frame) : List Step :=
  ([.safeParent, .makeParent, .makeTemporary] : List Step) ++ prepareSteps files ++ [Step.replace]

/-- The operations that a restore comes to, up to the rename. -/
def operations (engine : Engine apply) (before : Files Base Frame) : List Step :=
  admitSteps ++ recoverSteps engine before ++ installSteps (recovered engine before)

/-- A restore that comes to publish its copy. -/
structure Publishes (engine : Engine apply) (request : Request Base) (faults : Step → Bool) (before : Files Base Frame) : Prop where
  admitted : Admitted request
  recoverable : Recoverable engine before
  regular : notRegular (recovered engine before) = false
  done : ∀ at_ ∈ operations engine before, faults at_ = false

/-- What comes after the rename: the sync of the directory succeeds and nothing remains to be removed; or the undo
succeeds; or there was no destination before and nothing remains to be removed. -/
def Settles (faults : Step → Bool) (existed : Bool) : Prop :=
  if faults .syncDirectory = false then cleanupFails faults existed = false
  else faults .undo = false ∨ (existed = false ∧ cleanupFails faults false = false)

theorem recovered_sidecars (engine : Engine apply) (before : Files Base Frame) : (recovered engine before).wal = none ∧ (recovered engine before).shm = none := by
  unfold recovered
  cases absent : before.wal.isNone && before.shm.isNone with
  | true => simpa using absent
  | false => exact ⟨rfl, rfl⟩

theorem held_recovered (recoverable : Recoverable engine before)
    (steps : ∀ at_ ∈ recoverSteps engine before, faults at_ = false) :
    held apply (recovered engine before) = held apply before :=
  recover_harmless.of_returns (rfl : Holds apply (held apply before) before) (returns_recover (u := ()) |>.mpr ⟨⟨recoverable, steps⟩, rfl⟩)

theorem held_destination {files : Files Base Frame} (absent : files.wal = none) :
    held apply files = files.destination.map Main.content :=
  held_of_cleared fun log present => by
    rw [absent] at present
    cases present

/-- The destination is what it was and without sidecars. -/
def Standing (destination : Option (Main Base)) (files : Files Base Frame) : Prop :=
  files.destination = destination ∧ files.wal = none ∧ files.shm = none

theorem body_unpublished {files : Files Base Frame} (standing : Standing files.destination files)
    (stays : ¬(request.verified request.backup = true ∧ notRegular files = false ∧
      (∀ at_ ∈ prepareSteps files, faults at_ = false) ∧ faults .replace = false)) :
    Attempt.Ends (started files) (do prepare request faults; publish faults) fun outcome after =>
      (∃ message, outcome = .error message ∧ message ≠ ambiguous) ∧ Unpublished files.destination after := by
  have begun : Unpublished files.destination (started files) := ⟨rfl, standing.2.1, standing.2.2, rfl⟩
  refine .bind_run (fun message mid failed => ?_) fun _ mid returned => ?_
  · obtain ⟨plain, left⟩ := prepare_harmless.of_error begun failed
    exact ⟨⟨message, rfl, plain⟩, left⟩
  have left := prepare_harmless.of_returns begun returned
  obtain ⟨⟨verified, regular, -, done⟩, -⟩ := returns_prepare.mp returned
  refine .act_bind (fun raised same => ?_) fun renamed => ?_
  · cases failed : faults .replace with
    | true =>
      rw [failed, if_pos rfl] at same
      exact ⟨⟨raised, rfl, Option.some.inj same ▸ by decide⟩, left⟩
    | false =>
      rw [failed, if_neg Bool.false_ne_true] at same
      cases same
  · have unfailing : faults .replace = false := by
      cases failed : faults .replace with
      | true =>
        rw [failed, if_pos rfl] at renamed
        cases renamed
      | false => rfl
    exact absurd ⟨verified, regular, done, unfailing⟩ stays

theorem install_unpublished {files : Files Base Frame} (standing : Standing files.destination files)
    (stays : ¬(request.verified request.backup = true ∧ notRegular files = false ∧
      ∀ at_ ∈ installSteps files, faults at_ = false)) :
    Attempt.Ends files (install request faults) fun outcome after =>
      (∀ message, outcome = .error message → message ≠ ambiguous) ∧ after.destination = files.destination ∧ after.wal = none := by
  have early (message : String) (mid : Files Base Frame) (plain : message ≠ ambiguous) (left : Standing files.destination mid) :
      (∀ again, (.error message : Except String Unit) = .error again → again ≠ ambiguous) ∧
        mid.destination = files.destination ∧ mid.wal = none :=
    ⟨fun _ again => Except.error.inj again ▸ plain, left.1, left.2.1⟩
  refine .bind_run (fun message mid failed => ?_) fun _ mid returned => ?_
  · obtain ⟨rfl, rfl⟩ := reads_error failed
    exact early _ _ (by decide) standing
  obtain ⟨safe, rfl⟩ := returns_reads.mp returned
  refine .bind_run (fun message mid failed => ?_) fun _ mid returned => ?_
  · obtain ⟨rfl, rfl⟩ := reads_error failed
    exact early _ _ (by decide) standing
  obtain ⟨made, rfl⟩ := returns_reads.mp returned
  refine .bind_run (fun message mid failed => ?_) fun _ mid returned => ?_
  · obtain ⟨rfl, rfl⟩ := step_error failed
    exact early _ _ (by decide) standing
  obtain ⟨allocated, rfl⟩ := returns_step.mp returned
  refine .act_bind (fun _ never => by cases never) fun _ => ?_
  have stopped : ¬(request.verified request.backup = true ∧ notRegular files = false ∧
      (∀ at_ ∈ prepareSteps files, faults at_ = false) ∧ faults .replace = false) := by
    rintro ⟨verified, regular, done, renamed⟩
    refine stays ⟨verified, regular, ?_⟩
    rw [installSteps, List.forall_mem_append, List.forall_mem_append]
    simpa [safe, made, allocated, renamed] using done
  have handled : Attempt.Ends (started files) ((do prepare request faults; publish faults : Restoring Base Frame Unit).handle
      (undoPublication faults)) fun outcome after =>
        (∃ message, outcome = .error message ∧ message ≠ ambiguous) ∧ Unpublished files.destination after := by
    refine .handle _ (body_unpublished standing stopped) (fun u after ⟨⟨message, impossible, _⟩, _⟩ => by cases impossible)
      fun message after ⟨⟨_, same, plain⟩, left⟩ => .look_bind ?_
    cases same
    have quiet : (id after).replaced = false := left.2.2.2
    rw [quiet]
    exact ⟨⟨message, rfl, plain⟩, left⟩
  refine .ensuring _ handled fun outcome after ⟨⟨message, same, plain⟩, left⟩ => ?_
  obtain ⟨plainly, cleaned⟩ := (cleanup_harmless (unpublished_aside files.destination) : Harmless _ (cleanup faults)) after left
  refine ⟨fun again raised => ?_, cleaned.1, cleaned.2.1⟩
  cases run : (cleanup faults after).1 with
  | ok u =>
    rw [run, same] at raised
    exact Except.error.inj raised ▸ plain
  | error other =>
    rw [run] at raised
    exact Except.error.inj raised ▸ plainly other run

/-- A restore that does not come to the rename changes nothing and says so. -/
theorem unpublished_run (stays : ¬Publishes engine request faults before) :
    Attempt.Ends before (restoreDatabase engine request faults) fun outcome after =>
      (∀ message, outcome = .error message → message ≠ ambiguous) ∧ held apply after = held apply before := by
  refine .bind_run (fun message mid failed => ?_) fun _ mid returned => ?_
  · obtain ⟨plain, same⟩ := (admission_harmless : Harmless (Holds apply (held apply before)) (admission request faults)).of_error rfl failed
    exact ⟨fun _ again => Except.error.inj again ▸ plain, same⟩
  obtain ⟨⟨admitted, admissionDone⟩, rfl⟩ := returns_admission.mp returned
  refine .bind_run (fun message mid failed => ?_) fun _ mid returned => ?_
  · obtain ⟨plain, same⟩ := (recover_harmless : Harmless (Holds apply (held apply before)) (recoverCheckpointedSidecars engine faults)).of_error rfl failed
    exact ⟨fun _ again => Except.error.inj again ▸ plain, same⟩
  obtain ⟨⟨recoverable, recoverDone⟩, rfl⟩ := returns_recover.mp returned
  have sidecars := recovered_sidecars engine before
  have stopped : ¬(request.verified request.backup = true ∧ notRegular (recovered engine before) = false ∧
      ∀ at_ ∈ installSteps (recovered engine before), faults at_ = false) := by
    rintro ⟨-, regular, done⟩
    refine stays ⟨admitted, recoverable, regular, ?_⟩
    rw [operations, List.forall_mem_append, List.forall_mem_append]
    exact ⟨⟨admissionDone, recoverDone⟩, done⟩
  refine (install_unpublished ⟨rfl, sidecars.1, sidecars.2⟩ stopped).mono fun outcome after ⟨plain, same, log⟩ => ⟨plain, ?_⟩
  rw [held_destination log, same, ← held_destination sidecars.1, held_recovered recoverable recoverDone]

/-- The files behind the rename. -/
def released (request : Request Base) (files : Files Base Frame) : Files Base Frame :=
  { prepared request (started files) with
    destination := some ⟨true, true, request.backup⟩, temporary := none, replaced := true }

/-- What the installer does once the copy is published. -/
def settle (faults : Step → Bool) : Restoring Base Frame Unit :=
  ((reads faults .syncDirectory "online SQLite backup or installation failed").handle (undoPublication faults)).ensuring
    (cleanup faults)

theorem install_published {files : Files Base Frame} (standing : Standing files.destination files)
    (verified : request.verified request.backup = true) (regular : notRegular files = false)
    (done : ∀ at_ ∈ installSteps files, faults at_ = false) :
    install request faults files = settle faults (released request files) := by
  rw [installSteps, List.forall_mem_append, List.forall_mem_append] at done
  obtain ⟨⟨first, prepareDone⟩, renamed⟩ := done
  have sidecars : (files.wal.isSome || files.shm.isSome) = false := by
    rw [standing.2.1, standing.2.2]
    rfl
  have ready : Attempt.Returns (started files) (prepare request faults) () (prepared request (started files)) :=
    returns_prepare.mpr ⟨⟨verified, regular, sidecars, prepareDone⟩, rfl⟩
  have copy : (prepared request (started files)).temporary = some (some request.backup) := by
    unfold prepared preserved
    split <;> rfl
  have moved : Attempt.Returns (prepared request (started files)) (step faults .replace
      "online SQLite backup or installation failed" fun files => { files with
        destination := (files.temporary.bind id).map fun content => ⟨true, true, content⟩, temporary := none, replaced := true })
      () (released request files) := by
    rw [returns_step, copy]
    exact ⟨renamed _ (List.mem_singleton_self _), rfl⟩
  have body : (do prepare request faults; publish faults : Restoring Base Frame Unit) (started files) =
      reads faults .syncDirectory "online SQLite backup or installation failed" (released request files) :=
    (Attempt.bind_of_returns ready).trans (Attempt.bind_of_returns moved)
  have safe : Attempt.Returns files (reads faults .safeParent "SQLite destination parent must not contain symlinks") () files :=
    returns_reads.mpr ⟨first _ (by simp), rfl⟩
  have made : Attempt.Returns files (reads faults .makeParent "failed to allocate temporary SQLite destination") () files :=
    returns_reads.mpr ⟨first _ (by simp), rfl⟩
  have allocated : Attempt.Returns files (step faults .makeTemporary "failed to allocate temporary SQLite destination"
      fun files => { files with temporary := some none }) () { files with temporary := some none } :=
    returns_step.mpr ⟨first _ (by simp), rfl⟩
  rw [install, Attempt.bind_of_returns safe, Attempt.bind_of_returns made, Attempt.bind_of_returns allocated]
  exact Attempt.ensuring_congr (Attempt.handle_congr body)

theorem restore_published (publishes : Publishes engine request faults before) :
    restoreDatabase engine request faults before = settle faults (released request (recovered engine before)) := by
  have done := publishes.done
  rw [operations, List.forall_mem_append, List.forall_mem_append] at done
  obtain ⟨⟨admissionDone, recoverDone⟩, installDone⟩ := done
  have sidecars := recovered_sidecars engine before
  have admitted : Attempt.Returns before (admission request faults) () before := returns_admission.mpr ⟨⟨publishes.admitted, admissionDone⟩, rfl⟩
  have cleared : Attempt.Returns before (recoverCheckpointedSidecars engine faults) () (recovered engine before) :=
    returns_recover.mpr ⟨⟨publishes.recoverable, recoverDone⟩, rfl⟩
  rw [restoreDatabase, Attempt.bind_of_returns admitted, Attempt.bind_of_returns cleared]
  exact install_published ⟨rfl, sidecars.1, sidecars.2⟩ publishes.admitted.verified publishes.regular installDone

/-- The published copy beside what was there before. -/
structure Released (request : Request Base) (old : Option (Main Base)) (files : Files Base Frame) : Prop where
  replaced : files.replaced = true
  destination : files.destination = some ⟨true, true, request.backup⟩
  wal : files.wal = none
  previousPath : files.previousPath = old.isSome
  previous : ∀ main, old = some main → files.previous = some (some main)

theorem released_released {files : Files Base Frame} (standing : Standing files.destination files) :
    Released request files.destination (released request files) := by
  have sidecars := preserved_sidecars (withCopy request (started files))
  have kept : (prepared request (started files)).previousPath = files.destination.isSome ∧
      ∀ main, files.destination = some main → (prepared request (started files)).previous = some (some main) := by
    have shown : (withCopy request (started files)).destination = files.destination := rfl
    unfold prepared preserved
    cases there : files.destination with
    | none =>
      rw [if_pos (by rw [shown, there]; rfl)]
      exact ⟨rfl, fun _ never => by cases never⟩
    | some main =>
      rw [if_neg (by rw [shown, there]; exact Bool.false_ne_true)]
      refine ⟨rfl, fun other same => ?_⟩
      rw [← Option.some.inj same]
      exact congrArg (Option.map some) (shown.trans there)
  exact ⟨rfl, rfl, sidecars.1.trans standing.2.1, kept.1, kept.2⟩

theorem Atomic.of_same {outcome : Except String Unit} {after : Files Base Frame} (same : held apply after = held apply before) :
    Atomic apply request before outcome after := ⟨.inl same, fun _ _ _ => same⟩

section settling

variable {old : Option (Main Base)} {files : Files Base Frame}

/-- After the sync, the copy stays, whatever is left to remove. -/
theorem settle_synced (r : Released request old files)
    (verified : request.verified request.backup = true) (synced : faults .syncDirectory = false) :
    Atomic apply request before (settle faults files).1 (settle faults files).2 ↔
      held apply before = some request.backup ∨ cleanupFails faults old.isSome = false := by
  have handled : (reads faults .syncDirectory "online SQLite backup or installation failed").handle (undoPublication faults) files =
      (.ok (), files) := by
    rw [reads, synced]
    rfl
  obtain ⟨returned, plain, destination, wal, -⟩ : Cleaned faults files _ _ := cleanup_run files
  have new : held apply (cleanup faults files).2 = some request.backup := by
    rw [held_destination (wal.trans r.wal), destination, r.destination]
    rfl
  rw [r.previousPath] at returned
  rw [settle, Attempt.ensuring_run handled]
  cases run : (cleanup faults files).1 with
  | ok u =>
    have removed := returned.mp run
    exact iff_of_true ⟨.inr (.inl ⟨rfl, new, verified⟩), fun _ impossible => by cases impossible⟩ (.inr removed)
  | error message =>
    have stuck : cleanupFails faults old.isSome ≠ false := fun clear => by
      have ok := returned.mpr clear
      rw [run] at ok
      cases ok
    constructor
    · intro atomic
      have changed := atomic.plain message rfl (plain message run)
      exact .inl (changed.symm.trans new)
    · rintro (same | clear)
      · exact .of_same (new.trans same.symm)
      · exact absurd clear stuck

theorem undo_run {post : Except String Unit → Files Base Frame → Prop} (mid : Except String Unit → Files Base Frame → Prop)
    (replaced : files.replaced = true) (unsynced : faults .syncDirectory = true)
    (restored : Attempt.Ends files (restoreExisting faults) mid)
    (failed : ∀ message after, mid (.error message) after → post (.error message) after)
    (undone : ∀ message after, mid (.ok ()) after → post (.error message) { after with previousPath := false }) :
    Attempt.Ends files ((reads faults .syncDirectory "online SQLite backup or installation failed").handle
      (undoPublication faults)) post := by
  have raised : reads faults .syncDirectory "online SQLite backup or installation failed" files =
      (.error "online SQLite backup or installation failed", files) := by
    rw [reads, unsynced]
    rfl
  refine .handle (fun outcome after => reads faults .syncDirectory "online SQLite backup or installation failed" files =
    (outcome, after)) rfl (fun u after impossible => ?_) fun message after same => ?_
  · rw [raised] at impossible
    cases impossible
  rw [raised] at same
  cases same
  refine .look_bind ?_
  have known : (id files).replaced = true := replaced
  rw [known]
  refine .bind (fun outcome after => (outcome = .ok () ∧ ∃ last, mid (.ok ()) last ∧ after = { last with previousPath := false }) ∨
    ∃ message, outcome = .error message ∧ mid (.error message) after) ?_ (fun message after ends => ?_) fun u after ends => ?_
  · exact .bind mid restored (fun message after ends => .inr ⟨message, rfl, ends⟩) fun u after ends => .inl ⟨rfl, after, ends, rfl⟩
  · obtain ⟨impossible, -⟩ | ⟨other, same, ends⟩ := ends
    · cases impossible
    · cases same
      exact failed message after ends
  · obtain ⟨-, last, ends, rfl⟩ | ⟨message, impossible, -⟩ := ends
    · exact undone _ last ends
    · cases impossible

/-- A publication that is undone leaves the authority as it was. -/
theorem settle_undone (r : Released request old files) (same : held apply before = old.map Main.content)
    (unsynced : faults .syncDirectory = true) (undone : faults .undo = false) :
    Atomic apply request before (settle faults files).1 (settle faults files).2 := by
  have back : Attempt.Ends files (restoreExisting faults) fun _ after => after.destination = old ∧ after.wal = none := by
    refine .look_bind ?_
    have shown : (!(id files).previousPath) = old.isNone := by
      change (!files.previousPath) = _
      rw [r.previousPath]
      cases old <;> rfl
    rw [shown]
    cases there : old with
    | none =>
      refine .act (fun _ failed => ?_) fun _ => ⟨rfl, r.wal⟩
      rw [undone] at failed
      cases failed
    | some main =>
      refine .act_bind (fun _ failed => ?_) fun _ => .lift ⟨?_, r.wal⟩
      · rw [undone] at failed
        cases failed
      · change files.previous.bind id = some main
        rw [r.previous main there]
        rfl
  have handled : Attempt.Ends files ((reads faults .syncDirectory "online SQLite backup or installation failed").handle
      (undoPublication faults)) fun _ after => after.destination = old ∧ after.wal = none :=
    undo_run _ r.replaced unsynced back (fun _ _ ends => ends) fun _ _ ends => ends
  unfold Attempt.Ends at handled
  cases ran : (reads faults .syncDirectory "online SQLite backup or installation failed").handle (undoPublication faults) files with
  | mk outcome after =>
    rw [ran] at handled
    obtain ⟨-, -, destination, wal, -⟩ : Cleaned faults after _ _ := cleanup_run after
    rw [settle, Attempt.ensuring_run ran]
    refine .of_same ?_
    rw [held_destination (wal.trans handled.2), destination, handled.1, same]

/-- After a failed undo, the copy stays and the preserved link goes. -/
theorem settle_stuck (r : Released request old files) (same : held apply before = old.map Main.content)
    (unsynced : faults .syncDirectory = true) (stuck : faults .undo = true) :
    Atomic apply request before (settle faults files).1 (settle faults files).2 ↔
      held apply before = some request.backup ∨ (old.isSome = false ∧ cleanupFails faults false = false) := by
  have left : Attempt.Ends files (restoreExisting faults) fun outcome after => outcome = .error ambiguous ∧ after = files := by
    refine .look_bind (.ite (fun _ => ?_) fun _ => ?_)
    · refine .act (fun raised failed => ?_) fun done => ?_
      · rw [stuck] at failed
        exact ⟨congrArg _ (Option.some.inj failed).symm, rfl⟩
      · rw [stuck] at done
        cases done
    · refine .act_bind (fun raised failed => ?_) fun done => ?_
      · rw [stuck] at failed
        exact ⟨congrArg _ (Option.some.inj failed).symm, rfl⟩
      · rw [stuck] at done
        cases done
  have handled : Attempt.Ends files ((reads faults .syncDirectory "online SQLite backup or installation failed").handle
      (undoPublication faults)) fun outcome after => outcome = .error ambiguous ∧ after = files :=
    undo_run _ r.replaced unsynced left (fun _ _ ends => ends) fun _ _ ends => by cases ends.1
  obtain ⟨returned, plain, destination, wal, gone⟩ : Cleaned faults files _ _ := cleanup_run files
  have new : held apply (cleanup faults files).2 = some request.backup := by
    rw [held_destination (wal.trans r.wal), destination, r.destination]
    rfl
  rw [r.previousPath] at returned gone
  rw [settle, Attempt.ensuring_run (Prod.ext handled.1 handled.2)]
  cases run : (cleanup faults files).1 with
  | error message =>
    have failing : cleanupFails faults old.isSome ≠ false := fun clear => by
      have ok := returned.mpr clear
      rw [run] at ok
      cases ok
    constructor
    · intro atomic
      exact .inl ((atomic.plain message rfl (plain message run)).symm.trans new)
    · rintro (unchanged | ⟨absent, clear⟩)
      · exact .of_same (new.trans unchanged.symm)
      · rw [absent] at failing
        exact absurd clear failing
  | ok u =>
    have clear := returned.mp run
    cases there : old with
    | none =>
      rw [there] at clear same
      refine iff_of_true ⟨.inr (.inr ⟨rfl, fun _ never => ?_⟩), fun _ again plainly => ?_⟩ (.inr ⟨rfl, clear⟩)
      · rw [same] at never
        cases never
      · exact absurd (Except.error.inj again).symm plainly
    | some main =>
      constructor
      · intro atomic
        obtain unchanged | ⟨impossible, -⟩ | ⟨-, present⟩ := atomic.ends
        · exact .inl (unchanged.symm.trans new)
        · cases impossible
        · rw [there] at same
          obtain ⟨found, shown, content⟩ | ⟨found, shown, -⟩ := present main.content same
          · rw [destination, r.destination] at shown
            cases shown
            exact .inl (same.trans (congrArg some content.symm))
          · have unlinked : faults .unlinkPreviousPath = false := by
              rw [there, cleanupFails, Bool.or_eq_false_iff] at clear
              exact clear.2
            rw [gone (by rw [there]; rfl) unlinked] at shown
            cases shown
      · rintro (unchanged | ⟨absent, -⟩)
        · exact .of_same (new.trans unchanged.symm)
        · cases absent

end settling

theorem isSome_recovered (recoverable : Recoverable engine before)
    (steps : ∀ at_ ∈ recoverSteps engine before, faults at_ = false) :
    (recovered engine before).destination.isSome = before.destination.isSome := by
  have same := congrArg Option.isSome (held_recovered recoverable steps)
  simpa only [held, Option.isSome_map] using same

theorem settle_atomic {old : Option (Main Base)} {files : Files Base Frame} (r : Released request old files)
    (same : held apply before = old.map Main.content) (verified : request.verified request.backup = true) :
    Atomic apply request before (settle faults files).1 (settle faults files).2 ↔
      (held apply before = some request.backup ∨ Settles faults old.isSome) := by
  unfold Settles
  cases synced : faults .syncDirectory with
  | false => exact settle_synced r verified synced
  | true =>
    rw [if_neg (by decide)]
    cases undone : faults .undo with
    | false => exact iff_of_true (settle_undone r same synced undone) (.inr (.inl rfl))
    | true =>
      rw [settle_stuck r same synced undone]
      simp

end atomicity

end Coordinator.SqliteBackup
