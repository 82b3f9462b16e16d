import Coordinator.Kit.Guard
import Coordinator.Kit.JsonText
import Coordinator.Kit.Run
import Coordinator.Kit.Sha256

/-! The record of a WAL lifecycle: how it is published and read, and what is left of it when a publication is interrupted. -/

namespace Coordinator.WalLifecycle
open Kit JsonText

/-! Records. -/

inductive Fault where
  | walLifecycleError (message : String)
  deriving DecidableEq

structure SidecarIdentity where
  device : Nat
  inode : Nat
  size : Nat

def lifecycleStates : List String := ["absent", "active", "clean_checkpointed"]

def jsonSidecar : Option SidecarIdentity → Json
  | none => .null
  | some identity => .obj [("device", .int identity.device), ("inode", .int identity.inode), ("size", .int identity.size)]

/-- The project, the database and the authority that a lifecycle is bound to. -/
structure Store where
  projectId : String
  databaseIdentity : Nat × Nat
  authorityIdentity : Option (Nat × Nat)

def jsonIdentity (identity : Nat × Nat) : Json := .arr [.int identity.1, .int identity.2]

def digest (value : Dict) : String := "sha256:" ++ Sha256.hexdigest (Json.canonical (.obj value))

/-- The identities of the log and of the shared memory. -/
structure Sidecars where
  wal : Option SidecarIdentity
  shm : Option SidecarIdentity

def unsigned (store : Store) (state : String) (generation : Nat) (sidecars : Sidecars) : Dict :=
  [("schema_version", .int 1), ("project_id", .str store.projectId), ("database_identity", jsonIdentity store.databaseIdentity),
    ("authority_identity", (store.authorityIdentity.map jsonIdentity).getD .null), ("journal_mode", .str "wal"), ("state", .str state),
    ("generation", .int generation), ("sidecars", .obj [("-wal", jsonSidecar sidecars.wal), ("-shm", jsonSidecar sidecars.shm)])]

def record (store : Store) (state : String) (generation : Nat) (sidecars : Sidecars) : Except Fault Dict := do
  raiseIf (!lifecycleStates.contains state) (.walLifecycleError "WAL lifecycle state is invalid")
  let value := unsigned store state generation sidecars
  pure (value ++ [("record_digest", .str (digest value))])

/-! Publication. The files hold ASCII, so a character is a byte. -/

/-- The file of the record and the temporary one beside it. -/
structure Disk where
  published : Option (List Char)
  temporary : Option (List Char)

/-- Writing from the start of a file that is not truncated. -/
def overwritten (old text : List Char) : List Char := text ++ old.drop text.length

/-- Where a publication is cut off. -/
inductive Crash where
  | opened
  | writing (count : Nat)
  | written
  | renamed
  deriving DecidableEq

def textOf (value : Dict) : List Char := Json.canonical (.obj value) ++ ['\n']

/-- A publication: its outcome, if it comes to one, and the files after it. -/
def writeRecord (disk : Disk) (value : Dict) (exclusive : Bool) (crash : Option Crash) : Option (Except Fault Unit) × Disk :=
  if exclusive && disk.temporary.isSome then
    (some (.error (.walLifecycleError "WAL lifecycle publication is ambiguous")), { disk with temporary := none })
  else
    let old := disk.temporary.getD []
    let text := textOf value
    match crash with
    | some .opened => (none, { disk with temporary := some old })
    | some (.writing count) => (none, { disk with temporary := some (overwritten old (text.take count)) })
    | some .written => (none, { disk with temporary := some (overwritten old text) })
    | some .renamed => (none, { published := some (overwritten old text), temporary := none })
    | none => (some (.ok ()), { published := some (overwritten old text), temporary := none })

variable (shortest : Shortest)

/-- The record as it is read: at most a mebibyte, and an object. -/
def readRecord (disk : Disk) : Except Fault Json := do
  let text ← orRaise disk.published (.walLifecycleError "WAL lifecycle record is unreadable")
  let value ← orRaise (loads shortest (text.take (2 ^ 20))) (.walLifecycleError "WAL lifecycle record is unreadable")
  raiseIf (!value.isObj) (.walLifecycleError "WAL lifecycle record schema is invalid")
  pure value

/-! Runs of publications. -/

/-- A record of a store, and how far its publication gets. -/
structure Publication (store : Store) where
  value : Dict
  recorded : ∃ state generation sidecars, record store state generation sidecars = .ok value
  exclusive : Bool
  crash : Option Crash

/-- The files, and what the file of the record may hold: the last completed record and those interrupted since. -/
structure State where
  disk : Disk
  expected : List (Option (List Char))

def begin (disk : Disk) : State := ⟨disk, [disk.published]⟩

variable {store : Store}

def step (state : State) (publication : Publication store) : State where
  disk := (writeRecord state.disk publication.value publication.exclusive publication.crash).2
  expected :=
    match publication.crash with
    | some _ => some (textOf publication.value) :: state.expected
    | none => [some (textOf publication.value)]

/-- The file is byte for byte one of the expected ones, and a publication that is not interrupted succeeds and is read back. -/
structure Safe (state : State) (publication : Publication store) (next : State) : Prop where
  expected : next.disk.published ∈ next.expected
  succeeds : publication.crash = none →
    (writeRecord state.disk publication.value publication.exclusive none).1 = some (.ok ()) ∧
      ∃ value, readRecord shortest next.disk = .ok value ∧ Same value (.obj publication.value)

/-- The temporary file that is left, if any, is overwritten as a whole. -/
def Fits (disk : Disk) (publication : Publication store) : Prop :=
  ∀ left, disk.temporary = some left → publication.exclusive = false ∧ left.length ≤ (textOf publication.value).length

/-- What a publication needs, unless it is cut off before the rename: what is left is overwritten, and a reading takes the whole text. -/
def Covers (state : State) (publication : Publication store) : Prop :=
  publication.crash = none ∨ publication.crash = some .renamed →
    Fits state.disk publication ∧ (textOf publication.value).length ≤ 2 ^ 20

/-! What a publication leaves. -/

theorem overwritten_of_le {old text : List Char} (short : old.length ≤ text.length) : overwritten old text = text := by
  rw [overwritten, List.drop_eq_nil_of_le short, List.append_nil]

/-- Where what is left is overwritten as a whole, the record is published as it is. -/
theorem writeRecord_fits {disk : Disk} {publication : Publication store} (fits : Fits disk publication) :
    writeRecord disk publication.value publication.exclusive none =
        (some (.ok ()), ⟨some (textOf publication.value), none⟩) ∧
      writeRecord disk publication.value publication.exclusive (some .renamed) =
        (none, ⟨some (textOf publication.value), none⟩) := by
  have opens : (publication.exclusive && disk.temporary.isSome) = false := by
    cases left : disk.temporary with
    | none => rw [Option.isSome_none, Bool.and_false]
    | some text => rw [(fits text left).1, Bool.false_and]
  have whole : overwritten (disk.temporary.getD []) (textOf publication.value) = textOf publication.value := by
    apply overwritten_of_le
    cases left : disk.temporary with
    | none => exact Nat.zero_le _
    | some text => exact (fits text left).2
  constructor
  · rw [writeRecord, opens, if_neg Bool.false_ne_true]
    dsimp only
    rw [whole]
  · rw [writeRecord, opens, if_neg Bool.false_ne_true]
    dsimp only
    rw [whole]

/-- A publication that does not come to the rename leaves the file of the record alone. -/
theorem writeRecord_before {disk : Disk} {publication : Publication store} {crash : Crash} (before : crash ≠ .renamed) :
    (writeRecord disk publication.value publication.exclusive (some crash)).2.published = disk.published := by
  rw [writeRecord]
  by_cases refused : (publication.exclusive && disk.temporary.isSome) = true
  · rw [if_pos refused]
  · rw [if_neg refused]
    cases crash with
    | opened => rfl
    | writing count => rfl
    | written => rfl
    | renamed => exact absurd rfl before

theorem regular_jsonIdentity (identity : Nat × Nat) : Regular shortest (jsonIdentity identity) := ⟨trivial, trivial, trivial⟩

theorem regular_jsonSidecar (sidecar : Option SidecarIdentity) : Regular shortest (jsonSidecar sidecar) := by
  cases sidecar with
  | none => trivial
  | some identity => exact ⟨by simp [Dict.keys], trivial, trivial, trivial, trivial⟩

theorem regular_value (publication : Publication store) : Regular shortest (.obj publication.value) := by
  obtain ⟨state, generation, sidecars, recorded⟩ := publication.recorded
  simp only [record, raiseIf_bind_ok, pure_eq_ok] at recorded
  have value := recorded.2
  rw [← value]
  have authority : Regular shortest ((store.authorityIdentity.map jsonIdentity).getD .null) := by
    cases store.authorityIdentity with
    | none => trivial
    | some identity => exact regular_jsonIdentity shortest identity
  have both : Regular shortest (.obj [("-wal", jsonSidecar sidecars.wal), ("-shm", jsonSidecar sidecars.shm)]) :=
    ⟨by simp [Dict.keys], regular_jsonSidecar shortest sidecars.wal, regular_jsonSidecar shortest sidecars.shm, trivial⟩
  exact ⟨by simp [Dict.keys, unsigned], trivial, trivial, regular_jsonIdentity shortest store.databaseIdentity, authority, trivial, trivial,
    trivial, both, trivial, trivial⟩

/-- The text of a record is read as the record. -/
theorem readRecord_text (publication : Publication store) {disk : Disk} (published : disk.published = some (textOf publication.value))
    (short : (textOf publication.value).length ≤ 2 ^ 20) :
    ∃ value, readRecord shortest disk = .ok value ∧ Same value (.obj publication.value) := by
  have read := loads_prints_blanks prints_canonical (regular_value shortest publication) (show ∀ c ∈ ['\n'], isBlank c = true from all_of rfl)
  refine ⟨_, ?_, same_sortKeys (.obj publication.value)⟩
  rw [readRecord, published]
  change (orRaise (loads shortest ((textOf publication.value).take (2 ^ 20))) _ >>= _) = _
  rw [List.take_of_length_le short, textOf, read]
  rfl

/-! Every publication is safe if none meets a longer text. -/

def Sound (state : State) : Prop := state.disk.published ∈ state.expected

theorem step_completed {state : State} {publication : Publication store} (completed : publication.crash = none)
    (covers : Covers state publication) :
    step state publication = ⟨⟨some (textOf publication.value), none⟩, [some (textOf publication.value)]⟩ := by
  rw [step, completed, (writeRecord_fits (covers (.inl completed)).1).1]

/-- The file is one of the expected ones after every publication that is covered. -/
theorem step_sound {state : State} {publication : Publication store} (sound : Sound state) (covers : Covers state publication) :
    Sound (step state publication) := by
  cases stopped : publication.crash with
  | none =>
    rw [step_completed stopped covers]
    exact List.mem_singleton_self _
  | some crash =>
    rw [Sound, step, stopped]
    by_cases last : crash = .renamed
    · subst last
      rw [(writeRecord_fits (covers (.inr stopped)).1).2]
      exact List.mem_cons_self
    · dsimp only
      rw [writeRecord_before last]
      exact List.mem_cons_of_mem _ sound

theorem step_safe {state : State} {publication : Publication store} (sound : Sound state) (covers : Covers state publication) :
    Safe shortest state publication (step state publication) where
  expected := step_sound sound covers
  succeeds completed := by
    have fits := covers (.inl completed)
    rw [step_completed completed covers, (writeRecord_fits fits.1).1]
    exact ⟨rfl, readRecord_text shortest publication rfl fits.2⟩

/-- In every run of publications, of which each is covered where it comes to the rename, every publication is safe. -/
theorem publications_safe (disk : Disk) (publications : List (Publication store))
    (covered : Run.Along step Covers (begin disk) publications) :
    Run.Steps step (Safe shortest) (begin disk) publications :=
  Run.steps_of_invariant step (fun _ _ => step_sound) (fun _ _ => step_safe shortest) publications (begin disk)
    (List.mem_singleton_self disk.published) covered

/-! A publication over a longer text. -/

/-- What is published over a longer text is not the record. -/
theorem overwritten_of_lt {old text : List Char} (long : text.length < old.length) : overwritten old text ≠ text := by
  intro same
  have count := congrArg List.length same
  rw [overwritten, List.length_append, List.length_drop] at count
  omega

/-- A publication that is cut off before the rename leaves its text in the temporary file. -/
theorem step_cut {state : State} {publication : Publication store} (none_ : state.disk.temporary = none)
    (cut : publication.crash = some .written) (plain : publication.exclusive = false) :
    step state publication =
      ⟨⟨state.disk.published, some (textOf publication.value)⟩, some (textOf publication.value) :: state.expected⟩ := by
  rw [step, cut, plain, writeRecord, none_]
  simp [overwritten]

/-- A publication that is cut off with a longer text than the next one spoils it. -/
theorem unsafe_behind {first second : Publication store} (cut : first.crash = some .written) (completed : second.crash = none)
    (plain : first.exclusive = false ∧ second.exclusive = false)
    (long : (textOf second.value).length < (textOf first.value).length) :
    ¬Run.Steps step (Safe shortest) (begin ⟨none, none⟩) [first, second] := by
  intro steps
  have file := steps.2.1.expected
  have left := step_cut (show (begin ⟨none, none⟩).disk.temporary = none from rfl) cut plain.1
  have next : (step (step (begin ⟨none, none⟩) first) second).disk.published =
      some (overwritten (textOf first.value) (textOf second.value)) := by
    rw [left, step, completed, plain.2, writeRecord]
    rfl
  have wanted : (step (step (begin ⟨none, none⟩) first) second).expected = [some (textOf second.value)] := by
    rw [step, completed]
  rw [next, wanted, List.mem_singleton, Option.some.injEq] at file
  exact overwritten_of_lt long file

def control : Store := ⟨"e6f2c3a0-8a3e-4d63-9f0b-6f7a3c1d2e4b", (66, 1310), none⟩

def beside (wal : Nat) : Sidecars := ⟨some ⟨66, 1312, wal⟩, some ⟨66, 1313, 32768⟩⟩

def active (wal : Nat) : Dict :=
  unsigned control "active" 1 (beside wal) ++ [("record_digest", .str (digest (unsigned control "active" 1 (beside wal))))]

theorem record_active (wal : Nat) : record control "active" 1 (beside wal) = .ok (active wal) := by
  have known : lifecycleStates.contains "active" = true := by decide
  rw [record, known, Bool.not_true, raiseIf_false]
  rfl

def activation (wal : Nat) (crash : Option Crash) : Publication control where
  value := active wal
  recorded := ⟨"active", 1, beside wal, record_active wal⟩
  exclusive := false
  crash := crash

/-- An activation that is cut off before the rename, and one behind it whose log is empty. -/
def cutOff : List (Publication control) := [activation 41232 (some .written), activation 0 none]

theorem cut_publication_unsafe :
    ¬Run.Steps step (Safe (fun mantissa exponent => (mantissa, exponent))) (begin ⟨none, none⟩) cutOff := by
  apply unsafe_behind _ rfl rfl ⟨rfl, rfl⟩
  have lengths : (textOf (active 0)).length < (textOf (active 41232)).length := by decide +kernel
  exact lengths

theorem cut_publications_safe : Run.Steps step (Safe (fun mantissa exponent => (mantissa, exponent))) (begin ⟨none, none⟩)
    [activation 0 (some .written), activation 41232 none] := by
  apply publications_safe
  have left := step_cut (show (begin ⟨none, none⟩).disk.temporary = none from rfl) (show (activation 0 (some .written)).crash = _ from rfl) rfl
  have lengths : (textOf (active 0)).length ≤ (textOf (active 41232)).length ∧ (textOf (active 41232)).length ≤ 2 ^ 20 := by
    decide +kernel
  refine ⟨fun reached => ?_, fun _ => ⟨fun text held => ⟨rfl, ?_⟩, lengths.2⟩, trivial⟩
  · obtain completed | renamed := reached
    · cases completed
    · cases renamed
  · rw [left] at held
    rw [← Option.some.inj held]
    exact lengths.1

end Coordinator.WalLifecycle
