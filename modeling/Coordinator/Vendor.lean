import Coordinator.Kit.UndoLog
import Coordinator.Kit.Bytes
import Coordinator.Kit.FileTree
import Coordinator.Kit.JsonText
import Coordinator.Kit.Sha256

/-! Installing a pinned snapshot of the coordinator into another project: the staging directory, the files moved into
place one by one, the retired files, the verification of what stands there, and what undoes it all. -/

namespace Coordinator.Vendor
open Kit Kit.UndoLog

inductive Entry
  | file (content : List UInt8) (mode : Nat)
  /-- What is read through the link, where it leads to a file. -/
  | symlink (reads : Option (List UInt8))
  | directory

def Entry.content : Entry → Option (List UInt8)
  | .file content _ => some content
  | .symlink reads => reads
  | .directory => none

abbrev Tree := String → Option Entry

def lockName : String := "coordinator.vendor.json"

def core : String := "tools/handoffctl.py"

def lifecycleModel : String := "formal/handoffctl/Handoffctl.tla"

/-- The table of the files of a snapshot with their destinations, and the destinations of earlier snapshots. -/
structure Inventory where
  sources : List (String × String)
  retired : List String
  distinct : (sources.map Prod.snd ++ [lockName]).Nodup
  core : core ∈ sources.map Prod.snd

def Inventory.destinations (inventory : Inventory) : List String := inventory.sources.map Prod.snd ++ [lockName]

/-! What the verifier checks. -/

def upstreamRepository : String := "https://github.com/martin-beck/agent-workflow-coordinator"

/-- The whole text is `v` and three decimal numbers. -/
def isVersion (text : String) : Bool :=
  match Text.stripPrefix? ['v'] text.toList with
  | some rest => (rest.splitOnP (· == '.')).length == 3 && (rest.splitOnP (· == '.')).all fun part => !part.isEmpty && part.all Text.isDecimal
  | none => false

def isCommit (text : String) : Bool := Text.hexText 40 text

/-- The SHA-256 digest of bytes. -/
def digestOf (bytes : List UInt8) : String :=
  let words := Sha256.wordsOf (Sha256.padded (bytes.map UInt8.toNat))
  String.ofList (Sha256.hexOfWorking (Sha256.blocks (words.length / 16) words Sha256.initial))

def sha256 (tree : Tree) (path : String) : Except String String :=
  match tree path with
  | some (.file content _) => .ok (digestOf content)
  | _ => .error ("vendor source is not a regular file: " ++ path)

/-- The text of a file with uniform line ends. -/
def readText (tree : Tree) (path unreadable : String) : Except String String := do
  let content ← orRaise ((tree path).bind Entry.content) unreadable
  let text ← orRaise (Bytes.textOf content) "'utf-8' codec can't decode"
  pure (readBack (String.ofList text))

section

variable (shortest : JsonText.Shortest) (aligned : String → String → Except String Unit) (inventory : Inventory)

def loadLock (tree : Tree) : Except String Json := do
  let text ← readText tree lockName ("cannot read " ++ lockName)
  let value ← orRaise (JsonText.loads shortest text.toList) ("cannot read " ++ lockName)
  raiseIf (!value.hasExactly ["schema_version", "upstream", "files"]) "invalid vendor lock structure"
  let version := value.get "schema_version"
  raiseIf (version.isArr || version.isObj) "unhashable type"
  raiseIf (!(version.eq (.int 1) || version.eq (.int 2))) "unsupported vendor lock schema"
  pure value

def validatedUpstreamIdentity (manifest : Json) : Except String Json := do
  let upstream := manifest.get "upstream"
  let development := (manifest.get "schema_version").eq (.int 2)
  raiseIf (!upstream.hasExactly (["repository", "version", "commit"] ++ if development then ["channel", "tree"] else []))
    "invalid upstream identity in vendor lock"
  raiseIf (upstream.get "repository" != .str upstreamRepository) "unexpected upstream repository"
  raiseIf (!isVersion (upstream.textOr "version") || !isCommit (upstream.textOr "commit")) "invalid pinned upstream version or commit"
  raiseIf (development && (upstream.get "channel" != .str "development" || !isCommit (upstream.textOr "tree")))
    "invalid development channel or tree identity"
  pure upstream

def verifyEntry (tree : Tree) (files : Json) (entry : String × String) : Except String Unit := do
  let pinned := files.get entry.2
  raiseIf (!pinned.hasExactly ["source", "sha256"]) ("invalid vendor entry: " ++ entry.2)
  raiseIf (pinned.get "source" != .str entry.1) ("vendor digest mismatch: " ++ entry.2)
  let digest ← sha256 tree entry.2
  raiseIf (pinned.get "sha256" != .str digest) ("vendor digest mismatch: " ++ entry.2)

def verifyEntries (tree : Tree) (files : Json) : List (String × String) → Except String Unit
  | [] => .ok ()
  | entry :: rest => do
      verifyEntry tree files entry
      verifyEntries tree files rest

def verifyFormalLifecycleAlignment (tree : Tree) : Except String Unit := do
  let runtime ← readText tree core "formal lifecycle inputs are unreadable"
  let model ← readText tree lifecycleModel "formal lifecycle inputs are unreadable"
  aligned runtime model

def verify (tree : Tree) : Except String Unit := do
  let manifest ← loadLock shortest tree
  let upstream ← validatedUpstreamIdentity manifest
  let files := manifest.get "files"
  raiseIf (!files.hasExactly (inventory.sources.map Prod.snd)) "vendor file set differs from this verifier"
  verifyEntries tree files inventory.sources
  let text ← readText tree core "No such file or directory"
  let version := upstream.textOr "version"
  let expected := String.ofList ((Text.stripPrefix? ['v'] version.toList).getD version.toList)
  raiseIf (!Text.occursIn ("COORDINATOR_VERSION = \"" ++ expected ++ "\"") text) "runtime version differs from vendor lock"
  if lifecycleModel ∈ inventory.sources.map Prod.snd then verifyFormalLifecycleAlignment aligned tree else pure ()

variable {shortest aligned inventory}

theorem readText_congr {tree other : Tree} {path unreadable : String} (same : tree path = other path) :
    readText tree path unreadable = readText other path unreadable := by
  rw [readText, readText, same]

theorem verifyEntries_congr {tree other : Tree} {files : Json} {entries : List (String × String)}
    (same : ∀ entry ∈ entries, tree entry.2 = other entry.2) : verifyEntries tree files entries = verifyEntries other files entries := by
  induction entries with
  | nil => rfl
  | cons entry rest ih =>
    rw [verifyEntries, verifyEntries, ih fun next member => same next (List.mem_cons_of_mem _ member), verifyEntry, verifyEntry, sha256,
      sha256, same entry List.mem_cons_self]

/-- The verifier reads nothing but the destinations. -/
theorem verify_congr {tree other : Tree} (same : ∀ name ∈ inventory.destinations, tree name = other name) :
    verify shortest aligned inventory tree = verify shortest aligned inventory other := by
  have lock : tree lockName = other lockName := same _ (List.mem_append_right _ (List.mem_singleton.mpr rfl))
  have listed {name : String} (member : name ∈ inventory.sources.map Prod.snd) : tree name = other name :=
    same name (List.mem_append_left _ member)
  have entries (files : Json) : verifyEntries tree files inventory.sources = verifyEntries other files inventory.sources :=
    verifyEntries_congr fun entry member => listed (List.mem_map_of_mem member)
  have text (unreadable : String) : readText tree core unreadable = readText other core unreadable :=
    readText_congr (listed inventory.core)
  rw [verify, verify, loadLock, loadLock, readText_congr lock, text]
  simp only [entries]
  by_cases modelled : lifecycleModel ∈ inventory.sources.map Prod.snd
  · rw [if_pos modelled, if_pos modelled, verifyFormalLifecycleAlignment, verifyFormalLifecycleAlignment, text,
      readText_congr (listed modelled)]
  · rw [if_neg modelled, if_neg modelled]

end

/-! The installation. -/

/-- Where something may come between the operations. -/
inductive Place
  | target | temporary | stage (name : String) | staged | move (kind : Move) (name : String) | verified | sweep

inductive Failure
  | body (raised : Raised)
  /-- A fault while an error is undone. -/
  | undo (raised : Raised) (undone : String)

def Failure.raised : Failure → Raised
  | .body raised => raised
  | .undo raised _ => raised

/-- How an installation fails: in its body, or when the staging directory is removed behind the body. -/
inductive Report
  | failed (failure : Failure)
  | cleaning (raised : Raised) (context : Option Failure)

abbrev Store := State String Entry

abbrev Installing := Attempt Store

/-- What an installation is given, and what comes between its operations. -/
structure Setting where
  shortest : JsonText.Shortest
  aligned : String → String → Except String Unit
  inventory : Inventory
  /-- Content and mode of a source file. -/
  payload : String → Except String (List UInt8 × Nat)
  manifest : Json
  trouble : Place → Option Trouble
  /-- What is left in the staging directory when its removal fails. -/
  remains : String → Bool

namespace Setting

variable (setting : Setting)

def verify (tree : Tree) : Except String Unit := Vendor.verify setting.shortest setting.aligned setting.inventory tree

def lockBytes : List UInt8 := Bytes.bytesOf (JsonText.dumps JsonText.indented setting.manifest) ++ [10]

def refusal : Entry → Option String
  | .symlink _ => some "refusing symlink destination"
  | _ => none

def allowlisted (name : String) : Option String :=
  if name ∈ setting.inventory.destinations then some ("retired destination remains allowlisted: " ++ name) else none

def faults : Move → String → Option Trouble := fun kind name => setting.trouble (.move kind name)

def passing (place : Place) : Installing Raised Unit := step (setting.trouble place) id

def judge (verdict : Except String Unit) : Installing Raised Unit :=
  .lift (match verdict with | .ok _ => .ok () | .error message => .error (.error message))

def atomicBytes (name : String) (content : List UInt8) (mode : Nat) : Installing Raised Unit :=
  step (setting.trouble (.stage name)) fun state => { state with source := Function.update state.source name (some (.file content mode)) }

def stageFiles : List (String × String) → Installing Raised Unit
  | [] => pure ()
  | (source, destination) :: rest => do
      match setting.payload source with
      | .error message => .fail (.error message)
      | .ok (content, mode) =>
          setting.atomicBytes destination content mode
          stageFiles rest

def stage : Installing Raised Unit := do
  setting.stageFiles setting.inventory.sources
  setting.atomicBytes lockName setting.lockBytes 0o644
  setting.passing .staged
  let staged ← .look State.source
  judge (setting.verify staged)

def retireStagedDestinations : Installing Raised Unit :=
  removeAll setting.faults refusal setting.allowlisted setting.inventory.retired

/-- The moves, the retired files and the verification of what stands then. -/
def move : Installing Raised Unit := do
  .act none fun state => { state with log := [] }
  replaceAll setting.faults refusal setting.inventory.destinations
  setting.retireStagedDestinations
  setting.passing .verified
  let installed ← .look State.target
  judge (setting.verify installed)

/-- Errors are undone; an interrupt passes through. -/
def installStagedSnapshot : Installing Failure Unit := do
  match ← .attempt setting.move with
  | .ok _ => pure ()
  | .error (.stopped signal) => .fail (.body (.stopped signal))
  | .error (.error message) =>
      let installed ← .look State.log
      match ← .attempt (undoAll setting.faults installed.reverse) with
      | .ok _ => .fail (.body (.error message))
      | .error raised => .fail (.undo raised message)

def raising (program : Installing Raised Unit) : Installing Failure Unit := do
  match ← .attempt program with
  | .ok _ => pure ()
  | .error raised => .fail (.body raised)

def emptied (state : Store) : Store := { state with source := fun _ => none, backup := fun _ => none }

/-- Remove the staging directory, with the entries that were set aside in it. -/
def sweep (context : Option Failure) : Installing Report Unit := fun state =>
  match setting.trouble .sweep with
  | none => (.ok (), emptied state)
  | some found =>
      let raised := match found with
        | .refused message => .error message
        | .stopped signal _ => .stopped signal
      (.error (.cleaning raised context), { state with
        source := fun name => if setting.remains name then state.source name else none
        backup := fun name => if setting.remains name then state.backup name else none })

/-- The body in its staging directory. A killed process removes nothing. -/
def inStaging (body : Installing Failure Unit) : Installing Report Unit := do
  match ← .attempt body with
  | .ok _ => setting.sweep none
  | .error failure =>
      .when (failure.raised != .stopped .killed) (setting.sweep (some failure))
      .fail (.failed failure)

def installSnapshot : Installing Report Unit := do
  let opened ← .attempt (raising do
    setting.passing .target
    setting.passing .temporary
    .act none emptied)
  match opened with
  | .error failure => .fail (.failed failure)
  | .ok _ =>
      setting.inStaging do
        raising setting.stage
        setting.installStagedSnapshot

/-! What an installation leaves. -/

/-- The entries of the snapshot. -/
def fresh : Tree := fun name =>
  if name = lockName then some (.file setting.lockBytes 0o644)
  else (setting.inventory.sources.find? fun entry => entry.2 = name).bind fun entry =>
    match setting.payload entry.1 with
    | .ok (content, mode) => some (.file content mode)
    | .error _ => none

def final : Tree := fun name => if name ∈ setting.inventory.destinations then setting.fresh name else none

def names : List String := setting.inventory.destinations ++ setting.inventory.retired

/-- Every file of the snapshot stands at its destination, every retired one is gone, other files are untouched, and the
verifier accepts. -/
structure Installed (before target : Tree) : Prop where
  files : ∀ name ∈ setting.inventory.destinations, target name = setting.fresh name
  given : ∀ name ∈ setting.inventory.destinations, (setting.fresh name).isSome = true
  retired : ∀ name ∈ setting.inventory.retired, target name = none
  others : ∀ name, name ∉ setting.names → target name = before name
  verified : setting.verify target = .ok ()

/-- A snapshot that can be installed over what is there. -/
structure Installable (before : Tree) : Prop where
  payloads : ∀ entry ∈ setting.inventory.sources, allowed (setting.payload entry.1) = true
  verified : setting.verify setting.fresh = .ok ()
  plain : ∀ name ∈ setting.names, (before name).bind refusal = none
  retired : ∀ name ∈ setting.inventory.retired, name ∉ setting.inventory.destinations

/-- What the target holds behind an installation, by what it reports. -/
def Left (before : Tree) : Option Failure → Store → Prop
  | none, after => setting.Installed before after.target
  | some (.body (.error _)), after => after.target = before
  | some (.body (.stopped signal)), after => Torn before setting.final setting.names after.target ∧ (signal = .killed → Recoverable before after)
  | some (.undo raised _), after => Scattered before setting.final setting.names after.target ∧
      (raised = .stopped .killed → Recoverable before after)

/-- An operation met with a fault, or the snapshot cannot be installed over what is there. -/
def Hindered (before : Tree) : Prop := (∃ place, setting.trouble place ≠ none) ∨ ¬setting.Installable before

variable {setting} {before : Tree} {state : Store}

theorem fresh_of_mem {entry : String × String} (listed : entry ∈ setting.inventory.sources) {content : List UInt8} {mode : Nat}
    (read : setting.payload entry.1 = .ok (content, mode)) : setting.fresh entry.2 = some (.file content mode) := by
  obtain ⟨distinct, -, apart⟩ := List.nodup_append.mp setting.inventory.distinct
  have other : entry.2 ≠ lockName := apart _ (List.mem_map_of_mem listed) _ (List.mem_singleton.mpr rfl)
  have found : setting.inventory.sources.find? (fun next => decide (next.2 = entry.2)) = some entry := by
    cases located : setting.inventory.sources.find? fun next => decide (next.2 = entry.2) with
    | none => exact absurd (decide_eq_true rfl) (List.find?_eq_none.mp located entry listed)
    | some next =>
      have same : next.2 = entry.2 := by simpa using List.find?_some located
      rw [List.inj_on_of_nodup_map distinct (List.mem_of_find?_eq_some located) listed same]
  rw [fresh, if_neg other, found, Option.bind_some, read]

theorem fresh_lock : setting.fresh lockName = some (.file setting.lockBytes 0o644) := if_pos rfl

/-- Staging leaves the target alone. -/
def Staged (setting : Setting) (state : Store) (goal : Store → Prop) : Except Raised Unit → Store → Prop
  | .ok _, after => after.target = state.target ∧ goal after
  | .error _, after => after.target = state.target ∧ setting.Hindered state.target

variable {goal next : Store → Prop}

theorem Staged.bind (goal : Store → Prop) {first : Installing Raised Unit} {rest : Unit → Installing Raised Unit}
    (ends : Attempt.Ends state first (Staged setting state goal))
    (continued : ∀ after, after.target = state.target → goal after → Attempt.Ends after (rest ()) (Staged setting after next)) :
    Attempt.Ends state (first >>= rest) (Staged setting state next) := by
  refine Attempt.Ends.bind _ ends (fun _ _ failed => failed) fun _ after ⟨same, holds⟩ => ?_
  refine (continued after same holds).mono fun outcome last ran => ?_
  cases outcome with
  | ok u => exact ⟨ran.1.trans same, ran.2⟩
  | error raised => exact ⟨ran.1.trans same, same ▸ ran.2⟩

theorem Staged.step {place : Place} {change : Store → Store} (apart : (change state).target = state.target) (reached : goal (change state)) :
    Attempt.Ends state (step (setting.trouble place) change) (Staged setting state goal) := by
  refine Ends.step (fun _ => ⟨apart, reached⟩) (fun trouble _ => ⟨rfl, .inl ⟨place, trouble⟩⟩) fun trouble _ => ?_
  exact ⟨⟨rfl, .inl ⟨place, trouble⟩⟩, apart, .inl ⟨place, trouble⟩⟩

theorem Staged.judge {verdict : Except String Unit} (reached : verdict = .ok () → goal state)
    (hindered : verdict ≠ .ok () → setting.Hindered state.target) : Attempt.Ends state (judge verdict) (Staged setting state goal) := by
  cases verdict with
  | ok u => exact ⟨rfl, reached rfl⟩
  | error message => exact ⟨rfl, hindered (by rintro ⟨⟩)⟩

theorem stageFiles_ends {rest : List (String × String)} (listed : ∀ entry ∈ rest, entry ∈ setting.inventory.sources)
    (distinct : (rest.map Prod.snd).Nodup) : Attempt.Ends state (setting.stageFiles rest) (Staged setting state fun after =>
      (∀ entry ∈ rest, allowed (setting.payload entry.1) = true ∧ after.source entry.2 = setting.fresh entry.2 ∧
        (setting.fresh entry.2).isSome = true) ∧ ∀ name, name ∉ rest.map Prod.snd → after.source name = state.source name) := by
  induction rest generalizing state with
  | nil => exact Ends.skip ⟨rfl, List.forall_mem_nil _, fun _ _ => rfl⟩
  | cons entry rest ih =>
    have here := listed entry List.mem_cons_self
    unfold stageFiles
    cases read : setting.payload entry.1 with
    | error message =>
      refine Attempt.Ends.fail ⟨rfl, .inr fun installable => ?_⟩
      have given := installable.payloads entry here
      rw [read] at given
      cases given
    | ok payload =>
      obtain ⟨content, mode⟩ := payload
      obtain ⟨fresh, distinct⟩ := List.nodup_cons.mp distinct
      have stands := fresh_of_mem here read
      refine Staged.bind (· = { state with source := Function.update state.source entry.2 (some (.file content mode)) })
        (.step rfl rfl) ?_
      rintro after - rfl
      refine (ih (fun other member => listed other (List.mem_cons_of_mem _ member)) distinct).mono fun outcome last ran => ?_
      cases outcome with
      | error raised => exact ran
      | ok u =>
        obtain ⟨same, staged, apart⟩ := ran
        refine ⟨same, List.forall_mem_cons.mpr ⟨⟨by rw [read]; rfl, ?_, by rw [stands]; rfl⟩, staged⟩, fun name absent => ?_⟩
        · rw [apart _ fresh, stands]
          exact Function.update_self ..
        · rw [List.map_cons, List.mem_cons, not_or] at absent
          exact (apart name absent.2).trans (Function.update_of_ne absent.1 ..)

/-- What stands in the staging directory when everything is staged. -/
structure Ready (setting : Setting) (state : Store) : Prop where
  payloads : ∀ entry ∈ setting.inventory.sources, allowed (setting.payload entry.1) = true
  files : ∀ name ∈ setting.inventory.destinations, state.source name = setting.fresh name ∧ (setting.fresh name).isSome = true
  verified : setting.verify setting.fresh = .ok ()

theorem verify_of_files {tree : Tree} (files : ∀ name ∈ setting.inventory.destinations, tree name = setting.fresh name) :
    setting.verify tree = setting.verify setting.fresh := verify_congr files

theorem stage_ends : Attempt.Ends state setting.stage (Staged setting state (Ready setting)) := by
  have distinct := List.nodup_append.mp setting.inventory.distinct
  refine Staged.bind _ (stageFiles_ends (fun _ member => member) distinct.1) ?_
  rintro first - ⟨staged, -⟩
  refine Staged.bind (· = { first with source := Function.update first.source lockName (some (.file setting.lockBytes 0o644)) })
    (.step rfl rfl) ?_
  rintro after - rfl
  have files : ∀ name ∈ setting.inventory.destinations, Function.update first.source lockName (some (.file setting.lockBytes 0o644)) name =
      setting.fresh name ∧ (setting.fresh name).isSome = true := by
    intro name member
    obtain listed | lock := List.mem_append.mp member
    · obtain ⟨entry, source, rfl⟩ := List.mem_map.mp listed
      rw [Function.update_of_ne (distinct.2.2 _ listed _ (List.mem_singleton.mpr rfl))]
      exact (staged entry source).2
    · rw [List.mem_singleton.mp lock, Function.update_self, fresh_lock]
      exact ⟨rfl, rfl⟩
  refine Staged.bind (· = { first with source := Function.update first.source lockName (some (.file setting.lockBytes 0o644)) })
    (.step rfl rfl) ?_
  rintro after - rfl
  have judged := verify_of_files fun name member => (files name member).1
  refine Attempt.Ends.look_bind (.judge (fun verified => ⟨fun entry source => (staged entry source).1, files, ?_⟩) fun refused => .inr ?_)
  · rw [← judged]
    exact verified
  · rintro ⟨-, verified, -, -⟩
    exact refused (judged.trans verified)

/-- What the moves leave when they fail. -/
def MovesFailed (setting : Setting) (before : Tree) (raised : Raised) (after : Store) : Prop :=
  setting.Hindered before ∧ Torn before setting.final setting.names after.target ∧
    match raised with
    | .error _ => Logged before after.log after ∧ ∀ name ∈ after.log.map Prod.fst, name ∈ setting.names
    | .stopped _ => Recoverable before after

theorem movesFailed_of_failed {done rest : List String} {name : String} {raised : Raised} (split : setting.names = done ++ name :: rest)
    (hindered : setting.Hindered before) (failed : Failed before setting.final done name raised state) :
    setting.MovesFailed before raised state := by
  obtain ⟨torn, left⟩ := failed
  refine ⟨hindered, ⟨done, name :: rest, split, torn⟩, ?_⟩
  cases raised with
  | stopped signal => exact left
  | error message =>
    refine ⟨left.1, fun other listed => ?_⟩
    rw [split]
    refine List.mem_append.mpr ((List.mem_append.mp (left.2 other listed)).imp id fun here => ?_)
    exact List.mem_cons.mpr (.inl (List.mem_singleton.mp here))

theorem hindered_of_blocked {kept : String → Option String} {name : String} (listed : name ∈ setting.names)
    (held : kept name ≠ none → setting.Hindered before) (blocked : Blocked setting.faults refusal kept before name) :
    setting.Hindered before := by
  obtain ⟨kind, trouble⟩ | refused | kept := blocked
  · exact .inl ⟨.move kind name, trouble⟩
  · exact .inr fun installable => refused (installable.plain name listed)
  · exact held kept

/-- What the moves leave when they are through. -/
structure Moved (setting : Setting) (before : Tree) (after : Store) : Prop where
  installed : setting.Installed before after.target
  plain : ∀ name ∈ setting.names, (before name).bind refusal = none
  retired : ∀ name ∈ setting.inventory.retired, name ∉ setting.inventory.destinations

theorem move_ends (ready : Ready setting state) : Attempt.Ends state setting.move fun outcome after => match outcome with
    | .ok _ => setting.Moved state.target after
    | .error raised => setting.MovesFailed state.target raised after := by
  have there : ∀ name ∈ setting.inventory.destinations, setting.final name = state.source name ∧ (state.source name).isSome = true := by
    intro name listed
    obtain ⟨same, given⟩ := ready.files name listed
    exact ⟨(if_pos listed).trans same.symm, same ▸ given⟩
  have gone : ∀ name ∈ setting.inventory.retired, setting.allowlisted name = none → setting.final name = none := by
    intro name _ free
    by_cases listed : name ∈ setting.inventory.destinations
    · rw [allowlisted, if_pos listed] at free
      cases free
    · exact if_neg listed
  refine Attempt.Ends.act_bind (fun _ none_ => by cases none_) fun _ => ?_
  have begun : Midway ({ state with log := [] } : Store).target setting.final ({ state with log := [] } : Store).source []
      { state with log := [] } := Midway.start rfl
  have replaced : Attempt.Ends { state with log := [] } (replaceAll setting.faults refusal setting.inventory.destinations)
      (Ran setting.faults refusal (fun _ => none) state.target setting.final [] setting.inventory.destinations fun after =>
        (∀ name ∈ setting.inventory.destinations, (state.target name).bind refusal = none) ∧
          Midway state.target setting.final state.source setting.inventory.destinations after) :=
    replaceAll_ends _ begun (List.forall_mem_nil _) setting.inventory.distinct there
  refine Attempt.Ends.bind _ replaced ?_ ?_
  · rintro raised after ⟨first, name, rest, split, blocked, failed⟩
    have whole : setting.names = ([] ++ first) ++ name :: (rest ++ setting.inventory.retired) := by
      rw [names, split, List.append_assoc]
      rfl
    have listed : name ∈ setting.names := by
      rw [whole]
      exact List.mem_append_right _ List.mem_cons_self
    exact movesFailed_of_failed whole (hindered_of_blocked listed (fun never => absurd rfl never) blocked) failed
  rintro - mid ⟨plain, midway⟩
  refine Attempt.Ends.bind _ (removeAll_ends midway plain gone) ?_ ?_
  · rintro raised after ⟨first, name, rest, split, blocked, failed⟩
    have whole : setting.names = (setting.inventory.destinations ++ first) ++ name :: rest := by
      rw [names, split, List.append_assoc]
    have retired : name ∈ setting.inventory.retired := by
      rw [split]
      exact List.mem_append_right _ List.mem_cons_self
    refine movesFailed_of_failed whole (hindered_of_blocked (List.mem_append_right _ retired) (fun held => .inr fun installable => ?_)
      blocked) failed
    exact held (if_neg (installable.retired name retired))
  rintro - last ⟨free, plain, midway⟩
  have late (raised : Raised) (hindered : setting.Hindered state.target) : setting.MovesFailed state.target raised last := by
    refine ⟨hindered, ⟨setting.names, [], (List.append_nil _).symm, midway.tornAt⟩, ?_⟩
    cases raised with
    | error message => exact ⟨midway.logged, midway.within⟩
    | stopped signal => exact midway.logged.recoverable
  refine Attempt.Ends.bind (fun outcome after => match outcome with
    | .ok _ => after = last
    | .error raised => setting.MovesFailed state.target raised after) ?_ (fun _ _ failed => failed) ?_
  · refine Ends.step (fun _ => rfl) (fun trouble _ => late _ (.inl ⟨_, trouble⟩)) fun trouble _ => ?_
    exact ⟨late _ (.inl ⟨_, trouble⟩), late _ (.inl ⟨_, trouble⟩)⟩
  rintro - after rfl
  have outside : ∀ name ∈ setting.inventory.retired, name ∉ setting.inventory.destinations := fun name retired listed => by
    have none_ := free name retired
    rw [allowlisted, if_pos listed] at none_
    cases none_
  have files : ∀ name ∈ setting.inventory.destinations, after.target name = setting.fresh name := fun name listed =>
    (midway.new name (List.mem_append_left _ listed)).trans (if_pos listed)
  have verified : setting.verify after.target = .ok () := (verify_of_files files).trans ready.verified
  refine Attempt.Ends.look_bind ?_
  rw [verified]
  exact ⟨⟨files, fun name listed => (ready.files name listed).2,
    fun name retired => (midway.new name (List.mem_append_right _ retired)).trans (if_neg (outside name retired)),
    fun name absent => midway.old name absent, verified⟩, plain, outside⟩

theorem installStagedSnapshot_ends (ready : Ready setting state) :
    Attempt.Ends state setting.installStagedSnapshot fun outcome after => match outcome with
      | .ok _ => setting.Moved state.target after
      | .error failure => setting.Hindered state.target ∧ setting.Left state.target (some failure) after := by
  refine Attempt.Ends.attempt_bind _ (move_ends ready) fun outcome after ended => ?_
  cases outcome with
  | ok u => exact Attempt.Ends.pure ended
  | error raised =>
    obtain ⟨hindered, torn, left⟩ := ended
    cases raised with
    | stopped signal => exact Attempt.Ends.fail ⟨hindered, torn, fun _ => left⟩
    | error message =>
      refine Attempt.Ends.look_bind (Attempt.Ends.attempt_bind _ (undoAll_ends left.1.reverse torn.scattered fun entry member => ?_)
        fun undone last ended => ?_)
      · exact left.2 _ (List.mem_map_of_mem (List.mem_reverse.mp member))
      · cases undone with
        | ok u => exact Attempt.Ends.fail ⟨hindered, ended⟩
        | error raised => exact Attempt.Ends.fail ⟨hindered, ended.2.1, fun _ => ended.2.2⟩

theorem raising_ends {program : Installing Raised Unit} {post : Except Raised Unit → Store → Prop}
    (ends : Attempt.Ends state program post) : Attempt.Ends state (raising program) fun outcome after => match outcome with
      | .ok u => post (.ok u) after
      | .error failure => ∃ raised, failure = .body raised ∧ post (.error raised) after := by
  refine Attempt.Ends.attempt_bind _ ends fun outcome after holds => ?_
  cases outcome with
  | ok u => exact Attempt.Ends.pure holds
  | error raised => exact Attempt.Ends.fail ⟨raised, rfl, holds⟩

/-- While the target is as it was, every report is right. -/
theorem left_of_same {raised : Raised} (same : state.target = before) : setting.Left before (some (.body raised)) state := by
  cases raised with
  | error message => exact same
  | stopped signal => exact ⟨same ▸ Torn.start, fun _ name entry present => .inl (by rw [same]; exact present)⟩

/-- Where the process lives on, what is reported speaks of the target alone. -/
theorem left_congr {failure : Failure} {after : Store} (alive : failure.raised ≠ .stopped .killed)
    (left : setting.Left before (some failure) state) (same : after.target = state.target) : setting.Left before (some failure) after := by
  cases failure with
  | undo raised undone => exact ⟨same ▸ left.1, fun killed => absurd killed alive⟩
  | body raised =>
    cases raised with
    | error message => exact Eq.trans same left
    | stopped signal => exact ⟨same ▸ left.1, fun killed => absurd (congrArg Raised.stopped killed) alive⟩

variable (setting) in
/-- How an installation ends. -/
def Reported (before : Tree) : Except Report Unit → Store → Prop
  | .ok _, after => setting.Installable before ∧ setting.Left before none after
  | .error (.failed failure), after => setting.Hindered before ∧ setting.Left before (some failure) after ∧
      (failure.raised ≠ .stopped .killed → ∀ name, after.backup name = none)
  | .error (.cleaning _ context), after => setting.trouble .sweep ≠ none ∧ setting.Left before context after

theorem inStaging_ends {body : Installing Failure Unit} (ends : Attempt.Ends state body fun outcome after => match outcome with
      | .ok _ => setting.Installable before ∧ setting.Installed before after.target
      | .error failure => setting.Hindered before ∧ setting.Left before (some failure) after) :
    Attempt.Ends state (setting.inStaging body) (setting.Reported before) := by
  refine Attempt.Ends.attempt_bind _ ends fun outcome after ended => ?_
  cases outcome with
  | ok u =>
    change setting.Reported before (setting.sweep none after).1 (setting.sweep none after).2
    unfold sweep
    cases trouble : setting.trouble .sweep with
    | none => exact ended
    | some found => exact ⟨by rw [trouble]; exact Option.some_ne_none found, ended.2⟩
  | error failure =>
    dsimp only
    by_cases alive : failure.raised = .stopped .killed
    · rw [alive]
      exact ⟨ended.1, ended.2, fun lives => absurd alive lives⟩
    · rw [bne_iff_ne.mpr alive]
      refine Attempt.Ends.bind (fun swept last => match swept with
        | .ok _ => last = emptied after
        | .error report => setting.Reported before (.error report) last) ?_ (fun _ _ failed => failed) ?_
      · change (match (setting.sweep (some failure) after).1 with | .ok _ => _ | .error report => _)
        unfold sweep
        cases trouble : setting.trouble .sweep with
        | none => rfl
        | some found => exact ⟨by rw [trouble]; exact Option.some_ne_none found, left_congr alive ended.2 rfl⟩
      · rintro - last rfl
        exact Attempt.Ends.fail ⟨ended.1, left_congr alive ended.2 rfl, fun _ _ => rfl⟩

def start (target : Tree) : Store := ⟨target, fun _ => none, fun _ => none, []⟩

theorem installSnapshot_ends : Attempt.Ends (start before) setting.installSnapshot (setting.Reported before) := by
  have passing {place : Place} : Attempt.Ends (start before) (setting.passing place) fun outcome after => after = start before ∧
      match outcome with
      | .ok _ => True
      | .error _ => setting.Hindered before :=
    Ends.step (fun _ => ⟨rfl, trivial⟩) (fun trouble _ => ⟨rfl, .inl ⟨_, trouble⟩⟩) fun trouble _ =>
      ⟨⟨rfl, .inl ⟨_, trouble⟩⟩, rfl, .inl ⟨_, trouble⟩⟩
  have opening : Attempt.Ends (start before) (setting.passing .target >>= fun _ => setting.passing .temporary >>= fun _ => .act none emptied)
      fun outcome after => after = start before ∧ match outcome with
        | .ok _ => True
        | .error _ => setting.Hindered before := by
    refine Attempt.Ends.bind _ passing (fun _ _ failed => failed) ?_
    rintro - after ⟨rfl, -⟩
    refine Attempt.Ends.bind _ passing (fun _ _ failed => failed) ?_
    rintro - after ⟨rfl, -⟩
    exact Attempt.Ends.act (fun _ none_ => by cases none_) fun _ => ⟨rfl, trivial⟩
  refine Attempt.Ends.attempt_bind _ (raising_ends opening) fun outcome after ended => ?_
  cases outcome with
  | error failure =>
    obtain ⟨raised, rfl, rfl, hindered⟩ := ended
    exact Attempt.Ends.fail ⟨hindered, left_of_same rfl, fun _ _ => rfl⟩
  | ok u =>
    obtain ⟨rfl, -⟩ := ended
    refine inStaging_ends (Attempt.Ends.bind _ (raising_ends stage_ends) ?_ ?_)
    · rintro failure last ⟨raised, rfl, same, hindered⟩
      exact ⟨hindered, left_of_same same⟩
    · rintro - last ⟨same, ready⟩
      have target : last.target = before := same
      refine (installStagedSnapshot_ends ready).mono fun outcome final ended => ?_
      rw [target] at ended
      cases outcome with
      | error failure => exact ended
      | ok u => exact ⟨⟨ready.payloads, ready.verified, ended.plain, ended.retired⟩, ended.installed⟩

end Setting

/-- A snapshot of one file, installed without disturbance. -/
def single : Setting where
  shortest _ _ := (0, 0)
  aligned _ _ := .ok ()
  inventory := ⟨[(core, core)], ["formal/handoffctl/HandoffctlPR.cfg"], by decide, by decide⟩
  payload _ := .ok ([], 0o644)
  manifest := .obj []
  trouble _ := none
  remains _ := true

end Coordinator.Vendor
