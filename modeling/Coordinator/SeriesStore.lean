import Coordinator.Commit
import Coordinator.Kit.Access
import Coordinator.Kit.Bytes
import Coordinator.Kit.Paths
import Coordinator.SeriesPlan
import Coordinator.TaskFiles

/-! Issue series in the Git authority: how the tasks and the file of a series are written, and how the receipts of all series
are read from them again. -/

namespace Coordinator.IssueSeries
open Kit TaskGraph TaskValidation

/-- Where a reference leads from the root, unless out of it. -/
def resolved (reference : String) : Option (List String) :=
  if Text.isAbsolute reference then none
  else (Text.pathParts reference).foldlM (fun stack part =>
    if part = ".." then (if stack.isEmpty then none else some stack.dropLast) else some (stack ++ [part])) []

/-- The file that a reference names in the directory of the series. -/
def projectionOf (reference : String) : Option String :=
  match resolved reference with
  | some ["issue-series", name] => if Text.hasSuffix ".json" name && name != ".json" then some ("issue-series/" ++ name) else none
  | _ => none

/-- The series that a task says it belongs to. -/
def linkedPath (task : Task) : Except String (Option String) :=
  let found := task.fields.get "issue_series"
  if found.isNull then pure none
  else if !found.isObj || !(found.get "manifest_ref").isStr then throw ("invalid issue-series linkage in " ++ idOf task)
  else pure (some (found.get "manifest_ref").text)

namespace Settings
variable (settings : Settings)

/-- The receipt that the file under a reference and the tasks that point to it stand for. -/
def loadGitReceipt (projections : FileTree String) (reference : String) (members : List Task) : Except String SeriesReceipt := do
  let path ← orRaise (projectionOf reference) "issue-series manifest reference is outside the local series directory"
  let content ← orRaise (projections.read path) ("invalid issue-series manifest " ++ reference ++ ": No such file or directory")
  let document ← settings.loadManifest content
  let receipt ← (settings.planIssueSeries [] [] blankDigest document).mapError
    (("invalid issue-series manifest " ++ reference ++ ": ") ++ ·)
  raiseIf ((members.map idOf).insertionSort (· ≤ ·) != receipt.manifest.ids.insertionSort (· ≤ ·))
    ("issue-series membership does not match manifest " ++ reference)
  raiseIf (members.any fun task => (task.fields.get "issue_series").get "manifest_digest" != .str receipt.manifest.digest)
    ("issue-series digest does not match manifest " ++ reference)
  pure receipt

/-- The receipts of the series that the tasks belong to. -/
def gitIssueSeriesReceipts (projections : FileTree String) (tasks : List Task) : Except String (List SeriesReceipt) := do
  let linked ← tasks.mapM linkedPath
  (sortedSet linked.reduceOption).mapM fun reference =>
    settings.loadGitReceipt projections reference (tasks.filter fun task => (task.fields.get "issue_series").get "manifest_ref" == .str reference)

end Settings

/-! The creation of a series. -/

structure SeriesStore where
  authority : Authority.Store
  projections : FileTree String

structure SeriesRequest where
  /-- The text of the manifest. -/
  content : String
  expectedStateDigest : String
  createdAt : String
  /-- The settings, the policy or the views changed meanwhile, or nothing was committed. -/
  refused : Bool

/-- The text of a task file. -/
def fileText (task : Task) : String := String.ofList (TaskFiles.opening ++ JsonText.dumps JsonText.indented (.obj task.fields) ++
  TaskFiles.closing ++ task.body.toList)

/-- The tasks with others written over those under the same paths, in the order of the paths. -/
def placed (tasks created : List Task) : List Task :=
  ((tasks.filter fun task => !(created.map Task.path).contains task.path) ++ created).insertionSort fun a b => a.path ≤ b.path

namespace Settings
variable (settings : Settings)

/-- What there is to say about a series that has been written. -/
def writtenErrors (tasks : List Task) (manifest : IssueSeriesManifest) (created : List Task) : List String :=
  mutationGlobalErrors (placed tasks created) ++
    Privacy.introducedErrors settings.word manifest.path (String.ofList (projectionText manifest)) none ++
      created.flatMap fun task => Privacy.introducedErrors settings.word ("tasks/" ++ task.path) (fileText task)
        ((tasks.find? (·.path == task.path)).map fileText)

/-- The series that a request asks for, where nothing stands against it before anything is written. -/
def admitted (store : SeriesStore) (request : SeriesRequest) : Except String SeriesReceipt := do
  let tasks := store.authority.tasks
  let receipt ← settings.loadIssueSeriesPlan tasks request.content
  raiseIf (request.expectedStateDigest != receipt.currentStateDigest) "STALE_STATE: re-run issue-series plan before create"
  raiseIf (store.projections.read receipt.manifest.path).isSome "issue-series manifest identity already exists"
  let errors := settings.preflightErrors tasks (receipt.manifest.tasks request.createdAt)
  raiseIf (!errors.isEmpty) ("issue-series preflight failed:\n" ++ Text.joined "\n" (sortedSet errors))
  pure receipt

/-- Write a series and validate what stands then; where it does not hold, everything is put back. -/
def createGitIssueSeries (store : SeriesStore) (receipt : SeriesReceipt) (created : List Task) (refused : Bool) :
    Except String Unit × SeriesStore :=
  let manifest := receipt.manifest
  let written := store.projections.write manifest.path (String.ofList (projectionText manifest))
  let errors := settings.writtenErrors store.authority.tasks manifest created
  if !errors.isEmpty then
    (.error ("issue-series mutation validation failed:\n" ++ Text.joined "\n" (sortedSet errors)),
      { store with projections := written.restore [(manifest.path, none)] })
  else if refused then
    (.error "issue-series create produced no commit", { store with projections := written.restore [(manifest.path, none)] })
  else (.ok (), ⟨{ store.authority with tasks := placed store.authority.tasks created }, written⟩)

def cmdIssueSeriesCreate (store : SeriesStore) (request : SeriesRequest) : Except String SeriesReceipt × SeriesStore :=
  match settings.admitted store request with
  | .error message => (.error message, store)
  | .ok receipt =>
      let result := settings.createGitIssueSeries store receipt (receipt.manifest.tasks request.createdAt) request.refused
      (result.1.map fun _ => receipt, result.2)

end Settings

/-! A series is read from its file and its tasks again. -/

theorem slash_free {identity : String × Int} {c : Char}
    (member : c ∈ (Sha256.hexdigest (identity.1 ++ "#" ++ toString identity.2).toList).toList.take 24) : Text.isHex c = true := by
  have hex := Sha256.hexText_hexdigest (identity.1 ++ "#" ++ toString identity.2).toList
  rw [Text.hexText, Text.characters_eq, Text.exactly, Bool.and_eq_true, List.all_eq_true] at hex
  exact hex.2 c (List.mem_of_mem_take member)

theorem projectionOf_manifestPath (identity : String × Int) : projectionOf (manifestPath identity) = some (manifestPath identity) := by
  have hex := Sha256.hexText_hexdigest (identity.1 ++ "#" ++ toString identity.2).toList
  rw [Text.hexText, Text.characters_eq, Text.exactly, Bool.and_eq_true, beq_iff_eq] at hex
  have plain : ∀ c ∈ (Sha256.hexdigest (identity.1 ++ "#" ++ toString identity.2).toList).toList.take 24, Text.isHex c = true :=
    fun c member => slash_free member
  have long : ((Sha256.hexdigest (identity.1 ++ "#" ++ toString identity.2).toList).toList.take 24).length = 24 := by
    rw [List.length_take, hex.1]
    rfl
  rw [manifestPath]
  generalize (Sha256.hexdigest (identity.1 ++ "#" ++ toString identity.2).toList).toList.take 24 = stem at plain long
  have spelled : (String.ofList stem ++ ".json").toList = stem ++ ['.', 'j', 's', 'o', 'n'] := by
    rw [String.toList_append, String.toList_ofList]
    rfl
  have free : '/' ∉ (String.ofList stem ++ ".json").toList := by
    rw [spelled, List.mem_append, not_or]
    exact ⟨fun slash => absurd (plain '/' slash) (by decide), by decide⟩
  have size : (String.ofList stem ++ ".json").length = 29 := by
    rw [← String.length_toList, spelled, List.length_append, long]
    rfl
  have other (s : String) (short : s.length ≠ 29) : String.ofList stem ++ ".json" ≠ s := fun same => short (same ▸ size)
  have whole : ("issue-series/" ++ (String.ofList stem ++ ".json")).toList =
      "issue-series".toList ++ '/' :: (String.ofList stem ++ ".json").toList := by
    rw [String.toList_append]
    rfl
  have one : Text.pathParts (String.ofList stem ++ ".json") = [String.ofList stem ++ ".json"] := by
    have single : (String.ofList stem ++ ".json").toList.splitOn '/' = [(String.ofList stem ++ ".json").toList] :=
      @Bytes.splitOn_terminated Char _ _ [] (List.forall_mem_nil _) _ free
    rw [Text.pathParts, Text.splitOn, single, List.map_singleton, String.ofList_toList, List.filter_singleton]
    simp [other "" (by decide), other "." (by decide)]
  have parts : Text.pathParts ("issue-series/" ++ (String.ofList stem ++ ".json")) = ["issue-series", String.ofList stem ++ ".json"] := by
    rw [Text.pathParts_slash whole, one]
    rfl
  have relative : Text.isAbsolute ("issue-series/" ++ (String.ofList stem ++ ".json")) = false := by
    rw [Text.isAbsolute, Text.hasPrefix, Text.characters_eq, Text.characters_eq, whole]
    rfl
  have there : resolved ("issue-series/" ++ (String.ofList stem ++ ".json")) = some ["issue-series", String.ofList stem ++ ".json"] := by
    rw [resolved, relative, parts]
    simp [other ".." (by decide)]
  have suffix : Text.hasSuffix ".json" (String.ofList stem ++ ".json") = true := by
    rw [Text.hasSuffix, spelled, List.reverse_append]
    rfl
  rw [projectionOf, there]
  simp [suffix, other ".json" (by decide)]

section planning
variable {settings : Settings} {manifest : IssueSeriesManifest}

/-- A series whose file and whose members stand has its receipt. -/
theorem loadGitReceipt_stored {projections : FileTree String} {members : List Task} (planned : Planned settings manifest)
    (small : Privacy.byteLength (String.ofList (projectionText manifest)) ≤ 200000)
    (stored : projections.read manifest.path = some (String.ofList (projectionText manifest)))
    (linked : (members.map idOf).Perm manifest.ids)
    (digests : ∀ task ∈ members, (task.fields.get "issue_series").get "manifest_digest" = .str manifest.digest) :
    settings.loadGitReceipt projections manifest.path members = .ok ⟨blankDigest, manifest⟩ := by
  have sorted_ : (members.map idOf).insertionSort (· ≤ ·) = manifest.ids.insertionSort (· ≤ ·) := by
    apply List.Perm.eq_of_pairwise' (r := fun a b : String => a ≤ b)
    · exact List.pairwise_insertionSort _ _
    · exact List.pairwise_insertionSort _ _
    · exact (List.perm_insertionSort _ _).trans (linked.trans (List.perm_insertionSort _ _).symm)
  have agrees : (members.any fun task => (task.fields.get "issue_series").get "manifest_digest" != .str manifest.digest) = false := by
    rw [List.any_eq_false]
    intro task member differs
    rw [bne, Bool.not_eq_true', ← Bool.not_eq_true, Json.beq_str] at differs
    exact differs (digests task member)
  simp only [Settings.loadGitReceipt, bind_eq_ok, raiseIf_eq_ok, orRaise_eq_ok, mapError_eq_ok, pure_eq_ok]
  refine ⟨_, projectionOf_manifestPath _, _, stored, _, loadManifest_projection small, _, planIssueSeries_stored planned, (), ?_, (),
    agrees, rfl⟩
  rw [sorted_, bne_self_eq_false]

end planning

/-! Runs of lifecycle events and creations. -/

inductive SeriesEvent where
  | lifecycle (event : Authority.Event)
  | create (request : SeriesRequest)

/-- A store with the manifests of the series that were created in it, oldest first. -/
structure SeriesState where
  store : SeriesStore
  created : List IssueSeriesManifest

def Settings.step (settings : Settings) (state : SeriesState) : SeriesEvent → SeriesState
  | .lifecycle event =>
      { state with store := { state.store with authority := Authority.step settings.files .git state.store.authority event } }
  | .create request =>
      match settings.cmdIssueSeriesCreate state.store request with
      | (.ok receipt, after) => ⟨after, state.created ++ [receipt.manifest]⟩
      | (.error _, after) => ⟨after, state.created⟩

/-- A task is a member of a series and says so. -/
structure MemberOf (manifest : IssueSeriesManifest) (task : Task) : Prop where
  known : idOf task ∈ manifest.ids
  linked : task.fields.get "issue_series" = linkage manifest.path manifest.digest (idOf task)

/-- The tasks of a store are in files of their names. -/
structure Filed (tasks : List Task) : Prop where
  ids : (tasks.map idOf).Nodup
  paths : ∀ task ∈ tasks, task.path = idOf task ++ ".md"

/-- The series of a store are those that were created. -/
structure Recorded (settings : Settings) (state : SeriesState) : Prop where
  filed : Filed state.store.authority.tasks
  paths : (state.created.map (·.path)).Nodup
  planned : ∀ manifest ∈ state.created, Planned settings manifest
  small : ∀ manifest ∈ state.created, Privacy.byteLength (String.ofList (projectionText manifest)) ≤ 200000
  stored : ∀ manifest ∈ state.created, state.store.projections.read manifest.path = some (String.ofList (projectionText manifest))
  members : ∀ manifest ∈ state.created, ∀ name ∈ manifest.ids,
    ∃ task ∈ state.store.authority.tasks, idOf task = name ∧ MemberOf manifest task
  linked : ∀ task ∈ state.store.authority.tasks, (task.fields.get "issue_series").isNull = true ∨
    ∃ manifest ∈ state.created, MemberOf manifest task

theorem Filed.distinct {tasks : List Task} (filed : Filed tasks) : Authority.Distinct tasks := by
  refine ⟨?_, filed.ids⟩
  have same : tasks.map (·.path) = (tasks.map idOf).map (· ++ ".md") := by
    rw [List.map_map]
    exact List.map_congr_left filed.paths
  rw [same]
  apply filed.ids.map
  intro a b same
  have letters := congrArg String.toList same
  rw [String.toList_append, String.toList_append, List.append_left_inj] at letters
  exact String.toList_inj.mp letters

section lifecycle
variable {store : Authority.Store}

/-- What a change of a task leaves as it was. -/
structure Kept (before after : Task) : Prop where
  path : after.path = before.path
  name : idOf after = idOf before
  series : after.fields.get "issue_series" = before.fields.get "issue_series"

theorem Kept.refl (task : Task) : Kept task task := ⟨rfl, rfl, rfl⟩

theorem series_unwritten (m : Transitions.Mutation) : "issue_series" ∉ m.writes := by
  cases m <;> (simp only [Transitions.Mutation.writes]; decide)

/-- A lifecycle event changes tasks in their places. -/
theorem lifecycle_kept (files : Files) (distinct : Authority.Distinct store.tasks) (event : Authority.Event) :
    ∃ change : Task → Task, (Authority.step files .git store event).tasks = store.tasks.map change ∧
      ∀ task ∈ store.tasks, Kept task (change task) := by
  rcases Authority.step_cases files .git store event with same | accepted
  · rw [same]
    exact ⟨id, (List.map_id _).symm, fun task _ => .refl task⟩
  · generalize Authority.step files .git store event = after at accepted ⊢
    cases event with
    | mutation world name m =>
      have mutated : Authority.mutate files .git world store name m = .ok after := accepted
      obtain ⟨target, task, note, commits⟩ := Authority.mutate_eq_ok distinct mutated
      refine ⟨_, commits.tasks, fun other member => ?_⟩
      split
      next here =>
        have same : other = target := Authority.nodup_map_unique distinct.paths member commits.member here
        subst same
        have frame := Transitions.transition_within _ _ m (task, note) commits.applied
        refine ⟨rfl, commits.idOf_eq, ?_⟩
        calc (Authority.advanced task world.now).get "issue_series" = task.get "issue_series" := Authority.advanced_get (by decide)
          _ = other.fields.get "issue_series" := frame.get (series_unwritten m)
      next => exact .refl other
    | observation world observations =>
      obtain ⟨⟨key, changed⟩, -, -⟩ := Authority.observation_eq_ok accepted
      refine ⟨_, changed, fun task _ => ?_⟩
      have frame := Authority.syncTask_within observations world.now (key task) task
      exact ⟨Authority.syncTask_path _ _ _ _, frame.textOr (by decide), frame.get (by decide)⟩

end lifecycle

section steps
variable {settings : Settings} {state : SeriesState}

theorem MemberOf.kept {manifest : IssueSeriesManifest} {before after : Task} (member : MemberOf manifest before) (kept : Kept before after) :
    MemberOf manifest after := by
  refine ⟨kept.name ▸ member.known, ?_⟩
  rw [kept.series, kept.name]
  exact member.linked

theorem Recorded.lifecycle (recorded : Recorded settings state) (event : Authority.Event) :
    Recorded settings (settings.step state (.lifecycle event)) := by
  obtain ⟨change, tasks, kept⟩ := lifecycle_kept settings.files recorded.filed.distinct event
  have named : (state.store.authority.tasks.map change).map idOf = state.store.authority.tasks.map idOf := by
    rw [List.map_map]
    exact List.map_congr_left fun task member => (kept task member).name
  refine ⟨⟨?_, ?_⟩, recorded.paths, recorded.planned, recorded.small, recorded.stored, ?_, ?_⟩
  · change ((Authority.step settings.files .git state.store.authority event).tasks.map idOf).Nodup
    rw [tasks, named]
    exact recorded.filed.ids
  · intro task member
    change task ∈ (Authority.step settings.files .git state.store.authority event).tasks at member
    rw [tasks] at member
    obtain ⟨before, there, rfl⟩ := List.mem_map.mp member
    rw [(kept before there).path, (kept before there).name]
    exact recorded.filed.paths before there
  · intro manifest listed name known
    obtain ⟨before, there, rfl, member⟩ := recorded.members manifest listed name known
    refine ⟨change before, ?_, (kept before there).name, member.kept (kept before there)⟩
    change change before ∈ (Authority.step settings.files .git state.store.authority event).tasks
    rw [tasks]
    exact List.mem_map_of_mem there
  · intro task member
    change task ∈ (Authority.step settings.files .git state.store.authority event).tasks at member
    rw [tasks] at member
    obtain ⟨before, there, rfl⟩ := List.mem_map.mp member
    rw [(kept before there).series]
    refine (recorded.linked before there).imp id ?_
    rintro ⟨manifest, listed, member⟩
    exact ⟨manifest, listed, member.kept (kept before there)⟩

end steps

section creation
variable {α : Type} {settings : Settings} {store : SeriesStore} {request : SeriesRequest} {receipt : SeriesReceipt}

/-- A series that may be written. -/
structure Admitted (settings : Settings) (store : SeriesStore) (manifest : IssueSeriesManifest) : Prop where
  planned : Planned settings manifest
  fresh : ∀ name ∈ store.authority.tasks.map idOf, name ∉ manifest.ids
  absent : store.projections.read manifest.path = none

theorem admitted_ok (accepted : settings.admitted store request = .ok receipt) : Admitted settings store receipt.manifest := by
  simp only [Settings.admitted, bind_eq_ok, raiseIf_eq_ok, pure_eq_ok, Option.isSome_eq_false_iff, Option.isNone_iff_eq_none] at accepted
  obtain ⟨found, plan, _, -, _, absent, _, -, rfl⟩ := accepted
  obtain ⟨planned, fresh⟩ := loadIssueSeriesPlan_planned plan
  exact ⟨planned, fresh, absent⟩

/-- A file that was not there is gone again. -/
theorem read_restored {projections : FileTree String} {path : String} (absent : projections.read path = none) (text other : String) :
    ((projections.write path text).restore [(path, none)]).read other = projections.read other := by
  rw [FileTree.restore, List.foldr_cons, List.foldr_nil, FileTree.read_put, FileTree.read_write]
  by_cases here : other = path
  · rw [if_pos here, here, absent]
  · rw [if_neg here, if_neg here]

/-- What a failed creation leaves reads as before. -/
structure Unchanged (before : SeriesStore) (result : Except String α × SeriesStore) : Prop where
  failed : ∃ message, result.1 = .error message
  authority : result.2.authority = before.authority
  reads : ∀ path, result.2.projections.read path = before.projections.read path

theorem createGitIssueSeries_cases (absent : store.projections.read receipt.manifest.path = none) (created : List Task) (refused : Bool) :
    Unchanged store (settings.createGitIssueSeries store receipt created refused) ∨
      settings.writtenErrors store.authority.tasks receipt.manifest created = [] ∧
        settings.createGitIssueSeries store receipt created refused = (.ok (),
          ⟨{ store.authority with tasks := placed store.authority.tasks created },
            store.projections.write receipt.manifest.path (String.ofList (projectionText receipt.manifest))⟩) := by
  have back := read_restored absent (String.ofList (projectionText receipt.manifest))
  simp only [Settings.createGitIssueSeries]
  cases found : settings.writtenErrors store.authority.tasks receipt.manifest created with
  | cons error errors =>
    simp only [List.isEmpty_cons, Bool.not_false, if_true]
    refine .inl ⟨⟨_, rfl⟩, rfl, fun path => ?_⟩
    dsimp only
    exact back path
  | nil =>
    simp only [List.isEmpty_nil, Bool.not_true, Bool.false_eq_true, if_false]
    cases refused with
    | true =>
      simp only [if_true]
      refine .inl ⟨⟨_, rfl⟩, rfl, fun path => ?_⟩
      dsimp only
      exact back path
    | false =>
      simp only [Bool.false_eq_true, if_false]
      exact .inr ⟨trivial, trivial⟩

theorem writtenErrors_small {tasks created : List Task} {manifest : IssueSeriesManifest}
    (clean : settings.writtenErrors tasks manifest created = []) :
    Privacy.byteLength (String.ofList (projectionText manifest)) ≤ 200000 := by
  rw [Settings.writtenErrors, List.append_eq_nil_iff, List.append_eq_nil_iff, Privacy.introducedErrors, List.append_eq_nil_iff,
    errorIf_eq_nil, Option.getD_none, Bool.and_eq_false_iff, decide_eq_false_iff_not, decide_eq_false_iff_not, Nat.not_lt] at clean
  rcases clean.1.2.1 with small | large
  · exact small
  · exact absurd (Nat.zero_le _) large

/-- A creation leaves everything as it reads, or writes the tasks and the file of a series that may be written. -/
theorem cmdIssueSeriesCreate_cases (settings : Settings) (store : SeriesStore) (request : SeriesRequest) :
    Unchanged store (settings.cmdIssueSeriesCreate store request) ∨
      ∃ receipt, Admitted settings store receipt.manifest ∧
        Privacy.byteLength (String.ofList (projectionText receipt.manifest)) ≤ 200000 ∧
          settings.cmdIssueSeriesCreate store request = (.ok receipt,
            ⟨{ store.authority with tasks := placed store.authority.tasks (receipt.manifest.tasks request.createdAt) },
              store.projections.write receipt.manifest.path (String.ofList (projectionText receipt.manifest))⟩) := by
  rw [Settings.cmdIssueSeriesCreate]
  cases accepted : settings.admitted store request with
  | error message => exact .inl ⟨⟨message, rfl⟩, rfl, fun _ => rfl⟩
  | ok receipt =>
    have admitted := admitted_ok accepted
    rcases createGitIssueSeries_cases admitted.absent (receipt.manifest.tasks request.createdAt) request.refused with same | ⟨clean, done⟩
    · obtain ⟨⟨message, failed⟩, authority, reads⟩ := same
      refine .inl ⟨⟨message, ?_⟩, authority, reads⟩
      dsimp only
      rw [failed]
      rfl
    · refine .inr ⟨receipt, admitted, writtenErrors_small clean, ?_⟩
      dsimp only
      rw [done]
      rfl

/-- Tasks under new paths are added to those that stand. -/
theorem placed_perm {tasks created : List Task} (apart : ∀ task ∈ tasks, task.path ∉ created.map Task.path) :
    (placed tasks created).Perm (tasks ++ created) := by
  have all : (tasks.filter fun task => !(created.map Task.path).contains task.path) = tasks := by
    rw [List.filter_eq_self]
    intro task member
    simpa using apart task member
  rw [placed, all]
  exact List.perm_insertionSort _ _

end creation

section recording
variable {settings : Settings} {state : SeriesState} {after : SeriesStore} {manifest : IssueSeriesManifest}

/-- What reads alike records alike. -/
theorem Recorded.unchanged (recorded : Recorded settings state) {result : Except String SeriesReceipt × SeriesStore}
    (same : Unchanged state.store result) : Recorded settings ⟨result.2, state.created⟩ := by
  have tasks : result.2.authority.tasks = state.store.authority.tasks := congrArg Authority.Store.tasks same.authority
  constructor
  · rw [tasks]
    exact recorded.filed
  · exact recorded.paths
  · exact recorded.planned
  · exact recorded.small
  · intro manifest listed
    rw [same.reads]
    exact recorded.stored manifest listed
  · rw [tasks]
    exact recorded.members
  · rw [tasks]
    exact recorded.linked

theorem memberOf_series {task : Task} {createdAt : String} (member : task ∈ manifest.tasks createdAt) : MemberOf manifest task := by
  obtain ⟨found, inside, rfl⟩ := mem_seriesTasks.mp member
  exact ⟨List.mem_map_of_mem inside, linkage_seriesTask⟩

theorem filed_series {tasks : List Task} (createdAt : String) (filed : Filed tasks) (admitted : Planned settings manifest)
    (fresh : ∀ name ∈ tasks.map idOf, name ∉ manifest.ids) : Filed (tasks ++ manifest.tasks createdAt) := by
  have named : (manifest.tasks createdAt).map idOf = manifest.ids := ids_seriesTasks
  refine ⟨?_, fun task member => ?_⟩
  · rw [List.map_append, named, List.nodup_append]
    refine ⟨filed.ids, admitted.formed.ordered.distinct, ?_⟩
    rintro name known other inside rfl
    exact fresh name known inside
  · rcases List.mem_append.mp member with here | new
    · exact filed.paths task here
    · obtain ⟨found, -, rfl⟩ := mem_seriesTasks.mp new
      exact path_seriesTask

/-- The tasks of a new series are put beside those that stand. -/
theorem placed_series {tasks : List Task} (createdAt : String) (filed : Filed tasks) (admitted : Planned settings manifest)
    (fresh : ∀ name ∈ tasks.map idOf, name ∉ manifest.ids) :
    (placed tasks (manifest.tasks createdAt)).Perm (tasks ++ manifest.tasks createdAt) := by
  apply placed_perm
  intro task member listed
  obtain ⟨other, new, same⟩ := List.mem_map.mp listed
  have together := (filed_series createdAt filed admitted fresh).distinct
  have one : other = task := Authority.nodup_map_unique together.paths (List.mem_append_right _ new) (List.mem_append_left _ member) same
  subst one
  exact fresh _ (List.mem_map_of_mem member) (memberOf_series new).known

theorem Recorded.created (recorded : Recorded settings state) (admitted : Admitted settings state.store manifest) (createdAt : String)
    (small : Privacy.byteLength (String.ofList (projectionText manifest)) ≤ 200000) :
    Recorded settings ⟨⟨{ state.store.authority with tasks := placed state.store.authority.tasks (manifest.tasks createdAt) },
      state.store.projections.write manifest.path (String.ofList (projectionText manifest))⟩, state.created ++ [manifest]⟩ := by
  have filed := filed_series createdAt recorded.filed admitted.planned admitted.fresh
  have perm := placed_series createdAt recorded.filed admitted.planned admitted.fresh
  -- no series of the store has this file
  have new : ∀ other ∈ state.created, other.path ≠ manifest.path := by
    intro other listed same
    have there := recorded.stored other listed
    rw [same, admitted.absent] at there
    cases there
  constructor
  · exact ⟨(perm.map idOf).nodup_iff.mpr filed.ids, fun task member => filed.paths task (perm.mem_iff.mp member)⟩
  · rw [List.map_append, List.nodup_append]
    refine ⟨recorded.paths, List.nodup_singleton _, ?_⟩
    rintro path listed other last rfl
    obtain ⟨old, inside, rfl⟩ := List.mem_map.mp listed
    exact new old inside (List.mem_singleton.mp last)
  · intro other listed
    rcases List.mem_append.mp listed with old | last
    · exact recorded.planned other old
    · exact List.mem_singleton.mp last ▸ admitted.planned
  · intro other listed
    rcases List.mem_append.mp listed with old | last
    · exact recorded.small other old
    · exact List.mem_singleton.mp last ▸ small
  · intro other listed
    dsimp only
    rw [FileTree.read_write]
    rcases List.mem_append.mp listed with old | last
    · rw [if_neg (new other old)]
      exact recorded.stored other old
    · rw [List.mem_singleton.mp last, if_pos rfl]
  · intro other listed name known
    rcases List.mem_append.mp listed with old | last
    · obtain ⟨task, there, named, member⟩ := recorded.members other old name known
      exact ⟨task, perm.mem_iff.mpr (List.mem_append_left _ there), named, member⟩
    · obtain rfl := List.mem_singleton.mp last
      obtain ⟨member, inside, rfl⟩ := List.mem_map.mp known
      have made : seriesTask other other.path other.digest createdAt member ∈ other.tasks createdAt :=
        mem_seriesTasks.mpr ⟨member, inside, rfl⟩
      exact ⟨_, perm.mem_iff.mpr (List.mem_append_right _ made), idOf_seriesTask, memberOf_series made⟩
  · intro task member
    rcases List.mem_append.mp (perm.mem_iff.mp member) with old | made
    · refine (recorded.linked task old).imp id ?_
      rintro ⟨other, listed, linked⟩
      exact ⟨other, List.mem_append_left _ listed, linked⟩
    · exact .inr ⟨manifest, List.mem_append_right _ (List.mem_singleton_self _), memberOf_series made⟩

theorem Recorded.step (recorded : Recorded settings state) (event : SeriesEvent) : Recorded settings (settings.step state event) := by
  cases event with
  | lifecycle event => exact recorded.lifecycle event
  | create request =>
    rw [Settings.step]
    rcases cmdIssueSeriesCreate_cases settings state.store request with same | ⟨receipt, admitted, small, done⟩
    · have kept := recorded.unchanged same
      obtain ⟨message, failed⟩ := same.failed
      generalize settings.cmdIssueSeriesCreate state.store request = result at kept failed
      obtain ⟨answer, store⟩ := result
      subst failed
      exact kept
    · rw [done]
      exact recorded.created admitted request.createdAt small

/-- The series of a task. -/
def pathOf (task : Task) : Option String :=
  if (task.fields.get "issue_series").isNull then none else some ((task.fields.get "issue_series").get "manifest_ref").text

theorem linkage_path (reference digest id : String) : (linkage reference digest id).get "manifest_ref" = .str reference := rfl

theorem linkage_digest (reference digest id : String) : (linkage reference digest id).get "manifest_digest" = .str digest := rfl

theorem Recorded.linkedPath (recorded : Recorded settings state) {task : Task} (member : task ∈ state.store.authority.tasks) :
    linkedPath task = .ok (pathOf task) := by
  rw [IssueSeries.linkedPath, pathOf]
  rcases recorded.linked task member with none_ | ⟨manifest, -, linked⟩
  · rw [if_pos none_, if_pos none_]
    rfl
  · rw [linked.linked]
    rfl

theorem Recorded.mem_paths (recorded : Recorded settings state) {path : String} :
    path ∈ (state.store.authority.tasks.map pathOf).reduceOption ↔ path ∈ state.created.map (·.path) := by
  rw [List.reduceOption_mem_iff, List.mem_map, List.mem_map]
  constructor
  · rintro ⟨task, member, named⟩
    rw [pathOf] at named
    rcases recorded.linked task member with none_ | ⟨manifest, listed, linked⟩
    · rw [if_pos none_] at named
      cases named
    · rw [linked.linked] at named
      exact ⟨manifest, listed, Option.some.inj named⟩
  · rintro ⟨manifest, listed, rfl⟩
    obtain ⟨name, known⟩ : ∃ name, name ∈ manifest.ids := by
      have last := (recorded.planned manifest listed).formed.ordered.last
      exact ⟨_, List.mem_of_getLast? last⟩
    obtain ⟨task, member, -, linked⟩ := recorded.members manifest listed name known
    refine ⟨task, member, ?_⟩
    rw [pathOf, linked.linked]
    rfl

theorem Recorded.member_iff (recorded : Recorded settings state) (listed : manifest ∈ state.created) {task : Task}
    (member : task ∈ state.store.authority.tasks) :
    (task.fields.get "issue_series").get "manifest_ref" = .str manifest.path ↔ MemberOf manifest task := by
  constructor
  · intro named
    rcases recorded.linked task member with none_ | ⟨other, there, linked⟩
    · rw [Json.isNull_iff.mp none_] at named
      cases named
    · rw [linked.linked, linkage_path] at named
      have same : other = manifest := Authority.nodup_map_unique recorded.paths there listed (Json.str.inj named)
      exact same ▸ linked
  · intro linked
    rw [linked.linked, linkage_path]

/-- Each series has its receipt. -/
theorem Recorded.receipt (recorded : Recorded settings state) (listed : manifest ∈ state.created) :
    settings.loadGitReceipt state.store.projections manifest.path
      (state.store.authority.tasks.filter fun task => (task.fields.get "issue_series").get "manifest_ref" == .str manifest.path) =
        .ok ⟨blankDigest, manifest⟩ := by
  have members : ∀ task ∈ state.store.authority.tasks.filter fun task =>
      (task.fields.get "issue_series").get "manifest_ref" == .str manifest.path, MemberOf manifest task := by
    intro task inside
    obtain ⟨member, named⟩ := List.mem_filter.mp inside
    exact (recorded.member_iff listed member).mp ((Json.beq_str _ _).mp named)
  apply loadGitReceipt_stored (recorded.planned manifest listed) (recorded.small manifest listed) (recorded.stored manifest listed)
  · apply (List.perm_ext_iff_of_nodup ?_ ?_).mpr
    · intro name
      constructor
      · intro found
        obtain ⟨task, inside, rfl⟩ := List.mem_map.mp found
        exact (members task inside).known
      · intro known
        obtain ⟨task, member, rfl, linked⟩ := recorded.members manifest listed name known
        exact List.mem_map_of_mem (List.mem_filter.mpr ⟨member, (Json.beq_str _ _).mpr ((recorded.member_iff listed member).mpr linked)⟩)
    · exact (List.filter_sublist.map idOf).nodup recorded.filed.ids
    · exact (recorded.planned manifest listed).formed.ordered.distinct
  · intro task inside
    rw [(members task inside).linked, linkage_digest]

/-- The receipts of a store, in the order of the files. -/
theorem Recorded.receipts (recorded : Recorded settings state) :
    settings.gitIssueSeriesReceipts state.store.projections state.store.authority.tasks =
      .ok ((state.created.insertionSort fun a b => a.path ≤ b.path).map fun manifest => ⟨blankDigest, manifest⟩) := by
  have paths : sortedSet (state.store.authority.tasks.map pathOf).reduceOption =
      (state.created.insertionSort fun a b => a.path ≤ b.path).map (·.path) := by
    apply List.Perm.eq_of_pairwise' (r := fun a b : String => a ≤ b)
    · exact List.pairwise_insertionSort _ _
    · rw [List.map_insertionSort (fun a b : IssueSeriesManifest => a.path ≤ b.path) (fun a b : String => a ≤ b) _ _ fun _ _ _ _ => Iff.rfl]
      exact List.pairwise_insertionSort _ _
    · refine (List.perm_insertionSort _ _).trans (List.Perm.trans ?_ ((List.perm_insertionSort _ _).map _).symm)
      apply (List.perm_ext_iff_of_nodup (List.nodup_dedup _) recorded.paths).mpr
      intro path
      rw [List.mem_dedup]
      exact recorded.mem_paths
  rw [Settings.gitIssueSeriesReceipts, mapM_ok fun task member => recorded.linkedPath member]
  simp only [ok_bind]
  rw [paths, List.mapM_map]
  exact mapM_ok fun manifest inside => recorded.receipt ((List.mem_insertionSort _).mp inside)

theorem Recorded.identities (recorded : Recorded settings state) : (state.created.map IssueSeriesManifest.seriesIdentity).Nodup := by
  have paths : state.created.map (·.path) = (state.created.map IssueSeriesManifest.seriesIdentity).map manifestPath := by
    rw [List.map_map]
    rfl
  have distinct := recorded.paths
  rw [paths] at distinct
  exact distinct.of_map _

end recording

def sampleStore : SeriesStore := ⟨⟨[⟨"AR-0001.md", [("id", .str "AR-0001"), ("status", .str "open")], ""⟩], fun _ => [], fun _ => [], []⟩, []⟩

def sampleRequest : SeriesRequest where
  content := String.ofList (projectionText sampleManifest)
  expectedStateDigest := issueSeriesStateDigest sampleStore.authority.tasks
  createdAt := "2026-07-01T10:00:00+00:00"
  refused := false

theorem recorded_run (settings : Settings) {start : SeriesStore} (filed : Filed start.authority.tasks)
    (plain : ∀ task ∈ start.authority.tasks, (task.fields.get "issue_series").isNull = true) (events : List SeriesEvent) :
    Recorded settings (Run.final settings.step ⟨start, []⟩ events) := by
  have begun : Recorded settings ⟨start, []⟩ := by
    constructor
    · exact filed
    · exact List.nodup_nil
    · exact List.forall_mem_nil _
    · exact List.forall_mem_nil _
    · exact List.forall_mem_nil _
    · exact List.forall_mem_nil _
    · exact fun task member => .inl (plain task member)
  have keeps (state : SeriesState) (event : SeriesEvent) (recorded : Recorded settings state) :
      Recorded settings (settings.step state event) := recorded.step event
  exact Run.invariant_always settings.step keeps events begun

/-- However lifecycle events and creations follow each other, succeed or fail: the receipts that are read from the tasks and the
files are those of the series that were created, and no issue has two of them. -/
theorem series_receipts_run (settings : Settings) {start : SeriesStore} (filed : Filed start.authority.tasks)
    (plain : ∀ task ∈ start.authority.tasks, (task.fields.get "issue_series").isNull = true) (events : List SeriesEvent) :
    ((Run.final settings.step ⟨start, []⟩ events).created.map IssueSeriesManifest.seriesIdentity).Nodup ∧
      settings.gitIssueSeriesReceipts (Run.final settings.step ⟨start, []⟩ events).store.projections
        (Run.final settings.step ⟨start, []⟩ events).store.authority.tasks =
          .ok (((Run.final settings.step ⟨start, []⟩ events).created.insertionSort fun a b => a.path ≤ b.path).map fun manifest =>
            ⟨blankDigest, manifest⟩) := by
  have recorded := recorded_run settings filed plain events
  exact ⟨recorded.identities, recorded.receipts⟩

/-- A series of one member, created beside a task. -/
theorem receipts_created : ((Run.final sampleSettings.step ⟨sampleStore, []⟩ [.create sampleRequest]).created.map
      IssueSeriesManifest.seriesIdentity).Nodup ∧
    sampleSettings.gitIssueSeriesReceipts (Run.final sampleSettings.step ⟨sampleStore, []⟩ [.create sampleRequest]).store.projections
      (Run.final sampleSettings.step ⟨sampleStore, []⟩ [.create sampleRequest]).store.authority.tasks =
        .ok (((Run.final sampleSettings.step ⟨sampleStore, []⟩ [.create sampleRequest]).created.insertionSort
          fun a b => a.path ≤ b.path).map fun manifest => ⟨blankDigest, manifest⟩) := by
  have filed : Filed sampleStore.authority.tasks := ⟨by decide, by decide⟩
  have plain : ∀ task ∈ sampleStore.authority.tasks, (task.fields.get "issue_series").isNull = true := by decide
  exact series_receipts_run sampleSettings filed plain [.create sampleRequest]

end Coordinator.IssueSeries
