import Coordinator.SeriesStore
import Mathlib.Data.Prod.Lex

/-! Issue series in the SQLite authority: the rows of a creation, the rows of an import, and what is loaded from them. -/

namespace Coordinator.IssueSeries
open Kit TaskGraph TaskValidation

structure SeriesRow where
  identity : String × Int
  manifest : List Char
  digest : String

structure MemberRow where
  identity : String × Int
  task : String
  member : String

/-- The tables that a series has rows in. -/
structure Tables where
  tasks : List Task
  events : List Authority.EventRow
  series : List SeriesRow
  members : List MemberRow

def Tables.addTask (tables : Tables) (task : Task) : Tables := { tables with tasks := tables.tasks ++ [task] }

def Tables.addEvent (tables : Tables) (row : Authority.EventRow) : Tables := { tables with events := tables.events ++ [row] }

def Tables.addSeries (tables : Tables) (row : SeriesRow) : Tables := { tables with series := tables.series ++ [row] }

def Tables.addMember (tables : Tables) (row : MemberRow) : Tables := { tables with members := tables.members ++ [row] }

def constraint (table : String) : String := "SQLITE_CONSTRAINT: " ++ table ++ " row violates the schema"

/-- What is loaded of a series. -/
structure SeriesRecord where
  manifest : Json
  digest : String
  identity : String × Int

section
variable (shortest : JsonText.Shortest)

def insertSeries (tables : Tables) (manifest : IssueSeriesManifest) : Except String Tables := do
  let row : SeriesRow := ⟨manifest.seriesIdentity, JsonText.dumps JsonText.compact (manifestPayload manifest), manifest.digest⟩
  raiseIf (tables.series.any (·.identity == row.identity) || row.identity.2 < 1 || (JsonText.loads shortest row.manifest).isNone ||
    row.digest.length != 71) (constraint "issue_series")
  pure (tables.addSeries row)

/-- The row of a task and those of its dependencies, each of which refers to a row that is there. -/
def insertTask (tables : Tables) (task : Task) : Except String Tables := do
  raiseIf (!ExecutionEnvelope.isTask (idOf task) || tables.tasks.any (fun other => idOf other == idOf task || other.path == task.path) ||
    !Authority.schemaAccepts (tables.tasks ++ [task]) (idOf task) task.fields) (constraint "tasks")
  pure (tables.addTask task)

def insertEvent (tables : Tables) (row : Authority.EventRow) : Except String Tables := do
  raiseIf (!(tables.tasks.any (idOf · == row.task)) ||
    tables.events.any (fun other => other.task == row.task && other.revision == row.revision)) (constraint "events")
  pure (tables.addEvent row)

def insertMember (tables : Tables) (row : MemberRow) : Except String Tables := do
  raiseIf (!(tables.series.any (·.identity == row.identity)) || !(tables.tasks.any (idOf · == row.task)) ||
    tables.members.any (fun other => other.identity == row.identity && (other.task == row.task || other.member == row.member)))
    (constraint "issue_series_members")
  pure (tables.addMember row)

def creationEvent (recordedAt : String) (task : Task) : Authority.EventRow :=
  ⟨idOf task, Meta.revision task.fields, "issue-series-create", recordedAt, "Created from a locally validated issue-series manifest."⟩

/-- The rows of one member. -/
def insertCreated (identity : String × Int) (recordedAt : String) (tables : Tables) (task : Task) : Except String Tables := do
  let tables ← insertTask tables task
  let tables ← insertEvent tables (creationEvent recordedAt task)
  insertMember tables ⟨identity, idOf task, ((task.fields.get "issue_series").get "member_id").text⟩

/-- The transaction that creates a series; what it raises takes all of its rows back. -/
def createSqliteIssueSeries (tables : Tables) (receipt : SeriesReceipt) (created : List Task) (recordedAt : String) : Except String Tables := do
  let identity := receipt.manifest.seriesIdentity
  raiseIf (issueSeriesStateDigest tables.tasks != receipt.currentStateDigest) "STALE_STATE: re-run issue-series plan before create"
  raiseIf (tables.series.any (·.identity == identity)) "issue-series manifest identity already exists"
  let collisions := sortedSet ((created.map idOf).filter (tables.tasks.map idOf).contains)
  raiseIf (!collisions.isEmpty) ("issue-series identifiers already exist: " ++ Text.joined ", " collisions)
  raiseIf (!decide (created.map idOf).Nodup) "issue-series contains duplicate task identifiers"
  let tables ← insertSeries shortest tables receipt.manifest
  created.foldlM (insertCreated identity recordedAt) tables

/-- The rows of one series of an import, behind those of the tasks. -/
def importSeries (tables : Tables) (receipt : SeriesReceipt) : Except String Tables := do
  let tables ← insertSeries shortest tables receipt.manifest
  receipt.manifest.ids.foldlM (fun tables name => insertMember tables ⟨receipt.manifest.seriesIdentity, name, name⟩) tables

/-- The tables of a new database with the series of another authority. -/
def importAll (tasks : List Task) (receipts : List SeriesReceipt) : Except String Tables :=
  receipts.foldlM (importSeries shortest) ⟨tasks, [], [], []⟩

/-- The series of the tables, in the order of their identities. -/
def loadIssueSeries (tables : Tables) : Except String (List SeriesRecord) :=
  (tables.series.insertionSort fun a b => toLex a.identity ≤ toLex b.identity).mapM fun row => do
    let manifest ← orRaise (JsonText.loads shortest row.manifest) "SQLITE_CORRUPT: invalid issue-series JSON"
    raiseIf (!manifest.isObj) "SQLITE_CORRUPT: invalid issue-series manifest"
    pure ⟨manifest, row.digest, row.identity⟩

end

/-- Each member comes behind those that it depends on. -/
def Ordered : List String → List Member → Prop
  | _, [] => True
  | known, member :: rest => (∀ dependency ∈ member.dependencies, dependency ∈ known) ∧ Ordered (known ++ [member.id]) rest

/-! What a creation inserts. -/

section rows
variable {shortest : JsonText.Shortest} {tables : Tables} {manifest : IssueSeriesManifest} {word : Char → Bool} {lower : String → String}
  {createdAt recordedAt : String}

theorem digest_length (manifest : IssueSeriesManifest) : manifest.digest.length = 71 := by
  have hex := Sha256.hexText_hexdigest (JsonText.dumps JsonText.compact (manifestPayload manifest))
  rw [Text.hexText, Text.characters_eq, Text.exactly, Bool.and_eq_true, beq_iff_eq] at hex
  rw [IssueSeriesManifest.digest, ← String.length_toList, String.toList_append, List.length_append, hex.1]
  rfl

theorem loads_manifestRow (shortest : JsonText.Shortest) (manifest : IssueSeriesManifest) :
    JsonText.loads shortest (JsonText.dumps JsonText.compact (manifestPayload manifest)) =
      some (JsonText.sortKeys (manifestPayload manifest)) := JsonText.loads_dumps _ (manifestPayload_regular manifest)

def seriesRow (manifest : IssueSeriesManifest) : SeriesRow :=
  ⟨manifest.seriesIdentity, JsonText.dumps JsonText.compact (manifestPayload manifest), manifest.digest⟩

/-- The row of a well-formed manifest goes in unless its issue has one. -/
theorem insertSeries_formed (formed : WellFormed word lower manifest) : insertSeries shortest tables manifest =
    if tables.series.any (·.identity == manifest.seriesIdentity) then .error (constraint "issue_series")
    else .ok (tables.addSeries (seriesRow manifest)) := by
  have positive : decide (manifest.seriesIdentity.2 < 1) = false := decide_eq_false (Int.not_lt.mpr formed.number)
  have length : (manifest.digest.length != 71) = false := by rw [digest_length, bne_self_eq_false]
  rw [insertSeries]
  dsimp only
  rw [loads_manifestRow, positive, length]
  cases tables.series.any (·.identity == manifest.seriesIdentity) with
  | true => rfl
  | false => rfl

def memberRow (manifest : IssueSeriesManifest) (name : String) : MemberRow := ⟨manifest.seriesIdentity, name, name⟩

/-- The tables of which a creation starts, once the row of its series is there: every row refers to what there is. -/
structure Sound (tables : Tables) (manifest : IssueSeriesManifest) : Prop where
  filed : Filed tables.tasks
  events : ∀ row ∈ tables.events, row.task ∈ tables.tasks.map idOf
  series : ∃ row ∈ tables.series, row.identity = manifest.seriesIdentity
  members : ∀ row ∈ tables.members, row.identity ≠ manifest.seriesIdentity
  fresh : ∀ name ∈ tables.tasks.map idOf, name ∉ manifest.ids

def IssueSeriesManifest.task (manifest : IssueSeriesManifest) (createdAt : String) (member : Member) : Task :=
  seriesTask manifest manifest.path manifest.digest createdAt member

@[simp] theorem idOf_task (manifest : IssueSeriesManifest) (createdAt : String) (member : Member) :
    idOf (manifest.task createdAt member) = member.id := rfl

@[simp] theorem path_task (manifest : IssueSeriesManifest) (createdAt : String) (member : Member) :
    (manifest.task createdAt member).path = member.id ++ ".md" := rfl

theorem name_task (manifest : IssueSeriesManifest) (createdAt : String) (member : Member) :
    (manifest.task createdAt member).fields.get "id" = .str member.id := rfl

/-- The tables when some members of a series are in. -/
def withMembers (tables : Tables) (manifest : IssueSeriesManifest) (createdAt recordedAt : String) (done : List Member) : Tables where
  tasks := tables.tasks ++ done.map (manifest.task createdAt)
  events := tables.events ++ done.map fun member => creationEvent recordedAt (manifest.task createdAt member)
  series := tables.series
  members := tables.members ++ done.map fun member => memberRow manifest member.id

theorem ids_withMembers {done : List Member} : (withMembers tables manifest createdAt recordedAt done).tasks.map idOf =
    tables.tasks.map idOf ++ done.map Member.id := by
  rw [withMembers, List.map_append, List.map_map]
  rfl

/-- The schema asks of a member that what it depends on is there. -/
theorem schemaAccepts_task {tasks : List Task} {member : Member} (once : member.dependencies.Nodup)
    (self : member.id ∉ member.dependencies) :
    Authority.schemaAccepts tasks member.id (manifest.task createdAt member).fields = true ↔
      ∀ dependency ∈ member.dependencies, ∃ task ∈ tasks, task.fields.get "id" = .str dependency := by
  have row : Authority.rowValid (manifest.task createdAt member).fields = true := rfl
  have idle : activeFields.all (fun field => !Authority.activeKeyTaken tasks member.id (manifest.task createdAt member).fields field) =
      true := by
    rw [List.all_eq_true]
    intro field _
    rw [Authority.activeKeyTaken]
    rfl
  have listed : dependenciesOf (manifest.task createdAt member).fields = .arr (member.dependencies.map .str) := rfl
  rw [Authority.schemaAccepts, row, idle, Bool.true_and, Bool.true_and]
  simp only [Authority.dependencyRowsValid, listed, Json.isArr, Json.items, Bool.true_and, Bool.and_eq_true, List.all_eq_true, List.mem_map,
    forall_exists_index, and_imp, forall_apply_eq_imp_iff₂, RetryCircuit.distinct_strs, Json.isStr, List.any_eq_true]
  constructor
  · rintro ⟨each, -⟩ dependency inside
    obtain ⟨-, task, there, named⟩ := (each dependency inside).1
    exact ⟨task, there, (Json.beq_str _ _).mp named⟩
  · refine fun known => ⟨fun dependency inside => ⟨?_, ?_⟩, once⟩
    · obtain ⟨task, there, named⟩ := known dependency inside
      exact ⟨trivial, task, there, (Json.beq_str _ _).mpr named⟩
    · rw [bne, Bool.not_eq_true', ← Bool.not_eq_true, Json.beq_str]
      intro same
      exact self (Json.str.inj same ▸ inside)

end rows

section members
variable {tables : Tables} {manifest : IssueSeriesManifest} {word : Char → Bool} {lower : String → String}
  {done rest : List Member} {member : Member}

/-- The members of a series up to one of them. -/
structure Upto (manifest : IssueSeriesManifest) (done : List Member) (member : Member) : Prop where
  inside : member ∈ manifest.members
  earlier : ∀ name ∈ done.map Member.id, name ∈ manifest.ids
  new : member.id ∉ done.map Member.id

theorem upto_split (formed : WellFormed word lower manifest) (split : manifest.members = done ++ member :: rest) :
    Upto manifest done member := by
  have distinct := formed.ordered.distinct
  rw [split, List.map_append, List.map_cons] at distinct
  constructor
  · rw [split]
    exact List.mem_append_right _ List.mem_cons_self
  · intro name listed
    rw [IssueSeriesManifest.ids, split, List.map_append]
    exact List.mem_append_left _ listed
  · intro listed
    exact (List.nodup_append.mp distinct).2.2 _ listed _ List.mem_cons_self rfl

section next
variable (createdAt recordedAt : String) (sound : Sound tables manifest) (upto : Upto manifest done member)

include sound upto

theorem absent_next : member.id ∉ (withMembers tables manifest createdAt recordedAt done).tasks.map idOf := by
  rw [ids_withMembers, List.mem_append, not_or]
  exact ⟨fun there => sound.fresh _ there (List.mem_map_of_mem upto.inside), upto.new⟩

theorem free_next : (withMembers tables manifest createdAt recordedAt done).tasks.any (fun other =>
    idOf other == member.id || other.path == member.id ++ ".md") = false := by
  rw [List.any_eq_false]
  intro task there clash
  have filed : task.path = idOf task ++ ".md" := by
    rcases List.mem_append.mp there with old | made
    · exact sound.filed.paths task old
    · obtain ⟨other, -, rfl⟩ := List.mem_map.mp made
      rfl
  rw [Bool.or_eq_true, beq_iff_eq, beq_iff_eq, filed] at clash
  have same : idOf task = member.id := by
    rcases clash with same | same
    · exact same
    · have letters := congrArg String.toList same
      rw [String.toList_append, String.toList_append, List.append_left_inj] at letters
      exact String.toList_inj.mp letters
  have within : idOf task ∈ (withMembers tables manifest createdAt recordedAt done).tasks.map idOf := List.mem_map_of_mem there
  rw [same] at within
  exact absent_next createdAt recordedAt sound upto within

/-- A dependency is there as the row of an earlier member, since no other task has its name. -/
theorem schemaAccepts_next (formed : WellFormed word lower manifest) :
    Authority.schemaAccepts ((withMembers tables manifest createdAt recordedAt done).tasks ++ [manifest.task createdAt member]) member.id
        (manifest.task createdAt member).fields = true ↔ ∀ dependency ∈ member.dependencies, dependency ∈ done.map Member.id := by
  have self : member.id ∉ member.dependencies := fun listed =>
    formed.ordered.acyclic member.id (.single ⟨member, upto.inside, rfl, listed⟩)
  rw [schemaAccepts_task (formed.ordered.once member upto.inside) self]
  refine forall₂_congr fun dependency listed => ?_
  have target : dependency ∈ manifest.ids := formed.ordered.known member upto.inside dependency listed
  constructor
  · rintro ⟨task, there, named⟩
    rcases List.mem_append.mp there with there | last
    · have within : idOf task ∈ (withMembers tables manifest createdAt recordedAt done).tasks.map idOf := List.mem_map_of_mem there
      rw [Authority.named_idOf named, ids_withMembers, List.mem_append] at within
      exact within.resolve_left fun old => sound.fresh _ old target
    · rw [List.mem_singleton.mp last, name_task] at named
      exact absurd (Json.str.inj named ▸ listed) self
  · intro before
    obtain ⟨other, inside, rfl⟩ := List.mem_map.mp before
    exact ⟨manifest.task createdAt other, List.mem_append_left _ (List.mem_append_right _ (List.mem_map_of_mem inside)), rfl⟩

/-- The row of a member goes in exactly behind those of the members that it depends on. -/
theorem insertTask_next (formed : WellFormed word lower manifest) :
    insertTask (withMembers tables manifest createdAt recordedAt done) (manifest.task createdAt member) =
      if (∀ dependency ∈ member.dependencies, dependency ∈ done.map Member.id) then
        .ok ((withMembers tables manifest createdAt recordedAt done).addTask (manifest.task createdAt member))
      else .error (constraint "tasks") := by
  have named : ExecutionEnvelope.isTask member.id = true := (formed.members member upto.inside).arId
  have rows := schemaAccepts_next createdAt recordedAt sound upto formed
  rw [insertTask, idOf_task, path_task, free_next createdAt recordedAt sound upto, named]
  by_cases listed : ∀ dependency ∈ member.dependencies, dependency ∈ done.map Member.id
  · rw [if_pos listed, rows.mpr listed]
    rfl
  · have refused : Authority.schemaAccepts ((withMembers tables manifest createdAt recordedAt done).tasks ++ [manifest.task createdAt member])
        member.id (manifest.task createdAt member).fields = false := by
      rw [← Bool.not_eq_true, rows]
      exact listed
    rw [if_neg listed, refused]
    rfl

theorem insertEvent_next :
    insertEvent ((withMembers tables manifest createdAt recordedAt done).addTask (manifest.task createdAt member))
        (creationEvent recordedAt (manifest.task createdAt member)) =
      .ok (((withMembers tables manifest createdAt recordedAt done).addTask (manifest.task createdAt member)).addEvent
        (creationEvent recordedAt (manifest.task createdAt member))) := by
  have here : ((withMembers tables manifest createdAt recordedAt done).addTask (manifest.task createdAt member)).tasks.any
      (idOf · == member.id) = true := by
    rw [Tables.addTask, List.any_append, Bool.or_eq_true]
    exact .inr (by simp)
  have fresh : (withMembers tables manifest createdAt recordedAt done).events.any (fun other => other.task == member.id &&
      other.revision == Meta.revision (manifest.task createdAt member).fields) = false := by
    rw [List.any_eq_false]
    intro row there clash
    rw [Bool.and_eq_true, beq_iff_eq] at clash
    apply absent_next createdAt recordedAt sound upto
    rw [← clash.1, ids_withMembers, List.mem_append]
    rcases List.mem_append.mp there with old | made
    · exact .inl (sound.events row old)
    · obtain ⟨other, inside, rfl⟩ := List.mem_map.mp made
      exact .inr (List.mem_map_of_mem inside)
  have events : ((withMembers tables manifest createdAt recordedAt done).addTask (manifest.task createdAt member)).events =
      (withMembers tables manifest createdAt recordedAt done).events := rfl
  rw [insertEvent, creationEvent]
  dsimp only
  rw [idOf_task, events, here, fresh]
  rfl

theorem insertMember_next (after : Tables) (series : after.series = tables.series)
    (members : after.members = (withMembers tables manifest createdAt recordedAt done).members)
    (here : after.tasks.any (idOf · == member.id) = true) :
    insertMember after (memberRow manifest member.id) = .ok (after.addMember (memberRow manifest member.id)) := by
  have there : after.series.any (·.identity == manifest.seriesIdentity) = true := by
    obtain ⟨row, inside, same⟩ := sound.series
    rw [series]
    exact List.any_eq_true.mpr ⟨row, inside, beq_iff_eq.mpr same⟩
  have fresh : after.members.any (fun other =>
      other.identity == manifest.seriesIdentity && (other.task == member.id || other.member == member.id)) = false := by
    rw [List.any_eq_false]
    intro row inside clash
    rw [Bool.and_eq_true, Bool.or_eq_true, beq_iff_eq, beq_iff_eq, beq_iff_eq] at clash
    rw [members] at inside
    rcases List.mem_append.mp inside with old | made
    · exact sound.members row old clash.1
    · obtain ⟨other, listed, rfl⟩ := List.mem_map.mp made
      have same : other.id = member.id := clash.2.elim id id
      exact upto.new (same ▸ List.mem_map_of_mem listed)
  rw [insertMember, memberRow]
  dsimp only
  rw [here, there, fresh]
  rfl

theorem insertCreated_next (formed : WellFormed word lower manifest) :
    insertCreated manifest.seriesIdentity recordedAt (withMembers tables manifest createdAt recordedAt done) (manifest.task createdAt member) =
      if (∀ dependency ∈ member.dependencies, dependency ∈ done.map Member.id) then
        .ok (withMembers tables manifest createdAt recordedAt (done ++ [member]))
      else .error (constraint "tasks") := by
  rw [insertCreated, insertTask_next createdAt recordedAt sound upto formed]
  by_cases listed : ∀ dependency ∈ member.dependencies, dependency ∈ done.map Member.id
  · rw [if_pos listed, if_pos listed, ok_bind, insertEvent_next createdAt recordedAt sound upto, ok_bind]
    have row : (⟨manifest.seriesIdentity, idOf (manifest.task createdAt member),
        (((manifest.task createdAt member).fields.get "issue_series").get "member_id").text⟩ : MemberRow) = memberRow manifest member.id := rfl
    have last := insertMember_next createdAt recordedAt sound upto
      (((withMembers tables manifest createdAt recordedAt done).addTask (manifest.task createdAt member)).addEvent
        (creationEvent recordedAt (manifest.task createdAt member))) rfl rfl (by simp [Tables.addTask, Tables.addEvent])
    rw [row, last]
    simp only [withMembers, Tables.addTask, Tables.addEvent, Tables.addMember, List.map_append, List.map_singleton, List.append_assoc]
  · rw [if_neg listed, if_neg listed]
    rfl

end next

/-- The members go in exactly if each comes behind those that it depends on. -/
theorem insertAll_ordered (createdAt recordedAt : String) (sound : Sound tables manifest) (formed : WellFormed word lower manifest) :
    ∀ {rest done : List Member}, manifest.members = done ++ rest →
      ((∃ after, (rest.map (manifest.task createdAt)).foldlM (insertCreated manifest.seriesIdentity recordedAt)
          (withMembers tables manifest createdAt recordedAt done) = .ok after) ↔ Ordered (done.map Member.id) rest) := by
  intro rest
  induction rest with
  | nil => exact fun _ => iff_of_true ⟨_, rfl⟩ trivial
  | cons member rest ih =>
    intro done split
    have next := insertCreated_next createdAt recordedAt sound (upto_split formed split) formed
    rw [List.map_cons, List.foldlM_cons, next, Ordered]
    by_cases listed : ∀ dependency ∈ member.dependencies, dependency ∈ done.map Member.id
    · have grown : manifest.members = (done ++ [member]) ++ rest := by rw [split, List.append_assoc, List.singleton_append]
      have again := ih grown
      rw [List.map_append, List.map_singleton] at again
      rw [if_pos listed, ok_bind, again]
      exact ⟨fun later => ⟨listed, later⟩, And.right⟩
    · rw [if_neg listed]
      refine iff_of_false ?_ fun ordered => listed ordered.1
      rintro ⟨after, done⟩
      cases done

end members

section creation
variable {settings : Settings} {tables : Tables} {receipt : SeriesReceipt} {content createdAt : String}

/-- What rows refer to in a database. -/
structure Consistent (tables : Tables) : Prop where
  filed : Filed tables.tasks
  events : ∀ row ∈ tables.events, row.task ∈ tables.tasks.map idOf
  members : ∀ row ∈ tables.members, ∃ series ∈ tables.series, series.identity = row.identity

theorem Consistent.empty : Consistent ⟨[], [], [], []⟩ where
  filed := ⟨List.nodup_nil, List.forall_mem_nil _⟩
  events := List.forall_mem_nil _
  members := List.forall_mem_nil _

theorem withMembers_nil (tables : Tables) (manifest : IssueSeriesManifest) (createdAt recordedAt : String) :
    withMembers tables manifest createdAt recordedAt [] = tables := by
  rw [withMembers, List.map_nil, List.map_nil, List.map_nil, List.append_nil, List.append_nil, List.append_nil]

theorem stateDigest_planned {tasks : List Task} (accepted : settings.loadIssueSeriesPlan tasks content = .ok receipt) :
    receipt.currentStateDigest = issueSeriesStateDigest tasks := by
  simp only [Settings.loadIssueSeriesPlan, Settings.planIssueSeries, bind_eq_ok, mapError_eq_ok, pure_eq_ok] at accepted
  obtain ⟨_, -, _, -, _, -, _, -, _, -, _, -, _, -, rfl⟩ := accepted
  rfl

end creation

/-- The first member waits for the second. -/
def forwardManifest : IssueSeriesManifest where
  repository := "github.com/acme/tool"
  issueNumber := 8
  issueUrl := "https://github.com/acme/tool/issues/8"
  issueDigest := blankDigest
  members := [⟨"AR-0002", "One", "a", "a", "a", [⟨"AR-0003", "b"⟩]⟩, ⟨"AR-0003", "Two", "a", "a", "a", []⟩,
    ⟨"AR-0004", "All", "a", "a", "a", [⟨"AR-0002", "b"⟩, ⟨"AR-0003", "b"⟩]⟩]
  finalizer := "AR-0004"

theorem forward_planned : Planned sampleSettings forwardManifest := by
  have parsed : parseManifest Text.isAlnum id (manifestPayload forwardManifest) = .ok forwardManifest := by decide +kernel
  exact ⟨parseManifest_wellFormed parsed, sample_normal⟩

theorem forward_small : Privacy.byteLength (String.ofList (projectionText forwardManifest)) ≤ 200000 := by
  rw [Privacy.byteLength, String.toList_ofList]
  decide +kernel

/-- A list that is sorted by its keys does not depend on the order that it had. -/
theorem insertionSort_perm {α κ : Type} [LinearOrder κ] (key : α → κ) {first second : List α} (perm : first.Perm second)
    (distinct : (first.map key).Nodup) :
    first.insertionSort (fun a b => key a ≤ key b) = second.insertionSort (fun a b => key a ≤ key b) := by
  have total : Std.Total fun a b : α => key a ≤ key b := ⟨fun a b => le_total (key a) (key b)⟩
  have trans : IsTrans α fun a b => key a ≤ key b := ⟨fun _ _ _ => le_trans⟩
  have sorted_ : (first.insertionSort fun a b => key a ≤ key b).Perm (second.insertionSort fun a b => key a ≤ key b) :=
    (List.perm_insertionSort _ _).trans (perm.trans (List.perm_insertionSort _ _).symm)
  refine List.Perm.eq_of_pairwise (fun a b here there below above => ?_) (List.pairwise_insertionSort _ _)
    (List.pairwise_insertionSort _ _) sorted_
  have one : a ∈ first := (List.mem_insertionSort _).mp here
  have other : b ∈ first := perm.mem_iff.mpr ((List.mem_insertionSort _).mp there)
  exact List.inj_on_of_nodup_map distinct one other (le_antisymm below above)

section imports
variable {shortest : JsonText.Shortest} {tables : Tables} {manifest : IssueSeriesManifest} {word : Char → Bool} {lower : String → String}

/-- The tables behind the import of some series. -/
def withSeries (tasks : List Task) (done : List IssueSeriesManifest) : Tables where
  tasks := tasks
  events := []
  series := done.map seriesRow
  members := done.flatMap fun manifest => manifest.ids.map (memberRow manifest)

/-- The rows of the members of a series go in when their tasks are there. -/
theorem insertMembers_all (tables : Tables) (manifest : IssueSeriesManifest) {names : List String}
    (series : ∃ row ∈ tables.series, row.identity = manifest.seriesIdentity)
    (known : ∀ name ∈ names, name ∈ tables.tasks.map idOf) (distinct : names.Nodup)
    (fresh : ∀ row ∈ tables.members, row.identity = manifest.seriesIdentity → row.task ∉ names ∧ row.member ∉ names) :
    names.foldlM (fun tables name => insertMember tables ⟨manifest.seriesIdentity, name, name⟩) tables =
      (.ok { tables with members := tables.members ++ names.map (memberRow manifest) } : Except String Tables) := by
  induction names generalizing tables with
  | nil =>
    rw [List.map_nil, List.append_nil]
    rfl
  | cons name names ih =>
    obtain ⟨row, inside, same⟩ := series
    have there : tables.series.any (·.identity == manifest.seriesIdentity) = true := List.any_eq_true.mpr ⟨row, inside, beq_iff_eq.mpr same⟩
    have here : tables.tasks.any (idOf · == name) = true := by
      obtain ⟨task, listed, named⟩ := List.mem_map.mp (known name List.mem_cons_self)
      exact List.any_eq_true.mpr ⟨task, listed, beq_iff_eq.mpr named⟩
    have free : tables.members.any (fun other =>
        other.identity == manifest.seriesIdentity && (other.task == name || other.member == name)) = false := by
      rw [List.any_eq_false]
      intro other listed clash
      rw [Bool.and_eq_true, Bool.or_eq_true, beq_iff_eq, beq_iff_eq, beq_iff_eq] at clash
      obtain ⟨task, member⟩ := fresh other listed clash.1
      rcases clash.2 with same | same
      · exact task (same ▸ List.mem_cons_self)
      · exact member (same ▸ List.mem_cons_self)
    have first : insertMember tables ⟨manifest.seriesIdentity, name, name⟩ = .ok (tables.addMember (memberRow manifest name)) := by
      rw [insertMember]
      dsimp only
      rw [there, here, free]
      rfl
    rw [List.nodup_cons] at distinct
    have later := ih (tables.addMember (memberRow manifest name)) ⟨row, inside, same⟩
      (fun other listed => known other (List.mem_cons_of_mem _ listed)) distinct.2 (fun other listed same => by
        rcases List.mem_append.mp listed with old | last
        · obtain ⟨task, member⟩ := fresh other old same
          exact ⟨fun inside => task (List.mem_cons_of_mem _ inside), fun inside => member (List.mem_cons_of_mem _ inside)⟩
        · rw [List.mem_singleton.mp last]
          exact ⟨distinct.1, distinct.1⟩)
    rw [List.foldlM_cons, first, ok_bind, later, Tables.addMember, List.append_assoc, List.singleton_append, List.map_cons]

theorem importSeries_next {tasks : List Task} {done : List IssueSeriesManifest} (formed : WellFormed word lower manifest)
    (new : ∀ other ∈ done, other.seriesIdentity ≠ manifest.seriesIdentity) (known : ∀ name ∈ manifest.ids, name ∈ tasks.map idOf) :
    importSeries shortest (withSeries tasks done) ⟨blankDigest, manifest⟩ = .ok (withSeries tasks (done ++ [manifest])) := by
  have free : (withSeries tasks done).series.any (·.identity == manifest.seriesIdentity) = false := by
    rw [List.any_eq_false]
    intro row inside same
    obtain ⟨other, listed, rfl⟩ := List.mem_map.mp inside
    exact new other listed (beq_iff_eq.mp same)
  have members := insertMembers_all ((withSeries tasks done).addSeries (seriesRow manifest)) manifest
    ⟨_, List.mem_append_right _ (List.mem_singleton_self _), rfl⟩ known formed.ordered.distinct (fun row inside same => by
      obtain ⟨other, listed, made⟩ := List.mem_flatMap.mp inside
      obtain ⟨name, -, rfl⟩ := List.mem_map.mp made
      exact absurd same (new other listed))
  rw [importSeries, insertSeries_formed formed, free]
  dsimp only
  rw [if_neg Bool.false_ne_true, ok_bind, members]
  simp only [withSeries, Tables.addSeries, List.map_append, List.map_singleton, List.flatMap_append, List.flatMap_singleton]

theorem importAll_manifests (shortest : JsonText.Shortest) (tasks : List Task) : ∀ (rest done : List IssueSeriesManifest),
    (∀ manifest ∈ rest, WellFormed word lower manifest) → (∀ manifest ∈ rest, ∀ name ∈ manifest.ids, name ∈ tasks.map idOf) →
      ((done ++ rest).map IssueSeriesManifest.seriesIdentity).Nodup →
        (rest.map fun manifest => (⟨blankDigest, manifest⟩ : SeriesReceipt)).foldlM (importSeries shortest) (withSeries tasks done) =
          .ok (withSeries tasks (done ++ rest)) := by
  intro rest
  induction rest with
  | nil =>
    intro done _ _ _
    rw [List.append_nil]
    rfl
  | cons manifest rest ih =>
    intro done formed known distinct
    rw [List.forall_mem_cons] at formed known
    have new : ∀ other ∈ done, other.seriesIdentity ≠ manifest.seriesIdentity := by
      intro other listed same
      rw [List.map_append, List.map_cons] at distinct
      exact (List.nodup_append.mp distinct).2.2 _ (List.mem_map_of_mem listed) _ List.mem_cons_self same
    have moved : done ++ manifest :: rest = (done ++ [manifest]) ++ rest := by rw [List.append_assoc, List.singleton_append]
    rw [List.map_cons, List.foldlM_cons, importSeries_next formed.1 new known.1, ok_bind, moved]
    rw [moved] at distinct
    exact ih _ formed.2 known.2 distinct

def recordOf (manifest : IssueSeriesManifest) : SeriesRecord :=
  ⟨JsonText.sortKeys (manifestPayload manifest), manifest.digest, manifest.seriesIdentity⟩

/-- What is loaded of the rows of some series. -/
theorem loadIssueSeries_rows {manifests : List IssueSeriesManifest} (rows : tables.series = manifests.map seriesRow) :
    loadIssueSeries shortest tables =
      .ok ((manifests.insertionSort fun a b => toLex a.seriesIdentity ≤ toLex b.seriesIdentity).map recordOf) := by
  have sorted_ : ((manifests.map seriesRow).insertionSort fun a b => toLex a.identity ≤ toLex b.identity) =
      (manifests.insertionSort fun a b => toLex a.seriesIdentity ≤ toLex b.seriesIdentity).map seriesRow :=
    (List.map_insertionSort _ _ seriesRow manifests fun _ _ _ _ => Iff.rfl).symm
  rw [loadIssueSeries, rows, sorted_, List.mapM_map]
  refine mapM_ok fun manifest _ => ?_
  have read : JsonText.loads shortest (seriesRow manifest).manifest = some (JsonText.sortKeys (manifestPayload manifest)) :=
    loads_manifestRow shortest manifest
  simp only [Function.comp_apply, bind_eq_ok, orRaise_eq_ok, raiseIf_eq_ok, pure_eq_ok]
  exact ⟨_, read, (), rfl, rfl⟩

end imports

end Coordinator.IssueSeries
