import Coordinator.SeriesTasks
import Coordinator.Validity

/-! How an issue series is planned: a manifest against the tasks that stand, the receipt of the plan, and what the checks
of the task set say about its tasks before anything is written. -/

namespace Coordinator.IssueSeries
open Kit TaskGraph TaskValidation

def removePrefix (lead : String) (cs : List Char) : List Char := (Text.stripPrefix? lead.toList cs).getD cs

def IssueSeriesManifest.ids (manifest : IssueSeriesManifest) : List String := manifest.members.map Member.id

def IssueSeriesManifest.seriesIdentity (manifest : IssueSeriesManifest) : String × Int := (manifest.repository, manifest.issueNumber)

/-- The digest of the payload in its canonical form. -/
def IssueSeriesManifest.digest (manifest : IssueSeriesManifest) : String :=
  "sha256:" ++ Sha256.hexdigest (JsonText.dumps JsonText.compact (manifestPayload manifest))

/-- A plan: a manifest and the state that it was planned against. -/
structure SeriesReceipt where
  currentStateDigest : String
  manifest : IssueSeriesManifest

/-- The file of a series, under the root of the state repository. -/
def manifestPath (identity : String × Int) : String :=
  "issue-series/" ++ (String.ofList ((Sha256.hexdigest (identity.1 ++ "#" ++ toString identity.2).toList).toList.take 24) ++ ".json")

def IssueSeriesManifest.path (manifest : IssueSeriesManifest) : String := manifestPath manifest.seriesIdentity

def IssueSeriesManifest.tasks (manifest : IssueSeriesManifest) (createdAt : String) : List Task :=
  seriesTasks manifest manifest.path manifest.digest createdAt

/-- What a plan is bound to of a task. -/
def snapshotEntry (task : Task) : Json := .obj [("depends_on", dependenciesOf task.fields), ("id", task.fields.get "id"),
  ("parent_task_ref", parentOf task.fields), ("status", task.fields.get "status"),
  ("task_revision", task.fields.get "task_revision")]

def issueSeriesStateDigest (tasks : List Task) : String :=
  "sha256:" ++ Sha256.hexdigest (JsonText.dumps JsonText.compact
    (.arr ((tasks.insertionSort fun a b => idOf a ≤ idOf b).map snapshotEntry)))

def blankDigest : String := "sha256:" ++ String.ofList (List.replicate 64 '0')

structure Settings where
  word : Char → Bool
  lower : String → String
  shortest : JsonText.Shortest
  files : Files
  productRepository : String

namespace Settings
variable (settings : Settings)

def normalizedRepository (slug : String) : Except String String := do
  let value := removePrefix "github.com/" (removePrefix "https://" (settings.lower (Text.strip slug)).toList)
  raiseIf (!isSlug value) "expected product slug must be a GitHub owner/name"
  pure ("github.com/" ++ String.ofList value)

/-- The identity that a value names, in either of two forms. -/
def identityOf (value : Json) : Option (String × Int) :=
  let issue := value.get "issue"
  let number := if issue.isObj && issue.has "number" then issue.get "number" else value.get "issue_number"
  if !value.isObj || !(value.get "repository").isStr then none
  else
    match number.exactInt?, settings.normalizedRepository (value.get "repository").text with
    | some number, .ok repository => some (repository, number)
    | _, _ => none

def planIssueSeries (taskIds : List String) (identities : List Json) (stateDigest : String) (document : Json) :
    Except String SeriesReceipt := do
  let manifest ← parseManifest settings.word settings.lower document
  let expected ← settings.normalizedRepository settings.productRepository
  raiseIf (manifest.repository != expected) "manifest repository does not match expected product slug"
  let collisions := sortedSet (manifest.ids.filter taskIds.contains)
  raiseIf (!collisions.isEmpty) ("manifest AR identifiers already exist: " ++ Text.joined ", " collisions)
  raiseIf (identities.any fun value => settings.identityOf value == some manifest.seriesIdentity)
    "manifest issue identity already has a series"
  raiseIf (!Text.isDigest stateDigest) "current state digest must be a lowercase sha256 digest"
  pure ⟨stateDigest, manifest⟩

/-- A manifest is a bounded file of one document. -/
def loadManifest (content : String) : Except String Json := do
  raiseIf (200000 < Privacy.byteLength content) "issue-series manifest must be a bounded regular file"
  orRaise (JsonText.loads settings.shortest (readBack content).toList) "invalid issue-series manifest: manifest is not valid JSON"

def loadIssueSeriesPlan (tasks : List Task) (content : String) : Except String SeriesReceipt := do
  let document ← settings.loadManifest content
  (settings.planIssueSeries (tasks.map idOf) (tasks.map (·.fields.get "issue_series")) (issueSeriesStateDigest tasks) document).mapError
    ("invalid issue-series manifest: " ++ ·)

def preflightErrors (tasks created : List Task) : List String :=
  created.flatMap (fun task => basicTaskErrors settings.files task.path task.fields true) ++ mutationGlobalErrors (tasks ++ created)

end Settings

/-! A manifest that was planned is read from its file again. -/

/-- What a plan says of its manifest. -/
structure Planned (settings : Settings) (manifest : IssueSeriesManifest) : Prop where
  formed : WellFormed settings.word settings.lower manifest
  repository : settings.normalizedRepository settings.productRepository = .ok manifest.repository

section planning
variable {settings : Settings} {tasks : List Task} {receipt : SeriesReceipt} {manifest : IssueSeriesManifest}

theorem planIssueSeries_planned {taskIds : List String} {identities : List Json} {stateDigest : String} {document : Json}
    (accepted : settings.planIssueSeries taskIds identities stateDigest document = .ok receipt) :
    Planned settings receipt.manifest ∧ ∀ name ∈ taskIds, name ∉ receipt.manifest.ids := by
  simp only [Settings.planIssueSeries, bind_eq_ok, raiseIf_eq_ok, pure_eq_ok, bne_eq_false_iff_eq, Bool.not_eq_false',
    List.isEmpty_iff, sortedSet_eq_nil, List.filter_eq_nil_iff] at accepted
  obtain ⟨manifest, parsed, expected, normal, _, same, _, fresh, _, -, _, -, rfl⟩ := accepted
  refine ⟨⟨parseManifest_wellFormed parsed, ?_⟩, fun name known inside => fresh name inside (List.contains_iff_mem.mpr known)⟩
  exact same.symm ▸ normal

theorem loadIssueSeriesPlan_planned {content : String} (accepted : settings.loadIssueSeriesPlan tasks content = .ok receipt) :
    Planned settings receipt.manifest ∧ ∀ name ∈ tasks.map idOf, name ∉ receipt.manifest.ids := by
  simp only [Settings.loadIssueSeriesPlan, bind_eq_ok, mapError_eq_ok] at accepted
  obtain ⟨document, -, accepted⟩ := accepted
  exact planIssueSeries_planned accepted

theorem projection_plain (manifest : IssueSeriesManifest) : readBack (String.ofList (projectionText manifest)) =
    String.ofList (projectionText manifest) := by
  have hanging := JsonText.hanging_pretty (JsonText.sortKeys (manifestPayload manifest)) 0
  have plain : '\r' ∉ projectionText manifest := by
    rw [projectionText, List.mem_append, not_or]
    refine ⟨fun return_ => ?_, by decide⟩
    obtain printed | feed := hanging.plain '\r' return_
    · cases printed
    · cases feed
  rw [readBack, String.toList_ofList, uniformLines_of_no_return plain]

/-- The file of a series is read as its manifest. -/
theorem loadManifest_projection (small : Privacy.byteLength (String.ofList (projectionText manifest)) ≤ 200000) :
    settings.loadManifest (String.ofList (projectionText manifest)) = .ok (JsonText.sortKeys (manifestPayload manifest)) := by
  rw [Settings.loadManifest, projection_plain, String.toList_ofList, loads_projectionText]
  simp only [bind_eq_ok, raiseIf_eq_ok, decide_eq_false_iff_not, Nat.not_lt, orRaise_eq_ok]
  exact ⟨(), small, trivial⟩

theorem planIssueSeries_stored (planned : Planned settings manifest) :
    settings.planIssueSeries [] [] blankDigest (JsonText.sortKeys (manifestPayload manifest)) = .ok ⟨blankDigest, manifest⟩ := by
  have parsed := parseManifest_rendered planned.formed (manifestPayload_sorted manifest)
  simp only [Settings.planIssueSeries, bind_eq_ok, raiseIf_eq_ok, pure_eq_ok, bne_eq_false_iff_eq, Bool.not_eq_false']
  refine ⟨_, parsed, _, planned.repository, (), rfl, (), ?_, (), rfl, (), ?_, rfl⟩
  · have none_ : manifest.ids.filter (List.contains []) = [] := List.filter_eq_nil_iff.mpr fun _ _ => by simp
    rw [none_]
    rfl
  · decide

end planning

/-! What stands against the tasks of a plan before they are written. -/

/-- A short title that the checks of a task let through. -/
structure Titled (files : Files) (title : String) : Prop where
  short : title.length ≤ 120
  printed : ∀ c ∈ title.toList, 32 ≤ c.toNat ∧ c.toNat ≠ 127
  public_ : files.privateText title = []

theorem isTaskId_of_isTask {name : String} (named : ExecutionEnvelope.isTask name = true) : isTaskId name = true := by
  have decimal {c : Char} (digit : Text.isDigit c = true) : Text.isDecimal c = true := by
    rw [Text.isDigit, Bool.and_eq_true, decide_eq_true_eq, decide_eq_true_eq] at digit
    have low : 48 ≤ c.toNat := UInt32.le_iff_toNat_le.mp digit.1
    have high : c.toNat ≤ 57 := UInt32.le_iff_toNat_le.mp digit.2
    rw [Text.isDecimal, List.any_eq_true]
    refine ⟨48, by decide, ?_⟩
    rw [Bool.and_eq_true, decide_eq_true_eq, decide_eq_true_eq]
    omega
  rw [ExecutionEnvelope.isTask] at named
  rw [isTaskId]
  cases stripped : Text.stripPrefix? "AR-".toList name.toList with
  | none =>
    rw [stripped] at named
    cases named
  | some rest =>
    rw [stripped] at named
    dsimp only at named ⊢
    rw [Text.exactly, Bool.and_eq_true, List.all_eq_true] at named ⊢
    exact ⟨named.1, fun c member => decimal (named.2 c member)⟩

theorem Plain.visible {word : Char → Bool} {s : String} (plain : Plain word s) : Text.isBlank s = false := by
  by_contra blank
  rw [Bool.not_eq_false, Text.isBlank, Text.characters_eq, List.all_eq_true] at blank
  have nothing : s.toList.dropWhile Text.isSpace = [] := List.dropWhile_eq_nil_iff.mpr blank
  have stripped := plain.stripped
  rw [Text.strip, nothing] at stripped
  exact plain.some_ stripped.symm

theorem Plain.text {word : Char → Bool} {s : String} (plain : Plain word s) : RetryCircuit.nonemptyStr (.str s) = true := by
  rw [RetryCircuit.nonemptyStr, Bool.and_eq_true, bne_iff_ne]
  exact ⟨rfl, plain.some_⟩

theorem shortTitleErrors_eq_nil {files : Files} {word : Char → Bool} {taskId title : String} (plain : Plain word title)
    (words : (Text.words title).length ≤ 4) : shortTitleErrors files taskId (.str title) = [] ↔ Titled files title := by
  have shape : (!(Json.str title).isStr || Text.isBlank (Json.str title).text ||
      (Json.str title).text.toList.any (fun c => c.toNat < 32 || c.toNat == 127)) =
      title.toList.any fun c => c.toNat < 32 || c.toNat == 127 := by
    rw [show (Json.str title).text = title from rfl, plain.visible]
    rfl
  rw [shortTitleErrors, if_neg (by simp [Json.isNull]), shape, show (Json.str title).text = title from rfl]
  by_cases printed : title.toList.any (fun c => c.toNat < 32 || c.toNat == 127) = true
  · rw [if_pos printed]
    refine iff_of_false (List.cons_ne_nil _ _) fun titled => ?_
    obtain ⟨c, member, control⟩ := List.any_eq_true.mp printed
    have good := titled.printed c member
    simp only [Bool.or_eq_true, decide_eq_true_eq, beq_iff_eq] at control
    omega
  · rw [if_neg printed]
    by_cases long : 120 < title.length
    · rw [if_pos long]
      exact iff_of_false (List.cons_ne_nil _ _) fun titled => absurd titled.short (Nat.not_le.mpr long)
    · rw [if_neg long, if_neg (Nat.not_lt.mpr words), errorIf_eq_nil, Bool.not_eq_false', List.isEmpty_iff]
      refine ⟨fun clean => ⟨Nat.not_lt.mp long, fun c member => ?_, clean⟩, Titled.public_⟩
      rw [List.any_eq_true, not_exists] at printed
      have good := printed c
      simp only [member, true_and, Bool.or_eq_true, decide_eq_true_eq, beq_iff_eq, not_or, Nat.not_lt] at good
      exact good

/-- A task of a series passes every check but that of its short title. -/
theorem basicTaskErrors_series {files : Files} {word : Char → Bool} {manifest : IssueSeriesManifest} {reference digest createdAt : String}
    {member : Member} (formed : FormedMember word member) (dated : (Datetime.read createdAt).isSome = true) :
    basicTaskErrors files (member.id ++ ".md") (seriesFields manifest reference digest createdAt member) true = [] ↔
      Titled files member.shortTitle := by
  have some_ : createdAt ≠ "" := by
    rintro rfl
    cases dated
  have stamped : RetryCircuit.nonemptyStr (.str createdAt) = true := by
    rw [RetryCircuit.nonemptyStr, Bool.and_eq_true, bne_iff_ne]
    exact ⟨rfl, some_⟩
  have named : ((Json.str member.id).isStr && isTaskId (Json.str member.id).text) = true := isTaskId_of_isTask formed.arId
  have title : shortTitleErrors files member.id (.str member.shortTitle) = [] ↔ _ :=
    shortTitleErrors_eq_nil formed.shortTitle formed.words
  rw [basicTaskErrors_eq_nil, ← title]
  constructor
  · intro valid
    exact valid.passed (shortTitleCheck files) (by simp [checks])
  · intro titled
    have keys : (seriesFields manifest reference digest createdAt member).keys = ["schema_version", "id", "title", "short_title",
        "status", "priority", "summary", "next_action", "task_revision", "updated_at", "owner", "claim_expires", "checkpoint_commit",
        "depends_on", "parent_task_ref", "children", "issue_series"] := rfl
    refine ⟨?_, by rw [keys]; decide, ?_⟩
    · simp only [req, List.forall_mem_cons]
      exact ⟨rfl, rfl, rfl, rfl, rfl, rfl, rfl, rfl, rfl, List.forall_mem_nil _⟩
    simp only [checks, List.forall_mem_cons]
    exact ⟨named, rfl, rfl, rfl, formed.shortTitle.text, formed.scope.text, rfl, stamped, titled, .inl rfl, rfl, .inl rfl, .inl rfl,
      .inl rfl, rfl, rfl, rfl, rfl, rfl, rfl, rfl, dated, .inl rfl, .inl rfl, rfl, rfl, List.forall_mem_nil _⟩

theorem loadIssueSeriesPlan_projection {settings : Settings} {manifest : IssueSeriesManifest} (planned : Planned settings manifest)
    (small : Privacy.byteLength (String.ofList (projectionText manifest)) ≤ 200000) :
    settings.loadIssueSeriesPlan [] (String.ofList (projectionText manifest)) = .ok ⟨issueSeriesStateDigest [], manifest⟩ := by
  have parsed := parseManifest_rendered planned.formed (manifestPayload_sorted manifest)
  simp only [Settings.loadIssueSeriesPlan, Settings.planIssueSeries, bind_eq_ok, mapError_eq_ok, raiseIf_eq_ok, pure_eq_ok,
    bne_eq_false_iff_eq, Bool.not_eq_false']
  refine ⟨_, loadManifest_projection small, _, parsed, _, planned.repository, (), rfl, (), ?_, (), rfl, (), ?_, rfl⟩
  · have none_ : manifest.ids.filter (List.contains []) = [] := List.filter_eq_nil_iff.mpr fun _ _ => by simp
    rw [List.map_nil, none_]
    rfl
  · exact Sha256.isDigest_hexdigest _

def sampleSettings : Settings where
  word := Text.isAlnum
  lower := id
  shortest mantissa exponent := (mantissa, exponent)
  files := sampleFiles
  productRepository := "acme/tool"

def sampleManifest : IssueSeriesManifest where
  repository := "github.com/acme/tool"
  issueNumber := 7
  issueUrl := "https://github.com/acme/tool/issues/7"
  issueDigest := blankDigest
  members := [⟨"AR-0002", "Ship it", "Ship the tool", "It ships", "core", []⟩]
  finalizer := "AR-0002"

theorem sample_normal : sampleSettings.normalizedRepository "acme/tool" = .ok "github.com/acme/tool" := by decide +kernel

theorem sample_planned : Planned sampleSettings sampleManifest := by
  have parsed : parseManifest Text.isAlnum id (manifestPayload sampleManifest) = .ok sampleManifest := by decide +kernel
  exact ⟨parseManifest_wellFormed parsed, sample_normal⟩

theorem sample_small : Privacy.byteLength (String.ofList (projectionText sampleManifest)) ≤ 200000 := by
  rw [Privacy.byteLength, String.toList_ofList]
  decide +kernel

end Coordinator.IssueSeries
