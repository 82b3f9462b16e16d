import Coordinator.DriftCycles

/-! The explanatory capacity of a captured delta. One explanation names at most sixty-four paths and
a cycle holds at most thirty-two records, while a delta may name far more paths: a delta can be
explained exactly when its paths fit into the records that are left. -/

namespace Coordinator.ChangeDrift
open Kit Dict Authority

/-- Paths that one explanation may name. -/
def maxPaths : Nat := 64

/-- The material paths of the latest delta that no explanation names, each once. -/
def outstanding (history : List Json) : List String :=
  ((unresolved history).map (fun entry => (entry.get "path").text)).dedup

/-- A drift action, committed when the metadata stays valid. -/
def commitDrift (files : Files) (world : Moment) (task : Meta) (request : Request) : Option Meta :=
  match apply files world task request with
  | .ok (after, _) => if (metadataError (advanced after world.now)).isNone then some (advanced after world.now) else none
  | .error _ => none

/-- Explanations of the latest delta, one after the other. -/
def explainAll (files : Files) (world : Moment) : Meta → List Request → Option Meta
  | task, [] => some task
  | task, request :: rest =>
      (commitDrift files world task { request with action := "explain" }).bind
        (fun next => explainAll files world next rest)

/-- Some accepted explanations lead to a task whose completion is admitted. -/
def Resolvable (files : Files) (world : Moment) (task : Meta) : Prop :=
  ∃ requests last, explainAll files world task requests = some last ∧ doneAdmissionError last = none

section histories

variable {history : List Json} {current made : Json}

theorem latest_snoc {kind : String} (other : kindOf made ≠ kind) :
    latest (history ++ [made]) kind = latest history kind := by
  simp [latest, other]

/-- An explanation takes the entries it names off the unresolved ones. -/
theorem unresolved_snoc (captured : latest history "delta" = some current) (kind : kindOf made = "explain") :
    unresolved (history ++ [made]) = (unresolved history).filter (fun entry =>
      !((payloadOf made).get "delta_digest" == current.get "digest" &&
        (pathsOf made).any (· == entry.get "path"))) := by
  have same : latest (history ++ [made]) "delta" = some current := (latest_snoc (by simp [kind])).trans captured
  simp only [unresolved, same, captured, List.filter_append, List.flatMap_append, List.any_append, List.filter_filter]
  refine List.filter_congr fun entry _ => ?_
  cases linked : (payloadOf made).get "delta_digest" == current.get "digest" with
  | false => simp [kind, linked]
  | true => simp [kind, linked, pathsOf, Bool.and_comm, Bool.and_assoc, Bool.and_left_comm]

theorem beq_text {a b : Json} (same : (a == b) = true) : a.text = b.text := by
  change Json.eq a b = true at same
  cases a <;> cases b <;> simp_all [Json.eq, Json.text]

/-- One explanation clears at most the paths that it names. -/
theorem outstanding_snoc (captured : latest history "delta" = some current) (kind : kindOf made = "explain") :
    (outstanding history).length ≤ (outstanding (history ++ [made])).length + (pathsOf made).length := by
  have covered : outstanding history ⊆ outstanding (history ++ [made]) ++ (pathsOf made).map Json.text := by
    intro path member
    obtain ⟨entry, open_, rfl⟩ := List.mem_map.mp (List.mem_dedup.mp member)
    rw [List.mem_append]
    by_cases named : (pathsOf made).any (· == entry.get "path") = true
    · obtain ⟨value, listed, same⟩ := List.any_eq_true.mp named
      exact .inr (List.mem_map.mpr ⟨value, listed, beq_text same⟩)
    · refine .inl (List.mem_dedup.mpr (List.mem_map.mpr ⟨entry, ?_, rfl⟩))
      rw [unresolved_snoc captured kind, List.mem_filter]
      exact ⟨open_, by simp [Bool.not_eq_true _ ▸ named]⟩
  have short := (List.subperm_of_subset (List.nodup_dedup _) covered).length_le
  rw [List.length_append, List.length_map] at short
  exact short

end histories

/-- The payload of an explanation. -/
def explanationOf (current : Json) (request : Request) : Json :=
  .obj [("delta_digest", current.get "digest"), ("paths", .arr ((request.path.dedup.insertionSort (· ≤ ·)).map .str)),
    ("reason", .str request.reason), ("generated", .bool request.generated)]

/-- What an explanation requires, and the record it appends. -/
structure Explaining (history : List Json) (revision : Int) (timestamp : String) (request : Request)
    (current made : Json) : Prop where
  captured : latest history "delta" = some current
  named : request.path ≠ []
  bounded : request.path.length ≤ maxPaths
  safe : ∀ path ∈ request.path, safePath (.str path) = true
  reason : Text.isBlank request.reason = false
  short : request.reason.length ≤ 1000
  line : Text.contains '\n' request.reason = false
  made : record "explain" request.task revision timestamp (explanationOf current request) (previousDigest history) = .ok made

theorem nextRecord_explain {world : Moment} {key timestamp : String} {history previous : List Json} {revision : Int}
    {request : Request} {made : Json} (action : request.action = "explain") :
    nextRecord world key history revision timestamp request = .ok (made, previous) ↔
      previous = history ∧ ∃ current, Explaining history revision timestamp request current made := by
  simp only [nextRecord, action, bind_eq_ok, exists_unit, orRaise_eq_ok, raiseIf_eq_ok, pure_eq_ok, Prod.mk.injEq,
    Bool.or_eq_false_iff, decide_eq_false_iff_not, not_lt, List.isEmpty_eq_false_iff, Bool.not_eq_false',
    List.all_eq_true]
  constructor
  · rintro ⟨current, captured, ⟨⟨named, bounded⟩, safe⟩, ⟨⟨reason, short⟩, line⟩, other, built, rfl, rfl⟩
    exact ⟨rfl, current, captured, named, bounded, safe, reason, short, line, built⟩
  · rintro ⟨rfl, current, done⟩
    exact ⟨current, done.captured, ⟨⟨done.named, done.bounded⟩, done.safe⟩, ⟨⟨done.reason, done.short⟩, done.line⟩,
      made, done.made, rfl, rfl⟩

section commits

variable {files : Files} {world : Moment} {task next last : Meta} {request : Request} {current made : Json}
  {revision : Int} {timestamp : String} {history : List Json}

theorem commitDrift_eq_some : commitDrift files world task request = some next ↔
    ∃ after note, apply files world task request = .ok (after, note) ∧
      metadataError (advanced after world.now) = none ∧ next = advanced after world.now := by
  unfold commitDrift
  constructor
  · intro committed
    split at committed
    · next after note applied =>
      split at committed
      · next clean => exact ⟨after, note, applied, Option.isNone_iff_eq_none.mp clean, (Option.some.inj committed).symm⟩
      · cases committed
    · cases committed
  · rintro ⟨after, note, applied, clean, rfl⟩
    rw [applied]
    simp only [clean, Option.isNone_none, ↓reduceIte]

theorem Explaining.kind (done : Explaining history revision timestamp request current made) : kindOf made = "explain" :=
  kindOf_record done.made

theorem payloadOf_record {kind name recordedAt previous : String} {payload : Json}
    (built : record kind name revision recordedAt payload previous = .ok made) : payloadOf made = payload := by
  simp only [record, raiseIf_bind_ok, pure_eq_ok] at built
  obtain ⟨-, -, rfl⟩ := built
  rfl

theorem Explaining.paths (done : Explaining history revision timestamp request current made) :
    pathsOf made = (request.path.dedup.insertionSort (· ≤ ·)).map .str := by
  rw [pathsOf, payloadOf_record done.made]
  rfl

theorem Explaining.paths_length (done : Explaining history revision timestamp request current made) :
    (pathsOf made).length ≤ maxPaths := by
  rw [done.paths, List.length_map, List.length_insertionSort]
  exact (List.dedup_sublist _).length_le.trans done.bounded

/-- A committed explanation extends the history by its record. -/
theorem commitDrift_explain (committed : commitDrift files world task { request with action := "explain" } = some next) :
    ∃ revision current made, Explaining (historyOf task) revision world.now { request with action := "explain" } current made ∧
      historyOf next = historyOf task ++ [made] := by
  obtain ⟨after, note, applied, -, rfl⟩ := commitDrift_eq_some.mp committed
  obtain ⟨settings, history, previous, made, done⟩ := apply_eq_ok applied
  obtain ⟨rfl, -, -⟩ := records_eq_ok done.read
  obtain ⟨rfl, current, explaining⟩ := (nextRecord_explain rfl).mp done.next
  refine ⟨_, current, made, explaining, ?_⟩
  rw [historyOf, advanced_get (by decide), done.written, get_set, if_pos rfl]
  rfl

/-- A run of explanations clears at most sixty-four paths for each record it adds. -/
theorem explainAll_clears {requests : List Request} (explained : explainAll files world task requests = some last) :
    ∃ added, (historyOf last).length = (historyOf task).length + added ∧
      (outstanding (historyOf task)).length ≤ (outstanding (historyOf last)).length + maxPaths * added ∧
      ∃ more, historyOf last = historyOf task ++ more := by
  induction requests generalizing task with
  | nil =>
    obtain rfl := Option.some.inj explained
    exact ⟨0, rfl, by simp, [], by simp⟩
  | cons request rest ih =>
    obtain ⟨next, committed, explained⟩ := Option.bind_eq_some_iff.mp explained
    obtain ⟨revision, current, made, done, extended⟩ := commitDrift_explain committed
    obtain ⟨added, grown, cleared, more, later⟩ := ih explained
    have step := outstanding_snoc done.captured done.kind
    have few := done.paths_length
    rw [extended] at grown cleared later
    refine ⟨added + 1, ?_, ?_, made :: more, by simp [later]⟩
    · simp only [List.length_append, List.length_singleton] at grown
      omega
    · simp only [maxPaths] at few cleared ⊢
      omega

theorem doneAdmissionError_eq_none (admitted : doneAdmissionError task = none) :
    records task = .ok (historyOf task) ∧ completionError (historyOf task) = none := by
  unfold doneAdmissionError at admitted
  split at admitted
  · cases admitted
  · next history read =>
    obtain ⟨rfl, -, -⟩ := records_eq_ok read
    split at admitted
    · split at admitted <;> cases admitted
    · next clean => exact ⟨read, clean⟩

/-- Only a delta whose paths fit into the records that are left can be explained. -/
theorem fits_of_resolvable (nonempty : historyOf task ≠ []) (resolvable : Resolvable files world task) :
    (outstanding (historyOf task)).length ≤ maxPaths * (maxRecords - (historyOf task).length) := by
  obtain ⟨requests, last, explained, admitted⟩ := resolvable
  obtain ⟨added, grown, cleared, more, extended⟩ := explainAll_clears explained
  obtain ⟨read, complete⟩ := doneAdmissionError_eq_none admitted
  have bounded := (records_eq_ok read).2.1
  have full : historyOf last ≠ [] := by
    rw [extended]
    exact List.append_ne_nil_of_left_ne_nil nonempty more
  have clean := ((completionError_getLast (List.getLast?_eq_some_getLast full)).mp complete).2
  have none : outstanding (historyOf last) = [] := by rw [outstanding, clean]; rfl
  rw [none, List.length_nil, Nat.zero_add] at cleared
  refine cleared.trans (Nat.mul_le_mul_left _ ?_)
  omega

end commits

/-! Explanations that are accepted. -/

section records

variable {taskId : Json} {history rest : List Json} {current record next made : Json} {cycle last : Cycle}
  {request : Request} {revision : Int} {timestamp : String}

/-- The history is checked, whatever follows it, and leaves this cycle active. -/
def Standing (taskId : Json) (history : List Json) (cycle : Cycle) : Prop :=
  ∀ more, checkHistory taskId [] ⟨none, none⟩ (history ++ more) = checkHistory taskId history cycle more

theorem Standing.snoc (standing : Standing taskId history cycle) (follows : Follows taskId history cycle record last) :
    Standing taskId (history ++ [record]) last := by
  intro more
  rw [List.append_assoc, List.singleton_append, standing, follows.checkHistory]

theorem Standing.checked (standing : Standing taskId history cycle) :
    checkHistory taskId [] ⟨none, none⟩ history = .ok () := by
  have here := standing []
  rwa [List.append_nil] at here

theorem Standing.go (standing : Standing taskId history cycle) (checked : checkHistory taskId history cycle rest = .ok ()) :
    ∃ last, Standing taskId (history ++ rest) last := by
  induction rest generalizing history cycle with
  | nil => exact ⟨cycle, by rwa [List.append_nil]⟩
  | cons record rest ih =>
    obtain ⟨next, follows, checked⟩ := checkHistory_cons checked
    obtain ⟨last, onward⟩ := ih (standing.snoc follows) checked
    exact ⟨last, by rwa [List.append_assoc, List.singleton_append] at onward⟩

theorem standing_of_checked (checked : checkHistory taskId [] ⟨none, none⟩ history = .ok ()) :
    ∃ cycle, Standing taskId history cycle :=
  @Standing.go taskId [] history ⟨none, none⟩ (fun _ => rfl) checked

theorem isDigest_digest (value : Json) : Text.isDigest (digest value) = true := Sha256.isDigest_hexdigest _

theorem Identified.digestText (known : Identified record) :
    record.get "digest" = .str (record.get "digest").text ∧ Text.isDigest (record.get "digest").text = true := by
  rw [known.digest]
  exact ⟨rfl, isDigest_digest _⟩

theorem identified_of_record {kind name previous : String} {payload : Json}
    (built : ChangeDrift.record kind name revision timestamp payload previous = .ok made) (shape : payload.isObj = true) :
    Identified made := by
  simp only [ChangeDrift.record, bind_eq_ok, exists_unit, raiseIf_eq_ok, pure_eq_ok, Bool.or_eq_false_iff,
    Bool.and_eq_false_iff, Bool.not_eq_false', decide_eq_false_iff_not, not_lt, bne_eq_false_iff_eq,
    beq_eq_false_iff_ne] at built
  obtain ⟨⟨⟨⟨listed, task⟩, positive⟩, stamped⟩, linked, rfl⟩ := built
  refine ⟨?_, rfl, ?_, task, ?_, ?_, rfl, linked, rfl, shape⟩
  · simp [Json.hasExactly, recordFields, Json.isObj, Json.has, Json.fields, Dict.has, Dict.find, Dict.keys]
  · change (true && kinds.contains kind) = true
    simpa using listed
  · change decide (1 ≤ revision) = true
    exact decide_eq_true positive
  · change (true && timestamp != "") = true
    simpa using stamped

/-- The check of a payload by the kind of its record. -/
def contentCheck (kind : String) (payload : Json) : Outcome Unit :=
  match kind with
  | "baseline" => validateObservation payload true false
  | "delta" => do
      raiseIf (!payload.hasExactly ["baseline_digest", "head", "entries"] ||
          !Text.isDigest (payload.get "baseline_digest").toText) (.error "invalid change-drift delta payload")
      validateObservation payload false true
  | "explain" => raiseIf (!explanationValid payload) (.error "invalid change-drift explanation payload")
  | _ =>
      raiseIf (!payload.hasExactly ["baseline_digest", "scope"] ||
        !Text.isDigest (payload.get "baseline_digest").toText || !scopeValid (payload.get "scope"))
        (.error "invalid change-drift re-scope payload")

/-- What is left to check of a record with a valid header. -/
theorem validate_of_identified (known : Identified record) :
    validate record = contentCheck (kindOf record) (payloadOf record) := by
  have schema : (record.get "schema_version" != .int 2) = false := by rw [bne, known.schema]; rfl
  have digest : (record.get "digest" != .str (digest (identityOf record))) = false := by
    rw [bne, (Json.beq_str _ _).mpr known.digest]
    rfl
  have linked : ((record.get "previous_digest").text != "" && !Text.isDigest (record.get "previous_digest").text) =
      false := by
    rw [Bool.and_eq_false_iff, bne_eq_false_iff_eq, Bool.not_eq_false']
    exact known.linked
  unfold validate
  simp only [known.fields, schema, known.kind, known.task, known.revision, known.recordedAt, known.previous, linked,
    digest, known.payload, Bool.not_true, Bool.or_false, raiseIf_false]
  rfl

/-- The payload of a guarded explanation of a valid delta is valid. -/
theorem Explaining.valid (done : Explaining history revision timestamp request current made)
    (delta : validate current = .ok ()) : validate made = .ok () := by
  have payload : payloadOf made = explanationOf current request := payloadOf_record done.made
  rw [validate_of_identified (identified_of_record done.made rfl), done.kind, payload]
  change raiseIf (!explanationValid (explanationOf current request)) _ = _
  rw [raiseIf_eq_ok, Bool.not_eq_false']
  obtain ⟨named, digest⟩ := (identified_of_validate delta).digestText
  have sorted : pathsOf made = (request.path.dedup.insertionSort (· ≤ ·)).map .str := done.paths
  have listed : ∀ path, path ∈ request.path.dedup.insertionSort (· ≤ ·) ↔ path ∈ request.path := fun path => by
    rw [List.mem_insertionSort, List.mem_dedup]
  have nonempty : (pathsOf made).isEmpty = false := by
    obtain ⟨path, rest, first⟩ := List.exists_cons_of_ne_nil done.named
    have member : path ∈ request.path.dedup.insertionSort (· ≤ ·) := (listed path).mpr (by simp [first])
    rw [sorted, List.isEmpty_eq_false_iff]
    exact List.ne_nil_of_mem (List.mem_map_of_mem member)
  have safe : (pathsOf made).all safePath = true := by
    rw [sorted, List.all_map, List.all_eq_true]
    exact fun path member => done.safe path ((listed path).mp member)
  have once : RetryCircuit.distinct (pathsOf made) = true := by
    rw [sorted]
    exact (RetryCircuit.distinct_strs _).mpr ((List.perm_insertionSort _ _).nodup_iff.mpr (List.nodup_dedup _))
  have short : decide ((pathsOf made).length ≤ 64) = true := decide_eq_true done.paths_length
  have bound : Text.isDigest ((explanationOf current request).get "delta_digest").toText = true := by
    rw [show (explanationOf current request).get "delta_digest" = current.get "digest" from rfl, named]
    exact digest
  have fields : (explanationOf current request).hasExactly ["delta_digest", "paths", "reason", "generated"] = true := by
    simp [explanationOf, Json.hasExactly, Json.isObj, Json.has, Json.fields, Dict.has, Dict.find, Dict.keys]
  have reason : decide (request.reason.length ≤ 1000) = true := decide_eq_true done.short
  rw [pathsOf, payload] at nonempty safe once short
  simp only [explanationValid, fields, bound, nonempty, safe, once, short, Bool.true_and, Bool.and_true, Bool.not_false]
  change (true && (true && !Text.isBlank request.reason && decide (request.reason.length ≤ 1000) &&
    !Text.contains '\n' request.reason && true)) = true
  rw [done.reason, reason, done.line]
  rfl

/-- A record of the next revision that names its predecessor is accepted where its kind is. -/
theorem follows_of_record {kind name : String} {payload : Json} {next : Cycle}
    (built : ChangeDrift.record kind name revision timestamp payload (previousDigest history) = .ok made)
    (valid : validate made = .ok ()) (named : taskId = .str name) (final : history.getLast? = some record)
    (known : validate record = .ok ()) (later : revisionOf record < revision)
    (followed : follow cycle history made = .ok next) : Follows taskId history cycle made next := by
  simp only [ChangeDrift.record, raiseIf_bind_ok, pure_eq_ok] at built
  obtain ⟨-, -, same⟩ := built
  refine ⟨valid, ?_, ?_, ?_, followed⟩
  · rw [named, ← same]
    exact (Json.beq_str _ _).mpr rfl
  · have text := (identified_of_validate known).digestText.1
    rw [final, Option.map_some, Option.getD_some, text, Json.beq_str, ← same, previousDigest, final]
    rfl
  · rw [final, Option.map_some, Option.getD_some, ← same]
    exact later

theorem Explaining.follows (done : Explaining history revision timestamp request current made)
    (delta : validate current = .ok ()) (active : cycle.delta = some current) (named : taskId = .str request.task)
    (paths : ∀ path ∈ request.path, ∃ entry ∈ entriesOf current, entry.get "path" = .str path)
    (final : history.getLast? = some record) (valid : validate record = .ok ())
    (later : revisionOf record < revision) : Follows taskId history cycle made cycle := by
  refine follows_of_record done.made (done.valid delta) named final valid later
    ((follow_explain done.kind).mpr ⟨current, active, ?_, ?_, rfl⟩)
  · rw [payloadOf_record done.made]
    change (current.get "digest" == current.get "digest") = true
    rw [(identified_of_validate delta).digestText.1, Json.beq_str]
  · intro path member
    rw [done.paths] at member
    obtain ⟨word, listed, rfl⟩ := List.mem_map.mp member
    rw [List.mem_insertionSort, List.mem_dedup] at listed
    obtain ⟨entry, here, known⟩ := paths word listed
    exact ⟨entry, here, (Json.beq_str _ _).mpr known⟩

end records

/-- A task with a checked history that its owner can extend. -/
structure Held (files : Files) (world : Moment) (settings : Dict) (name holder : String) (task : Meta) : Prop where
  configured : files.config = some settings
  root : settings.has "projects_root" = true
  bound : validWorktreeKey (task.get "worktree_key") = true
  apart : (task.get "worktree_key").text ≠ settings.textOr "product_worktree"
  opened : world.worktreeRefused (task.get "worktree_key").text = none
  stamped : world.now ≠ ""
  holder : owner task = .str holder
  active : status task = .str "in_progress"
  named : task.get "id" = .str name
  shape : ExecutionEnvelope.isTask name = true
  revision : task.get "task_revision" = .int (Meta.revision task)
  read : records task = .ok (historyOf task)
  final : ∃ record, (historyOf task).getLast? = some record ∧ validate record = .ok () ∧ 1 ≤ revisionOf record ∧
    revisionOf record ≤ Meta.revision task

/-- A held task whose latest delta awaits explanations. -/
structure Ready (files : Files) (world : Moment) (settings : Dict) (name holder : String) (current : Json)
    (task : Meta) : Prop extends Held files world settings name holder task where
  captured : latest (historyOf task) "delta" = some current
  valid : validate current = .ok ()
  standing : ∃ cycle, Standing (task.get "id") (historyOf task) cycle ∧ cycle.delta = some current
  worked : ∃ record, (historyOf task).getLast? = some record ∧ (kindOf record = "delta" ∨ kindOf record = "explain")

theorem kindOf_latest {history : List Json} {kind : String} {record : Json} (found : latest history kind = some record) :
    kindOf record = kind := by
  have known := List.find?_some found
  simpa using known

/-- An outstanding path is the path of some entry of the latest delta. -/
theorem entry_of_outstanding {history : List Json} {current : Json} {path : String}
    (captured : latest history "delta" = some current) (valid : validate current = .ok ())
    (member : path ∈ outstanding history) :
    ∃ entry ∈ entriesOf current, entry.get "path" = .str path ∧ safePath (.str path) = true := by
  obtain ⟨entry, open_, rfl⟩ := List.mem_map.mp (List.mem_dedup.mp member)
  simp only [unresolved, captured] at open_
  have here : entry ∈ entriesOf current := (List.mem_filter.mp open_).1
  have known := entryValid_of_delta valid (kindOf_latest captured) here
  have named := path_eq known
  exact ⟨entry, here, named, named ▸ safePath_of_entry known⟩

theorem records_of_standing {task : Meta} {history : List Json} {cycle : Cycle}
    (written : task.get "change_drift" = .arr history) (room : history.length ≤ maxRecords)
    (standing : Standing (task.get "id") history cycle) : records task = .ok (historyOf task) := by
  have present : task.has "change_drift" = true := has_of_get_ne (by rw [written]; simp)
  have bounded : decide (maxRecords < history.length) = false := decide_eq_false (not_lt.mpr room)
  have checked := standing.checked
  simp only [records, present, ↓reduceIte, written, historyOf, Json.isArr, Json.items, Bool.not_true, bounded,
    Bool.or_false, raiseIf_false, checked, ok_bind]
  rfl

section ready

variable {files : Files} {world : Moment} {settings : Dict} {name holder : String} {current : Json} {task : Meta}

/-- The owner's explanation of some paths. -/
def explanationRequest (name holder : String) (task : Meta) (paths : List String) : Request where
  task := name
  owner := holder
  expectedRevision := Meta.revision task
  action := "explain"
  scopePath := []
  path := paths
  reason := "Explained."
  generated := false

theorem record_ok (kind : String) (payload : Json) {previous timestamp : String} {revision : Int} (known : kind ∈ kinds)
    (shape : ExecutionEnvelope.isTask name = true) (positive : 1 ≤ revision) (stamped : timestamp ≠ "")
    (linked : Text.isDigest previous = true) : ∃ made, record kind name revision timestamp payload previous = .ok made := by
  have listed : kinds.contains kind = true := List.contains_iff_mem.mpr known
  have past : decide (revision < 1) = false := decide_eq_false (not_lt.mpr positive)
  simp only [record, listed, shape, past, beq_eq_false_iff_ne.mpr stamped, linked, Bool.not_true, Bool.or_false,
    Bool.and_false, raiseIf_false]
  exact ⟨_, rfl⟩

/-- The owner can explain any few outstanding paths. -/
theorem Ready.explaining (ready : Ready files world settings name holder current task) {paths : List String}
    (nonempty : paths ≠ []) (few : paths.length ≤ maxPaths) (open_ : ∀ path ∈ paths, path ∈ outstanding (historyOf task)) :
    ∃ made, Explaining (historyOf task) (Meta.revision task + 1) world.now
      (explanationRequest name holder task paths) current made := by
  obtain ⟨record, final, known, positive, late⟩ := ready.final
  have linked : Text.isDigest (previousDigest (historyOf task)) = true := by
    rw [previousDigest, final]
    exact (identified_of_validate known).digestText.2
  obtain ⟨made, built⟩ := record_ok "explain" (explanationOf current (explanationRequest name holder task paths))
    (by decide) ready.shape (show 1 ≤ Meta.revision task + 1 by omega) ready.stamped linked
  refine ⟨made, ready.captured, nonempty, few, fun path member => ?_, (by decide +kernel : Text.isBlank "Explained." = false),
    (by decide : "Explained.".length ≤ 1000), (by decide : Text.contains '\n' "Explained." = false), built⟩
  obtain ⟨entry, -, -, safe⟩ := entry_of_outstanding ready.captured ready.valid (open_ path member)
  exact safe

theorem revisionOf_record {kind previous timestamp : String} {revision : Int} {payload made : Json}
    (built : record kind name revision timestamp payload previous = .ok made) : revisionOf made = revision := by
  simp only [record, raiseIf_bind_ok, pure_eq_ok] at built
  obtain ⟨-, -, rfl⟩ := built
  rfl

/-- The task after a committed record. -/
def extended (world : Moment) (task : Meta) (made : Json) : Meta :=
  advanced (task.set "change_drift" (.arr (historyOf task ++ [made]))) world.now

theorem extended_within (world : Moment) (task : Meta) (made : Json) : Within ("change_drift" :: revisionFields) task (extended world task made) :=
  ((within_refl _ task).set (by simp) _).trans ((advanced_within _ _).mono (by simp +contextual))

theorem extended_drift (made : Json) :
    (extended world task made).get "change_drift" = .arr (historyOf task ++ [made]) := by
  rw [extended, advanced_get (by decide), get_set, if_pos rfl]

theorem historyOf_extended (world : Moment) (task : Meta) (made : Json) : historyOf (extended world task made) = historyOf task ++ [made] := by
  rw [historyOf, extended_drift]
  rfl

theorem revision_extended (made : Json) : Meta.revision (extended world task made) = Meta.revision task + 1 := by
  rw [extended, revision_advanced, revision_set_of_ne (by decide)]

/-- A record that the history accepts next is committed and leaves the task held. -/
theorem Held.commit (held : Held files world settings name holder task) {request : Request} {cycle next : Cycle}
    {made : Json} (room : (historyOf task).length < maxRecords) (asked : request.owner = holder)
    (fenced : request.expectedRevision = Meta.revision task)
    (built : nextRecord world (task.get "worktree_key").text (historyOf task) (Meta.revision task + 1) world.now request =
      .ok (made, historyOf task))
    (standing : Standing (task.get "id") (historyOf task) cycle)
    (follows : Follows (task.get "id") (historyOf task) cycle made next)
    (stamp : revisionOf made = Meta.revision task + 1) :
    commitDrift files world task request = some (extended world task made) ∧
      Standing ((extended world task made).get "id") (historyOf (extended world task made)) next ∧
      Held files world settings name holder (extended world task made) := by
  have current : requireRevision task request.expectedRevision = .ok () := by
    rw [fenced, requireRevision, raiseIf_eq_ok, bne, Bool.not_eq_false', held.revision, Json.beq_int_int]
  have applied : Applied files world task request settings (historyOf task) (historyOf task) made
      (task.set "change_drift" (.arr (historyOf task ++ [made]))) :=
    ⟨held.configured, held.root, asked ▸ held.holder, held.active, current, held.read, held.bound, held.apart,
      held.opened, built, room, rfl⟩
  obtain ⟨note, accepted⟩ := applied.accepted
  have frame := extended_within world task made
  have id : (extended world task made).get "id" = task.get "id" := frame.get (by decide)
  have onward : Standing ((extended world task made).get "id") (historyOf task ++ [made]) next :=
    id ▸ standing.snoc follows
  have read : records (extended world task made) = .ok (historyOf (extended world task made)) :=
    records_of_standing (extended_drift made) (by rw [List.length_append]; exact room) onward
  have clean : metadataError (extended world task made) = none := by rw [metadataError, read]
  obtain ⟨record, final, known, positive, late⟩ := held.final
  refine ⟨commitDrift_eq_some.mpr ⟨_, note, accepted, clean, rfl⟩, historyOf_extended world task made ▸ onward, ?_⟩
  refine ⟨held.configured, held.root, ?_, ?_, ?_, held.stamped, (frame.get (by decide)).trans held.holder,
    (frame.get (by decide)).trans held.active, id.trans held.named, held.shape, ?_, read, ?_⟩
  · rw [frame.get (by decide)]
    exact held.bound
  · rw [frame.get (by decide)]
    exact held.apart
  · rw [frame.get (by decide)]
    exact held.opened
  · rw [revision_extended, extended, advanced_revision, revision_set_of_ne (by decide)]
  · refine ⟨made, by rw [historyOf_extended]; simp, follows.valid, ?_⟩
    rw [stamp, revision_extended]
    omega

/-- An explanation of outstanding paths is committed and leaves the task ready. -/
theorem Ready.commit (ready : Ready files world settings name holder current task) {paths : List String}
    (room : (historyOf task).length < maxRecords) (nonempty : paths ≠ []) (few : paths.length ≤ maxPaths)
    (open_ : ∀ path ∈ paths, path ∈ outstanding (historyOf task)) :
    ∃ made next, Explaining (historyOf task) (Meta.revision task + 1) world.now
        (explanationRequest name holder task paths) current made ∧
      commitDrift files world task (explanationRequest name holder task paths) = some next ∧
      historyOf next = historyOf task ++ [made] ∧ Ready files world settings name holder current next := by
  obtain ⟨made, explaining⟩ := ready.explaining nonempty few open_
  obtain ⟨record, final, known, positive, late⟩ := ready.final
  obtain ⟨cycle, standing, active⟩ := ready.standing
  have follows := explaining.follows ready.valid active ready.named (fun path member => by
    obtain ⟨entry, here, named, -⟩ := entry_of_outstanding ready.captured ready.valid (open_ path member)
    exact ⟨entry, here, named⟩) final known (by omega)
  obtain ⟨committed, onward, held⟩ := ready.toHeld.commit room rfl rfl
    ((nextRecord_explain rfl).mpr ⟨rfl, current, explaining⟩) standing follows (revisionOf_record explaining.made)
  have history := historyOf_extended world task made
  refine ⟨made, _, explaining, committed, history, held, ?_, ready.valid, ⟨cycle, onward, active⟩, ?_⟩
  · rw [history]
    exact (latest_snoc (by simp [explaining.kind])).trans ready.captured
  · exact ⟨made, by rw [history]; simp, .inr explaining.kind⟩

/-- What is outstanding after an explanation was outstanding before it and is not named by it. -/
theorem Explaining.clears {history : List Json} {revision : Int} {timestamp : String} {request : Request} {made : Json}
    (done : Explaining history revision timestamp request current made) (valid : validate current = .ok ())
    {path : String} (member : path ∈ outstanding (history ++ [made])) :
    path ∈ outstanding history ∧ path ∉ request.path := by
  obtain ⟨entry, open_, rfl⟩ := List.mem_map.mp (List.mem_dedup.mp member)
  rw [unresolved_snoc done.captured done.kind, List.mem_filter] at open_
  obtain ⟨before, unnamed⟩ := open_
  refine ⟨List.mem_dedup.mpr (List.mem_map_of_mem before), fun named => ?_⟩
  have linked : ((payloadOf made).get "delta_digest" == current.get "digest") = true := by
    rw [payloadOf_record done.made]
    change (current.get "digest" == current.get "digest") = true
    rw [(identified_of_validate valid).digestText.1, Json.beq_str]
  have here : entry ∈ entriesOf current := by
    simp only [unresolved, done.captured] at before
    exact (List.mem_filter.mp before).1
  have text := path_eq (entryValid_of_delta valid (kindOf_latest done.captured) here)
  have listed : (pathsOf made).any (· == entry.get "path") = true := by
    rw [done.paths, List.any_eq_true]
    refine ⟨.str (entry.get "path").text, List.mem_map_of_mem ?_, by rw [← text]; rw [text, Json.beq_str]⟩
    rw [List.mem_insertionSort, List.mem_dedup]
    exact named
  rw [linked, listed] at unnamed
  cases unnamed

theorem unresolved_of_outstanding {history : List Json} (none : outstanding history = []) : unresolved history = [] := by
  rw [outstanding, List.dedup_eq_nil, List.map_eq_nil_iff] at none
  exact none

/-- A ready task with nothing outstanding is admitted. -/
theorem Ready.admitted (ready : Ready files world settings name holder current task)
    (none : outstanding (historyOf task) = []) : doneAdmissionError task = .none := by
  obtain ⟨record, final, worked⟩ := ready.worked
  have complete : completionError (historyOf task) = .none :=
    (completionError_getLast final).mpr ⟨worked, unresolved_of_outstanding none⟩
  simp only [doneAdmissionError, ready.read, complete]

/-- Paths that fit into the records that are left can all be explained. -/
theorem Ready.resolvable (ready : Ready files world settings name holder current task) (left : Nat)
    (room : (historyOf task).length + left ≤ maxRecords) (fits : (outstanding (historyOf task)).length ≤ maxPaths * left) :
    Resolvable files world task := by
  induction left generalizing task with
  | zero =>
    have none : outstanding (historyOf task) = [] := List.length_eq_zero_iff.mp (by omega)
    exact ⟨[], task, rfl, ready.admitted none⟩
  | succ left ih =>
    by_cases none : outstanding (historyOf task) = []
    · exact ⟨[], task, rfl, ready.admitted none⟩
    -- the next sixty-four paths go into one explanation
    have nonempty : (outstanding (historyOf task)).take maxPaths ≠ [] := by simpa [maxPaths] using none
    obtain ⟨made, next, explaining, committed, extended, again⟩ := ready.commit (by omega) nonempty
      (List.length_take_le _ _) fun path member => List.mem_of_mem_take member
    have remaining : outstanding (historyOf next) ⊆ (outstanding (historyOf task)).drop maxPaths := by
      intro path member
      rw [extended] at member
      obtain ⟨before, unnamed⟩ := explaining.clears ready.valid member
      rw [← List.take_append_drop maxPaths (outstanding (historyOf task)), List.mem_append] at before
      exact before.resolve_left unnamed
    have shorter := (List.subperm_of_subset (List.nodup_dedup _) remaining).length_le
    rw [List.length_drop] at shorter
    obtain ⟨requests, last, explained, admitted⟩ := ih again
      (by rw [extended, List.length_append, List.length_singleton]; omega) (by
        simp only [maxPaths] at fits shorter ⊢
        exact shorter.trans (by omega))
    exact ⟨explanationRequest name holder task ((outstanding (historyOf task)).take maxPaths) :: requests, last,
      Option.bind_eq_some_iff.mpr ⟨next, committed, explained⟩, admitted⟩

end ready

section capture

variable {files : Files} {world : Moment} {task captured : Meta} {request : Request}

theorem follow_delta {cycle next : Cycle} {before : List Json} {record : Json} (kind : kindOf record = "delta")
    (followed : follow cycle before record = .ok next) : next.delta = some record := by
  simp only [follow, kind, raiseIf_bind_ok, pure_eq_ok] at followed
  obtain ⟨-, rfl⟩ := followed
  rfl

/-- What a committed action leaves: a held task with one more record of the action's kind. -/
theorem commitDrift_held (committed : commitDrift files world task request = some captured) :
    ∃ settings previous made cycle next, Held files world settings request.task request.owner captured ∧
      historyOf captured = previous ++ [made] ∧ kindOf made = request.action ∧
      Standing (captured.get "id") (historyOf captured) next ∧ Follows (captured.get "id") previous cycle made next ∧
      (request.action = "baseline" → previous = []) := by
  obtain ⟨after, note, accepted, clean, rfl⟩ := commitDrift_eq_some.mp committed
  obtain ⟨settings, history, previous, made, done⟩ := apply_eq_ok accepted
  obtain ⟨⟨payload, linked, built⟩, cases⟩ := nextRecord_eq_ok done.next
  obtain ⟨rfl, -, earlier⟩ := records_eq_ok done.read
  have frame : Within ("change_drift" :: revisionFields) task (advanced after world.now) := by
    rw [done.written]
    exact ((within_refl _ task).set (by simp) _).trans ((advanced_within _ _).mono (by simp +contextual))
  have history : historyOf (advanced after world.now) = previous ++ [made] := by
    rw [historyOf, advanced_get (by decide), done.written, get_set, if_pos rfl]
    rfl
  have same : Meta.revision after = Meta.revision task := by
    rw [done.written]
    exact revision_set_of_ne (by decide)
  have id : (advanced after world.now).get "id" = task.get "id" := frame.get (by decide)
  obtain ⟨other, read⟩ : ∃ other, records (advanced after world.now) = .ok other := by
    unfold metadataError at clean
    split at clean
    · next other read => exact ⟨other, read⟩
    · cases clean
  obtain ⟨rfl, -, checked⟩ := records_eq_ok read
  have before : checkHistory ((advanced after world.now).get "id") [] ⟨none, none⟩ previous = .ok () := by
    obtain ⟨-, rfl, -⟩ | ⟨-, rfl⟩ := cases
    · rfl
    · exact id ▸ earlier
  obtain ⟨cycle, standing⟩ := standing_of_checked before
  rw [history, standing] at checked
  obtain ⟨next, follows, -⟩ := checkHistory_cons checked
  have revision : revisionOf made = Meta.revision (advanced after world.now) := by
    rw [revisionOf_record built, revision_advanced, same]
  refine ⟨settings, previous, made, cycle, next, ?_, history, kindOf_record built, ?_, follows, ?_⟩
  · simp only [record, bind_eq_ok, exists_unit, raiseIf_eq_ok, pure_eq_ok, Bool.or_eq_false_iff, Bool.not_eq_false',
      decide_eq_false_iff_not, not_lt, beq_eq_false_iff_ne] at built
    obtain ⟨⟨⟨⟨-, named⟩, positive⟩, stamped⟩, -, entries⟩ := built
    have owned : (advanced after world.now).get "id" = .str request.task := by
      have holds := follows.task
      rw [← entries] at holds
      exact (Json.str_beq _ _).mp holds
    refine ⟨done.configured, done.root, ?_, ?_, ?_, stamped, (frame.get (by decide)).trans done.holder,
      (frame.get (by decide)).trans done.active, owned, named, ?_, read, ?_⟩
    · rw [frame.get (by decide)]
      exact done.bound
    · rw [frame.get (by decide)]
      exact done.apart
    · rw [frame.get (by decide)]
      exact done.opened
    · rw [advanced_revision, revision_advanced]
    · refine ⟨made, by rw [history]; simp, follows.valid, ?_, revision.le⟩
      rw [revision, revision_advanced, same]
      exact positive
  · rw [history]
    exact standing.snoc follows
  · intro first
    obtain ⟨-, empty, -⟩ | ⟨other, -⟩ := cases
    · exact empty
    · exact absurd first other

/-- A captured delta awaits explanations that its owner can record. -/
theorem ready_of_capture (action : request.action = "delta")
    (committed : commitDrift files world task request = some captured) :
    ∃ settings current, Ready files world settings request.task request.owner current captured ∧
      historyOf captured ≠ [] := by
  obtain ⟨settings, previous, made, cycle, next, held, history, kind, standing, follows, -⟩ := commitDrift_held committed
  rw [action] at kind
  refine ⟨settings, made, ⟨held, ?_, follows.valid, ⟨next, standing, follow_delta kind follows.followed⟩, ?_⟩, ?_⟩
  · rw [history, latest, List.reverse_append]
    simp [kind]
  · exact ⟨made, by rw [history]; simp, .inl kind⟩
  · simp [history]

/-- A captured delta can be explained up to the admission of completion exactly when its distinct
paths fit into the records that its cycle has left. -/
theorem captured_resolvable_iff (action : request.action = "delta")
    (committed : commitDrift files world task request = some captured) : Resolvable files world captured ↔
      (outstanding (historyOf captured)).length ≤ maxPaths * (maxRecords - (historyOf captured).length) := by
  obtain ⟨settings, current, ready, nonempty⟩ := ready_of_capture action committed
  have bounded := (records_eq_ok ready.read).2.1
  exact ⟨fits_of_resolvable nonempty, ready.resolvable _ (by omega)⟩

end capture

/-! A delta that no explanation can follow: re-scopes have used up the records of its cycle. -/

/-- A held task whose cycle is open and has no delta yet. -/
structure Unmeasured (files : Files) (world : Moment) (settings : Dict) (name holder : String) (base : Json) (task : Meta) :
    Prop extends Held files world settings name holder task where
  valid : validate base = .ok ()
  standing : ∃ cycle, Standing (task.get "id") (historyOf task) cycle ∧ cycle.baseline = some base ∧ cycle.delta = none
  scopes : ∃ scopes, historyOf task = base :: scopes ∧ Opened base scopes

section unmeasured

variable {files : Files} {world : Moment} {settings : Dict} {name holder : String} {base : Json} {task captured : Meta}
  {request : Request}

theorem unmeasured_of_baseline (action : request.action = "baseline")
    (committed : commitDrift files world task request = some captured) :
    ∃ settings base, Unmeasured files world settings request.task request.owner base captured ∧ historyOf captured = [base] := by
  obtain ⟨settings, previous, made, cycle, next, held, history, kind, standing, follows, empty⟩ :=
    commitDrift_held committed
  obtain rfl := empty action
  rw [action] at kind
  have followed := follows.followed
  simp only [follow, kind, raiseIf_bind_ok, pure_eq_ok] at followed
  obtain ⟨-, rfl⟩ := followed
  exact ⟨settings, made, ⟨held, follows.valid, ⟨_, standing, rfl, rfl⟩, [], history, kind, by simp⟩, history⟩

theorem Unmeasured.latest (state : Unmeasured files world settings name holder base task) :
    latest (historyOf task) "baseline" = some base := by
  obtain ⟨scopes, history, shape⟩ := state.scopes
  have none : scopes.reverse.find? (fun record => kindOf record == "baseline") = none := by
    rw [List.find?_eq_none]
    intro record member
    simp [shape.scopes record (List.mem_reverse.mp member)]
  simp [history, ChangeDrift.latest, List.find?_append, none, shape.baseline]

theorem Unmeasured.lastKind (state : Unmeasured files world settings name holder base task) :
    ["baseline", "rescope"].contains (((historyOf task).getLast?.map kindOf).getD "") = true := by
  obtain ⟨record, final, -⟩ := state.final
  obtain ⟨scopes, history, shape⟩ := state.scopes
  rw [final, Option.map_some, Option.getD_some]
  have member : record ∈ base :: scopes := history ▸ List.mem_of_getLast? final
  obtain rfl | scope := List.mem_cons.mp member
  · rw [shape.baseline]
    decide
  · rw [shape.scopes record scope]
    decide

theorem Unmeasured.baselined (state : Unmeasured files world settings name holder base task) (purpose : String) :
    requireBaseline (historyOf task) purpose = .ok base := by
  simp only [ChangeDrift.requireBaseline, state.latest, orRaise, ok_bind, state.lastKind, Bool.not_true, raiseIf_false]
  rfl

/-- A payload about the open cycle makes a valid record that comes next in the history. -/
theorem Unmeasured.made (state : Unmeasured files world settings name holder base task) {kind : String} {payload : Json}
    (listed : kind ∈ kinds) (shape : payload.isObj = true) (bound : payload.get "baseline_digest" = base.get "digest")
    (content : Text.isDigest (base.get "digest").toText = true → contentCheck kind payload = .ok ()) : ∃ made,
      ChangeDrift.record kind name (Meta.revision task + 1) world.now payload (previousDigest (historyOf task)) = .ok made ∧
        kindOf made = kind ∧ payloadOf made = payload ∧ validate made = .ok () ∧
          ((payloadOf made).get "baseline_digest" == base.get "digest") = true := by
  obtain ⟨record, final, known, positive, late⟩ := state.final
  obtain ⟨text, digest⟩ := (identified_of_validate state.valid).digestText
  have chained : Text.isDigest (previousDigest (historyOf task)) = true := by
    rw [previousDigest, final]
    exact (identified_of_validate known).digestText.2
  obtain ⟨made, built⟩ := record_ok kind payload listed state.shape (show 1 ≤ Meta.revision task + 1 by omega) state.stamped chained
  refine ⟨made, built, kindOf_record built, payloadOf_record built, ?_, ?_⟩
  · rw [validate_of_identified (identified_of_record built shape), kindOf_record built, payloadOf_record built]
    exact content (by rw [text]; exact digest)
  · rw [payloadOf_record built, bound, text, Json.beq_str]

/-- The owner's re-scope to one directory. -/
def scopeRequest (name holder : String) (task : Meta) : Request where
  task := name
  owner := holder
  expectedRevision := Meta.revision task
  action := "rescope"
  scopePath := ["src"]
  path := []
  reason := ""
  generated := false

def scopePayload (base : Json) : Json := .obj [("baseline_digest", base.get "digest"), ("scope", .arr [.str "src"])]

/-- An open cycle takes re-scopes as long as it has room. -/
theorem Unmeasured.rescope (state : Unmeasured files world settings name holder base task)
    (room : (historyOf task).length < maxRecords) : ∃ next,
      commitDrift files world task (scopeRequest name holder task) = some next ∧
        Unmeasured files world settings name holder base next ∧ (historyOf next).length = (historyOf task).length + 1 := by
  obtain ⟨record, final, known, positive, late⟩ := state.final
  obtain ⟨cycle, standing, active, fresh⟩ := state.standing
  obtain ⟨scopes, history, shape⟩ := state.scopes
  have content (bound : Text.isDigest (base.get "digest").toText = true) : contentCheck "rescope" (scopePayload base) = .ok () := by
    change raiseIf (!(true && true) || !Text.isDigest (base.get "digest").toText || !scopeValid (.arr [.str "src"])) _ = _
    rw [bound]
    decide +kernel
  obtain ⟨made, built, kind, -, valid, named⟩ := state.made (by decide) rfl rfl content
  have link : linked cycle made = true := by
    simp only [linked, active, fresh, named]
    rfl
  have followed : follow cycle (historyOf task) made = .ok cycle := by
    simp only [follow, kind, link, Bool.not_true, raiseIf_false]
    rfl
  have scope : normalizeScope ["src"] = .ok ["src"] := by decide +kernel
  have next : nextRecord world (task.get "worktree_key").text (historyOf task) (Meta.revision task + 1) world.now
      (scopeRequest name holder task) = .ok (made, historyOf task) := by
    simp only [nextRecord, scopeRequest, state.baselined, ok_bind, scope]
    change (ChangeDrift.record "rescope" name (Meta.revision task + 1) world.now (scopePayload base) _ >>= _) = _
    rw [built]
    rfl
  obtain ⟨committed, onward, held⟩ := state.toHeld.commit room rfl rfl next standing
    (follows_of_record built valid state.named final known (by omega) followed) (revisionOf_record built)
  have history' := historyOf_extended world task made
  refine ⟨_, committed, ⟨held, state.valid, ⟨cycle, onward, active, fresh⟩, scopes ++ [made], ?_, shape.baseline, ?_⟩, ?_⟩
  · rw [history', history]
    rfl
  · exact List.forall_mem_append.mpr ⟨shape.scopes, by simp [kind]⟩
  · rw [history', List.length_append, List.length_singleton]

/-- Re-scopes by the owner, one after the other. -/
def rescopeAll (files : Files) (world : Moment) (name holder : String) : Nat → Meta → Option Meta
  | 0, task => some task
  | count + 1, task =>
      (commitDrift files world task (scopeRequest name holder task)).bind (rescopeAll files world name holder count)

theorem Unmeasured.rescopeAll (state : Unmeasured files world settings name holder base task) (count : Nat)
    (room : (historyOf task).length + count ≤ maxRecords) : ∃ last,
      ChangeDrift.rescopeAll files world name holder count task = some last ∧
        Unmeasured files world settings name holder base last ∧ (historyOf last).length = (historyOf task).length + count := by
  induction count generalizing task with
  | zero => exact ⟨task, rfl, state, rfl⟩
  | succ count ih =>
    obtain ⟨next, committed, onward, grown⟩ := state.rescope (by omega)
    obtain ⟨last, all, onward, full⟩ := ih onward (by omega)
    exact ⟨last, Option.bind_eq_some_iff.mpr ⟨next, committed, all⟩, onward, by omega⟩

/-- The owner's capture of the work. -/
def captureRequest (name holder : String) (task : Meta) : Request where
  task := name
  owner := holder
  expectedRevision := Meta.revision task
  action := "delta"
  scopePath := []
  path := []
  reason := ""
  generated := false

def capturedPayload (base : Json) (scope : List String) : Json :=
  .obj [("baseline_digest", base.get "digest"), ("head", .str "head"),
    ("entries", .arr [classified scope (changedEntry "src/one.py")])]

theorem classified_valid (scope : List String) : entryValid true (classified scope (changedEntry "src/one.py")) = true := by
  simp only [classified]
  generalize List.all _ _ = within
  cases within <;> decide +kernel

theorem changedEntries_one (scope : List String) : changedEntries [] [changedEntry "src/one.py"] [] scope =
    [classified scope (changedEntry "src/one.py")] := rfl

theorem capturedPayload_valid {base : Json} (scope : List String) (digest : Text.isDigest (base.get "digest").toText = true) :
    contentCheck "delta" (capturedPayload base scope) = .ok () := by
  have bound : Text.isDigest ((capturedPayload base scope).get "baseline_digest").toText = true := digest
  have known : (((capturedPayload base scope).get "entries").items.all (entryValid true)) = true := by
    change ([classified scope (changedEntry "src/one.py")].all (entryValid true)) = true
    rw [List.all_cons, classified_valid]
    rfl
  have fields : (capturedPayload base scope).hasExactly ["baseline_digest", "head", "entries"] = true := by
    simp [capturedPayload, Json.hasExactly, Json.isObj, Json.has, Json.fields, Dict.has, Dict.find, Dict.keys]
  have again : (capturedPayload base scope).hasExactly (["head", "entries"] ++ ["baseline_digest"]) = true := by
    simp [capturedPayload, Json.hasExactly, Json.isObj, Json.has, Json.fields, Dict.has, Dict.find, Dict.keys]
  simp only [contentCheck, fields, bound, validateObservation, Bool.false_eq_true, ↓reduceIte, again, known,
    Bool.not_true, Bool.or_false, raiseIf_false]
  rfl

/-- One changed file since a clean baseline is captured and remains to be explained. -/
theorem Unmeasured.capture (state : Unmeasured files world settings name holder base task)
    (room : (historyOf task).length < maxRecords) (head : (payloadOf base).get "head" = .str "head")
    (clean : entriesOf base = [])
    (observed : ∀ key, world.driftObservation key = .ok ("head", [changedEntry "src/one.py"])) : ∃ captured,
      commitDrift files world task (captureRequest name holder task) = some captured ∧
        (historyOf captured).length = (historyOf task).length + 1 ∧ outstanding (historyOf captured) ≠ [] := by
  obtain ⟨record, final, known, positive, late⟩ := state.final
  obtain ⟨cycle, standing, active, fresh⟩ := state.standing
  obtain ⟨scopes, history, shape⟩ := state.scopes
  generalize scoped_ : (activeScope (historyOf task) base).items.map Json.toText = scope
  obtain ⟨made, built, kind, payload, valid, named⟩ := state.made (by decide) rfl rfl (@capturedPayload_valid base scope)
  have entries : entriesOf made = [classified scope (changedEntry "src/one.py")] := by
    rw [entriesOf, payload]
    rfl
  have link : linked cycle made = true := by
    simp only [linked, active, fresh, named]
    rfl
  have followed : follow cycle (historyOf task) made = .ok { cycle with delta := some made } := by
    simp only [follow, kind, link, Bool.not_true, raiseIf_false]
    rfl
  have next : nextRecord world (task.get "worktree_key").text (historyOf task) (Meta.revision task + 1) world.now
      (captureRequest name holder task) = .ok (made, historyOf task) := by
    have moved : (((payloadOf base).get "head").toText == "head") = true := by simp [head]
    have none : ((payloadOf base).get "entries").items = [] := clean
    simp only [nextRecord, captureRequest, state.baselined, ok_bind, observe, observed, pure_bind, moved, none, scoped_,
      changedEntries_one, ↓reduceIte]
    change (ChangeDrift.record "delta" name (Meta.revision task + 1) world.now (capturedPayload base scope) _ >>= _) = _
    rw [built]
    rfl
  obtain ⟨committed, onward, held⟩ := state.toHeld.commit room rfl rfl next standing
    (follows_of_record built valid state.named final known (by omega) followed) (revisionOf_record built)
  have history' := historyOf_extended world task made
  refine ⟨_, committed, by rw [history', List.length_append, List.length_singleton], fun none => ?_⟩
  have clear := unresolved_of_outstanding none
  rw [history', history] at clear
  have explained : Explained made [] := (unresolved_eq_nil ⟨shape, kind, valid, by simp⟩).mp clear
  obtain ⟨other, listed, -⟩ := explained (classified scope (changedEntry "src/one.py")) (by simp [entries]) rfl
  cases listed

/-- Only the clock and the access to the worktree matter. -/
theorem Unmeasured.at_world (state : Unmeasured files world settings name holder base task) {other : Moment}
    (now : other.now = world.now) (refused : other.worktreeRefused = world.worktreeRefused) :
    Unmeasured files other settings name holder base task := by
  have opened : other.worktreeRefused (task.get "worktree_key").text = none := by rw [refused, state.opened]
  have stamped : other.now ≠ "" := by
    rw [now]
    exact state.stamped
  exact ⟨⟨state.configured, state.root, state.bound, state.apart, opened, stamped, state.holder, state.active,
    state.named, state.shape, state.revision, state.read, state.final⟩, state.valid, state.standing, state.scopes⟩

end unmeasured

/-- A baseline of a clean worktree, thirty re-scopes and a delta with one changed file fill the cycle;
the file can never be explained. -/
theorem full_cycle_unresolvable : ∃ opened full captured,
    commitDrift driftFiles (changedWorld []) boundSample (sampleDrift "baseline" 4 ["src"] []) = some opened ∧
    rescopeAll driftFiles (changedWorld []) "AR-0001" "worker" 30 opened = some full ∧
    commitDrift driftFiles (changedWorld ["src/one.py"]) full (captureRequest "AR-0001" "worker" full) = some captured ∧
    ¬Resolvable driftFiles (changedWorld ["src/one.py"]) captured := by
  have clean : (commitDrift driftFiles (changedWorld []) boundSample (sampleDrift "baseline" 4 ["src"] [])).any
      (fun opened => (historyOf opened).all (fun record =>
        (payloadOf record).get "head" == .str "head" && (entriesOf record).isEmpty)) = true := by decide +kernel
  obtain ⟨opened, committed, clean⟩ := (Option.any_eq_true _ _).mp clean
  obtain ⟨settings, base, state, history⟩ := unmeasured_of_baseline rfl committed
  rw [history, List.all_cons, List.all_nil, Bool.and_true, Bool.and_eq_true, Json.beq_str, List.isEmpty_iff] at clean
  obtain ⟨full, rescoped, state, length⟩ := state.rescopeAll 30 (by rw [history, List.length_singleton]; decide)
  rw [history, List.length_singleton] at length
  have state := state.at_world (show (changedWorld ["src/one.py"]).now = _ from rfl) rfl
  obtain ⟨captured, delta, grown, open_⟩ := state.capture (by rw [length]; decide) clean.1 clean.2 fun _ => rfl
  refine ⟨opened, full, captured, committed, rescoped, delta, fun resolvable => open_ ?_⟩
  have nonempty : historyOf captured ≠ [] := by
    intro empty
    rw [empty] at grown
    cases grown
  have fits := fits_of_resolvable nonempty resolvable
  rw [grown, length] at fits
  exact List.length_eq_zero_iff.mp (Nat.le_zero.mp fits)

/-- One captured file right after the baseline fits and can be explained. -/
theorem one_file_resolvable : ∃ opened captured,
    commitDrift driftFiles (changedWorld []) boundSample (sampleDrift "baseline" 4 ["src"] []) = some opened ∧
    commitDrift driftFiles (changedWorld ["src/one.py"]) opened (sampleDrift "delta" 5 [] []) = some captured ∧
    Resolvable driftFiles (changedWorld ["src/one.py"]) captured := by
  have taken : ((commitDrift driftFiles (changedWorld []) boundSample (sampleDrift "baseline" 4 ["src"] [])).bind
      (fun opened => (commitDrift driftFiles (changedWorld ["src/one.py"]) opened (sampleDrift "delta" 5 [] [])).map
        (fun captured => (opened, captured)))).any (fun pair => decide ((outstanding (historyOf pair.2)).length ≤
          maxPaths * (maxRecords - (historyOf pair.2).length))) = true := by decide +kernel
  obtain ⟨⟨opened, captured⟩, steps, fits⟩ := (Option.any_eq_true _ _).mp taken
  obtain ⟨opened, first, steps⟩ := Option.bind_eq_some_iff.mp steps
  obtain ⟨captured, second, same⟩ := Option.map_eq_some_iff.mp steps
  cases same
  exact ⟨opened, captured, first, second, (captured_resolvable_iff rfl second).mpr (of_decide_eq_true fits)⟩

end Coordinator.ChangeDrift
