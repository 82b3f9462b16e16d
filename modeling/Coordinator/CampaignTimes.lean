import Coordinator.Kit.Access
import Coordinator.Projections
import Coordinator.Records

/-! The projection of a campaign over tasks and sessions: the authority that it is made of, what it copies from there, and the
form that the copied times need. -/

namespace Coordinator.Campaign
open Kit TaskGraph TaskValidation

/-! The checks before a projection. -/

def maxProjectedBytes : Nat := 200000

/-- A file name without its last suffix. -/
def stem (name : String) : String :=
  let cs := name.toList
  let suffix := cs.reverse.takeWhile (· ≠ '.')
  if 0 < suffix.length ∧ suffix.length + 1 < cs.length then String.ofList (cs.take (cs.length - suffix.length - 1)) else name

def projectedId (task : Task) : String := if task.fields.has "id" then idOf task else stem task.path

section checks

variable (files : Files) (privateTextErrors : String → String → List String)

def sizeErrors (text : List Char) (subject : String) : List String :=
  errorIf (maxProjectedBytes < (text.map Char.utf8Size).sum) (subject ++ " exceeds 200 KiB")

/-- The errors of the tasks, and the latest revision under each identifier. -/
def taskProjectionErrors : List Task → List (String × Int) → List String × List (String × Int)
  | [], revisions => ([], revisions)
  | task :: rest, revisions =>
      let taskId := projectedId task
      let text := (Json.obj task.fields).canonical ++ '\n' :: task.body.toList
      let found := basicTaskErrors files task.path task.fields true ++ sizeErrors text (taskId ++ ": projected authority") ++
        privateTextErrors task.path (String.ofList text)
      match (task.fields.get "task_revision").exactInt? with
      | none =>
          let (others, after) := taskProjectionErrors rest revisions
          (found ++ others, after)
      | some revision =>
          let (others, after) := taskProjectionErrors rest ((taskId, revision) :: revisions)
          (found ++ errorIf (revisions.lookup taskId).isSome ("duplicate task " ++ taskId) ++ others, after)

/-- A session against the revision of its task. -/
def observationErrors (tasks : List Task) (session : Json) (taskId : String) (revision : Int) : Option Int → List String
  | none => ["session observation has unknown task " ++ taskId]
  | some current =>
      if current < revision then ["session observation is ahead of " ++ taskId ++ " authority"]
      else if revision = current then
        match tasks.find? fun task => (task.fields.get "id").toText == taskId with
        | none => ["StopIteration"]
        | some task => errorIf (session.get "status" != task.fields.get "status")
            ("session observation status differs from " ++ taskId ++ " authority")
      else []

def sessionProjectionErrors (tasks : List Task) (revisions : List (String × Int)) : List Json → List (String × Int) → List String
  | [], _ => []
  | session :: rest, seen =>
      match Records.validateSessionRecord session with
      | .error fault => ("session: " ++ ChangeDrift.faultText fault) :: sessionProjectionErrors tasks revisions rest seen
      | .ok _ =>
          let taskId := (session.get "task").toText
          let revision := Records.revisionOf session
          let observation := taskId ++ "@" ++ toString revision
          let text := session.canonical
          errorIf (seen.contains (taskId, revision)) ("duplicate session observation " ++ observation) ++
            observationErrors tasks session taskId revision (revisions.lookup taskId) ++
            sizeErrors text ("session observation " ++ observation) ++
            privateTextErrors ("sessions/" ++ taskId ++ ".jsonl") (String.ofList text) ++
            sessionProjectionErrors tasks revisions rest ((taskId, revision) :: seen)

def projectionErrors (tasks : List Task) (sessions : List Json) : List String :=
  let (errors, revisions) := taskProjectionErrors files privateTextErrors tasks []
  TaskSpec.sorted (errors ++ sessionProjectionErrors privateTextErrors tasks revisions sessions [] ++ graphErrors tasks ++
    hierarchyErrors tasks ++ supersessionErrors tasks)

end checks

/-! The projection. -/

/-- What stands under a key that has to be there. -/
def required (fields : Dict) (key : String) : Outcome Json := orRaise (fields.find key) (.error ("KeyError: " ++ key))

/-- A revision as a number. One of another type, which no authority has, is refused. -/
def revisionNumber (value : Json) : Outcome Int := orRaise value.int? (.error "ValueError: invalid literal for int()")

def worker (task : Meta) (observedAt : Int) : Outcome Dict := do
  let owner := task.get "owner"
  let expiry := task.get "claim_expires"
  if !RetryCircuit.nonemptyStr owner then pure [("state", .str "unassigned")]
  else if !RetryCircuit.nonemptyStr expiry then pure [("owner", owner), ("state", .str "unfenced")]
  else
    let deadline ← timestamp expiry "claim_expires"
    pure [("owner", owner), ("claim_expires", expiry), ("state", .str (if deadline ≤ observedAt then "expired" else "active"))]

def outcome (task : Meta) : Outcome Json := do
  let status ← required task "status"
  let acceptance := task.get "spec_acceptance"
  if !terminal.contains status.toText then pure .null
  else pure (.obj [("status", .str status.toText),
    ("acceptance", .str (if acceptance.isObj && acceptance.get "status" == .str "pass" then "pass" else "absent"))])

def attempt (current : Int) (session : Json) : Outcome Json := do
  let revision ← revisionNumber (← required session.fields "task_revision")
  let recordedAt ← required session.fields "recorded_at"
  let status ← required session.fields "status"
  let trigger ← required session.fields "trigger"
  pure (.obj [("revision", .int revision), ("recorded_at", recordedAt), ("status", status), ("trigger", trigger),
    ("state", .str (if revision = current then "current" else "stale"))])

def isStale (attempt : Json) : Bool := attempt.get "state" == .str "stale"

/-- The attempts at a task by revision, and how many of them are stale. -/
def attempts (task : Meta) (sessions : List Json) : Outcome (List Json × Dict) := do
  let current ← revisionNumber (← required task "task_revision")
  let attempts ← (sessions.insertionSort fun a b => Records.revisionOf a ≤ Records.revisionOf b).mapM (attempt current)
  pure (attempts, [("current_session", .bool (attempts.getLast?.any fun last => !isStale last)),
    ("stale_sessions", .int (attempts.countP isStale))])

def recovery (task : Meta) (worker session : Dict) (observedAt : Int) : Outcome Json := do
  let kind (word : String) : Json := .obj [("kind", .str word)]
  let status := task.get "status"
  if RetryCircuit.oneOf status terminal then pure (kind "none")
  else
    let (state, _) ← reservation task observedAt
    pure (kind (if state == "expired" then "recover-execution-claim"
      else if state == "live" then "wait-for-execution-claim"
      else if worker.get "state" == .str "expired" then "recover-expired-claim"
      else if status == .str "blocked" then "resume-or-unblock"
      else if (session.get "stale_sessions").truthy then "record-current-session"
      else "none"))

def cardDependency (item : Dependency) : Json := .obj [("task", .str item.task), ("status", .str item.status)]

def ofTask (taskId : String) (session : Json) : Bool := (session.get "task").toText == taskId

def card (tasks : List Task) (sessions : List Json) (observedAt : Int) (task : Task) : Outcome Json := do
  let taskId := idOf task
  let items ← dependencies task.fields tasks
  let worker ← worker task.fields observedAt
  let (attempts, session) ← attempts task.fields (sessions.filter (ofTask taskId))
  let title ← required task.fields "title"
  let priority ← required task.fields "priority"
  let status ← required task.fields "status"
  let revision ← required task.fields "task_revision"
  let blockers ← blockers task.fields items observedAt
  let recovery ← recovery task.fields worker session observedAt
  let outcome ← outcome task.fields
  pure (.obj [("id", .str taskId), ("title", title), ("priority", priority), ("status", status), ("revision", revision),
    ("worker", .obj worker), ("dependencies", .arr (items.map cardDependency)), ("blockers", .arr (blockers.map .obj)),
    ("attempts", .arr attempts), ("session", .obj session), ("recovery", recovery), ("outcome", outcome)])

/-- The tasks by identifier, the last one under a repeated identifier. -/
def carded (tasks : List Task) : List Task := (sortedText (tasks.map idOf).dedup).filterMap (byText tasks)

def summary (cards sessions : List Json) : Json :=
  let statuses := cards.map fun card => (card.get "status").toText
  .obj [("tasks", .int cards.length), ("sessions", .int sessions.length),
    ("by_status", .obj ((sortedText statuses.dedup).map fun status => (status, .int (statuses.count status)))),
    ("recovery_required", .int (cards.countP fun card => (card.get "recovery").get "kind" != .str "none"))]

/-- The campaign as seen at a reading of the clock, to the second. -/
def build (tasks : List Task) (sessions : List Json) (observed : Clock) : Outcome Json := do
  let _ ← tasks.mapM fun task => required task.fields "id"
  let _ ← sessions.mapM fun session => required session.fields "task"
  let cards ← (carded tasks).mapM (card tasks sessions observed.stampTime.wall)
  pure (.obj [("schema_version", .int 1), ("observed_at", .str observed.stamp), ("tasks", .arr cards), ("summary", summary cards sessions)])

/-! The contract of the output. -/

/-- A text that is no timestamp is an error; one beyond the calendar is an exception of another kind. -/
def timestampErrors (value : Json) (field : String) : Outcome (List String) :=
  match timestamp value field with
  | .ok _ => pure []
  | .error fault =>
      if fault = .error "OverflowError: date value out of range" then throw fault else pure [ChangeDrift.faultText fault]

def valueTimestampErrors (taskId name : String) (value : Json) : Outcome (List String) := do
  let errors ← (["claim_expires", "recorded_at"].filter value.has).mapM fun field =>
    timestampErrors (value.get field) (taskId ++ " " ++ name ++ " " ++ field)
  pure errors.flatten

def cardTimestampErrors (taskId : String) (card : Json) : Outcome (List String) := do
  let values := (card.get "worker", "worker") :: (card.get "attempts").items.map fun attempt => (attempt, "attempt")
  let errors ← (values.filter fun value => value.1.isObj).mapM fun value => valueTimestampErrors taskId value.2 value.1
  pure errors.flatten

def terminalContractErrors (taskId : String) (card : Json) : List String :=
  let status := card.get "status"
  let outcome := card.get "outcome"
  if RetryCircuit.oneOf status terminal then
    errorIf (!outcome.isObj || outcome.get "status" != status) (taskId ++ ": terminal outcome does not match status") ++
      errorIf (card.get "recovery" != .obj [("kind", .str "none")]) (taskId ++ ": terminal task has recovery advice")
  else errorIf (!outcome.isNull) (taskId ++ ": nonterminal task has outcome")

def cardContractErrors (card : Json) : Outcome (List String) := do
  if !card.isObj then pure ["campaign card is invalid"]
  else
    let taskId := if card.has "id" then (card.get "id").toText else "unknown"
    let times ← cardTimestampErrors taskId card
    pure (terminalContractErrors taskId card ++ times)

def projectionContractErrors (campaign : Json) : Outcome (List String) := do
  let observed ← timestampErrors (campaign.get "observed_at") "observed_at"
  let cards ← (campaign.get "tasks").items.mapM cardContractErrors
  pure (observed ++ cards.flatten)

/-! The command. -/

def renderText (campaign : Json) : String :=
  Text.joined "\n" ("CAMPAIGN" :: ["schema_version", "observed_at", "tasks", "summary"].map fun name =>
    name.toUpper ++ "=" ++ String.ofList (campaign.get name).canonical) ++ "\n"

def command (tasks : List Task) (sessions : List Json) (asJson : Bool) (observed : Clock) : Outcome String := do
  let campaign ← build tasks sessions observed
  let errors ← projectionContractErrors campaign
  raiseIf (!errors.isEmpty) (.error ("campaign projection contract failed:\n" ++ Text.joined "\n" errors))
  pure (if asJson then String.ofList campaign.canonical ++ "\n" else renderText campaign)

/-! Times that the projection takes. -/

/-- A date and time in the extended form, which exists and has its place in the calendar of UTC. -/
def isExtended (value : Json) : Bool := value.isStr && isTimestamp value.text && (Datetime.aware? value.text).isSome

theorem timestamp_returns {value : Json} {field : String} :
    (∃ instant, timestamp value field = .ok instant) ↔ isExtended value = true := by
  simp only [timestamp, raiseIf_bind_ok, orRaise_bind_ok, orRaise_eq_ok, isExtended, Bool.and_eq_true, Bool.or_eq_false_iff,
    Bool.not_eq_false']
  constructor
  · rintro ⟨instant, shape, parsed, -, -, found⟩
    exact ⟨shape, Option.isSome_iff_exists.mpr ⟨instant, found⟩⟩
  · rintro ⟨shape, found⟩
    obtain ⟨instant, found⟩ := Option.isSome_iff_exists.mp found
    have steps := found
    unfold Datetime.aware? at steps
    obtain ⟨parsed, read, inside⟩ := Option.bind_eq_some_iff.mp steps
    obtain ⟨at_, known, -⟩ := Option.bind_eq_some_iff.mp inside
    refine ⟨instant, shape, parsed, read, ?_, found⟩
    obtain ⟨offset, zone, -⟩ := Option.map_eq_some_iff.mp known
    rw [zone]
    rfl

theorem timestampErrors_eq_nil {value : Json} {field : String} : timestampErrors value field = .ok [] ↔ isExtended value = true := by
  rw [← @timestamp_returns value field, timestampErrors]
  cases timestamp value field with
  | ok instant => exact iff_of_true rfl ⟨instant, rfl⟩
  | error fault =>
    refine iff_of_false (fun none_ => ?_) (by simp)
    dsimp only at none_
    split at none_ <;> cases none_

theorem valueTimestampErrors_eq_nil {taskId name : String} {value : Json} : valueTimestampErrors taskId name value = .ok [] ↔
    ∀ field ∈ ["claim_expires", "recorded_at"], value.has field = true → isExtended (value.get field) = true := by
  simp only [valueTimestampErrors, bind_eq_ok, pure_eq_ok, Access.mapM_flatten_eq_nil, timestampErrors_eq_nil, List.mem_filter, and_imp]

theorem cardTimestampErrors_eq_nil {taskId : String} {card : Json} : cardTimestampErrors taskId card = .ok [] ↔
    ((card.get "worker").isObj = true → valueTimestampErrors taskId "worker" (card.get "worker") = .ok []) ∧
      ∀ attempt ∈ (card.get "attempts").items, attempt.isObj = true → valueTimestampErrors taskId "attempt" attempt = .ok [] := by
  simp only [cardTimestampErrors, bind_eq_ok, pure_eq_ok, Access.mapM_flatten_eq_nil, List.mem_filter, and_imp, List.forall_mem_cons,
    List.forall_mem_map]

section returns

variable {files : Files} {task : Meta} {observedAt : Int}

def workerTimes (task : Meta) : List Json :=
  if RetryCircuit.nonemptyStr (task.get "owner") && RetryCircuit.nonemptyStr (task.get "claim_expires") then [task.get "claim_expires"]
  else []

def reservationTimes (task : Meta) : List Json :=
  let reservation := task.get "execution_reservation"
  if reservation.isNull then [] else [reservation.get "expires_at"]

theorem worker_returns : (∃ shown, worker task observedAt = .ok shown) ↔ ∀ value ∈ workerTimes task, isExtended value = true := by
  simp only [worker, workerTimes]
  cases owned : RetryCircuit.nonemptyStr (task.get "owner") with
  | false => exact iff_of_true ⟨_, rfl⟩ (List.forall_mem_nil _)
  | true =>
    cases claimed : RetryCircuit.nonemptyStr (task.get "claim_expires") with
    | false => exact iff_of_true ⟨_, rfl⟩ (List.forall_mem_nil _)
    | true =>
      simp only [Bool.not_true, Bool.false_eq_true, if_false, Bool.and_true, if_true, List.forall_mem_singleton, bind_eq_ok, pure_eq_ok]
      rw [← @timestamp_returns _ "claim_expires"]
      constructor
      · rintro ⟨_, deadline, read, -⟩
        exact ⟨deadline, read⟩
      · rintro ⟨deadline, read⟩
        exact ⟨_, deadline, read, rfl⟩

/-- The worker on a card has no time but a claim expiry that was read. -/
theorem worker_contract {shown : Dict} (built : worker task observedAt = .ok shown) (taskId : String) :
    valueTimestampErrors taskId "worker" (.obj shown) = .ok [] := by
  rw [valueTimestampErrors_eq_nil]
  simp only [worker] at built
  split at built
  · cases built
    simp [Json.has, Json.fields, Dict.has, Dict.find]
  · split at built
    · cases built
      simp [Json.has, Json.fields, Dict.has, Dict.find]
    · simp only [bind_eq_ok, pure_eq_ok] at built
      obtain ⟨deadline, read, rfl⟩ := built
      have extended := timestamp_returns.mp ⟨deadline, read⟩
      refine List.forall_mem_cons.mpr ⟨fun _ => ?_, List.forall_mem_singleton.mpr fun recorded => ?_⟩
      · simpa [Json.get, Json.fields, Dict.get, Dict.find] using extended
      · simp [Json.has, Json.fields, Dict.has, Dict.find] at recorded

theorem reservation_returns (valid : absentOr ExecutionEnvelope.validReservation (task.get "execution_reservation")) :
    (∃ shown, reservation task observedAt = .ok shown) ↔ ∀ value ∈ reservationTimes task, isExtended value = true := by
  simp only [reservation, reservationTimes]
  cases absent : (task.get "execution_reservation").isNull with
  | true => exact iff_of_true ⟨_, rfl⟩ (List.forall_mem_nil _)
  | false =>
    have valid_ : ExecutionEnvelope.validReservation (task.get "execution_reservation") = true :=
      valid.resolve_left (by rw [absent]; exact Bool.false_ne_true)
    simp only [Bool.false_eq_true, if_false, valid_, Bool.not_true, raiseIf_false, List.forall_mem_singleton, bind_eq_ok, pure_eq_ok]
    rw [← @timestamp_returns _ "execution reservation expiry"]
    constructor
    · rintro ⟨_, expiry, read, -⟩
      exact ⟨expiry, read⟩
    · rintro ⟨expiry, read⟩
      exact ⟨_, expiry, read, rfl⟩

theorem checkCircuit_ok (valid : RetryCircuit.metadataError task = none) : checkCircuit (task.get "retry_circuit") = .ok () := by
  unfold checkCircuit
  unfold RetryCircuit.metadataError RetryCircuit.circuit at valid
  split
  next absent => rfl
  next present =>
    rw [if_neg present] at valid
    split at valid
    next u checked => exact checked
    next => cases valid
    next => cases valid

theorem blockers_returns (circuit : RetryCircuit.metadataError task = none) (items : List Dependency) :
    (∃ shown, blockers task items observedAt = .ok shown) ↔ ∃ shown, reservation task observedAt = .ok shown := by
  simp only [blockers, bind_eq_ok, checkCircuit_ok circuit, exists_unit, true_and, pure_eq_ok]
  constructor
  · rintro ⟨_, shown, read, -⟩
    exact ⟨shown, read⟩
  · rintro ⟨shown, read⟩
    exact ⟨_, shown, read, rfl⟩

theorem recovery_returns {worker session : Dict} (read : ∃ shown, reservation task observedAt = .ok shown) :
    ∃ advice, recovery task worker session observedAt = .ok advice ∧
      (RetryCircuit.oneOf (task.get "status") terminal = true → advice = .obj [("kind", .str "none")]) := by
  obtain ⟨shown, read⟩ := read
  simp only [recovery]
  split
  next ended => exact ⟨_, rfl, fun _ => rfl⟩
  next current =>
    rw [read]
    exact ⟨_, rfl, fun ended => absurd ended current⟩

end returns

section members

variable {files : Files} {tasks : List Task} {task : Task}

theorem required_ok {fields : Dict} {key : String} (has : fields.has key = true) : required fields key = .ok (fields.get key) := by
  obtain ⟨value, found⟩ := Option.isSome_iff_exists.mp has
  rw [required, Dict.get, found]
  rfl

theorem nodup_ids (graph : graphErrors tasks = []) : (tasks.map idOf).Nodup := by
  rw [graphErrors, List.append_eq_nil_iff, dependencyShape, List.append_eq_nil_iff, List.map_eq_nil_iff] at graph
  have none_ : (tasks.map idOf).dedup.filter (fun taskId => 1 < (tasks.map idOf).count taskId) = [] := by
    have size := List.length_insertionSort (· ≤ ·) ((tasks.map idOf).dedup.filter fun taskId => 1 < (tasks.map idOf).count taskId)
    rw [sortedText] at graph
    rw [graph.1.1] at size
    exact List.length_eq_zero_iff.mp size.symm
  rw [List.nodup_iff_count_le_one]
  intro taskId
  by_contra many
  have member : taskId ∈ tasks.map idOf := List.count_pos_iff.mp (by omega)
  have kept := List.filter_eq_nil_iff.mp none_ taskId (List.mem_dedup.mpr member)
  exact kept (decide_eq_true (not_le.mp many))

/-- On checked tasks the cards are those of all tasks. -/
theorem mem_carded (graph : graphErrors tasks = []) : task ∈ carded tasks ↔ task ∈ tasks := by
  have distinct := nodup_ids graph
  rw [carded, List.mem_filterMap]
  constructor
  · rintro ⟨taskId, -, found⟩
    exact (byText_eq_some found).1
  · intro member
    have named : (byText tasks (idOf task)).isSome = true := by
      rw [byText, List.find?_isSome]
      exact ⟨task, List.mem_reverse.mpr member, beq_self_eq_true _⟩
    obtain ⟨found, located⟩ := Option.isSome_iff_exists.mp named
    have same : found = task := List.inj_on_of_nodup_map distinct (byText_eq_some located).1 member (byText_eq_some located).2
    rw [same] at located
    exact ⟨idOf task, (List.mem_insertionSort _).mpr (List.mem_dedup.mpr (List.mem_map_of_mem member)), located⟩

theorem dependencies_returns (graph : graphErrors tasks = []) (member : task ∈ tasks) :
    ∃ items, dependencies task.fields tasks = .ok items := by
  rw [graphErrors, List.append_eq_nil_iff, dependencyShape, List.append_eq_nil_iff, List.flatMap_eq_nil_iff] at graph
  have own := graph.1.2 task member
  rw [taskDependencies] at own
  dsimp only at own
  split at own
  · cases own
  next shape =>
    rw [Bool.not_eq_true, Bool.or_eq_false_iff] at shape
    rw [dependencies, shape.1, shape.2]
    exact ⟨_, rfl⟩

/-- A checked session has what a card takes from it. -/
theorem session_valid {session : Json} (valid : Records.validateSessionRecord session = .ok ()) :
    session.hasExactly Records.sessionFields = true ∧ (session.get "task").isStr = true ∧
      (session.get "task_revision").int? = some (Records.revisionOf session) := by
  simp only [Records.validateSessionRecord, Records.validateHeader, bind_eq_ok, exists_unit, raiseIf_eq_ok, and_assoc] at valid
  obtain ⟨exactly, -, task_, revision, -⟩ := valid
  rw [Bool.not_eq_false', Bool.and_eq_true] at task_
  rw [Bool.not_eq_false', ExecutionEnvelope.positive] at revision
  refine ⟨by simpa using exactly, task_.1, ?_⟩
  rw [Records.revisionOf]
  cases shape : session.get "task_revision" with
  | int number => rfl
  | _ =>
    rw [shape] at revision
    cases revision

def attemptOf (current : Int) (session : Json) : Json :=
  .obj [("revision", .int (Records.revisionOf session)), ("recorded_at", session.get "recorded_at"), ("status", session.get "status"),
    ("trigger", session.get "trigger"), ("state", .str (if Records.revisionOf session = current then "current" else "stale"))]

theorem attempt_ok {session : Json} (valid : Records.validateSessionRecord session = .ok ()) (current : Int) :
    attempt current session = .ok (attemptOf current session) := by
  obtain ⟨exactly, -, revision⟩ := session_valid valid
  have has (key : String) (listed : key ∈ Records.sessionFields) : required session.fields key = .ok (session.get key) := by
    rw [Json.hasExactly, Bool.and_eq_true, Bool.and_eq_true, List.all_eq_true] at exactly
    exact required_ok (exactly.1.2 key listed)
  rw [attempt, has "task_revision" (by decide), has "recorded_at" (by decide), has "status" (by decide), has "trigger" (by decide)]
  have number : revisionNumber (session.get "task_revision") = .ok (Records.revisionOf session) := by
    rw [revisionNumber, revision]
    rfl
  change (revisionNumber (session.get "task_revision") >>= _) = _
  rw [number]
  rfl

/-- The attempts on a card are one for each session of its task. -/
theorem attempts_returns {task : Meta} {sessions : List Json} (has : task.has "task_revision" = true)
    (revision : ∃ number, (task.get "task_revision").int? = some number)
    (valid : ∀ session ∈ sessions, Records.validateSessionRecord session = .ok ()) :
    ∃ items shown current, attempts task sessions = .ok (items, shown) ∧
      ∀ item, item ∈ items ↔ ∃ session ∈ sessions, attemptOf current session = item := by
  obtain ⟨current, known⟩ := revision
  obtain ⟨ordered, sorted⟩ : ∃ ordered, sessions.insertionSort (fun a b => Records.revisionOf a ≤ Records.revisionOf b) = ordered := ⟨_, rfl⟩
  have member (session : Json) : session ∈ ordered ↔ session ∈ sessions := by rw [← sorted, List.mem_insertionSort]
  have number : revisionNumber (task.get "task_revision") = .ok current := by
    rw [revisionNumber, known]
    rfl
  have made : ordered.mapM (attempt current) = .ok (ordered.map (attemptOf current)) :=
    mapM_ok fun session listed => attempt_ok (valid session ((member session).mp listed)) current
  have found : ∃ shown, attempts task sessions = .ok (ordered.map (attemptOf current), shown) := by
    rw [attempts, required_ok has, sorted]
    change ∃ shown, (revisionNumber (task.get "task_revision") >>= _) = _
    rw [number]
    change ∃ shown, (ordered.mapM (attempt current) >>= _) = _
    rw [made]
    exact ⟨_, rfl⟩
  obtain ⟨shown, found⟩ := found
  refine ⟨_, shown, current, found, fun item => ?_⟩
  simp only [List.mem_map, member]

theorem attempt_contract {taskId : String} {session : Json} {current : Int} :
    valueTimestampErrors taskId "attempt" (attemptOf current session) = .ok [] ↔ isExtended (session.get "recorded_at") = true := by
  rw [valueTimestampErrors_eq_nil]
  simp [attemptOf, Json.has, Json.get, Json.fields, Dict.has, Dict.get, Dict.find]

theorem outcome_returns {task : Meta} {word : String} (has : task.has "status" = true) (status : task.get "status" = .str word) :
    ∃ value, outcome task = .ok value ∧
      (RetryCircuit.oneOf (task.get "status") terminal = true → value.isObj = true ∧ (value.get "status" != task.get "status") = false) ∧
      (RetryCircuit.oneOf (task.get "status") terminal = false → value.isNull = true) := by
  have ended : RetryCircuit.oneOf (.str word) terminal = terminal.contains word := rfl
  rw [outcome, required_ok has, status, ended]
  change ∃ value, (if (!terminal.contains word) = true then _ else _) = _ ∧ _
  cases terminal.contains word with
  | true =>
    have same : (Json.str word != Json.str word) = false := by rw [bne, Json.str_beq_str, beq_self_eq_true, Bool.not_true]
    exact ⟨_, rfl, fun _ => ⟨rfl, same⟩, nofun⟩
  | false => exact ⟨_, rfl, nofun, fun _ => rfl⟩

/-- A card whose outcome and recovery agree with its status keeps to the contract when the times of its attempts do. -/
theorem cardContractErrors_eq_nil {taskId : String} {title priority status revision recovery outcome : Json} {worker session : Dict}
    {dependencies blockers attempts : List Json} (times : valueTimestampErrors taskId "worker" (.obj worker) = .ok [])
    (ended : RetryCircuit.oneOf status terminal = true →
      recovery = .obj [("kind", .str "none")] ∧ outcome.isObj = true ∧ (outcome.get "status" != status) = false)
    (current : RetryCircuit.oneOf status terminal = false → outcome.isNull = true) :
    cardContractErrors (.obj [("id", .str taskId), ("title", title), ("priority", priority), ("status", status), ("revision", revision),
      ("worker", .obj worker), ("dependencies", .arr dependencies), ("blockers", .arr blockers), ("attempts", .arr attempts),
      ("session", .obj session), ("recovery", recovery), ("outcome", outcome)]) = .ok [] ↔
      ∀ attempt ∈ attempts, attempt.isObj = true → valueTimestampErrors taskId "attempt" attempt = .ok [] := by
  obtain ⟨shown, same⟩ : ∃ shown, Json.obj [("id", .str taskId), ("title", title), ("priority", priority), ("status", status),
      ("revision", revision), ("worker", .obj worker), ("dependencies", .arr dependencies), ("blockers", .arr blockers),
      ("attempts", .arr attempts), ("session", .obj session), ("recovery", recovery), ("outcome", outcome)] = shown := ⟨_, rfl⟩
  have contract : cardContractErrors shown = (do
      let times ← cardTimestampErrors taskId shown
      pure (terminalContractErrors taskId shown ++ times)) := same ▸ rfl
  have worker_ : shown.get "worker" = .obj worker := same ▸ rfl
  have attempts_ : (shown.get "attempts").items = attempts := same ▸ rfl
  have status_ : shown.get "status" = status := same ▸ rfl
  have recovery_ : shown.get "recovery" = recovery := same ▸ rfl
  have outcome_ : shown.get "outcome" = outcome := same ▸ rfl
  have terminal_ : terminalContractErrors taskId shown = [] := by
    rw [terminalContractErrors, status_, outcome_, recovery_]
    cases isOver : RetryCircuit.oneOf status terminal with
    | true =>
      obtain ⟨rfl, object, same_⟩ := ended isOver
      rw [object, same_]
      rfl
    | false =>
      rw [current isOver]
      rfl
  rw [same, contract, terminal_]
  simp only [List.nil_append, bind_pure, cardTimestampErrors_eq_nil, worker_, attempts_, times, imp_true_iff, true_and]

/-- A card is made and keeps to the contract when all the times that it copies are extended. -/
theorem card_returns {sessions : List Json} {observedAt : Int} (projected : Projected files tasks) (member : task ∈ tasks)
    (valid : ∀ session ∈ sessions, Records.validateSessionRecord session = .ok ()) :
    (∃ shown, card tasks sessions observedAt task = .ok shown ∧ cardContractErrors shown = .ok []) ↔
      (∀ value ∈ workerTimes task.fields ++ reservationTimes task.fields, isExtended value = true) ∧
        ∀ session ∈ sessions.filter (ofTask (idOf task)), isExtended (session.get "recorded_at") = true := by
  have own : Valid files true task.fields := basicTaskErrors_eq_nil.mp (projected.members task member)
  obtain ⟨items, listed⟩ := dependencies_returns projected.graph member
  obtain ⟨number, revision, -, -⟩ := own.revision_pos
  obtain ⟨tried, session, current, attempted, among⟩ := attempts_returns (own.required "task_revision" (by decide)) ⟨number, revision⟩
    (fun session inside => valid session (List.mem_of_mem_filter inside) : ∀ session ∈ sessions.filter (ofTask (idOf task)), _)
  obtain ⟨word, status, -⟩ := own.status_mem
  obtain ⟨ending, ended, isOver, open_⟩ := outcome_returns (own.required "status" (by decide)) status
  have worked : (∃ shown, worker task.fields observedAt = .ok shown) ↔ _ := worker_returns
  have reserved : (∃ shown, reservation task.fields observedAt = .ok shown) ↔ _ := reservation_returns
    (own.value (show Dict.Check.ofValue "execution_reservation" (absentOr ExecutionEnvelope.validReservation) ∈ _ by simp [checks]))
  rw [List.forall_mem_append, ← worked, ← reserved]
  have made (shown : Json) : card tasks sessions observedAt task = .ok shown ↔ ∃ worker_ blockers_ advice,
      worker task.fields observedAt = .ok worker_ ∧ blockers task.fields items observedAt = .ok blockers_ ∧
        recovery task.fields worker_ session observedAt = .ok advice ∧
        .obj [("id", .str (idOf task)), ("title", task.fields.get "title"), ("priority", task.fields.get "priority"),
          ("status", task.fields.get "status"), ("revision", task.fields.get "task_revision"), ("worker", .obj worker_),
          ("dependencies", .arr (items.map cardDependency)), ("blockers", .arr (blockers_.map .obj)), ("attempts", .arr tried),
          ("session", .obj session), ("recovery", advice), ("outcome", ending)] = shown := by
    simp only [card, listed, attempted, ended, required_ok (own.required "title" (by decide)),
      required_ok (own.required "priority" (by decide)), required_ok (own.required "status" (by decide)),
      required_ok (own.required "task_revision" (by decide)), ok_bind, bind_eq_ok, pure_eq_ok]
    constructor
    · rintro ⟨worker_, worked, blockers_, blocked, advice, advised, rfl⟩
      exact ⟨worker_, blockers_, advice, worked, blocked, advised, rfl⟩
    · rintro ⟨worker_, blockers_, advice, worked, blocked, advised, rfl⟩
      exact ⟨worker_, worked, blockers_, blocked, advice, advised, rfl⟩
  constructor
  · rintro ⟨_, shown, kept⟩
    obtain ⟨worker_, blockers_, advice, worked, blocked, advised, rfl⟩ := (made _).mp shown
    have read := (blockers_returns own.circuit items).mp ⟨blockers_, blocked⟩
    have idle : RetryCircuit.oneOf (task.fields.get "status") terminal = true → advice = .obj [("kind", .str "none")] := by
      obtain ⟨other, again, idle⟩ := @recovery_returns _ _ worker_ session read
      rw [advised, Except.ok.injEq] at again
      rw [again]
      exact idle
    rw [cardContractErrors_eq_nil (worker_contract worked _) (fun done => ⟨idle done, isOver done⟩) open_] at kept
    refine ⟨⟨⟨worker_, worked⟩, read⟩, fun session inside => ?_⟩
    exact attempt_contract.mp (kept _ ((among _).mpr ⟨session, inside, rfl⟩) rfl)
  · rintro ⟨⟨⟨worker_, worked⟩, read⟩, times⟩
    obtain ⟨blockers_, blocked⟩ := (blockers_returns own.circuit items).mpr read
    obtain ⟨advice, advised, idle⟩ := @recovery_returns _ _ worker_ session read
    refine ⟨_, (made _).mpr ⟨worker_, blockers_, advice, worked, blocked, advised, rfl⟩, ?_⟩
    rw [cardContractErrors_eq_nil (worker_contract worked _) (fun done => ⟨idle done, isOver done⟩) open_]
    intro item inside _
    obtain ⟨session, member, rfl⟩ := (among item).mp inside
    exact attempt_contract.mpr (times session member)

end members

section stamps
open Datetime

theorem readTwo_digits {n low high : Nat} (bound : n < 100) (inside : low ≤ n ∧ n ≤ high) (rest : List Char) :
    readTwo low high (digitChar (n / 10) :: digitChar n :: rest) = some rest := by
  rw [readTwo, readDigits_two n bound rest]
  simp [inside]

/-- The time of an observation is written in the extended form. -/
theorem isTimestamp_isoformat {d : Datetime} (utc : d.offset = some 0) (whole : d.wall % second = 0) (bound : d.wall < limit) :
    isTimestamp (isoformat d) = true := by
  have positive : 0 < d.wall / day + 1 := Nat.succ_pos _
  have ordinalBound : d.wall / day + 1 ≤ 3652059 := by
    unfold limit at bound
    exact Nat.div_lt_of_lt_mul (by rw [Nat.mul_comm]; exact bound)
  obtain ⟨-, monthPos, monthLe, dayPos, dayLe, -⟩ := Calendar.ofOrdinal_spec _ positive
  have yearLe := ofOrdinal_year_le _ positive ordinalBound
  have wholeTime : d.wall % day % second = 0 := by
    rw [day, Nat.mod_mul_left_mod]
    exact whole
  have exact_ : fraction (d.wall % day % second) = [] := by simp [fraction, wholeTime]
  have timeBound : d.wall % day < day := Nat.mod_lt _ (by decide)
  have hh : d.wall % day / (3600 * second) ≤ 23 := by
    unfold day second at *
    omega
  have hm : d.wall % day / (60 * second) % 60 ≤ 59 := Nat.le_of_lt_succ (Nat.mod_lt _ (by decide))
  have hs : d.wall % day / second % 60 ≤ 59 := Nat.le_of_lt_succ (Nat.mod_lt _ (by decide))
  unfold isoformat
  simp only [utc, exact_, List.append_nil]
  generalize Calendar.ofOrdinal (d.wall / day + 1) = date at *
  obtain ⟨year, month, dayOfMonth⟩ := date
  simp only at *
  have dayBound := le_trans dayLe (daysInMonth_le year month)
  have stripped (c : Char) (rest : List Char) : Text.stripPrefix? [c] (c :: rest) = some rest := by
    simp [Text.stripPrefix?]
  have zone : readFraction (offsetText 0) = true := by decide
  unfold isTimestamp
  simp only [String.toList_ofList, digits_four, digits_two, List.cons_append, List.nil_append]
  have yearRead := readDigits_four year (by omega)
  simp only [yearRead, Option.bind_eq_bind, Option.bind_some, stripped, readTwo_digits (show month < 100 by omega) ⟨monthPos, monthLe⟩,
    readTwo_digits (show dayOfMonth < 100 by omega) ⟨dayPos, dayBound⟩, readTwo_digits (Nat.lt_of_le_of_lt hh (by decide)) ⟨Nat.zero_le _, hh⟩,
    readTwo_digits (Nat.lt_of_le_of_lt hm (by decide)) ⟨Nat.zero_le _, hm⟩, readTwo_digits (Nat.lt_of_le_of_lt hs (by decide)) ⟨Nat.zero_le _, hs⟩,
    Option.any_some, zone]

theorem isExtended_stamp (clock : Kit.Clock) : isExtended (.str clock.stamp) = true := by
  have whole : clock.stampTime.wall % second = 0 := wholeSeconds_mod _
  have bound : clock.stampTime.wall < limit := Nat.lt_of_le_of_lt (wholeSeconds_le _) clock.inRange
  have utc : clock.stampTime.offset = some 0 := rfl
  simp only [isExtended, Json.isStr, Json.text, Kit.Clock.stamp, isTimestamp_isoformat utc whole bound,
    aware_isoformat clock.stampTime utc whole bound, Bool.and_self]
  rfl

end stamps

section projection

variable {files : Files} {privateTextErrors : String → String → List String} {tasks : List Task} {sessions : List Json}

theorem taskProjectionErrors_eq_nil {revisions : List (String × Int)} (clean : (taskProjectionErrors files privateTextErrors tasks revisions).1 = []) :
    (∀ task ∈ tasks, basicTaskErrors files task.path task.fields true = []) ∧
      ∀ taskId ∈ (taskProjectionErrors files privateTextErrors tasks revisions).2.map Prod.fst,
        taskId ∈ revisions.map Prod.fst ∨ taskId ∈ tasks.map projectedId := by
  induction tasks generalizing revisions with
  | nil => exact ⟨List.forall_mem_nil _, fun taskId listed => .inl listed⟩
  | cons task rest ih =>
    cases known : (task.fields.get "task_revision").exactInt? with
    | none =>
      simp only [taskProjectionErrors, known, List.append_eq_nil_iff] at clean ⊢
      obtain ⟨⟨⟨own, -⟩, -⟩, others⟩ := clean
      obtain ⟨members, listed⟩ := ih others
      refine ⟨List.forall_mem_cons.mpr ⟨own, members⟩, fun taskId inside => ?_⟩
      exact (listed taskId inside).imp_right (List.mem_cons_of_mem _)
    | some revision =>
      simp only [taskProjectionErrors, known, List.append_eq_nil_iff] at clean ⊢
      obtain ⟨⟨⟨⟨own, -⟩, -⟩, -⟩, others⟩ := clean
      obtain ⟨members, listed⟩ := ih others
      refine ⟨List.forall_mem_cons.mpr ⟨own, members⟩, fun taskId inside => ?_⟩
      obtain first | later := listed taskId inside
      · obtain rfl | before := List.mem_cons.mp first
        · exact .inr List.mem_cons_self
        · exact .inl before
      · exact .inr (List.mem_cons_of_mem _ later)

theorem sessionProjectionErrors_eq_nil {revisions seen : List (String × Int)}
    (clean : sessionProjectionErrors privateTextErrors tasks revisions sessions seen = []) :
    ∀ session ∈ sessions, Records.validateSessionRecord session = .ok () ∧ (session.get "task").toText ∈ revisions.map Prod.fst := by
  induction sessions generalizing seen with
  | nil => exact List.forall_mem_nil _
  | cons session rest ih =>
    rw [sessionProjectionErrors] at clean
    cases checked : Records.validateSessionRecord session with
    | error fault =>
      rw [checked] at clean
      cases clean
    | ok u =>
      simp only [checked, List.append_eq_nil_iff] at clean
      obtain ⟨⟨⟨⟨-, observed⟩, -⟩, -⟩, others⟩ := clean
      refine List.forall_mem_cons.mpr ⟨⟨checked, ?_⟩, ih others⟩
      cases found : revisions.lookup (session.get "task").toText with
      | none =>
        rw [found] at observed
        cases observed
      | some current =>
        obtain ⟨before, after, same, -⟩ := List.lookup_eq_some_iff.mp found
        rw [same]
        exact List.mem_map_of_mem (List.mem_append_right before List.mem_cons_self)

/-- What clean authority is: checked tasks, and checked sessions of these. -/
theorem projectionErrors_eq_nil (clean : projectionErrors files privateTextErrors tasks sessions = []) : Projected files tasks ∧
    ∀ session ∈ sessions, Records.validateSessionRecord session = .ok () ∧ ∃ task ∈ tasks, idOf task = (session.get "task").toText := by
  simp only [projectionErrors, TaskSpec.sorted_eq_nil, List.append_eq_nil_iff] at clean
  obtain ⟨⟨⟨⟨own, observed⟩, graph⟩, hierarchy⟩, supersession⟩ := clean
  obtain ⟨members, listed⟩ := taskProjectionErrors_eq_nil own
  refine ⟨⟨members, graph, hierarchy, supersession⟩, fun session inside => ?_⟩
  obtain ⟨valid, known⟩ := sessionProjectionErrors_eq_nil observed session inside
  obtain never | named := listed _ known
  · cases never
  · obtain ⟨task, member, same⟩ := List.mem_map.mp named
    have has : task.fields.has "id" = true := (basicTaskErrors_eq_nil.mp (members task member)).required "id" (by decide)
    rw [projectedId, if_pos has] at same
    exact ⟨valid, task, member, same⟩

/-- The times of the authority that a projection copies. -/
def copiedTimes (tasks : List Task) (sessions : List Json) : List Json :=
  tasks.flatMap (fun task => workerTimes task.fields ++ reservationTimes task.fields) ++ sessions.map (·.get "recorded_at")

theorem command_returns {asJson : Bool} {observed : Clock} : (∃ shown, command tasks sessions asJson observed = .ok shown) ↔
    ∃ campaign, build tasks sessions observed = .ok campaign ∧ projectionContractErrors campaign = .ok [] := by
  simp only [command, bind_eq_ok, raiseIf_eq_ok, exists_unit, pure_eq_ok, Bool.not_eq_false', List.isEmpty_iff]
  constructor
  · rintro ⟨_, campaign, built, errors, checked, rfl, -⟩
    exact ⟨campaign, built, checked⟩
  · rintro ⟨campaign, built, checked⟩
    exact ⟨_, campaign, built, [], checked, rfl, rfl⟩

/-- A projection is built and keeps to the contract when the cards do. -/
theorem build_returns {observed : Clock} (projected : Projected files tasks)
    (valid : ∀ session ∈ sessions, Records.validateSessionRecord session = .ok ()) :
    (∃ campaign, build tasks sessions observed = .ok campaign ∧ projectionContractErrors campaign = .ok []) ↔
      ∀ task ∈ tasks, ∃ shown, card tasks sessions observed.stampTime.wall task = .ok shown ∧ cardContractErrors shown = .ok [] := by
  have ids : tasks.mapM (fun task => required task.fields "id") = .ok (tasks.map fun task => task.fields.get "id") :=
    mapM_ok fun task member => required_ok ((basicTaskErrors_eq_nil.mp (projected.members task member)).required "id" (by decide))
  have named : sessions.mapM (fun session => required session.fields "task") = .ok (sessions.map fun session => session.fields.get "task") := by
    refine mapM_ok fun session member => required_ok ?_
    obtain ⟨exactly, -⟩ := session_valid (valid session member)
    rw [Json.hasExactly, Bool.and_eq_true, Bool.and_eq_true, List.all_eq_true] at exactly
    exact exactly.1.2 "task" (by decide)
  have contract (cards : List Json) : projectionContractErrors (.obj [("schema_version", .int 1), ("observed_at", .str observed.stamp),
      ("tasks", .arr cards), ("summary", summary cards sessions)]) = .ok [] ↔ ∀ shown ∈ cards, cardContractErrors shown = .ok [] := by
    change (timestampErrors (.str observed.stamp) "observed_at" >>= fun found => cards.mapM cardContractErrors >>= fun others =>
      pure (found ++ others.flatten)) = .ok [] ↔ _
    rw [timestampErrors_eq_nil.mpr (isExtended_stamp observed)]
    simp only [ok_bind, List.nil_append, bind_eq_ok, pure_eq_ok, Access.mapM_flatten_eq_nil]
  simp only [build, ids, named, ok_bind, bind_eq_ok, pure_eq_ok]
  rw [← forall_congr' fun task => imp_congr_left (mem_carded projected.graph), ← Access.mapM_returns_all]
  constructor
  · rintro ⟨_, ⟨cards, made, rfl⟩, kept⟩
    exact ⟨cards, made, (contract cards).mp kept⟩
  · rintro ⟨cards, made, kept⟩
    exact ⟨_, ⟨cards, made, rfl⟩, (contract cards).mpr kept⟩

/-- On authority that passes its checks, the command answers with a projection exactly when each time that it copies is
in the extended form of a time in the calendar of UTC. -/
theorem projection_returns_iff {asJson : Bool} {observed : Clock} (clean : projectionErrors files privateTextErrors tasks sessions = []) :
    (∃ shown, command tasks sessions asJson observed = .ok shown) ↔ ∀ value ∈ copiedTimes tasks sessions, isExtended value = true := by
  obtain ⟨projected, observations⟩ := projectionErrors_eq_nil clean
  have valid : ∀ session ∈ sessions, Records.validateSessionRecord session = .ok () := fun session member => (observations session member).1
  rw [command_returns, build_returns projected valid, copiedTimes, List.forall_mem_append, List.forall_mem_flatMap, List.forall_mem_map]
  constructor
  · intro each
    refine ⟨fun task member => ((card_returns projected member valid).mp (each task member)).1, fun session inside => ?_⟩
    obtain ⟨-, task, member, same⟩ := observations session inside
    refine ((card_returns projected member valid).mp (each task member)).2 session (List.mem_filter.mpr ⟨inside, ?_⟩)
    exact beq_iff_eq.mpr same.symm
  · rintro ⟨own, times⟩ task member
    refine (card_returns projected member valid).mpr ⟨own task member, fun session inside => ?_⟩
    exact times session (List.mem_of_mem_filter inside)

end projection

def claimedTask (expires : String) : Task := ⟨"AR-0001.md", sampleTask "AR-0001" "in_progress" "worker" expires 4, "Body.\n"⟩

def sampleSession (recordedAt : String) : Json :=
  .obj [("schema_version", .int 1), ("task", .str "AR-0001"), ("task_revision", .int 4), ("recorded_at", .str recordedAt),
    ("trigger", .str "update"), ("status", .str "in_progress"), ("context_digest", .str sampleDigest),
    ("step_state", .obj [("status", .str "in_progress"), ("task_revision", .int 4)]), ("artifact_refs", .arr []),
    ("next_action", .str "Continue.")]

theorem claimed_projected : ∃ shown, command [claimedTask "2026-01-04T00:00:00+00:00"] [sampleSession "2026-01-03T00:00:00Z"] true
    sampleWorld.clock = .ok shown := by
  have clean : (projectionErrors sampleFiles (fun _ _ => []) [claimedTask "2026-01-04T00:00:00+00:00"]
    [sampleSession "2026-01-03T00:00:00Z"]).isEmpty = true := by decide +kernel
  exact (projection_returns_iff (List.isEmpty_iff.mp clean)).mpr (by decide +kernel)

/-- A claim expiry with a space before the time passes all checks, and there is no projection. -/
theorem spaced_expiry_refused :
    projectionErrors sampleFiles (fun _ _ => []) [claimedTask "2026-01-04 00:00:00+00:00"] [] = [] ∧
      claimErrors sampleWorld (claimedTask "2026-01-04 00:00:00+00:00").fields = [] ∧
      command [claimedTask "2026-01-04 00:00:00+00:00"] [] true sampleWorld.clock = .error (.error "claim_expires is not a timestamp") := by
  have clean : (projectionErrors sampleFiles (fun _ _ => []) [claimedTask "2026-01-04 00:00:00+00:00"] []).isEmpty = true := by
    decide +kernel
  have claim : (claimErrors sampleWorld (claimedTask "2026-01-04 00:00:00+00:00").fields).isEmpty = true := by decide +kernel
  exact ⟨List.isEmpty_iff.mp clean, List.isEmpty_iff.mp claim, rfl⟩

end Coordinator.Campaign
