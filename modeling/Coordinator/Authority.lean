import Coordinator.Transitions

/-! The two authorities over the task store. The Git authority writes a task file and validates
the repository; the SQLite authority swaps one row in a transaction under the constraints of its
schema. Either also synchronizes observed worktrees into the tasks that are bound to them. -/

namespace Coordinator.Authority
open Kit TaskGraph TaskValidation Transitions

/-- A row of the journal of mutations that the SQLite authority keeps. -/
structure EventRow where
  task : String
  revision : Int
  kind : String
  recordedAt : String
  note : String

structure Store where
  tasks : List Task
  /-- Session records of each task, oldest first. -/
  sessions : String → List Json
  /-- Checkpoint records of each task, oldest first. -/
  checkpoints : String → List Json
  events : List EventRow

def locate (store : Store) (name : String) : Outcome Task :=
  orRaise (store.tasks.find? (fun task => task.fields.get "id" == .str name)) (fail ("unknown task " ++ name))

def contextOf (files : Files) (world : Moment) (store : Store) (name : String) : Context :=
  { files := files, world := world, name := name, tasks := store.tasks, sessions := store.sessions name,
    checkpoints := store.checkpoints name }

/-- The metadata at its next revision. -/
def advanced (task : Meta) (at_ : String) : Meta :=
  (task.set "task_revision" (.int (Meta.revision task + 1))).set "updated_at" (.str at_)

/-- A body with the note of a change at its end. -/
def transitionNote (body note at_ : String) : String :=
  if note = "" then body else body ++ "\n" ++ Text.fill 100 "- " "  " (at_ ++ ": " ++ note) ++ "\n"

/-- The journal with one history replaced. -/
def recordFor (journal : String → List Json) (name : String) (history : List Json) : String → List Json :=
  fun other => if other = name then history else journal other

/-- How an authority extends one history by a record. -/
abbrev Extend := List Json → Json → Outcome (List Json)

/-- The session journal after a mutation that leaves a record, unchanged after any other. -/
def withSession (extend : Extend) (store : Store) (m : Mutation) (task : Meta) (at_ : String) :
    Outcome (String → List Json) :=
  match m.sessionTrigger with
  | none => pure store.sessions
  | some trigger => do
      let record ← Records.buildSessionRecord task trigger at_
      let history ← extend (store.sessions (taskText task)) record
      pure (recordFor store.sessions (taskText task) history)

/-- The checkpoint journal after a mutation, which only a checkpoint extends. -/
def withCheckpoint (extend : Extend) (store : Store) (m : Mutation) (task : Meta) (body at_ : String) :
    Outcome (String → List Json) :=
  match m with
  | .checkpoint _ _ sourceCommit => do
      let record ← Records.buildCheckpoint task body sourceCommit at_
      let history ← extend (store.checkpoints (taskText task)) record
      pure (recordFor store.checkpoints (taskText task) history)
  | _ => pure store.checkpoints

/-- The task set with the member under a path replaced. -/
def rewritten (tasks : List Task) (task : Task) : List Task :=
  tasks.map (fun other => if other.path = task.path then task else other)

def joinErrors (errors : List String) : Fault := fail (Text.joined "\n" errors)

/-! The Git authority. -/

def requirePromotionPreflight (world : Moment) (m : Mutation) : Outcome Unit :=
  if ["promote", "resume", "unblock"].contains m.kind then raiseSome world.promotionBlocked else pure ()

/-- What a mutation would write: the target at its next revision with its note. -/
def proposed (files : Files) (world : Moment) (store : Store) (target : Task) (name : String) (m : Mutation) :
    Outcome Task := do
  let (task, note) ← applyTransition (contextOf files world store name) target.fields m
  let task := advanced task world.now
  pure { target with fields := task, body := transitionNote target.body note world.now }

/-- Validate a proposal as the Git authority does and install it. -/
def persistGit (files : Files) (world : Moment) (store : Store) (target written : Task) (m : Mutation) :
    Outcome Store := do
  let sessions ← withSession Records.appendSessionRecord store m written.fields world.now
  let checkpoints ← withCheckpoint Records.appendCheckpoint store m written.fields target.body world.now
  let tasks := rewritten store.tasks written
  raiseIf ((tasks.filter (fun task => task.path == written.path)).length != 1)
    (fail (written.path ++ ": mutation target is not unique"))
  let errors := mutationErrors files world tasks written.path written.fields m.includeLedger
  raiseIf (!errors.isEmpty) (joinErrors errors)
  raiseSome world.publicationFails
  pure { store with tasks := tasks, sessions := sessions, checkpoints := checkpoints }

def gitMutate (files : Files) (world : Moment) (store : Store) (name : String) (m : Mutation) : Outcome Store := do
  let target ← locate store name
  requirePromotionPreflight world m
  let written ← proposed files world store target name m
  persistGit files world store target written m

/-! The SQLite authority. -/

/-- The text that a strict text column holds for a field; null and containers are refused. -/
def textColumn (task : Meta) (key : String) : Option String :=
  match task.find key with
  | none => some ""
  | some (.str word) => some word
  | some (.int number) => some (toString number)
  | some (.bool flag) => some (if flag then "1" else "0")
  | some (.float mantissa exponent) => some (Json.floatText mantissa exponent)
  | some _ => none

/-- The row of a task meets the types and checks of its table. -/
def rowValid (task : Meta) : Bool :=
  match textColumn task "status", textColumn task "owner", textColumn task "claim_expires" with
  | some status, some owner, some expires =>
      (textColumn task "branch").isSome && (textColumn task "worktree_key").isSome &&
        1 ≤ Meta.revision task && statuses.contains status &&
        (if status = "in_progress" then owner != "" && expires != "" else owner == "" && expires == "")
  | _, _, _ => false

/-- Another active row holds the same nonempty key. -/
def activeKeyTaken (tasks : List Task) (name : String) (task : Meta) (field : String) : Bool :=
  isActive task && textColumn task field != some "" &&
    tasks.any (fun other => other.fields.get "id" != .str name && isActive other.fields &&
      textColumn other.fields field == textColumn task field)

/-- The dependency rows of a task are distinct, known and not the task itself. -/
def dependencyRowsValid (tasks : List Task) (name : String) (task : Meta) : Bool :=
  (dependenciesOf task).isArr && (dependenciesOf task).items.all (fun item => item.isStr &&
    tasks.any (fun other => other.fields.get "id" == item) && item != .str name) &&
    RetryCircuit.distinct (dependenciesOf task).items

/-- The checks and partial unique indexes of the schema accept the row of a task. -/
def schemaAccepts (tasks : List Task) (name : String) (task : Meta) : Bool :=
  rowValid task && activeFields.all (fun field => !activeKeyTaken tasks name task field) &&
    dependencyRowsValid tasks name task

/-- What a call fixes from the snapshot that it loads before its transaction. -/
structure Prepared where
  path : String
  body : String
  expected : Int
  at_ : String

/-- Rollback and receipts belong to the Git authority. -/
def requireSqliteAuthority : Mutation → Outcome Unit
  | .rollback _ => throw (fail "rollback currently requires the Git authority backend")
  | .claim request => raiseIf request.receiptRevision.isSome (fail "fast receipts require Git authority")
  | _ => pure ()

def prepare (world : Moment) (snapshot : Store) (name : String) (m : Mutation) : Outcome Prepared := do
  requireSqliteAuthority m
  let selected ← locate snapshot name
  pure { path := selected.path, body := selected.body, at_ := world.now,
         expected := m.expectedRevision.getD (Meta.revision selected.fields) }

/-- The task set with other metadata under an identifier. -/
def withFields (tasks : List Task) (name : String) (task : Meta) : List Task :=
  tasks.map (fun other => if other.fields.get "id" == .str name then { other with fields := task } else other)

/-- The task set with the row of an identifier written anew. -/
def updatedRow (tasks : List Task) (name : String) (task : Meta) (body : String) : List Task :=
  tasks.map (fun other =>
    if other.fields.get "id" == .str name then { other with fields := task, body := body } else other)

/-- The errors of a transition, on the projection of the task to its next revision. -/
def transitionErrors (files : Files) (tasks : List Task) (path name : String) (task : Meta) (m : Mutation) :
    List String :=
  let validated := AutonomyLimits.nextRevisionProjection task
  let candidate := withFields tasks name validated
  basicTaskErrors files path validated m.includeLedger ++ graphErrors candidate ++ hierarchyErrors candidate ++
    supersessionErrors candidate

/-- Validate a transition as the SQLite authority does and write its rows. -/
def persistSqlite (files : Files) (world : Moment) (call : Prepared) (store : Store) (name : String) (task : Meta)
    (note : String) (m : Mutation) : Outcome Store := do
  let errors := transitionErrors files store.tasks call.path name task m
  raiseIf (!errors.isEmpty) (joinErrors ("transition validation failed:" :: errors))
  let written := advanced task call.at_
  let checkpoints ← withCheckpoint Records.insertCheckpoint store m written call.body call.at_
  raiseIf (!schemaAccepts store.tasks name written) (fail "SQLITE_CONSTRAINT: task row violates the schema")
  let sessions ← withSession Records.insertSessionRecord store m written call.at_
  raiseSome world.publicationFails
  pure { tasks := updatedRow store.tasks name written (transitionNote call.body note call.at_)
         sessions := sessions
         checkpoints := checkpoints
         events := store.events ++
           [{ task := name, revision := Meta.revision written, kind := m.kind, recordedAt := call.at_,
              note := note }] }

/-- The transaction of a call: compare the revision, apply the transition and write. -/
def commitPrepared (files : Files) (world : Moment) (call : Prepared) (store : Store) (name : String) (m : Mutation) :
    Outcome Store := do
  let target ← locate store name
  raiseIf (Meta.revision target.fields != call.expected) (staleRevision call.expected target.fields)
  let (task, note) ← applyTransition (contextOf files world store name) target.fields m
  persistSqlite files world call store name task note m

def sqliteMutate (files : Files) (world : Moment) (store : Store) (name : String) (m : Mutation) : Outcome Store := do
  let call ← prepare world store name m
  commitPrepared files world call store name m

/-! Observation of bound worktrees. -/

structure Observation where
  key : String
  branch : String
  head : String
  dirty : Int

def Observation.values (seen : Observation) : Dict :=
  [("observed_branch", .str seen.branch), ("observed_head", .str seen.head), ("observed_dirty", .int seen.dirty)]

/-- The observation under a key, the last one under a repeated key. -/
def observationOf (observations : List Observation) (key : String) : Option Observation :=
  if key = "" then none else observations.reverse.find? (fun seen => seen.key == key)

def Observation.differs (seen : Observation) (task : Meta) : Bool :=
  seen.values.any (fun entry => task.get entry.1 != entry.2)

def observed (seen : Observation) (task : Meta) (at_ : String) : Meta := advanced (task.update seen.values) at_

/-- One task with the observation under its key. -/
def syncTask (observations : List Observation) (at_ : String) (key : String) (task : Task) : Task :=
  match observationOf observations key with
  | some seen => if seen.differs task.fields then { task with fields := observed seen task.fields at_ } else task
  | none => task

/-- The Git authority takes the key itself. -/
def syncTaskObservations (observations : List Observation) (at_ : String) (tasks : List Task) : List Task :=
  tasks.map (fun task => syncTask observations at_ (task.fields.get "worktree_key").text task)

/-- The SQLite authority takes the text of the key. -/
def updateObservations (observations : List Observation) (at_ : String) (tasks : List Task) : List Task :=
  tasks.map (fun task => syncTask observations at_ (task.fields.textOr "worktree_key") task)

/-- The errors of one task within the whole set. -/
def memberErrors (files : Files) (world : Moment) (task : Task) : List String :=
  basicTaskErrors files task.path task.fields true ++ claimErrors world task.fields

/-- Validation of the whole repository. -/
def validate (files : Files) (world : Moment) (store : Store) : List String :=
  store.tasks.flatMap (memberErrors files world) ++ mutationGlobalErrors store.tasks ++
    errorIf (store.tasks.any (fun task => !allowed (do
      let history ← pure (store.checkpoints (idOf task))
      history.forM Records.validateCheckpoint))) "checkpoint validation failed" ++
    errorIf (store.tasks.any (fun task => !Records.historyValid (idOf task) (store.sessions (idOf task))))
      "session validation failed"

/-- Reconciliation in the Git authority: what it observes stands only in a valid repository. -/
def gitObserve (files : Files) (world : Moment) (store : Store) (observations : List Observation) : Outcome Store := do
  let store := { store with tasks := syncTaskObservations observations world.now store.tasks }
  let errors := validate files world store
  raiseIf (!errors.isEmpty) (joinErrors ("validation failed:" :: errors))
  raiseSome world.publicationFails
  pure store

def observationEvents (before after : List Task) (at_ : String) : List EventRow :=
  ((before.zip after).filter (fun pair => Meta.revision pair.1.fields != Meta.revision pair.2.fields)).map
    (fun pair => ⟨idOf pair.2, Meta.revision pair.2.fields, "reconcile", at_, "Recorded live worktree state."⟩)

/-- Reconciliation in the SQLite authority, one transaction without validation. -/
def sqliteObserve (world : Moment) (store : Store) (observations : List Observation) : Outcome Store := do
  let tasks := updateObservations observations world.now store.tasks
  raiseSome world.publicationFails
  pure { store with tasks := tasks, events := store.events ++ observationEvents store.tasks tasks world.now }

/-! Runs of events under one authority. -/

inductive Backend where
  | git
  | sqlite
  deriving DecidableEq

inductive Event where
  | mutation (world : Moment) (name : String) (m : Mutation)
  | observation (world : Moment) (observations : List Observation)

def mutate (files : Files) (backend : Backend) (world : Moment) (store : Store) (name : String) (m : Mutation) :
    Outcome Store :=
  match backend with
  | .git => gitMutate files world store name m
  | .sqlite => sqliteMutate files world store name m

def attempt (files : Files) (backend : Backend) (store : Store) : Event → Outcome Store
  | .mutation world name m => mutate files backend world store name m
  | .observation world observations =>
      match backend with
      | .git => gitObserve files world store observations
      | .sqlite => sqliteObserve world store observations

/-- A rejected event leaves the store as it was. -/
def step (files : Files) (backend : Backend) (store : Store) (event : Event) : Store :=
  match attempt files backend store event with
  | .ok after => after
  | .error _ => store

end Coordinator.Authority
