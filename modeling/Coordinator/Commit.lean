import Coordinator.Effects
import Coordinator.ObservationSync

/-! What an accepted mutation commits. Both authorities replace one task, found under its name, by
what its handler returns at the next revision, with the note of the change at the end of its body. -/

namespace Coordinator.Authority
open Kit Dict TaskGraph TaskValidation Transitions

/-- Tasks with different paths and different identifiers. -/
structure Distinct (tasks : List Task) : Prop where
  paths : (tasks.map (·.path)).Nodup
  ids : (tasks.map idOf).Nodup

theorem nodup_map_unique {α β : Type} {f : α → β} {values : List α} (nodup : (values.map f).Nodup) {a b : α}
    (first : a ∈ values) (second : b ∈ values) (same : f a = f b) : a = b :=
  List.inj_on_of_nodup_map nodup first second same

theorem identities_ids {tasks : List Task} (clean : identitiesErrors [] tasks = []) : (tasks.map idOf).Nodup := by
  rw [List.Nodup, List.pairwise_map]
  exact (identitiesErrors_eq_nil.mp clean).2.imp fun apart => apart.names

theorem ValidTasks.distinct {files : Files} {tasks : List Task} (valid : ValidTasks files tasks) : Distinct tasks := by
  refine ⟨valid.paths, identities_ids ?_⟩
  have relations := valid.relations
  simp only [mutationGlobalErrors, List.append_eq_nil_iff] at relations
  exact relations.1.1.1

section rewriting

variable {tasks : List Task} {task target : Task}

theorem mem_rewritten {other : Task} (member : other ∈ rewritten tasks task) :
    other = task ∨ (other ∈ tasks ∧ other.path ≠ task.path) := by
  obtain ⟨old, present, same⟩ := List.mem_map.mp member
  by_cases here : old.path = task.path
  · rw [if_pos here] at same
    exact Or.inl same.symm
  · rw [if_neg here] at same
    exact Or.inr ⟨same ▸ present, same ▸ here⟩

theorem rewritten_mem (present : target ∈ tasks) (same : task.path = target.path) : task ∈ rewritten tasks task :=
  List.mem_map.mpr ⟨target, present, if_pos same.symm⟩

theorem mem_rewritten_of_ne {other : Task} (member : other ∈ tasks) (apart : other.path ≠ task.path) :
    other ∈ rewritten tasks task := List.mem_map.mpr ⟨other, member, if_neg apart⟩

theorem rewritten_rewritten {first : Task} (same : first.path = task.path) :
    rewritten (rewritten tasks first) task = rewritten tasks task := by
  rw [rewritten, rewritten, rewritten, List.map_map]
  refine List.map_congr_left fun other _ => ?_
  by_cases here : other.path = task.path
  · simp [here, same]
  · simp [here, same]

theorem rewritten_paths (tasks : List Task) (task : Task) :
    (rewritten tasks task).map (·.path) = tasks.map (·.path) := by
  rw [rewritten, List.map_map]
  refine List.map_congr_left fun other _ => ?_
  by_cases here : other.path = task.path
  · simp [here]
  · simp [here]

/-- A replacement that keeps path and identifier changes neither list. -/
theorem rewritten_ids (distinct : Distinct tasks) (present : target ∈ tasks) (path : task.path = target.path)
    (name : idOf task = idOf target) : (rewritten tasks task).map idOf = tasks.map idOf := by
  rw [rewritten, List.map_map]
  refine List.map_congr_left fun other member => ?_
  by_cases here : other.path = task.path
  · have same : other = target := nodup_map_unique distinct.paths member present (here.trans path)
    subst same
    simp [path, name]
  · simp [here]

theorem rewritten_distinct (distinct : Distinct tasks) (present : target ∈ tasks) (path : task.path = target.path)
    (name : idOf task = idOf target) : Distinct (rewritten tasks task) := by
  refine ⟨?_, ?_⟩
  · rw [rewritten_paths]
    exact distinct.paths
  · rw [rewritten_ids distinct present path name]
    exact distinct.ids

end rewriting

theorem named_idOf {task : Task} {name : String} (named : task.fields.get "id" = .str name) : idOf task = name :=
  Dict.textOr_of_str named

theorem locate_eq_ok {store : Store} {name : String} {target : Task} (found : locate store name = .ok target) :
    target ∈ store.tasks ∧ target.fields.get "id" = .str name := by
  rw [locate, orRaise_eq_ok] at found
  have named := List.find?_some found
  exact ⟨List.mem_of_find?_eq_some found, (Json.beq_str _ _).mp named⟩

theorem locate_of_mem {store : Store} {name : String} {target : Task} (distinct : Distinct store.tasks)
    (member : target ∈ store.tasks) (named : target.fields.get "id" = .str name) : locate store name = .ok target := by
  rw [locate, orRaise_eq_ok]
  cases found : store.tasks.find? (fun task => task.fields.get "id" == .str name) with
  | none =>
    rw [List.find?_eq_none] at found
    exact absurd ((Json.beq_str _ _).mpr named) (found target member)
  | some other =>
    have there := List.find?_some found
    rw [Json.beq_str] at there
    rw [nodup_map_unique distinct.ids (List.mem_of_find?_eq_some found) member
      ((named_idOf there).trans (named_idOf named).symm)]

/-- Under distinct identifiers, the task of a name is the task of its path. -/
theorem named_iff_path {tasks : List Task} {target other : Task} {name : String} (distinct : Distinct tasks)
    (member : target ∈ tasks) (named : target.fields.get "id" = .str name) (present : other ∈ tasks) :
    (other.fields.get "id" == .str name) = true ↔ other.path = target.path := by
  rw [Json.beq_str]
  constructor
  · intro same
    exact congrArg Task.path (nodup_map_unique distinct.ids present member
      ((named_idOf same).trans (named_idOf named).symm))
  · intro here
    rw [nodup_map_unique distinct.paths present member here]
    exact named

/-- A change of the task of a name, which keeps its path, rewrites that task alone. -/
theorem map_named {tasks : List Task} {target : Task} {name : String} (change : Task → Task) (distinct : Distinct tasks)
    (member : target ∈ tasks) (named : target.fields.get "id" = .str name) (kept : (change target).path = target.path) :
    (tasks.map fun other => if other.fields.get "id" == .str name then change other else other) =
      rewritten tasks (change target) := by
  rw [rewritten, kept]
  refine List.map_congr_left fun other present => ?_
  simp only [named_iff_path distinct member named present]
  by_cases here : other.path = target.path
  · rw [if_pos here, if_pos here, nodup_map_unique distinct.paths present member here]
  · rw [if_neg here, if_neg here]

theorem updatedRow_eq {tasks : List Task} {target : Task} {name body : String} {task : Meta} (distinct : Distinct tasks)
    (member : target ∈ tasks) (named : target.fields.get "id" = .str name) :
    updatedRow tasks name task body = rewritten tasks { target with fields := task, body := body } :=
  map_named (fun other => { other with fields := task, body := body }) distinct member named rfl

theorem withFields_eq {tasks : List Task} {target : Task} {name : String} {task : Meta} (distinct : Distinct tasks)
    (member : target ∈ tasks) (named : target.fields.get "id" = .str name) :
    withFields tasks name task = rewritten tasks { target with fields := task } :=
  map_named (fun other => { other with fields := task }) distinct member named rfl

/-- How an authority extends the session history of a task. -/
def Backend.extendSessions : Backend → Extend
  | .git => Records.appendSessionRecord
  | .sqlite => Records.insertSessionRecord

def Backend.extendCheckpoints : Backend → Extend
  | .git => Records.appendCheckpoint
  | .sqlite => Records.insertCheckpoint

/-- The task that a mutation commits: its next revision with its note. -/
def committed (target : Task) (task : Meta) (note at_ : String) : Task :=
  { target with fields := advanced task at_, body := transitionNote target.body note at_ }

/-- An authority accepts the handler's result for a task and commits it. -/
structure Commits (files : Files) (backend : Backend) (world : Moment) (store : Store) (name : String) (m : Mutation)
    (target : Task) (task : Meta) (note : String) (after : Store) : Prop where
  member : target ∈ store.tasks
  named : target.fields.get "id" = .str name
  applied : applyTransition (contextOf files world store name) target.fields m = .ok (task, note)
  tasks : after.tasks = rewritten store.tasks (committed target task note world.now)
  sessions : withSession backend.extendSessions store m (advanced task world.now) world.now = .ok after.sessions
  checkpoints : withCheckpoint backend.extendCheckpoints store m (advanced task world.now) target.body world.now =
    .ok after.checkpoints
  valid : Valid files m.includeLedger (advanced task world.now)

theorem proposed_eq_ok {files : Files} {world : Moment} {store : Store} {target written : Task} {name : String}
    {m : Mutation} : proposed files world store target name m = .ok written ↔ ∃ task note,
      applyTransition (contextOf files world store name) target.fields m = .ok (task, note) ∧
        committed target task note world.now = written := by
  simp only [proposed, bind_eq_ok, pure_eq_ok, Prod.exists, committed]

section inversion

variable {files : Files} {world : Moment} {store after : Store} {name : String} {m : Mutation}

/-- What the Git authority has checked of what it commits. -/
theorem gitMutate_eq_ok (accepted : gitMutate files world store name m = .ok after) : ∃ target task note,
    Commits files .git world store name m target task note after ∧ claimErrors world (advanced task world.now) = [] ∧
      mutationGlobalErrors after.tasks = [] ∧ after.events = store.events := by
  simp only [gitMutate, persistGit, bind_eq_ok, exists_unit, raiseIf_eq_ok, raiseSome_eq_ok, pure_eq_ok,
    proposed_eq_ok] at accepted
  obtain ⟨target, found, -, written, ⟨task, note, applied, rfl⟩, sessions, session, checkpoints, checkpoint, -, clean,
    -, rfl⟩ := accepted
  obtain ⟨member, named⟩ := locate_eq_ok found
  simp only [Bool.not_eq_false', List.isEmpty_iff, mutationErrors, List.append_eq_nil_iff] at clean
  exact ⟨target, task, note, ⟨member, named, applied, rfl, session, checkpoint, basicTaskErrors_eq_nil.mp clean.1.1⟩,
    clean.1.2, clean.2, rfl⟩

/-- What a transaction of the SQLite authority commits after a call was prepared. -/
theorem commitPrepared_eq_ok {call : Prepared} (accepted : commitPrepared files world call store name m = .ok after) :
    ∃ target task note, locate store name = .ok target ∧ Meta.revision target.fields = call.expected ∧
      applyTransition (contextOf files world store name) target.fields m = .ok (task, note) ∧
      transitionErrors files store.tasks call.path name task m = [] ∧
      schemaAccepts store.tasks name (advanced task call.at_) = true ∧
      withCheckpoint Records.insertCheckpoint store m (advanced task call.at_) call.body call.at_ =
        .ok after.checkpoints ∧
      withSession Records.insertSessionRecord store m (advanced task call.at_) call.at_ = .ok after.sessions ∧
      after.tasks = updatedRow store.tasks name (advanced task call.at_) (transitionNote call.body note call.at_) := by
  simp only [commitPrepared, persistSqlite, bind_eq_ok, exists_unit, raiseIf_eq_ok, raiseSome_eq_ok, pure_eq_ok,
    Prod.exists] at accepted
  obtain ⟨target, found, expected, task, note, applied, clean, checkpoints, checkpoint, row, sessions, session, -,
    rfl⟩ := accepted
  refine ⟨target, task, note, found, ?_, applied, ?_, by simpa using row, checkpoint, session, rfl⟩
  · simpa using expected
  · simpa [Bool.not_eq_false', List.isEmpty_iff] using clean

theorem prepare_eq_ok {call : Prepared} (prepared : prepare world store name m = .ok call) :
    requireSqliteAuthority m = .ok () ∧ ∃ target, locate store name = .ok target ∧ call.path = target.path ∧
      call.body = target.body ∧ call.at_ = world.now ∧
      call.expected = m.expectedRevision.getD (Meta.revision target.fields) := by
  simp only [prepare, bind_eq_ok, exists_unit, pure_eq_ok] at prepared
  obtain ⟨admitted, target, found, rfl⟩ := prepared
  exact ⟨admitted, target, found, rfl, rfl, rfl, rfl⟩

theorem transitionErrors_eq_nil {tasks : List Task} {path : String} {task : Meta} :
    transitionErrors files tasks path name task m = [] ↔
      Valid files m.includeLedger (AutonomyLimits.nextRevisionProjection task) ∧
        graphErrors (withFields tasks name (AutonomyLimits.nextRevisionProjection task)) = [] ∧
        hierarchyErrors (withFields tasks name (AutonomyLimits.nextRevisionProjection task)) = [] ∧
        supersessionErrors (withFields tasks name (AutonomyLimits.nextRevisionProjection task)) = [] := by
  simp only [transitionErrors, List.append_eq_nil_iff, basicTaskErrors_eq_nil, and_assoc]

/-- What the SQLite authority has checked of what it commits. -/
theorem sqliteMutate_eq_ok (distinct : Distinct store.tasks) (accepted : sqliteMutate files world store name m = .ok after) :
    ∃ target task note, Commits files .sqlite world store name m target task note after ∧
      schemaAccepts store.tasks name (advanced task world.now) = true ∧ requireSqliteAuthority m = .ok () := by
  obtain ⟨call, prepared, transaction⟩ := bind_eq_ok.mp accepted
  obtain ⟨admitted, selected, chosen, -, body, time, -⟩ := prepare_eq_ok prepared
  obtain ⟨target, task, note, found, -, applied, clean, row, checkpoint, session, tasks⟩ :=
    commitPrepared_eq_ok transaction
  obtain rfl : selected = target := by simpa [chosen] using found
  obtain ⟨member, named⟩ := locate_eq_ok found
  rw [body, time, updatedRow_eq distinct member named] at tasks
  rw [time] at row checkpoint session
  rw [body] at checkpoint
  exact ⟨selected, task, note, ⟨member, named, applied, tasks, session, checkpoint,
    restamped_valid world.clock (transitionErrors_eq_nil.mp clean).1⟩, row, admitted⟩

/-- Under either authority, an accepted mutation commits what its handler returns. -/
theorem mutate_eq_ok {backend : Backend} (distinct : Distinct store.tasks)
    (accepted : mutate files backend world store name m = .ok after) :
    ∃ target task note, Commits files backend world store name m target task note after := by
  cases backend with
  | git =>
    obtain ⟨target, task, note, commits, -⟩ := gitMutate_eq_ok accepted
    exact ⟨target, task, note, commits⟩
  | sqlite =>
    obtain ⟨target, task, note, commits, -⟩ := sqliteMutate_eq_ok distinct accepted
    exact ⟨target, task, note, commits⟩

end inversion

/-! Steps. -/

/-- An observation synchronizes every task and touches no journal of records. -/
theorem observation_eq_ok {files : Files} {backend : Backend} {world : Moment} {store after : Store}
    {observations : List Observation} (accepted : attempt files backend store (.observation world observations) = .ok after) :
    (∃ key : Task → String, after.tasks = store.tasks.map (fun task => syncTask observations world.now (key task) task)) ∧
      after.sessions = store.sessions ∧ after.checkpoints = store.checkpoints := by
  cases backend with
  | git =>
    simp only [attempt, gitObserve, bind_eq_ok, exists_unit, raiseIf_eq_ok, raiseSome_eq_ok, pure_eq_ok] at accepted
    obtain ⟨-, -, rfl⟩ := accepted
    exact ⟨⟨_, rfl⟩, rfl, rfl⟩
  | sqlite =>
    simp only [attempt, sqliteObserve, bind_eq_ok, exists_unit, raiseSome_eq_ok, pure_eq_ok] at accepted
    obtain ⟨-, rfl⟩ := accepted
    exact ⟨⟨_, rfl⟩, rfl, rfl⟩

theorem step_cases (files : Files) (backend : Backend) (store : Store) (event : Event) :
    step files backend store event = store ∨ attempt files backend store event = .ok (step files backend store event) := by
  unfold step
  cases attempt files backend store event with
  | error fault => exact Or.inl rfl
  | ok after => exact Or.inr rfl

theorem Commits.idOf_eq {files : Files} {backend : Backend} {world : Moment} {store after : Store} {name : String}
    {m : Mutation} {target : Task} {task : Meta} {note : String}
    (commits : Commits files backend world store name m target task note after) :
    idOf (committed target task note world.now) = idOf target := by
  have frame : Within m.writes target.fields task := transition_within _ _ m (task, note) commits.applied
  calc idOf (committed target task note world.now) = taskText (advanced task world.now) := rfl
    _ = taskText task := taskText_advanced
    _ = idOf target := frame.textOr (not_mem_writes m (by simp))

theorem synchronized_distinct {tasks : List Task} (distinct : Distinct tasks) (observations : List Observation)
    (at_ : String) (key : Task → String) :
    Distinct (tasks.map (fun task => syncTask observations at_ (key task) task)) := by
  refine ⟨?_, ?_⟩
  · rw [synchronized_paths]
    exact distinct.paths
  · rw [map_idOf fun task _ => syncTask_alike observations at_ (key task) task]
    exact distinct.ids

/-- Paths and identifiers stay as they are. -/
theorem attempt_distinct {files : Files} {backend : Backend} {store after : Store} {event : Event}
    (distinct : Distinct store.tasks) (accepted : attempt files backend store event = .ok after) : Distinct after.tasks := by
  cases event with
  | mutation world name m =>
    obtain ⟨target, task, note, commits⟩ := mutate_eq_ok distinct accepted
    rw [commits.tasks]
    exact rewritten_distinct distinct commits.member rfl commits.idOf_eq
  | observation world observations =>
    obtain ⟨⟨key, tasks⟩, -, -⟩ := observation_eq_ok accepted
    rw [tasks]
    exact synchronized_distinct distinct observations world.now key

/-! Claims. -/

/-- Only an active task has a named owner, and an active task has one. -/
structure ClaimFits (task : Meta) : Prop where
  idle : status task ≠ .str "in_progress" → ∀ word, owner task = .str word → word = ""
  active : status task = .str "in_progress" → owner task ≠ .str ""

theorem claimErrors_fits {world : Moment} {task : Meta} (clean : claimErrors world task = []) : ClaimFits task := by
  have named : status task ≠ .str "in_progress" ↔ (status task != .str "in_progress") = true := by
    rw [bne, Bool.not_eq_true', ← Bool.not_eq_true, Json.beq_str]
  unfold claimErrors at clean
  constructor
  · intro idle word holder
    rw [if_pos (named.mp idle), errorIf_eq_nil, Bool.or_eq_false_iff, holder] at clean
    simpa using clean.1
  · intro active holder
    rw [if_neg (fun other => named.mpr other active), List.append_eq_nil_iff, errorIf_eq_nil, holder] at clean
    simp at clean

theorem textColumn_str {task : Meta} {key word : String} (known : task.get key = .str word) :
    textColumn task key = some word := by
  unfold Dict.get at known
  unfold textColumn
  cases found : task.find key with
  | none => simp [found] at known
  | some value =>
    rw [found, Option.getD_some] at known
    rw [known]

theorem rowValid_fits {task : Meta} (row : rowValid task = true) (known : ∃ word, status task = .str word) :
    ClaimFits task := by
  obtain ⟨state, named⟩ := known
  have column : textColumn task "status" = some state := textColumn_str named
  constructor
  · intro idle word holder
    have apart : state ≠ "in_progress" := fun same => idle (same ▸ named)
    have owned : textColumn task "owner" = some word := textColumn_str holder
    cases expires : textColumn task "claim_expires" with
    | none => simp [rowValid, column, owned, expires] at row
    | some lease =>
      simp only [rowValid, column, owned, expires, if_neg apart, Bool.and_eq_true, beq_iff_eq] at row
      exact row.2.1
  · intro active holder
    have here : state = "in_progress" := by simpa [named] using active
    have owned : textColumn task "owner" = some "" := textColumn_str holder
    cases expires : textColumn task "claim_expires" with
    | none => simp [rowValid, column, owned, expires] at row
    | some lease => simp [rowValid, column, owned, expires, here] at row

/-- A committed task has a claim that fits its status. -/
theorem mutate_fits {files : Files} {backend : Backend} {world : Moment} {store after : Store} {name : String}
    {m : Mutation} (distinct : Distinct store.tasks) (accepted : mutate files backend world store name m = .ok after) :
    ∃ target task note, Commits files backend world store name m target task note after ∧
      ClaimFits (advanced task world.now) := by
  cases backend with
  | git =>
    obtain ⟨target, task, note, commits, clean, -⟩ := gitMutate_eq_ok accepted
    exact ⟨target, task, note, commits, claimErrors_fits clean⟩
  | sqlite =>
    obtain ⟨target, task, note, commits, row, -⟩ := sqliteMutate_eq_ok distinct accepted
    obtain ⟨word, named, -⟩ := commits.valid.status_mem
    rw [schemaAccepts, Bool.and_eq_true, Bool.and_eq_true] at row
    exact ⟨target, task, note, commits, rowValid_fits row.1.1 ⟨word, named⟩⟩

/-- Tasks with names of their own and fitting claims. -/
structure Orderly (store : Store) : Prop where
  distinct : Distinct store.tasks
  fits : ∀ task ∈ store.tasks, ClaimFits task.fields

theorem ValidTasks.orderly {files : Files} {store : Store} (valid : ValidTasks files store.tasks) : Orderly store :=
  ⟨ValidTasks.distinct valid, fun task member => (valid.claims task member).elim fun _ clean => claimErrors_fits clean⟩

theorem attempt_orderly {files : Files} {backend : Backend} {store after : Store} {event : Event}
    (orderly : Orderly store) (accepted : attempt files backend store event = .ok after) : Orderly after := by
  refine ⟨attempt_distinct orderly.distinct accepted, ?_⟩
  cases event with
  | mutation world name m =>
    obtain ⟨target, task, note, commits, fits⟩ := mutate_fits orderly.distinct accepted
    rw [commits.tasks]
    intro other member
    obtain rfl | ⟨present, -⟩ := mem_rewritten member
    · exact fits
    · exact orderly.fits other present
  | observation world observations =>
    obtain ⟨⟨key, tasks⟩, -, -⟩ := observation_eq_ok accepted
    rw [tasks]
    intro other member
    obtain ⟨task, present, rfl⟩ := List.mem_map.mp member
    have frame := syncTask_within observations world.now (key task) task
    have state : status (syncTask observations world.now (key task) task).fields = status task.fields :=
      frame.get (by decide)
    have holder : owner (syncTask observations world.now (key task) task).fields = owner task.fields :=
      frame.get (by decide)
    obtain ⟨idle, active⟩ := orderly.fits task present
    exact ⟨by rw [state, holder]; exact idle, by rw [state, holder]; exact active⟩

/-- Every step keeps the store orderly. -/
theorem step_orderly (files : Files) (backend : Backend) {store : Store} (event : Event) (orderly : Orderly store) :
    Orderly (step files backend store event) := by
  obtain same | accepted := step_cases files backend store event
  · rw [same]
    exact orderly
  · exact attempt_orderly orderly accepted

/-! Acceptance. -/

/-- What an authority asks of a mutation before and besides its handler. -/
def Backend.Admits (backend : Backend) (world : Moment) (target : Meta) (m : Mutation) : Prop :=
  match backend with
  | .git => requirePromotionPreflight world m = .ok ()
  | .sqlite => requireSqliteAuthority m = .ok () ∧
      Meta.revision target = m.expectedRevision.getD (Meta.revision target)

/-- The authority validates and writes what a handler returned for a task. -/
def persists (files : Files) (backend : Backend) (world : Moment) (store : Store) (target : Task) (name : String)
    (task : Meta) (note : String) (m : Mutation) : Bool :=
  match backend with
  | .git => allowed (persistGit files world store target (committed target task note world.now) m)
  | .sqlite => allowed (persistSqlite files world
      ⟨target.path, target.body, m.expectedRevision.getD (Meta.revision target.fields), world.now⟩ store name task note m)

/-- A mutation is accepted exactly when its authority admits it, its handler returns and the
authority persists the result. -/
theorem mutate_allowed_iff {files : Files} {backend : Backend} {world : Moment} {store : Store} {name : String}
    {m : Mutation} {target : Task} (found : locate store name = .ok target) :
    allowed (mutate files backend world store name m) = true ↔ backend.Admits world target.fields m ∧
      ∃ task note, applyTransition (contextOf files world store name) target.fields m = .ok (task, note) ∧
        persists files backend world store target name task note m = true := by
  cases backend with
  | git =>
    simp only [mutate, gitMutate, allowed_iff, bind_eq_ok, exists_unit, found, Except.ok.injEq, Backend.Admits,
      persists, proposed_eq_ok]
    constructor
    · rintro ⟨after, selected, rfl, admitted, written, ⟨task, note, applied, rfl⟩, accepted⟩
      exact ⟨admitted, task, note, applied, after, accepted⟩
    · rintro ⟨admitted, task, note, applied, after, accepted⟩
      exact ⟨after, target, rfl, admitted, _, ⟨task, note, applied, rfl⟩, accepted⟩
  | sqlite =>
    simp only [mutate, sqliteMutate, prepare, commitPrepared, allowed_iff, bind_eq_ok, exists_unit, found,
      Except.ok.injEq, Backend.Admits, persists, pure_eq_ok, raiseIf_eq_ok, Prod.exists, bne_eq_false_iff_eq]
    constructor
    · rintro ⟨after, call, ⟨admitted, selected, rfl, rfl⟩, same, rfl, current, task, note, applied, accepted⟩
      exact ⟨⟨admitted, current⟩, task, note, applied, after, accepted⟩
    · rintro ⟨⟨admitted, current⟩, task, note, applied, after, accepted⟩
      exact ⟨after, _, ⟨admitted, target, rfl, rfl⟩, target, rfl, current, task, note, applied, accepted⟩

end Coordinator.Authority
