import Coordinator.Commit
import Coordinator.Kit.Run

/-! Admission of completion over whole runs. A task enters done by a release of its owner that has
passed every admission, as long as no release names the empty owner and no rollback restores a
done state. -/

namespace Coordinator.Authority
open Kit Dict TaskGraph TaskValidation Transitions

/-- Everything that the end of an active task requires. -/
structure DoneAdmitted (ctx : Context) (task : Meta) : Prop where
  evidence : TaskSpec.doneAdmissionError ctx.files task = none
  children : ∀ child ∈ ctx.tasks, (parentOf child.fields).toText = taskText task →
    RetryCircuit.oneOf (statusOf child) terminalChildStatuses = true
  drift : ChangeDrift.doneAdmissionError task = none
  assumptions : AssumptionRevalidation.freshnessError ctx.files ctx.world task ctx.metas = .ok none

/-- A release to done by the named owner of an active task that is admitted. -/
structure OwnedCompletion (files : Files) (store : Store) (event : Event) (task : Meta) : Prop where
  active : status task = .str "in_progress"
  released : ∃ world name ownerId note, event = .mutation world name (.release ownerId "done" note) ∧
    task.get "id" = .str name ∧ owner task = .str ownerId ∧ ownerId ≠ "" ∧
    DoneAdmitted (contextOf files world store name) task

/-- Every task that a step takes into done gets there by an owned completion. -/
def CompletionContract (files : Files) (store : Store) (event : Event) (after : Store) : Prop :=
  ∀ task ∈ store.tasks, ∀ ended ∈ after.tasks, ended.path = task.path → status task.fields ≠ .str "done" →
    status ended.fields = .str "done" → OwnedCompletion files store event task.fields

/-- The state under a checkpoint name is that of a done task. -/
def restoresDone (history : List Json) (checkpointName : String) : Bool :=
  match Records.findCheckpoint history checkpointName with
  | .ok checkpoint => (checkpoint.get "state").get "status" == .str "done"
  | .error _ => false

/-- A release to done names an owner, and a rollback restores no done state. -/
def Guarded (store : Store) : Event → Prop
  | .mutation _ _ (.release ownerId releasedTo _) => releasedTo = "done" → ownerId ≠ ""
  | .mutation _ name (.rollback checkpointName) => restoresDone (store.checkpoints name) checkpointName = false
  | _ => True

theorem openChildError_eq_none {task : Meta} {tasks : List Task} (active : status task = .str "in_progress")
    (clean : openChildError task tasks = none) : ∀ child ∈ tasks, (parentOf child.fields).toText = taskText task →
      RetryCircuit.oneOf (statusOf child) terminalChildStatuses = true := by
  intro child member below
  have here : (task.get "status" != .str "in_progress") = false := by
    rw [bne, Bool.not_eq_false', Json.beq_str]
    exact active
  simp only [openChildError, here, Bool.false_or] at clean
  split at clean
  · next closed =>
    by_contra running
    have kept : child ∈ tasks.filter (fun candidate => (parentOf candidate.fields).toText == taskText task &&
        !RetryCircuit.oneOf (statusOf candidate) terminalChildStatuses) :=
      List.mem_filter.mpr ⟨member, by simp [below, Bool.not_eq_true _ ▸ running]⟩
    rw [List.isEmpty_iff, List.map_eq_nil_iff] at closed
    rw [closed] at kept
    cases kept
  · cases clean

/-- A release of an active task to done has passed every admission. -/
theorem requireDoneAdmission_eq_ok {ctx : Context} {task : Meta} (active : status task = .str "in_progress")
    (passed : requireDoneAdmission ctx task = .ok ()) : DoneAdmitted ctx task := by
  have here : (status task != .str "in_progress") = false := by
    rw [bne, Bool.not_eq_false', Json.beq_str]
    exact active
  simp only [requireDoneAdmission, here, Bool.false_eq_true, ↓reduceIte, bind_eq_ok, exists_unit,
    raiseSome_eq_ok] at passed
  obtain ⟨evidence, children, drift, stale, fresh, rfl⟩ := passed
  exact ⟨evidence, openChildError_eq_none active children, drift, fresh⟩

/-- A release to done by a named owner completes an active task with admission. -/
theorem release_done {ctx : Context} {task after : Meta} {ownerId word note : String}
    (applied : applyRelease ctx task ownerId "done" word = .ok (after, note)) (fits : ClaimFits task)
    (named : ownerId ≠ "") : status task = .str "in_progress" ∧ owner task = .str ownerId ∧ DoneAdmitted ctx task := by
  simp only [applyRelease, bind_eq_ok, exists_unit, requireOwner_eq_ok, requireReleaseAdmission, ↓reduceIte] at applied
  obtain ⟨holder, -, admitted, -, -⟩ := applied
  have active : status task = .str "in_progress" := by
    by_contra idle
    exact named (fits.idle idle ownerId holder)
  exact ⟨active, holder, requireDoneAdmission_eq_ok active admitted⟩

theorem restoredStatus_done {state : Json} (restores : restoredStatus state = .str "done") :
    state.get "status" = .str "done" := by
  unfold restoredStatus at restores
  split at restores
  · simp at restores
  · exact restores

/-- Only a release to done and a rollback to a done state take a task into done. -/
theorem landing_done {ctx : Context} {task : Meta} {m : Mutation} (fresh : status task ≠ .str "done")
    (lands : landing ctx task m = .str "done") (fitsUpdate : ∀ request, m = .update request →
      request.status.all (· == "in_progress") = true) :
    (∃ ownerId note, m = .release ownerId "done" note) ∨
      ∃ checkpointName, m = .rollback checkpointName ∧ restoresDone ctx.checkpoints checkpointName = true := by
  cases m with
  | release ownerId releasedTo note =>
    simp only [landing, Json.str.injEq] at lands
    exact Or.inl ⟨ownerId, note, by rw [lands]⟩
  | rollback checkpointName =>
    refine Or.inr ⟨checkpointName, rfl, ?_⟩
    have recorded := restoredStatus_done lands
    unfold rollbackState at recorded
    unfold restoresDone
    split at recorded
    · next checkpoint found => simp [found, recorded]
    · simp [Json.get, Json.fields, Dict.get, Dict.find] at recorded
  | update request =>
    have given := fitsUpdate request rfl
    cases named : request.status with
    | none => exact absurd (by simpa [landing, named] using lands) fresh
    | some word =>
      rw [named] at given
      simp only [Option.all_some, beq_iff_eq] at given
      simp [landing, named, given] at lands
  | claim _ | promote _ _ | pause _ _ _ | resume _ _ _ | unblock _ _ | recoverExpired _ _ _ | abandonExecution _ =>
    simp [landing] at lands
  | _ => exact absurd lands fresh

theorem applyUpdate_status {ctx : Context} {task after : Meta} {request : UpdateRequest} {note : String}
    (applied : applyUpdate ctx task request = .ok (after, note)) : request.status.all (· == "in_progress") = true := by
  simp only [applyUpdate, bind_eq_ok, exists_unit, raiseIf_eq_ok, pure_eq_ok] at applied
  obtain ⟨-, -, -, -, active, -⟩ := applied
  cases given : request.status with
  | none => rfl
  | some word => simpa [given] using active

/-- A guarded mutation of an orderly store keeps to the contract. -/
theorem mutation_completes {files : Files} {backend : Backend} {world : Moment} {store after : Store} {name : String}
    {m : Mutation} (orderly : Orderly store) (guarded : Guarded store (.mutation world name m))
    (accepted : mutate files backend world store name m = .ok after) :
    CompletionContract files store (.mutation world name m) after := by
  obtain ⟨target, task, note, commits⟩ := mutate_eq_ok orderly.distinct accepted
  intro before member ended present path fresh done
  rw [commits.tasks] at present
  obtain rfl | ⟨other, apart⟩ := mem_rewritten present
  · obtain rfl : target = before := nodup_map_unique orderly.distinct.paths commits.member member path
    have landed : landing (contextOf files world store name) target.fields m = .str "done" := by
      rw [← status_landing commits.applied]
      exact status_advanced.symm.trans done
    obtain ⟨ownerId, word, rfl⟩ | ⟨checkpointName, rfl, restores⟩ := landing_done fresh landed (by
      rintro request rfl
      exact applyUpdate_status commits.applied)
    · have named : ownerId ≠ "" := guarded rfl
      obtain ⟨active, holder, admitted⟩ := release_done commits.applied (orderly.fits target member) named
      exact ⟨active, world, name, ownerId, word, rfl, commits.named, holder, named, admitted⟩
    · have quiet : restoresDone (store.checkpoints name) checkpointName = false := guarded
      exact absurd (quiet.symm.trans restores) (by decide)
  · have same : ended = before := nodup_map_unique orderly.distinct.paths other member path
    exact absurd (same ▸ done) fresh

theorem contract_of_same {files : Files} {store after : Store} {event : Event} (distinct : Distinct store.tasks)
    (same : ∀ ended ∈ after.tasks, ∃ task ∈ store.tasks, task.path = ended.path ∧
      status task.fields = status ended.fields) : CompletionContract files store event after := by
  intro before member ended present path fresh done
  obtain ⟨task, kept, location, state⟩ := same ended present
  obtain rfl : task = before := nodup_map_unique distinct.paths kept member (location.trans path)
  exact absurd (state.trans done) fresh

/-- A guarded step of an orderly store keeps to the contract. -/
theorem step_completes (files : Files) (backend : Backend) {store : Store} {event : Event} (orderly : Orderly store)
    (guarded : Guarded store event) : CompletionContract files store event (step files backend store event) := by
  obtain same | accepted := step_cases files backend store event
  · rw [same]
    exact contract_of_same orderly.distinct fun ended present => ⟨ended, present, rfl, rfl⟩
  · cases event with
    | mutation world name m => exact mutation_completes orderly guarded accepted
    | observation world observations =>
      obtain ⟨⟨key, tasks⟩, -, -⟩ := observation_eq_ok accepted
      refine contract_of_same orderly.distinct fun ended present => ?_
      rw [tasks] at present
      obtain ⟨task, kept, rfl⟩ := List.mem_map.mp present
      exact ⟨task, kept, (syncTask_path observations world.now (key task) task).symm,
        ((syncTask_within observations world.now (key task) task).get (by decide)).symm⟩

/-- In every guarded run from a valid task set, tasks enter done only by owned completions. -/
theorem run_completes (files : Files) (backend : Backend) {store : Store} (valid : ValidTasks files store.tasks)
    (events : List Event) (guarded : Run.Along (step files backend) Guarded store events) :
    Run.Steps (step files backend) (CompletionContract files) store events :=
  Run.steps_of_invariant (step files backend) (fun _ event orderly _ => step_orderly files backend event orderly)
    (fun _ _ orderly allowed => step_completes files backend orderly allowed) events store
    (ValidTasks.orderly valid) guarded

/-! Where done states in checkpoints come from. -/

/-- No checkpoint of the store records a done state. -/
def FreshCheckpoints (store : Store) : Prop :=
  ∀ name, ∀ record ∈ store.checkpoints name, (record.get "state").get "status" ≠ .str "done"

/-- Releases to done and checkpoints name an owner. -/
def Named : Event → Prop
  | .mutation _ _ (.release ownerId releasedTo _) => releasedTo = "done" → ownerId ≠ ""
  | .mutation _ _ (.checkpoint ownerId _ _) => ownerId ≠ ""
  | _ => True

theorem FreshCheckpoints.restores {store : Store} (fresh : FreshCheckpoints store) (name checkpointName : String) :
    restoresDone (store.checkpoints name) checkpointName = false := by
  rw [Bool.eq_false_iff]
  intro restores
  unfold restoresDone at restores
  split at restores
  · next checkpoint found =>
    rw [Records.findCheckpoint, bind_eq_ok] at found
    obtain ⟨records, decoded, picked⟩ := found
    simp only [Records.decodeCheckpoints, bind_eq_ok, exists_unit, raiseIf_eq_ok, pure_eq_ok] at decoded
    obtain ⟨-, -, rfl⟩ := decoded
    rw [orRaise_eq_ok] at picked
    rw [Json.beq_str] at restores
    exact fresh name checkpoint (List.mem_of_find?_eq_some picked) restores
  · exact absurd restores (by decide)

theorem guarded_of_named {store : Store} {event : Event} (fresh : FreshCheckpoints store) (named : Named event) :
    Guarded store event := by
  cases event with
  | observation world observations => trivial
  | mutation world name m =>
    cases m with
    | rollback checkpointName => exact fresh.restores name checkpointName
    | release ownerId releasedTo note => exact named
    | _ => trivial

theorem mem_lastOf {count : Nat} {values : List Json} {value : Json} (member : value ∈ AutonomyLimits.lastOf count values) :
    value ∈ values := List.mem_of_mem_drop member

/-- Either authority only adds the new record to a checkpoint history. -/
theorem extendCheckpoints_mem {backend : Backend} {history extended : List Json} {record other : Json}
    (done : backend.extendCheckpoints history record = .ok extended) (member : other ∈ extended) :
    other ∈ history ∨ other = record := by
  cases backend with
  | git =>
    simp only [Backend.extendCheckpoints, Records.appendCheckpoint, Records.decodeCheckpoints, bind_eq_ok, exists_unit,
      raiseIf_eq_ok, pure_eq_ok] at done
    obtain ⟨-, records, ⟨-, -, rfl⟩, rfl⟩ := done
    simpa using mem_lastOf member
  | sqlite =>
    simp only [Backend.extendCheckpoints, Records.insertCheckpoint, bind_eq_ok, exists_unit, raiseIf_eq_ok,
      pure_eq_ok] at done
    obtain ⟨-, rfl⟩ := done
    simpa using mem_lastOf member

theorem buildCheckpoint_state {task : Meta} {body sourceCommit at_ : String} {record : Json}
    (built : Records.buildCheckpoint task body sourceCommit at_ = .ok record) : record.get "state" = .obj task := by
  simp only [Records.buildCheckpoint, bind_eq_ok, exists_unit, raiseIf_eq_ok, pure_eq_ok] at built
  obtain ⟨-, -, rfl⟩ := built
  rfl

/-- A checkpoint by a named owner records an active task. -/
theorem checkpoint_active {ctx : Context} {task after : Meta} {ownerId sourceCommit note : String} {expected : Int}
    (applied : applyCheckpoint ctx task ownerId expected sourceCommit = .ok (after, note)) (fits : ClaimFits task)
    (named : ownerId ≠ "") : status after = .str "in_progress" := by
  have kept : status after = status task :=
    (applyCheckpoint_within ctx task ownerId expected sourceCommit (after, note) applied).get (by decide)
  simp only [applyCheckpoint, bind_eq_ok, exists_unit, requireOwner_eq_ok] at applied
  obtain ⟨holder, -⟩ := applied
  rw [kept]
  by_contra idle
  exact named (fits.idle idle ownerId holder)

/-- A checkpoint that a step adds records the task of an accepted checkpoint at its next revision. -/
theorem step_checkpoint {files : Files} {backend : Backend} {store : Store} {event : Event} {name : String} {record : Json}
    (distinct : Distinct store.tasks) (member : record ∈ (step files backend store event).checkpoints name) :
    record ∈ store.checkpoints name ∨ ∃ world ctx target ownerId expected sourceCommit task note,
      (∃ named, event = .mutation world named (.checkpoint ownerId expected sourceCommit)) ∧ target ∈ store.tasks ∧
        applyCheckpoint ctx target.fields ownerId expected sourceCommit = .ok (task, note) ∧
        Records.buildCheckpoint (advanced task world.now) target.body sourceCommit world.now = .ok record := by
  obtain same | accepted := step_cases files backend store event
  · rw [same] at member
    exact .inl member
  generalize step files backend store event = after at accepted member
  cases event with
  | observation world observations =>
    rw [(observation_eq_ok accepted).2.2] at member
    exact .inl member
  | mutation world named m =>
    obtain ⟨target, task, note, commits⟩ := mutate_eq_ok distinct accepted
    have journal := commits.checkpoints
    cases m with
    | checkpoint ownerId expected sourceCommit =>
      simp only [withCheckpoint, bind_eq_ok, pure_eq_ok] at journal
      obtain ⟨built, recorded, history, extended, same⟩ := journal
      rw [← same, recordFor] at member
      split at member
      · rename_i here
        obtain earlier | rfl := extendCheckpoints_mem extended member
        · exact .inl (here ▸ earlier)
        · exact .inr ⟨world, _, target, ownerId, expected, sourceCommit, task, note, ⟨named, rfl⟩, commits.member,
            commits.applied, recorded⟩
      · exact .inl member
    | _ =>
      simp only [withCheckpoint, pure_eq_ok] at journal
      rw [← journal] at member
      exact .inl member

theorem step_freshCheckpoints (files : Files) (backend : Backend) {store : Store} {event : Event}
    (orderly : Orderly store) (fresh : FreshCheckpoints store) (named : Named event) :
    FreshCheckpoints (step files backend store event) := by
  intro name record member
  obtain earlier | ⟨world, ctx, target, ownerId, expected, sourceCommit, task, note, ⟨other, rfl⟩, listed, applied, built⟩ :=
    step_checkpoint orderly.distinct member
  · exact fresh name record earlier
  · have active := checkpoint_active applied (orderly.fits target listed) named
    rw [buildCheckpoint_state built, Json.get_obj]
    change status (advanced task world.now) ≠ _
    simp [status_advanced, active]

/-- Where every release to done and every checkpoint names an owner, tasks enter done only by owned
completions: the empty owner is the only way around them. -/
theorem named_run_completes (files : Files) (backend : Backend) {store : Store} (valid : ValidTasks files store.tasks)
    (fresh : FreshCheckpoints store) (events : List Event) (named : ∀ event ∈ events, Named event) :
    Run.Steps (step files backend) (CompletionContract files) store events := by
  have keeps (store : Store) (event : Event) (holds : Orderly store ∧ FreshCheckpoints store) (allowed : Named event) :
      Orderly (step files backend store event) ∧ FreshCheckpoints (step files backend store event) :=
    ⟨step_orderly files backend event holds.1, step_freshCheckpoints files backend holds.1 holds.2 allowed⟩
  have completes (store : Store) (event : Event) (holds : Orderly store ∧ FreshCheckpoints store)
      (allowed : Named event) : CompletionContract files store event (step files backend store event) :=
    step_completes files backend holds.1 (guarded_of_named holds.2 allowed)
  exact Run.steps_of_invariant (step files backend) keeps completes events store ⟨ValidTasks.orderly valid, fresh⟩
    (Run.along_of_forall _ named)

/-- The sample task with the acceptance that its completion needs. -/
def acceptedSample : Meta := claimedSample ++ [("spec_acceptance", .obj
  [("status", .str "pass"), ("evidence_class", .str "mechanical"), ("evidence_ref", .str "evidence/one.json"),
    ("evidence_digest", .str sampleDigest), ("match", .str "best_effort")])]

theorem acceptedSample_valid : ValidTasks sampleFiles (sampleStore acceptedSample).tasks :=
  sampleStore_valid (by decide +kernel) (by decide +kernel)

def sampleCompletion (ownerId : String) : Event := .mutation sampleWorld "AR-0001" (.release ownerId "done" "Done.")

def allDone (store : Store) : Bool := store.tasks.all (fun task => status task.fields == .str "done")

/-- The owner of the accepted sample completes it. -/
theorem completion_of_acceptedSample :
    Run.Steps (step sampleFiles .git) (CompletionContract sampleFiles) (sampleStore acceptedSample)
        [sampleCompletion "worker"] ∧
      allDone (Run.final (step sampleFiles .git) (sampleStore acceptedSample) [sampleCompletion "worker"]) = true :=
  ⟨run_completes sampleFiles .git acceptedSample_valid _ ⟨fun _ => by decide, trivial⟩, by decide +kernel⟩

def openSample : Meta := sampleTask "AR-0001" "open" "" "" 4

theorem openSample_status : status openSample = .str "open" := rfl

theorem openSample_valid : ValidTasks sampleFiles (sampleStore openSample).tasks :=
  sampleStore_valid (by decide +kernel) (by decide +kernel)

/-- A completion of the open sample breaks the contract. -/
theorem openSample_completion_breaks {backend : Backend}
    (entered : (step sampleFiles backend (sampleStore openSample) (sampleCompletion "")).tasks.any (fun task =>
      task.path == "AR-0001.md" && status task.fields == .str "done") = true) :
    ¬Run.Steps (step sampleFiles backend) (CompletionContract sampleFiles) (sampleStore openSample)
      [sampleCompletion ""] := by
  intro steps
  obtain ⟨ended, present, named⟩ := List.any_eq_true.mp entered
  rw [Bool.and_eq_true, beq_iff_eq, Json.beq_str] at named
  have completion := steps.1 ⟨"AR-0001.md", openSample, "Body.\n"⟩ (by simp [sampleStore]) ended present named.1
    (by simp [openSample_status]) named.2
  simpa [openSample_status] using completion.active

/-- Under either authority, the empty owner completes an open task that nobody holds. -/
theorem completion_without_owner : ValidTasks sampleFiles (sampleStore openSample).tasks ∧
    ¬Run.Steps (step sampleFiles .git) (CompletionContract sampleFiles) (sampleStore openSample)
      [sampleCompletion ""] ∧
    ¬Run.Steps (step sampleFiles .sqlite) (CompletionContract sampleFiles) (sampleStore openSample)
      [sampleCompletion ""] :=
  ⟨openSample_valid, openSample_completion_breaks (by decide +kernel), openSample_completion_breaks (by decide +kernel)⟩

end Coordinator.Authority
