import Coordinator.ActiveKeys

/-! The notes at the end of a task's body. Every revision adds the note of the mutation that made it, whichever
clients have loaded the task in between, unless a client waits for a revision that it has not loaded. -/

namespace Coordinator.Authority
open Kit Dict TaskGraph TaskValidation Transitions

/-- How an action leaves a task: as it was, or at its next revision with an observation and the same body, or with the note of
the mutation that was committed. -/
inductive BodyStep (files : Files) (system : System) (action : Action) (before next : Task) : Prop where
  | kept (same : next = before)
  | observed (revision : Meta.revision next.fields = Meta.revision before.fields + 1) (body : next.body = before.body)
  | noted (world : Moment) (name : String) (m : Mutation) (task : Meta) (note at_ : String)
      (asked : system.mutationOf action = some (world, name, m)) (named : before.fields.get "id" = .str name)
      (applied : applyTransition (contextOf files world system.store name) before.fields m = .ok (task, note))
      (revision : Meta.revision next.fields = Meta.revision before.fields + 1)
      (body : next.body = transitionNote before.body note at_)

/-- Each task goes its step under its path and its name, and there are no others. -/
structure NotesKept (files : Files) (system : System) (action : Action) (after : System) : Prop where
  paths : after.store.tasks.map (·.path) = system.store.tasks.map (·.path)
  steps : ∀ next ∈ after.store.tasks, ∃ before ∈ system.store.tasks, before.path = next.path ∧
    before.fields.get "id" = next.fields.get "id" ∧ BodyStep files system action before next

/-- A client that waits for a revision waits for one that it has loaded. -/
def Loaded (system : System) : Action → Prop
  | .load _ name m => ∀ target, locate system.store name = .ok target →
      ∀ expected ∈ m.expectedRevision, expected ≤ Meta.revision target.fields
  | .event _ | .transact .. => True

/-- A waiting call whose revision is current has the current body. -/
structure Fresh (system : System) : Prop where
  distinct : Distinct system.store.tasks
  reached : ∀ waiting ∈ system.pending, ∀ target, locate system.store waiting.name = .ok target →
    waiting.call.expected ≤ Meta.revision target.fields
  current : ∀ waiting ∈ system.pending, ∀ target, locate system.store waiting.name = .ok target →
    Meta.revision target.fields = waiting.call.expected → waiting.call.body = target.body

section steps

variable {files : Files} {backend : Backend} {system : System} {action : Action}

theorem committed_revision (at_ : String) {target : Task} {world : Moment} {name note : String} {m : Mutation} {task : Meta}
    (applied : applyTransition (contextOf files world system.store name) target.fields m = .ok (task, note)) :
    Meta.revision (advanced task at_) = Meta.revision target.fields + 1 ∧
      target.fields.get "id" = (advanced task at_).get "id" := by
  have frame : Within m.writes target.fields task := transition_within _ _ m (task, note) applied
  have kept : task.get "task_revision" = target.fields.get "task_revision" := frame.get (not_mem_writes m (by simp))
  have name_ : (advanced task at_).get "id" = task.get "id" := advanced_get (by decide)
  refine ⟨?_, ?_⟩
  · rw [revision_advanced, Meta.revision, Meta.revision, kept]
  · rw [name_, frame.get (not_mem_writes m (by simp))]

/-- Replacing one task is a step of that task and of no other. -/
theorem rewritten_notes {after : System} {target written : Task} (member : target ∈ system.store.tasks)
    (path : written.path = target.path) (name : target.fields.get "id" = written.fields.get "id")
    (tasks : after.store.tasks = rewritten system.store.tasks written) (step : BodyStep files system action target written) :
    NotesKept files system action after := by
  refine ⟨by rw [tasks, rewritten_paths], fun next present => ?_⟩
  rw [tasks] at present
  obtain rfl | ⟨old, -⟩ := mem_rewritten present
  · exact ⟨target, member, path.symm, name, step⟩
  · exact ⟨next, old, rfl, rfl, .kept rfl⟩

theorem observed_notes {after : System} {observations : List Observation} {at_ : String} {key : Task → String}
    (tasks : after.store.tasks = system.store.tasks.map (fun task => syncTask observations at_ (key task) task)) :
    NotesKept files system action after := by
  refine ⟨by rw [tasks, synchronized_paths], fun next present => ?_⟩
  rw [tasks] at present
  obtain ⟨before, member, rfl⟩ := List.mem_map.mp present
  obtain ⟨-, same⟩ | ⟨seen, -, same⟩ := syncTask_cases observations at_ (key before) before
  · rw [same]
    exact ⟨before, member, rfl, rfl, .kept rfl⟩
  · have frame := values_within seen before.fields
    have kept : (before.fields.update seen.values).get "task_revision" = before.fields.get "task_revision" := frame.get (by decide)
    have name : (observed seen before.fields at_).get "id" = before.fields.get "id" := by
      rw [observed, advanced_get (by decide), frame.get (by decide)]
    rw [same]
    refine ⟨before, member, rfl, name.symm, .observed ?_ rfl⟩
    rw [observed, revision_advanced, Meta.revision, Meta.revision, kept]

theorem act_notes (fresh : Fresh system) : NotesKept files system action (system.act files backend action) := by
  obtain same | ⟨event, rfl, accepted⟩ | ⟨-, index, world, waiting, rfl, found, accepted⟩ := system.act_store files backend action
  · exact ⟨by rw [same], fun next present => ⟨next, same ▸ present, rfl, rfl, .kept rfl⟩⟩
  · cases event with
    | mutation world name m =>
      obtain ⟨target, task, note, commits⟩ := mutate_eq_ok fresh.distinct accepted
      obtain ⟨revision, name_⟩ := committed_revision world.now commits.applied
      refine rewritten_notes commits.member ?_ ?_ commits.tasks ?_
      · rfl
      · exact name_
      · exact .noted world name m task note world.now rfl commits.named commits.applied revision rfl
    | observation world observations =>
      obtain ⟨⟨key, tasks⟩, -, -⟩ := observation_eq_ok accepted
      exact observed_notes tasks
  · obtain ⟨target, task, note, located, revision, applied, -, -, -, -, tasks⟩ := commitPrepared_eq_ok accepted
    obtain ⟨member, named⟩ := locate_eq_ok located
    obtain ⟨next, name⟩ := committed_revision waiting.call.at_ applied
    -- the compared revision is the loaded one, so the loaded body is the one that stands
    have body := fresh.current waiting (List.mem_of_getElem? found) target located revision
    rw [updatedRow_eq fresh.distinct member named, body] at tasks
    refine rewritten_notes member ?_ ?_ tasks ?_
    · rfl
    · exact name
    · exact .noted world waiting.name waiting.mutation task note waiting.call.at_ (by simp [System.mutationOf, found]) named applied
        next rfl

/-- A step never takes a revision back, and changes the body only with it. -/
theorem BodyStep.ahead {before next : Task} (step : BodyStep files system action before next) :
    Meta.revision before.fields ≤ Meta.revision next.fields ∧
      (Meta.revision next.fields = Meta.revision before.fields → next.body = before.body) := by
  cases step with
  | kept same =>
    subst same
    exact ⟨le_refl _, fun _ => rfl⟩
  | observed revision body => exact ⟨by omega, fun _ => body⟩
  | noted _ _ _ _ _ _ _ _ _ revision _ => exact ⟨by omega, fun same => by omega⟩

/-- A call that waited before an action still does not know more than the store. -/
theorem NotesKept.waits {after : System} (kept : NotesKept files system action after) (fresh : Fresh system)
    {waiting : Pending} (member : waiting ∈ system.pending) {next : Task} (found : locate after.store waiting.name = .ok next) :
    waiting.call.expected ≤ Meta.revision next.fields ∧
      (Meta.revision next.fields = waiting.call.expected → waiting.call.body = next.body) := by
  obtain ⟨present, named⟩ := locate_eq_ok found
  obtain ⟨before, old, -, name, step⟩ := kept.steps next present
  have located := locate_of_mem fresh.distinct old (name.trans named)
  obtain ⟨ahead, body⟩ := step.ahead
  have reached := fresh.reached waiting member before located
  refine ⟨reached.trans ahead, fun same => ?_⟩
  rw [body (by omega)]
  exact fresh.current waiting member before located (by omega)

theorem act_fresh (fresh : Fresh system) (loaded : Loaded system action) : Fresh (system.act files backend action) := by
  have kept : NotesKept files system action (system.act files backend action) := act_notes fresh
  have old : ∀ waiting ∈ system.pending, ∀ next, locate (system.act files backend action).store waiting.name = .ok next →
      waiting.call.expected ≤ Meta.revision next.fields ∧
        (Meta.revision next.fields = waiting.call.expected → waiting.call.body = next.body) :=
    fun waiting member next found => kept.waits fresh member found
  have all : ∀ waiting ∈ (system.act files backend action).pending, ∀ next,
      locate (system.act files backend action).store waiting.name = .ok next →
        waiting.call.expected ≤ Meta.revision next.fields ∧
          (Meta.revision next.fields = waiting.call.expected → waiting.call.body = next.body) := by
    intro waiting member next found
    obtain there | ⟨same, world, prepared, rfl⟩ := System.act_pending member
    · exact old waiting there next found
    · obtain ⟨-, target, located, -, body, -, expected⟩ := prepare_eq_ok prepared
      rw [same] at found
      obtain rfl : target = next := Except.ok.inj (located.symm.trans found)
      refine ⟨?_, fun _ => body⟩
      rw [expected]
      cases given : waiting.mutation.expectedRevision with
      | none => exact le_refl _
      | some revision => exact loaded target located revision given
  exact ⟨system.act_distinct files backend action fresh.distinct, fun waiting member next found => (all waiting member next found).1,
    fun waiting member next found => (all waiting member next found).2⟩

end steps

/-- Two clients that load the same task before either commits. -/
def claimedTwice : List Action :=
  [.load sampleWorld "AR-0001" (.claim ⟨"first", 60, none, none, none⟩), .load sampleWorld "AR-0001" (.claim ⟨"second", 60, none, none, none⟩),
    .transact 0 sampleWorld, .transact 0 sampleWorld]

end Coordinator.Authority
