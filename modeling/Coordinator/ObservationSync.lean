import Coordinator.Revision
import Coordinator.TaskSet

/-! Synchronized observations. Both authorities write what they observe of a bound worktree and
advance the revision; what that does to the validity of a task, and that it leaves the relations
between tasks alone. -/

namespace Coordinator.Authority
open Kit Dict TaskGraph TaskValidation

/-- The observation under a key differs from what a task records. -/
def changes (observations : List Observation) (key : String) (task : Meta) : Bool :=
  (observationOf observations key).any (·.differs task)

/-- A synchronization that writes a task finds no diagnostic hold on it. -/
def Unfenced (observations : List Observation) (key : String) (task : Meta) : Prop :=
  changes observations key task = true → (AutonomyLimits.holdOf task).isNull = true

def observationFields : List String := ["observed_branch", "observed_head", "observed_dirty"]

theorem values_within (seen : Observation) (task : Meta) :
    Within observationFields task (task.update seen.values) :=
  (within_refl _ task).update (by simp [Observation.values, observationFields])

/-- A task is synchronized by the observation under its key, or left alone. -/
theorem syncTask_cases (observations : List Observation) (at_ key : String) (task : Task) :
    (changes observations key task.fields = false ∧ syncTask observations at_ key task = task) ∨
      ∃ seen, changes observations key task.fields = true ∧
        syncTask observations at_ key task = { task with fields := observed seen task.fields at_ } := by
  unfold changes syncTask
  cases observationOf observations key with
  | none => exact Or.inl ⟨rfl, rfl⟩
  | some seen =>
    cases differs : seen.differs task.fields with
    | false => exact Or.inl ⟨by simp [differs], by simp [differs]⟩
    | true => exact Or.inr ⟨seen, by simp [differs], by simp [differs]⟩

theorem syncTask_within (observations : List Observation) (at_ key : String) (task : Task) :
    Within (observationFields ++ revisionFields) task.fields (syncTask observations at_ key task).fields := by
  obtain ⟨-, same⟩ | ⟨seen, -, same⟩ := syncTask_cases observations at_ key task
  · rw [same]
    exact within_refl _ _
  · rw [same]
    exact ((values_within seen task.fields).mono (by simp +contextual)).trans
      ((advanced_within _ at_).mono (by simp +contextual))

theorem syncTask_path (observations : List Observation) (at_ key : String) (task : Task) :
    (syncTask observations at_ key task).path = task.path := by
  obtain ⟨-, same⟩ | ⟨seen, -, same⟩ := syncTask_cases observations at_ key task <;> rw [same]

section members

variable {files : Files} {includeLedger : Bool} (observations : List Observation) (clock : Clock)

theorem observedValues_valid {task : Meta} (valid : Valid files includeLedger task) (seen : Observation) :
    Valid files includeLedger (task.update seen.values) := by
  refine valid.change (values_within seen task) (by decide) (fun name required written => ?_) ?_
  · exact absurd written (by revert name; decide)
  · have touches : touched files includeLedger observationFields = [] := rfl
    rw [touches]
    simp

/-- Synchronization keeps a task valid exactly when it writes no task with a hold. -/
theorem syncTask_valid_iff {task : Task} (valid : Valid files includeLedger task.fields) (key : String) :
    Valid files includeLedger (syncTask observations clock.stamp key task).fields ↔
      Unfenced observations key task.fields := by
  obtain ⟨still, same⟩ | ⟨seen, moved, same⟩ := syncTask_cases observations clock.stamp key task
  · rw [same]
    simp [Unfenced, still, valid]
  · have ledgers : AutonomyLimits.holdOf (task.fields.update seen.values) = AutonomyLimits.holdOf task.fields := by
      rw [AutonomyLimits.holdOf, AutonomyLimits.ledger, (values_within seen task.fields).get (by decide)]
      rfl
    have stays := valid_advanced_iff clock (observedValues_valid valid seen)
    rw [ledgers] at stays
    rw [same]
    simp only [Unfenced, moved, forall_const]
    exact stays

end members

section sets

variable (observations : List Observation) (at_ : String)

theorem syncTask_alike (key : String) (task : Task) : Alike (syncTask observations at_ key task) task := by
  have frame := syncTask_within observations at_ key task
  have kept : statusOf (syncTask observations at_ key task) = statusOf task := frame.get (by decide)
  exact ⟨frame.sameOn (by decide), by rw [kept], by rw [kept]⟩

theorem syncTask_quieter (key : String) (task : Task) : Quieter (syncTask observations at_ key task) task := by
  have frame := syncTask_within observations at_ key task
  refine ⟨frame.textOr (by decide), fun active => ⟨?_, fun field listed => frame.get ?_⟩⟩
  · have kept : status (syncTask observations at_ key task).fields = status task.fields := frame.get (by decide)
    rw [isActive, kept] at active
    exact active
  · revert field
    decide

theorem claimErrors_same (world : Moment) {a b : Meta} (same : SameOn ["id", "status", "owner", "claim_expires"] a b) :
    claimErrors world a = claimErrors world b := by
  have name : taskText a = taskText b := same.textOr (by simp)
  have state : status a = status b := same.get (by simp)
  have holder : owner a = owner b := same.get (by simp)
  have lease : claimExpires a = claimExpires b := same.get (by simp)
  rw [claimErrors, claimErrors, name, state, holder, lease]

theorem synchronized_paths (key : Task → String) (tasks : List Task) :
    (tasks.map (fun task => syncTask observations at_ (key task) task)).map (·.path) = tasks.map (·.path) := by
  rw [List.map_map]
  exact List.map_congr_left fun task _ => syncTask_path observations at_ (key task) task

theorem relations_synchronized (key : Task → String) {tasks : List Task} (clean : mutationGlobalErrors tasks = []) :
    mutationGlobalErrors (tasks.map (fun task => syncTask observations at_ (key task) task)) = [] := by
  have alike : ∀ task ∈ tasks, Alike (syncTask observations at_ (key task) task) task :=
    fun task _ => syncTask_alike observations at_ (key task) task
  simp only [mutationGlobalErrors, List.append_eq_nil_iff] at clean ⊢
  obtain ⟨⟨⟨identities, graph⟩, hierarchy⟩, successors⟩ := clean
  rw [graphErrors_map alike, hierarchyErrors_map alike, supersessionErrors_map alike]
  exact ⟨⟨⟨identitiesErrors_map (fun task _ => syncTask_quieter observations at_ (key task) task) identities,
    graph⟩, hierarchy⟩, successors⟩

/-- A set in order stays in order exactly when no member is written under its hold. -/
theorem synchronizedSet_valid_iff {files : Files} {tasks : List Task} (valid : ValidTasks files tasks) (clock : Clock)
    (key : Task → String) :
    ValidTasks files (tasks.map (fun task => syncTask observations clock.stamp (key task) task)) ↔
      ∀ task ∈ tasks, Unfenced observations (key task) task.fields := by
  constructor
  · intro after task member
    exact (syncTask_valid_iff observations clock (valid.members task member) (key task)).mp
      (after.members _ (List.mem_map_of_mem member))
  · intro unfenced
    refine ⟨?_, ?_, ?_, relations_synchronized observations clock.stamp key valid.relations⟩
    · rw [synchronized_paths]
      exact valid.paths
    · intro after member
      obtain ⟨task, present, rfl⟩ := List.mem_map.mp member
      exact (syncTask_valid_iff observations clock (valid.members task present) (key task)).mpr (unfenced task present)
    · intro after member
      obtain ⟨task, present, rfl⟩ := List.mem_map.mp member
      obtain ⟨world, clean⟩ := valid.claims task present
      refine ⟨world, ?_⟩
      rw [claimErrors_same world ((syncTask_within observations clock.stamp (key task) task).sameOn (by decide))]
      exact clean

end sets

/-- Under either authority, a synchronized task, and the synchronized set, stay valid exactly when
no task is written that carries a hold. -/
theorem synchronized_valid_iff {files : Files} {tasks : List Task} (valid : ValidTasks files tasks)
    (observations : List Observation) (clock : Clock) :
    (∀ task ∈ tasks, ∀ key, Valid files true (syncTask observations clock.stamp key task).fields ↔
        Unfenced observations key task.fields) ∧
      (ValidTasks files (syncTaskObservations observations clock.stamp tasks) ↔
        ∀ task ∈ tasks, Unfenced observations (task.fields.get "worktree_key").text task.fields) ∧
      (ValidTasks files (updateObservations observations clock.stamp tasks) ↔
        ∀ task ∈ tasks, Unfenced observations (task.fields.textOr "worktree_key") task.fields) :=
  ⟨fun task member key => syncTask_valid_iff observations clock (valid.members task member) key,
    synchronizedSet_valid_iff observations valid clock _, synchronizedSet_valid_iff observations valid clock _⟩

/-- The sample task, bound to a worktree. -/
def boundSample : Meta := claimedSample ++ [("worktree_key", .str "worktree-1"), ("branch", .str "topic")]

def sampleObservation : Observation := ⟨"worktree-1", "topic", "0123456789012345678901234567890123456789", 2⟩

/-- A store with one task and no history. -/
def sampleStore (task : Meta) : Store where
  tasks := [⟨"AR-0001.md", task, "Body.\n"⟩]
  sessions _ := []
  checkpoints _ := []
  events := []

theorem sampleStore_valid {task : Meta}
    (clean : memberErrors sampleFiles sampleWorld ⟨"AR-0001.md", task, "Body.\n"⟩ = [])
    (relations : mutationGlobalErrors (sampleStore task).tasks = []) :
    ValidTasks sampleFiles (sampleStore task).tasks := by
  rw [memberErrors, List.append_eq_nil_iff, basicTaskErrors_eq_nil] at clean
  refine ⟨by simp [sampleStore], ?_, ?_, relations⟩
  · simpa [sampleStore] using clean.1
  · simpa [sampleStore] using ⟨sampleWorld, clean.2⟩

theorem boundSample_valid : ValidTasks sampleFiles (sampleStore boundSample).tasks :=
  sampleStore_valid (by decide +kernel) (by decide +kernel)

/-- Observation of the bound sample leaves a valid set, since the sample holds nothing. -/
theorem synchronized_boundSample :
    ValidTasks sampleFiles (syncTaskObservations [sampleObservation] sampleWorld.now (sampleStore boundSample).tasks) :=
  (synchronized_valid_iff boundSample_valid [sampleObservation] sampleWorld.clock).2.1.mpr (by
    simp only [sampleStore, List.forall_mem_cons, List.not_mem_nil, IsEmpty.forall_iff, implies_true, and_true]
    exact fun _ => by decide)

/-- The bound sample under a diagnostic hold at its revision. -/
def heldSample : Meta := boundSample.set "autonomy_limits" heldLedger

theorem heldSample_valid : ValidTasks sampleFiles (sampleStore heldSample).tasks :=
  sampleStore_valid (by decide +kernel) (by decide +kernel)

/-- Under either authority, an observation of the held sample makes its metadata invalid. -/
theorem observation_breaks_hold : ValidTasks sampleFiles (sampleStore heldSample).tasks ∧
    (∀ task ∈ syncTaskObservations [sampleObservation] sampleWorld.now (sampleStore heldSample).tasks,
      ¬Valid sampleFiles true task.fields) ∧
    ∀ task ∈ updateObservations [sampleObservation] sampleWorld.now (sampleStore heldSample).tasks,
      ¬Valid sampleFiles true task.fields := by
  have rejected (tasks : List Task)
      (found : tasks.all (fun task => !(basicTaskErrors sampleFiles "AR-0001.md" task.fields true).isEmpty) = true) :
      ∀ task ∈ tasks, ¬Valid sampleFiles true task.fields := by
    intro task member valid
    have errors := List.all_eq_true.mp found task member
    rw [basicTaskErrors_eq_nil.mpr valid] at errors
    exact absurd errors (by decide)
  exact ⟨heldSample_valid, rejected _ (by decide +kernel), rejected _ (by decide +kernel)⟩

end Coordinator.Authority
