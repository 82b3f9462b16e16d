import Coordinator.Commit

/-! Clients that call an authority at the same time. The Git authority holds its lock over a whole
call. A call of the SQLite authority first reads a snapshot and commits later, after what other
clients have committed in between. -/

namespace Coordinator.Authority
open Kit Dict TaskGraph TaskValidation Transitions

/-- A call whose snapshot is loaded and whose transaction is still to come. -/
structure Pending where
  name : String
  mutation : Mutation
  call : Prepared

structure System where
  store : Store
  pending : List Pending

inductive Action where
  | event (event : Event)
  | load (world : Moment) (name : String) (m : Mutation)
  | transact (index : Nat) (world : Moment)

/-- The store after a transaction, unchanged when it is rolled back. -/
def transacted (files : Files) (world : Moment) (store : Store) (waiting : Pending) : Store :=
  match commitPrepared files world waiting.call store waiting.name waiting.mutation with
  | .ok after => after
  | .error _ => store

def System.act (files : Files) (backend : Backend) (system : System) : Action → System
  | .event event => { system with store := step files backend system.store event }
  | .load world name m =>
      match backend, prepare world system.store name m with
      | .sqlite, .ok call => { system with pending := system.pending ++ [⟨name, m, call⟩] }
      | _, _ => system
  | .transact index world =>
      match backend, system.pending[index]? with
      | .sqlite, some waiting =>
          { store := transacted files world system.store waiting, pending := system.pending.eraseIdx index }
      | _, _ => system

/-- The mutation that an action asks the authority for. -/
def System.mutationOf (system : System) : Action → Option (Moment × String × Mutation)
  | .event (.mutation world name m) => some (world, name, m)
  | .event (.observation ..) | .load .. => none
  | .transact index world => system.pending[index]?.map (fun waiting => (world, waiting.name, waiting.mutation))

/-- What an accepted mutation does to the tasks, whichever snapshot its client has loaded. -/
structure Rewrites (files : Files) (world : Moment) (store : Store) (name : String) (m : Mutation) (target : Task)
    (task : Meta) (after : Store) : Prop where
  member : target ∈ store.tasks
  named : target.fields.get "id" = .str name
  applied : ∃ note, applyTransition (contextOf files world store name) target.fields m = .ok (task, note)
  tasks : ∃ at_ body, after.tasks = rewritten store.tasks { target with fields := advanced task at_, body := body }

section rewrites

variable {files : Files} {world : Moment} {store after : Store} {name : String} {m : Mutation} {target : Task}
  {task : Meta}

theorem Commits.rewrites {backend : Backend} {note : String}
    (commits : Commits files backend world store name m target task note after) :
    Rewrites files world store name m target task after :=
  ⟨commits.member, commits.named, ⟨note, commits.applied⟩, world.now, _, commits.tasks⟩

/-- What the transaction of any call checks of the row that it writes. -/
theorem commitPrepared_rewrites {call : Prepared} (distinct : Distinct store.tasks)
    (accepted : commitPrepared files world call store name m = .ok after) :
    ∃ target task at_ body, Rewrites files world store name m target task after ∧
      after.tasks = rewritten store.tasks { target with fields := advanced task at_, body := body } ∧
      schemaAccepts store.tasks name (advanced task at_) = true ∧
      Valid files m.includeLedger (AutonomyLimits.nextRevisionProjection task) := by
  obtain ⟨target, task, note, found, -, applied, clean, row, -, -, tasks⟩ := commitPrepared_eq_ok accepted
  obtain ⟨member, named⟩ := locate_eq_ok found
  rw [updatedRow_eq distinct member named] at tasks
  exact ⟨target, task, call.at_, _, ⟨member, named, ⟨note, applied⟩, _, _, tasks⟩, tasks, row,
    (transitionErrors_eq_nil.mp clean).1⟩

/-- The task that a rewriting leaves under a path. -/
theorem Rewrites.next (rewrites : Rewrites files world store name m target task after) {next : Task}
    (present : next ∈ after.tasks) :
    (next.path = target.path ∧ ∃ at_, next.fields = advanced task at_) ∨ (next ∈ store.tasks ∧ next.path ≠ target.path) := by
  obtain ⟨at_, body, tasks⟩ := rewrites.tasks
  rw [tasks] at present
  obtain rfl | ⟨old, apart⟩ := mem_rewritten present
  · exact Or.inl ⟨rfl, at_, rfl⟩
  · exact Or.inr ⟨old, apart⟩

theorem Rewrites.distinct (rewrites : Rewrites files world store name m target task after)
    (distinct : Distinct store.tasks) : Distinct after.tasks := by
  obtain ⟨note, applied⟩ := rewrites.applied
  obtain ⟨at_, body, tasks⟩ := rewrites.tasks
  have frame : Within m.writes target.fields task := transition_within _ _ m (task, note) applied
  have name : taskText (advanced task at_) = idOf target :=
    taskText_advanced.trans (frame.textOr (not_mem_writes m (by simp)))
  rw [tasks]
  exact rewritten_distinct distinct rewrites.member rfl name

end rewrites

/-- How an action changes the store, if it does: by a mutation or by an observation. -/
inductive Changes (files : Files) (backend : Backend) (system : System) (action : Action) (after : Store) : Prop where
  | mutation (world : Moment) (name : String) (m : Mutation) (target : Task) (task : Meta)
      (asked : system.mutationOf action = some (world, name, m))
      (rewrites : Rewrites files world system.store name m target task after)
  | observation (observations : List Observation) (at_ : String) (key : Task → String)
      (tasks : after.tasks = system.store.tasks.map (fun task => syncTask observations at_ (key task) task))

theorem transacted_cases (files : Files) (world : Moment) (store : Store) (waiting : Pending) :
    transacted files world store waiting = store ∨
      commitPrepared files world waiting.call store waiting.name waiting.mutation =
        .ok (transacted files world store waiting) := by
  unfold transacted
  cases commitPrepared files world waiting.call store waiting.name waiting.mutation with
  | error fault => exact Or.inl rfl
  | ok after => exact Or.inr rfl

/-- An action leaves the store alone or changes it by what the authority accepted. -/
theorem System.act_store (files : Files) (backend : Backend) (system : System) (action : Action) :
    (system.act files backend action).store = system.store ∨
      (∃ event, action = .event event ∧ attempt files backend system.store event = .ok (system.act files backend action).store) ∨
      (backend = .sqlite ∧ ∃ index world waiting, action = .transact index world ∧ system.pending[index]? = some waiting ∧
        commitPrepared files world waiting.call system.store waiting.name waiting.mutation =
          .ok (system.act files backend action).store) := by
  cases action with
  | event event =>
    obtain same | accepted := step_cases files backend system.store event
    · exact Or.inl same
    · exact Or.inr (Or.inl ⟨event, rfl, accepted⟩)
  | load world name m =>
    unfold System.act
    dsimp only
    split <;> exact Or.inl rfl
  | transact index world =>
    cases backend with
    | git => exact Or.inl rfl
    | sqlite =>
      cases found : system.pending[index]? with
      | none =>
        have stays : system.act files .sqlite (.transact index world) = system := by simp [System.act, found]
        exact Or.inl (by rw [stays])
      | some waiting =>
        have moves : (system.act files .sqlite (.transact index world)).store =
            transacted files world system.store waiting := by simp [System.act, found]
        rw [moves]
        obtain same | accepted := transacted_cases files world system.store waiting
        · exact Or.inl same
        · exact Or.inr (Or.inr ⟨rfl, index, world, waiting, rfl, found, accepted⟩)

/-- A call that waits has waited before, or it has just been loaded. -/
theorem System.act_pending {files : Files} {backend : Backend} {system : System} {action : Action} {waiting : Pending}
    (member : waiting ∈ (system.act files backend action).pending) :
    waiting ∈ system.pending ∨ ((system.act files backend action).store = system.store ∧
      ∃ world, prepare world system.store waiting.name waiting.mutation = .ok waiting.call ∧
        action = .load world waiting.name waiting.mutation) := by
  cases action with
  | event event => exact Or.inl member
  | load world name m =>
    cases backend with
    | git => exact Or.inl member
    | sqlite =>
      cases prepared : prepare world system.store name m with
      | error fault =>
        have stays : system.act files .sqlite (.load world name m) = system := by simp [System.act, prepared]
        exact Or.inl (stays ▸ member)
      | ok call =>
        have grows : system.act files .sqlite (.load world name m) =
            { system with pending := system.pending ++ [⟨name, m, call⟩] } := by simp [System.act, prepared]
        rw [grows] at member ⊢
        obtain there | here := List.mem_append.mp member
        · exact Or.inl there
        · rw [List.mem_singleton] at here
          subst here
          exact Or.inr ⟨rfl, world, prepared, rfl⟩
  | transact index world =>
    cases backend with
    | git => exact Or.inl member
    | sqlite =>
      cases found : system.pending[index]? with
      | none =>
        have stays : system.act files .sqlite (.transact index world) = system := by simp [System.act, found]
        exact Or.inl (stays ▸ member)
      | some given =>
        have drops : (system.act files .sqlite (.transact index world)).pending = system.pending.eraseIdx index := by
          simp [System.act, found]
        rw [drops] at member
        exact Or.inl (List.mem_of_mem_eraseIdx member)

theorem System.act_changes (files : Files) (backend : Backend) (system : System) (action : Action)
    (distinct : Distinct system.store.tasks) : (system.act files backend action).store = system.store ∨
      Changes files backend system action (system.act files backend action).store := by
  obtain same | ⟨event, rfl, accepted⟩ | ⟨-, index, world, waiting, rfl, found, accepted⟩ :=
    system.act_store files backend action
  · exact Or.inl same
  · cases event with
    | mutation world name m =>
      obtain ⟨target, task, note, commits⟩ := mutate_eq_ok distinct accepted
      exact Or.inr (.mutation world name m target task rfl commits.rewrites)
    | observation world observations =>
      obtain ⟨⟨key, tasks⟩, -, -⟩ := observation_eq_ok accepted
      exact Or.inr (.observation observations world.now key tasks)
  · obtain ⟨target, task, at_, body, rewrites, -, -, -⟩ := commitPrepared_rewrites distinct accepted
    exact Or.inr (.mutation world waiting.name waiting.mutation target task (by simp [System.mutationOf, found]) rewrites)

/-- Every action keeps paths and identifiers distinct. -/
theorem System.act_distinct (files : Files) (backend : Backend) {system : System} (action : Action)
    (distinct : Distinct system.store.tasks) : Distinct (system.act files backend action).store.tasks := by
  obtain same | changes := system.act_changes files backend action distinct
  · rw [same]
    exact distinct
  · cases changes with
    | mutation world name m target task asked rewrites => exact rewrites.distinct distinct
    | observation observations at_ key tasks =>
      rw [tasks]
      exact synchronized_distinct distinct observations at_ key

end Coordinator.Authority
