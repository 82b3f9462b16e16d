import Coordinator.Validity

/-! Task sets in which some members are rewritten: what the relations between tasks read of a
member, and that a rewriting which keeps that leaves their errors alone. -/

namespace Coordinator.TaskGraph
open Kit Dict

theorem find?_map_congr {α : Type} {f : α → α} {p : α → Bool} {values : List α}
    (same : ∀ value ∈ values, p (f value) = p value) : (values.map f).find? p = (values.find? p).map f := by
  induction values with
  | nil => rfl
  | cons value rest ih =>
    have tail := ih fun other member => same other (by simp [member])
    rw [List.map_cons, List.find?_cons, List.find?_cons, same value (by simp)]
    cases p value with
    | true => rfl
    | false => exact tail

theorem reverse_find?_map {tasks : List Task} {f : Task → Task} {p : Task → Bool}
    (same : ∀ task ∈ tasks, p (f task) = p task) :
    (tasks.map f).reverse.find? p = (tasks.reverse.find? p).map f := by
  rw [← List.map_reverse]
  exact find?_map_congr fun task member => same task (List.mem_reverse.mp member)

def relationFields : List String := ["id", "depends_on", "parent_task_ref", "children", "superseded_by"]

/-- The relations between tasks do not tell one version of a task from the other. -/
structure Alike (new old : Task) : Prop where
  same : SameOn relationFields new.fields old.fields
  done : (statusOf new == .str "done") = (statusOf old == .str "done")
  superseded : (statusOf new != .str "superseded") = (statusOf old != .str "superseded")

section versions

variable {new old : Task}

theorem Alike.id (alike : Alike new old) : idOf new = idOf old :=
  alike.same.textOr (by simp [relationFields])

theorem Alike.idField (alike : Alike new old) : new.fields.get "id" = old.fields.get "id" :=
  alike.same.get (by simp [relationFields])

theorem Alike.dependencies (alike : Alike new old) : dependenciesOf new.fields = dependenciesOf old.fields := by
  rw [dependenciesOf, dependenciesOf, alike.same.has (by simp [relationFields]),
    alike.same.get (by simp [relationFields])]

theorem Alike.taskDependencies (alike : Alike new old) (known : List String) :
    taskDependencies new.fields known = taskDependencies old.fields known := by
  have name : taskText new.fields = taskText old.fields := alike.id
  simp only [TaskGraph.taskDependencies, alike.dependencies, name]

theorem Alike.parent (alike : Alike new old) : parentOf new.fields = parentOf old.fields := by
  rw [parentOf, parentOf, alike.same.has (by simp [relationFields]), alike.same.get (by simp [relationFields])]

theorem Alike.children (alike : Alike new old) : childrenOf new.fields = childrenOf old.fields := by
  have name : taskText new.fields = taskText old.fields := alike.id
  simp only [childrenOf, name, alike.same.has (show "children" ∈ _ by simp [relationFields]),
    alike.same.get (show "children" ∈ _ by simp [relationFields])]

theorem Alike.successor (alike : Alike new old) : new.fields.get "superseded_by" = old.fields.get "superseded_by" :=
  alike.same.get (by simp [relationFields])

end versions

section sets

variable {tasks : List Task} {f : Task → Task} (alike : ∀ task ∈ tasks, Alike (f task) task)

include alike

theorem map_idOf : (tasks.map f).map idOf = tasks.map idOf := by
  rw [List.map_map]
  exact List.map_congr_left fun task member => (alike task member).id

theorem found_alike {p : Task → Bool} {task : Task} (found : tasks.reverse.find? p = some task) :
    Alike (f task) task := alike task (List.mem_reverse.mp (List.mem_of_find?_eq_some found))

theorem byId_map (name : String) : byId (tasks.map f) name = (byId tasks name).map f :=
  reverse_find?_map fun task member => by rw [(alike task member).idField]

theorem byText_map (name : String) : byText (tasks.map f) name = (byText tasks name).map f :=
  reverse_find?_map fun task member => by rw [(alike task member).id]

theorem graphOf_map (name : String) : graphOf (tasks.map f) name = graphOf tasks name := by
  have found : (tasks.map f).reverse.find? (fun task => idOf task == name) =
      (tasks.reverse.find? (fun task => idOf task == name)).map f := byText_map alike name
  rw [graphOf, graphOf, found, map_idOf alike]
  cases here : tasks.reverse.find? (fun task => idOf task == name) with
  | none => rfl
  | some task => simp only [Option.map_some, (found_alike alike here).taskDependencies]

theorem graphErrors_map : graphErrors (tasks.map f) = graphErrors tasks := by
  have graphs : graphOf (tasks.map f) = graphOf tasks := funext (graphOf_map alike)
  have shapes : (tasks.map f).flatMap (fun task => (taskDependencies task.fields (tasks.map idOf)).1) =
      tasks.flatMap (fun task => (taskDependencies task.fields (tasks.map idOf)).1) := by
    rw [List.flatMap_map]
    exact List.flatMap_congr fun task member => by rw [(alike task member).taskDependencies]
  simp only [graphErrors, dependencyShape, cycleErrors, map_idOf alike, graphs, shapes]

theorem parentIn_map (name : String) : parentIn (tasks.map f) name = parentIn tasks name := by
  have found : (tasks.map f).reverse.find? (fun task => idOf task == name && (parentOf task.fields).truthy &&
      isTaskRef (parentOf task.fields)) = (tasks.reverse.find? (fun task => idOf task == name &&
        (parentOf task.fields).truthy && isTaskRef (parentOf task.fields))).map f :=
    reverse_find?_map fun task member => by rw [(alike task member).id, (alike task member).parent]
  rw [parentIn, parentIn, found]
  cases here : tasks.reverse.find? (fun task => idOf task == name && (parentOf task.fields).truthy &&
    isTaskRef (parentOf task.fields)) with
  | none => rfl
  | some task => simp only [Option.map_some, (found_alike alike here).parent]

theorem climbs_map (fuel : Nat) : ∀ seen name, climbs (tasks.map f) fuel seen name = climbs tasks fuel seen name := by
  induction fuel with
  | zero => exact fun _ _ => rfl
  | succ fuel ih =>
    intro seen name
    simp only [climbs, parentIn_map alike, ih]

theorem parentErrors_map {task : Task} (member : task ∈ tasks) :
    parentErrors (tasks.map f) (f task) = parentErrors tasks task := by
  simp only [parentErrors, (alike task member).parent, (alike task member).id, byText_map alike,
    Option.isNone_map]

theorem childErrors_map {task : Task} (member : task ∈ tasks) :
    childErrors (tasks.map f) (f task) = childErrors tasks task := by
  simp only [childErrors, (alike task member).children, (alike task member).id, byText_map alike]
  congr 1
  refine List.flatMap_congr fun child _ => ?_
  cases here : byText tasks child with
  | none => rfl
  | some found => simp only [Option.map_some, (found_alike alike here).parent]

theorem hierarchyErrors_map : hierarchyErrors (tasks.map f) = hierarchyErrors tasks := by
  have listed (parent child : String) : (byText (tasks.map f) parent).any
      (fun task => (childrenOf task.fields).1.contains child) =
        (byText tasks parent).any (fun task => (childrenOf task.fields).1.contains child) := by
    rw [byText_map alike]
    cases here : byText tasks parent with
    | none => rfl
    | some found => simp only [Option.map_some, Option.any_some, (found_alike alike here).children]
  have members : (tasks.map f).flatMap (fun task => parentErrors (tasks.map f) task ++ childErrors (tasks.map f) task) =
      tasks.flatMap (fun task => parentErrors tasks task ++ childErrors tasks task) := by
    rw [List.flatMap_map]
    exact List.flatMap_congr fun task member => by
      rw [parentErrors_map alike member, childErrors_map alike member]
  simp only [hierarchyErrors, map_idOf alike, listed, members, parentIn_map alike, climbs_map alike]

theorem followSuccessors_map (fuel : Nat) :
    ∀ seen name, followSuccessors (tasks.map f) fuel seen name = followSuccessors tasks fuel seen name := by
  induction fuel with
  | zero => exact fun _ _ => rfl
  | succ fuel ih =>
    intro seen name
    simp only [followSuccessors, byId_map alike]
    cases here : byId tasks name with
    | none => rfl
    | some task =>
      have version := found_alike alike here
      simp only [Option.map_some, version.done, version.superseded, version.successor, ih]

theorem dependencySatisfied_map (name : String) :
    dependencySatisfied name (tasks.map f) = dependencySatisfied name tasks := by
  rw [dependencySatisfied, dependencySatisfied, List.length_map, followSuccessors_map alike]

theorem supersessionErrors_map : supersessionErrors (tasks.map f) = supersessionErrors tasks := by
  rw [supersessionErrors, supersessionErrors, List.flatMap_map]
  refine List.flatMap_congr fun task member => ?_
  have version := alike task member
  simp only [supersessionError, version.successor, version.superseded, version.id, byId_map alike,
    Option.isNone_map, dependencySatisfied_map alike]

end sets

end Coordinator.TaskGraph

namespace Coordinator.TaskValidation
open Kit Dict TaskGraph

/-- Two tasks have different names and, when both are active, share no key. -/
structure Apart (a b : Task) : Prop where
  names : idOf a ≠ idOf b
  keys : isActive a.fields = true → isActive b.fields = true → ∀ field ∈ activeFields,
    (b.fields.get field).truthy = true → (a.fields.get field == b.fields.get field) = false

/-- The keys of an active task can be compared. -/
def KeysHashable (task : Task) : Prop :=
  isActive task.fields = true → ∀ field ∈ activeFields, (task.fields.get field).truthy = true →
    ExecutionEnvelope.hashable (task.fields.get field) = true

theorem sharedFieldErrors_eq_nil {before : List Task} {task : Task} {field : String} :
    sharedFieldErrors before task field = [] ↔ ((task.fields.get field).truthy = true →
      ExecutionEnvelope.hashable (task.fields.get field) = true ∧
        ∀ other ∈ before, isActive other.fields = true →
          (other.fields.get field == task.fields.get field) = false) := by
  simp only [sharedFieldErrors]
  cases (task.fields.get field).truthy with
  | false => simp
  | true =>
    cases ExecutionEnvelope.hashable (task.fields.get field) with
    | false => simp
    | true =>
      cases found : before.find? (fun other =>
          isActive other.fields && other.fields.get field == task.fields.get field) with
      | none => simpa using found
      | some other =>
        have holder := List.find?_some found
        rw [Bool.and_eq_true] at holder
        have member := List.mem_of_find?_eq_some found
        simp only [Bool.not_true, Bool.false_eq_true, ↓reduceIte, reduceCtorEq, true_and, forall_const, false_iff,
          not_forall]
        exact ⟨other, member, holder.1, by simp [holder.2]⟩

theorem identityErrors_eq_nil {before : List Task} {task : Task} :
    identityErrors before task = [] ↔ KeysHashable task ∧ ∀ other ∈ before, Apart other task := by
  simp only [identityErrors, List.append_eq_nil_iff, errorIf_eq_nil]
  constructor
  · rintro ⟨names, keys⟩
    have distinct (other : Task) (member : other ∈ before) : idOf other ≠ idOf task := by
      simpa using List.any_eq_false.mp names other member
    cases active : isActive task.fields with
    | false => exact ⟨fun held => by simp [active] at held,
        fun other member => ⟨distinct other member, fun _ held => by simp [active] at held⟩⟩
    | true =>
      simp only [active, ↓reduceIte, List.flatMap_eq_nil_iff, sharedFieldErrors_eq_nil] at keys
      exact ⟨fun _ field listed present => (keys field listed present).1, fun other member =>
        ⟨distinct other member, fun held _ field listed present => (keys field listed present).2 other member held⟩⟩
  · rintro ⟨hashable, apart⟩
    refine ⟨List.any_eq_false.mpr fun other member => by simpa using (apart other member).names, ?_⟩
    cases active : isActive task.fields with
    | false => rfl
    | true =>
      simp only [↓reduceIte, List.flatMap_eq_nil_iff, sharedFieldErrors_eq_nil]
      exact fun field listed present => ⟨hashable active field listed present, fun other member held =>
        (apart other member).keys held active field listed present⟩

theorem identitiesErrors_before {tasks : List Task} : ∀ {before : List Task}, identitiesErrors before tasks = [] ↔
    (∀ task ∈ tasks, KeysHashable task) ∧ (∀ other ∈ before, ∀ task ∈ tasks, Apart other task) ∧
      tasks.Pairwise Apart := by
  induction tasks with
  | nil => simp [identitiesErrors]
  | cons task rest ih =>
    intro before
    simp only [identitiesErrors, List.append_eq_nil_iff, identityErrors_eq_nil, ih, List.mem_append,
      List.mem_singleton, List.forall_mem_cons, List.pairwise_cons]
    constructor
    · rintro ⟨⟨hashable, apart⟩, others, earlier, later⟩
      exact ⟨⟨hashable, others⟩, fun other member => ⟨apart other member, earlier other (Or.inl member)⟩,
        earlier task (Or.inr rfl), later⟩
    · rintro ⟨⟨hashable, others⟩, earlier, next, later⟩
      refine ⟨⟨hashable, fun other member => (earlier other member).1⟩, others, ?_, later⟩
      rintro other (member | rfl)
      · exact (earlier other member).2
      · exact next

/-- No identity error means that the tasks are apart from each other. -/
theorem identitiesErrors_eq_nil {tasks : List Task} :
    identitiesErrors [] tasks = [] ↔ (∀ task ∈ tasks, KeysHashable task) ∧ tasks.Pairwise Apart := by
  simp [identitiesErrors_before]

/-- A version of a task that keeps its name and, where it is active, was active under the same keys. -/
structure Quieter (new old : Task) : Prop where
  name : idOf new = idOf old
  active : isActive new.fields = true → isActive old.fields = true ∧
    ∀ field ∈ activeFields, new.fields.get field = old.fields.get field

theorem identitiesErrors_map {tasks : List Task} {f : Task → Task} (quieter : ∀ task ∈ tasks, Quieter (f task) task)
    (clean : identitiesErrors [] tasks = []) : identitiesErrors [] (tasks.map f) = [] := by
  rw [identitiesErrors_eq_nil] at clean ⊢
  obtain ⟨hashable, apart⟩ := clean
  constructor
  · intro task member
    obtain ⟨old, present, rfl⟩ := List.mem_map.mp member
    intro active field listed
    obtain ⟨before, keys⟩ := (quieter old present).active active
    rw [keys field listed]
    exact hashable old present before field listed
  · rw [List.pairwise_map]
    refine apart.imp_of_mem fun {a b} first second pair => ⟨?_, ?_⟩
    · rw [(quieter a first).name, (quieter b second).name]
      exact pair.names
    · intro activeA activeB field listed
      obtain ⟨heldA, keysA⟩ := (quieter a first).active activeA
      obtain ⟨heldB, keysB⟩ := (quieter b second).active activeB
      rw [keysA field listed, keysB field listed]
      exact pair.keys heldA heldB field listed

/-- A task set in order: valid members with claims that were in order once, and sound relations. -/
structure ValidTasks (files : Files) (tasks : List Task) : Prop where
  paths : (tasks.map (·.path)).Nodup
  members : ∀ task ∈ tasks, Valid files true task.fields
  claims : ∀ task ∈ tasks, ∃ world, claimErrors world task.fields = []
  relations : mutationGlobalErrors tasks = []

end Coordinator.TaskValidation
