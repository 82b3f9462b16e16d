import Coordinator.Kit.Graph
import Coordinator.TaskGraph
import Mathlib.Data.List.Count
import Mathlib.Data.List.Dedup

/-! What the checks of the dependency graph decide: that a chain of successors ends at a task that is done, and
that the dependencies of a task set form a graph without a cycle. -/

namespace Coordinator.TaskGraph
open Kit

section successors

variable (tasks : List Task)

/-- The task that a superseded one names in its place. -/
def successorOf (taskId : String) : Option String :=
  (byId tasks taskId).bind fun task =>
    let successor := task.fields.get "superseded_by"
    if statusOf task == .str "superseded" && successor.isStr && isTaskId successor.text then some successor.text else none

def isDone (taskId : String) : Bool := (byId tasks taskId).any fun task => statusOf task == .str "done"

variable {tasks}

theorem successorOf_known {taskId successor : String} (step : successorOf tasks taskId = some successor) :
    taskId ∈ tasks.map idOf := by
  obtain ⟨task, found, -⟩ := Option.bind_eq_some_iff.mp step
  unfold byId at found
  have named := List.find?_some found
  rw [Json.beq_str] at named
  have member := List.mem_reverse.mp (List.mem_of_find?_eq_some found)
  exact List.mem_map.mpr ⟨task, member, Dict.textOr_of_str named⟩

theorem followSuccessors_eq (fuel : Nat) (seen : List String) (current : String) :
    followSuccessors tasks fuel seen current = Graph.follow (successorOf tasks) (isDone tasks) fuel seen current := by
  induction fuel generalizing seen current with
  | zero => rfl
  | succ fuel ih =>
    rw [followSuccessors, Graph.follow]
    by_cases again : current ∈ seen
    · rw [if_pos again, if_pos (List.contains_iff_mem.mpr again)]
    rw [if_neg again, if_neg (fun listed => again (List.contains_iff_mem.mp listed))]
    cases found : byId tasks current with
    | none => simp [isDone, successorOf, found]
    | some task =>
      cases done : statusOf task == .str "done" with
      | true => simp [isDone, found, done]
      | false =>
        cases superseded : statusOf task == .str "superseded" with
        | false => simp [isDone, successorOf, found, done, superseded, bne]
        | true =>
          cases valid : (task.fields.get "superseded_by").isStr && isTaskId (task.fields.get "superseded_by").text with
          | false => simp [isDone, successorOf, found, done, superseded, valid, bne, Bool.and_assoc]
          | true => simp [isDone, successorOf, found, done, superseded, valid, bne, Bool.and_assoc, ih]

/-- A dependency is satisfied exactly if its successors lead to a task that is done without meeting a task again.
The search ends by itself: it never runs out of fuel. -/
theorem dependency_satisfied_iff (tasks : List Task) (dependencyId : String) :
    (dependencySatisfied dependencyId tasks = true ↔
      ∃ rest, Graph.Arrives (successorOf tasks) (isDone tasks) (dependencyId :: rest)) ∧
    ∀ fuel, tasks.length < fuel → followSuccessors tasks fuel [] dependencyId = dependencySatisfied dependencyId tasks := by
  have exact_ (fuel : Nat) (room : tasks.length < fuel) : followSuccessors tasks fuel [] dependencyId = true ↔
      ∃ rest, Graph.Arrives (successorOf tasks) (isDone tasks) (dependencyId :: rest) := by
    have known (a b : String) (step : successorOf tasks a = some b) : a ∈ tasks.map idOf := successorOf_known step
    rw [followSuccessors_eq, Graph.follow_iff known List.nodup_nil (List.forall_mem_nil _)
      (by simpa using room)]
    simp
  refine ⟨exact_ _ (Nat.lt_succ_self _), fun fuel room => ?_⟩
  rw [Bool.eq_iff_iff, exact_ fuel room, dependencySatisfied, exact_ _ (Nat.lt_succ_self _)]

end successors

section dependencies

/-- A task lists a dependency. -/
def DependsOn (tasks : List Task) (dependent dependency : String) : Prop :=
  ∃ task ∈ tasks, idOf task = dependent ∧ .str dependency ∈ (dependenciesOf task.fields).items

/-- A list of different dependencies on known tasks. -/
structure ListsDependencies (known : List String) (task : Meta) (items : List String) : Prop where
  texts : dependenciesOf task = .arr (items.map .str)
  distinct : items.Nodup
  known : ∀ item ∈ items, item ∈ known

/-- The dependencies of a node that are nodes themselves, in order. -/
def targets (graph : String → Option (List String)) (taskId : String) : List String :=
  (sortedText (((graph taskId).getD []).dedup)).filter fun dependency => (graph dependency).isSome

def cycleText (cycle : List String) : String := "dependency cycle: " ++ Text.joined " -> " cycle

def Search.general (search : Search) : Graph.Search String String := ⟨search.finished, search.stack, search.errors⟩

theorem mem_sortedText {messages : List String} {message : String} : message ∈ sortedText messages ↔ message ∈ messages :=
  (List.perm_insertionSort _ messages).mem_iff

theorem sortedText_eq_nil {messages : List String} : sortedText messages = [] ↔ messages = [] := by
  rw [← List.length_eq_zero_iff, sortedText, List.length_insertionSort, List.length_eq_zero_iff]

theorem visit_general (graph : String → Option (List String)) (fuel : Nat) (search : Search) (taskId : String) :
    (visit graph fuel search taskId).general = Graph.explore (targets graph) cycleText fuel search.general taskId := by
  induction fuel generalizing search taskId with
  | zero => rfl
  | succ fuel ih =>
    rw [visit, Graph.explore]
    by_cases left : taskId ∈ search.finished
    · rw [if_pos (List.contains_iff_mem.mpr left), if_pos (show taskId ∈ search.general.finished from left)]
    rw [if_neg (fun listed => left (List.contains_iff_mem.mp listed)), if_neg (show taskId ∉ search.general.finished from left)]
    by_cases again : taskId ∈ search.stack
    · rw [if_pos (List.contains_iff_mem.mpr again), if_pos (show taskId ∈ search.general.stack from again)]
      rfl
    rw [if_neg (fun listed => again (List.contains_iff_mem.mp listed)), if_neg (show taskId ∉ search.general.stack from again)]
    have folded : (targets graph taskId).foldl (Graph.explore (targets graph) cycleText fuel)
        ({ search with stack := search.stack ++ [taskId] } : Search).general =
          ((targets graph taskId).foldl (visit graph fuel) { search with stack := search.stack ++ [taskId] }).general :=
      List.foldl_hom Search.general fun current dependency => (ih current dependency).symm
    simp only [Search.general] at folded ⊢
    rw [folded]
    rfl

theorem repeated_eq_nil {items : List String} : items.dedup.filter (fun item => 1 < items.count item) = [] ↔ items.Nodup := by
  rw [List.filter_eq_nil_iff, List.nodup_iff_count]
  constructor
  · intro once item
    by_cases member : item ∈ items
    · exact Nat.le_of_not_lt fun twice => once item (List.mem_dedup.mpr member) (decide_eq_true twice)
    · rw [List.count_eq_zero_of_not_mem member]
      exact Nat.zero_le 1
  · intro once item _ twice
    exact absurd (of_decide_eq_true twice) (Nat.not_lt.mpr (once item))

theorem taskDependencies_eq_nil {task : Meta} {known : List String} :
    (taskDependencies task known).1 = [] ↔ taskText task ∉ (taskDependencies task known).2 ∧
      ListsDependencies known task (taskDependencies task known).2 := by
  unfold taskDependencies
  by_cases typed : (!(dependenciesOf task).isArr || !(dependenciesOf task).items.all (·.isStr)) = true
  · rw [if_pos typed]
    refine ⟨fun never => absurd never (List.cons_ne_nil _ _), ?_⟩
    rintro ⟨-, texts, -⟩
    rw [texts] at typed
    simp [Json.isArr, Json.items, Json.isStr] at typed
  · rw [if_neg typed]
    simp only [Bool.or_eq_true, Bool.not_eq_true', not_or, Bool.not_eq_false, List.all_eq_true] at typed
    obtain ⟨listed, texts⟩ := typed
    obtain ⟨values, isList⟩ := Json.isArr_iff.mp listed
    rw [isList] at texts
    have spelled : dependenciesOf task = .arr (((dependenciesOf task).items.map Json.text).map .str) := by
      have each : values.map (fun value => Json.str value.text) = values.map id := List.map_congr_left fun value member => by
        obtain ⟨word, rfl⟩ := Json.isStr_iff.mp (texts value member)
        rfl
      rw [List.map_id] at each
      rw [isList, List.map_map]
      exact congrArg Json.arr each.symm
    have distinct {items : List String} : (sortedText (items.dedup.filter fun item => 1 < items.count item)) = [] ↔ items.Nodup :=
      sortedText_eq_nil.trans repeated_eq_nil
    simp only [List.append_eq_nil_iff, List.map_eq_nil_iff, distinct, List.filter_eq_nil_iff, beq_iff_eq, Bool.not_eq_true',
      ← Bool.not_eq_true, not_not, List.contains_iff_mem]
    constructor
    · rintro ⟨⟨nodup, other⟩, known⟩
      exact ⟨fun member => other _ member rfl, spelled, nodup, known⟩
    · rintro ⟨other, -, nodup, known⟩
      exact ⟨⟨nodup, fun item member same => other (same ▸ member)⟩, known⟩

theorem taskDependencies_items {task : Meta} {known items : List String} (listed : ListsDependencies known task items) :
    (taskDependencies task known).2 = items := by
  have texts : (items.map Json.str).all (·.isStr) = true := List.all_eq_true.mpr fun value member => by
    obtain ⟨item, -, rfl⟩ := List.mem_map.mp member
    rfl
  have same : (items.map Json.str).map Json.text = items := by
    rw [List.map_map]
    exact List.map_id _
  simp only [taskDependencies, listed.texts, Json.isArr, Json.items, texts, same, Bool.not_true, Bool.or_false,
    Bool.false_eq_true, ↓reduceIte]

theorem dependencyShape_eq_nil {tasks : List Task} : dependencyShape tasks = [] ↔
    (tasks.map idOf).Nodup ∧ ∀ task ∈ tasks, idOf task ∉ (taskDependencies task.fields (tasks.map idOf)).2 ∧
      ListsDependencies (tasks.map idOf) task.fields (taskDependencies task.fields (tasks.map idOf)).2 := by
  simp only [dependencyShape, List.append_eq_nil_iff, List.map_eq_nil_iff, List.flatMap_eq_nil_iff, taskDependencies_eq_nil]
  exact and_congr_left' (sortedText_eq_nil.trans repeated_eq_nil)

variable {tasks : List Task}

theorem byText_eq_some {taskId : String} {task : Task} (found : byText tasks taskId = some task) :
    task ∈ tasks ∧ idOf task = taskId := by
  unfold byText at found
  have named := List.find?_some found
  exact ⟨List.mem_reverse.mp (List.mem_of_find?_eq_some found), beq_iff_eq.mp named⟩

theorem byText_isSome {taskId : String} : (byText tasks taskId).isSome = true ↔ taskId ∈ tasks.map idOf := by
  rw [byText, List.find?_isSome, List.mem_map]
  simp only [List.mem_reverse, beq_iff_eq]

/-- Under different identifiers, a task is found under its own. -/
theorem byText_of_mem (distinct : (tasks.map idOf).Nodup) {task : Task} (member : task ∈ tasks) :
    byText tasks (idOf task) = some task := by
  obtain ⟨first, found⟩ := Option.isSome_iff_exists.mp (byText_isSome.mpr (List.mem_map_of_mem member))
  obtain ⟨inside, same⟩ := byText_eq_some found
  obtain rfl : first = task := List.inj_on_of_nodup_map distinct inside member same
  exact found

theorem graphOf_eq (tasks : List Task) (taskId : String) : graphOf tasks taskId =
    (byText tasks taskId).map fun task => (taskDependencies task.fields (tasks.map idOf)).2 := rfl

theorem graphOf_isSome {taskId : String} : (graphOf tasks taskId).isSome = true ↔ taskId ∈ tasks.map idOf := by
  rw [graphOf_eq, Option.isSome_map, byText_isSome]

/-- The nodes that a search starts from. -/
def nodesOf (tasks : List Task) : List String := sortedText (tasks.map idOf).dedup

theorem mem_nodesOf {taskId : String} : taskId ∈ nodesOf tasks ↔ taskId ∈ tasks.map idOf := by
  rw [nodesOf, mem_sortedText, List.mem_dedup]

theorem targets_closed (taskId : String) : targets (graphOf tasks) taskId ⊆ nodesOf tasks := by
  intro dependency member
  exact mem_nodesOf.mpr (graphOf_isSome.mp (List.mem_filter.mp member).2)

theorem targets_outside {taskId : String} (unknown : taskId ∉ nodesOf tasks) : targets (graphOf tasks) taskId = [] := by
  have none_ : graphOf tasks taskId = none := by
    rw [← Option.not_isSome_iff_eq_none, graphOf_isSome]
    exact fun known => unknown (mem_nodesOf.mpr known)
  rw [targets, none_]
  rfl

theorem search_general (tasks : List Task) (fuel : Nat) (starts : List String) (search : Search) :
    (starts.foldl (visit (graphOf tasks) fuel) search).general =
      starts.foldl (Graph.explore (targets (graphOf tasks)) cycleText fuel) search.general :=
  (List.foldl_hom Search.general fun current start => (visit_general _ _ current start).symm).symm

theorem errors_general (tasks : List Task) (fuel : Nat) :
    ((nodesOf tasks).foldl (visit (graphOf tasks) fuel) ⟨[], [], []⟩).errors =
      ((nodesOf tasks).foldl (Graph.explore (targets (graphOf tasks)) cycleText fuel) ⟨[], [], []⟩).reports :=
  congrArg Graph.Search.reports (search_general tasks fuel (nodesOf tasks) ⟨[], [], []⟩)

/-- The search reports nothing exactly about a graph without a cycle. -/
theorem cycleErrors_eq_nil : cycleErrors tasks = [] ↔ Graph.Acyclic (Graph.Follows (targets (graphOf tasks))) :=
  (Eq.congr_left (errors_general tasks ((nodesOf tasks).length + 1))).trans
    (Graph.reports_eq_nil cycleText targets_closed (fun _ => targets_outside) (Nat.lt_succ_self _))

/-- In a task set that is in order otherwise, the search follows the dependencies. -/
theorem follows_iff (distinct : (tasks.map idOf).Nodup) (lists : ∀ task ∈ tasks,
    ListsDependencies (tasks.map idOf) task.fields (taskDependencies task.fields (tasks.map idOf)).2) (a b : String) :
    Graph.Follows (targets (graphOf tasks)) a b ↔ DependsOn tasks a b := by
  have listed {task : Task} (member : task ∈ tasks) : b ∈ (taskDependencies task.fields (tasks.map idOf)).2 ↔
      .str b ∈ (dependenciesOf task.fields).items := by
    rw [(lists task member).texts, Json.items, List.mem_map]
    simp
  rw [Graph.Follows, targets, List.mem_filter, mem_sortedText, List.mem_dedup, graphOf_isSome]
  constructor
  · rintro ⟨member, -⟩
    cases found : byText tasks a with
    | none =>
      rw [graphOf_eq, found] at member
      cases member
    | some task =>
      obtain ⟨inside, named⟩ := byText_eq_some found
      rw [graphOf_eq, found] at member
      exact ⟨task, inside, named, (listed inside).mp member⟩
  · rintro ⟨task, inside, rfl, member⟩
    have depends := (listed inside).mpr member
    rw [graphOf_eq, byText_of_mem distinct inside]
    exact ⟨depends, (lists task inside).known b depends⟩

/-- Two tasks of one identifier, without dependencies. -/
def twins : List Task := [⟨"AR-0001-a.md", [("id", .str "AR-0001")], ""⟩, ⟨"AR-0001-b.md", [("id", .str "AR-0001")], ""⟩]

end dependencies

end Coordinator.TaskGraph
