import Coordinator.TaskHierarchy
import Coordinator.TaskSet

/-! Two task sets without a common identifier: what the checks of the task set say of them together. -/

namespace Coordinator.TaskUnion
open Kit TaskGraph TaskValidation

/-- A cycle stays on the side of a relation that its first step is on. -/
theorem acyclic_union {α : Type} {first second both : α → α → Prop} (inside : α → Prop) (acyclic : Graph.Acyclic first)
    (other : Graph.Acyclic second) (sides : ∀ a b, both a b → first a b ∧ inside a ∧ inside b ∨ second a b ∧ ¬ inside a ∧ ¬ inside b) :
    Graph.Acyclic both := by
  have stays {a b : α} (path : Relation.TransGen both a b) :
      Relation.TransGen first a b ∧ inside a ∧ inside b ∨ Relation.TransGen second a b ∧ ¬ inside a ∧ ¬ inside b := by
    induction path with
    | single step =>
      rcases sides _ _ step with ⟨step, here, there⟩ | ⟨step, here, there⟩
      · exact .inl ⟨.single step, here, there⟩
      · exact .inr ⟨.single step, here, there⟩
    | tail _ step ih =>
      rcases ih with ⟨path, here, middle⟩ | ⟨path, here, middle⟩
      · rcases sides _ _ step with ⟨step, -, there⟩ | ⟨-, outside, -⟩
        · exact .inl ⟨path.tail step, here, there⟩
        · exact absurd middle outside
      · rcases sides _ _ step with ⟨-, within, -⟩ | ⟨step, -, there⟩
        · exact absurd within middle
        · exact .inr ⟨path.tail step, here, there⟩
  intro a cycle
  rcases stays cycle with ⟨path, -⟩ | ⟨path, -⟩
  · exact acyclic a path
  · exact other a path

section union

variable {tasks added : List Task}

theorem byText_append (name : String) : byText (tasks ++ added) name = (byText added name).or (byText tasks name) := by
  rw [byText, List.reverse_append, List.find?_append]
  rfl

theorem byId_append (name : String) : byId (tasks ++ added) name = (byId added name).or (byId tasks name) := by
  rw [byId, List.reverse_append, List.find?_append]
  rfl

theorem parentIn_append (name : String) : parentIn (tasks ++ added) name = (parentIn added name).or (parentIn tasks name) := by
  rw [parentIn, List.reverse_append, List.find?_append, Option.map_or]
  rfl

theorem byText_outside {name : String} (unknown : name ∉ tasks.map idOf) : byText tasks name = none := by
  rw [← Option.not_isSome_iff_eq_none, byText_isSome]
  exact unknown

theorem byId_outside {name : String} (unknown : name ∉ tasks.map idOf) : byId tasks name = none := by
  rw [byId, List.find?_eq_none]
  intro task member named
  rw [Json.beq_str] at named
  exact unknown (List.mem_map.mpr ⟨task, List.mem_reverse.mp member, Dict.textOr_of_str named⟩)

theorem parentIn_outside {name : String} (unknown : name ∉ tasks.map idOf) : parentIn tasks name = none := by
  cases found : parentIn tasks name with
  | none => rfl
  | some parent => exact absurd (List.mem_dedup.mp (parentIn_known found)) unknown

theorem byText_right {name : String} (known : name ∈ added.map idOf) : byText (tasks ++ added) name = byText added name := by
  rw [byText_append]
  obtain ⟨task, found⟩ := Option.isSome_iff_exists.mp (byText_isSome.mpr known)
  rw [found, Option.some_or]

/-- More tasks leave a list of dependencies in order. -/
theorem lists_mono {known more : List String} {task : Meta} {items : List String}
    (lists : ListsDependencies known task items) (grown : known ⊆ more) : ListsDependencies more task items :=
  ⟨lists.texts, lists.distinct, fun item member => grown (lists.known item member)⟩

/-- What a clean graph says. -/
structure CleanGraph (tasks : List Task) : Prop where
  distinct : (tasks.map idOf).Nodup
  lists : ∀ task ∈ tasks, ∃ items, ListsDependencies (tasks.map idOf) task.fields items
  acyclic : Graph.Acyclic (TaskGraph.DependsOn tasks)

theorem cleanGraph_of_nil (clean : graphErrors tasks = []) : CleanGraph tasks := by
  rw [graphErrors, List.append_eq_nil_iff, dependencyShape_eq_nil, cycleErrors_eq_nil] at clean
  obtain ⟨⟨distinct, shape⟩, acyclic⟩ := clean
  have same : Graph.Follows (targets (graphOf tasks)) = TaskGraph.DependsOn tasks :=
    funext fun a => funext fun b => propext (follows_iff distinct (fun task member => (shape task member).2) a b)
  rw [same] at acyclic
  exact ⟨distinct, fun task member => ⟨_, (shape task member).2⟩, acyclic⟩

theorem CleanGraph.nil (clean : CleanGraph tasks) : graphErrors tasks = [] := by
  have read (task : Task) (member : task ∈ tasks) :
      ListsDependencies (tasks.map idOf) task.fields (taskDependencies task.fields (tasks.map idOf)).2 := by
    obtain ⟨items, listed⟩ := clean.lists task member
    rw [taskDependencies_items listed]
    exact listed
  have same : Graph.Follows (targets (graphOf tasks)) = TaskGraph.DependsOn tasks :=
    funext fun a => funext fun b => propext (follows_iff clean.distinct read a b)
  rw [graphErrors, List.append_eq_nil_iff, dependencyShape_eq_nil, cycleErrors_eq_nil, same]
  refine ⟨⟨clean.distinct, fun task member => ⟨fun self => ?_, read task member⟩⟩, clean.acyclic⟩
  -- a task that lists itself is a cycle
  refine clean.acyclic (idOf task) (.single ⟨task, member, rfl, ?_⟩)
  rw [(read task member).texts]
  exact List.mem_map_of_mem self

theorem CleanGraph.known (clean : CleanGraph tasks) {a b : String} (step : TaskGraph.DependsOn tasks a b) :
    a ∈ tasks.map idOf ∧ b ∈ tasks.map idOf := by
  obtain ⟨task, member, rfl, listed⟩ := step
  obtain ⟨items, lists⟩ := clean.lists task member
  rw [lists.texts, Json.items, List.mem_map] at listed
  obtain ⟨item, inside, same⟩ := listed
  obtain rfl := Json.str.inj same
  exact ⟨List.mem_map_of_mem member, lists.known item inside⟩

theorem dependsOn_append {a b : String} :
    TaskGraph.DependsOn (tasks ++ added) a b ↔ TaskGraph.DependsOn tasks a b ∨ TaskGraph.DependsOn added a b := by
  simp only [TaskGraph.DependsOn, List.mem_append, or_and_right, exists_or]

section apart

variable (apart : ∀ name ∈ tasks.map idOf, name ∉ added.map idOf)

include apart

theorem byText_left {name : String} (known : name ∈ tasks.map idOf) : byText (tasks ++ added) name = byText tasks name := by
  rw [byText_append, byText_outside (apart name known), Option.none_or]

theorem distinct_append (distinct : (tasks.map idOf).Nodup) (other : (added.map idOf).Nodup) : ((tasks ++ added).map idOf).Nodup := by
  rw [List.map_append, List.nodup_append]
  refine ⟨distinct, other, ?_⟩
  rintro name known other unknown rfl
  exact apart name known unknown

theorem CleanGraph.append (clean : CleanGraph tasks) (other : CleanGraph added) : CleanGraph (tasks ++ added) where
  distinct := distinct_append apart clean.distinct other.distinct
  lists := by
    intro task member
    rw [List.map_append]
    rcases List.mem_append.mp member with member | member
    · obtain ⟨items, lists⟩ := clean.lists task member
      exact ⟨items, lists_mono lists (List.subset_append_left _ _)⟩
    · obtain ⟨items, lists⟩ := other.lists task member
      exact ⟨items, lists_mono lists (List.subset_append_right _ _)⟩
  acyclic := by
    refine acyclic_union (fun name => name ∈ tasks.map idOf) clean.acyclic other.acyclic fun a b step => ?_
    rcases dependsOn_append.mp step with step | step
    · exact .inl ⟨step, clean.known step⟩
    · have known := other.known step
      exact .inr ⟨step, fun here => apart a here known.1, fun here => apart b here known.2⟩

/-- The links of two clean hierarchies do not meet. -/
theorem hierarchyErrors_append (clean : hierarchyErrors tasks = []) (other : hierarchyErrors added = []) :
    hierarchyErrors (tasks ++ added) = [] := by
  rw [hierarchyErrors_eq_nil] at clean other ⊢
  obtain ⟨links, back, acyclic⟩ := clean
  obtain ⟨otherLinks, otherBack, otherAcyclic⟩ := other
  have left {name : String} (known : name ∈ tasks.map idOf) : parentIn (tasks ++ added) name = parentIn tasks name := by
    rw [parentIn_append, parentIn_outside (apart name known), Option.none_or]
  have right {name : String} (known : name ∈ added.map idOf) : parentIn (tasks ++ added) name = parentIn added name := by
    rw [parentIn_append, parentIn_outside (fun here => apart name here known), Option.or_none]
  have parents {set : List Task} {task : Task} (grown : set ⊆ tasks ++ added) (ok : parentErrors set task = []) :
      parentErrors (tasks ++ added) task = [] := by
    rw [parentErrors_eq_nil] at ok ⊢
    rcases ok with falsy | ⟨parent, named, shape, differs, known⟩
    · exact .inl falsy
    · exact .inr ⟨parent, named, shape, differs, List.map_subset idOf grown known⟩
  refine ⟨fun task member => ?_, fun child known parent named => ?_, ?_⟩
  · rcases List.mem_append.mp member with member | member
    · refine ⟨parents (List.subset_append_left _ _) (links task member).1, ?_⟩
      have children := childErrors_eq_nil.mp (links task member).2
      refine childErrors_eq_nil.mpr ⟨children.1, fun child listed => ?_⟩
      obtain ⟨found, located, pointing⟩ := children.2 child listed
      refine ⟨found, ?_, pointing⟩
      rw [byText_left apart (byText_isSome.mp (Option.isSome_of_eq_some located)), located]
    · refine ⟨parents (List.subset_append_right _ _) (otherLinks task member).1, ?_⟩
      have children := childErrors_eq_nil.mp (otherLinks task member).2
      refine childErrors_eq_nil.mpr ⟨children.1, fun child listed => ?_⟩
      obtain ⟨found, located, pointing⟩ := children.2 child listed
      refine ⟨found, ?_, pointing⟩
      rw [byText_right (byText_isSome.mp (Option.isSome_of_eq_some located)), located]
  · rw [climbersOf, List.mem_dedup, List.map_append, List.mem_append] at known
    rcases known with known | known
    · rw [left known] at named
      obtain ⟨task, located, listed⟩ := back child (List.mem_dedup.mpr known) parent named
      exact ⟨task, by rw [byText_left apart (byText_isSome.mp (Option.isSome_of_eq_some located)), located], listed⟩
    · rw [right known] at named
      obtain ⟨task, located, listed⟩ := otherBack child (List.mem_dedup.mpr known) parent named
      exact ⟨task, by rw [byText_right (byText_isSome.mp (Option.isSome_of_eq_some located)), located], listed⟩
  · refine acyclic_union (fun name => name ∈ tasks.map idOf) acyclic otherAcyclic fun a b step => ?_
    have climber := List.mem_dedup.mp (parentIn_known step)
    rw [List.map_append, List.mem_append] at climber
    rcases climber with known | known
    · rw [left known] at step
      obtain ⟨task, located, -⟩ := back a (List.mem_dedup.mpr known) b step
      exact .inl ⟨step, known, byText_isSome.mp (Option.isSome_of_eq_some located)⟩
    · rw [right known] at step
      obtain ⟨task, located, -⟩ := otherBack a (List.mem_dedup.mpr known) b step
      have there := byText_isSome.mp (Option.isSome_of_eq_some located)
      exact .inr ⟨step, fun here => apart a here known, fun here => apart b here there⟩

/-- A chain of successors is the same beside other tasks, however much further it may be followed. -/
theorem followSuccessors_append {fuel more : Nat} (enough : fuel ≤ more) {seen : List String} {current : String}
    (arrives : followSuccessors tasks fuel seen current = true) : followSuccessors (tasks ++ added) more seen current = true := by
  induction fuel generalizing more seen current with
  | zero => cases arrives
  | succ fuel ih =>
    cases more with
    | zero => omega
    | succ more =>
      rw [followSuccessors] at arrives ⊢
      split at arrives
      next => cases arrives
      next fresh =>
        rw [if_neg fresh]
        cases found : byId tasks current with
        | none =>
          rw [found] at arrives
          cases arrives
        | some task =>
          have known : current ∈ tasks.map idOf := by
            by_contra unknown
            rw [byId_outside unknown] at found
            cases found
          rw [byId_append, byId_outside (apart current known), Option.none_or, found]
          rw [found] at arrives
          dsimp only at arrives ⊢
          split at arrives
          next done => rw [if_pos done]
          next notDone =>
            rw [if_neg notDone]
            split at arrives
            next => cases arrives
            next superseded =>
              rw [if_neg superseded]
              split at arrives
              next valid =>
                rw [if_pos valid]
                exact ih (by omega) arrives
              next => cases arrives

theorem supersessionErrors_append (clean : supersessionErrors tasks = []) (plain : ∀ task ∈ added, (task.fields.get "superseded_by").isNull = true) :
    supersessionErrors (tasks ++ added) = [] := by
  rw [supersessionErrors, List.flatMap_eq_nil_iff] at clean ⊢
  intro task member
  rcases List.mem_append.mp member with member | member
  · have ok := clean task member
    simp only [supersessionError] at ok ⊢
    split at ok
    next none_ => rw [if_pos none_]
    next some_ =>
      rw [if_neg some_]
      split at ok
      next => cases ok
      next superseded =>
        rw [if_neg superseded]
        split at ok
        next => cases ok
        next valid =>
          rw [if_neg valid]
          split at ok
          next => cases ok
          next differs =>
            rw [if_neg differs]
            split at ok
            next => cases ok
            next known =>
              have there : ((byId (tasks ++ added) (task.fields.get "superseded_by").text).isNone) = false := by
                rw [byId_append, Option.isNone_or, Bool.and_eq_false_iff]
                exact .inr (Bool.not_eq_true _ ▸ known)
              rw [if_neg (by rw [there]; exact Bool.false_ne_true)]
              split at ok
              next => cases ok
              next ends =>
                rw [Bool.not_eq_true', Bool.not_eq_false] at ends
                have further : dependencySatisfied (task.fields.get "superseded_by").text (tasks ++ added) = true :=
                  followSuccessors_append apart (by rw [List.length_append]; omega) ends
                rw [further]
                rfl
  · rw [supersessionError, if_pos (plain task member)]

/-- Inactive tasks share no key with others. -/
theorem identitiesErrors_append (clean : identitiesErrors [] tasks = []) (distinct : (added.map idOf).Nodup)
    (idle : ∀ task ∈ added, isActive task.fields = false) : identitiesErrors [] (tasks ++ added) = [] := by
  rw [identitiesErrors_eq_nil] at clean ⊢
  have quiet {a b : Task} (named : idOf a ≠ idOf b) (member : b ∈ added) : Apart a b := by
    refine ⟨named, fun _ active => ?_⟩
    rw [idle b member] at active
    cases active
  refine ⟨fun task member => ?_, List.pairwise_append.mpr ⟨clean.2, ?_, fun a here b there => quiet ?_ there⟩⟩
  · rcases List.mem_append.mp member with member | member
    · exact clean.1 task member
    · intro active
      rw [idle task member] at active
      cases active
  · have named : added.Pairwise fun a b => idOf a ≠ idOf b := List.pairwise_map.mp distinct
    exact named.imp_of_mem fun _ member differs => quiet differs member
  · intro same
    exact apart (idOf a) (List.mem_map_of_mem here) (same ▸ List.mem_map_of_mem there)

/-- A task set without errors stays so when it takes in another one with other identifiers and no active task. -/
theorem mutationGlobalErrors_append (clean : mutationGlobalErrors tasks = []) (other : mutationGlobalErrors added = [])
    (idle : ∀ task ∈ added, isActive task.fields = false)
    (plain : ∀ task ∈ added, (task.fields.get "superseded_by").isNull = true) : mutationGlobalErrors (tasks ++ added) = [] := by
  simp only [mutationGlobalErrors, List.append_eq_nil_iff] at clean other ⊢
  have graph := cleanGraph_of_nil other.1.1.2
  exact ⟨⟨⟨identitiesErrors_append apart clean.1.1.1 graph.distinct idle,
    (CleanGraph.append apart (cleanGraph_of_nil clean.1.1.2) graph).nil⟩, hierarchyErrors_append apart clean.1.2 other.1.2⟩,
    supersessionErrors_append apart clean.2 plain⟩

end apart

end union

end Coordinator.TaskUnion
