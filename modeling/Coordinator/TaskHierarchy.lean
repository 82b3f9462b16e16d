import Coordinator.DependencyGraph

/-! What the check of the hierarchy decides: that parents and children name each other and form a forest. -/

namespace Coordinator.TaskGraph
open Kit

/-- The children that a task lists, before any check of them. -/
def childrenField (task : Meta) : Json := if task.has "children" then task.get "children" else .arr []

/-- A task names its parent. -/
def HasParent (tasks : List Task) (child parent : String) : Prop :=
  ∃ task ∈ tasks, idOf task = child ∧ parentOf task.fields = .str parent ∧ parent ≠ ""

/-- A task lists a child. -/
def HasChild (tasks : List Task) (parent child : String) : Prop :=
  ∃ task ∈ tasks, idOf task = parent ∧ .str child ∈ (childrenField task.fields).items

/-- The links of a task are texts. -/
structure Linked (task : Meta) : Prop where
  parent : (parentOf task).truthy = false ∨ (parentOf task).isStr = true
  children : ∃ items : List String, childrenField task = .arr (items.map .str) ∧ items.Nodup

/-- Links in both directions between known tasks, each the inverse of the other, without a cycle. -/
structure Forest (tasks : List Task) : Prop where
  linked : ∀ task ∈ tasks, Linked task.fields
  known : ∀ child parent, HasParent tasks child parent → parent ∈ tasks.map idOf
  knownChild : ∀ parent child, HasChild tasks parent child → child ∈ tasks.map idOf
  inverse : ∀ child parent, HasParent tasks child parent ↔ HasChild tasks parent child
  acyclic : Graph.Acyclic (HasParent tasks)

section texts

/-- What does not count as a parent does not read as an identifier either. -/
theorem toText_falsy {value : Json} (falsy : value.truthy = false) : ExecutionEnvelope.isTask value.toText = false := by
  cases value with
  | null => decide +kernel
  | bool flag =>
    obtain rfl : flag = false := falsy
    decide +kernel
  | int number =>
    obtain rfl : number = 0 := by simpa [Json.truthy] using falsy
    decide +kernel
  | float mantissa exponent =>
    obtain rfl : mantissa = 0 := by simpa [Json.truthy] using falsy
    have zero : (Json.float 0 exponent).toText = "0.0" := rfl
    rw [zero]
    decide +kernel
  | str word =>
    obtain rfl : word = "" := by simpa using falsy
    decide +kernel
  | arr items =>
    cases items with
    | nil => decide +kernel
    | cons => cases falsy
  | obj fields =>
    cases fields with
    | nil => decide +kernel
    | cons => cases falsy

theorem isTask_ne_empty {name : String} (shape : ExecutionEnvelope.isTask name = true) : name ≠ "" := by
  rintro rfl
  exact absurd shape (by decide +kernel)

theorem isTaskRef_iff {value : Json} : isTaskRef value = true ↔ ∃ name, value = .str name ∧ ExecutionEnvelope.isTask name = true := by
  rw [isTaskRef, Bool.and_eq_true, Json.isStr_iff]
  constructor
  · rintro ⟨⟨name, rfl⟩, shape⟩
    exact ⟨name, rfl, shape⟩
  · rintro ⟨name, rfl, shape⟩
    exact ⟨⟨name, rfl⟩, shape⟩

end texts

section links

variable {tasks : List Task} {task : Task}

theorem parentErrors_eq_nil : parentErrors tasks task = [] ↔ (parentOf task.fields).truthy = false ∨
    ∃ parent, parentOf task.fields = .str parent ∧ ExecutionEnvelope.isTask parent = true ∧ parent ≠ idOf task ∧
      parent ∈ tasks.map idOf := by
  cases there : (parentOf task.fields).truthy with
  | false => simp [parentErrors, there]
  | true =>
    cases shape : isTaskRef (parentOf task.fields) with
    | false =>
      simp only [parentErrors, there, shape, Bool.not_false, Bool.and_true, ↓reduceIte, Bool.true_eq_false, false_or]
      refine ⟨fun never => absurd never (List.cons_ne_nil _ _), ?_⟩
      rintro ⟨parent, named, isTask, -⟩
      rw [isTaskRef_iff.mpr ⟨parent, named, isTask⟩] at shape
      cases shape
    | true =>
      obtain ⟨parent, named, isTask⟩ := isTaskRef_iff.mp shape
      have text : (parentOf task.fields).text = parent := by rw [named, Json.text]
      have only : (∃ other, parentOf task.fields = .str other ∧ ExecutionEnvelope.isTask other = true ∧ other ≠ idOf task ∧
          other ∈ tasks.map idOf) ↔ parent ≠ idOf task ∧ parent ∈ tasks.map idOf := by
        constructor
        · rintro ⟨other, same, -, rest⟩
          obtain rfl : parent = other := Json.str.inj (named.symm.trans same)
          exact rest
        · rintro ⟨other, known⟩
          exact ⟨parent, named, isTask, other, known⟩
      rw [only, ← byText_isSome]
      by_cases own : parent = idOf task
      · simp [parentErrors, there, shape, text, own]
      · cases found : byText tasks parent with
        | none => simp [parentErrors, there, shape, text, own, found]
        | some other => simp [parentErrors, there, shape, text, own, found]

theorem childrenOf_of_refs {fields : Meta} {items : List String} (texts : childrenField fields = .arr (items.map .str))
    (refs : ∀ item ∈ items, ExecutionEnvelope.isTask item = true) : (childrenOf fields).1 = items ∧
      ((childrenOf fields).2 = [] ↔ items.Nodup ∧ taskText fields ∉ items) := by
  have all : (items.map Json.str).all isTaskRef = true := List.all_eq_true.mpr fun value member => by
    obtain ⟨item, listed, rfl⟩ := List.mem_map.mp member
    exact isTaskRef_iff.mpr ⟨item, rfl, refs item listed⟩
  have same : (items.map Json.str).map Json.text = items := by
    rw [List.map_map]
    exact List.map_id _
  have field : (if Dict.has fields "children" = true then Dict.get fields "children" else .arr []) = .arr (items.map .str) := texts
  have distinct : (sortedText (items.dedup.filter fun item => 1 < items.count item)).isEmpty = true ↔ items.Nodup := by
    rw [List.isEmpty_iff]
    exact sortedText_eq_nil.trans repeated_eq_nil
  simp only [childrenOf, field, Json.isArr, Json.items, all, same, Bool.not_true, Bool.or_false, Bool.false_eq_true, ↓reduceIte]
  cases repeats : (sortedText (items.dedup.filter fun item => 1 < items.count item)).isEmpty with
  | false =>
    have some_ : ¬ items.Nodup := fun nodup => by
      rw [distinct.mpr nodup] at repeats
      cases repeats
    have reported : (sortedText (items.dedup.filter fun item => 1 < items.count item)).map ("duplicate child " ++ ·) ≠ [] := by
      rw [Ne, List.map_eq_nil_iff, ← List.isEmpty_iff, repeats]
      exact Bool.false_ne_true
    simp only [Bool.not_false, ↓reduceIte, true_and]
    exact ⟨fun none_ => absurd none_ reported, fun holds => absurd holds.1 some_⟩
  | true =>
    by_cases own : taskText fields ∈ items
    · simp [own]
    · simp [own, distinct.mp repeats]

theorem childrenOf_eq_nil {fields : Meta} : (childrenOf fields).2 = [] ↔ ∃ items : List String,
    childrenField fields = .arr (items.map .str) ∧ (∀ item ∈ items, ExecutionEnvelope.isTask item = true) ∧ items.Nodup ∧
      taskText fields ∉ items := by
  constructor
  · intro clean
    by_cases typed : (!(childrenField fields).isArr || !(childrenField fields).items.all isTaskRef) = true
    · have field : (childrenOf fields).2 = ["children must be a list of AR identifiers"] := by
        unfold childrenOf
        exact congrArg Prod.snd (if_pos typed)
      rw [field] at clean
      cases clean
    · simp only [Bool.or_eq_true, Bool.not_eq_true', not_or, Bool.not_eq_false, List.all_eq_true] at typed
      obtain ⟨values, isList⟩ := Json.isArr_iff.mp typed.1
      rw [isList] at typed
      have each : values.map (fun value => Json.str value.text) = values.map id := List.map_congr_left fun value member => by
        obtain ⟨name, rfl, -⟩ := isTaskRef_iff.mp (typed.2 value member)
        rfl
      have texts : childrenField fields = .arr ((values.map Json.text).map .str) := by
        rw [List.map_id] at each
        rw [isList, List.map_map]
        exact congrArg Json.arr each.symm
      have refs : ∀ item ∈ values.map Json.text, ExecutionEnvelope.isTask item = true := by
        intro item member
        obtain ⟨value, listed, rfl⟩ := List.mem_map.mp member
        obtain ⟨name, rfl, shape⟩ := isTaskRef_iff.mp (typed.2 value listed)
        exact shape
      exact ⟨_, texts, refs, (childrenOf_of_refs texts refs).2.mp clean⟩
  · rintro ⟨items, texts, refs, distinct, other⟩
    exact (childrenOf_of_refs texts refs).2.mpr ⟨distinct, other⟩

theorem childErrors_eq_nil : childErrors tasks task = [] ↔ (childrenOf task.fields).2 = [] ∧
    ∀ child ∈ (childrenOf task.fields).1, ∃ found, byText tasks child = some found ∧ (parentOf found.fields).toText = idOf task := by
  simp only [childErrors, List.append_eq_nil_iff, List.map_eq_nil_iff, List.flatMap_eq_nil_iff]
  refine and_congr_right fun _ => forall₂_congr fun child _ => ?_
  cases found : byText tasks child with
  | none => simp
  | some other =>
    by_cases same : (parentOf other.fields).toText = idOf task
    · simp [same]
    · simp [same]

theorem parentIn_eq_some (distinct : (tasks.map idOf).Nodup) {child parent : String} : parentIn tasks child = some parent ↔
    HasParent tasks child parent ∧ ExecutionEnvelope.isTask parent = true := by
  rw [parentIn, Option.map_eq_some_iff]
  constructor
  · rintro ⟨task, found, rfl⟩
    have named := List.find?_some found
    simp only [Bool.and_eq_true, beq_iff_eq] at named
    obtain ⟨⟨rfl, -⟩, ref⟩ := named
    obtain ⟨parent, same, shape⟩ := isTaskRef_iff.mp ref
    rw [same]
    exact ⟨⟨task, List.mem_reverse.mp (List.mem_of_find?_eq_some found), rfl, same, isTask_ne_empty shape⟩, shape⟩
  · rintro ⟨⟨task, member, rfl, same, some_⟩, shape⟩
    have truthy : (parentOf task.fields).truthy = true := by
      rw [same, Json.truthy_str]
      exact bne_iff_ne.mpr some_
    have ref : isTaskRef (parentOf task.fields) = true := isTaskRef_iff.mpr ⟨parent, same, shape⟩
    have holds : (idOf task == idOf task && (parentOf task.fields).truthy && isTaskRef (parentOf task.fields)) = true := by
      rw [truthy, ref, beq_self_eq_true]
      rfl
    obtain ⟨first, found⟩ : ∃ first, tasks.reverse.find? (fun other => idOf other == idOf task &&
        (parentOf other.fields).truthy && isTaskRef (parentOf other.fields)) = some first :=
      Option.isSome_iff_exists.mp (List.find?_isSome.mpr ⟨task, List.mem_reverse.mpr member, holds⟩)
    have named := List.find?_some found
    simp only [Bool.and_eq_true, beq_iff_eq] at named
    obtain rfl : first = task := List.inj_on_of_nodup_map distinct
      (List.mem_reverse.mp (List.mem_of_find?_eq_some found)) member named.1.1
    exact ⟨first, found, by rw [same, Json.text]⟩

theorem climbs_eq (fuel : Nat) (seen : List String) (current : String) :
    climbs tasks fuel seen current = Graph.revisits (parentIn tasks) fuel seen current := by
  induction fuel generalizing seen current with
  | zero => rfl
  | succ fuel ih =>
    rw [climbs, Graph.revisits]
    cases parentIn tasks current with
    | none => rfl
    | some parent =>
      by_cases again : current ∈ seen
      · simp [again]
      · simp [again, ih]

/-- The identifiers from which the hierarchy is climbed. -/
def climbersOf (tasks : List Task) : List String := (tasks.map idOf).dedup

theorem parentIn_known {child parent : String} (named : parentIn tasks child = some parent) : child ∈ climbersOf tasks := by
  obtain ⟨task, found, -⟩ := Option.map_eq_some_iff.mp named
  have holds := List.find?_some found
  simp only [Bool.and_eq_true, beq_iff_eq] at holds
  have member := List.mem_reverse.mp (List.mem_of_find?_eq_some found)
  exact List.mem_dedup.mpr (List.mem_map.mpr ⟨task, member, holds.1.1⟩)

/-- With room for every identifier, a climb meets a task again exactly if it comes to a cycle. -/
theorem climbs_iff {fuel : Nat} (room : (climbersOf tasks).length < fuel) (taskId : String) : climbs tasks fuel [] taskId = true ↔
    ∃ a, Relation.ReflTransGen (fun a b => parentIn tasks a = some b) taskId a ∧
      Relation.TransGen (fun a b => parentIn tasks a = some b) a a := by
  rw [climbs_eq]
  exact Graph.revisits_iff (fun _ _ => parentIn_known) List.nodup_nil (List.forall_mem_nil _)
    (by simpa using room) (List.forall_mem_nil _)

theorem hierarchyErrors_eq_nil : hierarchyErrors tasks = [] ↔
    (∀ task ∈ tasks, parentErrors tasks task = [] ∧ childErrors tasks task = []) ∧
    (∀ child ∈ climbersOf tasks, ∀ parent, parentIn tasks child = some parent →
      ∃ task, byText tasks parent = some task ∧ child ∈ (childrenOf task.fields).1) ∧
    Graph.Acyclic (fun a b => parentIn tasks a = some b) := by
  have cycles : (∀ taskId ∈ climbersOf tasks, ¬ climbs tasks ((climbersOf tasks).length + 2) [] taskId = true) ↔
      Graph.Acyclic (fun a b => parentIn tasks a = some b) := by
    constructor
    · intro none_ a cycle
      obtain ⟨b, step, -⟩ := Relation.TransGen.head'_iff.mp cycle
      exact none_ a (parentIn_known step) ((climbs_iff (by omega) a).mpr ⟨a, .refl, cycle⟩)
    · intro acyclic taskId _ climb
      obtain ⟨a, -, cycle⟩ := (climbs_iff (by omega) taskId).mp climb
      exact acyclic a cycle
  have listed (child parent : String) : ((byText tasks parent).any fun task => (childrenOf task.fields).1.contains child) = true ↔
      ∃ task, byText tasks parent = some task ∧ child ∈ (childrenOf task.fields).1 := by
    simp [Option.any_eq_true]
  rw [hierarchyErrors, sortedText_eq_nil, ← cycles]
  simp only [List.dedup_eq_nil, List.append_eq_nil_iff, List.flatMap_eq_nil_iff, List.map_eq_nil_iff, List.filter_eq_nil_iff,
    and_assoc]
  refine and_congr_right fun _ => and_congr_left fun _ => forall₂_congr fun child _ => ?_
  cases parentIn tasks child with
  | none => simp
  | some parent =>
    rw [ite_eq_left_iff, listed]
    simp

end links

section forest

variable {tasks : List Task}

theorem forest_of_clean (distinct : (tasks.map idOf).Nodup) (named : ∀ task ∈ tasks, ExecutionEnvelope.isTask (idOf task) = true)
    (clean : hierarchyErrors tasks = []) : Forest tasks := by
  obtain ⟨links, back, acyclic⟩ := hierarchyErrors_eq_nil.mp clean
  have lists (task : Task) (member : task ∈ tasks) := (childErrors_eq_nil.mp (links task member).2)
  have parents {child parent : String} (has : HasParent tasks child parent) :
      parentIn tasks child = some parent ∧ parent ∈ tasks.map idOf := by
    obtain ⟨task, member, isChild, same, some_⟩ := has
    obtain falsy | ⟨other, spelled, shape, -, known⟩ := parentErrors_eq_nil.mp (links task member).1
    · rw [same, Json.truthy_str] at falsy
      exact absurd (by simpa using falsy) some_
    · obtain rfl : parent = other := Json.str.inj (same.symm.trans spelled)
      exact ⟨(parentIn_eq_some distinct).mpr ⟨⟨task, member, isChild, same, some_⟩, shape⟩, known⟩
  have children {parent child : String} (has : HasChild tasks parent child) :
      ∃ found, byText tasks child = some found ∧ (parentOf found.fields).toText = parent := by
    obtain ⟨task, member, rfl, listed⟩ := has
    obtain ⟨none_, each⟩ := lists task member
    obtain ⟨items, texts, refs, -⟩ := childrenOf_eq_nil.mp none_
    rw [texts, Json.items, List.mem_map] at listed
    obtain ⟨item, inside, same⟩ := listed
    obtain rfl := Json.str.inj same
    exact each item ((childrenOf_of_refs texts refs).1 ▸ inside)
  refine ⟨fun task member => ⟨?_, ?_⟩, fun child parent has => (parents has).2, ?_, ?_, ?_⟩
  · obtain falsy | ⟨parent, same, -⟩ := parentErrors_eq_nil.mp (links task member).1
    · exact .inl falsy
    · exact .inr (Json.isStr_iff.mpr ⟨parent, same⟩)
  · obtain ⟨items, texts, -, nodup, -⟩ := childrenOf_eq_nil.mp (lists task member).1
    exact ⟨items, texts, nodup⟩
  · intro parent child has
    obtain ⟨found, located, -⟩ := children has
    obtain ⟨member, rfl⟩ := byText_eq_some located
    exact List.mem_map_of_mem member
  · intro child parent
    constructor
    · intro has
      obtain ⟨task, located, listed⟩ := back child (parentIn_known (parents has).1) parent (parents has).1
      obtain ⟨member, isParent⟩ := byText_eq_some located
      obtain ⟨items, texts, refs, -⟩ := childrenOf_eq_nil.mp (lists task member).1
      rw [(childrenOf_of_refs texts refs).1] at listed
      refine ⟨task, member, isParent, ?_⟩
      rw [texts]
      exact List.mem_map_of_mem listed
    · intro has
      obtain ⟨found, located, text⟩ := children has
      obtain ⟨member, isChild⟩ := byText_eq_some located
      have shape : ExecutionEnvelope.isTask parent = true := by
        obtain ⟨task, inside, rfl, -⟩ := has
        exact named task inside
      obtain falsy | ⟨other, spelled, -⟩ := parentErrors_eq_nil.mp (links found member).1
      · rw [← text, toText_falsy falsy] at shape
        cases shape
      · rw [spelled, Json.toText_str] at text
        exact ⟨found, member, isChild, text ▸ spelled, isTask_ne_empty shape⟩
  · exact fun a cycle => acyclic a (Relation.TransGen.mono (fun _ _ has => (parents has).1) _ _ cycle)

theorem clean_of_forest (distinct : (tasks.map idOf).Nodup) (named : ∀ task ∈ tasks, ExecutionEnvelope.isTask (idOf task) = true)
    (forest : Forest tasks) : hierarchyErrors tasks = [] := by
  have shape {name : String} (known : name ∈ tasks.map idOf) : ExecutionEnvelope.isTask name = true := by
    obtain ⟨task, member, rfl⟩ := List.mem_map.mp known
    exact named task member
  have lists (task : Task) (member : task ∈ tasks) : ∃ items : List String, childrenField task.fields = .arr (items.map .str) ∧
      items.Nodup ∧ (∀ item ∈ items, HasChild tasks (idOf task) item) ∧ (childrenOf task.fields).1 = items ∧
      ((childrenOf task.fields).2 = [] ↔ items.Nodup ∧ taskText task.fields ∉ items) := by
    obtain ⟨items, texts, nodup⟩ := (forest.linked task member).children
    have has (item : String) (listed : item ∈ items) : HasChild tasks (idOf task) item := by
      refine ⟨task, member, rfl, ?_⟩
      rw [texts]
      exact List.mem_map_of_mem listed
    exact ⟨items, texts, nodup, has,
      childrenOf_of_refs texts fun item listed => shape (forest.knownChild _ _ (has item listed))⟩
  refine hierarchyErrors_eq_nil.mpr ⟨fun task member => ⟨?_, ?_⟩, ?_, ?_⟩
  · refine parentErrors_eq_nil.mpr ?_
    obtain falsy | isText := (forest.linked task member).parent
    · exact .inl falsy
    · obtain ⟨parent, same⟩ := Json.isStr_iff.mp isText
      by_cases some_ : parent = ""
      · exact .inl (by rw [same, some_]; rfl)
      · have has : HasParent tasks (idOf task) parent := ⟨task, member, rfl, same, some_⟩
        have known := forest.known _ _ has
        refine .inr ⟨parent, same, shape known, ?_, known⟩
        rintro rfl
        exact forest.acyclic _ (.single has)
  · obtain ⟨items, texts, nodup, has, same, clean⟩ := lists task member
    refine childErrors_eq_nil.mpr ⟨clean.mpr ⟨nodup, fun own => ?_⟩, ?_⟩
    · exact forest.acyclic _ (.single ((forest.inverse _ _).mpr (has _ own)))
    · rw [same]
      intro child listed
      obtain ⟨other, inside, rfl, spelled, -⟩ := (forest.inverse _ _).mpr (has child listed)
      exact ⟨other, byText_of_mem distinct inside, by rw [spelled, Json.toText_str]⟩
  · intro child _ parent found
    obtain ⟨has, -⟩ := (parentIn_eq_some distinct).mp found
    obtain ⟨task, member, rfl, listed⟩ := (forest.inverse _ _).mp has
    obtain ⟨items, texts, -, -, same, -⟩ := lists task member
    refine ⟨task, byText_of_mem distinct member, ?_⟩
    rw [texts, Json.items, List.mem_map] at listed
    obtain ⟨item, inside, equal⟩ := listed
    obtain rfl := Json.str.inj equal
    exact same ▸ inside
  · exact fun a cycle => forest.acyclic a
      (Relation.TransGen.mono (fun _ _ found => ((parentIn_eq_some distinct).mp found).1) _ _ cycle)

/-- Among tasks with different identifiers, the check of the hierarchy finds nothing exactly in a forest. No climb runs out of fuel. -/
theorem hierarchy_errors_iff (distinct : (tasks.map idOf).Nodup)
    (named : ∀ task ∈ tasks, ExecutionEnvelope.isTask (idOf task) = true) :
    (hierarchyErrors tasks = [] ↔ Forest tasks) ∧ ∀ fuel, (climbersOf tasks).length < fuel → ∀ taskId,
      climbs tasks fuel [] taskId = climbs tasks ((climbersOf tasks).length + 2) [] taskId := by
  refine ⟨⟨forest_of_clean distinct named, clean_of_forest distinct named⟩, fun fuel room taskId => ?_⟩
  rw [Bool.eq_iff_iff, climbs_iff room, climbs_iff (by omega)]

end forest

/-- A parent with one child. -/
def family (parent : String) : List Task :=
  [⟨"parent.md", [("id", .str parent), ("children", .arr [.str "AR-0002"])], ""⟩,
    ⟨"child.md", [("id", .str "AR-0002"), ("parent_task_ref", .str parent)], ""⟩]

section samples

variable {parent : String}

theorem family_parent {a b : String} (some_ : parent ≠ "") : HasParent (family parent) a b ↔ a = "AR-0002" ∧ b = parent := by
  constructor
  · rintro ⟨task, member, rfl, same, other⟩
    simp only [family, List.mem_cons, List.not_mem_nil, or_false] at member
    obtain rfl | rfl := member
    · exact absurd (Json.str.inj same).symm other
    · exact ⟨rfl, (Json.str.inj same).symm⟩
  · rintro ⟨rfl, rfl⟩
    exact ⟨_, List.mem_cons_of_mem _ List.mem_cons_self, rfl, rfl, some_⟩

theorem family_child {a b : String} : HasChild (family parent) a b ↔ a = parent ∧ b = "AR-0002" := by
  constructor
  · rintro ⟨task, member, rfl, listed⟩
    simp only [family, List.mem_cons, List.not_mem_nil, or_false] at member
    obtain rfl | rfl := member
    · exact ⟨rfl, Json.str.inj (List.mem_singleton.mp listed)⟩
    · cases listed
  · rintro ⟨rfl, rfl⟩
    exact ⟨_, List.mem_cons_self, rfl, List.mem_cons_self⟩

theorem family_forest (some_ : parent ≠ "") (other : parent ≠ "AR-0002") : Forest (family parent) := by
  refine ⟨fun task member => ?_, fun child name has => ?_, fun name child has => ?_, fun child name => ?_, fun a cycle => ?_⟩
  · simp only [family, List.mem_cons, List.not_mem_nil, or_false] at member
    obtain rfl | rfl := member
    · exact ⟨.inl rfl, ["AR-0002"], rfl, List.nodup_singleton _⟩
    · exact ⟨.inr rfl, [], rfl, List.nodup_nil⟩
  · rw [((family_parent some_).mp has).2]
    exact List.mem_cons_self
  · rw [(family_child.mp has).2]
    exact List.mem_cons_of_mem _ List.mem_cons_self
  · rw [family_parent some_, family_child, and_comm]
  · obtain ⟨b, first, path⟩ := Relation.TransGen.head'_iff.mp cycle
    obtain ⟨rfl, rfl⟩ := (family_parent some_).mp first
    obtain same | ⟨c, second, -⟩ := path.cases_head
    · exact other same
    · exact other ((family_parent some_).mp second).1

end samples

theorem family_clean : hierarchyErrors (family "AR-0001") = [] :=
  (hierarchy_errors_iff (by decide) (by decide +kernel)).1.mpr (family_forest (by decide) (by decide))

/-- A parent whose number has other digits is in error with the links in order. -/
theorem family_of_other_digits : ((family "AR-٠٠٠١").map idOf).Nodup ∧ isTaskId "AR-٠٠٠١" = true ∧
    Forest (family "AR-٠٠٠١") ∧ hierarchyErrors (family "AR-٠٠٠١") ≠ [] := by
  refine ⟨by decide, by decide +kernel, family_forest (by decide) (by decide), fun clean => ?_⟩
  have links := (hierarchyErrors_eq_nil.mp clean).1
  obtain ⟨-, child⟩ := List.forall_mem_cons.mp links
  have errors := (List.forall_mem_cons.mp child).1.1
  exact absurd errors (by decide +kernel)

end Coordinator.TaskGraph
