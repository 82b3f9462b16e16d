import Coordinator.ExecutionEnvelope
import Coordinator.Kit.Toposort
import Mathlib.Data.String.Basic

/-! The order in which the documents of a decision list the ARs of its graph: each one behind those it depends on. -/

namespace Coordinator.TuiBridge
open Kit Toposort

/-- How far the graph has been read: for each AR the dependencies that it counts and the ARs that depend on it. -/
structure Links where
  indegree : String → Int
  dependents : String → List String

def arId (ar : Meta) : String := (ar.get "id").text

/-- A dictionary without the field has an empty tuple in its place. -/
def dependencyField (ar : Meta) : Json := if ar.has "depends_on" then ar.get "depends_on" else .arr []

def addDependency (taskId : String) (links : Links) (dependency : String) : Links where
  indegree := Function.update links.indegree taskId (links.indegree taskId + 1)
  dependents := Function.update links.dependents dependency (links.dependents dependency ++ [taskId])

def unhashable : Fault := .error "TypeError: unhashable type"

/-- Whether some dependency is no key among the identifiers; the first such one ends the search. -/
def anyUnknown (ids : List String) : List Json → Outcome Bool
  | [] => pure false
  | dependency :: rest =>
      if !ExecutionEnvelope.hashable dependency then .error unhashable
      else if dependency.isStr && ids.contains dependency.text then anyUnknown ids rest
      else pure true

def linkAr (ids : List String) (links : Links) (ar : Meta) : Outcome Links := do
  let unknown : Fault := .error ("AR " ++ arId ar ++ " has an unknown dependency")
  let dependencies := dependencyField ar
  raiseIf (!dependencies.isArr) unknown
  let missing ← anyUnknown ids dependencies.items
  raiseIf missing unknown
  pure ((dependencies.items.map Json.text).foldl (addDependency (arId ar)) links)

/-- The ids as keys of a dictionary: it is as long as the list exactly if no two of them are equal. Keys other than texts
are refused whether they differ or not. -/
def arIds (ars : List Meta) : Outcome (List String) := do
  let keys := ars.map (·.get "id")
  raiseIf (!keys.all ExecutionEnvelope.hashable) unhashable
  raiseIf (!keys.all Json.isStr || !(keys.map Json.text).Nodup) (.error "AR graph contains duplicate or invalid IDs")
  pure (keys.map Json.text)

def linked (ars : List Meta) (ids : List String) : Outcome Links := ars.foldlM (linkAr ids) ⟨fun _ => 0, fun _ => []⟩

/-- The ARs of the identifiers that the loop has put in order. -/
def orderedArs (ars : List Meta) (orderedIds : List String) : Outcome (List Meta) := do
  raiseIf (orderedIds.length != ars.length) (.error "AR graph contains a dependency cycle")
  pure (orderedIds.filterMap fun id => ars.find? fun ar => arId ar = id)

/-- The ARs in order. Without an answer the loop still runs. -/
def orderArGraph (fuel : Nat) (ars : List Meta) : Option (Outcome (List Meta)) :=
  match (do
    let ids ← arIds ars
    let links ← linked ars ids
    pure (ids, links)) with
  | .error fault => some (.error fault)
  | .ok (ids, links) =>
      (loop links.dependents fuel ⟨links.indegree, sorted (ids.filter fun arId => links.indegree arId = 0), []⟩).map (orderedArs ars)

/-- Identifiers that are texts, and dependencies that are lists of texts where there are any. -/
structure Typed (ars : List Meta) : Prop where
  ids : ∀ ar ∈ ars, (ar.get "id").isStr = true
  dependencies : ∀ ar ∈ ars, ∃ names : List String, dependencyField ar = .arr (names.map .str)

def dependencyNames (ar : Meta) : List String := (dependencyField ar).items.map Json.text

/-- The dependencies listed under an identifier. -/
def dependsOn (ars : List Meta) (id : String) : List String := (ars.filter fun ar => arId ar = id).flatMap dependencyNames

theorem foldl_addDependency (taskId : String) (names : List String) (links : Links) :
    (∀ id, (names.foldl (addDependency taskId) links).indegree id =
      links.indegree id + if id = taskId then (names.length : Int) else 0) ∧
    ∀ id other, ((names.foldl (addDependency taskId) links).dependents id).count other =
      (links.dependents id).count other + if other = taskId then names.count id else 0 := by
  induction names generalizing links with
  | nil => simp
  | cons name rest ih =>
    obtain ⟨indegree, dependents⟩ := ih (addDependency taskId links name)
    rw [List.foldl_cons]
    constructor
    · intro id
      rw [indegree, addDependency]
      by_cases same : id = taskId
      · subst same
        simp only [Function.update_self, if_true, List.length_cons]
        omega
      · simp [same]
    · intro id other
      rw [dependents, addDependency]
      by_cases target : id = name <;> by_cases own : other = taskId
      · subst target own
        simp [Nat.add_assoc, Nat.add_comm 1]
      · subst target
        simp [own, Ne.symm own]
      · subst own
        simp [target, Ne.symm target]
      · simp [target, own]

theorem anyUnknown_texts (ids names : List String) : anyUnknown ids (names.map .str) = .ok (!names.all ids.contains) := by
  induction names with
  | nil => rfl
  | cons name rest ih =>
    rw [List.map_cons, anyUnknown, ih]
    by_cases known : name ∈ ids <;> simp [ExecutionEnvelope.hashable, Json.isStr, Json.text, known, pure, Except.pure]

theorem names_of_typed {ar : Meta} {names : List String} (listed : dependencyField ar = .arr (names.map .str)) :
    dependencyNames ar = names := by
  rw [dependencyNames, listed, Json.items, List.map_map]
  exact List.map_id names

theorem linkAr_eq_ok {ids : List String} {links after : Links} {ar : Meta} {names : List String}
    (listed : dependencyField ar = .arr (names.map .str)) : linkAr ids links ar = .ok after ↔
      dependencyNames ar ⊆ ids ∧ after = (dependencyNames ar).foldl (addDependency (arId ar)) links := by
  have read : dependencyNames ar = ((names.map Json.str).map Json.text) := by rw [dependencyNames, listed, Json.items]
  simp only [linkAr, listed, Json.isArr, Json.items, anyUnknown_texts, ok_bind, raiseIf_bind_ok, pure_eq_ok, ← read, Bool.not_true,
    true_and, Bool.not_eq_false', List.all_eq_true, List.contains_iff_mem, names_of_typed listed, eq_comm (b := after)]
  rfl

/-- What linking a list of ARs counts, if it ends: every dependency is known then. -/
theorem linked_eq_ok {ids : List String} {ars : List Meta}
    (typed : ∀ ar ∈ ars, ∃ names : List String, dependencyField ar = .arr (names.map .str)) {links after : Links} :
    ars.foldlM (linkAr ids) links = .ok after ↔
      (∀ ar ∈ ars, dependencyNames ar ⊆ ids) ∧
        after = ars.foldl (fun links ar => (dependencyNames ar).foldl (addDependency (arId ar)) links) links := by
  induction ars generalizing links with
  | nil => simp [pure, Except.pure, eq_comm]
  | cons ar rest ih =>
    obtain ⟨⟨names, listed⟩, others⟩ := List.forall_mem_cons.mp typed
    rw [List.foldlM_cons, bind_eq_ok, List.forall_mem_cons, List.foldl_cons]
    constructor
    · rintro ⟨next, first, second⟩
      obtain ⟨known, rfl⟩ := (linkAr_eq_ok listed).mp first
      obtain ⟨all, rfl⟩ := (ih others).mp second
      exact ⟨⟨known, all⟩, rfl⟩
    · rintro ⟨⟨known, all⟩, rfl⟩
      exact ⟨_, (linkAr_eq_ok listed).mpr ⟨known, rfl⟩, (ih others).mpr ⟨all, rfl⟩⟩

theorem counts_linked (ars : List Meta) (links : Links) :
    let after := ars.foldl (fun links ar => (dependencyNames ar).foldl (addDependency (arId ar)) links) links
    (∀ id, after.indegree id = links.indegree id + (dependsOn ars id).length) ∧
      ∀ id other, (after.dependents id).count other = (links.dependents id).count other + (dependsOn ars other).count id := by
  induction ars generalizing links with
  | nil => simp [dependsOn]
  | cons ar rest ih =>
    have own (id : String) : dependsOn (ar :: rest) id = (if arId ar = id then dependencyNames ar else []) ++ dependsOn rest id := by
      by_cases same : arId ar = id <;> simp [dependsOn, same]
    obtain ⟨indegree, dependents⟩ := ih ((dependencyNames ar).foldl (addDependency (arId ar)) links)
    obtain ⟨first, second⟩ := foldl_addDependency (arId ar) (dependencyNames ar) links
    dsimp only
    rw [List.foldl_cons]
    constructor
    · intro id
      rw [indegree, first, own]
      by_cases same : arId ar = id
      · simp [same, Int.add_assoc]
      · simp [same, Ne.symm same]
    · intro id other
      rw [dependents, second, own]
      by_cases same : arId ar = other
      · simp [same, Nat.add_assoc]
      · simp [same, Ne.symm same]

theorem arIds_eq_ok {ars : List Meta} (texts : ∀ ar ∈ ars, (ar.get "id").isStr = true) {ids : List String} :
    arIds ars = .ok ids ↔ (ars.map arId).Nodup ∧ ids = ars.map arId := by
  have keys : (ars.map fun ar => ar.get "id").map Json.text = ars.map arId := List.map_map
  have plain : (ars.map fun ar => ar.get "id").all ExecutionEnvelope.hashable = true := by
    rw [List.all_map, List.all_eq_true]
    intro ar member
    obtain ⟨word, text⟩ := Json.isStr_iff.mp (texts ar member)
    simp [text, ExecutionEnvelope.hashable]
  have strings : (ars.map fun ar => ar.get "id").all Json.isStr = true := by
    rw [List.all_map, List.all_eq_true]
    exact texts
  simp only [arIds, plain, strings, keys, raiseIf_bind_ok, pure_eq_ok, Bool.not_true, Bool.false_or, Bool.not_eq_false',
    decide_eq_true_eq, true_and, eq_comm (a := ids)]

section graph

variable {ars : List Meta}

/-- The links of a graph whose dependencies are all known. -/
def linksOf (ars : List Meta) : Links :=
  ars.foldl (fun links ar => (dependencyNames ar).foldl (addDependency (arId ar)) links) ⟨fun _ => 0, fun _ => []⟩

theorem indegree_linksOf (id : String) : (linksOf ars).indegree id = (dependsOn ars id).length := by
  rw [linksOf, (counts_linked ars _).1, Int.zero_add]

theorem count_linksOf (id other : String) : ((linksOf ars).dependents id).count other = (dependsOn ars other).count id := by
  rw [linksOf, (counts_linked ars _).2, List.count_nil, Nat.zero_add]

/-- Distinct identifiers and known dependencies. -/
def Closed (ars : List Meta) : Prop := (ars.map arId).Nodup ∧ ∀ ar ∈ ars, dependencyNames ar ⊆ ars.map arId

theorem converse_linksOf (closed : Closed ars) : Converse (ars.map arId) (dependsOn ars) (linksOf ars).dependents where
  listed := by
    intro id name member
    obtain ⟨ar, among, inside⟩ := List.mem_flatMap.mp member
    exact closed.2 ar (List.mem_filter.mp among).1 inside
  outside := by
    intro id unknown
    have none_ : ars.filter (fun ar => arId ar = id) = [] := by
      refine List.filter_eq_nil_iff.mpr fun ar member same => unknown ?_
      exact List.mem_map.mpr ⟨ar, member, of_decide_eq_true same⟩
    rw [dependsOn, none_, List.flatMap_nil]
  counted := count_linksOf

/-- The state in which the loop begins. -/
def startOf (ars : List Meta) : Sorting String :=
  ⟨(linksOf ars).indegree, sorted ((ars.map arId).filter fun id => (linksOf ars).indegree id = 0), []⟩

theorem orderArGraph_closed (typed : Typed ars) (closed : Closed ars) (fuel : Nat) :
    orderArGraph fuel ars = (loop (linksOf ars).dependents fuel (startOf ars)).map (orderedArs ars) := by
  have ids := (arIds_eq_ok typed.ids).mpr ⟨closed.1, rfl⟩
  have links : linked ars (ars.map arId) = .ok (linksOf ars) := (linked_eq_ok typed.dependencies).mpr ⟨closed.2, rfl⟩
  rw [orderArGraph, ids, ok_bind, links]
  rfl

theorem orderArGraph_open (typed : Typed ars) (open_ : ¬ Closed ars) :
    ∃ fault, ∀ fuel, orderArGraph fuel ars = some (.error fault) := by
  cases read : (do
      let ids ← arIds ars
      let links ← linked ars ids
      pure (ids, links)) with
  | error fault =>
    refine ⟨fault, fun fuel => ?_⟩
    rw [orderArGraph, read]
  | ok result =>
    obtain ⟨ids, named, rest⟩ := bind_eq_ok.mp read
    obtain ⟨links, linked_, -⟩ := bind_eq_ok.mp rest
    obtain ⟨distinct, rfl⟩ := (arIds_eq_ok typed.ids).mp named
    exact absurd ⟨distinct, ((linked_eq_ok typed.dependencies).mp linked_).1⟩ open_

theorem find_eq_some (distinct : (ars.map arId).Nodup) {id : String} {ar : Meta} :
    (ars.find? fun ar => arId ar = id) = some ar ↔ ar ∈ ars ∧ arId ar = id := by
  constructor
  · intro found
    have named := List.find?_some found
    exact ⟨List.mem_of_find?_eq_some found, of_decide_eq_true named⟩
  · rintro ⟨member, rfl⟩
    cases found : ars.find? fun other => arId other = arId ar with
    | none => exact absurd (decide_eq_true rfl) (List.find?_eq_none.mp found ar member)
    | some other =>
      have named := List.find?_some found
      rw [List.inj_on_of_nodup_map distinct (List.mem_of_find?_eq_some found) member (of_decide_eq_true named)]

/-- The ARs behind a list of identifiers that contains each of them once. -/
theorem found_perm (distinct : (ars.map arId).Nodup) {orderedIds : List String} (same : orderedIds.Perm (ars.map arId)) :
    (orderedIds.filterMap fun id => ars.find? fun ar => arId ar = id).Perm ars ∧
      (orderedIds.filterMap fun id => ars.find? fun ar => arId ar = id).map arId = orderedIds := by
  have own {ar : Meta} (member : ar ∈ ars) : (ars.find? fun other => arId other = arId ar) = some ar :=
    (find_eq_some distinct).mpr ⟨member, rfl⟩
  have all : ∀ rest ⊆ ars, (rest.map arId).filterMap (fun id => ars.find? fun ar => arId ar = id) = rest := by
    intro rest
    induction rest with
    | nil => exact fun _ => rfl
    | cons ar rest ih =>
      intro within
      obtain ⟨here, later⟩ := List.cons_subset.mp within
      rw [List.map_cons, List.filterMap_cons, own here, ih later]
  refine ⟨(same.filterMap _).trans ?_, ?_⟩
  · rw [all ars (List.Subset.refl ars)]
  · have known : ∀ id ∈ orderedIds, ∃ ar, (ars.find? fun ar => arId ar = id) = some ar ∧ arId ar = id := by
      intro id member
      obtain ⟨ar, among, rfl⟩ := List.mem_map.mp (same.mem_iff.mp member)
      exact ⟨ar, own among, rfl⟩
    clear same
    induction orderedIds with
    | nil => rfl
    | cons id rest ih =>
      obtain ⟨⟨ar, found, named⟩, others⟩ := List.forall_mem_cons.mp known
      rw [List.filterMap_cons, found, List.map_cons, named, ih others]

/-- With room for every AR the loop over a closed graph ends, with all of its identifiers exactly if it has no cycle. -/
theorem ordered_ids (closed : Closed ars) : ∃ orderedIds : List String,
    (∀ fuel, ars.length < fuel → loop (linksOf ars).dependents fuel (startOf ars) = some orderedIds) ∧
      (orderedIds.length = ars.length ↔ Graph.Acyclic (Graph.Follows (dependsOn ars))) ∧
      (orderedIds.length = ars.length → orderedIds.Perm (ars.map arId)) ∧
      Graph.Ordered (Graph.Follows (dependsOn ars)) orderedIds.reverse := by
  obtain ⟨orderedIds, returned, distinct, within, behind, complete⟩ := loop_sorts (converse_linksOf closed)
    indegree_linksOf closed.1 (Nat.lt_succ_self (ars.map arId).length)
  rw [List.length_map] at complete returned
  refine ⟨orderedIds, fun fuel room => loop_mono returned room, complete, fun full => ?_, behind⟩
  exact (List.subperm_of_subset distinct within).perm_of_length_le (by rw [full, List.length_map])

/-- The same ARs in another order give the same graph. -/
theorem closed_perm {others : List Meta} (same : others.Perm ars) (closed : Closed ars) : Closed others := by
  have ids := same.map arId
  refine ⟨ids.nodup_iff.mpr closed.1, fun ar member name inside => ?_⟩
  exact ids.mem_iff.mpr (closed.2 ar (same.mem_iff.mp member) inside)

theorem typed_perm {others : List Meta} (same : others.Perm ars) (typed : Typed ars) : Typed others where
  ids := fun ar member => typed.ids ar (same.mem_iff.mp member)
  dependencies := fun ar member => typed.dependencies ar (same.mem_iff.mp member)

theorem dependsOn_perm {others : List Meta} (same : others.Perm ars) (id : String) :
    (dependsOn others id).Perm (dependsOn ars id) := (same.filter _).flatMap_right _

theorem loop_perm {others : List Meta} (same : others.Perm ars) (fuel : Nat) :
    loop (linksOf others).dependents fuel (startOf others) = loop (linksOf ars).dependents fuel (startOf ars) := by
  have indegree : (linksOf others).indegree = (linksOf ars).indegree := by
    funext id
    rw [indegree_linksOf, indegree_linksOf, (dependsOn_perm same id).length_eq]
  have started : startOf others = startOf ars := by
    rw [startOf, startOf, indegree, sorted_congr ((same.map arId).filter _)]
  rw [started]
  refine loop_congr (fun id => List.perm_iff_count.mpr fun other => ?_) fuel _
  rw [count_linksOf, count_linksOf, (dependsOn_perm same other).count_eq]

theorem orderedArs_perm {others : List Meta} (same : others.Perm ars) (distinct : (ars.map arId).Nodup) (orderedIds : List String) :
    orderedArs others orderedIds = orderedArs ars orderedIds := by
  have found (id : String) : (others.find? fun ar => arId ar = id) = ars.find? fun ar => arId ar = id := by
    refine Option.ext fun ar => ?_
    rw [find_eq_some ((same.map arId).nodup_iff.mpr distinct), find_eq_some distinct, same.mem_iff]
  simp only [orderedArs, same.length_eq, found]

end graph

/-- The ordering of a typed graph ends. It is accepted exactly if the identifiers differ, each dependency is one of them and
the graph has no cycle; then it is made of the same ARs, each behind its dependencies, whatever their order was. -/
theorem order_ar_graph_exact {ars : List Meta} (typed : Typed ars) : ∃ outcome : Outcome (List Meta),
    (∀ fuel, ars.length < fuel → orderArGraph fuel ars = some outcome) ∧
    ((∃ ordered, outcome = .ok ordered) ↔ (ars.map arId).Nodup ∧ (∀ ar ∈ ars, dependencyNames ar ⊆ ars.map arId) ∧
      Graph.Acyclic (Graph.Follows (dependsOn ars))) ∧
    ∀ ordered, outcome = .ok ordered → ordered.Perm ars ∧
      (∀ before ar after, ordered = before ++ ar :: after → dependencyNames ar ⊆ before.map arId) ∧
      ∀ others : List Meta, others.Perm ars → ∀ fuel, ars.length < fuel → orderArGraph fuel others = some (.ok ordered) := by
  by_cases closed : Closed ars
  · obtain ⟨orderedIds, returned, complete, all, behind⟩ := ordered_ids closed
    refine ⟨orderedArs ars orderedIds, fun fuel room => ?_, ?_, fun ordered accepted => ?_⟩
    · rw [orderArGraph_closed typed closed, returned fuel room, Option.map_some]
    · have accepts : (∃ ordered, orderedArs ars orderedIds = .ok ordered) ↔ orderedIds.length = ars.length := by
        simp only [orderedArs, raiseIf_bind_ok, pure_eq_ok, bne_eq_false_iff_eq, exists_and_left, exists_eq', and_true]
      rw [accepts, complete]
      exact ⟨fun acyclic => ⟨closed.1, closed.2, acyclic⟩, fun exact_ => exact_.2.2⟩
    · have full : orderedIds.length = ars.length := by
        simp only [orderedArs, raiseIf_bind_ok, bne_eq_false_iff_eq] at accepted
        exact accepted.1
      have made : ordered = orderedIds.filterMap fun id => ars.find? fun ar => arId ar = id := by
        simp only [orderedArs, raiseIf_bind_ok, pure_eq_ok] at accepted
        exact accepted.2.symm
      obtain ⟨perm, ids⟩ := found_perm closed.1 (all full)
      rw [← made] at perm ids
      refine ⟨perm, fun before ar after split name inside => ?_, fun others same fuel room => ?_⟩
      · have step : Graph.Follows (dependsOn ars) (arId ar) name := by
          refine List.mem_flatMap.mpr ⟨ar, List.mem_filter.mpr ⟨?_, decide_eq_true rfl⟩, inside⟩
          exact perm.mem_iff.mp (by simp [split])
        rw [← ids, split, List.map_append, List.map_cons, List.reverse_append, List.reverse_cons, List.append_assoc,
          List.singleton_append] at behind
        exact List.mem_reverse.mp (behind_of_ordered behind step)
      · rw [orderArGraph_closed (typed_perm same typed) (closed_perm same closed), loop_perm same, returned fuel room,
          Option.map_some, orderedArs_perm same closed.1, accepted]
  · obtain ⟨fault, refused⟩ := orderArGraph_open typed closed
    refine ⟨.error fault, fun fuel _ => refused fuel, ?_, fun ordered never => by cases never⟩
    refine iff_of_false (by rintro ⟨ordered, ⟨⟩⟩) ?_
    rintro ⟨distinct, known, -⟩
    exact closed ⟨distinct, known⟩

def sampleAr (id : String) (names : List String) : Meta := [("id", .str id), ("depends_on", .arr (names.map .str))]

def sampleGraph : List Meta :=
  [sampleAr "AR-0003" ["AR-0001", "AR-0002", "AR-0001"], sampleAr "AR-0002" ["AR-0001"], sampleAr "AR-0001" []]

theorem sampleGraph_typed : Typed sampleGraph where
  ids := by decide
  dependencies := by
    rintro ar member
    simp only [sampleGraph, List.mem_cons, List.not_mem_nil, or_false] at member
    obtain rfl | rfl | rfl := member <;> exact ⟨_, rfl⟩

def sampleOrder : List Meta :=
  [sampleAr "AR-0001" [], sampleAr "AR-0002" ["AR-0001"], sampleAr "AR-0003" ["AR-0001", "AR-0002", "AR-0001"]]

theorem sampleGraph_ordered : orderArGraph 4 sampleGraph = some (.ok sampleOrder) := rfl

theorem order_sample_graph : Typed sampleGraph ∧ Graph.Acyclic (Graph.Follows (dependsOn sampleGraph)) ∧
    ∀ others : List Meta, others.Perm sampleGraph → ∀ fuel, 3 < fuel → orderArGraph fuel others = some (.ok sampleOrder) := by
  obtain ⟨outcome, returned, accepted, ordered⟩ := order_ar_graph_exact sampleGraph_typed
  have found : outcome = .ok sampleOrder := Option.some.inj ((returned 4 (by decide)).symm.trans sampleGraph_ordered)
  exact ⟨sampleGraph_typed, (accepted.mp ⟨_, found⟩).2.2, (ordered _ found).2.2⟩

end Coordinator.TuiBridge
