import Coordinator.Kit.Graph
import Mathlib.Data.List.Sort
import Mathlib.Order.WellFoundedSet

/-! Topological sorting by counting the dependencies of each node that are not in order yet. Nodes without such a
dependency wait in a sorted queue; the first of them is put in order, and those that depended on it are counted down. -/

namespace Coordinator.Kit.Toposort
open Kit.Graph

variable {α : Type}

/-- Among finitely many nodes, each with an edge to one of them, there is a cycle. -/
theorem not_acyclic {edge : α → α → Prop} {rest : List α} (some_ : rest ≠ []) (onward : ∀ a ∈ rest, ∃ b ∈ rest, edge a b) :
    ¬ Acyclic edge := by
  intro acyclic
  have strict : IsStrictOrder α (fun b a => Relation.TransGen edge a b) :=
    { irrefl := acyclic, trans := fun _ _ _ first second => second.trans first }
  have founded := rest.finite_toSet.wellFoundedOn (r := fun b a => Relation.TransGen edge a b)
  obtain ⟨first, member⟩ := List.exists_mem_of_ne_nil rest some_
  have never : first ∉ rest := by
    refine @Set.WellFoundedOn.induction _ _ _ _ founded member (fun a => a ∉ rest) fun a member ih => ?_
    obtain ⟨b, inside, step⟩ := onward a member
    exact absurd inside (ih b inside (.single step))
  exact never member

/-- In an ordered list a node stands before all that it leads to. -/
theorem behind_of_ordered {edge : α → α → Prop} {before after : List α} {a b : α} (ordered : Ordered edge (before ++ a :: after))
    (step : edge a b) : b ∈ after := by
  induction before with
  | nil => exact ordered.1 b step
  | cons first rest ih => exact ih ordered.2

variable [LinearOrder α]

def sorted (nodes : List α) : List α := nodes.insertionSort (· ≤ ·)

theorem perm_sorted (nodes : List α) : (sorted nodes).Perm nodes := List.perm_insertionSort _ _

theorem sorted_congr {first second : List α} (same : first.Perm second) : sorted first = sorted second :=
  List.Perm.eq_of_pairwise' (List.pairwise_insertionSort _ _) (List.pairwise_insertionSort _ _)
    (((perm_sorted first).trans same).trans (perm_sorted second).symm)

/-- The unmet dependencies of each node, counted with repetition, the nodes that have none left, and those in order. -/
structure Sorting (α : Type) where
  indegree : α → Int
  ready : List α
  ordered : List α

/-- One dependency of a node is met. -/
def meet (sorting : Sorting α) (dependent : α) : Sorting α :=
  let indegree := Function.update sorting.indegree dependent (sorting.indegree dependent - 1)
  { sorting with
    indegree := indegree
    ready := if indegree dependent = 0 then sorting.ready ++ [dependent] else sorting.ready }

/-- The first node that is ready is put in order. -/
def advance (dependents : α → List α) (sorting : Sorting α) (a : α) (rest : List α) : Sorting α :=
  let met := (sorted (dependents a)).foldl meet { sorting with ready := rest, ordered := sorting.ordered ++ [a] }
  { met with ready := sorted met.ready }

/-- The nodes in order, once none is ready. Without an answer the loop still runs. -/
def loop (dependents : α → List α) : Nat → Sorting α → Option (List α)
  | 0, _ => none
  | fuel + 1, sorting =>
      match sorting.ready with
      | [] => some sorting.ordered
      | a :: rest => loop dependents fuel (advance dependents sorting a rest)

theorem foldl_meet_ordered (targets : List α) (sorting : Sorting α) :
    (targets.foldl meet sorting).ordered = sorting.ordered := by
  induction targets generalizing sorting with
  | nil => rfl
  | cons a rest ih => exact ih (meet sorting a)

@[simp] theorem advance_ordered (dependents : α → List α) (sorting : Sorting α) (a : α) (rest : List α) :
    (advance dependents sorting a rest).ordered = sorting.ordered ++ [a] := foldl_meet_ordered _ _

/-- An answer stays with more fuel. -/
theorem loop_mono {dependents : α → List α} {fuel more : Nat} {sorting : Sorting α} {ordered : List α}
    (returned : loop dependents fuel sorting = some ordered) (above : fuel ≤ more) :
    loop dependents more sorting = some ordered := by
  induction fuel generalizing more sorting with
  | zero => cases returned
  | succ fuel ih =>
    obtain ⟨more, rfl⟩ := Nat.exists_eq_succ_of_ne_zero (show more ≠ 0 by omega)
    rw [loop] at returned ⊢
    cases head : sorting.ready with
    | nil => rwa [head] at returned
    | cons a rest =>
      rw [head] at returned
      exact ih returned (Nat.le_of_succ_le_succ above)

/-- Only the dependents of a node count, not their order. -/
theorem loop_congr {dependents others : α → List α} (same : ∀ a, (dependents a).Perm (others a)) (fuel : Nat)
    (sorting : Sorting α) : loop dependents fuel sorting = loop others fuel sorting := by
  induction fuel generalizing sorting with
  | zero => rfl
  | succ fuel ih =>
    rw [loop, loop]
    cases sorting.ready with
    | nil => rfl
    | cons a rest => simp only [advance, sorted_congr (same a), ih]

/-- Meeting a list of dependencies counts each node down as often as it is listed, and makes it ready at zero. -/
theorem foldl_meet {targets : List α} (sorting : Sorting α) (room : ∀ b ∈ targets, (targets.count b : Int) ≤ sorting.indegree b) :
    (∀ b, (targets.foldl meet sorting).indegree b = sorting.indegree b - targets.count b) ∧
      ∃ fresh : List α, (targets.foldl meet sorting).ready = sorting.ready ++ fresh ∧ fresh.Nodup ∧
        ∀ b, b ∈ fresh ↔ b ∈ targets ∧ sorting.indegree b = targets.count b := by
  induction targets generalizing sorting with
  | nil => exact ⟨fun b => by simp, [], by simp, List.nodup_nil, fun b => by simp⟩
  | cons a rest ih =>
    have lowered (b : α) : (meet sorting a).indegree b = sorting.indegree b - if b = a then 1 else 0 := by
      by_cases same : b = a
      · subst same
        simp [meet]
      · simp [meet, same]
    have counted (b : α) : ((a :: rest).count b : Int) = rest.count b + if b = a then 1 else 0 := by
      by_cases same : b = a
      · subst same
        simp
      · simp [List.count_cons_of_ne (Ne.symm same), same]
    have first := room a List.mem_cons_self
    rw [counted, if_pos rfl] at first
    have left : ∀ b ∈ rest, (rest.count b : Int) ≤ (meet sorting a).indegree b := by
      intro b member
      have bound := room b (List.mem_cons_of_mem _ member)
      rw [counted] at bound
      rw [lowered]
      omega
    obtain ⟨indegree, fresh, ready, distinct, members⟩ := ih (meet sorting a) left
    rw [List.foldl_cons]
    refine ⟨fun b => ?_, (if sorting.indegree a = 1 then [a] else []) ++ fresh, ?_, ?_, fun b => ?_⟩
    · rw [indegree, lowered, counted]
      omega
    · rw [ready, ← List.append_assoc]
      congr 1
      have ended : (sorting.indegree a - 1 = 0) ↔ sorting.indegree a = 1 := by omega
      simp only [meet, Function.update_self, ended]
      split <;> simp
    · by_cases last : sorting.indegree a = 1
      · rw [if_pos last, List.singleton_append, List.nodup_cons]
        refine ⟨fun again => ?_, distinct⟩
        have some_ := List.count_pos_iff.mpr ((members a).mp again).1
        omega
      · rw [if_neg last, List.nil_append]
        exact distinct
    · rw [List.mem_append, members, lowered, counted]
      by_cases same : b = a
      · subst same
        have listed : b ∈ rest ↔ 0 < rest.count b := List.count_pos_iff.symm
        by_cases last : sorting.indegree b = 1
        · simp only [if_pos last, true_or, List.mem_cons, true_and, true_iff, if_true]
          omega
        · simp only [if_neg last, List.not_mem_nil, false_or, List.mem_cons, true_or, true_and, if_true, listed]
          omega
      · have other : b ∉ (if sorting.indegree a = 1 then [a] else []) := by
          split <;> simp [same]
        simp [other, same]

section invariant

variable {nodes : List α} {dependsOn dependents : α → List α}

/-- The two views of the dependencies agree, and they stay among the nodes. -/
structure Converse (nodes : List α) (dependsOn dependents : α → List α) : Prop where
  listed : ∀ a, dependsOn a ⊆ nodes
  outside : ∀ a, a ∉ nodes → dependsOn a = []
  counted : ∀ a b, (dependents a).count b = (dependsOn b).count a

/-- What holds of a sorting at the head of the loop. -/
structure Sorts (nodes : List α) (dependsOn : α → List α) (sorting : Sorting α) : Prop where
  counted : ∀ a, sorting.indegree a = (dependsOn a).countP (fun b => b ∉ sorting.ordered)
  distinct : (sorting.ordered ++ sorting.ready).Nodup
  members : ∀ a, a ∈ sorting.ordered ++ sorting.ready ↔ a ∈ nodes ∧ dependsOn a ⊆ sorting.ordered
  behind : Ordered (Follows dependsOn) sorting.ordered.reverse

theorem countP_eq_zero {ordered values : List α} : values.countP (fun b => b ∉ ordered) = 0 ↔ values ⊆ ordered := by
  rw [List.countP_eq_zero]
  exact forall₂_congr fun b _ => by simp

theorem Sorts.indegree_zero {sorting : Sorting α} (sorts : Sorts nodes dependsOn sorting) (a : α) :
    sorting.indegree a = 0 ↔ dependsOn a ⊆ sorting.ordered := by
  rw [sorts.counted, Int.natCast_eq_zero, countP_eq_zero]

/-- One more node in order meets the dependencies on it. -/
theorem countP_snoc {ordered : List α} {a : α} (fresh : a ∉ ordered) (values : List α) :
    values.countP (fun b => b ∉ ordered) = values.countP (fun b => b ∉ ordered ++ [a]) + values.count a := by
  induction values with
  | nil => rfl
  | cons b rest ih =>
    rw [List.countP_cons, List.countP_cons, List.count_cons, ih]
    by_cases same : b = a
    · subst same
      simp only [fresh, not_false_eq_true, decide_true, if_true, List.mem_append, List.mem_singleton, or_true, not_true,
        decide_false, Bool.false_eq_true, if_false, BEq.rfl]
      omega
    · by_cases old : b ∈ ordered <;> simp [same, old]
      omega

theorem Sorts.advance {sorting : Sorting α} {a : α} {rest : List α} (sorts : Sorts nodes dependsOn sorting)
    (converse : Converse nodes dependsOn dependents) (head : sorting.ready = a :: rest) :
    Sorts nodes dependsOn (advance dependents sorting a rest) := by
  have distinct := sorts.distinct
  have fresh : a ∉ sorting.ordered := by
    intro old
    rw [head] at distinct
    exact (List.nodup_append.mp distinct).2.2 a old a List.mem_cons_self rfl
  have started : a ∈ nodes ∧ dependsOn a ⊆ sorting.ordered :=
    (sorts.members a).mp (by simp [head])
  have count (b : α) : (sorted (dependents a)).count b = (dependsOn b).count a := by
    rw [(perm_sorted _).count_eq, converse.counted]
  have room : ∀ b ∈ sorted (dependents a), ((sorted (dependents a)).count b : Int) ≤ sorting.indegree b := by
    intro b _
    rw [count, sorts.counted, countP_snoc fresh]
    omega
  obtain ⟨indegree, new, ready, single, members⟩ := foldl_meet
    { sorting with ready := rest, ordered := sorting.ordered ++ [a] } room
  have counted (b : α) : (Toposort.advance dependents sorting a rest).indegree b =
      (dependsOn b).countP (fun c => c ∉ sorting.ordered ++ [a]) := by
    have before := sorts.counted b
    rw [countP_snoc fresh] at before
    change (List.foldl meet _ _).indegree b = _
    rw [indegree, count]
    dsimp only
    omega
  have inOrder := advance_ordered dependents sorting a rest
  have queue : (Toposort.advance dependents sorting a rest).ready.Perm (rest ++ new) := by
    change (sorted (List.foldl meet _ _).ready).Perm _
    rw [ready]
    exact perm_sorted _
  -- the nodes that become ready are those whose last unmet dependency was the one put in order
  have newly (b : α) : b ∈ new ↔ dependsOn b ⊆ sorting.ordered ++ [a] ∧ ¬ dependsOn b ⊆ sorting.ordered := by
    have before := sorts.counted b
    rw [countP_snoc fresh] at before
    rw [members, ← List.count_pos_iff, count, ← sorts.indegree_zero, ← countP_eq_zero]
    dsimp only
    omega
  have spread : (sorting.ordered ++ [a]) ++ (rest ++ new) = (sorting.ordered ++ sorting.ready) ++ new := by
    simp [head]
  refine ⟨fun b => ?_, ?_, fun b => ?_, ?_⟩
  · rw [counted, inOrder]
  · rw [inOrder, (queue.append_left _).nodup_iff, spread]
    refine List.nodup_append.mpr ⟨distinct, single, ?_⟩
    rintro b old _ now rfl
    exact ((newly b).mp now).2 ((sorts.members b).mp old).2
  · rw [inOrder, (queue.append_left _).mem_iff, spread, List.mem_append, sorts.members, newly]
    constructor
    · rintro (⟨known, met⟩ | ⟨met, waited⟩)
      · exact ⟨known, List.subset_append_of_subset_left _ met⟩
      · refine ⟨?_, met⟩
        by_contra unknown
        exact waited (by rw [converse.outside b unknown]; exact List.nil_subset _)
    · rintro ⟨known, met⟩
      by_cases before : dependsOn b ⊆ sorting.ordered
      · exact .inl ⟨known, before⟩
      · exact .inr ⟨met, before⟩
  · rw [inOrder, List.reverse_append]
    exact ⟨fun b step => List.mem_reverse.mpr (started.2 step), sorts.behind⟩

/-- With room for every node, the loop ends, with nothing ready. -/
theorem loop_ends (converse : Converse nodes dependsOn dependents) {fuel : Nat} {sorting : Sorting α}
    (sorts : Sorts nodes dependsOn sorting) (room : nodes.length < fuel + sorting.ordered.length) :
    ∃ final, loop dependents fuel sorting = some final.ordered ∧ final.ready = [] ∧ Sorts nodes dependsOn final := by
  induction fuel generalizing sorting with
  | zero =>
    have bound := (List.nodup_append.mp sorts.distinct).1.length_le_of_subset
      (fun a member => ((sorts.members a).mp (List.mem_append_left _ member)).1)
    omega
  | succ fuel ih =>
    rw [loop]
    cases head : sorting.ready with
    | nil => exact ⟨sorting, rfl, head, sorts⟩
    | cons a rest =>
      have next := sorts.advance converse head
      refine ih next ?_
      rw [advance_ordered, List.length_append, List.length_singleton]
      omega

/-- From the nodes without dependencies, the loop puts in order each node that is behind no cycle: all of them exactly in
a graph without one. -/
theorem loop_sorts (converse : Converse nodes dependsOn dependents) {indegree : α → Int}
    (counted : ∀ a, indegree a = (dependsOn a).length) (distinct : nodes.Nodup) {fuel : Nat} (room : nodes.length < fuel) :
    ∃ ordered, loop dependents fuel ⟨indegree, sorted (nodes.filter fun a => indegree a = 0), []⟩ = some ordered ∧
      ordered.Nodup ∧ ordered ⊆ nodes ∧ Ordered (Follows dependsOn) ordered.reverse ∧
      (ordered.length = nodes.length ↔ Acyclic (Follows dependsOn)) := by
  have started : Sorts nodes dependsOn ⟨indegree, sorted (nodes.filter fun a => indegree a = 0), []⟩ := by
    refine ⟨fun a => ?_, ?_, fun a => ?_, trivial⟩
    · exact (counted a).trans (congrArg _ (List.countP_eq_length.mpr (by simp)).symm)
    · exact (perm_sorted _).nodup_iff.mpr (distinct.filter _)
    · rw [List.nil_append, (perm_sorted _).mem_iff, List.mem_filter, decide_eq_true_eq, counted, Int.natCast_eq_zero,
        List.length_eq_zero_iff, List.subset_nil]
  obtain ⟨final, returned, idle, sorts⟩ := loop_ends converse started (by simpa using room)
  have distinct_ := (List.nodup_append.mp sorts.distinct).1
  have members := sorts.members
  rw [idle, List.append_nil] at members
  have within : final.ordered ⊆ nodes := fun a member => ((members a).mp member).1
  refine ⟨final.ordered, returned, distinct_, within, sorts.behind, fun complete a cycle => ?_, fun acyclic => ?_⟩
  · have whole : nodes ⊆ final.ordered := (List.subperm_of_subset distinct_ within).perm_of_length_le complete.ge |>.symm.subset
    have inside : a ∈ nodes := by
      by_contra unknown
      obtain ⟨b, step, -⟩ := Relation.TransGen.head'_iff.mp cycle
      rw [Follows, converse.outside a unknown] at step
      cases step
    exact (sorts.behind.ends a (List.mem_reverse.mpr (whole inside))).not_cycle cycle
  · by_contra short
    have left : nodes.filter (fun a => a ∉ final.ordered) ≠ [] := by
      intro none_
      have whole : nodes ⊆ final.ordered := by
        intro a member
        by_contra absent
        have waits := List.filter_eq_nil_iff.mp none_ a member
        exact waits (decide_eq_true absent)
      exact short (le_antisymm (distinct_.length_le_of_subset within) (distinct.length_le_of_subset whole))
    refine not_acyclic left (fun a member => ?_) acyclic
    obtain ⟨known, waits⟩ := List.mem_filter.mp member
    have unmet : ¬ dependsOn a ⊆ final.ordered := fun met => of_decide_eq_true waits ((members a).mpr ⟨known, met⟩)
    simp only [List.subset_def, not_forall] at unmet
    obtain ⟨b, step, absent⟩ := unmet
    exact ⟨b, List.mem_filter.mpr ⟨converse.listed a step, decide_eq_true absent⟩, step⟩

end invariant

end Coordinator.Kit.Toposort
