import Mathlib.Data.List.Chain
import Mathlib.Data.List.Nodup
import Mathlib.Logic.Relation
import Mathlib.Tactic.Common

/-! Walks along partial functions and the depth-first search of a graph. A list that holds every node bounds
how far a walk or a search can go without meeting a node again. -/

namespace Coordinator.Kit.Graph

variable {α : Type}

section acyclic

variable {edge : α → α → Prop}

/-- A node from which every walk ends. -/
abbrev Ends (edge : α → α → Prop) (a : α) : Prop := Acc (fun b a => edge a b) a

/-- A graph without a cycle. -/
def Acyclic (edge : α → α → Prop) : Prop := ∀ a, ¬ Relation.TransGen edge a a

/-- No cycle goes through a node from which every walk ends. -/
theorem Ends.not_cycle {a : α} (ends : Ends edge a) : ¬ Relation.TransGen edge a a := by
  induction ends with
  | intro a _ ih =>
    intro cycle
    obtain ⟨b, step, path⟩ := Relation.TransGen.head'_iff.mp cycle
    exact ih b step (Relation.TransGen.tail' path step)

/-- A list in which each node stands before all that it leads to. -/
def Ordered (edge : α → α → Prop) : List α → Prop
  | [] => True
  | a :: rest => (∀ b, edge a b → b ∈ rest) ∧ Ordered edge rest

theorem Ordered.ends {nodes : List α} (ordered : Ordered edge nodes) : ∀ a ∈ nodes, Ends edge a := by
  induction nodes with
  | nil => exact fun a member => absurd member List.not_mem_nil
  | cons first rest ih =>
    intro a member
    obtain rfl | later := List.mem_cons.mp member
    · exact Acc.intro _ fun b step => ih ordered.2 b (ordered.1 b step)
    · exact ih ordered.2 a later

end acyclic

section walks

/-- A walk that comes to a goal, as the nodes that it passes. -/
def Arrives (next : α → Option α) (goal : α → Bool) (chain : List α) : Prop :=
  chain.IsChain (fun a b => next a = some b) ∧ chain.Nodup ∧ ∃ last ∈ chain.getLast?, goal last = true

variable {next : α → Option α} {goal : α → Bool} {nodes : List α}

theorem arrives_singleton {a : α} : Arrives next goal [a] ↔ goal a = true := by
  refine ⟨?_, fun reached => ⟨List.IsChain.singleton _, List.nodup_singleton _, a, rfl, reached⟩⟩
  rintro ⟨-, -, last, isLast, reached⟩
  obtain rfl : a = last := Option.some.inj isLast
  exact reached

theorem arrives_cons {a b : α} {rest : List α} :
    Arrives next goal (a :: b :: rest) ↔ next a = some b ∧ a ∉ b :: rest ∧ Arrives next goal (b :: rest) := by
  unfold Arrives
  rw [List.isChain_cons_cons, List.nodup_cons, List.getLast?_cons_cons]
  constructor
  · rintro ⟨⟨step, linked⟩, ⟨fresh, distinct⟩, arrived⟩
    exact ⟨step, fresh, linked, distinct, arrived⟩
  · rintro ⟨step, fresh, linked, distinct, arrived⟩
    exact ⟨⟨step, linked⟩, ⟨fresh, distinct⟩, arrived⟩

/-- A node before the first one of a walk is not met on it, unless it is a goal. -/
theorem Arrives.not_mem {a b : α} {rest : List α} (arrived : Arrives next goal (b :: rest)) (step : next a = some b)
    (open_ : goal a = false) : a ∉ b :: rest := by
  obtain ⟨linked, distinct, last, isLast, reached⟩ := arrived
  intro met
  obtain ⟨before, after, split⟩ := List.append_of_mem met
  rw [split] at linked isLast distinct
  cases after with
  | nil =>
    rw [List.getLast?_concat] at isLast
    obtain rfl : a = last := Option.some.inj isLast
    rw [open_] at reached
    cases reached
  | cons following later =>
    have onward := (List.isChain_cons_cons.mp linked.right_of_append).1
    obtain rfl : b = following := Option.some.inj (step.symm.trans onward)
    -- the walk begins with the successor, which it meets once more behind the node
    cases before with
    | nil => exact (List.nodup_cons.mp distinct).1 (by simp [(List.cons.inj split).1])
    | cons first before =>
      obtain rfl : b = first := (List.cons.inj split).1
      exact (List.nodup_cons.mp distinct).1 (by simp)

variable [DecidableEq α]

/-- Look for a goal along a function. A node that is met again ends the walk. -/
def follow (next : α → Option α) (goal : α → Bool) : Nat → List α → α → Bool
  | 0, _, _ => false
  | fuel + 1, seen, current =>
      if current ∈ seen then false
      else if goal current then true
      else match next current with
        | none => false
        | some following => follow next goal fuel (current :: seen) following

/-- Whether a walk along a function meets a node again. -/
def revisits (next : α → Option α) : Nat → List α → α → Bool
  | 0, _, _ => false
  | fuel + 1, seen, current =>
      match next current with
      | none => false
      | some following => if current ∈ seen then true else revisits next fuel (current :: seen) following

/-- With room for every node, the search finds a goal exactly at the end of a walk without repetition. -/
theorem follow_iff (known : ∀ a b, next a = some b → a ∈ nodes) {fuel : Nat} {seen : List α} {current : α}
    (distinct : seen.Nodup) (listed : ∀ a ∈ seen, a ∈ nodes) (room : nodes.length < fuel + seen.length) :
    follow next goal fuel seen current = true ↔
      ∃ rest, Arrives next goal (current :: rest) ∧ ∀ a ∈ current :: rest, a ∉ seen := by
  induction fuel generalizing seen current with
  | zero =>
    have bound := distinct.length_le_of_subset listed
    omega
  | succ fuel ih =>
    rw [follow]
    by_cases again : current ∈ seen
    · rw [if_pos again]
      refine ⟨fun never => absurd never Bool.false_ne_true, ?_⟩
      rintro ⟨rest, -, fresh⟩
      exact absurd again (fresh current List.mem_cons_self)
    rw [if_neg again]
    cases found : goal current with
    | true =>
      rw [if_pos rfl]
      refine ⟨fun _ => ⟨[], arrives_singleton.mpr found, ?_⟩, fun _ => rfl⟩
      intro a member
      rw [List.mem_singleton.mp member]
      exact again
    | false =>
      rw [if_neg Bool.false_ne_true]
      have onward {rest : List α} (arrived : Arrives next goal (current :: rest)) :
          ∃ following later, rest = following :: later ∧ next current = some following := by
        cases rest with
        | nil =>
          rw [arrives_singleton, found] at arrived
          cases arrived
        | cons following later => exact ⟨following, later, rfl, (arrives_cons.mp arrived).1⟩
      cases step : next current with
      | none =>
        refine ⟨fun never => absurd never Bool.false_ne_true, ?_⟩
        rintro ⟨rest, arrived, -⟩
        obtain ⟨following, later, -, some_⟩ := onward arrived
        rw [step] at some_
        cases some_
      | some following =>
        have grown : (current :: seen).Nodup := List.nodup_cons.mpr ⟨again, distinct⟩
        have within : ∀ a ∈ current :: seen, a ∈ nodes := List.forall_mem_cons.mpr ⟨known _ following step, listed⟩
        refine (ih grown within (by rw [List.length_cons]; omega)).trans ⟨?_, ?_⟩
        · rintro ⟨rest, arrived, fresh⟩
          refine ⟨following :: rest, arrives_cons.mpr ⟨step, ?_, arrived⟩, List.forall_mem_cons.mpr ⟨again, ?_⟩⟩
          · exact fun member => fresh current member List.mem_cons_self
          · exact fun a later old => fresh a later (List.mem_cons_of_mem _ old)
        · rintro ⟨rest, arrived, fresh⟩
          obtain ⟨other, later, rfl, some_⟩ := onward arrived
          obtain rfl : following = other := Option.some.inj (step.symm.trans some_)
          obtain ⟨-, new, arrived⟩ := arrives_cons.mp arrived
          refine ⟨later, arrived, fun a member old => ?_⟩
          obtain rfl | older := List.mem_cons.mp old
          · exact new member
          · exact fresh a (List.mem_cons_of_mem _ member) older

/-- With room for every node, a walk meets a node again exactly if it comes to a cycle. -/
theorem revisits_iff (known : ∀ a b, next a = some b → a ∈ nodes) {fuel : Nat} {seen : List α} {current : α}
    (distinct : seen.Nodup) (listed : ∀ a ∈ seen, a ∈ nodes) (room : nodes.length < fuel + seen.length)
    (behind : ∀ a ∈ seen, Relation.TransGen (fun a b => next a = some b) a current) :
    revisits next fuel seen current = true ↔ ∃ a, Relation.ReflTransGen (fun a b => next a = some b) current a ∧
      Relation.TransGen (fun a b => next a = some b) a a := by
  induction fuel generalizing seen current with
  | zero =>
    have bound := distinct.length_le_of_subset listed
    omega
  | succ fuel ih =>
    rw [revisits]
    cases step : next current with
    | none =>
      refine ⟨fun never => absurd never Bool.false_ne_true, ?_⟩
      rintro ⟨a, path, cycle⟩
      have onward : ∃ b, next current = some b := by
        obtain rfl | ⟨b, first, -⟩ := path.cases_head
        · obtain ⟨b, first, -⟩ := Relation.TransGen.head'_iff.mp cycle
          exact ⟨b, first⟩
        · exact ⟨b, first⟩
      obtain ⟨b, some_⟩ := onward
      exact absurd (some_.symm.trans step) (Option.some_ne_none b)
    | some following =>
      dsimp only
      by_cases again : current ∈ seen
      · rw [if_pos again]
        exact ⟨fun _ => ⟨current, .refl, behind current again⟩, fun _ => rfl⟩
      rw [if_neg again]
      have grown : (current :: seen).Nodup := List.nodup_cons.mpr ⟨again, distinct⟩
      have within : ∀ a ∈ current :: seen, a ∈ nodes := List.forall_mem_cons.mpr ⟨known _ following step, listed⟩
      have led : ∀ a ∈ current :: seen, Relation.TransGen (fun a b => next a = some b) a following :=
        List.forall_mem_cons.mpr ⟨.single step, fun a later => (behind a later).tail step⟩
      have only {b : α} (first : next current = some b) : b = following := Option.some.inj (first.symm.trans step)
      rw [ih grown within (by rw [List.length_cons]; omega) led]
      constructor
      · rintro ⟨a, path, cycle⟩
        exact ⟨a, .head step path, cycle⟩
      · rintro ⟨a, path, cycle⟩
        obtain rfl | ⟨b, first, path⟩ := path.cases_head
        · obtain ⟨b, first, back⟩ := Relation.TransGen.head'_iff.mp cycle
          exact ⟨_, only first ▸ back, cycle⟩
        · exact ⟨a, only first ▸ path, cycle⟩

end walks

section search

/-- A depth-first search: the nodes that it has left, the path to the one that it is at, what it has found. -/
structure Search (α ε : Type) where
  finished : List α
  stack : List α
  reports : List ε

variable {ε : Type} (next : α → List α)

/-- The edges that a search follows. -/
def Follows (a b : α) : Prop := b ∈ next a

/-- The path of a search goes along edges and through each node once. -/
structure Open (nodes : List α) (search : Search α ε) : Prop where
  distinct : search.stack.Nodup
  known : search.stack ⊆ nodes
  linked : search.stack.IsChain (Follows next)

/-- A node to which the path of a search can be extended. -/
def Enters (nodes : List α) (search : Search α ε) (a : α) : Prop :=
  a ∈ nodes ∧ ∀ last ∈ search.stack.getLast?, Follows next last a

/-- What a search does to its state. -/
structure Explored (before after : Search α ε) : Prop where
  stack : after.stack = before.stack
  grows : before.finished ⊆ after.finished
  quiet : after.reports = [] → before.reports = []
  ordered : after.reports = [] → Ordered (Follows next) before.finished → Ordered (Follows next) after.finished
  sound : Acyclic (Follows next) → after.reports = before.reports

variable {next} {nodes : List α} {before after search : Search α ε}

theorem Explored.refl (search : Search α ε) : Explored next search search :=
  ⟨rfl, List.Subset.refl _, id, fun _ => id, fun _ => rfl⟩

theorem Explored.trans {last : Search α ε} (first : Explored next before after) (second : Explored next after last) :
    Explored next before last where
  stack := second.stack.trans first.stack
  grows := List.Subset.trans first.grows second.grows
  quiet := fun none_ => first.quiet (second.quiet none_)
  ordered := fun none_ sorted => second.ordered none_ (first.ordered (second.quiet none_) sorted)
  sound := fun acyclic => (second.sound acyclic).trans (first.sound acyclic)

theorem Open.initial : Open next nodes (⟨[], [], []⟩ : Search α ε) where
  distinct := List.nodup_nil
  known := List.nil_subset _
  linked := List.IsChain.nil

theorem Open.congr (opened : Open next nodes before) (same : after.stack = before.stack) : Open next nodes after where
  distinct := same ▸ opened.distinct
  known := same ▸ opened.known
  linked := same ▸ opened.linked

/-- Every node of a path leads to its end. -/
theorem reaches_last {edge : α → α → Prop} {path : List α} {a last : α} (linked : path.IsChain edge) (member : a ∈ path)
    (isLast : last ∈ path.getLast?) : Relation.ReflTransGen edge a last := by
  induction path generalizing a with
  | nil => exact absurd member List.not_mem_nil
  | cons first rest ih =>
    cases rest with
    | nil =>
      cases isLast
      rw [List.mem_singleton.mp member]
      exact .refl
    | cons second rest =>
      obtain ⟨step, onward⟩ := List.isChain_cons_cons.mp linked
      rw [List.getLast?_cons_cons] at isLast
      obtain rfl | later := List.mem_cons.mp member
      · exact .head step (ih onward List.mem_cons_self isLast)
      · exact ih onward later isLast

/-- A node of the path to which the path can be extended lies on a cycle. -/
theorem Open.cycle {a : α} (opened : Open next nodes search) (enters : Enters next nodes search a) (again : a ∈ search.stack) :
    Relation.TransGen (Follows next) a a := by
  cases final : search.stack.getLast? with
  | none =>
    rw [List.getLast?_eq_none_iff.mp final] at again
    cases again
  | some last => exact Relation.TransGen.tail' (reaches_last opened.linked again final) (enters.2 last final)

/-- The path with a new node at its end. -/
theorem Open.extended {a : α} (opened : Open next nodes search) (enters : Enters next nodes search a)
    (fresh : a ∉ search.stack) : Open next nodes { search with stack := search.stack ++ [a] } where
  distinct := by
    refine List.nodup_append.mpr ⟨opened.distinct, List.nodup_singleton a, ?_⟩
    rintro b member _ only rfl
    exact fresh (List.mem_singleton.mp only ▸ member)
  known := List.append_subset.mpr ⟨opened.known, List.cons_subset.mpr ⟨enters.1, List.nil_subset _⟩⟩
  linked := by
    refine List.isChain_append.mpr ⟨opened.linked, List.IsChain.singleton a, ?_⟩
    intro last isLast b isFirst
    cases isFirst
    exact enters.2 last isLast

variable [DecidableEq α] (report : List α → ε)

/-- Search from a node. A node of the path that is met again closes a cycle. -/
def explore (next : α → List α) (report : List α → ε) : Nat → Search α ε → α → Search α ε
  | 0, search, _ => search
  | fuel + 1, search, a =>
      if a ∈ search.finished then search
      else if a ∈ search.stack then
        { search with reports := search.reports ++ [report (search.stack.drop (search.stack.idxOf a) ++ [a])] }
      else
        let searched := (next a).foldl (explore next report fuel) { search with stack := search.stack ++ [a] }
        { searched with stack := searched.stack.dropLast, finished := a :: searched.finished }

/-- What each member of a list does to a search, the list does as a whole. -/
theorem explored_foldl (fuel : Nat) (targets : List α)
    (each : ∀ search, Open next nodes search → search.stack = before.stack → ∀ a ∈ targets, Explored next search
      (explore next report fuel search a) ∧ ((explore next report fuel search a).reports = [] →
        a ∈ (explore next report fuel search a).finished))
    (opened : Open next nodes before) :
    Explored next before (targets.foldl (explore next report fuel) before) ∧
      ((targets.foldl (explore next report fuel) before).reports = [] →
        targets ⊆ (targets.foldl (explore next report fuel) before).finished) := by
  induction targets generalizing before with
  | nil => exact ⟨.refl before, fun _ => List.nil_subset _⟩
  | cons a rest ih =>
    obtain ⟨first, left⟩ := each before opened rfl a List.mem_cons_self
    obtain ⟨second, others⟩ := ih (fun search opened same b member =>
      each search opened (same.trans first.stack) b (List.mem_cons_of_mem _ member)) (opened.congr first.stack)
    rw [List.foldl_cons]
    refine ⟨first.trans second, fun none_ => List.cons_subset.mpr ⟨second.grows (left (second.quiet none_)), others none_⟩⟩

/-- A search from a node leaves the path alone, finishes the node unless it reports something, and reports only cycles. -/
theorem explored (closed : ∀ a, next a ⊆ nodes) {fuel : Nat} {a : α} (opened : Open next nodes search)
    (room : nodes.length < fuel + search.stack.length) (enters : Enters next nodes search a) :
    Explored next search (explore next report fuel search a) ∧
      ((explore next report fuel search a).reports = [] → a ∈ (explore next report fuel search a).finished) := by
  induction fuel generalizing search a with
  | zero =>
    have bound := opened.distinct.length_le_of_subset opened.known
    omega
  | succ fuel ih =>
    rw [explore]
    by_cases left : a ∈ search.finished
    · rw [if_pos left]
      exact ⟨.refl search, fun _ => left⟩
    rw [if_neg left]
    by_cases again : a ∈ search.stack
    · rw [if_pos again]
      have never {reports : List ε} {found : ε} (none_ : reports ++ [found] = []) : False :=
        List.cons_ne_nil found [] (List.append_eq_nil_iff.mp none_).2
      exact ⟨⟨rfl, List.Subset.refl _, fun none_ => (never none_).elim, fun none_ => (never none_).elim,
        fun acyclic => absurd (opened.cycle enters again) (acyclic a)⟩, fun none_ => (never none_).elim⟩
    rw [if_neg again]
    have inner := opened.extended enters again
    obtain ⟨searched, finished⟩ := explored_foldl report fuel (next a) (fun current opened same b member => by
      refine ih opened ?_ ⟨closed a member, ?_⟩
      · rw [same, List.length_append, List.length_singleton]
        omega
      · intro last isLast
        rw [same, List.getLast?_append_of_ne_nil _ (List.cons_ne_nil a []), List.getLast?_singleton] at isLast
        cases isLast
        exact member) inner
    refine ⟨⟨?_, ?_, searched.quiet, ?_, searched.sound⟩, fun _ => List.mem_cons_self⟩
    · dsimp only
      rw [searched.stack, List.dropLast_concat]
    · exact fun b member => List.mem_cons_of_mem _ (searched.grows member)
    · exact fun none_ sorted => ⟨fun b step => finished none_ step, searched.ordered none_ sorted⟩

theorem explored_all (closed : ∀ a, next a ⊆ nodes) {fuel : Nat} (room : nodes.length < fuel) {targets : List α}
    (known : targets ⊆ nodes) (opened : Open next nodes before) (idle : before.stack = []) :
    Explored next before (targets.foldl (explore next report fuel) before) ∧
      ((targets.foldl (explore next report fuel) before).reports = [] →
        targets ⊆ (targets.foldl (explore next report fuel) before).finished) := by
  refine explored_foldl report fuel targets (fun search opened same a member => ?_) opened
  refine explored report closed opened (by omega) ⟨known member, fun last isLast => ?_⟩
  rw [same, idle] at isLast
  cases isLast

/-- With room for every node, a search of all of them reports nothing exactly in a graph without a cycle. -/
theorem reports_eq_nil (closed : ∀ a, next a ⊆ nodes) (outside : ∀ a, a ∉ nodes → next a = []) {fuel : Nat}
    (room : nodes.length < fuel) :
    (nodes.foldl (explore next report fuel) ⟨[], [], []⟩).reports = [] ↔ Acyclic (Follows next) := by
  obtain ⟨searched, finished⟩ := explored_all report closed room (List.Subset.refl nodes) Open.initial rfl
  refine ⟨fun none_ a cycle => ?_, fun acyclic => searched.sound acyclic⟩
  have inside : a ∈ nodes := by
    by_contra absent
    obtain ⟨b, step, -⟩ := Relation.TransGen.head'_iff.mp cycle
    rw [Follows, outside a absent] at step
    cases step
  exact ((searched.ordered none_ trivial).ends a (finished none_ inside)).not_cycle cycle

/-- More fuel than there are nodes changes nothing. -/
theorem explore_succ (closed : ∀ a, next a ⊆ nodes) {fuel : Nat} {a : α} (opened : Open next nodes search)
    (room : nodes.length < fuel + search.stack.length) (enters : Enters next nodes search a) :
    explore next report (fuel + 1) search a = explore next report fuel search a := by
  induction fuel generalizing search a with
  | zero =>
    have bound := opened.distinct.length_le_of_subset opened.known
    omega
  | succ fuel ih =>
    rw [explore, explore]
    by_cases left : a ∈ search.finished
    · rw [if_pos left, if_pos left]
    rw [if_neg left, if_neg left]
    by_cases again : a ∈ search.stack
    · rw [if_pos again, if_pos again]
    rw [if_neg again, if_neg again]
    have folded : ∀ targets ⊆ next a, ∀ current : Search α ε, Open next nodes current →
        current.stack = search.stack ++ [a] →
          targets.foldl (explore next report (fuel + 1)) current = targets.foldl (explore next report fuel) current := by
      intro targets
      induction targets with
      | nil => exact fun _ _ _ _ => rfl
      | cons b rest others =>
        intro known current opened same
        have space : nodes.length < fuel + current.stack.length := by
          rw [same, List.length_append, List.length_singleton]
          omega
        have enters : Enters next nodes current b := by
          refine ⟨closed a (known List.mem_cons_self), fun last isLast => ?_⟩
          rw [same, List.getLast?_append_of_ne_nil _ (List.cons_ne_nil a []), List.getLast?_singleton] at isLast
          cases isLast
          exact known List.mem_cons_self
        have searched := (explored report closed opened space enters).1
        rw [List.foldl_cons, List.foldl_cons, ih opened space enters]
        exact others (fun c member => known (List.mem_cons_of_mem _ member)) _ (opened.congr searched.stack)
          (searched.stack.trans same)
    rw [folded (next a) (List.Subset.refl _) _ (opened.extended enters again) rfl]

/-- A whole search is the same with any fuel above the number of nodes. -/
theorem search_fuel (closed : ∀ a, next a ⊆ nodes) {fuel more : Nat} (room : nodes.length < fuel) (above : fuel ≤ more) :
    nodes.foldl (explore next report more) ⟨[], [], []⟩ = nodes.foldl (explore next report fuel) ⟨[], [], []⟩ := by
  have one (fuel : Nat) (room : nodes.length < fuel) : ∀ targets ⊆ nodes, ∀ current : Search α ε, Open next nodes current →
      current.stack = [] →
        targets.foldl (explore next report (fuel + 1)) current = targets.foldl (explore next report fuel) current := by
    intro targets
    induction targets with
    | nil => exact fun _ _ _ _ => rfl
    | cons a rest ih =>
      intro known current opened idle
      have space : nodes.length < fuel + current.stack.length := by omega
      have enters : Enters next nodes current a := by
        refine ⟨known List.mem_cons_self, fun last isLast => ?_⟩
        rw [idle] at isLast
        cases isLast
      have searched := (explored report closed opened space enters).1
      rw [List.foldl_cons, List.foldl_cons, explore_succ report closed opened space enters]
      exact ih (fun b member => known (List.mem_cons_of_mem _ member)) _ (opened.congr searched.stack)
        (searched.stack.trans idle)
  induction above with
  | refl => rfl
  | step above ih => exact (one _ (lt_of_lt_of_le room above) nodes (List.Subset.refl _) _ Open.initial rfl).trans ih

end search

end Coordinator.Kit.Graph
