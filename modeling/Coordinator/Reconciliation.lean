import Coordinator.WorkingTree
import Coordinator.Kit.Run

/-! Reconcilers of one checkout. Each takes a ticket, scans the product repository without the lock
and applies what it has seen under the lock, unless a later ticket has been published. -/

namespace Coordinator.WorkingTree
open Kit

/-- How an apply that is not superseded ends. The number of effects says how far it has come. -/
inductive Ending where
  /-- an exception before anything is written -/
  | refused
  /-- an exception while it writes or validates -/
  | writing (effects : Nat)
  /-- an exception of the commit itself -/
  | committing
  /-- an exception between the commit and the publication of the ticket -/
  | publishing (committed : Bool)
  /-- an exception after the publication: the marker is not written, or the push fails -/
  | marking (committed : Bool)
  | complete
  /-- the process ends before it publishes the ticket -/
  | killed (effects : Nat)

/-- The files of a checkout with the two tickets that order its scans. -/
structure Checkout where
  tree : Tree
  sequence : Nat
  published : Nat

def reserveObservationTicket (checkout : Checkout) : Checkout := { checkout with sequence := checkout.sequence + 1 }

/-- An earlier scan is discarded. -/
def observationIsSuperseded (checkout : Checkout) (ticket : Nat) : Bool := ticket < checkout.published

section apply

variable (views : Views) (checkout : Checkout) (ticket : Nat) (scan : Scan)

/-- The handler of a failed transaction. What has been committed stays. -/
def restorePaths (committed : Bool) (before : FileTree.Snapshot Path) (tree : Tree) : Tree :=
  if committed then tree else tree.restore before

/-- The files that an apply leaves behind. -/
def Ending.leaves : Ending → Tree
  | refused => checkout.tree
  | writing effects =>
      let tree := runAll checkout.tree ((reconcileEffects views checkout.tree scan).take effects)
      restorePaths false (reconcileBefore views checkout.tree) tree
  | committing => closed false
  | publishing committed | marking committed => closed committed
  | complete => runAll checkout.tree (reconcileEffects views checkout.tree scan)
  | killed effects => runAll checkout.tree ((reconcileEffects views checkout.tree scan).take effects)
where
  /-- A failure after the writes have been validated. -/
  closed (committed : Bool) : Tree :=
    let tree := runAll checkout.tree (reconcileEffects views checkout.tree scan)
    restorePaths committed (withGenerated views (reconcileBefore views checkout.tree) tree) tree

def Ending.publishes : Ending → Bool
  | marking _ | complete => true
  | refused | writing _ | committing | publishing _ | killed _ => false

/-- Apply a scan. A replicated checkout first takes over what its remote has. -/
def applyGitReconciliation (pulled : Option Tree) (ending : Ending) : Checkout :=
  let checkout := { checkout with tree := pulled.getD checkout.tree }
  if observationIsSuperseded checkout ticket then checkout
  else
    { checkout with
      tree := ending.leaves views checkout scan
      published := if ending.publishes then ticket else checkout.published }

end apply

/-- The documents that show a scan, as they read. -/
def docs (tree : Tree) : Option String × Option String := (tree.readText .projectState, tree.readText .worktrees)

def Scan.docs (scan : Scan) (title : String) : Option String × Option String :=
  (some (readBack (liveDocs title scan).1), some (readBack (liveDocs title scan).2))

/-- A reconciler between its ticket and its apply. -/
structure Reconciler where
  ticket : Nat
  scan : Option Scan

/-- A checkout and its reconcilers, with the scans that have been published, in order. -/
structure System where
  checkout : Checkout
  reconcilers : List Reconciler
  publications : List (Nat × Scan)

inductive Action where
  | reserve
  | scan (index : Nat) (seen : Scan)
  | apply (index : Nat) (pulled : Option Tree) (ending : Ending)
  /-- another writer under the lock, which leaves the documents of a scan alone -/
  | write (tree : Tree)

def System.act (views : Views) (system : System) : Action → System
  | .reserve =>
      let checkout := reserveObservationTicket system.checkout
      { system with checkout, reconcilers := system.reconcilers ++ [⟨checkout.sequence, none⟩] }
  | .scan index seen =>
      { system with reconcilers := system.reconcilers.modify index fun waiting => { waiting with scan := some seen } }
  | .apply index pulled ending =>
      match system.reconcilers[index]? with
      | some ⟨ticket, some seen⟩ =>
          let checkout := applyGitReconciliation views system.checkout ticket seen pulled ending
          let fresh := !observationIsSuperseded system.checkout ticket && ending.publishes
          { checkout
            reconcilers := system.reconcilers.eraseIdx index
            publications := system.publications ++ if fresh then [(ticket, seen)] else [] }
      | _ => system
  | .write tree => if docs tree = docs system.checkout.tree then { system with checkout.tree := tree } else system

def System.start (tree : Tree) : System := ⟨⟨tree, 0, 0⟩, [], []⟩

/-- An apply that does not complete keeps its projections exactly if it has published its ticket. -/
def Ending.settled (effects : Nat) : Ending → Bool
  | refused | writing _ | committing | complete => true
  | publishing committed => !committed
  | marking committed => committed
  | killed count => count + 2 ≤ effects

/-- An apply that is not superseded ends settled, and the remote brings no other documents. -/
def System.Settled (views : Views) (system : System) : Action → Prop
  | .apply index pulled ending =>
      (∀ tree ∈ pulled, docs tree = docs system.checkout.tree) ∧
        ∀ ticket seen, system.reconcilers[index]? = some ⟨ticket, some seen⟩ →
          observationIsSuperseded system.checkout ticket = true ∨
            ending.settled (reconcileEffects views (pulled.getD system.checkout.tree) seen).length = true
  | _ => True

section files

variable {views : Views} {tree : Tree} {scan : Scan}

theorem runAll_append (tree : Tree) (first second : List Effect) :
    runAll tree (first ++ second) = runAll (runAll tree first) second := List.foldl_append

theorem readText_run {effect : Effect} {path : Path} (other : effect.path ≠ path) :
    (effect.run tree).readText path = tree.readText path := by
  cases effect with
  | write target text =>
    have apart : path ≠ target := Ne.symm other
    rw [Effect.run, FileTree.readText, FileTree.read_write, if_neg apart, FileTree.readText]
  | unlink target =>
    have apart : path ≠ target := Ne.symm other
    rw [Effect.run, FileTree.readText, FileTree.read_unlink, if_neg apart, FileTree.readText]

theorem docs_runAll {effects : List Effect} (others : ∀ effect ∈ effects, effect.path ≠ .projectState ∧ effect.path ≠ .worktrees) :
    docs (runAll tree effects) = docs tree := by
  induction effects generalizing tree with
  | nil => rfl
  | cons effect rest ih =>
    have here := others effect List.mem_cons_self
    change docs (runAll (effect.run tree) rest) = _
    rw [ih fun other member => others other (List.mem_cons_of_mem _ member), docs, readText_run here.1, readText_run here.2]
    rfl

/-- What a reconciliation writes before the documents of its scan. -/
def beforeDocs (views : Views) (tree : Tree) (scan : Scan) : List Effect :=
  let synced := syncTaskObservations views tree scan
  synced ++ taskViews views (runAll tree synced)

theorem reconcileEffects_eq : reconcileEffects views tree scan = beforeDocs views tree scan ++
    [.write .projectState (liveDocs views.title scan).1, .write .worktrees (liveDocs views.title scan).2] := by
  simp [reconcileEffects, writeGeneratedViews, beforeDocs]

theorem writeStatusViews_path {pages : List (Option String × String)} {effect : Effect}
    (member : effect ∈ writeStatusViews views tree pages) : effect.path ≠ .projectState ∧ effect.path ≠ .worktrees := by
  rcases List.mem_append.mp member with obsolete | written
  · obtain ⟨path, listed, rfl⟩ := List.mem_map.mp obsolete
    have status := (Bool.and_eq_true_iff.mp (List.mem_filter.mp listed).2).1
    constructor <;> rintro same <;> rw [Effect.path] at same <;> subst same <;> cases status
  · obtain ⟨⟨page, text⟩, -, rfl⟩ := List.mem_map.mp written
    cases page <;> simp [Effect.path, Path.page]

theorem beforeDocs_path {effect : Effect} (member : effect ∈ beforeDocs views tree scan) :
    effect.path ≠ .projectState ∧ effect.path ≠ .worktrees := by
  rcases List.mem_append.mp member with synced | viewed
  · obtain ⟨file, -, rfl⟩ := List.mem_map.mp synced
    simp [Effect.path]
  · rcases List.mem_cons.mp viewed with rfl | status
    · simp [Effect.path]
    · split at status
      · exact writeStatusViews_path status
      · cases status

/-- All the writes together leave the documents of the scan. -/
theorem docs_reconciled : docs (runAll tree (reconcileEffects views tree scan)) = scan.docs views.title := by
  rw [reconcileEffects_eq, runAll_append]
  simp [runAll, Effect.run, docs, Scan.docs, FileTree.readText, FileTree.read_write]

theorem docs_killed {count : Nat} (early : count + 2 ≤ (reconcileEffects views tree scan).length) :
    docs (runAll tree ((reconcileEffects views tree scan).take count)) = docs tree := by
  rw [reconcileEffects_eq] at early ⊢
  rw [List.length_append] at early
  rw [List.take_append_of_le_length (by simpa using early)]
  exact docs_runAll fun effect member => beforeDocs_path (List.mem_of_mem_take member)

/-- A handler that puts the snapshot back leaves the documents as they read before. -/
theorem docs_restored (views : Views) (tree now : Tree) (rest : FileTree.Snapshot Path) :
    docs (now.restore (reconcileBefore views tree ++ rest)) = docs tree := by
  have member (path : Path) (listed : path ∈ [.current, .projectState, .worktrees]) :
      path ∈ tree.paths.filter Path.isTask ++ generatedPaths views tree :=
    List.mem_append_right _ (List.mem_append_left _ listed)
  have back (path : Path) (listed : path ∈ [.current, .projectState, .worktrees]) :
      (now.restore (reconcileBefore views tree ++ rest)).readText path = tree.readText path := by
    rw [FileTree.readText, reconcileBefore, FileTree.read_restore_snapshot, if_pos (member path listed), FileTree.readText]
    cases tree.read path <;> simp
  rw [docs, back _ (by simp), back _ (by simp)]
  rfl

/-- A settled ending leaves the documents of the scan if it publishes, else those from before. -/
theorem docs_leaves (views : Views) (checkout : Checkout) (scan : Scan) {ending : Ending}
    (settled : ending.settled (reconcileEffects views checkout.tree scan).length = true) :
    docs (ending.leaves views checkout scan) = if ending.publishes then scan.docs views.title else docs checkout.tree := by
  cases ending with
  | refused => rfl
  | writing count =>
    have restored := docs_restored views checkout.tree
      (runAll checkout.tree ((reconcileEffects views checkout.tree scan).take count)) []
    rw [List.append_nil] at restored
    exact restored
  | committing => exact docs_restored _ _ _ _
  | publishing committed =>
    rw [Ending.settled, Bool.not_eq_true'] at settled
    subst settled
    exact docs_restored _ _ _ _
  | marking committed =>
    rw [Ending.settled] at settled
    subst settled
    exact docs_reconciled
  | complete => exact docs_reconciled
  | killed count => exact docs_killed (of_decide_eq_true settled)

end files

/-- Tickets are given out once, and what is published rises. -/
structure Ordered (system : System) : Prop where
  given : ∀ waiting ∈ system.reconcilers, waiting.ticket ≤ system.checkout.sequence
  apart : (system.reconcilers.map Reconciler.ticket).Nodup
  unused : ∀ waiting ∈ system.reconcilers, ∀ past ∈ system.publications, past.1 ≠ waiting.ticket
  below : ∀ past ∈ system.publications, past.1 ≤ system.checkout.published
  issued : system.checkout.published ≤ system.checkout.sequence
  rising : system.publications.Pairwise (fun a b => a.1 < b.1)
  last : ∀ last ∈ system.publications.getLast?, system.checkout.published = last.1

/-- The documents are those of the last scan that was published. -/
def Shows (views : Views) (system : System) : Prop :=
  ∀ last ∈ system.publications.getLast?, docs system.checkout.tree = last.2.docs views.title

section steps

variable {views : Views} {system : System}

theorem start_ordered (tree : Tree) : Ordered (System.start tree) where
  given := by simp [System.start]
  apart := List.nodup_nil
  unused := by simp [System.start]
  below := by simp [System.start]
  issued := Nat.le_refl 0
  rising := List.Pairwise.nil
  last := by simp [System.start]

theorem modify_ticket (waiting : List Reconciler) (index : Nat) (seen : Scan) :
    (waiting.modify index fun r => { r with scan := some seen }).map Reconciler.ticket = waiting.map Reconciler.ticket := by
  induction waiting generalizing index with
  | nil => cases index <;> rfl
  | cons first rest ih =>
    cases index with
    | zero => rfl
    | succ index =>
      rw [List.modify_succ_cons, List.map_cons, ih, List.map_cons]

theorem Ordered.mem_ticket (ordered : Ordered system) {ticket : Nat}
    (member : ticket ∈ system.reconcilers.map Reconciler.ticket) :
    ticket ≤ system.checkout.sequence ∧ ∀ past ∈ system.publications, past.1 ≠ ticket := by
  obtain ⟨waiting, there, rfl⟩ := List.mem_map.mp member
  exact ⟨ordered.given waiting there, ordered.unused waiting there⟩

/-- The invariant speaks of the tickets that wait, not of the scans that they wait with. -/
theorem Ordered.of_tickets (ordered : Ordered system) {reconcilers : List Reconciler} {tree : Tree}
    (same : reconcilers.map Reconciler.ticket = system.reconcilers.map Reconciler.ticket) :
    Ordered { system with reconcilers, checkout.tree := tree } where
  given waiting member := (ordered.mem_ticket (same ▸ List.mem_map_of_mem member)).1
  apart := by
    rw [same]
    exact ordered.apart
  unused waiting member := (ordered.mem_ticket (same ▸ List.mem_map_of_mem member)).2
  below := ordered.below
  issued := ordered.issued
  rising := ordered.rising
  last := ordered.last

theorem reserve_ordered (ordered : Ordered system) : Ordered (system.act views .reserve) where
  given waiting member := by
    change waiting.ticket ≤ system.checkout.sequence + 1
    rcases List.mem_append.mp member with old | new
    · exact Nat.le_succ_of_le (ordered.given waiting old)
    · rw [List.mem_singleton.mp new]
      exact Nat.le_refl _
  apart := by
    change ((system.reconcilers ++ [_]).map Reconciler.ticket).Nodup
    rw [List.map_append, List.nodup_append]
    refine ⟨ordered.apart, List.nodup_singleton _, fun ticket member other new => ?_⟩
    have given := (ordered.mem_ticket member).1
    have fresh : other = system.checkout.sequence + 1 := List.mem_singleton.mp new
    omega
  unused waiting member past there := by
    rcases List.mem_append.mp member with old | new
    · exact ordered.unused waiting old past there
    · have known : past.1 ≤ system.checkout.published := ordered.below past there
      have issued := ordered.issued
      have fresh : waiting.ticket = system.checkout.sequence + 1 := by rw [List.mem_singleton.mp new]; rfl
      omega
  below := ordered.below
  issued := Nat.le_succ_of_le ordered.issued
  rising := ordered.rising
  last := ordered.last

/-- The apply of a reconciler that waits with its scan. -/
theorem act_apply {index ticket : Nat} {seen : Scan} (waits : system.reconcilers[index]? = some ⟨ticket, some seen⟩)
    (pulled : Option Tree) (ending : Ending) : system.act views (.apply index pulled ending) =
      { checkout := applyGitReconciliation views system.checkout ticket seen pulled ending
        reconcilers := system.reconcilers.eraseIdx index
        publications := system.publications ++
          if !observationIsSuperseded system.checkout ticket && ending.publishes then [(ticket, seen)] else [] } := by
  simp only [System.act, waits]

theorem apply_sequence (checkout : Checkout) (ticket : Nat) (seen : Scan) (pulled : Option Tree) (ending : Ending) :
    (applyGitReconciliation views checkout ticket seen pulled ending).sequence = checkout.sequence := by
  unfold applyGitReconciliation
  simp only
  split <;> rfl

theorem apply_published (views : Views) (checkout : Checkout) (ticket : Nat) (seen : Scan) (pulled : Option Tree) (ending : Ending) :
    (applyGitReconciliation views checkout ticket seen pulled ending).published =
      if !observationIsSuperseded checkout ticket && ending.publishes then ticket else checkout.published := by
  unfold applyGitReconciliation
  simp only [observationIsSuperseded]
  by_cases later : ticket < checkout.published
  · simp [later]
  · simp [later]

theorem erased_ticket (apart : (system.reconcilers.map Reconciler.ticket).Nodup) {index : Nat} {waiting other : Reconciler}
    (waits : system.reconcilers[index]? = some waiting) (there : other ∈ system.reconcilers.eraseIdx index) :
    other.ticket ≠ waiting.ticket := by
  intro same
  obtain ⟨position, elsewhere, found⟩ := List.mem_eraseIdx_iff_getElem?.mp there
  have inside : position < (system.reconcilers.map Reconciler.ticket).length := by
    rw [List.length_map]
    exact (List.getElem?_eq_some_iff.mp found).1
  refine elsewhere ((List.getElem?_inj inside apart).mp ?_)
  rw [List.getElem?_map, List.getElem?_map, found, waits, Option.map_some, Option.map_some, same]

/-- An apply that publishes has the highest ticket so far. -/
theorem apply_ordered (ordered : Ordered system) {index ticket : Nat} {seen : Scan}
    (waits : system.reconcilers[index]? = some ⟨ticket, some seen⟩) (pulled : Option Tree) (ending : Ending) :
    Ordered (system.act views (.apply index pulled ending)) := by
  have member := List.mem_of_getElem? waits
  have kept {other : Reconciler} (there : other ∈ system.reconcilers.eraseIdx index) : other ∈ system.reconcilers :=
    List.mem_of_mem_eraseIdx there
  have apart : ((system.reconcilers.eraseIdx index).map Reconciler.ticket).Nodup :=
    ordered.apart.sublist ((List.eraseIdx_sublist ..).map _)
  have given : ∀ waiting ∈ system.reconcilers.eraseIdx index, waiting.ticket ≤
      (applyGitReconciliation views system.checkout ticket seen pulled ending).sequence := by
    intro waiting there
    rw [apply_sequence]
    exact ordered.given waiting (kept there)
  rw [act_apply waits]
  have published := apply_published views system.checkout ticket seen pulled ending
  cases fresh : !observationIsSuperseded system.checkout ticket && ending.publishes with
  | false =>
    rw [fresh, if_neg Bool.false_ne_true] at published
    rw [if_neg Bool.false_ne_true, List.append_nil]
    refine ⟨given, apart, fun waiting there => ordered.unused waiting (kept there), ?_, ?_, ordered.rising, ?_⟩
    · simp only [published]
      exact ordered.below
    · simp only [published, apply_sequence]
      exact ordered.issued
    · simp only [published]
      exact ordered.last
  | true =>
    rw [fresh, if_pos rfl] at published
    rw [if_pos rfl]
    have newest : system.checkout.published ≤ ticket := by
      have open_ := (Bool.and_eq_true_iff.mp fresh).1
      rw [observationIsSuperseded, Bool.not_eq_true', decide_eq_false_iff_not] at open_
      omega
    have higher (past : Nat × Scan) (there : past ∈ system.publications) : past.1 < ticket := by
      have below := ordered.below past there
      have unused : past.1 ≠ ticket := ordered.unused _ member past there
      omega
    refine ⟨given, apart, fun waiting there past listed => ?_, fun past listed => ?_, ?_, ?_, ?_⟩
    · rcases List.mem_append.mp listed with old | new
      · exact ordered.unused waiting (kept there) past old
      · rw [List.mem_singleton.mp new]
        exact Ne.symm (erased_ticket ordered.apart waits there)
    · simp only [published]
      rcases List.mem_append.mp listed with old | new
      · exact Nat.le_of_lt (higher past old)
      · rw [List.mem_singleton.mp new]
    · simp only [published, apply_sequence]
      exact ordered.given _ member
    · refine List.pairwise_append.mpr ⟨ordered.rising, List.pairwise_singleton _ _, fun past old last new => ?_⟩
      rw [List.mem_singleton.mp new]
      exact higher past old
    · simp [published]

theorem act_ordered (ordered : Ordered system) (action : Action) : Ordered (system.act views action) := by
  cases action with
  | reserve => exact reserve_ordered ordered
  | scan index seen => exact ordered.of_tickets (modify_ticket _ _ _)
  | apply index pulled ending =>
    cases waits : system.reconcilers[index]? with
    | none =>
      simp only [System.act, waits]
      exact ordered
    | some waiting =>
      obtain ⟨ticket, _ | seen⟩ := waiting
      · simp only [System.act, waits]
        exact ordered
      · exact apply_ordered ordered waits pulled ending
  | write tree =>
    simp only [System.act]
    split
    · exact ordered.of_tickets rfl
    · exact ordered

/-- A superseded apply leaves the checkout as the remote has left it. -/
theorem apply_superseded {checkout : Checkout} {ticket : Nat} (late : observationIsSuperseded checkout ticket = true)
    (seen : Scan) (pulled : Option Tree) (ending : Ending) :
    applyGitReconciliation views checkout ticket seen pulled ending =
      { checkout with tree := pulled.getD checkout.tree } := by
  have late' : observationIsSuperseded { checkout with tree := pulled.getD checkout.tree } ticket = true := late
  unfold applyGitReconciliation
  simp only [late', if_true]

theorem docs_pulled {checkout : Checkout} {pulled : Option Tree} (same : ∀ tree ∈ pulled, docs tree = docs checkout.tree) :
    docs (pulled.getD checkout.tree) = docs checkout.tree := by
  cases pulled with
  | none => rfl
  | some tree => exact same tree rfl

/-- A settled apply shows its scan if it publishes, and else leaves the documents alone. -/
theorem docs_apply {checkout : Checkout} {ticket : Nat} {seen : Scan} {pulled : Option Tree} {ending : Ending}
    (same : ∀ tree ∈ pulled, docs tree = docs checkout.tree)
    (settled : observationIsSuperseded checkout ticket = true ∨
      ending.settled (reconcileEffects views (pulled.getD checkout.tree) seen).length = true) :
    docs (applyGitReconciliation views checkout ticket seen pulled ending).tree =
      if !observationIsSuperseded checkout ticket && ending.publishes then seen.docs views.title else docs checkout.tree := by
  cases late : observationIsSuperseded checkout ticket with
  | true =>
    rw [apply_superseded late]
    exact docs_pulled same
  | false =>
    have settled := settled.resolve_left (by rw [late]; exact Bool.false_ne_true)
    have late' : observationIsSuperseded { checkout with tree := pulled.getD checkout.tree } ticket = false := late
    have left := docs_leaves views { checkout with tree := pulled.getD checkout.tree } seen settled
    unfold applyGitReconciliation
    simp only [late', Bool.false_eq_true, if_false, Bool.not_false, Bool.true_and]
    rw [left, docs_pulled same]

theorem act_shows (shows_ : Shows views system) (action : Action) (settled_ : system.Settled views action) :
    Shows views (system.act views action) := by
  cases action with
  | reserve => exact shows_
  | scan index seen => exact shows_
  | apply index pulled ending =>
    cases waits : system.reconcilers[index]? with
    | none =>
      simp only [System.act, waits]
      exact shows_
    | some waiting =>
      obtain ⟨ticket, _ | seen⟩ := waiting
      · simp only [System.act, waits]
        exact shows_
      · have settled := settled_.2 ticket seen waits
        rw [act_apply waits]
        intro last listed
        have left := docs_apply settled_.1 settled
        change docs (applyGitReconciliation views system.checkout ticket seen pulled ending).tree = _
        rw [left]
        cases fresh : !observationIsSuperseded system.checkout ticket && ending.publishes with
        | true =>
          simp only [fresh, if_true, List.getLast?_append, List.getLast?_singleton, Option.some_or] at listed
          cases listed
          rfl
        | false =>
          simp only [fresh, Bool.false_eq_true, if_false, List.append_nil] at listed
          exact shows_ last listed
  | write tree =>
    simp only [System.act]
    split
    · next same => exact fun last listed => same.trans (shows_ last listed)
    · exact shows_

end steps

/-- What holds of the tickets and the projections at any time. -/
structure Latest (views : Views) (system : System) : Prop where
  rising : system.publications.Pairwise (fun a b => a.1 < b.1)
  shown : ∀ last ∈ system.publications.getLast?,
    system.checkout.published = last.1 ∧ docs system.checkout.tree = last.2.docs views.title
  discarded : ∀ index ticket seen pulled ending, system.reconcilers[index]? = some ⟨ticket, some seen⟩ →
    ticket < system.checkout.published → (∀ tree ∈ pulled, docs tree = docs system.checkout.tree) →
      let after := system.act views (.apply index pulled ending)
      after.checkout.published = system.checkout.published ∧ docs after.checkout.tree = docs system.checkout.tree ∧
        after.publications = system.publications

/-- In every run whose applies end settled, the last published ticket is the highest, the documents
are those of its scan, and an older scan changes nothing. -/
theorem latest_run (views : Views) (tree : Tree) (actions : List Action)
    (settled : Run.Along (System.act views) (System.Settled views) (System.start tree) actions) :
    Latest views (Run.final (System.act views) (System.start tree) actions) := by
  have keeps (system : System) (action : Action) (holds : Ordered system ∧ Shows views system)
      (settled : system.Settled views action) : Ordered (system.act views action) ∧ Shows views (system.act views action) :=
    ⟨act_ordered holds.1 action, act_shows holds.2 action settled⟩
  have starts : Ordered (System.start tree) ∧ Shows views (System.start tree) :=
    ⟨start_ordered tree, by simp [Shows, System.start]⟩
  obtain ⟨ordered, shows_⟩ := Run.invariant (System.act views) keeps actions (System.start tree) starts settled
  generalize Run.final (System.act views) (System.start tree) actions = system at ordered shows_
  refine ⟨ordered.rising, fun last listed => ⟨ordered.last last listed, shows_ last listed⟩, ?_⟩
  intro index ticket seen pulled ending waits older same
  have late : observationIsSuperseded system.checkout ticket = true := decide_eq_true older
  simp only [act_apply waits, apply_superseded late, late, Bool.not_true, Bool.false_and, Bool.false_eq_true, if_false,
    List.append_nil, true_and, and_true]
  exact docs_pulled same

/-- The tickets alone are ordered in every run, however its applies end. -/
theorem rising_run (views : Views) (tree : Tree) (actions : List Action) :
    (Run.final (System.act views) (System.start tree) actions).publications.Pairwise (fun a b => a.1 < b.1) := by
  have keeps (system : System) (action : Action) (ordered : Ordered system) : Ordered (system.act views action) :=
    act_ordered ordered action
  exact (Run.invariant_always (System.act views) keeps actions (start_ordered tree)).rising

/-! Two reconcilers of a checkout whose tasks render to nothing. -/

def sampleViews : Views := ⟨"Sample", false, fun _ _ => [], fun _ => "", fun _ => []⟩

def sampleScan (worktrees : List Worktree) : Scan := ⟨"", "", "", worktrees, [], []⟩

def sampleWorktree : Worktree := ⟨"worktree-1", "topic", "", 0, [], none, none⟩

/-- The newer scan is applied first, and the older one is discarded. -/
theorem latest_overtaken : Latest sampleViews (Run.final (System.act sampleViews) (System.start [])
    [.reserve, .reserve, .scan 0 (sampleScan []), .scan 1 (sampleScan [sampleWorktree]), .apply 1 none .complete,
      .apply 0 none .complete]) := by
  have completes (system : System) (index : Nat) : system.Settled sampleViews (.apply index none .complete) :=
    ⟨by simp, fun _ _ _ => Or.inr rfl⟩
  exact latest_run sampleViews [] _ ⟨trivial, trivial, trivial, trivial, completes _ 1, completes _ 0, trivial⟩

def tick : Char := Char.ofNat 96

theorem tick_row (tree : Worktree) : 0 < (tree.rows.map fun row => row.toList.count tick).sum := by
  have quoted : 0 < (code tree.key).toList.count tick := by
    have mark : "`".toList.count tick = 1 := by decide
    rw [code, String.toList_append, String.toList_append, List.count_append, List.count_append, mark]
    omega
  rw [Worktree.rows, List.map_cons, List.sum_cons]
  simp only [String.toList_append, List.count_append]
  omega

/-- A worktree more shows in the inventory. -/
theorem docs_worktree (title : String) : (sampleScan [sampleWorktree]).docs title ≠ (sampleScan []).docs title := by
  intro same
  have inventory := congrArg (fun shown => shown.2.map fun text => text.toList.count tick) same
  simp only [Scan.docs, Option.map_some, Option.some.injEq, count_readBack (show tick ≠ '\r' by decide)
    (show tick ≠ '\n' by decide), liveDocs, sampleScan, String.toList_append, List.count_append] at inventory
  rw [Text.count_joined (by decide), Text.count_joined (by decide), List.map_append, List.sum_append, List.map_append,
    List.sum_append, List.flatMap_singleton] at inventory
  have listed := tick_row sampleWorktree
  simp only [List.flatMap_nil, List.map_nil, List.sum_nil] at inventory
  omega

/-- The second apply publishes its ticket, fails to write its marker and puts the documents of the
first scan back. -/
def unmarkedRun : List Action :=
  [.reserve, .scan 0 (sampleScan []), .apply 0 none .complete, .reserve, .scan 0 (sampleScan [sampleWorktree]),
    .apply 0 none (.marking false)]

def unmarked : System := Run.final (System.act sampleViews) (System.start []) unmarkedRun

/-- The newer ticket is published with the documents of the older scan. -/
theorem published_without_projection : unmarked.checkout.published = 2 ∧ docs unmarked.checkout.tree = (sampleScan []).docs "Sample" ∧
    ¬Latest sampleViews unmarked := by
  have shown : docs unmarked.checkout.tree = (sampleScan []).docs "Sample" := by
    change docs ((runAll _ _).restore
      (reconcileBefore sampleViews (runAll [] (reconcileEffects sampleViews [] (sampleScan []))) ++ _)) = _
    rw [docs_restored, docs_reconciled]
    rfl
  refine ⟨by decide +kernel, shown, fun latest => ?_⟩
  have last : unmarked.publications.getLast? = some (2, sampleScan [sampleWorktree]) := by decide +kernel
  have newer := (latest.shown _ last).2
  rw [shown] at newer
  exact docs_worktree "Sample" newer.symm

end Coordinator.WorkingTree
