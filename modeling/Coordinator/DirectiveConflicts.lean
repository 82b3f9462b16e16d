import Coordinator.DirectiveJournal

/-! Runs of directive commands. Whatever is created, moved and pushed out of the journal, the active
directives that it has never conflict. -/

namespace Coordinator.DirectiveRecords
open Kit Journal

/-- The revisions of each directive increase along the journal. -/
def Increasing (journal : List Directive) : Prop :=
  journal.Pairwise (fun earlier later => earlier.directiveId = later.directiveId → earlier.revision < later.revision)

/-- The latest records of two active directives do not conflict. -/
def Peaceful (journal : List Directive) : Prop :=
  ∀ a b, latestOf journal a.directiveId = some a → latestOf journal b.directiveId = some b →
    a.lifecycle = .active → b.lifecycle = .active → conflicts a b = false

structure Coherent (journal : List Directive) : Prop where
  bound : journal.length ≤ maxDirectives
  valid : ∀ item ∈ journal, validateDirective item = .ok ()
  increasing : Increasing journal
  peaceful : Peaceful journal

section latest

variable {journal latest_ records : List Directive} {record : Directive}

theorem enter_known (found : latest_.find? (fun current => current.directiveId == record.directiveId) = some current)
    (later : current.revision < record.revision) :
    enter latest_ record =
      .ok (latest_.map (fun other => if other.directiveId == record.directiveId then record else other)) := by
  have fresh : decide (record.revision ≤ current.revision) = false := decide_eq_false (not_le.mpr later)
  rw [enter, found]
  simp only [fresh]
  rfl

theorem enter_new (none : latest_.find? (fun current => current.directiveId == record.directiveId) = none) :
    enter latest_ record = .ok (latest_ ++ [record]) := by
  rw [enter, none]
  rfl

/-- Entering the records of a journal one by one leaves the latest of each directive. -/
theorem foldlM_enter (increasing : Increasing journal) :
    ∃ latest_, journal.foldlM enter [] = .ok latest_ ∧
      ∀ item, item ∈ latest_ ↔ latestOf journal item.directiveId = some item := by
  induction journal using List.reverseRecOn with
  | nil => exact ⟨[], rfl, fun item => by simp [latestOf, latest]⟩
  | append_singleton journal record ih =>
    rw [Increasing, List.pairwise_append] at increasing
    obtain ⟨latest_, entered, members⟩ := ih increasing.1
    have last : ∀ item : Directive, latestOf (journal ++ [record]) item.directiveId = some item ↔
        item = record ∨ item.directiveId ≠ record.directiveId ∧ latestOf journal item.directiveId = some item := by
      intro item
      rw [latestOf, latest_append]
      by_cases same : record.directiveId = item.directiveId
      · simp [same, eq_comm]
      · have apart : item ≠ record := fun equal => same (equal ▸ rfl)
        simp [same, apart, Ne.symm same, latestOf]
    rw [List.foldlM_append, entered, ok_bind, List.foldlM_cons]
    cases found : latest_.find? (fun current => current.directiveId == record.directiveId) with
    | some current =>
      have member := List.mem_of_find?_eq_some found
      have named : current.directiveId = record.directiveId := by simpa using List.find?_some found
      have older : current.revision < record.revision :=
        increasing.2.2 current (latest_mem ((members current).mp member)).1 record (List.mem_singleton_self _) named
      rw [enter_known found older, ok_bind]
      refine ⟨_, rfl, fun item => ?_⟩
      rw [last, List.mem_map]
      constructor
      · rintro ⟨other, there, rfl⟩
        by_cases same : other.directiveId = record.directiveId
        · exact .inl (by simp [same])
        · exact .inr (by simpa [same] using (members other).mp there)
      · rintro (rfl | ⟨other, there⟩)
        · exact ⟨current, member, by simp [named]⟩
        · exact ⟨item, (members item).mpr there, by simp [other]⟩
    | none =>
      rw [enter_new found, ok_bind]
      refine ⟨_, rfl, fun item => ?_⟩
      rw [last, List.mem_append, List.mem_singleton, members, or_comm]
      refine or_congr_right ⟨fun there => ⟨fun same => ?_, there⟩, And.right⟩
      have absent := List.find?_eq_none.mp found item ((members item).mpr there)
      simp [same] at absent

/-- The latest records of a coherent journal are read. -/
theorem latestDirectives_coherent (bound : journal.length ≤ maxDirectives)
    (valid : ∀ item ∈ journal, validateDirective item = .ok ()) (increasing : Increasing journal) :
    ∃ records, latestDirectives journal = .ok records ∧
      ∀ item, item ∈ records ↔ latestOf journal item.directiveId = some item := by
  obtain ⟨latest_, entered, members⟩ := foldlM_enter increasing
  refine ⟨latest_.insertionSort (fun left right => left.directiveId ≤ right.directiveId), ?_, fun item => ?_⟩
  · rw [latestDirectives, loadDirectives_eq_ok.mpr ⟨valid, bound, rfl⟩, ok_bind, entered]
    rfl
  · rw [List.mem_insertionSort, members]

end latest

section conflict

variable {journal next records : List Directive} {record a b : Directive}

theorem scopesOverlap_comm (left right : Directive) : scopesOverlap left right = scopesOverlap right left := by
  have swap : ∀ some other : List String, some.any (other.contains ·) = other.any (some.contains ·) := by
    intro some other
    rw [Bool.eq_iff_iff, List.any_eq_true, List.any_eq_true]
    simp only [List.contains_iff_mem]
    exact ⟨fun ⟨item, here, there⟩ => ⟨item, there, here⟩, fun ⟨item, here, there⟩ => ⟨item, there, here⟩⟩
  rw [scopesOverlap, scopesOverlap, swap left.scope.roles, swap left.scope.tasks]

/-- Between active directives a conflict is mutual. -/
theorem conflicts_comm (first : a.lifecycle = .active) (second : b.lifecycle = .active) : conflicts a b = conflicts b a := by
  have precedence : (a.precedence == b.precedence) = (b.precedence == a.precedence) := Bool.beq_comm
  have apart : (a.directiveId != b.directiveId) = (b.directiveId != a.directiveId) := bne_comm
  have statements : (a.statement != b.statement) = (b.statement != a.statement) := bne_comm
  rw [conflicts, conflicts, first, second, precedence, apart, statements, scopesOverlap_comm]

theorem not_conflicts_self (a : Directive) : conflicts a a = false := by
  simp [conflicts]

theorem conflictErrors_eq_nil (peaceful : ∀ a ∈ records, ∀ b ∈ records, conflicts a b = false) :
    conflictErrors records = [] := by
  induction records with
  | nil => rfl
  | cons record rest ih =>
    have none : conflictingDirectives rest record = [] := by
      rw [conflictingDirectives, List.filter_eq_nil_iff]
      intro other member
      rw [peaceful other (List.mem_cons_of_mem _ member) record List.mem_cons_self]
      exact Bool.false_ne_true
    rw [conflictErrors, none, List.isEmpty_nil, if_pos rfl]
    exact ih fun a here b there => peaceful a (List.mem_cons_of_mem _ here) b (List.mem_cons_of_mem _ there)

/-- A coherent journal passes its validation. -/
theorem Coherent.errors (coherent : Coherent journal) : directiveValidationErrors journal = [] := by
  obtain ⟨records, read, members⟩ := latestDirectives_coherent coherent.bound coherent.valid coherent.increasing
  have valid : records.forM validateDirective = .ok () :=
    forM_eq_ok.mpr fun item member => coherent.valid item (latest_mem ((members item).mp member)).1
  rw [directiveValidationErrors, read]
  simp only [valid]
  refine conflictErrors_eq_nil fun a here b there => ?_
  simp only [List.mem_filter, decide_eq_true_eq] at here there
  exact coherent.peaceful a b ((members a).mp here.1) ((members b).mp there.1) here.2 there.2

/-- An append keeps a journal coherent when the record, if active, conflicts with no latest one. -/
theorem Coherent.append (coherent : Coherent journal) (accepted : appendDirective journal record = .ok next)
    (admitted : record.lifecycle = .active → ∀ other, latestOf journal other.directiveId = some other →
      conflicts other record = false) : Coherent next := by
  obtain ⟨valid, -, -, cas, rfl⟩ := appendDirective_eq_ok.mp accepted
  have left : ∀ item ∈ push maxDirectives journal record, item ∈ journal ∨ item = record := fun item member => by
    simpa using (push_sublist maxDirectives journal record).subset member
  have increasing : Increasing (journal ++ [record]) := by
    refine List.pairwise_append.mpr ⟨coherent.increasing, List.pairwise_singleton _ _, ?_⟩
    rintro earlier member later last same
    rw [List.mem_singleton] at last
    subst last
    obtain ⟨newest, found⟩ := @exists_latest _ _ _ Directive.directiveId journal _ member
    have next := cas newest (same ▸ found)
    obtain rfl | older := before_latest coherent.increasing found member <;> omega
  refine ⟨push_length, ?_, increasing.sublist (push_sublist _ _ _), ?_⟩
  · intro item member
    obtain old | rfl := left item member
    · exact coherent.valid item old
    · exact valid
  · intro a b first second activeA activeB
    have wholeA := latest_of_suffix (push_suffix maxDirectives journal record) first
    have wholeB := latest_of_suffix (push_suffix maxDirectives journal record) second
    rw [latest_append] at wholeA wholeB
    split at wholeA <;> split at wholeB
    · cases wholeA
      cases wholeB
      exact not_conflicts_self _
    · cases wholeA
      rw [conflicts_comm activeA activeB]
      exact admitted activeA b wholeB
    · cases wholeB
      exact admitted activeB a wholeA
    · exact coherent.peaceful a b wholeA wholeB activeA activeB

end conflict

section commands

variable {journal next records : List Directive} {record : Directive} {clock : Clock}

theorem createDirective_lifecycle {args : CreateArgs} (created : createDirective args records clock = .ok record) :
    record.lifecycle = .proposed := by
  simp only [createDirective, buildDirective, bind_eq_ok, raiseText_eq_ok, exists_unit, pure_eq_ok] at created
  obtain ⟨-, _, -, -, -, -, rfl⟩ := created
  rfl

/-- Only an activation that finds no conflict makes a directive active. -/
theorem transitionDirective_active {args : TransitionArgs} (moved : transitionDirective args records clock = .ok record)
    (active : record.lifecycle = .active) : conflictingDirectives records record = [] := by
  simp only [transitionDirective, bind_eq_ok, orRaise_eq_ok, raiseText_eq_ok, exists_unit, pure_eq_ok] at moved
  obtain ⟨current, -, -, -, lifecycle, decided, rfl⟩ := moved
  split at active
  · next same =>
    subst same
    rw [if_pos rfl]
    cases action : args.action with
    | activate =>
      rw [action] at decided
      simp only [directiveLifecycle, bind_eq_ok, raiseText_eq_ok, exists_unit, pure_eq_ok] at decided
      obtain ⟨-, chosen⟩ := decided
      by_contra some
      rw [if_neg (by simpa using some)] at chosen
      cases chosen
    | escalate =>
      rw [action] at decided
      simp only [directiveLifecycle, bind_eq_ok, raiseText_eq_ok, exists_unit, pure_eq_ok] at decided
      cases decided.2
    | supersede =>
      rw [action] at decided
      cases decided
    | revoke =>
      rw [action] at decided
      cases decided
  · next other => exact absurd active other

/-- A command appends nothing, or one record that conflicts with no active directive if it is active. -/
theorem cmdDirective_cases {command : Command} (accepted : cmdDirective journal clock command = .ok next) :
    next = journal ∨ ∃ records record, latestDirectives journal = .ok records ∧
      appendDirective journal record = .ok next ∧
      (record.lifecycle = .active → conflictingDirectives records record = []) := by
  rw [cmdDirective, bind_eq_ok] at accepted
  obtain ⟨records, read, accepted⟩ := accepted
  cases command with
  | list lifecycle => exact .inl (Except.ok.inj accepted).symm
  | create args =>
    obtain ⟨record, created, appended⟩ := bind_eq_ok.mp accepted
    refine .inr ⟨records, record, read, appended, fun active => ?_⟩
    rw [createDirective_lifecycle created] at active
    cases active
  | transition args =>
    obtain ⟨record, moved, appended⟩ := bind_eq_ok.mp accepted
    exact .inr ⟨records, record, read, appended, transitionDirective_active moved⟩

/-- A refused command leaves the journal as it is. -/
def commanded (journal : List Directive) (call : Clock × Command) : List Directive :=
  match cmdDirective journal call.1 call.2 with
  | .ok next => next
  | .error _ => journal

theorem commanded_coherent (journal : List Directive) (call : Clock × Command) (coherent : Coherent journal) :
    Coherent (commanded journal call) := by
  rw [commanded]
  cases accepted : cmdDirective journal call.1 call.2 with
  | error fault => exact coherent
  | ok next =>
    obtain rfl | ⟨records, record, read, appended, admitted⟩ := cmdDirective_cases accepted
    · exact coherent
    · obtain ⟨listed, read_, members⟩ := latestDirectives_coherent coherent.bound coherent.valid coherent.increasing
      cases read_.symm.trans read
      refine coherent.append appended fun active other found => ?_
      have peaceful := List.filter_eq_nil_iff.mp (admitted active) other ((members other).mpr found)
      simpa using peaceful

/-- Whatever commands are given, the active directives of the journal never conflict and its
validation finds no error. -/
theorem directives_run (calls : List (Clock × Command)) :
    directiveValidationErrors (Run.final commanded [] calls) = [] ∧
      ∃ records, latestDirectives (Run.final commanded [] calls) = .ok records ∧
        ∀ a ∈ records, ∀ b ∈ records, a.lifecycle = .active → b.lifecycle = .active → conflicts a b = false := by
  have begins : Coherent [] := ⟨by decide, by simp, List.Pairwise.nil, fun a b found => by simp [latestOf, latest] at found⟩
  have coherent := Run.invariant_always commanded commanded_coherent calls begins
  obtain ⟨records, read, members⟩ := latestDirectives_coherent coherent.bound coherent.valid coherent.increasing
  exact ⟨coherent.errors, records, read, fun a here b there => coherent.peaceful a b ((members a).mp here) ((members b).mp there)⟩

end commands

end Coordinator.DirectiveRecords
