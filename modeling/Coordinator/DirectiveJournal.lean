import Coordinator.DirectiveRecords
import Coordinator.Kit.Run

/-! Runs of appends to the journal of directives. As long as the record that an append pushes out is
not the last one of its directive, the journal keeps the latest revision of every directive. -/

namespace Coordinator.DirectiveRecords
open Kit Journal

/-- The latest record of a directive in a journal. -/
def latestOf (journal : List Directive) (directiveId : String) : Option Directive :=
  latest Directive.directiveId journal directiveId

theorem raiseText_eq_ok {bad : Bool} {message : String} {u : Unit} : raiseText bad message = .ok u ↔ bad = false :=
  raiseIf_eq_ok

section append

variable {journal next : List Directive} {record : Directive}

theorem loadDirectives_eq_ok {records : List Directive} :
    loadDirectives journal = .ok records ↔
      (∀ item ∈ journal, validateDirective item = .ok ()) ∧ journal.length ≤ maxDirectives ∧ journal = records := by
  simp only [loadDirectives, bind_eq_ok, raiseText_eq_ok, exists_unit, pure_eq_ok, forM_eq_ok, decide_eq_false_iff_not,
    not_lt]

/-- What an append checks, and the journal that it leaves. -/
theorem appendDirective_eq_ok :
    appendDirective journal record = .ok next ↔
      validateDirective record = .ok () ∧ (∀ item ∈ journal, validateDirective item = .ok ()) ∧
      journal.length ≤ maxDirectives ∧
      (∀ last, latestOf journal record.directiveId = some last → record.revision = last.revision + 1) ∧
      push maxDirectives journal record = next := by
  have fence : ((journal.filter (fun item => item.directiveId = record.directiveId)).getLast?.any
      (fun last => decide (record.revision ≠ last.revision + 1))) = false ↔
        ∀ last, latestOf journal record.directiveId = some last → record.revision = last.revision + 1 := by
    rw [latestOf, latest]
    cases (journal.filter (fun item => item.directiveId = record.directiveId)).getLast? <;> simp
  simp only [appendDirective, bind_eq_ok, raiseText_eq_ok, exists_unit, loadDirectives_eq_ok, pure_eq_ok]
  constructor
  · rintro ⟨valid, existing, ⟨sound, bound, rfl⟩, cas, pushed⟩
    exact ⟨valid, sound, bound, fence.mp cas, pushed⟩
  · rintro ⟨valid, sound, bound, cas, pushed⟩
    exact ⟨valid, journal, ⟨sound, bound, rfl⟩, fence.mpr cas, pushed⟩

end append

/-- The journal, with every record that was ever appended to it. -/
structure Recording where
  recorded : List Directive
  journal : List Directive
  deriving DecidableEq

namespace Recording

def empty : Recording := ⟨[], []⟩

/-- A refused append leaves the journal as it is. -/
def append (state : Recording) (record : Directive) : Recording :=
  match appendDirective state.journal record with
  | .ok journal => ⟨state.recorded ++ [record], journal⟩
  | .error _ => state

/-- The journal has the latest revision of every directive that was ever recorded. -/
def Complete (state : Recording) : Prop := ∀ directiveId, latestOf state.journal directiveId = latestOf state.recorded directiveId

/-- No directive disappears, none goes back to a lower revision, and only the appended one changes. -/
def Advances (state next : Recording) (record : Directive) : Prop :=
  ∀ directiveId current, latestOf state.journal directiveId = some current →
    ∃ later, latestOf next.journal directiveId = some later ∧ current.revision ≤ later.revision ∧
      (directiveId ≠ record.directiveId → later = current)

/-- An append that is accepted pushes out no record that is the latest of its directive. -/
def Spares (state : Recording) (record : Directive) : Prop :=
  ∀ journal, appendDirective state.journal record = .ok journal →
    Spared Directive.directiveId maxDirectives state.journal record

variable {state : Recording} {record : Directive} {journal : List Directive}

theorem append_accepted (accepted : appendDirective state.journal record = .ok journal) :
    state.append record = ⟨state.recorded ++ [record], journal⟩ := by
  rw [append, accepted]

/-- An accepted append keeps the latest revision of every directive exactly when it spares the record that goes. -/
theorem append_complete_iff (complete : state.Complete) (accepted : appendDirective state.journal record = .ok journal) :
    (state.append record).Complete ↔ Spared Directive.directiveId maxDirectives state.journal record := by
  obtain ⟨-, -, bound, -, rfl⟩ := appendDirective_eq_ok.mp accepted
  rw [append_accepted accepted, ← latest_push_iff bound (by decide), Complete]
  refine forall_congr' fun directiveId => ?_
  have same := complete directiveId
  rw [latestOf, latestOf] at same
  simp only [latestOf, latest_append, same]

theorem append_complete (complete : state.Complete) (spares : state.Spares record) : (state.append record).Complete := by
  cases accepted : appendDirective state.journal record with
  | ok journal => exact (append_complete_iff complete accepted).mpr (spares journal accepted)
  | error fault =>
    rw [append, accepted]
    exact complete

theorem append_advances (spares : state.Spares record) : state.Advances (state.append record) record := by
  intro directiveId current found
  cases accepted : appendDirective state.journal record with
  | error fault =>
    rw [append, accepted]
    exact ⟨current, found, Int.le_refl _, fun _ => rfl⟩
  | ok journal =>
    obtain ⟨-, -, bound, cas, rfl⟩ := appendDirective_eq_ok.mp accepted
    have kept := (latest_push_iff bound (by decide)).mpr (spares _ accepted) directiveId
    rw [append_accepted accepted]
    simp only [latestOf] at found kept ⊢
    rw [kept, latest_append]
    by_cases same : record.directiveId = directiveId
    · subst same
      have next := cas current found
      exact ⟨record, if_pos rfl, by omega, fun other => absurd rfl other⟩
    · exact ⟨current, by rw [if_neg same]; exact found, Int.le_refl _, fun _ => rfl⟩

/-- In every run whose appends spare the latest records, the journal has the latest revision of every
directive after each of them, and no directive disappears or goes back. -/
theorem append_run (records : List Directive) (spares : Run.Along append Spares empty records) :
    Run.Steps append (fun state record next => next.Complete ∧ state.Advances next record) empty records :=
  Run.steps_of_invariant append (fun _ _ complete spares => append_complete complete spares)
    (fun _ _ complete spares => ⟨append_complete complete spares, append_advances spares⟩) records empty
    (fun _ => rfl) spares

/-- A directive as the board creates it. -/
def sampleDirective (number : Nat) : Directive :=
  { directiveId := "UD-" ++ Text.padded 4 number, authority := "BOARD-001", precedence := 10,
    scope := { roles := ["implementer"], tasks := [] }, statement := "Preserve the release boundary.",
    lifecycle := .proposed, revision := 1, owner := "BOARD_OWNER", claimExpires := "2026-09-24T02:00:00+00:00",
    guidanceRef := "", createdAt := "2026-09-24T00:00:00+00:00", updatedAt := "2026-09-24T00:00:00+00:00" }

/-- It is valid whenever its number has four digits. -/
theorem sampleDirective_valid {number : Nat} (named : isDirectiveId ("UD-" ++ Text.padded 4 number) = true) :
    validateDirective (sampleDirective number) = .ok () := by
  have identity : (sampleDirective number).checkIdentity = (sampleDirective 1).checkIdentity := by
    have one : isDirectiveId (sampleDirective 1).directiveId = true := by decide +kernel
    change isDirectiveId (sampleDirective number).directiveId = true at named
    rw [Directive.checkIdentity, Directive.checkIdentity, one, named]
    rfl
  have content : (sampleDirective number).checkContent = (sampleDirective 1).checkContent := by
    dsimp only [Directive.checkContent, sampleDirective]
  have sample : validateDirective (sampleDirective 1) = .ok () := by decide +kernel
  rwa [validateDirective, identity, content]

/-- Its next revision, once it is activated. -/
def activatedDirective (number : Nat) : Directive :=
  { sampleDirective number with lifecycle := .active, revision := 2, updatedAt := "2026-09-24T00:01:00+00:00" }

theorem append_run_activated : Run.Steps append (fun state record next => next.Complete ∧ state.Advances next record)
    empty [sampleDirective 1, activatedDirective 1] :=
  append_run [sampleDirective 1, activatedDirective 1]
    ⟨fun _ _ full => absurd full (by decide), fun _ _ full => absurd full (by decide +kernel), trivial⟩

/-- Valid records of new directives are all accepted. -/
theorem fresh_run {recorded journal records : List Directive} (valid : ∀ item ∈ journal ++ records, validateDirective item = .ok ())
    (bound : journal.length ≤ maxDirectives) (distinct : (records.map Directive.directiveId).Nodup)
    (fresh : ∀ item ∈ journal, item.directiveId ∉ records.map Directive.directiveId) :
    Run.final append ⟨recorded, journal⟩ records = ⟨recorded ++ records, retain maxDirectives (journal ++ records)⟩ := by
  induction records generalizing recorded journal with
  | nil =>
    have all : journal.length - maxDirectives = 0 := by omega
    rw [List.append_nil, List.append_nil, retain, all]
    rfl
  | cons record rest ih =>
    rw [List.map_cons, List.nodup_cons] at distinct
    have none : latestOf journal record.directiveId = none :=
      latest_eq_none.mpr fun item member same => fresh item member (by simp [same])
    have accepted : appendDirective journal record = .ok (push maxDirectives journal record) :=
      appendDirective_eq_ok.mpr ⟨valid record (by simp), fun item member => valid item (List.mem_append_left _ member),
        bound, fun last found => by simp [none] at found, rfl⟩
    have left : ∀ item ∈ push maxDirectives journal record, item ∈ journal ∨ item = record := fun item member => by
      simpa using (push_sublist maxDirectives journal record).subset member
    rw [Run.final_cons, append_accepted accepted, ih]
    · rw [push, retain_append, List.append_assoc, List.append_assoc]
      rfl
    · intro item member
      obtain kept | later := List.mem_append.mp member
      · obtain old | rfl := left item kept
        · exact valid item (List.mem_append_left _ old)
        · exact valid item (by simp)
      · exact valid item (by simp [later])
    · exact push_length
    · exact distinct.2
    · intro item kept
      obtain old | rfl := left item kept
      · exact fun later => fresh item old (List.mem_cons_of_mem _ later)
      · exact distinct.1

/-- A directive is created and activated, and sixty-four others are created. -/
def droppingRecords : List Directive :=
  sampleDirective 1 :: activatedDirective 1 :: (List.range 64).map (fun n => sampleDirective (n + 2))

theorem dropping_run : Run.final append empty droppingRecords = ⟨droppingRecords, droppingRecords.drop 2⟩ := by
  have begun : Run.final append empty [sampleDirective 1, activatedDirective 1] =
      ⟨[sampleDirective 1, activatedDirective 1], [sampleDirective 1, activatedDirective 1]⟩ := by decide +kernel
  have split : droppingRecords =
      [sampleDirective 1, activatedDirective 1] ++ (List.range 64).map (fun n => sampleDirective (n + 2)) := rfl
  have named : ∀ n ∈ List.range 64, isDirectiveId ("UD-" ++ Text.padded 4 (n + 2)) = true := by decide +kernel
  have valid : ∀ item ∈ [sampleDirective 1, activatedDirective 1] ++
      (List.range 64).map (fun n => sampleDirective (n + 2)), validateDirective item = .ok () := by
    intro item member
    obtain first | later := List.mem_append.mp member
    · revert first item
      decide +kernel
    · obtain ⟨n, listed, rfl⟩ := List.mem_map.mp later
      exact sampleDirective_valid (named n listed)
  rw [split, Run.final_append, begun, fresh_run valid (by decide) (by decide +kernel) (by decide +kernel)]
  rfl

/-- All of them are accepted, and the active directive is gone. -/
theorem active_directive_dropped :
    (Run.final append empty droppingRecords).recorded = droppingRecords ∧
    latestOf (Run.final append empty droppingRecords).recorded "UD-0001" = some (activatedDirective 1) ∧
    (activatedDirective 1).lifecycle = .active ∧
    latestOf (Run.final append empty droppingRecords).journal "UD-0001" = none := by
  rw [dropping_run]
  decide +kernel

end Recording

end Coordinator.DirectiveRecords
