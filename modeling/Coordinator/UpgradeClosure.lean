import Coordinator.UpgradeHistory

/-! What the loader of the journal accepts, beside what the engine writes. The loader refuses three kinds
of journals that a rollback leaves: one that was rejected, one that was verified in safe mode, and one
whose result names another backend or another token. Without them every journal can be loaded again. -/

namespace Coordinator.Upgrade
open Kit

def Opened.outcome : Opened → RecordOutcome
  | started => .started
  | failed _ => .failed
  | ambiguous _ => .ambiguous

namespace Progress

variable (p : Progress)

/-- The outcomes of the phases that have a record. -/
def outcomes : List RecordOutcome := List.replicate p.done.length .success ++ (p.opened.map Opened.outcome).toList

def forwardPhase : Option Step := if p.reached = 0 then none else (phases[p.reached - 1]?).map Step.phase

theorem length_outcomes : p.outcomes.length = p.reached := by
  unfold outcomes reached
  cases p.opened <;> simp

end Progress

/-- The adapter still verifies the rollback context of the journal, and what a completed one left. -/
def Verifier.Confirms (verifier : Verifier) (value : Journal) : Prop :=
  ∀ record ∈ value.records, record.phase = .rollback →
    isVerified record.context (verifier.verifyRollbackContext record.context) = true ∧
      (record.outcome = .rollbackCompleted →
        Engine.isRevalidated (verifier.revalidateRollback record.context (record.result.getD [])) = true)

namespace Engine

variable (engine : Engine)

/-- A rollback has left a journal that the loader accepts. -/
def Closed (p : Progress) : Prop :=
  match p.reversal with
  | some (context, .verified result) => p.forwardStatus ≠ .safeMode ∧ engine.isRollbackResult context result = true
  | some (context, .completed result) => engine.isRollbackResult context result = true
  | some (_, .rejected _) => False
  | _ => True

/-! The scan of the records. -/

theorem text_length (phase : Phase) : phase.text.length ≤ 9 := by cases phase <;> decide

theorem stepId_length (phase : Phase) : (stepId engine.operationId (.phase phase)).length ≤ 128 := by
  have validated := engine.validated
  simp only [validateContext, refuseIf, raiseIf_bind_ok, orRaise_bind_ok, pure_eq_ok, Bool.or_eq_false_iff] at validated
  obtain ⟨⟨_, named⟩, found, _, bounded, rfl⟩ := validated
  have held : engine.context.asdict.get "operation_id" = .str engine.context.operationId := rfl
  have name : engine.context.operationId = engine.operationId := by simpa [bne, held] using named
  have limit : maxOperationIdLength = 118 := by decide
  have short : engine.context.operationId.length ≤ 118 := by simpa [limit] using bounded
  rw [name] at short
  have text := text_length phase
  simp only [stepId, Step.text, String.length_append]
  have point : ".".length = 1 := rfl
  omega

/-- A record of the phase that is expected, with the fields that its outcome asks for. -/
theorem scan_phase (verifier : Verifier) {outcomes : List RecordOutcome} {phase : Phase} (current : phases[outcomes.length]? = some phase)
    (record : Record) (same : record.phase = .phase phase) (owner : record.operationId = engine.operationId)
    (named : record.stepId = stepId engine.operationId (.phase phase)) (bound : record.context = engine.context)
    (known : [.started, .success, .failed, .ambiguous].contains record.outcome = true)
    (fields : record.evidence = record.outcome.evidence) :
    engine.scanRecord verifier ⟨outcomes, false⟩ record = .ok ⟨outcomes ++ [record.outcome], false⟩ := by
  have identity : (phases[outcomes.length]? != some phase || record.operationId != engine.operationId ||
      record.stepId != stepId engine.operationId (.phase phase)) = false := by
    simp [current, owner, named]
  have short : decide (128 < record.stepId.length) = false := by
    have length := engine.stepId_length phase
    rw [← named] at length
    simpa using length
  have passes : engine.checkPhaseRecord outcomes.length phase record = .ok () := by
    simp only [checkPhaseRecord, refuseIf, raiseIf_bind_ok, raiseIf_eq_ok]
    exact ⟨identity, short, by rw [known]; rfl, by rw [bound]; exact bne_self_eq_false _, by rw [fields]; exact bne_self_eq_false _⟩
  simp only [scanRecord, same]
  rw [passes]
  rfl

theorem scan_successes (verifier : Verifier) (done : List Dict) (room : done.length ≤ phases.length) :
    (engine.successes done).foldlM (engine.scanRecord verifier) ⟨[], false⟩ = .ok ⟨List.replicate done.length .success, false⟩ := by
  induction done using List.reverseRecOn with
  | nil => rfl
  | append_singleton earlier result ih =>
    simp only [List.length_append, List.length_singleton] at room
    have current : phases[earlier.length]? = some phases[earlier.length] := List.getElem?_eq_getElem (by omega)
    rw [engine.successes_snoc current, List.foldlM_append, ih (by omega), ok_bind, List.foldlM_cons]
    have expected : phases[(List.replicate earlier.length RecordOutcome.success).length]? = some phases[earlier.length] := by
      rw [List.length_replicate, current]
    rw [engine.scan_phase verifier expected _ rfl rfl rfl rfl rfl rfl]
    simp [List.replicate_add, successRecord, pure, Except.pure]
    rfl

theorem scan_opened (verifier : Verifier) {p : Progress} (valid : engine.Valid p) :
    (engine.openedRecords p.done p.opened).foldlM (engine.scanRecord verifier) ⟨List.replicate p.done.length .success, false⟩ =
      .ok ⟨p.outcomes, false⟩ := by
  cases opened : p.opened with
  | none =>
    rw [engine.openedRecords_none]
    simp [Progress.outcomes, opened, pure, Except.pure]
  | some stage =>
    have room := valid.room
    simp only [Progress.reached, opened, Option.isSome_some, if_true] at room
    have current : phases[p.done.length]? = some phases[p.done.length] := List.getElem?_eq_getElem (by omega)
    have records : engine.openedRecords p.done (some stage) = [engine.openedRecord phases[p.done.length] stage] := by
      simp [openedRecords, current]
    rw [records, List.foldlM_cons]
    have expected : phases[(List.replicate p.done.length RecordOutcome.success).length]? = some phases[p.done.length] := by
      rw [List.length_replicate, current]
    rw [engine.scan_phase verifier expected _ (by cases stage <;> rfl) (by cases stage <;> rfl)
      (by cases stage <;> rfl) (by cases stage <;> rfl) (by cases stage <;> rfl) (by cases stage <;> rfl)]
    cases stage <;> simp [Progress.outcomes, opened, openedRecord, startedRecord, Opened.outcome, pure, Except.pure] <;> rfl

theorem scan_reversal {verifier : Verifier} {p : Progress} (valid : engine.Valid p) (closed : engine.Closed p)
    (confirms : verifier.Confirms (engine.journal p)) :
    ∃ seen, (engine.reversalRecords p.reversal).foldlM (engine.scanRecord verifier) ⟨p.outcomes, false⟩ = .ok ⟨p.outcomes, seen⟩ := by
  cases reversal : p.reversal with
  | none => exact ⟨false, rfl⟩
  | some entry =>
    obtain ⟨context, stage⟩ := entry
    have supplied := valid.context context stage reversal
    have inside : engine.reversalRecord context stage ∈ (engine.journal p).records := by
      simp [journal, reversal, reversalRecords]
    have aimed : (engine.reversalRecord context stage).phase = .rollback := by cases stage <;> rfl
    have bound : (engine.reversalRecord context stage).context = context := by cases stage <;> rfl
    have verified := (confirms _ inside aimed).1
    rw [bound] at verified
    have answered : allowed (verifier.verifyRollbackContext context) = true := by
      cases answer : verifier.verifyRollbackContext context with
      | error fault => simp [answer, isVerified] at verified
      | ok durable => rfl
    have identity : ((engine.reversalRecord context stage).operationId != engine.operationId ||
        (engine.reversalRecord context stage).stepId != stepId engine.operationId .rollback) = false := by
      cases stage <;> simp [reversalRecord, rollbackRecord]
    have known : (!([.started, .rollbackVerified, .rollbackCompleted, .ambiguous]).contains (engine.reversalRecord context stage).outcome) =
        false := by
      cases stage with
      | rejected error => simp [Closed, reversal] at closed
      | _ => rfl
    have fields : ((engine.reversalRecord context stage).evidence != (engine.reversalRecord context stage).outcome.evidence) = false := by
      cases stage <;> rfl
    have passes : engine.checkRollbackRecord verifier (engine.reversalRecord context stage) = .ok () := by
      simp only [checkRollbackRecord, refuseIf, requireVerified, bound, bind_eq_ok, exists_unit, raiseIf_eq_ok]
      exact ⟨identity, known, context, supplied, ⟨by rw [answered]; rfl, by rw [verified]; rfl⟩, fields⟩
    refine ⟨true, ?_⟩
    rw [reversalRecords, List.foldlM_cons]
    simp only [scanRecord, aimed]
    rw [passes]
    rfl

theorem scan_journal {verifier : Verifier} {p : Progress} (valid : engine.Valid p) (closed : engine.Closed p)
    (confirms : verifier.Confirms (engine.journal p)) :
    ∃ seen, (engine.journal p).records.foldlM (engine.scanRecord verifier) ⟨[], false⟩ = .ok ⟨p.outcomes, seen⟩ := by
  have room : p.done.length ≤ phases.length := le_trans (Nat.le_add_right _ _) valid.room
  obtain ⟨seen, scanned⟩ := engine.scan_reversal valid closed confirms
  refine ⟨seen, ?_⟩
  simp only [journal]
  rw [List.foldlM_append, List.foldlM_append, engine.scan_successes verifier _ room, ok_bind, engine.scan_opened verifier valid, ok_bind]
  exact scanned

/-! The checks of the status. -/

/-- What a status says of the phases. -/
structure Fits (status : Status) (phase : Option Step) (outcomes : List RecordOutcome) : Prop where
  planned : status = .planned → outcomes = [] ∧ phase = none
  running : status = .running → (outcomes.getLast? = some .started ∨ outcomes.getLast? = some .success) ∧
    phase = (phases[outcomes.length - 1]?).map .phase
  stopped : status = .failed ∨ status = .safeMode → outcomes ≠ []
  completed : status = .completed → outcomes = List.replicate phases.length .success
  forward : status ≠ .rolledBack

theorem fits_forward {p : Progress} (valid : engine.Valid p) : Fits p.forwardStatus p.forwardPhase p.outcomes := by
  have complete := valid.finished
  obtain ⟨done, opened, reversal, finished⟩ := p
  cases opened with
  | some stage =>
    have last : (Progress.outcomes ⟨done, some stage, reversal, finished⟩).getLast? = some stage.outcome := by
      simp [Progress.outcomes]
    have some_ : Progress.outcomes ⟨done, some stage, reversal, finished⟩ ≠ [] := by simp [Progress.outcomes]
    have at_ : Progress.forwardPhase ⟨done, some stage, reversal, finished⟩ =
        (phases[(Progress.outcomes ⟨done, some stage, reversal, finished⟩).length - 1]?).map Step.phase := by
      simp [Progress.forwardPhase, Progress.length_outcomes, Progress.reached]
    cases stage with
    | started => refine ⟨?_, fun _ => ⟨.inl last, at_⟩, fun _ => some_, ?_, ?_⟩ <;> rintro ⟨⟩
    | failed error => refine ⟨?_, ?_, fun _ => some_, ?_, ?_⟩ <;> rintro ⟨⟩
    | ambiguous error => refine ⟨?_, ?_, fun _ => some_, ?_, ?_⟩ <;> rintro ⟨⟩
  | none =>
    cases finished with
    | true =>
      have all := (complete rfl).1
      have outcomes : Progress.outcomes ⟨done, none, reversal, true⟩ = List.replicate phases.length .success := by
        simp only [Progress.outcomes, Option.map_none, Option.toList_none, List.append_nil]
        rw [all]
      refine ⟨?_, ?_, ?_, fun _ => outcomes, ?_⟩
      · rintro ⟨⟩
      · rintro ⟨⟩
      · rintro (⟨⟨⟩⟩ | ⟨⟨⟩⟩)
      · rintro ⟨⟩
    | false =>
      cases done with
      | nil =>
        refine ⟨fun _ => ⟨rfl, rfl⟩, ?_, ?_, ?_, ?_⟩
        · rintro ⟨⟩
        · rintro (⟨⟨⟩⟩ | ⟨⟨⟩⟩)
        · rintro ⟨⟩
        · rintro ⟨⟩
      | cons first rest =>
        have last : (Progress.outcomes ⟨first :: rest, none, reversal, false⟩).getLast? = some .success := by
          simp [Progress.outcomes, List.getLast?_replicate]
        have at_ : Progress.forwardPhase ⟨first :: rest, none, reversal, false⟩ =
            (phases[(Progress.outcomes ⟨first :: rest, none, reversal, false⟩).length - 1]?).map Step.phase := by
          simp [Progress.forwardPhase, Progress.length_outcomes, Progress.reached]
        refine ⟨?_, fun _ => ⟨.inr last, at_⟩, fun stopped => (by rcases stopped with same | same <;> cases same), ?_, ?_⟩ <;> rintro ⟨⟩

/-- An upgrade whose rollback has begun has neither the first nor the last status. -/
theorem status_reverting {p : Progress} {context : PhaseContext} {reversal : Reversal} (valid : engine.Valid p)
    (reverting : p.reversal = some (context, reversal)) :
    p.forwardStatus ≠ .planned ∧ p.forwardStatus ≠ .completed ∧ p.outcomes ≠ [] := by
  have begun := valid.begun (by rw [reverting]; rfl)
  have fits := engine.fits_forward valid
  have some_ : p.outcomes ≠ [] := by
    intro empty
    have length := p.length_outcomes
    rw [empty] at length
    simp only [List.length_nil] at length
    omega
  refine ⟨fun planned => some_ (fits.planned planned).1, ?_, some_⟩
  intro completed
  have forth := (valid.finished (Progress.finished_of_forward completed)).2.2
  rw [reverting] at forth
  cases forth

theorem rollbacks_of_journal (p : Progress) :
    (engine.journal p).records.filter (fun record => record.phase == .rollback) = engine.reversalRecords p.reversal := by
  have forward : (engine.successes p.done ++ engine.openedRecords p.done p.opened).filter (fun record => record.phase == .rollback) = [] := by
    rw [List.filter_eq_nil_iff]
    intro record member
    obtain ⟨phase, same⟩ := engine.phase_of_forward member
    simp [same]
  simp only [journal]
  rw [List.filter_append, forward, List.nil_append, List.filter_eq_self]
  intro record member
  cases reversal : p.reversal with
  | none => simp [reversal, reversalRecords] at member
  | some entry =>
    obtain ⟨context, stage⟩ := entry
    simp only [reversal, reversalRecords, List.mem_singleton] at member
    subst member
    cases stage <;> rfl

theorem records_of_planned {p : Progress} (valid : engine.Valid p) (planned : p.forwardStatus = .planned) (forth : p.reversal = none) :
    (engine.journal p).records = [] := by
  have empty := ((engine.fits_forward valid).planned planned).1
  simp only [Progress.outcomes, List.append_eq_nil_iff, List.replicate_eq_nil_iff, List.length_eq_zero_iff] at empty
  have idle : p.opened = none := by simpa using empty.2
  simp [journal, empty.1, idle, forth, openedRecords_none, successes, reversalRecords]

theorem guarded {status known : Status} {bad : Bool} (holds : status = known → bad = false) : (status == known && bad) = false := by
  by_cases same : status = known
  · rw [holds same, Bool.and_false]
  · rw [beq_eq_false_iff_ne.mpr same, Bool.false_and]

theorem stopped_guarded {status : Status} {bad : Bool} (holds : status = .failed ∨ status = .safeMode → bad = false) :
    ((status == .failed || status == .safeMode) && bad) = false := by
  by_cases same : status = .failed ∨ status = .safeMode
  · rw [holds same, Bool.and_false]
  · have neither : (status == .failed || status == .safeMode) = false := by simpa using same
    rw [neither, Bool.false_and]

/-- What a status has to say of the records for the loader to accept it. -/
structure Accepted (verifier : Verifier) (value : Journal) (outcomes : List RecordOutcome) (rollbacks : List Record) : Prop where
  planned : value.status = .planned → value.records = [] ∧ value.phase = none
  running : value.status = .running → (outcomes.getLast? = some .started ∨ outcomes.getLast? = some .success) ∧
    value.phase = (phases[outcomes.length - 1]?).map .phase
  stopped : value.status = .failed ∨ value.status = .safeMode → outcomes ≠ [] ∧ ∀ record ∈ rollbacks, record.outcome ≠ .rollbackCompleted
  results : ∀ record ∈ rollbacks, record.outcome = .rollbackVerified ∨ record.outcome = .rollbackCompleted →
    engine.hasRollbackResult record = true
  completed : value.status = .completed → outcomes = List.replicate phases.length .success ∧ rollbacks = []
  safe : value.status = .safeMode → ∀ record ∈ rollbacks, record.outcome ≠ .rollbackVerified
  rolledBack : value.status = .rolledBack → value.phase = some .rollback ∧
    ∃ record, rollbacks.filter (fun record => record.outcome == .rollbackCompleted) = [record] ∧
      checkRollbackCompletion verifier record = .ok ()

theorem checkStatus_of_accepted {verifier : Verifier} {value : Journal} {outcomes : List RecordOutcome} {rollbacks : List Record}
    (found : value.records.filter (fun record => record.phase == .rollback) = rollbacks)
    (accepted : engine.Accepted verifier value outcomes rollbacks) : engine.checkStatus verifier value outcomes = .ok () := by
  simp only [checkStatus, found, refuseIf, bind_eq_ok, exists_unit, raiseIf_eq_ok]
  refine ⟨guarded fun planned => ?_, guarded fun planned => ?_, guarded fun running => ?_, guarded fun running => ?_,
    stopped_guarded fun stopped => ?_, ?_, guarded fun completed => ?_, stopped_guarded fun stopped => ?_, guarded fun safe => ?_, ?_⟩
  · rw [(accepted.planned planned).1]
    rfl
  · rw [(accepted.planned planned).2]
    rfl
  · rcases (accepted.running running).1 with last | last <;> simp [last]
  · rw [(accepted.running running).2, bne_self_eq_false]
  · simpa using (accepted.stopped stopped).1
  · simp only [List.any_eq_false, List.mem_append, List.mem_filter]
    intro record member
    have result : engine.hasRollbackResult record = true := by
      rcases member with ⟨inside, outcome⟩ | ⟨inside, outcome⟩
      · exact accepted.results record inside (.inl (by simpa using outcome))
      · exact accepted.results record inside (.inr (by simpa using outcome))
    simp [result]
  · simp [accepted.completed completed]
  · simpa using (accepted.stopped stopped).2
  · simpa using accepted.safe safe
  · by_cases back : value.status = .rolledBack
    · obtain ⟨at_, record, only, passes⟩ := accepted.rolledBack back
      rw [if_pos back, only, at_]
      simp [passes, bind_eq_ok]
    · rw [if_neg back]
      simp [back]

/-- A rollback record that leaves the status of the phases in place. -/
theorem accepted_open {verifier : Verifier} {p : Progress} {context : PhaseContext} {stage : Reversal} (valid : engine.Valid p)
    (reverting : p.reversal = some (context, stage)) (status : p.status = p.forwardStatus) (at_ : p.phase = p.forwardPhase)
    (incomplete : (engine.reversalRecord context stage).outcome ≠ .rollbackCompleted)
    (verified : (engine.reversalRecord context stage).outcome = .rollbackVerified →
      engine.hasRollbackResult (engine.reversalRecord context stage) = true ∧ p.forwardStatus ≠ .safeMode) :
    engine.Accepted verifier (engine.journal p) p.outcomes [engine.reversalRecord context stage] := by
  have fits := engine.fits_forward valid
  obtain ⟨begun, unfinished, some_⟩ := engine.status_reverting valid reverting
  have status_ : (engine.journal p).status = p.forwardStatus := status
  have phase_ : (engine.journal p).phase = p.forwardPhase := at_
  constructor
  · rw [status_]
    exact fun planned => absurd planned begun
  · rw [status_, phase_]
    exact fits.running
  · exact fun _ => ⟨some_, by simpa using incomplete⟩
  · intro record member outcome
    rw [List.mem_singleton] at member
    subst member
    exact (verified (outcome.resolve_right incomplete)).1
  · rw [status_]
    exact fun completed => absurd completed unfinished
  · rw [status_]
    intro safe record member
    rw [List.mem_singleton] at member
    subst member
    exact fun outcome => (verified outcome).2 safe
  · rw [status_]
    exact fun back => absurd back fits.forward

theorem accepted_journal {verifier : Verifier} {p : Progress} (valid : engine.Valid p) (closed : engine.Closed p)
    (confirms : verifier.Confirms (engine.journal p)) :
    engine.Accepted verifier (engine.journal p) p.outcomes (engine.reversalRecords p.reversal) := by
  have fits := engine.fits_forward valid
  cases reversal : p.reversal with
  | none =>
    have status : (engine.journal p).status = p.forwardStatus := by simp [journal, Progress.status, reversal]
    have at_ : (engine.journal p).phase = p.forwardPhase := by simp [journal, Progress.phase, reversal, Progress.forwardPhase]
    have empty : engine.reversalRecords none = [] := rfl
    rw [empty]
    constructor
    · rw [status, at_]
      exact fun planned => ⟨engine.records_of_planned valid planned reversal, (fits.planned planned).2⟩
    · rw [status, at_]
      exact fits.running
    · rw [status]
      exact fun stopped => ⟨fits.stopped stopped, by simp⟩
    · simp
    · rw [status]
      exact fun completed => ⟨fits.completed completed, rfl⟩
    · simp
    · rw [status]
      exact fun back => absurd back fits.forward
  | some entry =>
    obtain ⟨context, stage⟩ := entry
    obtain ⟨_, _, some_⟩ := engine.status_reverting valid reversal
    have only : engine.reversalRecords (some (context, stage)) = [engine.reversalRecord context stage] := rfl
    rw [only]
    simp only [Closed, reversal] at closed
    cases stage with
    | started =>
      exact engine.accepted_open valid reversal (by simp [Progress.status, reversal])
        (by simp [Progress.phase, reversal, Progress.forwardPhase]) (by rintro ⟨⟩) (by rintro ⟨⟩)
    | verified result =>
      exact engine.accepted_open valid reversal (by simp [Progress.status, reversal])
        (by simp [Progress.phase, reversal, Progress.forwardPhase]) (by rintro ⟨⟩) (fun _ => ⟨closed.2, closed.1⟩)
    | rejected error => exact closed.elim
    | ambiguous error =>
      have status : (engine.journal p).status = .safeMode := by simp [journal, Progress.status, reversal]
      constructor
      · rw [status]
        rintro ⟨⟩
      · rw [status]
        rintro ⟨⟩
      · exact fun _ => ⟨some_, by simp [reversalRecord]⟩
      · simp [reversalRecord]
      · rw [status]
        rintro ⟨⟩
      · simp [reversalRecord]
      · rw [status]
        rintro ⟨⟩
    | completed result =>
      have status : (engine.journal p).status = .rolledBack := by simp [journal, Progress.status, reversal]
      have inside : engine.reversalRecord context (.completed result) ∈ (engine.journal p).records := by
        simp [journal, reversal, reversalRecords]
      have revalidated := (confirms _ inside rfl).2 rfl
      have answered : allowed (verifier.revalidateRollback context result) = true := by
        cases answer : verifier.revalidateRollback context result with
        | error fault =>
          have same : isRevalidated (verifier.revalidateRollback context result) = true := revalidated
          simp [answer, isRevalidated] at same
        | ok evidence => rfl
      constructor
      · rw [status]
        rintro ⟨⟩
      · rw [status]
        rintro ⟨⟩
      · rw [status]
        exact fun stopped => (by rcases stopped with same | same <;> cases same)
      · intro record member _
        rw [List.mem_singleton] at member
        subst member
        exact closed
      · rw [status]
        rintro ⟨⟩
      · rw [status]
        rintro ⟨⟩
      · refine fun _ => ⟨by simp [journal, Progress.phase, reversal], _, rfl, ?_⟩
        simp only [checkRollbackCompletion, refuseIf, bind_eq_ok, exists_unit, raiseIf_eq_ok]
        refine ⟨?_, by rw [revalidated]; rfl⟩
        change (!allowed (verifier.revalidateRollback context result)) = false
        rw [answered]
        rfl

/-- The loader accepts the journal of every valid upgrade whose rollback has left it closed. -/
theorem load_journal {verifier : Verifier} {p : Progress} (valid : engine.Valid p) (closed : engine.Closed p)
    (confirms : verifier.Confirms (engine.journal p)) : engine.load verifier (engine.journal p) = .ok (engine.journal p) := by
  obtain ⟨seen, scanned⟩ := engine.scan_journal valid closed confirms
  have accepted := engine.accepted_journal valid closed confirms
  have status := engine.checkStatus_of_accepted (engine.rollbacks_of_journal p) accepted
  have identity : ((engine.journal p).schemaVersion != journalSchemaVersion || (engine.journal p).operationId != engine.operationId) =
      false := by simp [journal]
  simp only [load, refuseIf, bind_eq_ok, exists_unit, raiseIf_eq_ok, pure_eq_ok, and_true]
  exact ⟨rfl, identity, bne_self_eq_false _, _, scanned, status⟩

/-! Rollbacks that leave a closed journal. -/

theorem fencingToken_of_context {context : PhaseContext} (supplied : engine.rollbackContext context.asdict = .ok context) :
    context.fencingToken = engine.context.fencingToken := by
  simp only [rollbackContext, bind_eq_ok] at supplied
  obtain ⟨found, _, u, _, rest⟩ := supplied
  split at rest
  · cases rest
  · next unchanged =>
    cases pure_eq_ok.mp rest
    rw [List.find?_eq_none] at unchanged
    have same := unchanged "fencing_token" (by decide)
    have left : context.asdict.get "fencing_token" = .str context.fencingToken := rfl
    have right : engine.context.asdict.get "fencing_token" = .str engine.context.fencingToken := rfl
    simpa [left, right, bne] using same

/-- The answer of a backend says that it verified the runtime that it has restored. -/
def isRestored (result : Dict) : Bool := rollbackEvidence.all (fun field => isTrue (result.get field))

theorem not_restored {result : Dict} : (rollbackEvidence.any (fun field => !isTrue (result.get field))) = !isRestored result := by
  simp [isRestored, List.not_all_eq_any_not]

theorem refuseIf_not_rejected {bad : Bool} {message : String} {fault : Fault} (refused : refuseIf bad message = .error fault) :
    fault.rejected = false := by
  rw [refuseIf, raiseIf_eq_error] at refused
  rw [← refused.2]
  rfl

/-- A refusal that stops a rollback is the adapter's or the handler's, and not the engine's own. -/
theorem rollbackResult_error {call : RollbackCall} {fault : Fault} (ran : rollbackResult call = .error fault) :
    call.execute = .error fault ∨ fault.rejected = false ∨
      ∃ result, call.execute = .ok result ∧ isRestored result = true ∧ call.handler = .error fault := by
  simp only [rollbackResult, bind_eq_error, not_restored] at ran
  rcases ran with failed | ⟨result, executed, refused | ⟨_, restored, failed | ⟨handled, _, rest⟩⟩⟩
  · exact .inl failed
  · exact .inr (.inl (refuseIf_not_rejected refused))
  · exact .inr (.inr ⟨result, executed, by simpa [refuseIf] using restored, failed⟩)
  · rcases rest with refused | ⟨_, _, refused | ⟨_, _, refused | ⟨_, _, done⟩⟩⟩
    · exact .inr (.inl (refuseIf_not_rejected refused))
    · exact .inr (.inl (refuseIf_not_rejected refused))
    · exact .inr (.inl (refuseIf_not_rejected refused))
    · cases done

/-- The two answers agree with each other and hold every field of a result. -/
def isComplete (result handled : Dict) : Bool :=
  !overrides result handled && !handled.keys.any rollbackEvidence.contains && rollbackResultFields.all (result.update handled).has

theorem rollbackResult_ok {call : RollbackCall} {verified : Dict} (ran : rollbackResult call = .ok verified) :
    ∃ result handled, call.execute = .ok result ∧ call.handler = .ok handled ∧ isRestored result = true ∧
      isComplete result handled = true ∧ verified = selectFields (result.update handled) rollbackResultFields := by
  simp only [rollbackResult, bind_eq_ok, exists_unit, refuseIf, raiseIf_eq_ok, not_restored, pure_eq_ok] at ran
  obtain ⟨result, executed, restored, handled, answered, kept, given, complete, rfl⟩ := ran
  refine ⟨result, handled, executed, answered, by simpa using restored, ?_, rfl⟩
  rw [isComplete, kept, given]
  simpa using complete

/-- What a rollback must meet so that the loader accepts its journal, where the journal has none yet: no
refusal is raised once it has begun, and one that is verified does not begin in safe mode and names the
backend and the token of the operation. -/
structure Faithful (journal : Option Journal) (call : RollbackCall) : Prop where
  executes : ∀ value, journal = some value → value.records.find? (fun record => record.phase == .rollback) = none →
    ∀ fault, call.execute = .error fault → fault.rejected = false
  handles : ∀ value, journal = some value → value.records.find? (fun record => record.phase == .rollback) = none →
    ∀ result fault, call.execute = .ok result → isRestored result = true → call.handler = .error fault → fault.rejected = false
  verifies : ∀ value, journal = some value → value.records.find? (fun record => record.phase == .rollback) = none →
    ∀ result handled, call.execute = .ok result → call.handler = .ok handled → isRestored result = true →
      isComplete result handled = true → value.status ≠ .safeMode ∧
        (result.update handled).get "backend" = .str engine.context.backend ∧
        (result.update handled).get "fencing_token" = .str engine.context.fencingToken

/-- The result that a faithful rollback records is one that the loader accepts. -/
theorem isRollbackResult_of_answers {context : PhaseContext} {result handled : Dict}
    (token : context.fencingToken = engine.context.fencingToken) (restored : isRestored result = true)
    (complete : isComplete result handled = true) (backend : (result.update handled).get "backend" = .str engine.context.backend)
    (fence : (result.update handled).get "fencing_token" = .str engine.context.fencingToken) :
    engine.isRollbackResult context (selectFields (result.update handled) rollbackResultFields) = true := by
  simp only [isComplete, Bool.and_eq_true, Bool.not_eq_true', List.any_eq_false] at complete
  have kept : ∀ field ∈ rollbackEvidence, (result.update handled).get field = result.get field := by
    intro field member
    refine Dict.get_update_of_not_mem (fun given => ?_) result
    exact complete.1.2 field given (by simpa using member)
  have evidence : rollbackEvidence.all (fun field => isTrue ((selectFields (result.update handled) rollbackResultFields).get field)) = true := by
    rw [List.all_eq_true]
    intro field member
    have listed : field ∈ rollbackResultFields := List.mem_append_left _ member
    rw [get_selectFields _ listed, kept field member]
    exact List.all_eq_true.mp restored field member
  have fields : (Json.obj (selectFields (result.update handled) rollbackResultFields)).hasExactly rollbackResultFields = true := rfl
  rw [isRollbackResult, fields, evidence, get_selectFields _ (by decide), get_selectFields _ (by decide), backend, fence, token]
  simp

theorem endorses_of_faithful {p : Progress} {history : List Effect} (holds : engine.Holds engine.Closed p history) {call : RollbackCall}
    (faithful : engine.Faithful (disk history) call) : engine.Endorses engine.Closed call p where
  begins _ _ := trivial
  stops forth context fault failed := by
    have fresh : (engine.journal p).records.find? (fun record => record.phase == .rollback) = none := find_rollback_none.mpr forth
    have accepted : fault.rejected = false := by
      rcases rollbackResult_error failed with raised | own | ⟨result, executed, restored, raised⟩
      · exact faithful.executes _ holds.stored fresh fault raised
      · exact own
      · exact faithful.handles _ holds.stored fresh result fault executed restored raised
    simp [Closed, stoppedBy, accepted]
  verifies forth context verified supplied ran := by
    have fresh : (engine.journal p).records.find? (fun record => record.phase == .rollback) = none := find_rollback_none.mpr forth
    obtain ⟨result, handled, executed, answered, restored, complete, rfl⟩ := rollbackResult_ok ran
    obtain ⟨safe, backend, fence⟩ := faithful.verifies _ holds.stored fresh result handled executed answered restored complete
    have status : (engine.journal p).status = p.forwardStatus := by simp [journal, Progress.status, forth]
    rw [status] at safe
    exact ⟨safe, engine.isRollbackResult_of_answers (engine.fencingToken_of_context supplied) restored complete backend fence⟩
  releases context result closed := closed.2

theorem closed_forward (p : Progress) (forth : p.reversal = none) : engine.Closed p := by
  simp [Closed, forth]

/-- Every write of a run is the journal of a valid upgrade that the rollbacks have left closed. -/
theorem written_of_lawful {Good : Progress → Prop} (forward : ∀ p : Progress, p.reversal = none → Good p) {effects : List Effect} :
    ∀ history : List Effect, Run.Along snoc (engine.Lawful Good) history effects → ∀ value, .write value ∈ effects →
      ∃ p, engine.Valid p ∧ Good p ∧ value = engine.journal p := by
  induction effects with
  | nil =>
    intro _ _ value member
    cases member
  | cons effect rest ih =>
    intro history along value member
    rcases List.mem_cons.mp member with rfl | later
    · rcases along.1 with ⟨rfl, rfl⟩ | ⟨p, after, holds, moves, good, rfl⟩
      · exact ⟨_, Valid.start, forward _ rfl, engine.journal_planned.symm⟩
      · exact ⟨after, holds.valid.move moves, good, rfl⟩
    · exact ih _ along.2 value later

/-- Only a rollback record tells of a verified rollback. -/
theorem reversal_of_verified {p : Progress} {record : Record} (member : record ∈ (engine.journal p).records)
    (outcome : record.outcome = .rollbackVerified) :
    ∃ context result, p.reversal = some (context, .verified result) ∧ record = engine.reversalRecord context (.verified result) := by
  rcases List.mem_append.mp member with forward | last
  · exfalso
    rcases List.mem_append.mp forward with earlier | opened
    · obtain ⟨index, _, same⟩ := List.mem_iff_getElem.mp earlier
      simp only [successes, List.getElem_zipWith] at same
      subst same
      cases outcome
    · unfold openedRecords at opened
      split at opened
      · next stage _ _ =>
        rw [List.mem_singleton] at opened
        subst opened
        cases stage <;> cases outcome
      · cases opened
  · cases reversal : p.reversal with
    | none => simp [reversal, reversalRecords] at last
    | some entry =>
      obtain ⟨context, stage⟩ := entry
      simp only [reversal, reversalRecords, List.mem_singleton] at last
      subst last
      cases stage with
      | verified result => exact ⟨context, result, rfl, rfl⟩
      | _ => cases outcome

/-- A rollback whose journal tells that it was verified goes on with the release. -/
theorem rollback_resumes {p : Progress} {context current : PhaseContext} {result : Dict} (valid : engine.Valid p)
    (closed : engine.Closed p) (verified : p.reversal = some (context, .verified result)) {call : RollbackCall}
    (supplied : engine.verifyRollback call = .ok current) (confirms : call.verifier.Confirms (engine.journal p)) :
    engine.rollback call (some (engine.journal p)) =
      finishVerifiedRollback call current (engine.journal p) (engine.reversalRecord context (.verified result)) := by
  have loaded : engine.readJournal call.verifier (some (engine.journal p)) = .ok (engine.journal p) :=
    engine.load_journal valid closed confirms
  obtain ⟨begun, unfinished, _⟩ := engine.status_reverting valid verified
  have forward := (engine.fits_forward valid).forward
  have status : (engine.journal p).status = p.forwardStatus := by simp [journal, Progress.status, verified]
  have admitted : (!((engine.journal p).status == .failed || (engine.journal p).status == .running ||
      (engine.journal p).status == .safeMode)) = false := by
    rw [status]
    cases known : p.forwardStatus with
    | planned => exact absurd known begun
    | completed => exact absurd known unfinished
    | rolledBack => exact absurd known forward
    | _ => rfl
  unfold rollback rollbackLocked
  rw [supplied, Trace.lift_ok_bind, loaded, Trace.lift_ok_bind, guardThat, refuseIf, admitted]
  simp only [find_rollback verified]
  rfl

end Engine

/-- In a run whose rollbacks are all faithful, the loader accepts every journal that was written, as long
as the adapter confirms it; and a rollback that was verified and not yet released is taken up again. -/
theorem journals_closed (engine : Engine) (events : List Event)
    (faithful : Run.Along engine.act (fun history event => ∀ call, event.call = .rollback call → engine.Faithful (disk history) call)
      [] events) :
    (∀ value, .write value ∈ engine.history events → ∀ verifier : Verifier, verifier.Confirms value →
      engine.load verifier value = .ok value) ∧
    ∀ value, disk (engine.history events) = some value → ∀ record ∈ value.records, record.outcome = .rollbackVerified →
      ∀ call context, engine.verifyRollback call = .ok context → call.verifier.Confirms value →
        engine.rollback call (some value) = Engine.finishVerifiedRollback call context value record := by
  have endorsed : Run.Along engine.act (engine.Endorsed engine.Closed) [] events :=
    Run.along_mono engine.act (fun _ _ allowed call called p holds => engine.endorses_of_faithful holds (allowed call called)) faithful
  obtain ⟨lawful, held⟩ := Engine.lawful_history engine.closed_forward events endorsed
  constructor
  · intro value written verifier confirms
    obtain ⟨p, valid, closed, rfl⟩ := engine.written_of_lawful engine.closed_forward [] lawful value written
    exact engine.load_journal valid closed confirms
  · intro value stored record member outcome call context supplied confirms
    rcases held with empty | ⟨p, holds⟩
    · simp [empty, disk] at stored
    · cases stored.symm.trans holds.stored
      obtain ⟨known, result, verified, rfl⟩ := engine.reversal_of_verified member outcome
      exact engine.rollback_resumes holds.valid holds.good verified supplied confirms

def sampleContext : PhaseContext :=
  ⟨2, "sqlite", "11111111-1111-4111-8111-111111111111", "op-1", 1, "authority-1", "fence-1", "worker-1", "barrier-1", "/artifacts",
    "/authority.sqlite", "/artifacts/backup.sqlite", "/artifacts/manifest.json", ".runtime/runtime-selector.json",
    "74549bd21b1e0a89e4f623ebb72936cf06e303974bacd45fd7a68d6ceec66356", "new",
    "0e8c772b311069cbfb28815514b4db0f030134da3a456268f723ad01cf7ca9e6"⟩

def sampleChild : PhaseContext :=
  { sampleContext with
    barrierIdentityDigest := "4efb171a8ac021faa46b9ebcb72fccbff00f7b7dab79ffbf2181e55632f9786e"
    target := "rollback"
    envelopeDigest := "e6415ed9cd0443970bc91e971327c90da13acc7c67b96636f9c4852b34841588" }

theorem sampleContext_envelope : sampleContext.isEnvelope = true := by decide +kernel

def sampleEngine : Engine := ⟨"op-1", sampleContext, validateContext_of_envelope sampleContext_envelope (by decide)⟩

/-- An adapter that verifies the context it is asked for, and finds what was restored. -/
def sampleVerifier : Verifier :=
  ⟨fun context => .ok (some context.asdict), fun _ _ => .ok (some (rollbackEvidence.map fun field => (field, .bool true)))⟩

/-- A call whose first phase raises an exception when it is executed. -/
def stoppedApply (fault : Fault) : ApplyCall :=
  ⟨true, sampleVerifier, none, fun _ => ⟨.ok sampleContext.asdict, .error fault, .ok (), some (.ok [])⟩⟩

def sampleRollback : RollbackCall where
  phaseAdapter := false
  adapter := true
  requiresBoundRollback := false
  boundVerifier := none
  snapshot := .ok (sampleChild.asdict.set "rollback_context_verified" (.bool true))
  verify context := .ok (some context.asdict)
  verifier := sampleVerifier
  execute := .ok [("restored_verified", .bool true), ("runtime_validated", .bool true), ("backend_roundtrip_valid", .bool true),
    ("backend", .str "sqlite"), ("fencing_token", .str "fence-1")]
  handler := .ok []
  release := none

/-- The first phase is stopped, and the rollback crashes once it has been verified. -/
def stoppedRun (fault : Fault) : List Event := [⟨.plan, 1⟩, ⟨.apply (stoppedApply fault), 3⟩, ⟨.rollback sampleRollback, 3⟩]

/-- The journal that a run has left, with its status and the step and the outcome of its last record. -/
def leaves (events : List Event) (status : Status) (step : Step) (outcome : RecordOutcome) : Bool :=
  match disk (sampleEngine.history events) with
  | some value => value.status == status && value.records.getLast?.map (fun record => (record.phase, record.outcome)) == some (step, outcome)
  | none => false

theorem stoppedRuns_leave :
    leaves (stoppedRun (.other "OSError")) .failed .rollback .rollbackVerified = true ∧
      leaves [⟨.plan, 1⟩, ⟨.apply (stoppedApply (.other "OSError")), 3⟩] .failed (.phase .discover) .failed = true ∧
      leaves (stoppedRun .mutationAmbiguous) .safeMode .rollback .rollbackVerified = true := by
  decide +kernel

theorem exists_of_leaves {events : List Event} {status : Status} {step : Step} {outcome : RecordOutcome}
    (left : leaves events status step outcome = true) : ∃ value, disk (sampleEngine.history events) = some value ∧
      value.status = status ∧ ∃ record ∈ value.records, record.phase = step ∧ record.outcome = outcome := by
  unfold leaves at left
  split at left
  · next value stored =>
    simp only [Bool.and_eq_true, beq_iff_eq, Option.map_eq_some_iff, Prod.mk.injEq] at left
    obtain ⟨same, record, last, at_, ends⟩ := left
    exact ⟨value, stored, same, record, List.mem_of_getLast? last, at_, ends⟩
  · cases left

theorem write_of_disk {history : List Effect} {value : Journal} (stored : disk history = some value) : .write value ∈ history := by
  induction history using List.reverseRecOn with
  | nil => cases stored
  | append_singleton earlier effect ih =>
    cases effect with
    | write other =>
      rw [disk_write] at stored
      cases stored
      simp
    | execute step =>
      rw [disk_execute] at stored
      simp [ih stored]

theorem agrees_asdict (context : PhaseContext) : agrees envelopeFields context.asdict context = true := by
  have text (word : String) : (Json.str word == Json.str word) = true := by simp
  have number (value : Int) : (Json.int value == Json.int value) = true := by simp
  simp only [agrees, envelopeFields, List.all_cons, List.all_nil, Bool.and_true, Bool.and_eq_true]
  exact ⟨number _, text _, text _, text _, number _, text _, text _, text _, text _, text _, text _, text _, text _, text _, text _,
    text _, text _⟩

/-- A rollback that was verified after a failed phase, and crashed before its release, is loaded again. -/
theorem journal_closed_failed : ∃ value, disk (sampleEngine.history (stoppedRun (.other "OSError"))) = some value ∧
    value.status = .failed ∧ ∀ verifier : Verifier, verifier.Confirms value → sampleEngine.load verifier value = .ok value := by
  obtain ⟨value, stored, status, _⟩ := exists_of_leaves stoppedRuns_leave.1
  refine ⟨value, stored, status, ?_⟩
  refine (journals_closed sampleEngine (stoppedRun (.other "OSError")) ⟨?_, ?_, ?_, trivial⟩).1 value (write_of_disk stored)
  · intro call called
    cases called
  · intro call called
    cases called
  · intro call called
    cases called
    obtain ⟨before, left, failed, _⟩ := exists_of_leaves stoppedRuns_leave.2.1
    refine ⟨?_, ?_, ?_⟩
    · intro _ _ _ fault raised
      cases raised
    · intro _ _ _ result fault _ _ raised
      cases raised
    · intro known same _ result handled executed answered _ _
      cases left.symm.trans same
      cases executed
      cases answered
      rw [failed]
      exact ⟨nofun, rfl, rfl⟩

theorem sampleVerifier_confirms (value : Journal) : sampleVerifier.Confirms value :=
  fun record _ _ => ⟨agrees_asdict record.context, fun _ => rfl⟩

/-- In safe mode the loader refuses a rollback that was verified. -/
theorem load_safe_verified (engine : Engine) {value : Journal} (safe : value.status = .safeMode) {record : Record}
    (member : record ∈ value.records) (aimed : record.phase = .rollback) (verified : record.outcome = .rollbackVerified)
    (verifier : Verifier) : engine.load verifier value ≠ .ok value := by
  intro loaded
  simp only [Engine.load, bind_eq_ok, Engine.checkStatus, refuseIf, raiseIf_eq_ok] at loaded
  obtain ⟨_, _, _, _, _, _, scan, _, _, ⟨_, _, _, _, _, _, _, _, _, _, _, _, _, _, _, _, _, refused, _⟩, _⟩ := loaded
  simp only [safe, beq_self_eq_true, Bool.true_and, Bool.not_eq_false', List.isEmpty_iff, List.filter_eq_nil_iff] at refused
  have found : record ∈ value.records.filter (fun record => record.phase == .rollback) :=
    List.mem_filter.mpr ⟨member, by rw [aimed]; rfl⟩
  exact refused record found (by rw [verified]; rfl)

/-- After an ambiguous phase the operation is in safe mode, and the loader never accepts the journal of a
rollback that was verified there: its release cannot be taken up again. -/
theorem journal_unreadable : ∃ value, disk (sampleEngine.history (stoppedRun .mutationAmbiguous)) = some value ∧
    .write value ∈ sampleEngine.history (stoppedRun .mutationAmbiguous) ∧ value.status = .safeMode ∧
    sampleVerifier.Confirms value ∧ ∀ verifier : Verifier, sampleEngine.load verifier value ≠ .ok value := by
  obtain ⟨value, stored, safe, record, member, aimed, verified⟩ := exists_of_leaves stoppedRuns_leave.2.2
  exact ⟨value, stored, write_of_disk stored, safe, sampleVerifier_confirms value, load_safe_verified sampleEngine safe member aimed verified⟩

end Coordinator.Upgrade
