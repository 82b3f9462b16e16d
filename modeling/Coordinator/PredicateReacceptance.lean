import Coordinator.LedgerCoherence

/-! Accepting a predicate again. The writer keeps the old passing row of the predicate as history,
and the ledger's own check refuses a historical row of the current candidate; so a second acceptance
for one candidate never goes through. -/

namespace Coordinator.PredicateLedger
open Kit Dict TaskSpec TaskValidation

/-- The current rows of a predicate. -/
def currentRows (task : Meta) (predicate : String) : List Json :=
  (rowsOf task).filter (fun row => isPass row && row.get "predicate_id" == .str predicate)

/-- One current row of the predicate stands, and the one before is history. -/
structure Superseded (task after : Meta) (predicate : String) : Prop where
  current : (currentRows after predicate).length = 1
  history : ∀ row ∈ currentRows task predicate, staled row ∈ rowsOf after

/-- The request goes through and supersedes the current row of its predicate. -/
def Readmitted (files : Files) (world : Moment) (task : Meta) (tasks : List Meta) (request : Request)
    (predicate : String) : Prop :=
  ∃ after note, applyAcceptance files world task tasks request = .ok (after, note) ∧ Superseded task after predicate

/-- A request for a predicate of one candidate, as its arguments name them. -/
structure Request.Names (request : Request) (inputs : PredicateInputs) : Prop where
  predicate : request.predicate = some inputs.predicate
  candidateRef : request.candidateRef = some inputs.candidateRef
  candidateDigest : request.candidateDigest = some inputs.candidateDigest
  reopen : request.reopen = inputs.reopen

theorem applyAcceptance_eq_ok {files : Files} {world : Moment} {task : Meta} {tasks : List Meta} {request : Request}
    {inputs : PredicateInputs} {result : Meta × String} (names : request.Names inputs)
    (accepted : applyAcceptance files world task tasks request = .ok result) :
    applyPredicateAcceptance files task request inputs = .ok result := by
  simp only [applyAcceptance, bind_eq_ok] at accepted
  obtain ⟨-, -, -, -, -, -, stale, -, accepted⟩ := accepted
  cases stale with
  | some error => cases accepted
  | none =>
    simp only [predicateAcceptanceInputs, names.predicate, names.candidateRef, names.candidateDigest, names.reopen,
      bind_eq_ok, exists_unit, raiseIf_eq_ok, pure_eq_ok] at accepted
    obtain ⟨_, ⟨-, rfl⟩, applied⟩ := accepted
    exact applied

/-- A predicate with a current row is not accepted again while the candidate stays. -/
theorem current_refuses {files : Files} {task after : Meta} {request : Request} {inputs : PredicateInputs} {ledger : Dict}
    {row : Json} (accepted : Accepted files task request inputs ledger after) (listed : row ∈ currentRows task inputs.predicate)
    (same : candidateChanged ledger inputs = false) : False := by
  obtain ⟨member, found⟩ := List.mem_filter.mp listed
  obtain ⟨passing, named⟩ := Bool.and_eq_true_iff.mp found
  have placed := List.map_inj_left.mp ((accepted.unpassed same).trans (List.map_id _).symm) row member
  rw [if_pos named] at placed
  -- the row stays as it is, though marking it stale would change it
  have stale := staled_not_pass (isObj_of_pass passing)
  rw [placed] at stale
  exact Bool.false_ne_true (stale.symm.trans passing)

/-- No acceptance of a predicate that already passes for the candidate ever supersedes its row: it is
refused, whatever the new evidence. -/
theorem reacceptance_refused (files : Files) (world : Moment) (task : Meta) (tasks : List Meta) (request : Request)
    (inputs : PredicateInputs) (names : request.Names inputs) (passes : currentRows task inputs.predicate ≠ [])
    (current : candidateOf task = (.str inputs.candidateRef, .str inputs.candidateDigest)) :
    ¬Readmitted files world task tasks request inputs.predicate := by
  rintro ⟨after, note, accepted, -⟩
  obtain ⟨ledger, applied⟩ := applyPredicateAcceptance_eq_ok (applyAcceptance_eq_ok names accepted)
  obtain ⟨row, listed⟩ := List.exists_mem_of_ne_nil _ passes
  refine current_refuses applied listed (candidateChanged_eq_false.mpr ?_)
  obtain ⟨empty, -⟩ | recorded := ledgerOf_candidate applied.read
  · rw [currentRows, empty] at listed
    cases listed
  · exact recorded.trans current

/-- The sample task whose predicate has passed for the first candidate. -/
def passedSample : Meta := step specifiedSample (samplePass "candidates/one.json" false)

/-- The same predicate and candidate, with newer evidence. -/
def secondPass : Request :=
  { task := "AR-0001", owner := "worker", expectedRevision := 5, note := "Accepted again.", evidenceClass := "mechanical",
    evidenceRef := "evidence/two.json", evidenceDigest := sampleDigest, predicate := some "predicate-1",
    candidateRef := some "candidates/one.json", candidateDigest := some sampleDigest, reopen := false }

def refusal {α : Type} : Outcome α → Option Fault
  | .ok _ => none
  | .error fault => some fault

theorem eq_error_of_refusal {α : Type} {outcome : Outcome α} {fault : Fault} (refused : refusal outcome = some fault) :
    outcome = .error fault := by
  cases outcome with
  | ok value => cases refused
  | error other => rw [Option.some.inj refused]

theorem passedSample_refuses :
    taskSpecErrors artifactFiles passedSample true = [] ∧ (currentRows passedSample "predicate-1").length = 1 ∧
      ((candidateOf passedSample).1 == .str "candidates/one.json") = true ∧ ((candidateOf passedSample).2 == .str sampleDigest) = true ∧
      refusal (applyAcceptance artifactFiles sampleWorld passedSample [passedSample] secondPass) =
        some (.error "predicate evidence is invalid: evidence ledger stale step candidate matches ledger") := by
  decide +kernel

theorem passedSample_candidate : candidateOf passedSample = (.str "candidates/one.json", .str sampleDigest) :=
  Prod.ext ((Json.beq_str _ _).mp passedSample_refuses.2.2.1) ((Json.beq_str _ _).mp passedSample_refuses.2.2.2.1)

theorem reacceptance_second : ¬Readmitted artifactFiles sampleWorld passedSample [passedSample] secondPass "predicate-1" :=
  reacceptance_refused artifactFiles sampleWorld passedSample [passedSample] secondPass
    ⟨"predicate-1", "candidates/one.json", sampleDigest, false⟩ ⟨rfl, rfl, rfl, rfl⟩
    (List.ne_nil_of_length_pos (passedSample_refuses.2.1 ▸ Nat.one_pos)) passedSample_candidate

/-- The task and its ledger are valid, its one current row is of the candidate at hand, and the request
is refused by the rule about historical rows. -/
theorem second_pass_refused :
    taskSpecErrors artifactFiles passedSample true = [] ∧ (currentRows passedSample "predicate-1").length = 1 ∧
      candidateOf passedSample = (.str "candidates/one.json", .str sampleDigest) ∧
      applyAcceptance artifactFiles sampleWorld passedSample [passedSample] secondPass =
        .error (.error "predicate evidence is invalid: evidence ledger stale step candidate matches ledger") :=
  ⟨passedSample_refuses.1, passedSample_refuses.2.1, passedSample_candidate, eq_error_of_refusal passedSample_refuses.2.2.2.2⟩

end Coordinator.PredicateLedger
