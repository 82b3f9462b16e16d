import Coordinator.Kit.Guard
import Coordinator.Kit.Run
import Coordinator.Kit.Table
import Coordinator.Kit.Text

/-! The journal of formal jobs. A job is bound to a candidate and a tier. Workers start, claim, recover
and finish it by calls that are one transaction each, and run the job itself between two of them. -/

namespace Coordinator.FormalJobs
open Kit

inductive Fault
  | formalJobError (message : String)
  | integrityError (constraint : String)
  deriving DecidableEq

abbrev Outcome (α : Type) := Except Fault α

inductive ResourceClass
  | ordinary
  | fullExhaustive
  | storageExhausted
  | timeout
  | admissionFailed
  deriving DecidableEq

inductive State
  | started
  | running
  | completed
  | failed
  | cancelled
  | superseded
  deriving DecidableEq

def State.runnable : State → Bool
  | .started | .running => true
  | .completed | .failed | .cancelled | .superseded => false

def State.terminal (state : State) : Bool := !state.runnable

structure Receipt (Time : Type) where
  candidate : String
  detail : String
  ended : Time
  exitCode : Option Int
  jobId : String
  resourceClass : ResourceClass
  state : State
  tierDigest : String
  deriving DecidableEq

/-- A row of the formal jobs. -/
structure Job (Time : Type) where
  jobId : String
  scope : String
  candidate : String
  tierDigest : String
  resourceClass : ResourceClass
  state : State
  revision : Int
  executionToken : Option String
  created : Time
  updated : Time
  receipt : Option (Receipt Time)
  deriving DecidableEq

/-- A scope with the candidate and the contract that are checked in it. -/
structure Identity where
  scope : String
  candidate : String
  tierDigest : String
  resourceClass : ResourceClass
  deriving DecidableEq

variable {Time : Type}

def Job.identity (job : Job Time) : Identity := ⟨job.scope, job.candidate, job.tierDigest, job.resourceClass⟩

abbrev Jobs (Time : Type) := List (Job Time)

def formalJobError (bad : Bool) (message : String) : Outcome Unit := raiseIf bad (.formalJobError message)

def checkDigest (value : String) : Outcome Unit :=
  formalJobError (!Text.hexText 64 value) "tier digest must be a lowercase SHA-256 digest"

def checkCandidate (value : String) : Outcome Unit :=
  formalJobError (!(Text.hexText 40 value || Text.hexText 64 value)) "candidate must be a lowercase Git object id"

def resourceClass (value : String) : Outcome ResourceClass :=
  match value with
  | "ordinary" => .ok .ordinary
  | "full-exhaustive" => .ok .fullExhaustive
  | "storage-exhausted" => .ok .storageExhausted
  | "timeout" => .ok .timeout
  | "admission-failed" => .ok .admissionFailed
  | _ => .error (.formalJobError "unknown formal-job resource classification")

def terminalReceipt (job : Job Time) (state : State) (ended : Time) (exitCode : Option Int) (detail : String) : Receipt Time :=
  { candidate := job.candidate, detail, ended, exitCode, jobId := job.jobId, resourceClass := job.resourceClass, state,
    tierDigest := job.tierDigest }

/-- A row that gives way to a new candidate. -/
def Job.superseded (job : Job Time) (now : Time) : Job Time :=
  { job with
    state := .superseded, revision := job.revision + 1, updated := now, executionToken := none
    receipt := some (terminalReceipt job .superseded now none "candidate-replaced") }

/-- The row of a job that a worker has claimed. -/
def Job.begun (job : Job Time) (token : String) (now : Time) : Job Time :=
  { job with state := .running, revision := job.revision + 1, executionToken := some token, updated := now }

def Job.recovered (job : Job Time) (now : Time) : Job Time :=
  { job with state := .started, revision := job.revision + 1, executionToken := none, updated := now }

def Job.finished (job : Job Time) (receipt : Receipt Time) (now : Time) : Job Time :=
  { job with
    state := receipt.state, revision := job.revision + 1, executionToken := none, updated := now, receipt := some receipt }

namespace Jobs

variable (jobs : Jobs Time)

def one (jobId : String) : Outcome (Job Time) :=
  orRaise (Table.select Job.jobId jobs jobId) (.formalJobError "unknown formal job")

/-- Rewrite the row of a job. -/
def update (jobId : String) (change : Job Time → Job Time) : Jobs Time :=
  Table.update Job.jobId jobs jobId (fun _ => true) change

/-- The active rows of a scope give way to a new candidate. -/
def supersede (scope : String) (now : Time) : Jobs Time :=
  jobs.map (fun job =>
    if job.scope = scope ∧ job.state.runnable = true then job.superseded now else job)

/-- Create the job of a candidate, or return the one that it has. -/
def start (scope candidate tierDigest resourceText jobId : String) (now : Time) : Outcome (Jobs Time × Job Time) := do
  formalJobError (scope = "") "formal-job scope is required"
  checkCandidate candidate
  checkDigest tierDigest
  let resourceClass ← resourceClass resourceText
  match jobs.find? (fun job => job.identity = ⟨scope, candidate, tierDigest, resourceClass⟩) with
  | some existing => return (jobs, existing)
  | none => do
      let superseded := supersede jobs scope now
      raiseIf (Table.select Job.jobId superseded jobId).isSome (.integrityError "UNIQUE constraint failed: formal_jobs.job_id")
      let job : Job Time := ⟨jobId, scope, candidate, tierDigest, resourceClass, .started, 1, none, now, now, none⟩
      return (superseded ++ [job], job)

/-- Claim a job under an execution token. -/
def begin (jobId : String) (expectedRevision : Int) (token : String) (now : Time) : Outcome (Jobs Time × Job Time) := do
  let row ← one jobs jobId
  formalJobError (row.state ≠ .started || row.revision ≠ expectedRevision)
    "formal job is not startable at the expected revision"
  let begun := update jobs jobId (fun job => job.begun token now)
  let updated ← one begun jobId
  return (begun, updated)

/-- Fence a dead worker and make its job runnable again. -/
def recover (jobId : String) (expectedRevision : Int) (now : Time) : Outcome (Jobs Time × Job Time) := do
  let row ← one jobs jobId
  formalJobError (row.state ≠ .running || row.revision ≠ expectedRevision)
    "formal job is not recoverable at the expected revision"
  let recovered := update jobs jobId (fun job => job.recovered now)
  let updated ← one recovered jobId
  return (recovered, updated)

/-- Close a job for the worker that has the token. -/
def finish (jobId : String) (expectedRevision : Int) (executionToken : String) (state : State) (exitCode : Option Int)
    (detail : String) (now : Time) : Outcome (Jobs Time × Job Time) := do
  formalJobError (state.runnable || state = .superseded) "invalid terminal formal-job state"
  let row ← one jobs jobId
  formalJobError (row.state ≠ .running || row.revision ≠ expectedRevision || row.executionToken ≠ some executionToken)
    "stale or fenced formal-job completion"
  let finished := update jobs jobId (fun job => job.finished (terminalReceipt row state now exitCode detail) now)
  let updated ← one finished jobId
  return (finished, updated)

/-- The receipt of a completed job, for the candidate and the tier that it was made for. -/
def receipt (jobId candidate tierDigest : String) : Outcome (Receipt Time) := do
  checkCandidate candidate
  checkDigest tierDigest
  let row ← one jobs jobId
  let refused : Fault := .formalJobError "receipt is incomplete, stale, failed, or for another candidate"
  let receipt ← orRaise row.receipt refused
  raiseIf (row.state ≠ .completed || receipt.candidate ≠ candidate || receipt.tierDigest ≠ tierDigest ||
    receipt.exitCode ≠ some 0) refused
  return receipt

end Jobs

inductive Event (Time : Type)
  | start (scope candidate tierDigest resourceClass jobId : String) (now : Time)
  | begin (jobId : String) (expectedRevision : Int) (token : String) (now : Time)
  | recover (jobId : String) (expectedRevision : Int) (now : Time)
  | finish (jobId : String) (expectedRevision : Int) (executionToken : String) (state : State) (exitCode : Option Int)
      (detail : String) (now : Time)

/-- A call of any worker. -/
def attempt (jobs : Jobs Time) : Event Time → Outcome (Jobs Time × Job Time)
  | .start scope candidate tierDigest resourceClass jobId now => jobs.start scope candidate tierDigest resourceClass jobId now
  | .begin jobId expectedRevision token now => jobs.begin jobId expectedRevision token now
  | .recover jobId expectedRevision now => jobs.recover jobId expectedRevision now
  | .finish jobId expectedRevision executionToken state exitCode detail now =>
      jobs.finish jobId expectedRevision executionToken state exitCode detail now

/-- A refused call is rolled back. -/
def step (jobs : Jobs Time) (event : Event Time) : Jobs Time :=
  match attempt jobs event with
  | .ok (after, _) => after
  | .error _ => jobs

theorem formalJobError_eq_ok {bad : Bool} {message : String} {u : Unit} : formalJobError bad message = .ok u ↔ bad = false :=
  raiseIf_eq_ok

section calls

variable {jobs after : Jobs Time} {job row : Job Time} {jobId token : String} {expectedRevision : Int} {now : Time}

theorem one_eq_ok : jobs.one jobId = .ok row ↔ Table.select Job.jobId jobs jobId = some row := orRaise_eq_ok

/-- A rewritten row is read back rewritten. -/
theorem one_update {change : Job Time → Job Time} (same : ∀ job, (change job).jobId = job.jobId)
    (found : Table.select Job.jobId jobs jobId = some row) : (jobs.update jobId change).one jobId = .ok (change row) := by
  obtain ⟨-, named⟩ := Table.select_eq_some found
  rw [one_eq_ok, Jobs.update, Table.select_update same, found]
  simp [named]

/-- A transaction on one row reads it, judges it, and writes and reads back what becomes of it. -/
theorem transaction_eq_ok (bad : Job Time → Bool) (message : String) (change : Job Time → Job Time → Job Time)
    (same : ∀ row job, (change row job).jobId = job.jobId) :
    (do let row ← jobs.one jobId
        formalJobError (bad row) message
        let updated ← (jobs.update jobId (change row)).one jobId
        return (jobs.update jobId (change row), updated) : Outcome (Jobs Time × Job Time)) = .ok (after, job) ↔
      ∃ row, Table.select Job.jobId jobs jobId = some row ∧ bad row = false ∧
        after = jobs.update jobId (change row) ∧ job = change row row := by
  simp only [bind_eq_ok, formalJobError_eq_ok, exists_unit, one_eq_ok, pure_eq_ok, Prod.mk.injEq]
  constructor
  · rintro ⟨row, found, good, updated, back, rfl, rfl⟩
    have read := one_update (same row) found
    rw [one_eq_ok] at read
    exact ⟨row, found, good, rfl, (Option.some.inj (read.symm.trans back)).symm⟩
  · rintro ⟨row, found, good, rfl, rfl⟩
    exact ⟨row, found, good, _, one_eq_ok.mp (one_update (same row) found), rfl, rfl⟩

theorem begin_eq_ok : jobs.begin jobId expectedRevision token now = .ok (after, job) ↔
    ∃ row, Table.select Job.jobId jobs jobId = some row ∧ (row.state = .started ∧ row.revision = expectedRevision) ∧
      after = jobs.update jobId (fun job => job.begun token now) ∧ job = row.begun token now := by
  refine (transaction_eq_ok (fun row => row.state ≠ .started || row.revision ≠ expectedRevision)
    "formal job is not startable at the expected revision" (fun _ job => job.begun token now) fun _ _ => rfl).trans ?_
  simp

theorem recover_eq_ok : jobs.recover jobId expectedRevision now = .ok (after, job) ↔
    ∃ row, Table.select Job.jobId jobs jobId = some row ∧ (row.state = .running ∧ row.revision = expectedRevision) ∧
      after = jobs.update jobId (fun job => job.recovered now) ∧ job = row.recovered now := by
  refine (transaction_eq_ok (fun row => row.state ≠ .running || row.revision ≠ expectedRevision)
    "formal job is not recoverable at the expected revision" (fun _ job => job.recovered now) fun _ _ => rfl).trans ?_
  simp

theorem finish_eq_ok {state : State} {exitCode : Option Int} {detail : String} :
    jobs.finish jobId expectedRevision token state exitCode detail now = .ok (after, job) ↔
      (state.runnable = false ∧ state ≠ .superseded) ∧
      ∃ row, Table.select Job.jobId jobs jobId = some row ∧
        ((row.state = .running ∧ row.revision = expectedRevision) ∧ row.executionToken = some token) ∧
        after = jobs.update jobId (fun job => job.finished (terminalReceipt row state now exitCode detail) now) ∧
        job = row.finished (terminalReceipt row state now exitCode detail) now := by
  unfold Jobs.finish
  rw [formalJobError, raiseIf_bind_ok]
  have closing := @transaction_eq_ok _ jobs after job jobId
    (fun row => row.state ≠ .running || row.revision ≠ expectedRevision || row.executionToken ≠ some token)
    "stale or fenced formal-job completion"
    (fun row job => job.finished (terminalReceipt row state now exitCode detail) now) fun _ _ => rfl
  refine (and_congr_right fun _ => closing).trans ?_
  simp

theorem receipt_eq_ok {candidate tierDigest : String} {receipt : Receipt Time}
    (accepted : jobs.receipt jobId candidate tierDigest = .ok receipt) :
    ∃ row, Table.select Job.jobId jobs jobId = some row ∧ row.state = .completed ∧ row.receipt = some receipt ∧
      receipt.exitCode = some 0 ∧ receipt.candidate = candidate ∧ receipt.tierDigest = tierDigest := by
  simp only [Jobs.receipt, bind_eq_ok, exists_unit, one_eq_ok, orRaise_eq_ok, raiseIf_eq_ok, pure_eq_ok,
    Bool.or_eq_false_iff, decide_eq_false_iff_not, not_not] at accepted
  obtain ⟨-, -, row, found, made, there, ⟨⟨⟨state, named⟩, tier⟩, exit⟩, rfl⟩ := accepted
  exact ⟨row, found, state, there, exit, named, tier⟩

/-- A start finds the job of its identity, or supersedes the active ones of its scope. -/
theorem start_cases {scope candidate tierDigest resourceText : String}
    (accepted : jobs.start scope candidate tierDigest resourceText jobId now = .ok (after, job)) :
    after = jobs ∨
      (∀ other ∈ jobs, other.jobId ≠ jobId) ∧
        after = jobs.supersede scope now ++ [job] ∧ job.jobId = jobId ∧ job.scope = scope ∧ job.state = .started ∧
        job.receipt = none ∧ job.executionToken = none := by
  simp only [Jobs.start, bind_eq_ok, formalJobError_eq_ok, exists_unit] at accepted
  obtain ⟨-, -, -, resource, -, created⟩ := accepted
  split at created
  · rw [pure_eq_ok, Prod.mk.injEq] at created
    exact Or.inl created.1.symm
  · simp only [raiseIf_bind_ok, pure_eq_ok, Prod.mk.injEq, Option.isSome_eq_false_iff, Option.isNone_iff_eq_none] at created
    obtain ⟨fresh, rfl, rfl⟩ := created
    refine Or.inr ⟨fun other member same => ?_, rfl, rfl, rfl, rfl, rfl, rfl⟩
    have kept : (if other.scope = scope ∧ other.state.runnable = true then other.superseded now else other).jobId = jobId := by
      split <;> exact same
    exact Table.select_eq_none.mp fresh _ (List.mem_map.mpr ⟨other, member, rfl⟩) kept

end calls

/-- What one call may do to a row: nothing, or a change of an active row at its next revision. -/
def Moves (job next : Job Time) : Prop :=
  next = job ∨ job.state.runnable = true ∧ next.revision = job.revision + 1 ∧ next.identity = job.identity

theorem Moves.refl (job : Job Time) : Moves job job := Or.inl rfl

abbrev Develops (jobs after : Jobs Time) : Prop := Table.Develops Job.jobId (fun _ => True) Moves jobs after

section steps

variable {jobs after : Jobs Time} {event : Event Time} {job : Job Time}

theorem update_develops {jobId : String} {row : Job Time} {change : Job Time → Job Time} (distinct : (jobs.map Job.jobId).Nodup)
    (found : Table.select Job.jobId jobs jobId = some row) (same : ∀ job, (change job).jobId = job.jobId)
    (moves : Moves row (change row)) : Develops jobs (jobs.update jobId change) := by
  refine .update Moves.refl same fun job member named _ => ?_
  have read := Table.select_of_mem distinct member
  rw [named, found] at read
  exact Option.some.inj read ▸ moves

theorem supersede_develops (scope : String) (now : Time) : Develops jobs (jobs.supersede scope now) := by
  refine .map (fun job _ => ?_) fun job _ => ?_
  · split <;> rfl
  · split
    · next active => exact Or.inr ⟨active.2, rfl, rfl⟩
    · exact Or.inl rfl

theorem step_cases (jobs : Jobs Time) (event : Event Time) :
    step jobs event = jobs ∨ ∃ job, attempt jobs event = .ok (step jobs event, job) := by
  unfold step
  cases attempt jobs event with
  | error fault => exact Or.inl rfl
  | ok result => exact Or.inr ⟨result.2, rfl⟩

/-- No row is lost, and each row moves. -/
theorem step_develops (distinct : (jobs.map Job.jobId).Nodup) : Develops jobs (step jobs event) := by
  obtain same | ⟨job, accepted⟩ := step_cases jobs event
  · rw [same]
    exact .refl Moves.refl jobs
  · cases event with
    | start scope candidate tierDigest resourceClass jobId now =>
      obtain same | ⟨fresh, made, named, -⟩ := start_cases accepted
      · rw [same]
        exact .refl Moves.refl jobs
      · rw [made]
        exact (supersede_develops scope now).append (fun other member same => fresh other member (same.trans named)) trivial
    | begin jobId expectedRevision token now =>
      obtain ⟨row, found, ⟨state, -⟩, made, -⟩ := begin_eq_ok.mp accepted
      rw [made]
      exact update_develops distinct found (fun _ => rfl) (Or.inr ⟨by rw [state]; rfl, rfl, rfl⟩)
    | recover jobId expectedRevision now =>
      obtain ⟨row, found, ⟨state, -⟩, made, -⟩ := recover_eq_ok.mp accepted
      rw [made]
      exact update_develops distinct found (fun _ => rfl) (Or.inr ⟨by rw [state]; rfl, rfl, rfl⟩)
    | finish jobId expectedRevision token state exitCode detail now =>
      obtain ⟨-, row, found, ⟨⟨running, -⟩, -⟩, made, -⟩ := finish_eq_ok.mp accepted
      rw [made]
      exact update_develops distinct found (fun _ => rfl) (Or.inr ⟨by rw [running]; rfl, rfl, rfl⟩)

end steps

/-- A receipt that names the candidate and the tier of its job. -/
def Job.Bound (job : Job Time) : Prop :=
  ∀ receipt, job.receipt = some receipt → receipt.candidate = job.candidate ∧ receipt.tierDigest = job.tierDigest

/-- Jobs have names of their own, a scope has one active job, and receipts belong to their jobs. -/
structure Sound (jobs : Jobs Time) : Prop where
  distinct : (jobs.map Job.jobId).Nodup
  single : ∀ a ∈ jobs, ∀ b ∈ jobs, a.scope = b.scope → a.state.runnable = true → b.state.runnable = true → a.jobId = b.jobId
  bound : ∀ job ∈ jobs, job.Bound

section sound

variable {jobs after : Jobs Time} {event : Event Time} {job row : Job Time} {jobId : String}

theorem identity_scope {a b : Job Time} (same : a.identity = b.identity) : a.scope = b.scope := congrArg Identity.scope same

/-- An update exchanges the row that it finds. -/
theorem Sound.mem_update (sound : Sound jobs) {change : Job Time → Job Time} (found : Table.select Job.jobId jobs jobId = some row)
    {next : Job Time} : next ∈ jobs.update jobId change ↔ next = change row ∨ next ∈ jobs ∧ next ≠ row := by
  obtain ⟨member, rfl⟩ := Table.select_eq_some found
  exact Table.mem_update_of_mem sound.distinct member rfl

/-- A change of an active row leaves the scopes with one active row each. -/
theorem update_sound (sound : Sound jobs) {change : Job Time → Job Time} (found : Table.select Job.jobId jobs jobId = some row)
    (same : ∀ job, (change job).jobId = job.jobId) (identity : (change row).identity = row.identity)
    (active : row.state.runnable = true) (bound : (change row).Bound) : Sound (jobs.update jobId change) := by
  have member := (Table.select_eq_some found).1
  have origin : ∀ next ∈ jobs.update jobId change, next.state.runnable = true →
      ∃ job ∈ jobs, job.jobId = next.jobId ∧ job.scope = next.scope ∧ job.state.runnable = true := by
    intro next present runnable
    obtain rfl | ⟨old, -⟩ := (sound.mem_update found).mp present
    · exact ⟨row, member, (same row).symm, (identity_scope identity).symm, active⟩
    · exact ⟨next, old, rfl, rfl, runnable⟩
  refine ⟨?_, fun a here b there scopes first second => ?_, fun next present => ?_⟩
  · rw [Jobs.update, Table.map_update Job.jobId same]
    exact sound.distinct
  · obtain ⟨x, xin, xid, xscope, xruns⟩ := origin a here first
    obtain ⟨y, yin, yid, yscope, yruns⟩ := origin b there second
    rw [← xid, ← yid]
    exact sound.single x xin y yin (xscope.trans (scopes.trans yscope.symm)) xruns yruns
  · obtain rfl | ⟨old, -⟩ := (sound.mem_update found).mp present
    · exact bound
    · exact sound.bound next old

/-- Among superseded rows none of the scope is active, and the others are as before. -/
theorem mem_supersede {scope : String} {now : Time} {next : Job Time} (present : next ∈ jobs.supersede scope now) :
    (next ∈ jobs ∧ (next.state.runnable = true → next.scope ≠ scope)) ∨
      ∃ job ∈ jobs, next = job.superseded now := by
  obtain ⟨job, member, rfl⟩ := List.mem_map.mp present
  split
  · exact Or.inr ⟨job, member, rfl⟩
  · next idle => exact Or.inl ⟨member, fun runnable same => idle ⟨same, runnable⟩⟩

theorem start_sound (sound : Sound jobs) {scope : String} {now : Time} (fresh : ∀ other ∈ jobs, other.jobId ≠ job.jobId)
    (here : job.scope = scope) (unbound : job.receipt = none) : Sound (jobs.supersede scope now ++ [job]) := by
  have names : (jobs.supersede scope now).map Job.jobId = jobs.map Job.jobId := by
    rw [Jobs.supersede, List.map_map]
    refine List.map_congr_left fun other _ => ?_
    change (if _ then _ else _ : Job Time).jobId = _
    split <;> rfl
  have active : ∀ next ∈ jobs.supersede scope now, next.state.runnable = true → next ∈ jobs ∧ next.scope ≠ scope := by
    intro next present runnable
    obtain ⟨old, apart⟩ | ⟨other, -, rfl⟩ := mem_supersede present
    · exact ⟨old, apart runnable⟩
    · cases runnable
  refine ⟨?_, fun a first b second scopes firstRuns secondRuns => ?_, fun next present => ?_⟩
  · refine Table.nodup_snoc (names ▸ sound.distinct) fun other present => ?_
    have listed : other.jobId ∈ jobs.map Job.jobId := names ▸ List.mem_map_of_mem present
    obtain ⟨old, member, same⟩ := List.mem_map.mp listed
    exact same ▸ fresh old member
  · rcases List.mem_append.mp first with old | new
    · obtain ⟨aold, apart⟩ := active a old firstRuns
      rcases List.mem_append.mp second with other | new
      · exact sound.single a aold b (active b other secondRuns).1 scopes firstRuns secondRuns
      · rw [List.mem_singleton.mp new] at scopes
        exact absurd (scopes.trans here) apart
    · rw [List.mem_singleton.mp new] at scopes ⊢
      rcases List.mem_append.mp second with other | last
      · exact absurd (scopes.symm.trans here) (active b other secondRuns).2
      · rw [List.mem_singleton.mp last]
  · rcases List.mem_append.mp present with old | new
    · obtain ⟨old, -⟩ | ⟨other, member, rfl⟩ := mem_supersede old
      · exact sound.bound next old
      · rintro receipt made
        obtain rfl := Option.some.inj made
        exact ⟨rfl, rfl⟩
    · rw [List.mem_singleton.mp new]
      rintro receipt made
      rw [unbound] at made
      cases made

theorem step_sound (sound : Sound jobs) (event : Event Time) : Sound (step jobs event) := by
  obtain same | ⟨job, accepted⟩ := step_cases jobs event
  · rw [same]
    exact sound
  · cases event with
    | start scope candidate tierDigest resourceClass jobId now =>
      obtain same | ⟨fresh, made, named, here, -, unbound, -⟩ := start_cases accepted
      · rw [same]
        exact sound
      · rw [made]
        exact start_sound sound (named.symm ▸ fresh) here unbound
    | begin jobId expectedRevision token now =>
      obtain ⟨row, found, ⟨state, -⟩, made, -⟩ := begin_eq_ok.mp accepted
      rw [made]
      exact update_sound sound found (fun _ => rfl) rfl (by rw [state]; rfl) (sound.bound row (Table.select_eq_some found).1)
    | recover jobId expectedRevision now =>
      obtain ⟨row, found, ⟨state, -⟩, made, -⟩ := recover_eq_ok.mp accepted
      rw [made]
      exact update_sound sound found (fun _ => rfl) rfl (by rw [state]; rfl) (sound.bound row (Table.select_eq_some found).1)
    | finish jobId expectedRevision token state exitCode detail now =>
      obtain ⟨-, row, found, ⟨⟨running, -⟩, -⟩, made, -⟩ := finish_eq_ok.mp accepted
      rw [made]
      refine update_sound sound found (fun _ => rfl) rfl (by rw [running]; rfl) fun receipt closed => ?_
      obtain rfl := Option.some.inj closed
      exact ⟨rfl, rfl⟩

/-- A row after an event was there before, waits to run, is superseded, or has just been claimed or finished. -/
theorem step_row (sound : Sound jobs) (present : job ∈ step jobs event) :
    job ∈ jobs ∨ job.state = .started ∨ job.state = .superseded ∨
      (job.state = .running ∧ ∃ revision token now, event = .begin job.jobId revision token now ∧ job.executionToken = some token ∧
        attempt jobs event = .ok (step jobs event, job)) ∨
      (job.state.runnable = false ∧ ∃ revision token exitCode detail now,
        event = .finish job.jobId revision token job.state exitCode detail now ∧ attempt jobs event = .ok (step jobs event, job)) := by
  obtain same | ⟨made, accepted⟩ := step_cases jobs event
  · exact Or.inl (same ▸ present)
  · cases event with
    | start scope candidate tierDigest resourceClass jobId now =>
      obtain same | ⟨-, rows, -, -, state, -⟩ := start_cases accepted
      · exact Or.inl (same ▸ present)
      · rw [rows] at present
        rcases List.mem_append.mp present with old | new
        · obtain ⟨old, -⟩ | ⟨other, -, rfl⟩ := mem_supersede old
          · exact Or.inl old
          · exact Or.inr (Or.inr (Or.inl rfl))
        · rw [List.mem_singleton.mp new]
          exact Or.inr (Or.inl state)
    | begin jobId expectedRevision token now =>
      obtain ⟨row, found, -, rows, rfl⟩ := begin_eq_ok.mp accepted
      rw [rows, sound.mem_update found] at present
      obtain ⟨-, rfl⟩ := Table.select_eq_some found
      obtain rfl | ⟨old, -⟩ := present
      · exact Or.inr (Or.inr (Or.inr (Or.inl ⟨rfl, expectedRevision, token, now, rfl, rfl, accepted⟩)))
      · exact Or.inl old
    | recover jobId expectedRevision now =>
      obtain ⟨row, found, -, rows, -⟩ := recover_eq_ok.mp accepted
      rw [rows, sound.mem_update found] at present
      obtain rfl | ⟨old, -⟩ := present
      · exact Or.inr (Or.inl rfl)
      · exact Or.inl old
    | finish jobId expectedRevision token state exitCode detail now =>
      obtain ⟨⟨over_, -⟩, row, found, -, rows, rfl⟩ := finish_eq_ok.mp accepted
      rw [rows, sound.mem_update found] at present
      obtain ⟨-, rfl⟩ := Table.select_eq_some found
      obtain rfl | ⟨old, -⟩ := present
      · exact Or.inr (Or.inr (Or.inr (Or.inr ⟨over_, expectedRevision, token, exitCode, detail, now, rfl, accepted⟩)))
      · exact Or.inl old

/-- A row that is running ran before, or has just been claimed. -/
theorem step_running (sound : Sound jobs) (present : job ∈ step jobs event) (running : job.state = .running) :
    job ∈ jobs ∨ ∃ revision token now, event = .begin job.jobId revision token now ∧ job.executionToken = some token ∧
      attempt jobs event = .ok (step jobs event, job) := by
  obtain old | state | state | ⟨-, claimed⟩ | ⟨over_, -⟩ := step_row sound present
  · exact Or.inl old
  · cases running.symm.trans state
  · cases running.symm.trans state
  · exact Or.inr claimed
  · rw [running] at over_
    cases over_

/-- The active jobs of a scope are at most one. -/
theorem Sound.active_length (sound : Sound jobs) (scope : String) :
    (jobs.filter (fun job => job.scope = scope ∧ job.state.runnable = true)).length ≤ 1 := by
  have listed : ∀ job ∈ jobs.filter (fun job => job.scope = scope ∧ job.state.runnable = true),
      job ∈ jobs ∧ job.scope = scope ∧ job.state.runnable = true := by
    intro job member
    simpa using List.mem_filter.mp member
  refine Table.length_le_one (sound.distinct.sublist (List.filter_sublist.map Job.jobId)) fun first here second there => ?_
  obtain ⟨old, hereScope, hereRuns⟩ := listed first here
  obtain ⟨other, thereScope, thereRuns⟩ := listed second there
  exact sound.single first old second other (hereScope.trans thereScope.symm) hereRuns thereRuns

end sound

section runs

abbrev final (events : List (Event Time)) : Jobs Time := Run.final step [] events

theorem empty_sound : Sound ([] : Jobs Time) where
  distinct := List.nodup_nil
  single _ here := absurd here List.not_mem_nil
  bound _ here := absurd here List.not_mem_nil

theorem final_sound (events : List (Event Time)) : Sound (final events) :=
  @Run.invariant_always _ _ step Sound (fun _ event sound => step_sound sound event) events [] empty_sound

/-- The token was issued by a claim of the job, and no call has changed the row since. -/
def Issued (events : List (Event Time)) (job : Job Time) (token : String) : Prop :=
  ∃ before revision now later, events = before ++ .begin job.jobId revision token now :: later ∧
    (∃ after, attempt (final before) (.begin job.jobId revision token now) = .ok (after, job)) ∧
    ∀ middle rest, later = middle ++ rest →
      Table.select Job.jobId (final (before ++ .begin job.jobId revision token now :: middle)) job.jobId = some job

theorem running_issued (events : List (Event Time)) {job : Job Time} (member : job ∈ final events)
    (running : job.state = .running) : ∃ token, job.executionToken = some token ∧ Issued events job token := by
  induction events using List.reverseRecOn with
  | nil => cases member
  | append_singleton events event ih =>
    have held : Table.select Job.jobId (final (events ++ [event])) job.jobId = some job :=
      Table.select_of_mem (final_sound _).distinct member
    rw [final, Run.final_snoc] at member
    obtain old | ⟨revision, token, now, rfl, issued, accepted⟩ := step_running (final_sound events) member running
    · obtain ⟨token, issued, before, revision, now, later, rfl, claimed, since⟩ := ih old
      refine ⟨token, issued, before, revision, now, later ++ [event], by simp, claimed, fun middle rest split => ?_⟩
      rcases List.eq_nil_or_concat rest with rfl | ⟨front, last, rfl⟩
      · rw [List.append_nil] at split
        subst split
        simpa using held
      · rw [List.concat_eq_append, ← List.append_assoc] at split
        exact since middle front (List.append_inj' split rfl).1
    · refine ⟨token, issued, events, revision, now, [], rfl, ⟨_, accepted⟩, fun middle rest split => ?_⟩
      obtain ⟨rfl, -⟩ := List.append_eq_nil_iff.mp split.symm
      exact held

/-- In every state that calls of any workers reach, a scope has at most one active job, rows keep their
revision or grow it, terminal rows stay as they are, a job is finished only under the token of its last
claim, and a receipt is one of a completed job, for its own candidate and tier, with exit code zero. -/
theorem jobs_run (events : List (Event Time)) :
    (∀ scope, ((final events).filter (fun job => job.scope = scope ∧ job.state.runnable = true)).length ≤ 1) ∧
    (∀ event, ∀ job ∈ final events, ∃ next ∈ step (final events) event, next.jobId = job.jobId ∧
      job.revision ≤ next.revision ∧ (next ≠ job → job.revision < next.revision) ∧ (job.state.terminal = true → next = job)) ∧
    (∀ jobId expectedRevision token state exitCode detail now result,
      (final events).finish jobId expectedRevision token state exitCode detail now = .ok result →
      ∃ job, Table.select Job.jobId (final events) jobId = some job ∧ Issued events job token) ∧
    (∀ jobId candidate tierDigest receipt, (final events).receipt jobId candidate tierDigest = .ok receipt →
      ∃ job, Table.select Job.jobId (final events) jobId = some job ∧ job.state = .completed ∧ job.receipt = some receipt ∧
        receipt.exitCode = some 0 ∧ job.candidate = candidate ∧ job.tierDigest = tierDigest) := by
  have sound := final_sound events
  refine ⟨fun scope => ?_, fun event job member => ?_, ?_, ?_⟩
  · exact sound.active_length scope
  · have develops : Develops (final events) (step (final events) event) := step_develops sound.distinct
    obtain ⟨next, there, same⟩ := develops.stays job member
    refine ⟨next, there, same, ?_⟩
    obtain rfl | ⟨active, revision, -⟩ := develops.move sound.distinct member there same
    · exact ⟨Int.le_refl _, fun other => absurd rfl other, fun _ => rfl⟩
    · exact ⟨by omega, fun _ => by omega, fun terminal => by rw [State.terminal, active] at terminal; cases terminal⟩
  · rintro jobId expectedRevision token state exitCode detail now ⟨after, closed⟩ accepted
    obtain ⟨-, job, found, ⟨⟨running, -⟩, held⟩, -⟩ := finish_eq_ok.mp accepted
    obtain ⟨issued, token_, source⟩ := running_issued events (Table.select_eq_some found).1 running
    obtain rfl := Option.some.inj (held.symm.trans token_)
    exact ⟨job, found, source⟩
  · intro jobId candidate tierDigest receipt accepted
    obtain ⟨job, found, state, made, exit, named, tier⟩ := receipt_eq_ok accepted
    obtain ⟨own, contract⟩ := sound.bound job (Table.select_eq_some found).1 receipt made
    exact ⟨job, found, state, made, exit, own.symm.trans named, contract.symm.trans tier⟩

end runs

end Coordinator.FormalJobs
