import Coordinator.FormalJobs

/-! What a start leaves of the other candidates of its scope, and what it hands out. A job is one for four
columns, while a start supersedes by the scope alone. -/

namespace Coordinator.FormalJobs
open Kit

variable {Time : Type}

/-- A job that a call has superseded. -/
def Superseded (jobs after : Jobs Time) (job : Job Time) : Prop :=
  job ∈ jobs ∧ job.state ≠ .superseded ∧ ∃ next ∈ after, next.jobId = job.jobId ∧ next.state = .superseded

/-- The job stands as a worker has finished it. -/
def Executed (events : List (Event Time)) (job : Job Time) : Prop :=
  ∃ before revision token exitCode detail now later,
    events = before ++ .finish job.jobId revision token job.state exitCode detail now :: later ∧
      ∃ after, attempt (final before) (.finish job.jobId revision token job.state exitCode detail now) = .ok (after, job)

/-- A start supersedes other candidates only, and hands out a job that can run or was executed. -/
structure StartContract (events : List (Event Time)) (candidate : String) (after : Jobs Time) (job : Job Time) : Prop where
  distinct : ∀ old, Superseded (final events) after old → old.candidate ≠ candidate
  usable : job.state.runnable = true ∨ Executed events job

/-- No job of the identity was superseded, and a new one meets no active job of the same candidate. -/
structure Undisturbed (jobs : Jobs Time) (wanted : Identity) : Prop where
  live : ∀ job ∈ jobs, job.identity = wanted → job.state ≠ .superseded
  apart : (∃ job ∈ jobs, job.identity = wanted) ∨
    ∀ job ∈ jobs, job.scope = wanted.scope → job.state.runnable = true → job.candidate ≠ wanted.candidate

section starts

variable {jobs after : Jobs Time} {job : Job Time} {scope candidate tierDigest resourceText jobId : String} {now : Time}

/-- A start returns the job of its identity, or makes it. -/
theorem start_eq_ok (accepted : jobs.start scope candidate tierDigest resourceText jobId now = .ok (after, job)) :
    ∃ resource, resourceClass resourceText = .ok resource ∧
      (jobs.find? (fun job => job.identity = ⟨scope, candidate, tierDigest, resource⟩) = some job ∧ after = jobs ∨
        jobs.find? (fun job => job.identity = ⟨scope, candidate, tierDigest, resource⟩) = none ∧
          (∀ other ∈ jobs.supersede scope now, other.jobId ≠ jobId) ∧ after = jobs.supersede scope now ++ [job] ∧
          job = ⟨jobId, scope, candidate, tierDigest, resource, .started, 1, none, now, now, none⟩) := by
  simp only [Jobs.start, bind_eq_ok, formalJobError_eq_ok, exists_unit] at accepted
  obtain ⟨-, -, -, resource, known, created⟩ := accepted
  refine ⟨resource, known, ?_⟩
  cases found : jobs.find? (fun job => job.identity = ⟨scope, candidate, tierDigest, resource⟩) with
  | some existing =>
    rw [found, pure_eq_ok, Prod.mk.injEq] at created
    obtain ⟨rfl, rfl⟩ := created
    exact .inl ⟨rfl, rfl⟩
  | none =>
    rw [found] at created
    simp only [raiseIf_bind_ok, pure_eq_ok, Prod.mk.injEq, Option.isSome_eq_false_iff, Option.isNone_iff_eq_none] at created
    obtain ⟨fresh, rfl, rfl⟩ := created
    exact .inr ⟨rfl, Table.select_eq_none.mp fresh, rfl, rfl⟩

theorem supersede_map {Column : Type} (column : Job Time → Column) (same : ∀ job : Job Time, column (job.superseded now) = column job) :
    (jobs.supersede scope now).map column = jobs.map column := by
  rw [Jobs.supersede, List.map_map]
  refine List.map_congr_left fun job _ => ?_
  change column (if _ then _ else _) = _
  split
  · exact same job
  · rfl

end starts

theorem update_identities {jobs : Jobs Time} {jobId : String} {change : Job Time → Job Time}
    (same : ∀ job, (change job).identity = job.identity) : (jobs.update jobId change).map Job.identity = jobs.map Job.identity :=
  Table.map_update Job.identity same

section runs

/-- No two jobs of a journal have one identity. -/
theorem step_identities {jobs : Jobs Time} (unique : (jobs.map Job.identity).Nodup) (event : Event Time) :
    ((step jobs event).map Job.identity).Nodup := by
  obtain same | ⟨job, accepted⟩ := step_cases jobs event
  · rw [same]
    exact unique
  · cases event with
    | start scope candidate tierDigest resourceClass jobId now =>
      obtain ⟨resource, -, ⟨-, rows⟩ | ⟨absent, -, rows, made⟩⟩ := start_eq_ok accepted
      · rw [rows]
        exact unique
      · rw [rows]
        have kept : (jobs.supersede scope now).map Job.identity = jobs.map Job.identity := supersede_map Job.identity fun _ => rfl
        refine Table.nodup_snoc (kept ▸ unique) fun other present same => ?_
        have listed : other.identity ∈ jobs.map Job.identity := kept ▸ List.mem_map_of_mem present
        obtain ⟨old, member, identity⟩ := List.mem_map.mp listed
        rw [made] at same
        have never := List.find?_eq_none.mp absent old member
        exact never (decide_eq_true (identity.trans same))
    | begin jobId expectedRevision token now =>
      obtain ⟨row, -, -, rows, -⟩ := begin_eq_ok.mp accepted
      rw [rows, update_identities]
      · exact unique
      · exact fun _ => rfl
    | recover jobId expectedRevision now =>
      obtain ⟨row, -, -, rows, -⟩ := recover_eq_ok.mp accepted
      rw [rows, update_identities]
      · exact unique
      · exact fun _ => rfl
    | finish jobId expectedRevision token state exitCode detail now =>
      obtain ⟨-, row, -, -, rows, -⟩ := finish_eq_ok.mp accepted
      rw [rows, update_identities]
      · exact unique
      · exact fun _ => rfl

theorem final_identities (events : List (Event Time)) : ((final events).map Job.identity).Nodup :=
  @Run.invariant_always _ _ step (fun jobs => (jobs.map Job.identity).Nodup)
    (fun _ event unique => step_identities unique event) events [] List.nodup_nil

/-- A job that is over was so before, or has just been finished. -/
theorem step_finished {jobs : Jobs Time} {job : Job Time} {event : Event Time} (sound : Sound jobs)
    (present : job ∈ step jobs event) (over_ : job.state.runnable = false) (outcome : job.state ≠ .superseded) :
    job ∈ jobs ∨ ∃ revision token exitCode detail now, event = .finish job.jobId revision token job.state exitCode detail now ∧
      attempt jobs event = .ok (step jobs event, job) := by
  obtain old | state | state | ⟨state, -⟩ | ⟨-, finished⟩ := step_row sound present
  · exact .inl old
  · rw [state] at over_
    cases over_
  · exact absurd state outcome
  · rw [state] at over_
    cases over_
  · exact .inr finished

/-- Every job that is over, but for a superseded one, stands as a worker has finished it. -/
theorem executed_of_final (events : List (Event Time)) {job : Job Time} (member : job ∈ final events)
    (over_ : job.state.runnable = false) (outcome : job.state ≠ .superseded) : Executed events job := by
  induction events using List.reverseRecOn with
  | nil => cases member
  | append_singleton events event ih =>
    rw [final, Run.final_snoc] at member
    obtain old | ⟨revision, token, exitCode, detail, now, rfl, accepted⟩ :=
      step_finished (final_sound events) member over_ outcome
    · obtain ⟨before, revision, token, exitCode, detail, now, later, rfl, accepted⟩ := ih old
      exact ⟨before, revision, token, exitCode, detail, now, later ++ [event], by simp, accepted⟩
    · exact ⟨events, revision, token, exitCode, detail, now, [], rfl, _, accepted⟩

/-- A finished job is not a superseded one. -/
theorem Executed.outcome {events : List (Event Time)} {job : Job Time} (executed : Executed events job) : job.state ≠ .superseded := by
  obtain ⟨before, revision, token, exitCode, detail, now, later, -, after, accepted⟩ := executed
  exact (finish_eq_ok.mp accepted).1.2

/-- A start that makes a job supersedes the active jobs of its scope and no other ones. -/
theorem superseded_iff {jobs : Jobs Time} {job old : Job Time} {scope : String} {now : Time} (sound : Sound jobs)
    (started : job.state = .started) : Superseded jobs (jobs.supersede scope now ++ [job]) old ↔
      old ∈ jobs ∧ old.scope = scope ∧ old.state.runnable = true := by
  constructor
  · rintro ⟨member, before, next, present, named, after⟩
    refine ⟨member, ?_⟩
    rcases List.mem_append.mp present with changed | new
    · obtain ⟨other, there, rfl⟩ := List.mem_map.mp changed
      by_cases active : other.scope = scope ∧ other.state.runnable = true
      · rw [if_pos active] at named
        obtain rfl : other = old := List.inj_on_of_nodup_map sound.distinct there member named
        exact active
      · rw [if_neg active] at named after
        obtain rfl : other = old := List.inj_on_of_nodup_map sound.distinct there member named
        exact absurd after before
    · rw [List.mem_singleton.mp new, started] at after
      cases after
  · rintro ⟨member, here, active⟩
    refine ⟨member, fun same => ?_, old.superseded now, List.mem_append_left _ ?_, rfl, rfl⟩
    · rw [same] at active
      cases active
    · exact List.mem_map.mpr ⟨old, member, if_pos ⟨here, active⟩⟩

/-- A start that finds its job supersedes none. -/
theorem not_superseded {jobs : Jobs Time} {old : Job Time} (sound : Sound jobs) : ¬ Superseded jobs jobs old := by
  rintro ⟨member, before, next, present, named, after⟩
  obtain rfl : next = old := List.inj_on_of_nodup_map sound.distinct present member named
  exact before after

theorem contract_iff_undisturbed (events : List (Event Time)) {scope candidate tierDigest resourceText jobId : String} {now : Time}
    {after : Jobs Time} {job : Job Time} {resource : ResourceClass} (known : resourceClass resourceText = .ok resource)
    (accepted : (final events).start scope candidate tierDigest resourceText jobId now = .ok (after, job)) :
    StartContract events candidate after job ↔ Undisturbed (final events) ⟨scope, candidate, tierDigest, resource⟩ := by
  have sound := final_sound events
  obtain ⟨other, same, cases_⟩ := start_eq_ok accepted
  obtain rfl : resource = other := Except.ok.inj (known.symm.trans same)
  obtain ⟨found, rfl⟩ | ⟨absent, -, rfl, made⟩ := cases_
  · have member := List.mem_of_find?_eq_some found
    have identity : job.identity = ⟨scope, candidate, tierDigest, resource⟩ := by simpa using List.find?_some found
    constructor
    · intro contract
      refine ⟨fun row there named => ?_, .inl ⟨job, member, identity⟩⟩
      obtain rfl : row = job := List.inj_on_of_nodup_map (final_identities events) there member (named.trans identity.symm)
      obtain active | executed := contract.usable
      · intro over_
        rw [over_] at active
        cases active
      · exact executed.outcome
    · intro undisturbed
      refine ⟨fun old gone => absurd gone (not_superseded sound), ?_⟩
      cases active : job.state.runnable with
      | true => exact .inl rfl
      | false => exact .inr (executed_of_final events member active (undisturbed.live job member identity))
  · have started : job.state = .started := by rw [made]
    have none_ (row : Job Time) (there : row ∈ final events) : row.identity ≠ ⟨scope, candidate, tierDigest, resource⟩ :=
      fun named => List.find?_eq_none.mp absent row there (decide_eq_true named)
    constructor
    · intro contract
      refine ⟨fun row there named => absurd named (none_ row there), .inr fun row there here active => ?_⟩
      exact contract.distinct row ((superseded_iff sound started).mpr ⟨there, here, active⟩)
    · rintro ⟨-, ⟨row, there, named⟩ | apart⟩
      · exact absurd named (none_ row there)
      · refine ⟨fun old gone => ?_, .inl (by rw [started]; rfl)⟩
        obtain ⟨there, here, active⟩ := (superseded_iff sound started).mp gone
        exact apart old there here active

end runs

/-- A candidate and two tiers for it. -/
def sampleCandidate : String := "aaaaaaaaaaaaaaaaaaaaaaaaaaaaaaaaaaaaaaaa"

def otherCandidate : String := "bbbbbbbbbbbbbbbbbbbbbbbbbbbbbbbbbbbbbbbb"

def sampleTier : String := "0000000000000000000000000000000000000000000000000000000000000000"

def otherTier : String := "1111111111111111111111111111111111111111111111111111111111111111"

/-- A job as a start makes it. -/
def startedJob (jobId candidate tierDigest : String) : Job Nat :=
  ⟨jobId, "scope", candidate, tierDigest, .ordinary, .started, 1, none, 0, 0, none⟩

def startEvent (jobId candidate tierDigest : String) : Event Nat := .start "scope" candidate tierDigest "ordinary" jobId 0

end Coordinator.FormalJobs
