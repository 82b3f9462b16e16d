import Coordinator.Publication

/-! The publication protocol over whole runs, in which any number of publishers take turns and may
stop at any call. The guards of one call are what every step of a run is fenced by. -/

namespace Coordinator.Publication
open Kit
open Receipts (isToken isIdentifier isCommit)

inductive Call where
  | admission (key candidateOid expectedRemoteOid jobId : String) (now : Nat)
  | claim (jobId lease : String) (now : Nat)
  | finish (jobId lease : String) (phase : Phase) (observedRemoteOid errorCode : Option String) (now : Nat)
  | recover (jobId observedRemoteOid : String) (now : Nat)
  | supersede (jobId observedRemoteOid : String) (now : Nat)

def Call.effect (store : Store) : Call → Receipts.Outcome (Store × Option Job)
  | admission key candidateOid expectedRemoteOid jobId now =>
      (admitPublication store jobId key candidateOid expectedRemoteOid now).map (Prod.map id some)
  | claim jobId lease now => claimPublication store jobId lease now
  | finish jobId lease phase observedRemoteOid errorCode now =>
      (finishPublication store jobId lease phase observedRemoteOid errorCode now).map (Prod.map id some)
  | recover jobId observedRemoteOid now => (recoverPublication store jobId observedRemoteOid now).map (Prod.map id some)
  | supersede jobId observedRemoteOid now =>
      (resolveSupersededPublication store jobId observedRemoteOid now).map (Prod.map id some)

def step (store : Store) (call : Call) : Store :=
  match call.effect store with
  | .ok (after, _) => after
  | .error _ => store

/-- No call changes a job in such a phase. -/
def Phase.terminal : Phase → Bool
  | .published | .rejected => true
  | .queued | .publishing | .ambiguous => false

/-- The changes that a call can make to a job. -/
inductive Move : Call → Job → Job → Prop
  | stays (call : Call) (job : Job) : Move call job job
  | claimed {job : Job} (lease : String) (now : Nat) : job.phase = .queued →
      Move (.claim job.jobId lease now) job { job with
        phase := .publishing, publisherLease := some lease, publisherLeaseExpires := some (now + leaseMilliseconds),
        errorCode := none, updatedAt := now }
  | finished {job : Job} {lease : String} {phase : Phase} {observedRemoteOid : Option String} (errorCode : Option String)
      {now : Nat} : job.leasedBy lease now = true → phase ≠ .queued →
        (phase = .published → observedRemoteOid = some job.candidateOid) →
          Move (.finish job.jobId lease phase observedRemoteOid errorCode now) job
            { job with phase, observedRemoteOid, errorCode, publisherLeaseExpires := none, updatedAt := now }
  | recovered {job : Job} (observedRemoteOid : String) (now : Nat) : job.phase = .ambiguous ∨ job.phase = .publishing →
      Move (.recover job.jobId observedRemoteOid now) job { job with
        phase := (job.recovered observedRemoteOid).1, publisherLease := none, publisherLeaseExpires := none,
        observedRemoteOid := some observedRemoteOid, errorCode := (job.recovered observedRemoteOid).2, updatedAt := now }
  | superseded {job : Job} (observedRemoteOid : String) (now : Nat) : job.phase = .queued →
      Move (.supersede job.jobId observedRemoteOid now) job { job with
        phase := (job.superseded observedRemoteOid).1, observedRemoteOid := some observedRemoteOid,
        errorCode := (job.superseded observedRemoteOid).2, updatedAt := now }

/-- What an accepted call does to the jobs. -/
inductive Accepted (call : Call) (store : Store) : Store → Prop
  | same {requestKeys : List RequestKey} : Accepted call store { store with requestKeys }
  | added {job : Job} {requestKeys : List RequestKey} (queued : job.phase = .queued)
      (freshId : ∀ other ∈ store.jobs, other.jobId ≠ job.jobId)
      (freshCandidate : ∀ other ∈ store.jobs, other.candidateOid ≠ job.candidateOid) :
        Accepted call store ⟨store.jobs ++ [job], requestKeys⟩
  | moved {jobId : String} {guard : Job → Bool} {change : Job → Job} (sameId : ∀ job, (change job).jobId = job.jobId)
      (sameCandidate : ∀ job, (change job).candidateOid = job.candidateOid)
      (moves : ∀ job ∈ store.jobs, job.jobId = jobId → guard job = true → Move call job (change job)) :
        Accepted call store (store.update jobId guard change)

section calls

variable {store after : Store} {jobId : String} {job : Job}

theorem Store.insertKey_eq_ok {row : RequestKey} (inserted : store.insertKey row = .ok after) :
    after = { store with requestKeys := store.requestKeys ++ [row] } := by
  unfold Store.insertKey at inserted
  obtain ⟨-, inserted⟩ := raiseIf_bind_ok.mp inserted
  cases inserted
  rfl

theorem Store.insertJob_eq_ok (inserted : store.insertJob job = .ok after) :
    (∀ other ∈ store.jobs, other.jobId ≠ job.jobId) ∧ (∀ other ∈ store.jobs, other.candidateOid ≠ job.candidateOid) ∧
      after = { store with jobs := store.jobs ++ [job] } := by
  unfold Store.insertJob at inserted
  obtain ⟨freshId, inserted⟩ := raiseIf_bind_ok.mp inserted
  obtain ⟨-, inserted⟩ := raiseIf_bind_ok.mp inserted
  obtain ⟨freshCandidate, inserted⟩ := raiseIf_bind_ok.mp inserted
  cases inserted
  rw [Option.isSome_eq_false_iff, Option.isNone_iff_eq_none] at freshId
  exact ⟨Table.select_eq_none.mp freshId, by simpa using freshCandidate, rfl⟩

theorem admitPublication_accepted {key candidateOid expectedRemoteOid : String} {now : Nat}
    (accepted : admitPublication store jobId key candidateOid expectedRemoteOid now = .ok (after, job)) :
    Accepted (.admission key candidateOid expectedRemoteOid jobId now) store after := by
  unfold admitPublication at accepted
  obtain ⟨-, accepted⟩ := raiseIf_bind_ok.mp accepted
  simp only at accepted
  split at accepted
  · obtain ⟨-, accepted⟩ := raiseIf_bind_ok.mp accepted
    cases accepted
    exact .same
  · obtain ⟨-, accepted⟩ := raiseIf_bind_ok.mp accepted
    obtain ⟨keyed, inserted, accepted⟩ := bind_eq_ok.mp accepted
    cases accepted
    rw [Store.insertKey_eq_ok inserted]
    exact .same
  · obtain ⟨admitted, insertedJob, accepted⟩ := bind_eq_ok.mp accepted
    obtain ⟨keyed, insertedKey, accepted⟩ := bind_eq_ok.mp accepted
    obtain ⟨_, -, accepted⟩ := orRaise_bind_ok.mp accepted
    cases accepted
    obtain ⟨freshId, freshCandidate, rfl⟩ := Store.insertJob_eq_ok insertedJob
    rw [Store.insertKey_eq_ok insertedKey]
    exact .added rfl freshId freshCandidate

theorem claimPublication_accepted {lease : String} {now : Nat} {answer : Option Job}
    (accepted : claimPublication store jobId lease now = .ok (after, answer)) :
    Accepted (.claim jobId lease now) store after := by
  unfold claimPublication at accepted
  obtain ⟨-, accepted⟩ := raiseIf_bind_ok.mp accepted
  cases found : store.select jobId with
  | none =>
    rw [found] at accepted
    cases accepted
    exact .same
  | some row =>
    rw [found] at accepted
    simp only at accepted
    split at accepted
    · cases accepted
      exact .same
    · obtain ⟨_, -, accepted⟩ := orRaise_bind_ok.mp accepted
      obtain ⟨-, accepted⟩ := raiseIf_bind_ok.mp accepted
      cases accepted
      refine .moved (fun _ => rfl) (fun _ => rfl) fun other _ named queued => ?_
      subst named
      exact .claimed lease now (of_decide_eq_true queued)

/-- The selected row is the only one under its key. -/
theorem selected_unique (distinct : (store.jobs.map Job.jobId).Nodup) (found : store.select jobId = some job) {other : Job}
    (member : other ∈ store.jobs) (named : other.jobId = jobId) : other = job := by
  obtain ⟨there, same⟩ := Table.select_eq_some found
  exact List.inj_on_of_nodup_map distinct member there (named.trans same.symm)

/-- A write that matches one row matches the selected one. -/
theorem guard_of_matched (distinct : (store.jobs.map Job.jobId).Nodup) (found : store.select jobId = some job)
    {guard : Job → Bool} (one : store.matched jobId guard = 1) : guard job = true := by
  have some_ : 0 < store.jobs.countP (fun job => job.jobId = jobId ∧ guard job = true) := by
    change store.jobs.countP _ = 1 at one
    rw [one]
    exact Nat.one_pos
  obtain ⟨other, there, fits⟩ := List.countP_pos_iff.mp some_
  rw [decide_eq_true_eq] at fits
  rw [← selected_unique distinct found there fits.1]
  exact fits.2

theorem finishOwned_eq_ok {lease : String} {phase : Phase} {observedRemoteOid errorCode : Option String} {now : Nat}
    (written : finishOwnedPublication store jobId lease phase observedRemoteOid errorCode now = .ok after) :
    store.matched jobId (fun job => job.leasedBy lease now) = 1 ∧
      after = store.update jobId (fun job => job.leasedBy lease now) fun job =>
        { job with phase, observedRemoteOid, errorCode, publisherLeaseExpires := none, updatedAt := now } := by
  unfold finishOwnedPublication at written
  simp only at written
  split at written
  · next one =>
    cases written
    exact ⟨one, rfl⟩
  · obtain ⟨-, thrown⟩ := raiseIf_bind_ok.mp written
    exact (throw_eq_ok.mp thrown).elim

/-- A finish that is accepted repeats a recorded outcome, or comes under the current lease. -/
theorem finishPublication_eq_ok {lease : String} {phase : Phase} {observedRemoteOid errorCode : Option String} {now : Nat}
    (distinct : (store.jobs.map Job.jobId).Nodup)
    (accepted : finishPublication store jobId lease phase observedRemoteOid errorCode now = .ok (after, job)) :
    ∃ row ∈ store.jobs, row.jobId = jobId ∧
      ((row.phase = phase ∧ row.publisherLease = some lease ∧ after = store) ∨
        (row.leasedBy lease now = true ∧ phase ≠ .queued ∧ (phase = .published → observedRemoteOid = some row.candidateOid) ∧
          after = store.update jobId (fun job => job.leasedBy lease now) fun job =>
            { job with phase, observedRemoteOid, errorCode, publisherLeaseExpires := none, updatedAt := now })) := by
  unfold finishPublication at accepted
  obtain ⟨valid, accepted⟩ := raiseIf_bind_ok.mp accepted
  obtain ⟨row, found, accepted⟩ := orRaise_bind_ok.mp accepted
  obtain ⟨member, named⟩ := Table.select_eq_some found
  refine ⟨row, member, named, ?_⟩
  split at accepted
  · next same =>
    obtain ⟨outcome, accepted⟩ := raiseIf_bind_ok.mp accepted
    cases accepted
    simp only [Bool.or_eq_false_iff, decide_eq_false_iff_not, not_not] at outcome
    exact Or.inl ⟨same, outcome.1.1, rfl⟩
  · obtain ⟨-, accepted⟩ := raiseIf_bind_ok.mp accepted
    obtain ⟨observation, accepted⟩ := raiseIf_bind_ok.mp accepted
    obtain ⟨finished, written, accepted⟩ := bind_eq_ok.mp accepted
    obtain ⟨_, -, accepted⟩ := orRaise_bind_ok.mp accepted
    obtain ⟨-, accepted⟩ := raiseIf_bind_ok.mp accepted
    cases accepted
    obtain ⟨one, rfl⟩ := finishOwned_eq_ok written
    refine Or.inr ⟨guard_of_matched distinct found one, ?_, fun published => ?_, rfl⟩
    · rintro rfl
      simp at valid
    · simpa [published] using observation

theorem finishPublication_accepted {lease : String} {phase : Phase} {observedRemoteOid errorCode : Option String}
    {now : Nat} (distinct : (store.jobs.map Job.jobId).Nodup)
    (accepted : finishPublication store jobId lease phase observedRemoteOid errorCode now = .ok (after, job)) :
    Accepted (.finish jobId lease phase observedRemoteOid errorCode now) store after := by
  obtain ⟨row, member, named, ⟨-, -, rfl⟩ | ⟨-, leaves, observation, rfl⟩⟩ := finishPublication_eq_ok distinct accepted
  · exact .same
  · refine .moved (fun _ => rfl) (fun _ => rfl) fun other there same leased => ?_
    rw [← List.inj_on_of_nodup_map distinct there member (same.trans named.symm)] at observation
    subst same
    exact .finished errorCode leased leaves observation

theorem recoverPublication_accepted {observedRemoteOid : String} {now : Nat} (distinct : (store.jobs.map Job.jobId).Nodup)
    (accepted : recoverPublication store jobId observedRemoteOid now = .ok (after, job)) :
    Accepted (.recover jobId observedRemoteOid now) store after := by
  unfold recoverPublication at accepted
  obtain ⟨-, accepted⟩ := raiseIf_bind_ok.mp accepted
  obtain ⟨row, found, accepted⟩ := orRaise_bind_ok.mp accepted
  obtain ⟨-, accepted⟩ := raiseIf_bind_ok.mp accepted
  obtain ⟨-, accepted⟩ := raiseIf_bind_ok.mp accepted
  obtain ⟨-, accepted⟩ := raiseIf_bind_ok.mp accepted
  obtain ⟨_, -, accepted⟩ := orRaise_bind_ok.mp accepted
  obtain ⟨-, accepted⟩ := raiseIf_bind_ok.mp accepted
  cases accepted
  refine .moved (fun _ => rfl) (fun _ => rfl) fun other there named idle => ?_
  have same := selected_unique distinct found there named
  subst named same
  refine .recovered observedRemoteOid now ?_
  simp only [Bool.or_eq_true, Bool.and_eq_true, decide_eq_true_eq] at idle
  exact idle.imp_right And.left

theorem resolveSuperseded_accepted {observedRemoteOid : String} {now : Nat} (distinct : (store.jobs.map Job.jobId).Nodup)
    (accepted : resolveSupersededPublication store jobId observedRemoteOid now = .ok (after, job)) :
    Accepted (.supersede jobId observedRemoteOid now) store after := by
  unfold resolveSupersededPublication at accepted
  obtain ⟨-, accepted⟩ := raiseIf_bind_ok.mp accepted
  obtain ⟨row, found, accepted⟩ := orRaise_bind_ok.mp accepted
  obtain ⟨-, accepted⟩ := raiseIf_bind_ok.mp accepted
  obtain ⟨-, accepted⟩ := raiseIf_bind_ok.mp accepted
  obtain ⟨_, -, accepted⟩ := orRaise_bind_ok.mp accepted
  obtain ⟨-, accepted⟩ := raiseIf_bind_ok.mp accepted
  cases accepted
  refine .moved (fun _ => rfl) (fun _ => rfl) fun other there named waiting => ?_
  have same := selected_unique distinct found there named
  subst named same
  exact .superseded observedRemoteOid now (of_decide_eq_true waiting)

theorem Call.accepted {call : Call} {answer : Option Job} (distinct : (store.jobs.map Job.jobId).Nodup)
    (accepted : call.effect store = .ok (after, answer)) : Accepted call store after := by
  cases call with
  | admission key candidateOid expectedRemoteOid jobId now =>
    obtain ⟨job, admitted, -⟩ := map_some_eq_ok accepted
    exact admitPublication_accepted admitted
  | claim jobId lease now => exact claimPublication_accepted accepted
  | finish jobId lease phase observedRemoteOid errorCode now =>
    obtain ⟨job, finished, -⟩ := map_some_eq_ok accepted
    exact finishPublication_accepted distinct finished
  | recover jobId observedRemoteOid now =>
    obtain ⟨job, recovered, -⟩ := map_some_eq_ok accepted
    exact recoverPublication_accepted distinct recovered
  | supersede jobId observedRemoteOid now =>
    obtain ⟨job, resolved, -⟩ := map_some_eq_ok accepted
    exact resolveSuperseded_accepted distinct resolved

end calls

/-- What holds of every job at any time. -/
structure Sound (job : Job) : Prop where
  published : job.phase = .published → job.observedRemoteOid = some job.candidateOid

/-- What a call may do to one job. -/
structure Guarded (call : Call) (job next : Job) : Prop where
  descriptor : next.candidateOid = job.candidateOid ∧ next.expectedRemoteOid = job.expectedRemoteOid
  terminal : job.phase.terminal = true → next = job
  published : next.phase = .published → next.observedRemoteOid = some next.candidateOid
  requeued : next.phase = .queued → job.phase ≠ .queued → ∃ now, call = .recover job.jobId job.expectedRemoteOid now
  finished : ∀ jobId lease phase observedRemoteOid errorCode now,
    call = .finish jobId lease phase observedRemoteOid errorCode now → next ≠ job →
      jobId = job.jobId ∧ job.leasedBy lease now = true

section moves

variable {call : Call} {job next : Job}

theorem Job.recovered_published {observedRemoteOid : String} (published : (job.recovered observedRemoteOid).1 = .published) :
    observedRemoteOid = job.candidateOid := by
  unfold Job.recovered at published
  split at published
  · assumption
  · split at published <;> cases published

theorem Job.recovered_queued {observedRemoteOid : String} (queued : (job.recovered observedRemoteOid).1 = .queued) :
    observedRemoteOid = job.expectedRemoteOid := by
  unfold Job.recovered at queued
  split at queued
  · cases queued
  · split at queued
    · assumption
    · cases queued

theorem Job.superseded_published {observedRemoteOid : String}
    (published : (job.superseded observedRemoteOid).1 = .published) : observedRemoteOid = job.candidateOid := by
  unfold Job.superseded at published
  split at published
  · assumption
  · split at published <;> cases published

theorem Job.superseded_not_queued {observedRemoteOid : String} : (job.superseded observedRemoteOid).1 ≠ .queued := by
  unfold Job.superseded
  split
  · simp
  · split <;> simp

theorem Job.leasedBy_publishing {lease : String} {now : Nat} (leased : job.leasedBy lease now = true) :
    job.phase = .publishing := by
  simp only [Job.leasedBy, Bool.and_eq_true, decide_eq_true_eq] at leased
  exact leased.1.1

theorem Move.guarded (move : Move call job next) (sound : Sound job) : Guarded call job next := by
  cases move with
  | stays => exact ⟨⟨rfl, rfl⟩, fun _ => rfl, sound.published, fun now before => absurd now before,
      fun _ _ _ _ _ _ _ changed => absurd rfl changed⟩
  | claimed lease now queued =>
    refine ⟨⟨rfl, rfl⟩, fun terminal => ?_, fun published => (nomatch published), fun queued => (nomatch queued),
      fun _ _ _ _ _ _ same => (nomatch same)⟩
    rw [queued] at terminal
    cases terminal
  | finished errorCode leased leaves observation =>
    refine ⟨⟨rfl, rfl⟩, fun terminal => ?_, observation, fun queued => absurd queued leaves, ?_⟩
    · rw [Job.leasedBy_publishing leased] at terminal
      cases terminal
    · rintro _ _ _ _ _ _ ⟨⟩ -
      exact ⟨rfl, leased⟩
  | recovered observedRemoteOid now idle =>
    refine ⟨⟨rfl, rfl⟩, fun terminal => ?_, fun published => ?_, fun queued _ => ⟨now, ?_⟩,
      fun _ _ _ _ _ _ same => (nomatch same)⟩
    · rcases idle with ambiguous | publishing
      · rw [ambiguous] at terminal
        cases terminal
      · rw [publishing] at terminal
        cases terminal
    · exact congrArg some (Job.recovered_published published)
    · rw [Job.recovered_queued queued]
  | superseded observedRemoteOid now queued =>
    refine ⟨⟨rfl, rfl⟩, fun terminal => ?_, fun published => ?_, fun again => absurd again Job.superseded_not_queued,
      fun _ _ _ _ _ _ same => (nomatch same)⟩
    · rw [queued] at terminal
      cases terminal
    · exact congrArg some (Job.superseded_published published)

end moves

/-- What holds of the store at any time. -/
structure Kept (store : Store) : Prop where
  distinct : (store.jobs.map Job.jobId).Nodup
  candidates : (store.jobs.map Job.candidateOid).Nodup
  sound : ∀ job ∈ store.jobs, Sound job

section runs

variable {store after : Store} {call : Call}

theorem Accepted.develops (accepted : Accepted call store after) :
    Table.Develops Job.jobId (fun job => job.phase = .queued) (Move call) store.jobs after.jobs := by
  cases accepted with
  | same => exact .refl (.stays call) _
  | added queued freshId freshCandidate => exact .insert (.stays call) freshId queued
  | moved sameId sameCandidate moves => exact .update (.stays call) sameId moves

theorem Accepted.kept (kept : Kept store) (accepted : Accepted call store after) : Kept after := by
  have develops := accepted.develops
  have sound : ∀ job ∈ after.jobs, Sound job := by
    intro job member
    rcases develops.comes job member with ⟨before, there, -, move⟩ | ⟨-, queued⟩
    · exact ⟨(move.guarded (kept.sound before there)).published⟩
    · exact ⟨fun published => nomatch queued.symm.trans published⟩
  cases accepted with
  | same => exact ⟨kept.distinct, kept.candidates, kept.sound⟩
  | added queued freshId freshCandidate =>
    exact ⟨Table.nodup_snoc kept.distinct freshId, Table.nodup_snoc kept.candidates freshCandidate, sound⟩
  | moved sameId sameCandidate moves =>
    refine ⟨?_, ?_, sound⟩
    · rw [Store.update, Table.map_update _ sameId]
      exact kept.distinct
    · rw [Store.update, Table.map_update _ sameCandidate]
      exact kept.candidates

theorem step_accepted (kept : Kept store) (call : Call) : Accepted call store (step store call) := by
  rw [step]
  split
  · next accepted => exact Call.accepted kept.distinct accepted
  · exact .same

theorem step_kept (kept : Kept store) (call : Call) : Kept (step store call) := (step_accepted kept call).kept kept

theorem kept_empty : Kept ⟨[], []⟩ := ⟨List.nodup_nil, List.nodup_nil, by simp⟩

theorem run_kept (calls : List Call) : Kept (Run.final step ⟨[], []⟩ calls) := by
  have keeps (store : Store) (call : Call) (kept : Kept store) : Kept (step store call) := step_kept kept call
  exact Run.invariant_always step keeps calls kept_empty

theorem guarded_of_step (kept : Kept store) (call : Call) {job next : Job} (member : job ∈ store.jobs)
    (there : next ∈ (step store call).jobs) (same : next.jobId = job.jobId) : Guarded call job next :=
  ((step_accepted kept call).develops.move kept.distinct member there same).guarded (kept.sound job member)

/-- A job in a terminal phase stays as it is for ever. -/
theorem terminal_run (kept : Kept store) {job : Job} (member : job ∈ store.jobs) (terminal : job.phase.terminal = true)
    (calls : List Call) : job ∈ (Run.final step store calls).jobs := by
  induction calls generalizing store with
  | nil => exact member
  | cons call rest ih =>
    obtain ⟨next, there, same⟩ := (step_accepted kept call).develops.stays job member
    have stays : next = job := (guarded_of_step kept call member there same).terminal terminal
    subst stays
    exact ih (step_kept kept call) there

end runs

/-- What holds in a state of a run, for whatever call comes next and whatever calls follow. -/
structure Protocol (store : Store) : Prop where
  distinct : (store.jobs.map Job.jobId).Nodup
  candidates : (store.jobs.map Job.candidateOid).Nodup
  published : ∀ job ∈ store.jobs, job.phase = .published → job.observedRemoteOid = some job.candidateOid
  terminal : ∀ job ∈ store.jobs, job.phase.terminal = true → ∀ calls, job ∈ (Run.final step store calls).jobs
  stays : ∀ call, ∀ job ∈ store.jobs, ∃ next ∈ (step store call).jobs, next.jobId = job.jobId
  guarded : ∀ call, ∀ job ∈ store.jobs, ∀ next ∈ (step store call).jobs, next.jobId = job.jobId → Guarded call job next
  finishes : ∀ jobId lease phase observedRemoteOid errorCode now,
    allowed (finishPublication store jobId lease phase observedRemoteOid errorCode now) = true →
      ∃ job ∈ store.jobs, job.jobId = jobId ∧ (job.leasedBy lease now = true ∨
        (job.phase = phase ∧ job.publisherLease = some lease ∧
          step store (.finish jobId lease phase observedRemoteOid errorCode now) = store))

/-- The protocol holds in every state that any interleaving of calls reaches. -/
theorem publication_run (calls : List Call) : Protocol (Run.final step ⟨[], []⟩ calls) := by
  have kept := run_kept calls
  generalize Run.final step ⟨[], []⟩ calls = store at kept
  refine ⟨kept.distinct, kept.candidates, fun job member => (kept.sound job member).published,
    fun job member terminal later => terminal_run kept member terminal later, fun call => (step_accepted kept call).develops.stays,
    fun call job member next there same => guarded_of_step kept call member there same, ?_⟩
  intro jobId lease phase observedRemoteOid errorCode now accepted
  obtain ⟨⟨after, row⟩, finished⟩ := allowed_iff.mp accepted
  obtain ⟨job, member, named, ⟨same, held, rfl⟩ | ⟨leased, -⟩⟩ := finishPublication_eq_ok kept.distinct finished
  · refine ⟨job, member, named, Or.inr ⟨same, held, ?_⟩⟩
    rw [step, Call.effect, finished]
    rfl
  · exact ⟨job, member, named, Or.inl leased⟩

end Coordinator.Publication
