import Coordinator.Receipts

/-! Publication jobs of the store of receipts. A publisher leases a queued job for a minute, pushes
its candidate and records what came of it. Whoever finds a job without a live publisher resolves it
from a fresh observation of the remote branch. -/

namespace Coordinator.Publication
open Kit
open Receipts (isToken isIdentifier isCommit)

inductive Phase where
  | queued
  | publishing
  | published
  | rejected
  | ambiguous
  deriving DecidableEq

structure Job where
  jobId : String
  idempotencyKey : String
  candidateOid : String
  expectedRemoteOid : String
  phase : Phase
  publisherLease : Option String
  publisherLeaseExpires : Option Nat
  observedRemoteOid : Option String
  errorCode : Option String
  createdAt : Nat
  updatedAt : Nat
  deriving DecidableEq

structure RequestKey where
  idempotencyKey : String
  jobId : String
  candidateOid : String
  expectedRemoteOid : String
  deriving DecidableEq

structure Store where
  jobs : List Job
  requestKeys : List RequestKey

/-- A lease lasts sixty seconds. -/
def leaseMilliseconds : Nat := 60000

namespace Store

variable (store : Store)

def select (jobId : String) : Option Job := Table.select Job.jobId store.jobs jobId

def matched (jobId : String) (guard : Job → Bool) : Nat := Table.matched Job.jobId store.jobs jobId guard

def update (jobId : String) (guard : Job → Bool) (change : Job → Job) : Store :=
  { store with jobs := Table.update Job.jobId store.jobs jobId guard change }

/-- Insert a key under which a job is asked for. -/
def insertKey (row : RequestKey) : Receipts.Outcome Store := do
  raiseIf (Table.select RequestKey.idempotencyKey store.requestKeys row.idempotencyKey).isSome
    (.integrityError "UNIQUE constraint failed: publication_request_keys.project_id, publication_request_keys.idempotency_key")
  return { store with requestKeys := store.requestKeys ++ [row] }

def insertJob (job : Job) : Receipts.Outcome Store := do
  raiseIf (store.select job.jobId).isSome (.integrityError "UNIQUE constraint failed: publication_jobs.job_id")
  raiseIf (store.jobs.any fun other => other.idempotencyKey = job.idempotencyKey)
    (.integrityError "UNIQUE constraint failed: publication_jobs.project_id, publication_jobs.idempotency_key")
  raiseIf (store.jobs.any fun other => other.candidateOid = job.candidateOid)
    (.integrityError "UNIQUE constraint failed: publication_jobs.project_id, publication_jobs.candidate_oid")
  return { store with jobs := store.jobs ++ [job] }

end Store

section calls

variable (store : Store) (jobId : String)

/-- Admit one candidate before any remote traffic. A second key may find the same job, and never
makes another. -/
def admitPublication (key candidateOid expectedRemoteOid : String) (now : Nat) : Receipts.Outcome (Store × Job) := do
  raiseIf (!isToken key || !isCommit candidateOid || !isCommit expectedRemoteOid || candidateOid = expectedRemoteOid)
    (.valueError "invalid publication admission")
  let byKey := (Table.select RequestKey.idempotencyKey store.requestKeys key).bind fun row => store.select row.jobId
  match byKey, Table.select Job.candidateOid store.jobs candidateOid with
  | some job, _ =>
      raiseIf (job.candidateOid ≠ candidateOid || job.expectedRemoteOid ≠ expectedRemoteOid)
        (.conflict "publication key already binds different input")
      return (store, job)
  | none, some job =>
      raiseIf (job.expectedRemoteOid ≠ expectedRemoteOid) (.conflict "candidate already binds another remote base")
      let keyed ← store.insertKey ⟨key, job.jobId, candidateOid, expectedRemoteOid⟩
      return (keyed, job)
  | none, none =>
      let job : Job := ⟨jobId, key, candidateOid, expectedRemoteOid, .queued, none, none, none, none, now, now⟩
      let admitted ← store.insertJob job
      let keyed ← admitted.insertKey ⟨key, jobId, candidateOid, expectedRemoteOid⟩
      let row ← orRaise (keyed.select jobId) (.runtimeError "publication admission was not visible")
      return (keyed, row)

/-- Lease one queued job. The caller owns at most the lease that it has brought. -/
def claimPublication (lease : String) (now : Nat) : Receipts.Outcome (Store × Option Job) := do
  raiseIf (!isIdentifier jobId || !isIdentifier lease) (.valueError "invalid publication claim")
  match store.select jobId with
  | none => return (store, none)
  | some row =>
      if row.phase ≠ .queued then return (store, none)
      else do
        let claimed := store.update jobId (fun job => job.phase = .queued) fun job =>
          { job with
            phase := .publishing, publisherLease := some lease,
            publisherLeaseExpires := some (now + leaseMilliseconds), errorCode := none, updatedAt := now }
        let hidden : Receipts.Fault := .runtimeError "publication claim was not visible"
        let current ← orRaise (claimed.select jobId) hidden
        raiseIf (current.phase ≠ .publishing) hidden
        return (claimed, some current)

/-- The lease under which a publisher writes, and it has not run out. -/
def Job.leasedBy (job : Job) (lease : String) (now : Nat) : Bool :=
  job.phase = .publishing && job.publisherLease = some lease && job.publisherLeaseExpires.any (now ≤ ·)

/-- Fence the write of an outcome against the expiry of the lease. -/
def finishOwnedPublication (lease : String) (phase : Phase) (observedRemoteOid errorCode : Option String) (now : Nat) :
    Receipts.Outcome Store := do
  let fenced : Job → Bool := fun job => job.leasedBy lease now
  if store.matched jobId fenced = 1 then
    return store.update jobId fenced fun job =>
      { job with phase, observedRemoteOid, errorCode, publisherLeaseExpires := none, updatedAt := now }
  else
    raiseIf ((store.select jobId).any fun job => job.phase = .publishing && job.publisherLease = some lease)
      (.runtimeError "publication lease has expired")
    throw (.runtimeError "publication job changed while finishing")

/-- Record a verified outcome for the publisher that owns the job. -/
def finishPublication (lease : String) (phase : Phase) (observedRemoteOid errorCode : Option String) (now : Nat) :
    Receipts.Outcome (Store × Job) := do
  raiseIf (!isIdentifier jobId || !isIdentifier lease || !([.published, .rejected, .ambiguous].contains phase)
    || observedRemoteOid.any (fun oid => !isCommit oid) || errorCode.any (fun code => !isToken code)
    || (phase = .published && observedRemoteOid.isNone) || (phase = .ambiguous && observedRemoteOid.isSome)
    || (phase ≠ .published && errorCode.isNone)) (.valueError "invalid publication outcome")
  let row ← orRaise (store.select jobId) (.runtimeError "unknown publication job")
  if row.phase = phase then do
    raiseIf (row.publisherLease ≠ some lease || row.observedRemoteOid ≠ observedRemoteOid || row.errorCode ≠ errorCode)
      (.conflict "publication outcome differs")
    return (store, row)
  else do
    raiseIf (row.phase ≠ .publishing || row.publisherLease ≠ some lease)
      (.runtimeError "publication job is not owned by this publisher")
    raiseIf (phase = .published && observedRemoteOid ≠ some row.candidateOid)
      (.valueError "published observation must equal candidate")
    let finished ← finishOwnedPublication store jobId lease phase observedRemoteOid errorCode now
    let hidden : Receipts.Fault := .runtimeError "publication outcome was not visible"
    let current ← orRaise (finished.select jobId) hidden
    raiseIf (current.phase ≠ phase) hidden
    return (finished, current)

/-- What an observation of the remote branch says about a job without a live publisher. Only the
exact base brings it back to the queue. -/
def Job.recovered (job : Job) (observedRemoteOid : String) : Phase × Option String :=
  if observedRemoteOid = job.candidateOid then (.published, none)
  else if observedRemoteOid = job.expectedRemoteOid then (.queued, none)
  else (.rejected, some "REMOTE_BASE_CHANGED")

def recoverPublication (observedRemoteOid : String) (now : Nat) : Receipts.Outcome (Store × Job) := do
  raiseIf (!isIdentifier jobId || !isCommit observedRemoteOid) (.valueError "invalid publication recovery")
  let row ← orRaise (store.select jobId) (.runtimeError "unknown publication job")
  raiseIf (row.phase ≠ .publishing && row.phase ≠ .ambiguous) (.runtimeError "publication job is not recoverable")
  let (phase, error) := row.recovered observedRemoteOid
  let idle : Job → Bool := fun job =>
    job.phase = .ambiguous || (job.phase = .publishing && job.publisherLeaseExpires.any (· < now))
  let recovered := store.update jobId idle fun job =>
    { job with
      phase, publisherLease := none, publisherLeaseExpires := none, observedRemoteOid := some observedRemoteOid,
      errorCode := error, updatedAt := now }
  raiseIf (store.matched jobId idle ≠ 1 && row.phase = .publishing) (.runtimeError "publication lease is still active")
  raiseIf (store.matched jobId idle ≠ 1) (.runtimeError "publication job changed while recovering")
  let hidden : Receipts.Fault := .runtimeError "publication recovery was not visible"
  let current ← orRaise (recovered.select jobId) hidden
  raiseIf (current.phase ≠ phase) hidden
  return (recovered, current)

/-- What an observation says about a queued candidate that is no longer the local head. -/
def Job.superseded (job : Job) (observedRemoteOid : String) : Phase × Option String :=
  if observedRemoteOid = job.candidateOid then (.published, none)
  else if observedRemoteOid = job.expectedRemoteOid then (.rejected, some "LOCAL_HEAD_SUPERSEDED")
  else (.rejected, some "REMOTE_BASE_CHANGED")

def resolveSupersededPublication (observedRemoteOid : String) (now : Nat) : Receipts.Outcome (Store × Job) := do
  raiseIf (!isIdentifier jobId || !isCommit observedRemoteOid) (.valueError "invalid superseded publication resolution")
  let row ← orRaise (store.select jobId) (.runtimeError "unknown publication job")
  raiseIf (row.phase ≠ .queued) (.runtimeError "publication job is not queued")
  let (phase, error) := row.superseded observedRemoteOid
  let waiting : Job → Bool := fun job => job.phase = .queued
  let resolved := store.update jobId waiting fun job =>
    { job with phase, observedRemoteOid := some observedRemoteOid, errorCode := error, updatedAt := now }
  raiseIf (store.matched jobId waiting ≠ 1) (.runtimeError "publication job changed while resolving")
  let hidden : Receipts.Fault := .runtimeError "publication resolution was not visible"
  let current ← orRaise (resolved.select jobId) hidden
  raiseIf (current.phase ≠ phase) hidden
  return (resolved, current)

end calls

end Coordinator.Publication
