import Coordinator.UpgradeIdentity

/-! The admission of the phases of an upgrade: what a snapshot of the authority has to prove
before staging, while the barrier is held, before the replacement and before work reopens. -/

namespace Coordinator.Upgrade
open Kit

/-- The phases, in the order in which an upgrade goes through them. -/
inductive Phase where
  | discover
  | preflight
  | quiesce
  | backup
  | stage
  | commit
  | validate
  | reopen
  deriving DecidableEq

def phases : List Phase := [.discover, .preflight, .quiesce, .backup, .stage, .commit, .validate, .reopen]

namespace Phase

def text : Phase → String
  | discover => "discover"
  | preflight => "preflight"
  | quiesce => "quiesce"
  | backup => "backup"
  | stage => "stage"
  | commit => "commit"
  | validate => "validate"
  | reopen => "reopen"

end Phase

def preflightPredicates : List String :=
  ["release_authentic", "runtime_supported", "state_clean", "state_synchronized", "no_divergence", "no_active_leases",
    "no_wrapped_commands", "no_reconciliation", "no_publication", "binding_valid", "backend_valid", "vendor_valid",
    "disk_capacity_ok", "scratch_capacity_ok", "backup_destination_restorable"]

def quiescencePredicates : List String :=
  ["maintenance_barrier", "barrier_acquired_before_quiescence", "workers_drained", "leases_fenced",
    "wrapped_commands_drained", "reconciliation_stopped", "publication_stopped"]

def reopenPredicates : List String :=
  ["maintenance_barrier", "barrier_reopen_verified", "functional_available", "runtime_validated",
    "backend_roundtrip_valid", "projections_valid", "binding_valid", "lease_fence_valid"]

def knownFields : List String :=
  preflightPredicates ++ quiescencePredicates ++ reopenPredicates ++ envelopeFields ++
    ["durable_barrier_id", "barrier_status", "reopen_barrier_status", "validation_failed", "safe_mode_ready"]

def isTrue : Json → Bool
  | .bool value => value
  | _ => false

/-- All refusals are of one class; their message is not recorded. -/
def admissionError : Fault := .other "AdmissionError"

def require (snapshot : Dict) (predicates : List String) : Outcome Unit := do
  raiseIf (snapshot.keys.any (fun key => !knownFields.contains key)) admissionError
  raiseIf (validateEnvelope (selectFields snapshot envelopeFields)).isNone admissionError
  raiseIf (predicates.any (fun name => !isTrue (snapshot.get name))) admissionError

def admitPreflight (snapshot : Dict) : Outcome Unit := require snapshot preflightPredicates

def admitQuiesced (snapshot : Dict) : Outcome Unit := do
  require snapshot quiescencePredicates
  raiseIf ((snapshot.get "durable_barrier_id").text == "") admissionError
  raiseIf (snapshot.get "barrier_status" != .str "held") admissionError

def recheckBeforeReplacement (admitted current : Dict) : Outcome Unit := do
  admitQuiesced admitted
  admitQuiesced current
  raiseIf (envelopeFields.any (fun field => admitted.get field != current.get field)) admissionError

def admitReopen (snapshot : Dict) : Outcome Unit := do
  require snapshot reopenPredicates
  raiseIf (!(["new", "rollback"]).contains (snapshot.get "target").text) admissionError
  raiseIf ((snapshot.get "durable_barrier_id").text == "") admissionError
  raiseIf (snapshot.get "reopen_barrier_status" != .str "released") admissionError
  let failed := (snapshot.find "validation_failed").getD (.bool false)
  raiseIf (!failed.isBool) admissionError
  raiseIf (isTrue failed) admissionError

/-- The snapshot that a result holds under a name, or else the result itself. -/
def snapshotOf (result : Dict) (name message : String) : Outcome Dict :=
  match (result.find name).getD (.obj result) with
  | .obj snapshot => .ok snapshot
  | _ => .error (.upgradeError message)

/-- The native admission of a phase, of a snapshot before it or of its result. -/
def admitPhase (phase : Phase) (result : Dict) : Outcome Unit :=
  match phase with
  | .preflight => do admitPreflight (← snapshotOf result "preflight_snapshot" "preflight admission snapshot is absent")
  | .quiesce => do admitQuiesced (← snapshotOf result "quiescence_snapshot" "quiescence admission snapshot is absent")
  | .commit => do
      let admitted ← snapshotOf result "admitted_snapshot" "replacement admission snapshots are absent"
      let current ← snapshotOf result "current_snapshot" "replacement admission snapshots are absent"
      recheckBeforeReplacement admitted current
  | .reopen => do admitReopen (← snapshotOf result "reopen_snapshot" "reopen admission snapshot is absent")
  | _ => .ok ()

end Coordinator.Upgrade
