import Coordinator.UpgradeIdentity

/-! Barrier sessions: the target-neutral identity that a forward and a rollback child share, the
typed state of a session, and the transitions that the contract lets a session take. -/

namespace Coordinator.BarrierSession
open Kit

inductive Fault
  | controlStore (message : String)
  | recoveryRejected (message : String)
  | upgradeIdentity (message : String)
  | overflow
  | database
  deriving DecidableEq

abbrev Outcome (α : Type) := Except Fault α

/-- Refuse as the control store does. -/
def refuseIf (bad : Bool) (message : String) : Outcome Unit := raiseIf bad (.controlStore message)

theorem refuseIf_eq_ok {bad : Bool} {message : String} {u : Unit} : refuseIf bad message = .ok u ↔ bad = false :=
  raiseIf_eq_ok

inductive Status
  | held
  | releasing
  | released
  | ambiguous
  deriving DecidableEq

def statusTransitions : Status → List Status
  | .held => [.held, .releasing, .ambiguous]
  | .releasing => [.releasing, .released, .ambiguous]
  | .released => [.released]
  | .ambiguous => []

inductive Target
  | new
  | rollback
  deriving DecidableEq

def Target.text : Target → String
  | .new => "new"
  | .rollback => "rollback"

def Target.ofText? (text : String) : Option Target :=
  if text = "new" then some .new else if text = "rollback" then some .rollback else none

structure BarrierSessionIdentity where
  schemaVersion : Int
  projectId : String
  attemptId : String
  stateRevision : Int
  authorityRevisionAtAcquire : String
  durableBarrierId : String
  fencingToken : String
  fencingOwner : String
  identityDigest : String
  deriving DecidableEq

def barrierSessionIdentityFields : List String :=
  ["schema_version", "project_id", "attempt_id", "state_revision", "authority_revision_at_acquire", "durable_barrier_id",
    "fencing_token", "fencing_owner"]

def canonicalBarrierSessionDigest (record : Dict) : String :=
  Sha256.hexdigest (Upgrade.canonicalBytes (Upgrade.selectFields record barrierSessionIdentityFields))

namespace BarrierSessionIdentity

variable (identity : BarrierSessionIdentity)

def asRecord : Dict :=
  [("schema_version", .int identity.schemaVersion), ("project_id", .str identity.projectId),
    ("attempt_id", .str identity.attemptId), ("state_revision", .int identity.stateRevision),
    ("authority_revision_at_acquire", .str identity.authorityRevisionAtAcquire),
    ("durable_barrier_id", .str identity.durableBarrierId), ("fencing_token", .str identity.fencingToken),
    ("fencing_owner", .str identity.fencingOwner), ("identity_digest", .str identity.identityDigest)]

/-- What the validation of an identity record asks for. Identities that are built without it need not satisfy it. -/
def valid : Bool :=
  identity.schemaVersion == 1 && Upgrade.isUuid4 identity.projectId &&
    [identity.attemptId, identity.authorityRevisionAtAcquire, identity.durableBarrierId, identity.fencingToken,
      identity.fencingOwner].all Upgrade.isToken &&
    1 ≤ identity.stateRevision && Text.hexText 64 identity.identityDigest &&
    identity.identityDigest == canonicalBarrierSessionDigest identity.asRecord

/-- An integer that a database column takes. -/
def fitsColumn (value : Int) : Bool := -(2 : Int) ^ 63 ≤ value && value < (2 : Int) ^ 63

def storable : Bool := fitsColumn identity.schemaVersion && fitsColumn identity.stateRevision

end BarrierSessionIdentity

structure BarrierChildIdentity where
  operationId : String
  target : Target
  barrierIdentityDigest : String
  deriving DecidableEq

def isChildToken (s : String) : Bool := Text.shape Text.isAlnum (fun c => Upgrade.isTokenChar c || c == ':') 0 127 s

def BarrierChildIdentity.validateFor (child : BarrierChildIdentity) (session : BarrierSessionIdentity) : Outcome Unit := do
  raiseIf (child.barrierIdentityDigest != session.identityDigest)
    (.upgradeIdentity "barrier child session identity does not match")
  raiseIf (!isChildToken child.operationId) (.upgradeIdentity "barrier child operation identity is invalid")

/-- The fields of a session before they are checked against each other. -/
structure SessionFields where
  identity : BarrierSessionIdentity
  status : Status
  revision : Nat
  forwardChild : Option BarrierChildIdentity := none
  rollbackChild : Option BarrierChildIdentity := none
  reopenTarget : Option Target := none
  deriving DecidableEq

namespace SessionFields

variable (fields : SessionFields)

def children : List BarrierChildIdentity := fields.forwardChild.toList ++ fields.rollbackChild.toList

/-- Both children name one operation. -/
def sharesOperation : Bool :=
  match fields.forwardChild, fields.rollbackChild with
  | some forward, some rollback => forward.operationId == rollback.operationId
  | _, _ => false

def postInit : Outcome Unit := do
  refuseIf (fields.revision < 1) "barrier session revision is invalid"
  refuseIf (fields.status == .held && fields.reopenTarget.isSome) "held barrier session cannot have a reopen target"
  fields.children.forM (fun child => child.validateFor fields.identity)
  refuseIf fields.sharesOperation "barrier child operation identities must be distinct"

/-- The child that a target reopens. -/
def childFor : Target → Option BarrierChildIdentity
  | .new => fields.forwardChild
  | .rollback => fields.rollbackChild

end SessionFields

/-- A session whose fields have passed the checks. -/
structure BarrierSessionState extends SessionFields where
  checked : toSessionFields.postInit = .ok ()
  deriving DecidableEq

namespace BarrierSessionState

/-- Build a session of fields, which are checked. -/
def make (fields : SessionFields) : Outcome BarrierSessionState :=
  match checked : fields.postInit with
  | .ok () => .ok ⟨fields, checked⟩
  | .error fault => .error fault

variable {fields : SessionFields} {state : BarrierSessionState}

theorem make_eq_ok : make fields = .ok state ↔ state.toSessionFields = fields := by
  unfold make
  constructor
  · intro made
    split at made
    · cases made
      rfl
    · cases made
  · rintro rfl
    split
    · rfl
    · next failed => cases state.checked.symm.trans failed

end BarrierSessionState

theorem postInit_eq_ok {fields : SessionFields} :
    fields.postInit = .ok () ↔ 1 ≤ fields.revision ∧ (fields.status = .held → fields.reopenTarget = none) ∧
      (∀ child ∈ fields.children, child.validateFor fields.identity = .ok ()) ∧ fields.sharesOperation = false := by
  have closed : (fields.status == .held && fields.reopenTarget.isSome) = false ↔
      (fields.status = .held → fields.reopenTarget = none) := by
    cases known : fields.status <;> cases fields.reopenTarget <;> simp
  simp only [SessionFields.postInit, bind_eq_ok, exists_unit, refuseIf_eq_ok, forM_eq_ok, closed, decide_eq_false_iff_not, not_lt]

namespace BarrierSessionState

variable (state : BarrierSessionState)

theorem revision_pos : 1 ≤ state.revision := (postInit_eq_ok.mp state.checked).1

/-- A session that leaves its children alone has its fields checked at any later revision. -/
theorem checked_ambiguous : { state.toSessionFields with status := .ambiguous, revision := state.revision + 1 }.postInit = .ok () := by
  obtain ⟨-, -, belongs, apart⟩ := postInit_eq_ok.mp state.checked
  exact postInit_eq_ok.mpr ⟨Nat.le_add_left _ _, nofun, belongs, apart⟩

/-- The session with its status ambiguous, one revision on. -/
def fenced : BarrierSessionState :=
  ⟨{ state.toSessionFields with status := .ambiguous, revision := state.revision + 1 }, state.checked_ambiguous⟩

end BarrierSessionState

/-! Transitions of the contract. -/

def reopenEvidenceFields : List String := ["operation_id", "target", "barrier_identity_digest", "validated"]

def reopenRuntimeEvidenceFields : List String :=
  ["authority_revision", "backend", "backend_roundtrip", "foreign_key_violations", "fencing_token", "integrity_check",
    "project_id", "target", "verified"]

def isTrue : Json → Bool
  | .bool value => value
  | _ => false

namespace BarrierSessionContract

def expect (state : BarrierSessionState) (expectedRevision : Nat) (statuses : List Status) : Outcome Unit := do
  refuseIf (expectedRevision != state.revision) "barrier session revision conflict"
  refuseIf (!statuses.contains state.status) "barrier session transition is not permitted"

def bindChild (state : BarrierSessionState) (expectedRevision : Nat) (child : BarrierChildIdentity) :
    Outcome BarrierSessionState := do
  expect state expectedRevision [.held]
  child.validateFor state.identity
  match child.target with
  | .new => do
      refuseIf state.forwardChild.isSome "forward barrier child is already bound"
      BarrierSessionState.make { state.toSessionFields with revision := state.revision + 1, forwardChild := some child }
  | .rollback => do
      refuseIf state.forwardChild.isNone "rollback child requires a bound forward child"
      refuseIf state.rollbackChild.isSome "rollback barrier child is already bound"
      BarrierSessionState.make { state.toSessionFields with revision := state.revision + 1, rollbackChild := some child }

/-- The evidence names the child of the session that is reopened. -/
def verifiesChild (state : BarrierSessionState) (child : BarrierChildIdentity) (evidence : Dict) : Bool :=
  (Json.obj evidence).hasExactly reopenEvidenceFields && evidence.get "operation_id" == .str child.operationId &&
    evidence.get "target" == .str child.target.text &&
    evidence.get "barrier_identity_digest" == .str state.identity.identityDigest && isTrue (evidence.get "validated")

def beginReopen (state : BarrierSessionState) (expectedRevision : Nat) (childTarget : String)
    (verifiedChildEvidence : Option Dict) : Outcome BarrierSessionState := do
  expect state expectedRevision [.held]
  let target ← orRaise (Target.ofText? childTarget) (.controlStore "reopen child target is invalid")
  let child ← orRaise (state.childFor target) (.controlStore "reopen child is not bound")
  let evidence ← orRaise verifiedChildEvidence (.controlStore "verified child evidence is required to begin reopen")
  refuseIf (!verifiesChild state child evidence) "verified child evidence identity is invalid"
  BarrierSessionState.make { state.toSessionFields with status := .releasing, revision := state.revision + 1, reopenTarget := some target }

def targetValue : Option Target → Json
  | some target => .str target.text
  | none => .null

/-- The evidence is about the authority and the runtime of the session at the child's target. -/
def provesRuntime (state : BarrierSessionState) (child : BarrierChildIdentity) (evidence : Dict) : Bool :=
  (Json.obj evidence).hasExactly reopenRuntimeEvidenceFields &&
    evidence.get "authority_revision" == .str state.identity.authorityRevisionAtAcquire &&
    evidence.get "backend" == .str "sqlite" && evidence.get "backend_roundtrip" == .str "sqlite" &&
    evidence.get "foreign_key_violations" == .int 0 && evidence.get "fencing_token" == .str state.identity.fencingToken &&
    evidence.get "integrity_check" == .str "ok" && evidence.get "project_id" == .str state.identity.projectId &&
    evidence.get "target" == .str child.target.text && isTrue (evidence.get "verified")

def completeReopen (state : BarrierSessionState) (expectedRevision : Nat) (freshRuntimeEvidence : Option Dict) :
    Outcome BarrierSessionState := do
  expect state expectedRevision [.releasing]
  let evidence ← orRaise freshRuntimeEvidence (.controlStore "fresh runtime evidence is required to release barrier")
  refuseIf (!(evidence.get "target" == targetValue state.reopenTarget))
    "fresh runtime evidence target does not match reopen target"
  let child ← orRaise (if evidence.get "target" == .str "rollback" then state.rollbackChild else state.forwardChild)
    (.controlStore "fresh runtime evidence identity is invalid")
  refuseIf (!provesRuntime state child evidence) "fresh runtime evidence identity is invalid"
  BarrierSessionState.make { state.toSessionFields with status := .released, revision := state.revision + 1 }

/-- A cause code has the shape of a token. -/
def markAmbiguous (state : BarrierSessionState) (expectedRevision : Nat) (causeCode : String) :
    Outcome BarrierSessionState := do
  expect state expectedRevision [.held, .releasing]
  refuseIf (!Upgrade.isToken causeCode) "ambiguous barrier cause code is invalid"
  BarrierSessionState.make { state.toSessionFields with status := .ambiguous, revision := state.revision + 1 }

section specs

variable {state next : BarrierSessionState} {expectedRevision : Nat}

theorem expect_eq_ok {statuses : List Status} {u : Unit} :
    expect state expectedRevision statuses = .ok u ↔ expectedRevision = state.revision ∧ state.status ∈ statuses := by
  simp only [expect, bind_eq_ok, exists_unit, refuseIf_eq_ok, bne_eq_false_iff_eq, Bool.not_eq_false', List.contains_iff_mem]

/-- The first child is the forward one, and a rollback child comes after it. -/
theorem bindChild_ok {child : BarrierChildIdentity} (bound : bindChild state expectedRevision child = .ok next) :
    expectedRevision = state.revision ∧ state.status = .held ∧
      (child.target = .new ∧ state.forwardChild = none ∧
          next.toSessionFields = { state.toSessionFields with revision := state.revision + 1, forwardChild := some child } ∨
        child.target = .rollback ∧ state.forwardChild ≠ none ∧ state.rollbackChild = none ∧
          next.toSessionFields = { state.toSessionFields with revision := state.revision + 1, rollbackChild := some child }) := by
  simp only [bindChild, bind_eq_ok, exists_unit, expect_eq_ok, List.mem_singleton] at bound
  obtain ⟨⟨expected, held⟩, -, bound⟩ := bound
  refine ⟨expected, held, ?_⟩
  cases target : child.target with
  | new =>
    simp only [target, bind_eq_ok, exists_unit, refuseIf_eq_ok, BarrierSessionState.make_eq_ok, Option.isSome_eq_false_iff,
      Option.isNone_iff_eq_none] at bound
    exact .inl ⟨rfl, bound⟩
  | rollback =>
    simp only [target, bind_eq_ok, exists_unit, refuseIf_eq_ok, BarrierSessionState.make_eq_ok, Option.isSome_eq_false_iff,
      Option.isNone_eq_false_iff, Option.isNone_iff_eq_none] at bound
    exact .inr ⟨rfl, Option.isSome_iff_ne_none.mp bound.1, bound.2⟩

theorem beginReopen_ok {childTarget : String} {evidence : Option Dict}
    (begun : beginReopen state expectedRevision childTarget evidence = .ok next) :
    expectedRevision = state.revision ∧ state.status = .held ∧ ∃ target child, Target.ofText? childTarget = some target ∧
      state.childFor target = some child ∧
      next.toSessionFields = { state.toSessionFields with
        status := .releasing, revision := state.revision + 1, reopenTarget := some target } := by
  simp only [beginReopen, bind_eq_ok, exists_unit, expect_eq_ok, List.mem_singleton, orRaise_eq_ok, refuseIf_eq_ok,
    BarrierSessionState.make_eq_ok] at begun
  obtain ⟨⟨expected, held⟩, target, named, child, bound, -, -, -, made⟩ := begun
  exact ⟨expected, held, target, child, named, bound, made⟩

/-- A session is released at the target that it is reopened for, with evidence that names that target. -/
theorem completeReopen_ok {evidence : Option Dict} (completed : completeReopen state expectedRevision evidence = .ok next) :
    expectedRevision = state.revision ∧ state.status = .releasing ∧
      (∃ given target, evidence = some given ∧ given.get "target" = .str target ∧ state.reopenTarget.map Target.text = some target) ∧
      next.toSessionFields = { state.toSessionFields with status := .released, revision := state.revision + 1 } := by
  simp only [completeReopen, bind_eq_ok, exists_unit, expect_eq_ok, List.mem_singleton, orRaise_eq_ok, refuseIf_eq_ok,
    BarrierSessionState.make_eq_ok, Bool.not_eq_false'] at completed
  obtain ⟨⟨expected, releasing⟩, given, rfl, aimed, child, -, proven, made⟩ := completed
  refine ⟨expected, releasing, ⟨given, child.target.text, rfl, ?_, ?_⟩, made⟩
  · simp only [provesRuntime, Bool.and_eq_true, Json.beq_str] at proven
    exact proven.1.2
  · -- the evidence names a target as a text, so a target is recorded
    simp only [provesRuntime, Bool.and_eq_true, Json.beq_str] at proven
    rw [proven.1.2] at aimed
    cases recorded : state.reopenTarget with
    | none => simp [recorded, targetValue] at aimed
    | some target =>
      rw [recorded, targetValue, Json.str_beq_str, beq_iff_eq] at aimed
      rw [aimed]
      rfl

theorem markAmbiguous_ok {causeCode : String} (marked : markAmbiguous state expectedRevision causeCode = .ok next) :
    expectedRevision = state.revision ∧ (state.status = .held ∨ state.status = .releasing) ∧
      next.toSessionFields = { state.toSessionFields with status := .ambiguous, revision := state.revision + 1 } := by
  simp only [markAmbiguous, bind_eq_ok, exists_unit, expect_eq_ok, List.mem_cons, List.not_mem_nil, or_false, refuseIf_eq_ok,
    BarrierSessionState.make_eq_ok] at marked
  obtain ⟨⟨expected, alive⟩, -, made⟩ := marked
  exact ⟨expected, alive, made⟩

end specs

end BarrierSessionContract

end Coordinator.BarrierSession
