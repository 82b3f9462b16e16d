import Coordinator.BarrierSession
import Coordinator.Kit.Durable
import Coordinator.Kit.Table

/-! The durable store of the barrier session of one project: its current row, the rows that later
sessions replaced, and the journals of session intents and of authority effects. -/

namespace Coordinator.BarrierSession
open Kit

inductive IntentOutcome
  | prepared
  | committed
  | ambiguous
  | reconciled
  deriving DecidableEq

structure SessionIntent where
  intentId : Nat
  attemptId : String
  expectedRevision : Nat
  proposedRevision : Nat
  proposedStatus : Status
  identityDigest : String
  outcome : IntentOutcome
  deriving DecidableEq

/-- The admission identities of an effect, all of which are given or none. -/
structure AdmissionIdentities where
  artifact : Option String := none
  manifest : Option String := none
  selector : Option String := none
  runtime : Option String := none
  deriving DecidableEq

namespace AdmissionIdentities

variable (admission : AdmissionIdentities)

def values : List (Option String) := [admission.artifact, admission.manifest, admission.selector, admission.runtime]

def blank : Bool := admission.values.contains (some "")

def incomplete : Bool := admission.values.any Option.isNone && admission.values.any Option.isSome

end AdmissionIdentities

structure AuthorityEffectIntent where
  intentId : Nat
  operationId : String
  backend : String
  target : Target
  attemptId : String
  identityDigest : String
  fencingToken : String
  sessionRevision : Nat
  admission : AdmissionIdentities
  deriving DecidableEq

inductive EffectOutcome
  | prepared
  | committed
  | rejected
  | ambiguous
  deriving DecidableEq

structure EffectRow where
  intent : AuthorityEffectIntent
  outcome : EffectOutcome
  deriving DecidableEq

structure SessionStore where
  row : Option BarrierSessionState
  history : List BarrierSessionState
  intents : List SessionIntent
  effects : List EffectRow
  deriving DecidableEq

namespace SessionStore

def empty : SessionStore := ⟨none, [], [], []⟩

theorem empty_row (row : BarrierSessionState) : SessionStore.empty.row ≠ some row := Option.some_ne_none row ∘ Eq.symm

variable (db : SessionStore)

/-- An archived session takes the place of the record of an earlier attempt of its name. -/
def archive (session : BarrierSessionState) (history : List BarrierSessionState) : List BarrierSessionState :=
  history.filter (fun old => old.identity.attemptId != session.identity.attemptId) ++ [session]

def preparedIntents : List SessionIntent := db.intents.filter (·.outcome == .prepared)

def preparedEffects : List EffectRow := db.effects.filter (·.outcome == .prepared)

/-- Settle the prepared intents that are chosen. -/
def settle (chosen : SessionIntent → Bool) (outcome : IntentOutcome) : List SessionIntent :=
  db.intents.map (fun intent => if intent.outcome == .prepared && chosen intent then { intent with outcome } else intent)

def settleEffects (chosen : EffectRow → Bool) (outcome : EffectOutcome) : List EffectRow :=
  db.effects.map (fun row => if row.outcome == .prepared && chosen row then { row with outcome } else row)

end SessionStore

/-- What rereading the revision of the authority gives, where a reader is configured. -/
inductive Reading
  | notConfigured
  | failed
  | revision (value : String)

/-- The commits of one operation, each of which may raise. -/
inductive Site
  | session
  | publication
  | fence
  deriving DecidableEq

section store

variable (fates : Site → Fate) (project : String) (db : SessionStore)

abbrev Program (α : Type) := Trace SessionStore Fault α

def readRow (row : BarrierSessionState) : Outcome BarrierSessionState := do
  refuseIf (!row.identity.valid) "barrier session identity is invalid"
  refuseIf (row.identity.projectId != project) "barrier session project binding mismatch"
  pure row

def snapshotLocked : Outcome (Option BarrierSessionState) :=
  match db.row with
  | none => .ok none
  | some row => (readRow project row).map some

/-- The current session, which has to be there. -/
def currentSession (missing : String) : Outcome BarrierSessionState := do
  let found ← snapshotLocked project db
  orRaise found (.controlStore missing)

/-! Fences after a commit that raised. -/

def commitUncertain : Fault := .controlStore "barrier session commit outcome is ambiguous; durable state must be rechecked"

def notFenced : Fault := .controlStore "barrier session commit outcome is ambiguous and could not be durably fenced"

/-- The store with the session fenced whose commit raised. Where no row is durable one is inserted for the session
that was supplied. -/
def fenceSession (supplied : BarrierSessionState) (expectedRevision : Nat) : Outcome SessionStore :=
  match db.row with
  | none => do
      let ambiguous ← BarrierSessionState.make { supplied.toSessionFields with status := .ambiguous, revision := expectedRevision + 1 }
      pure { db with row := some ambiguous }
  | some row => do
      let current ← readRow project row
      pure { db with row := some current.fenced }

def markAmbiguousAfterCommitFailure {α : Type} (supplied : BarrierSessionState) (expectedRevision : Nat) (durable : SessionStore) :
    Program α :=
  match fenceSession project durable supplied expectedRevision with
  | .error _ => .fail notFenced
  | .ok after => Durable.commit (fates .fence) durable after (fun _ => .fail notFenced) (.fail commitUncertain)

def live (status : Status) : Bool := status == .held || status == .releasing

/-- The store with its session and everything that is prepared fenced. -/
def fenceRecovery : Outcome SessionStore := do
  let latest ← currentSession project db "recovery ambiguity fencing found no session"
  pure { db with
    row := some (if live latest.status then latest.fenced else latest)
    intents := db.settle (fun _ => true) .ambiguous
    effects := db.settleEffects (fun _ => true) .ambiguous }

def markRecoveryAmbiguousAfterCommitFailure {α : Type} (fault : Fault) (durable : SessionStore) : Program α :=
  match fenceRecovery project durable with
  | .error _ => .fail (.controlStore "recovery commit outcome is ambiguous and could not be durably fenced")
  | .ok after =>
      Durable.commit (fates .fence) durable after
        (fun _ => .fail (.controlStore "recovery commit outcome is ambiguous and could not be durably fenced")) (.fail fault)

/-! Compare and swap. -/

def markIntent (intentId : Nat) (outcome : IntentOutcome) : Outcome SessionStore := do
  refuseIf ((db.preparedIntents.filter (·.intentId == intentId)).length != 1) "barrier session intent outcome fence was lost"
  pure { db with intents := db.settle (·.intentId == intentId) outcome }

/-- The intent of a session that is supplied for a row at an expected revision. -/
def intentOf (intentId expectedRevision : Nat) (supplied : BarrierSessionState) : SessionIntent where
  intentId
  attemptId := supplied.identity.attemptId
  expectedRevision
  proposedRevision := supplied.revision
  proposedStatus := supplied.status
  identityDigest := supplied.identity.identityDigest
  outcome := .prepared

/-- The store with a session supplied for its row and the intent of it. -/
def propose (history : List BarrierSessionState) (expectedRevision : Nat) (supplied : BarrierSessionState) : SessionStore :=
  { db with row := some supplied, history, intents := db.intents ++ [intentOf db.intents.length expectedRevision supplied] }

/-- A new session takes the place of a released one. -/
def replacesReleased (current : BarrierSessionState) (expectedRevision : Nat) (supplied : BarrierSessionState) : Bool :=
  expectedRevision == 0 && current.status == .released && supplied.status == .held && supplied.identity != current.identity

def admitCas (expectedRevision : Nat) (supplied : BarrierSessionState) (allowInitialReleased : Bool) : Outcome SessionStore :=
  match db.row with
  | none => do
      refuseIf (expectedRevision != 0) "barrier session does not exist"
      refuseIf (supplied.status != .held && !(allowInitialReleased && supplied.status == .released))
        "new barrier session must start held"
      refuseIf (supplied.revision != 1) "barrier session revision is invalid"
      raiseIf (!supplied.identity.storable) .overflow
      pure (propose db db.history expectedRevision supplied)
  | some row => do
      let current ← readRow project row
      if replacesReleased current expectedRevision supplied then
        refuseIf (supplied.identity.attemptId == current.identity.attemptId ||
          decide (supplied.identity.stateRevision ≤ current.identity.stateRevision))
          "fresh barrier session requires a distinct newer project fence"
        refuseIf (supplied.revision != 1) "barrier session revision is invalid"
        raiseIf (!supplied.identity.storable) .overflow
        pure (propose db (SessionStore.archive current db.history) expectedRevision supplied)
      else
        refuseIf (current.revision != expectedRevision) "barrier session CAS conflict"
        refuseIf (supplied.identity != current.identity) "barrier session identity changed"
        refuseIf (!(statusTransitions current.status).contains supplied.status) "illegal barrier session transition"
        refuseIf (supplied.revision != expectedRevision + 1) "barrier session revision is not monotonic"
        pure (propose db db.history expectedRevision supplied)

def publicationUncertain : Fault :=
  .controlStore "barrier session outcome publication is ambiguous; recovery is required"

/-- Publish the outcome of the intent that the operation has just prepared. -/
def publish {α : Type} (intentId : Nat) (outcome : IntentOutcome) (fault : Fault) (result : α) (durable : SessionStore) : Program α :=
  match markIntent durable intentId outcome with
  | .error _ => .fail fault
  | .ok published =>
      Durable.commit (fates .publication) durable published
        (fun durable => markRecoveryAmbiguousAfterCommitFailure fates project fault durable) (pure result)

def casLocked (expectedRevision : Nat) (supplied : BarrierSessionState) (allowInitialReleased : Bool) : Program BarrierSessionState := do
  let after ← .lift (admitCas project db expectedRevision supplied allowInitialReleased)
  Durable.commit (fates .session) db after
    (fun durable => markAmbiguousAfterCommitFailure fates project supplied expectedRevision durable)
    (publish fates project db.intents.length .committed publicationUncertain supplied after)

/-- The authority is still at the revision at which the session was acquired. -/
def sameAuthority (reading : Reading) (identity : BarrierSessionIdentity) : Outcome Unit :=
  match reading with
  | .notConfigured => .ok ()
  | .failed => .error (.controlStore "fresh authority reread failed")
  | .revision current => do
      refuseIf (current == "") "fresh authority revision is invalid"
      refuseIf (current != identity.authorityRevisionAtAcquire) "barrier session authority revision changed"

def cas (reading : Reading) (expectedRevision : Nat) (state : BarrierSessionState) : Program BarrierSessionState := do
  .lift (refuseIf (state.identity.projectId != project) "barrier session project binding mismatch")
  .lift (refuseIf (state.status == .released && expectedRevision == 0) "new barrier session must start held")
  .lift (sameAuthority reading state.identity)
  casLocked fates project db expectedRevision state false

def initialState (identity : BarrierSessionIdentity) (status : Status) : BarrierSessionState :=
  ⟨{ identity, status, revision := 1 }, postInit_eq_ok.mpr ⟨Nat.le_refl 1, fun _ => rfl, nofun, rfl⟩⟩

def create (reading : Reading) (identity : BarrierSessionIdentity) : Program BarrierSessionState :=
  cas fates project db reading 0 (initialState identity .held)

def provisionReleased (identity : BarrierSessionIdentity) : Program BarrierSessionState := do
  .lift (refuseIf (identity.projectId != project) "barrier session project binding mismatch")
  let found ← .lift (snapshotLocked project db)
  match found with
  | some current =>
      if current.status = .released ∧ current.identity = identity then pure current
      else .fail (.controlStore "barrier baseline already exists")
  | none => casLocked fates project db 0 (initialState identity .released) true

/-- A reader has to be configured for the operations under the locks of a caller. -/
def freshAuthority (reading : Reading) (identity : BarrierSessionIdentity) : Outcome Unit :=
  match reading with
  | .notConfigured => .error (.controlStore "fresh authority rereader is required")
  | other => sameAuthority other identity

/-- The reread of a held session under the locks of a caller. -/
def recheckHeldLocked (reading : Reading) (expectedIdentity : BarrierSessionIdentity) (expectedRevision : Nat) :
    Outcome BarrierSessionState := do
  refuseIf (expectedRevision < 1) "barrier session expected revision is invalid"
  let current ← currentSession project db "barrier session is absent"
  refuseIf (current.revision != expectedRevision) "barrier session CAS conflict"
  refuseIf (current.identity != expectedIdentity) "barrier session identity changed"
  refuseIf (current.status != .held) "barrier session is not held"
  freshAuthority reading current.identity
  pure current

/-- Compare and swap of a held session under the locks of a caller. -/
def casHeld (reading : Reading) (expectedIdentity : BarrierSessionIdentity) (expectedRevision : Nat) (state : BarrierSessionState) :
    Program BarrierSessionState := do
  .lift (refuseIf (state.identity != expectedIdentity || !live state.status) "barrier session write identity is invalid")
  let _ ← .lift (recheckHeldLocked project db reading expectedIdentity expectedRevision)
  casLocked fates project db expectedRevision state false

/-! The typed transitions work on a snapshot that was read before, under locks that were given back since. -/

def typed (view : Option BarrierSessionState) (reading : Reading) (expectedRevision : Nat)
    (transition : BarrierSessionState → Outcome BarrierSessionState) : Program BarrierSessionState := do
  let current ← .lift (orRaise view (.controlStore "barrier session is absent"))
  let next ← .lift (transition current)
  cas fates project db reading expectedRevision next

def bindChild (view : Option BarrierSessionState) (reading : Reading) (expectedRevision : Nat) (child : BarrierChildIdentity) :
    Program BarrierSessionState :=
  typed fates project db view reading expectedRevision
    (fun current => BarrierSessionContract.bindChild current expectedRevision child)

def beginReopen (view : Option BarrierSessionState) (reading : Reading) (expectedRevision : Nat) (target : String)
    (evidence : Option Dict) : Program BarrierSessionState :=
  typed fates project db view reading expectedRevision
    (fun current => BarrierSessionContract.beginReopen current expectedRevision target evidence)

def completeReopen (view : Option BarrierSessionState) (reading : Reading) (expectedRevision : Nat) (evidence : Option Dict) :
    Program BarrierSessionState :=
  typed fates project db view reading expectedRevision
    (fun current => BarrierSessionContract.completeReopen current expectedRevision evidence)

def markAmbiguous (view : Option BarrierSessionState) (reading : Reading) (expectedRevision : Nat) (causeCode : String) :
    Program BarrierSessionState :=
  typed fates project db view reading expectedRevision
    (fun current => BarrierSessionContract.markAmbiguous current expectedRevision causeCode)

/-! Recovery. -/

/-- The intent belongs to a session of this name and identity. -/
def namesSession (current : BarrierSessionState) (intent : SessionIntent) : Bool :=
  intent.attemptId == current.identity.attemptId && intent.identityDigest == current.identity.identityDigest

def matchesCurrent (current : BarrierSessionState) (intent : SessionIntent) : Bool :=
  intent.proposedRevision == current.revision && intent.expectedRevision + 1 == current.revision &&
    intent.proposedStatus == current.status

def matchesInterruptedRecovery (current : BarrierSessionState) (intent : SessionIntent) : Bool :=
  current.status == .ambiguous && intent.proposedRevision + 1 == current.revision &&
    intent.expectedRevision + 1 == intent.proposedRevision && live intent.proposedStatus

def isInterruptedReconciliation (current : BarrierSessionState) (intent : SessionIntent) : Bool :=
  current.status == .held && intent.proposedStatus == .held && intent.proposedRevision == current.revision &&
    intent.expectedRevision == current.revision + 1

def preparedIntentMatches (current : BarrierSessionState) (intent : SessionIntent) : Bool :=
  namesSession current intent &&
    (matchesCurrent current intent || matchesInterruptedRecovery current intent || isInterruptedReconciliation current intent)

/-- The first archived session at the revision that the intent expects is an ambiguous predecessor. -/
def reconciliationHistoryMatches (current : BarrierSessionState) (intent : SessionIntent) : Bool :=
  match db.history.find? (fun old => old.revision == intent.expectedRevision) with
  | none => false
  | some previous =>
      previous.identity.valid && previous.identity.projectId == project && previous.status == .ambiguous &&
        previous.identity != current.identity && decide (previous.identity.stateRevision < current.identity.stateRevision)

def recoveryUncertain : Fault := .controlStore "recovery commit outcome is ambiguous; durable state must be rechecked"

/-- Settle every prepared intent in one commit. -/
def settlePrepared (outcome : IntentOutcome) (current : BarrierSessionState) (durable : SessionStore) : Program BarrierSessionState :=
  Durable.commit (fates .publication) durable { durable with intents := durable.settle (fun _ => true) outcome }
    (fun durable => markRecoveryAmbiguousAfterCommitFailure fates project recoveryUncertain durable) (pure current)

def recoverPrepared : Program BarrierSessionState := do
  let current ← .lift (currentSession project db "prepared session intent has no session")
  .lift (refuseIf (!db.preparedIntents.all (preparedIntentMatches current)) "prepared session intent identity is invalid")
  if db.preparedIntents.all (isInterruptedReconciliation current) then
    .lift (refuseIf (!db.preparedIntents.all (reconciliationHistoryMatches project db current)) "prepared reconciliation history is invalid")
    settlePrepared fates project .reconciled current db
  else if current.status = .ambiguous then settlePrepared fates project .ambiguous current db
  else
    .lift (refuseIf (!live current.status) "unknown session outcome lost its row fence")
    let fencedStore := { db with row := some current.fenced }
    Durable.commit (fates .session) db fencedStore
      (fun durable => markRecoveryAmbiguousAfterCommitFailure fates project recoveryUncertain durable)
      (settlePrepared fates project .ambiguous current.fenced fencedStore)

def effectNamesSession (current : BarrierSessionState) (intent : AuthorityEffectIntent) : Bool :=
  intent.attemptId == current.identity.attemptId && intent.identityDigest == current.identity.identityDigest &&
    intent.fencingToken == current.identity.fencingToken

def recoverPreparedEffects : Program BarrierSessionState := do
  let current ← .lift (currentSession project db "prepared authority effect has no session")
  .lift (refuseIf (!db.preparedEffects.all (fun row => effectNamesSession current row.intent &&
    (row.intent.sessionRevision == current.revision || row.intent.sessionRevision + 1 == current.revision)))
    "prepared authority effect identity is invalid")
  let next := if current.status = .held then current.fenced else current
  Durable.commit (fates .session) db
    { db with row := some next, effects := db.settleEffects (fun _ => true) .ambiguous }
    (fun durable => markRecoveryAmbiguousAfterCommitFailure fates project recoveryUncertain durable) (pure next)

def recoverUnknown : Program (Option BarrierSessionState) :=
  if db.preparedEffects ≠ [] then some <$> recoverPreparedEffects fates project db
  else if db.preparedIntents ≠ [] then some <$> recoverPrepared fates project db
  else .lift (snapshotLocked project db)

def rejectIf (bad : Bool) (message : String) : Outcome Unit := raiseIf bad (.recoveryRejected message)

/-- The replacement was acquired at the revision at which the authority is now. -/
def replacementAuthority (reading : Reading) (identity : BarrierSessionIdentity) : Outcome Unit :=
  match reading with
  | .notConfigured => .error (.recoveryRejected "fresh authority rereader is required")
  | .failed => .error (.recoveryRejected "fresh authority reread failed")
  | .revision fresh => do
      rejectIf (fresh == "") "fresh authority revision is invalid"
      rejectIf (fresh != identity.authorityRevisionAtAcquire) "replacement authority revision changed"

/-- A fence that is newer and shares nothing with the ambiguous one. -/
def freshFence (current replacement : BarrierSessionIdentity) : Bool :=
  replacement.attemptId != current.attemptId && decide (current.stateRevision < replacement.stateRevision) &&
    replacement.durableBarrierId != current.durableBarrierId && replacement.fencingToken != current.fencingToken

def admitReconciliation (reading : Reading) (expectedRevision : Nat) (replacement : BarrierSessionState) : Outcome SessionStore := do
  rejectIf (expectedRevision < 1) "barrier session expected revision is invalid"
  rejectIf (replacement.status != .held || replacement.revision != 1 || replacement.identity.projectId != project)
    "ambiguous reconciliation requires a new held session"
  let found ← snapshotLocked project db
  let current ← orRaise (found.filter (·.status == .ambiguous)) (.recoveryRejected "only ambiguous sessions require reconciliation")
  rejectIf (current.revision != expectedRevision) "barrier session CAS conflict"
  rejectIf (!freshFence current.identity replacement.identity) "ambiguous reconciliation requires a distinct newer fence"
  rejectIf (db.preparedIntents != [] || db.preparedEffects != []) "ambiguous reconciliation has unresolved intent"
  replacementAuthority reading replacement.identity
  raiseIf (!replacement.identity.storable) .overflow
  pure (propose db (SessionStore.archive current db.history) expectedRevision replacement)

def reconcileAmbiguous (reading : Reading) (expectedRevision : Nat) (replacement : BarrierSessionState) : Program BarrierSessionState := do
  let after ← .lift (admitReconciliation project db reading expectedRevision replacement)
  Durable.commit (fates .session) db after
    (fun durable => markAmbiguousAfterCommitFailure fates project replacement expectedRevision durable)
    (match markIntent after db.intents.length .reconciled with
      | .error _ => .fail (.controlStore "barrier session reconciliation outcome is ambiguous; recovery is required")
      | .ok published =>
          Durable.commit (fates .publication) after published
            (fun _ => .fail (.controlStore "barrier session reconciliation outcome is ambiguous; recovery is required"))
            (pure replacement))

/-! Authority effects. -/

structure EffectRequest where
  expectedRevision : Nat
  operationId : String
  backend : String
  target : String
  fencingToken : Option String := none
  barrierId : Option String := none
  admission : AdmissionIdentities := {}

/-- An operation that names a child is the child bound for its target, or a part of it. -/
def registeredChild (current : BarrierSessionState) (operationId : String) (target : Target) : Bool :=
  if Text.contains '.' operationId || Text.contains ':' operationId then
    match current.childFor target with
    | none => true
    | some child =>
        (child.operationId == operationId ||
          child.operationId == String.ofList ((operationId.toList.reverse.dropWhile (· != ':')).drop 1).reverse &&
            Text.contains ':' operationId) &&
          child.target == target
  else true

def admitEffect (request : EffectRequest) : Outcome (SessionStore × AuthorityEffectIntent) := do
  refuseIf (request.expectedRevision < 1) "authority effect session revision is invalid"
  refuseIf (request.operationId == "" || request.backend == "" || request.target == "") "authority effect identity is invalid"
  refuseIf (!(["git", "sqlite"].contains request.backend)) "authority effect backend or target is invalid"
  let target ← orRaise (Target.ofText? request.target) (.controlStore "authority effect backend or target is invalid")
  refuseIf (request.fencingToken == some "") "authority effect fencing token is invalid"
  refuseIf (request.barrierId == some "") "authority effect barrier identity is invalid"
  refuseIf request.admission.blank "authority effect admission identity is invalid"
  refuseIf request.admission.incomplete "authority effect admission identity is incomplete"
  let found ← snapshotLocked project db
  let current ← orRaise (found.filter (·.status == .held)) (.controlStore "authority effect requires a held barrier session")
  refuseIf (!registeredChild current request.operationId target) "authority effect operation is not the registered barrier child"
  refuseIf (current.revision != request.expectedRevision) "authority effect session revision conflict"
  refuseIf (request.fencingToken.any (· != current.identity.fencingToken)) "authority effect fencing token conflict"
  refuseIf (request.barrierId.any (· != current.identity.durableBarrierId)) "authority effect barrier identity conflict"
  refuseIf (db.preparedEffects != []) "authority effect has unresolved intent"
  refuseIf (db.effects.any (fun row => row.intent.operationId == request.operationId))
    "authority effect operation was already recorded"
  let intent : AuthorityEffectIntent :=
    { intentId := db.effects.length, operationId := request.operationId, backend := request.backend, target,
      attemptId := current.identity.attemptId, identityDigest := current.identity.identityDigest,
      fencingToken := current.identity.fencingToken, sessionRevision := current.revision, admission := request.admission }
  pure ({ db with effects := db.effects ++ [⟨intent, .prepared⟩] }, intent)

/-- The journal entry of an effect is committed before the effect; a commit that raises is not handled here. -/
def prepareAuthorityEffect (request : EffectRequest) : Program AuthorityEffectIntent := do
  let (after, intent) ← .lift (admitEffect project db request)
  Durable.commit (fates .session) db after (fun _ => .fail .database) (pure intent)

def optionValue : Option String → Json
  | some word => .str word
  | none => .null

/-- A receipt of a committed effect agrees with every field that was admitted. -/
def receiptMatches (intent : AuthorityEffectIntent) (receipt : Dict) : Bool :=
  receipt.get "backend" == .str intent.backend && receipt.get "target" == .str intent.target.text &&
    receipt.get "operation_id" == .str intent.operationId && receipt.get "state_revision" == .int intent.sessionRevision &&
    receipt.get "artifact_identity" == optionValue intent.admission.artifact &&
    receipt.get "manifest_identity" == optionValue intent.admission.manifest &&
    receipt.get "selector_identity" == optionValue intent.admission.selector &&
    receipt.get "runtime_identity" == optionValue intent.admission.runtime &&
    receipt.get "fencing_token" == .str intent.fencingToken && receipt.get "mutates_authority" == .bool true

def effectIntentMatches (current : BarrierSessionState) (intent : AuthorityEffectIntent) : Bool :=
  current.status == .held && current.revision == intent.sessionRevision && effectNamesSession current intent

def admitFinish (intent : AuthorityEffectIntent) (outcome : EffectOutcome) (receipt : Dict) :
    Outcome (SessionStore × BarrierSessionState) := do
  refuseIf (outcome == .prepared) "authority effect outcome is invalid"
  refuseIf (outcome == .committed && intent.admission.artifact.isSome && !receiptMatches intent receipt)
    "authority effect receipt identity mismatch"
  let found ← snapshotLocked project db
  let current ← orRaise (found.filter (effectIntentMatches · intent)) (.controlStore "authority effect session identity changed")
  refuseIf ((db.preparedEffects.filter (·.intent.intentId == intent.intentId)).length != 1)
    "authority effect intent outcome fence was lost"
  let next := if outcome = .ambiguous then current.fenced else current
  pure ({ db with row := some next, effects := db.settleEffects (·.intent.intentId == intent.intentId) outcome }, next)

def finishAuthorityEffect (intent : AuthorityEffectIntent) (outcome : EffectOutcome) (receipt : Dict) : Program BarrierSessionState := do
  let (after, next) ← .lift (admitFinish project db intent outcome receipt)
  Durable.commit (fates .session) db after
    (fun durable => markRecoveryAmbiguousAfterCommitFailure fates project
      (.controlStore "authority effect outcome publication is ambiguous; recovery is required") durable)
    (pure next)

end store

end Coordinator.BarrierSession
