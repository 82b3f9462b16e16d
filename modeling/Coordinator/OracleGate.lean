import Coordinator.Kit.Frame
import Coordinator.Kit.Run
import Coordinator.Kit.Staged
import Coordinator.OracleLifecycle
import Coordinator.Revision

/-! Gates as staged approvals. A gate that the events have written is valid, its completed stages are
a prefix of its sequence and its open stage is the next one; each accepted event is one move of the
staged approval that the gate stands for. -/

namespace Coordinator.OracleLifecycle
open Kit Dict

/-- An event whose construction has been checked. -/
structure GateEvent where
  event : InteractionEvent
  checked : event.check = .ok ()
  stage : event.stage ∈ gateSequence ++ stageGateSequence
  artifacts : ∀ artifact ∈ event.before ++ event.after, artifact.check = .ok ()

theorem readRefs_record {artifacts : List ArtifactRef} (name : String)
    (checked : ∀ artifact ∈ artifacts, artifact.check = .ok ()) :
    readRefs (.arr (artifacts.map ArtifactRef.asRecord)) name = .ok artifacts := by
  refine mapM_eq_ok fun artifact member => ?_
  have shape : (artifact.asRecord.isObj && artifact.asRecord.has "ref" && artifact.asRecord.has "digest") = true := rfl
  rw [shape]
  change (artifact.check >>= fun _ => pure artifact) = _
  rw [checked artifact member]
  rfl

/-- The record of a checked event is read back. -/
theorem GateEvent.checkRecord (e : GateEvent) : checkRecord e.event.asRecord = .ok () := by
  obtain ⟨event, checked, stage, artifacts⟩ := e
  rw [List.forall_mem_append] at artifacts
  have fields : event.asRecord.hasExactly eventFields = true := by
    simp [InteractionEvent.asRecord, eventFields, Json.hasExactly, Json.isObj, Json.has, Json.fields, Dict.has,
      Dict.find, Dict.keys]
  have known : (gateSequence ++ stageGateSequence).contains (event.asRecord.get "stage").toText = true :=
    List.contains_iff_mem.mpr stage
  have before : readRefs (event.asRecord.get "before") "before" = .ok event.before := readRefs_record _ artifacts.1
  have after : readRefs (event.asRecord.get "after") "after" = .ok event.after := readRefs_record _ artifacts.2
  simp only [OracleLifecycle.checkRecord, fields, known, before, after, Bool.not_true, raiseIf_false, ok_bind]
  exact checked

/-- An artifact that an event can name. -/
def approval : ArtifactRef :=
  { ref := "approval", digest := "sha256:0000000000000000000000000000000000000000000000000000000000000000" }

def eventFor (taskId : String) (revision : Int) (stage action disposition : String) : InteractionEvent :=
  { taskId, taskRevision := revision, stage, action, disposition, before := [approval], after := [approval],
    publicRef := "approval", recordedAt := "2026-01-01T00:00:00+00:00" }

theorem approval_checked : approval.check = .ok () := by decide +kernel

theorem eventFor_checked {taskId stage action disposition : String} {revision : Int} (named : isTaskId taskId = true)
    (positive : 1 ≤ revision) (action_ : actions.contains action = true)
    (disposition_ : dispositions.contains disposition = true) :
    (eventFor taskId revision stage action disposition).check = .ok () := by
  have reference : publicRef "approval" = true := by decide +kernel
  have zoned : zonedText "2026-01-01T00:00:00+00:00" = some true := by decide +kernel
  simp only [InteractionEvent.check, eventFor, bind_eq_ok, raiseIf_eq_ok, orRaise_eq_ok, exists_unit, named, action_,
    disposition_, reference, zoned]
  have later : ¬ revision < 1 := not_lt.mpr positive
  simp [later]

/-- A checked event for any stage, action and disposition that there is. -/
def GateEvent.make {taskId stage action disposition : String} {revision : Int} (named : isTaskId taskId = true)
    (positive : 1 ≤ revision) (stage_ : stage ∈ gateSequence ++ stageGateSequence)
    (action_ : actions.contains action = true) (disposition_ : dispositions.contains disposition = true) : GateEvent where
  event := eventFor taskId revision stage action disposition
  checked := eventFor_checked named positive action_ disposition_
  stage := stage_
  artifacts := by simpa [eventFor] using approval_checked

/-- What the validator of gates has found. -/
structure GateValid (value : Json) : Prop where
  object : value.isObj = true
  fields : gateRequired.all value.has = true
  known : value.fields.keys.all (fun name => (gateRequired ++ gateOptional).contains name) = true
  required : isTrue (value.get "required") = true
  sequence : stageSequenceValid (value.get "stage_sequence") = true
  openStage : (value.get "open_stage").isNull = true ∨ (sequenceOf value).any (· == value.get "open_stage") = true
  completed : (value.get "completed").isArr = true
  listed : ∀ item ∈ (value.get "completed").items, (sequenceOf value).any (· == item) = true
  rounds : roundsValid value = true
  authorized : boolOrAbsent value "authorized" = true
  reconciliation : boolOrAbsent value "reconciliation_required" = true
  session : humanSessionErrors (value.get "human_session") = []
  events : (value.get "events").isArr = true
  bounded : (value.get "events").items.length ≤ 32
  recorded : ∀ item ∈ (value.get "events").items, checkRecord item = .ok ()
  opening : (value.get "human_session").isNull = true ∨ ∃ item ∈ (value.get "events").items,
    (item.get "action" == .str "open" && item.get "task_revision" == (value.get "human_session").get "task_revision") = true

theorem message_eq_nil {bad : Bool} {message : String} {rest : List String} :
    (if bad = true then [message] else rest) = [] ↔ bad = false ∧ rest = [] := by
  cases bad <;> simp

theorem messages_eq_nil {errors rest : List String} :
    (if (!errors.isEmpty) = true then errors else rest) = [] ↔ errors = [] ∧ rest = [] := by
  cases errors <;> simp

theorem gateErrors_eq_nil {value : Json} : gateErrors value = [] ↔ value = .null ∨ GateValid value := by
  rw [← Json.isNull_iff]
  cases absent : value.isNull with
  | true => simp [gateErrors, absent]
  | false =>
    have recorded := @forM_eq_ok _ _ (value.get "events").items checkRecord
    simp only [gateErrors, absent, Bool.false_eq_true, ↓reduceIte, message_eq_nil, messages_eq_nil, false_or]
    cases read : (value.get "events").items.forM checkRecord with
    | error fault =>
      constructor
      · rintro ⟨-, -, -, -, -, -, -, -, -, -, -, bad⟩
        cases fault <;> cases bad
      · intro valid
        cases read.symm.trans (recorded.mpr valid.recorded)
    | ok u =>
      simp only [message_eq_nil, and_true, Bool.not_eq_false', Bool.or_eq_false_iff, Bool.and_eq_false_iff,
        decide_eq_false_iff_not, not_lt, List.any_eq_false, Bool.not_eq_true']
      constructor
      · rintro ⟨object, ⟨fields, known⟩, required, sequence, openStage, ⟨completed, listed⟩, rounds, authorized,
          reconciliation, session, ⟨events, bounded⟩, opening⟩
        refine ⟨object, fields, known, required, sequence, openStage, completed,
          fun item member => by simpa using listed item member, rounds, authorized, reconciliation, session, events,
          bounded, recorded.mp read, ?_⟩
        simpa using opening
      · intro valid
        refine ⟨valid.object, ⟨valid.fields, valid.known⟩, valid.required, valid.sequence, valid.openStage,
          ⟨valid.completed, fun item member => by simpa using valid.listed item member⟩, valid.rounds,
          valid.authorized, valid.reconciliation, valid.session, ⟨valid.events, valid.bounded⟩, ?_⟩
        simpa using valid.opening

/-- What the validator of presented sessions has found. -/
structure SessionValid (value : Json) : Prop where
  object : value.isObj = true
  fields : sessionRequired.all value.has = true
  known : value.fields.keys.all (fun name => (sessionRequired ++ ["closed_at"]).contains name) = true
  version : value.get "schema_version" = .str "1.0" ∧ value.get "tui_contract_version" = .str "1.0"
  identity : ((value.get "session_id").isStr && isReference "AWTUI-" (value.get "session_id").text) = true
  request : ((value.get "request_ref").isStr && isReference "AWG-" (value.get "request_ref").text) = true
  activation : RetryCircuit.oneOf (value.get "activation") sessionActivations = true
  status : RetryCircuit.oneOf (value.get "status") sessionStatuses = true
  revision : ExecutionEnvelope.positive (value.get "task_revision") = true
  openedAt : timestampError (value.get "opened_at") "oracle_gate.human_session.opened_at" = none
  closedAt : value.has "closed_at" = true →
    timestampError (value.get "closed_at") "oracle_gate.human_session.closed_at" = none
  closes : presentingStatus value = !value.has "closed_at"

theorem humanSessionErrors_eq_nil {value : Json} :
    humanSessionErrors value = [] ↔ value = .null ∨ SessionValid value := by
  rw [← Json.isNull_iff]
  cases absent : value.isNull with
  | true => simp [humanSessionErrors, absent]
  | false =>
    simp only [humanSessionErrors, absent, Bool.false_eq_true, ↓reduceIte, message_eq_nil, false_or]
    cases openedAt : timestampError (value.get "opened_at") "oracle_gate.human_session.opened_at" with
    | some error =>
      constructor
      · rintro ⟨-, -, -, -, -, -, -, bad⟩
        cases bad
      · intro valid
        cases openedAt.symm.trans valid.openedAt
    | none =>
      cases closedAt : (if value.has "closed_at" = true then
          timestampError (value.get "closed_at") "oracle_gate.human_session.closed_at" else none) with
      | some error =>
        constructor
        · rintro ⟨-, -, -, -, -, -, -, bad⟩
          cases bad
        · intro valid
          rw [ite_eq_right_iff.mpr valid.closedAt] at closedAt
          cases closedAt
      | none =>
        have timed := ite_eq_right_iff.mp closedAt
        simp only [message_eq_nil, and_true, Bool.not_eq_false', Bool.or_eq_false_iff]
        constructor
        · rintro ⟨object, ⟨fields, known⟩, ⟨version, contract⟩, identity, request, ⟨activation, status⟩, revision,
            open_, closed⟩
          refine ⟨object, fields, known, ⟨?_, ?_⟩, identity, request, activation, status, revision, openedAt, timed, ?_⟩
          · simpa [bne] using version
          · simpa [bne] using contract
          · cases presenting : presentingStatus value <;> cases ended : value.has "closed_at" <;> simp_all
        · intro valid
          refine ⟨valid.object, ⟨valid.fields, valid.known⟩, ⟨?_, ?_⟩, valid.identity, valid.request,
            ⟨valid.activation, valid.status⟩, valid.revision, ?_, ?_⟩
          · simp [bne, valid.version.1]
          · simp [bne, valid.version.2]
          · rw [valid.closes]
            cases value.has "closed_at" <;> rfl
          · rw [valid.closes]
            cases value.has "closed_at" <;> rfl

/-- The session that a resolved event leaves. -/
def closedSession (session : Json) (word at_ : String) : Json :=
  .obj ((session.fields.set "status" (.str word)).set "closed_at" (.str at_))

theorem closedSession_get {session : Json} {word at_ key : String} (other : key ≠ "status" ∧ key ≠ "closed_at") :
    (closedSession session word at_).get key = session.get key := by
  rw [closedSession, Json.get_obj, get_set, if_neg other.2, get_set, if_neg other.1]
  rfl

theorem closedSession_not_presenting (session : Json) {word : String} (at_ : String) (other : word ≠ "presenting") :
    presentingStatus (closedSession session word at_) = false := by
  simp [presentingStatus, closedSession, other]

theorem SessionValid.closed {session : Json} {word at_ : String} (valid : SessionValid session)
    (known : word ∈ sessionStatuses) (other : word ≠ "presenting") (zoned : zonedText at_ = some true) :
    SessionValid (closedSession session word at_) where
  object := rfl
  fields := by
    have fields := valid.fields
    rw [List.all_eq_true] at fields ⊢
    intro name member
    have held : session.fields.has name = true := fields name member
    simp [closedSession, held]
  known := by
    have known := valid.known
    rw [List.all_eq_true] at known ⊢
    intro name member
    obtain rfl | member := mem_keys_set.mp member
    · decide
    · obtain rfl | member := mem_keys_set.mp member
      · decide
      · exact known name member
  version := by
    rw [closedSession_get (by decide), closedSession_get (by decide)]
    exact valid.version
  identity := by
    rw [closedSession_get (by decide)]
    exact valid.identity
  request := by
    rw [closedSession_get (by decide)]
    exact valid.request
  activation := by
    rw [closedSession_get (by decide)]
    exact valid.activation
  status := by simpa [closedSession, RetryCircuit.oneOf, Json.isStr, Json.text] using known
  revision := by
    rw [closedSession_get (by decide)]
    exact valid.revision
  openedAt := by
    rw [closedSession_get (by decide)]
    exact valid.openedAt
  closedAt := by simp [closedSession, timestampError, zoned]
  closes := by
    rw [closedSession_not_presenting session at_ other]
    simp [closedSession]

end Coordinator.OracleLifecycle
