import Coordinator.Kit.Staged
import Coordinator.OracleGate

/-! One accepted event is one move of the staged approval that a gate stands for. The gate's fields
are those of the approval's state, whatever the sequence of stages is. -/

namespace Coordinator.OracleLifecycle
open Kit Dict

/-- The stages passed after one more recorded event. -/
def passStage (stages : List String) (record : Json) : List String :=
  if record.get "action" == .str "resolve" && record.get "disposition" == .str "accepted" then
    stages ++ [(record.get "stage").text]
  else if record.get "action" == .str "reopen" then stages.takeWhile (· ≠ (record.get "stage").text)
  else stages

/-- The stages accepted in order since the last reopening of an earlier one. -/
def acceptedStages (records : List Json) : List String := records.foldl passStage []

/-- Stages after which nothing awaits reconciliation. -/
def clearingStages : List String := ["reconciliation", "decision"]

/-- The staged approval of a sequence of stages. -/
def planOf (names : List String) : Staged.Plan :=
  { stages := names.length, clears := fun index => clearingStages.contains (names[index]?.getD ""), maxRounds := 16,
    maxMoves := 32 }

def openStageOf (names : List String) (s : Staged.State) : Json :=
  if s.opened then .str (names[s.done]?.getD "") else .null

/-- What the recorded events say. -/
structure Recorded (records : List Json) (passed : List String) (moves : Nat) (session : Json) : Prop where
  count : records.length = moves
  bounded : moves ≤ 32
  read : ∀ record ∈ records, checkRecord record = .ok ()
  passed : acceptedStages records = passed
  opening : session.isNull = true ∨ ∃ record ∈ records,
    (record.get "action" == .str "open" && record.get "task_revision" == session.get "task_revision") = true

/-- A gate's record stands for a state of the staged approval of its sequence. -/
structure Represents (fields : Dict) (names : List String) (s : Staged.State) : Prop where
  required : fields.get "required" = .bool true
  known : ∀ key, fields.has key = true → key ∈ gateRequired ++ gateOptional
  sequence : (fields.has "stage_sequence" = false ∧ names = gateSequence) ∨
    fields.get "stage_sequence" = .arr (names.map .str)
  nonempty : names ≠ []
  distinct : names.Nodup
  stages : ∀ name ∈ names, name ∈ gateSequence ++ stageGateSequence
  within : s.done + (if s.opened then 1 else 0) ≤ names.length
  completed : fields.get "completed" = .arr ((names.take s.done).map .str)
  openStage : fields.find "open_stage" = some (openStageOf names s)
  rounds : (fields.get "discussion_rounds").int?.getD 0 = s.rounds
  counted : roundsValid (.obj fields) = true
  authorized : boolOrAbsent (.obj fields) "authorized" = true
  reconciliation : boolOrAbsent (.obj fields) "reconciliation_required" = true
  owing : (fields.get "reconciliation_required").truthy = s.owing
  session : humanSessionErrors (fields.get "human_session") = []
  presenting : presentingStatus (fields.get "human_session") = true → s.opened = true
  history : ∃ records, fields.get "events" = .arr records ∧
    Recorded records (names.take s.done) s.moves (fields.get "human_session")

section stages

theorem any_str {names : List String} {name : String} :
    ((names.map Json.str).any (· == .str name)) = true ↔ name ∈ names := by
  simp [List.any_eq_true]

theorem stageSequenceValid_names {names : List String} (nonempty : names ≠ []) (distinct : names.Nodup)
    (stages : ∀ name ∈ names, name ∈ gateSequence ++ stageGateSequence) :
    stageSequenceValid (.arr (names.map .str)) = true := by
  simp only [stageSequenceValid, Json.isNull, Json.isArr, Json.items, Bool.false_or, Bool.true_and, Bool.and_eq_true]
  refine ⟨⟨by simpa using nonempty, (RetryCircuit.distinct_strs names).mpr distinct⟩, List.all_eq_true.mpr fun item member => ?_⟩
  obtain ⟨name, listed, rfl⟩ := List.mem_map.mp member
  simpa [RetryCircuit.oneOf, Json.isStr, Json.text] using stages name listed

/-- Up to a stage of the sequence lie the stages before it. -/
theorem takeWhile_stage {names : List String} (distinct : names.Nodup) {index : Nat} (inside : index < names.length)
    {count : Nat} (before : index < count) :
    (names.take count).takeWhile (· ≠ names[index]) = names.take index := by
  induction names generalizing index count with
  | nil => cases inside
  | cons name rest ih =>
    rw [List.nodup_cons] at distinct
    obtain ⟨count, rfl⟩ := Nat.exists_eq_add_one_of_ne_zero (Nat.ne_zero_of_lt before)
    cases index with
    | zero => simp
    | succ index =>
      have later : index < rest.length := by simpa using inside
      have apart : name ≠ rest[index] := fun same => distinct.1 (same ▸ List.getElem_mem later)
      have onward := ih distinct.2 later (Nat.lt_of_succ_lt_succ before)
      rw [List.take_succ_cons, List.take_succ_cons, List.getElem_cons_succ, List.takeWhile_cons_of_pos (by simpa using apart),
        onward]

end stages

section represents

variable {fields : Dict} {names : List String} {s : Staged.State}

theorem Represents.wellFormed (represents : Represents fields names s) : Staged.WellFormed (planOf names) s := by
  obtain ⟨records, -, recorded⟩ := represents.history
  exact ⟨represents.within, recorded.bounded⟩

theorem Represents.sequenceOf (represents : Represents fields names s) :
    sequenceOf (.obj fields) = names.map .str := by
  obtain ⟨absent, rfl⟩ | listed := represents.sequence
  · simp [OracleLifecycle.sequenceOf, get_of_not_has absent, Json.isNull]
  · simp [OracleLifecycle.sequenceOf, listed, Json.isNull, Json.items]

theorem openStage_listed (within : s.done + (if s.opened then 1 else 0) ≤ names.length) :
    (openStageOf names s).isNull = true ∨ (names.map Json.str).any (· == openStageOf names s) = true := by
  cases opened : s.opened with
  | false => exact .inl (by simp [openStageOf, opened, Json.isNull])
  | true =>
    have inside : s.done < names.length := by
      rw [opened] at within
      exact within
    refine .inr ?_
    simp only [openStageOf, opened, ↓reduceIte, any_str, List.getElem?_eq_getElem inside, Option.getD_some]
    exact List.getElem_mem inside

/-- A gate that stands for a state is in order. -/
theorem Represents.valid (represents : Represents fields names s) : GateValid (.obj fields) := by
  obtain ⟨records, events, recorded⟩ := represents.history
  have openStage : fields.get "open_stage" = openStageOf names s := by
    rw [Dict.get, represents.openStage]
    rfl
  refine ⟨rfl, ?_, ?_, ?_, ?_, ?_, ?_, ?_, represents.counted, represents.authorized, represents.reconciliation,
    represents.session, ?_, ?_, ?_, ?_⟩
  · have required : fields.has "required" = true := has_of_get_ne (by simp [represents.required])
    have completed : fields.has "completed" = true := has_of_get_ne (by simp [represents.completed])
    have eventsHeld : fields.has "events" = true := has_of_get_ne (by simp [events])
    have openHeld : fields.has "open_stage" = true := by simp [Dict.has, represents.openStage]
    simp [gateRequired, required, completed, eventsHeld, openHeld]
  · refine List.all_eq_true.mpr fun key member => ?_
    exact List.contains_iff_mem.mpr (represents.known key ((mem_keys_iff_has _ _).mp member))
  · simp [represents.required, isTrue]
  · obtain ⟨absent, -⟩ | listed := represents.sequence
    · simp [stageSequenceValid, get_of_not_has absent, Json.isNull]
    · rw [Json.get_obj, listed]
      exact stageSequenceValid_names represents.nonempty represents.distinct represents.stages
  · rw [Json.get_obj, openStage, represents.sequenceOf]
    exact openStage_listed represents.within
  · simp [represents.completed, Json.isArr]
  · intro item member
    rw [Json.get_obj, represents.completed] at member
    obtain ⟨name, listed, rfl⟩ := List.mem_map.mp member
    rw [represents.sequenceOf]
    exact any_str.mpr (List.mem_of_mem_take listed)
  · simp [events, Json.isArr]
  · simpa [events, Json.items, recorded.count] using recorded.bounded
  · simpa [events, Json.items] using recorded.read
  · simpa only [Json.get_obj, events, Json.items] using recorded.opening

end represents

/-- The fields that an event starts from. -/
def startFields (task : Meta) (event : InteractionEvent) : Dict :=
  let current := (if (gate task).truthy then gate task else freshGate).fields
  if !current.has "stage_sequence" && stageGateSequence.contains event.stage then
    current.set "stage_sequence" (.arr (stageGateSequence.map .str)) else current

/-- Without the legacy field, and with the defaults. -/
def prepared (current : Dict) : Dict :=
  setDefault (setDefault (current.pop "authorized") "discussion_rounds" (.int 0)) "reconciliation_required" (.bool false)

def settled (current : Dict) (event : InteractionEvent) : Dict :=
  if event.action = "resolve" && event.disposition = "accepted" &&
      ["reconciliation", "decision"].contains event.stage then
    current.set "reconciliation_required" (.bool false) else current

/-- The fields that an event leaves. -/
def written (current : Dict) (event : InteractionEvent) (completed : List Json) (humanSession : Option Json) : Dict :=
  let current := closeSession ((settled current event).set "completed" (.arr completed)) event humanSession
  current.set "events" (.arr ((current.get "events").items ++ [event.asRecord]))

/-- Another round about the stage, which is open. -/
def sentBack (current : Dict) (stage : Json) : Dict :=
  ((current.set "open_stage" stage).set "discussion_rounds"
    (.int ((current.get "discussion_rounds").int?.getD 0 + 1))).set "reconciliation_required" (.bool true)

section inversion

variable {task next : Meta} {event : InteractionEvent} {humanSession : Option Json} {note : String} {current : Dict}

theorem closeSession_within : Within ["human_session"] current (closeSession current event humanSession) := by
  simp only [closeSession]
  cases humanSession with
  | some opened => exact (within_refl _ _).set (by simp) _
  | none =>
    dsimp only
    split
    · exact (within_refl _ _).set (by simp) _
    · exact within_refl _ _

theorem anotherRound_eq_ok {stage : Json} {moved : Dict} :
    anotherRound (current.set "open_stage" stage) = .ok moved ↔
      (current.get "discussion_rounds").int?.getD 0 < 16 ∧ sentBack current stage = moved := by
  have same : (current.set "open_stage" stage).get "discussion_rounds" = current.get "discussion_rounds" := by simp
  rw [anotherRound, same, raiseIf_bind_ok, pure_eq_ok, decide_eq_false_iff_not, maxDiscussionRounds, not_le]
  rfl

section advance

variable {index : Nat} {completed passed : List Json} {moved : Dict}

theorem advance_open (action : event.action = "open") :
    advance current event index completed = .ok (moved, passed) ↔
      current.get "open_stage" = .null ∧ completed.any (· == .str event.stage) = false ∧ index = completed.length ∧
        current.set "open_stage" (.str event.stage) = moved ∧ completed = passed := by
  simp only [advance, action, ↓reduceIte, raiseIf_bind_ok, pure_eq_ok, Prod.mk.injEq, Bool.not_eq_false',
    Bool.or_eq_false_iff, bne_eq_false_iff_eq, Json.isNull_iff, and_assoc]

theorem advance_accept (action : event.action = "resolve") (disposition : event.disposition = "accepted") :
    advance current event index completed = .ok (moved, passed) ↔
      current.get "open_stage" = .str event.stage ∧ current.set "open_stage" .null = moved ∧
        completed ++ [.str event.stage] = passed := by
  have other : ¬ event.action = "open" := by simp [action]
  rw [advance, if_neg other, if_pos action, if_pos disposition, raiseIf_bind_ok, pure_eq_ok, Prod.mk.injEq, bne,
    Bool.not_eq_false', Json.beq_str]

theorem advance_reject (action : event.action = "resolve") (disposition : event.disposition ≠ "accepted") :
    advance current event index completed = .ok (moved, passed) ↔
      current.get "open_stage" = .str event.stage ∧ (current.get "discussion_rounds").int?.getD 0 < 16 ∧
        sentBack current (.str event.stage) = moved ∧ completed = passed := by
  have other : ¬ event.action = "open" := by simp [action]
  rw [advance, if_neg other, if_pos action, if_neg disposition, raiseIf_bind_ok, bind_eq_ok, bne, Bool.not_eq_false',
    Json.beq_str]
  simp only [anotherRound_eq_ok, pure_eq_ok, Prod.mk.injEq]
  constructor
  · rintro ⟨opened, _, ⟨room, rfl⟩, rfl, rfl⟩
    exact ⟨opened, room, rfl, rfl⟩
  · rintro ⟨opened, room, rfl, rfl⟩
    exact ⟨opened, _, ⟨room, rfl⟩, rfl, rfl⟩

theorem advance_reopen (action : event.action = "reopen") :
    advance current event index completed = .ok (moved, passed) ↔
      completed.any (· == .str event.stage) = true ∧ current.get "open_stage" = .null ∧
        (current.get "discussion_rounds").int?.getD 0 < 16 ∧ sentBack current (.str event.stage) = moved ∧
        completed.take index = passed := by
  have other : ¬ event.action = "open" := by simp [action]
  have another : ¬ event.action = "resolve" := by simp [action]
  rw [advance, if_neg other, if_neg another, raiseIf_bind_ok, bind_eq_ok]
  simp only [anotherRound_eq_ok, pure_eq_ok, Prod.mk.injEq, Bool.or_eq_false_iff, Bool.not_eq_false', Json.isNull_iff,
    and_assoc]
  constructor
  · rintro ⟨listed, closed, _, room, rfl, rfl, rfl⟩
    exact ⟨listed, closed, room, rfl, rfl⟩
  · rintro ⟨listed, closed, room, rfl, rfl⟩
    exact ⟨listed, closed, _, room, rfl, rfl, rfl⟩

end advance

theorem settled_within : Within ["reconciliation_required"] current (settled current event) := by
  rw [settled]
  split
  · exact (within_refl _ _).set (by simp) _
  · exact within_refl _ _

theorem raiseFirst_eq_ok {errors : List String} {u : Unit} : raiseFirst errors = .ok u ↔ errors = [] := by
  cases errors <;> simp [raiseFirst]

theorem written_events {completed : List Json} :
    (closeSession ((settled current event).set "completed" (.arr completed)) event humanSession).get "events" =
      current.get "events" := by
  rw [closeSession_within.get (by decide), get_set, if_neg (by decide), settled_within.get (by decide)]

/-- What an accepted event has passed, and what it leaves. -/
theorem applyEvent_eq_ok :
    applyEvent task event humanSession = .ok (next, note) ↔
      (task.get "id" = .str event.taskId ∧ (task.get "task_revision" == .int event.taskRevision) = true) ∧
      (if (gate task).truthy && !(gate task).isObj then gateErrors (gate task)
        else gateErrors (.obj (startFields task event))) = [] ∧
      requireHumanSession (startFields task event) event humanSession = .ok () ∧
      ((startFields task event).has "stage_sequence" && ((startFields task event).get "stage_sequence").isNull) = false ∧
      ∃ index moved passed,
        (sequenceOf (.obj (prepared (startFields task event)))).findIdx? (· == .str event.stage) = some index ∧
        advance (prepared (startFields task event)) event index ((startFields task event).get "completed").items =
          .ok (moved, passed) ∧
        (moved.get "events").items.length < 32 ∧
        task.set "oracle_gate" (.obj (written moved event passed humanSession)) = next ∧
        "Recorded " ++ event.action ++ " interaction gate " ++ event.stage ++ "; event=" ++
          RetryCircuit.digest event.asRecord ++ "." = note := by
  have unfolded : applyEvent task event humanSession = (do
      raiseIf (task.get "id" != .str event.taskId) (.error "event task_id does not match task")
      raiseIf (task.get "task_revision" != .int event.taskRevision) (.error "stale interaction event revision")
      raiseFirst (if (gate task).truthy && !(gate task).isObj then gateErrors (gate task)
        else gateErrors (.obj (startFields task event)))
      requireHumanSession (startFields task event) event humanSession
      raiseIf ((startFields task event).has "stage_sequence" && ((startFields task event).get "stage_sequence").isNull)
        (.error "TypeError: 'NoneType' object is not iterable")
      let index ← orRaise ((sequenceOf (.obj (prepared (startFields task event)))).findIdx? (· == .str event.stage))
        (.error "unknown interaction gate stage")
      let made ← advance (prepared (startFields task event)) event index ((startFields task event).get "completed").items
      let closing := closeSession ((settled made.1 event).set "completed" (.arr made.2)) event humanSession
      raiseIf (32 < ((closing.get "events").items ++ [event.asRecord]).length)
        (.error "interaction event history is bounded at 32 events")
      pure (task.set "oracle_gate" (.obj (written made.1 event made.2 humanSession)),
        "Recorded " ++ event.action ++ " interaction gate " ++ event.stage ++ "; event=" ++
          RetryCircuit.digest event.asRecord ++ ".")) := rfl
  rw [unfolded]
  simp only [bind_eq_ok, raiseIf_eq_ok, orRaise_eq_ok, raiseFirst_eq_ok, exists_unit, pure_eq_ok, Prod.exists,
    Prod.mk.injEq, written_events, List.length_append, List.length_singleton, decide_eq_false_iff_not, not_lt, bne,
    Bool.not_eq_false', Json.beq_str, and_assoc, Nat.succ_le_iff, exists_and_left]

end inversion

section session

variable {current : Dict} {e : GateEvent} {humanSession : Option Json}

/-- The disposition that a session closes with. -/
def closingStatus (event : InteractionEvent) : String :=
  if event.disposition = "accepted" then "resolved" else "clarification_requested"

/-- A session either stays, or is the one just opened, or has been closed by the event that resolved its stage. -/
theorem closeSession_session (current : Dict) (event : InteractionEvent) (humanSession : Option Json) :
    humanSession = some ((closeSession current event humanSession).get "human_session") ∨
      (humanSession = none ∧ event.action = "resolve" ∧ (current.get "human_session").isObj = true ∧
        (closeSession current event humanSession).get "human_session" =
          closedSession (current.get "human_session") (closingStatus event) event.recordedAt) ∨
      (humanSession = none ∧ (event.action = "resolve" → presentingStatus (current.get "human_session") = false) ∧
        (closeSession current event humanSession).get "human_session" = current.get "human_session") := by
  cases humanSession with
  | some opened => exact .inl (by simp [closeSession])
  | none =>
    refine .inr ?_
    simp only [closeSession, true_and]
    split
    · next closes =>
      simp only [Bool.and_eq_true, decide_eq_true_eq] at closes
      exact .inl ⟨closes.1.1, closes.1.2, by simp [closedSession, closingStatus]⟩
    · next stays =>
      refine .inr ⟨fun action => ?_, rfl⟩
      by_contra presenting
      rw [Bool.not_eq_false, presentingStatus, Json.beq_str] at presenting
      apply stays
      have object : (current.get "human_session").isObj = true := @Json.isObj_of_get_ne _ "status" (by simp [presenting])
      simp [action, object, presenting, RetryCircuit.oneOf, Json.isStr, Json.text]

theorem GateEvent.zoned (e : GateEvent) : zonedText e.event.recordedAt = some true := by
  have checked := e.checked
  simp only [InteractionEvent.check, bind_eq_ok, raiseIf_eq_ok, orRaise_eq_ok, exists_unit, Bool.not_eq_false'] at checked
  obtain ⟨-, -, -, -, -, -, zoned, known, rfl⟩ := checked
  exact known

theorem GateEvent.action_cases (e : GateEvent) :
    e.event.action = "open" ∨ e.event.action = "resolve" ∨ e.event.action = "reopen" := by
  have checked := e.checked
  simp only [InteractionEvent.check, bind_eq_ok, raiseIf_eq_ok, orRaise_eq_ok, exists_unit, Bool.not_eq_false'] at checked
  simpa [actions] using checked.2.2.1

theorem closingStatus_known (event : InteractionEvent) :
    closingStatus event ∈ sessionStatuses ∧ closingStatus event ≠ "presenting" := by
  rw [closingStatus]
  split <;> decide

/-- What the opening event of a session has been checked for. -/
theorem requireHumanSession_some {session : Json}
    (allowed : requireHumanSession current e.event (some session) = .ok ()) :
    e.event.action = "open" ∧ humanSessionErrors session = [] ∧
      (session.get "task_revision" == .int e.event.taskRevision) = true := by
  simp only [requireHumanSession, bind_eq_ok, raiseIf_eq_ok, raiseFirst_eq_ok, exists_unit, bne, Bool.not_eq_false',
    beq_iff_eq] at allowed
  exact ⟨allowed.1, allowed.2.1, allowed.2.2.1⟩

variable {start moved : Dict}

theorem session_kept (allowed : requireHumanSession start e.event humanSession = .ok ())
    (before : humanSessionErrors (current.get "human_session") = []) :
    humanSessionErrors ((closeSession current e.event humanSession).get "human_session") = [] := by
  obtain opened | ⟨-, -, object, closed⟩ | ⟨-, -, same⟩ := closeSession_session current e.event humanSession
  · rw [opened] at allowed
    exact (requireHumanSession_some allowed).2.1
  · obtain absent | valid := humanSessionErrors_eq_nil.mp before
    · simp [absent, Json.isObj] at object
    · obtain ⟨known, other⟩ := closingStatus_known e.event
      rw [closed]
      exact humanSessionErrors_eq_nil.mpr (.inr (valid.closed known other e.zoned))
  · rw [same]
    exact before

/-- A session that presents after an event was not resolved by it. -/
theorem session_presenting (allowed : requireHumanSession start e.event humanSession = .ok ())
    (presenting : presentingStatus ((closeSession current e.event humanSession).get "human_session") = true) :
    e.event.action ≠ "resolve" := by
  obtain opened | ⟨-, -, -, closed⟩ | ⟨-, stays, same⟩ := closeSession_session current e.event humanSession
  · rw [opened] at allowed
    simp [(requireHumanSession_some allowed).1]
  · rw [closed, closedSession_not_presenting _ _ (closingStatus_known e.event).2] at presenting
    cases presenting
  · intro action
    rw [same, stays action] at presenting
    cases presenting

/-- A session comes with the record of the event that opened it. -/
theorem session_opening {records : List Json} (allowed : requireHumanSession start e.event humanSession = .ok ())
    (before : (current.get "human_session").isNull = true ∨ ∃ record ∈ records, (record.get "action" == .str "open" &&
      record.get "task_revision" == (current.get "human_session").get "task_revision") = true) :
    ((closeSession current e.event humanSession).get "human_session").isNull = true ∨
      ∃ record ∈ records ++ [e.event.asRecord], (record.get "action" == .str "open" && record.get "task_revision" ==
        ((closeSession current e.event humanSession).get "human_session").get "task_revision") = true := by
  obtain opened | ⟨-, -, object, closed⟩ | ⟨-, -, same⟩ := closeSession_session current e.event humanSession
  · rw [opened] at allowed
    obtain ⟨action, fine, revision⟩ := requireHumanSession_some allowed
    obtain absent | valid := humanSessionErrors_eq_nil.mp fine
    · exact .inl (Json.isNull_iff.mpr absent)
    · refine .inr ⟨_, List.mem_append_right _ (List.mem_singleton_self _), ?_⟩
      have positive := valid.revision
      generalize (closeSession current e.event humanSession).get "human_session" = session at *
      simp only [ExecutionEnvelope.positive, Option.any_eq_true] at positive
      obtain ⟨number, exact, -⟩ := positive
      rw [Json.exactInt?_eq_some] at exact
      rw [exact, Json.beq_int_int] at revision
      rw [exact, revision]
      simp [InteractionEvent.asRecord, Dict.get, Dict.find, action]
  · obtain absent | ⟨record, member, matches_⟩ := before
    · rw [Json.isNull_iff] at absent
      simp [absent, Json.isObj] at object
    · refine .inr ⟨record, List.mem_append_left _ member, ?_⟩
      rw [closed, closedSession_get (by decide)]
      exact matches_
  · rw [same]
    refine before.imp_right ?_
    rintro ⟨record, member, matches_⟩
    exact ⟨record, List.mem_append_left _ member, matches_⟩

end session

section starts

variable {current : Dict} {names : List String} {s : Staged.State}

theorem fresh_represents :
    Represents freshGate.fields gateSequence { done := 0, opened := false, owing := false, rounds := 0, moves := 0 } where
  required := rfl
  known := fun key held => by
    rw [← mem_keys_iff_has] at held
    revert key
    decide
  sequence := .inl ⟨rfl, rfl⟩
  nonempty := by decide
  distinct := by decide
  stages := by decide
  within := by decide
  completed := rfl
  openStage := rfl
  rounds := rfl
  counted := rfl
  authorized := rfl
  reconciliation := rfl
  owing := rfl
  session := rfl
  presenting := by decide
  history := ⟨[], rfl, rfl, by decide, by simp, rfl, .inl rfl⟩

theorem inserted_sequence : sequenceOf (.obj (current.set "stage_sequence" (.arr (stageGateSequence.map .str)))) =
    stageGateSequence.map .str := by
  simp [sequenceOf, Json.isNull, Json.items]

/-- The sequence of stage gates is put into a gate only before its first stage. -/
theorem inserted_unopened (represents : Represents current names s) (absent : current.has "stage_sequence" = false)
    (valid : GateValid (.obj (current.set "stage_sequence" (.arr (stageGateSequence.map .str))))) :
    names = gateSequence ∧ s.done = 0 ∧ s.opened = false := by
  have gateNames : names = gateSequence := by
    obtain ⟨-, same⟩ | listed := represents.sequence
    · exact same
    · rw [get_of_not_has absent] at listed
      cases listed
  subst gateNames
  have none : s.done = 0 := by
    by_contra some
    have first : Json.str "intake" ∈ ((Json.obj (current.set "stage_sequence"
        (.arr (stageGateSequence.map .str)))).get "completed").items := by
      obtain ⟨count, more⟩ := Nat.exists_eq_add_one_of_ne_zero some
      simp [represents.completed, Json.items, more, gateSequence]
    have listed := valid.listed _ first
    rw [inserted_sequence, any_str] at listed
    revert listed
    decide
  refine ⟨rfl, none, ?_⟩
  by_contra opened
  rw [Bool.not_eq_false] at opened
  have stage : current.get "open_stage" = .str "intake" := by
    rw [Dict.get, represents.openStage]
    simp [openStageOf, opened, none, gateSequence]
  have listed := valid.openStage
  rw [inserted_sequence, Json.get_obj, get_set, if_neg (by decide), stage, any_str] at listed
  revert listed
  decide

theorem inserted_represents (represents : Represents current names s) (absent : current.has "stage_sequence" = false)
    (valid : GateValid (.obj (current.set "stage_sequence" (.arr (stageGateSequence.map .str))))) :
    Represents (current.set "stage_sequence" (.arr (stageGateSequence.map .str))) stageGateSequence s := by
  obtain ⟨rfl, none, closed⟩ := inserted_unopened represents absent valid
  have frame : Within ["stage_sequence"] current (current.set "stage_sequence" (.arr (stageGateSequence.map .str))) :=
    (within_refl _ _).set (by simp) _
  obtain ⟨records, events, recorded⟩ := represents.history
  exact
    { required := (frame.get (by decide)).trans represents.required
      known := fun key held => by
        obtain rfl | held : key = "stage_sequence" ∨ current.has key = true := by simpa using held
        · decide
        · exact represents.known key held
      sequence := .inr (by simp)
      nonempty := by decide
      distinct := by decide
      stages := by decide
      within := by simp [none, closed]
      completed := by
        rw [frame.get (by decide), represents.completed, none]
        rfl
      openStage := by
        rw [frame.find (by decide), represents.openStage]
        simp [openStageOf, closed]
      rounds := by
        rw [frame.get (by decide)]
        exact represents.rounds
      counted := by
        have counted := represents.counted
        simp only [roundsValid, Json.has_obj, Json.get_obj] at counted ⊢
        rwa [frame.has (by decide), frame.get (by decide)]
      authorized := valid.authorized
      reconciliation := valid.reconciliation
      owing := by
        rw [frame.get (by decide)]
        exact represents.owing
      session := valid.session
      presenting := by
        rw [frame.get (by decide)]
        exact represents.presenting
      history := by
        refine ⟨records, (frame.get (by decide)).trans events, ?_⟩
        rw [none] at recorded ⊢
        rw [frame.get (by decide)]
        exact recorded }

theorem setDefault_within (fields : Dict) (key : String) (value : Json) : Within [key] fields (setDefault fields key value) := by
  rw [setDefault]
  split
  · exact within_refl _ _
  · exact (within_refl _ _).set (by simp) _

theorem setDefault_get (fields : Dict) (key : String) (value : Json) :
    (setDefault fields key value).get key = if fields.has key then fields.get key else value := by
  rw [setDefault]
  split <;> simp

def preparedFields : List String := ["authorized", "discussion_rounds", "reconciliation_required"]

theorem prepared_within : Within preparedFields current (prepared current) :=
  ((((within_refl _ _).pop (by decide)).trans ((setDefault_within _ _ _).mono (by decide))).trans
    ((setDefault_within _ _ _).mono (by decide)))

theorem prepared_rounds :
    (prepared current).get "discussion_rounds" =
      if current.has "discussion_rounds" then current.get "discussion_rounds" else .int 0 := by
  rw [prepared, (setDefault_within _ _ _).get (by decide), setDefault_get]
  simp

theorem prepared_owing :
    (prepared current).get "reconciliation_required" =
      if current.has "reconciliation_required" then current.get "reconciliation_required" else .bool false := by
  rw [prepared, setDefault_get, (setDefault_within _ _ _).has (by decide), (setDefault_within _ _ _).get (by decide)]
  simp

theorem prepared_authorized : (prepared current).has "authorized" = false := by
  rw [prepared, (setDefault_within _ _ _).has (by decide), (setDefault_within _ _ _).has (by decide)]
  simp

theorem prepared_represents (represents : Represents current names s) : Represents (prepared current) names s where
  required := (prepared_within.get (by decide)).trans represents.required
  known := fun key held => by
    by_cases listed : key ∈ preparedFields
    · have subset : ∀ name ∈ preparedFields, name ∈ gateRequired ++ gateOptional := by decide
      exact subset key listed
    · rw [prepared_within.has listed] at held
      exact represents.known key held
  sequence := by
    rw [prepared_within.get (by decide), prepared_within.has (by decide)]
    exact represents.sequence
  nonempty := represents.nonempty
  distinct := represents.distinct
  stages := represents.stages
  within := represents.within
  completed := (prepared_within.get (by decide)).trans represents.completed
  openStage := (prepared_within.find (by decide)).trans represents.openStage
  rounds := by
    rw [← represents.rounds, prepared_rounds]
    split
    · rfl
    · next absent =>
      rw [get_of_not_has (Bool.not_eq_true _ ▸ absent)]
      rfl
  counted := by
    have counted := represents.counted
    simp only [roundsValid, Json.has_obj, Json.get_obj] at counted ⊢
    rw [prepared_rounds]
    split
    · next held =>
      rw [held] at counted
      exact Bool.or_eq_true_iff.mpr (.inr counted)
    · simp [Json.int?, maxDiscussionRounds]
  authorized := by simp [boolOrAbsent, prepared_authorized]
  reconciliation := by
    have reconciliation := represents.reconciliation
    simp only [boolOrAbsent, Json.has_obj, Json.get_obj] at reconciliation ⊢
    rw [prepared_owing]
    split
    · next held =>
      rw [held] at reconciliation
      exact Bool.or_eq_true_iff.mpr (.inr reconciliation)
    · simp [Json.isBool]
  owing := by
    rw [← represents.owing, prepared_owing]
    split
    · rfl
    · next absent =>
      rw [get_of_not_has (Bool.not_eq_true _ ▸ absent)]
      rfl
  session := by
    rw [prepared_within.get (by decide)]
    exact represents.session
  presenting := by
    rw [prepared_within.get (by decide)]
    exact represents.presenting
  history := by
    rw [prepared_within.get (by decide), prepared_within.get (by decide)]
    exact represents.history

end starts

section step

variable {start current moved : Dict} {names : List String} {s next : Staged.State} {e : GateEvent}
  {humanSession : Option Json}

/-- The fields that an event moves. -/
def turnFields : List String := ["open_stage", "discussion_rounds", "reconciliation_required"]

/-- The fields that every event writes. -/
def recordFields : List String := ["completed", "human_session", "events"]

theorem written_settled {passed : List Json} :
    Within recordFields (settled moved e.event) (written moved e.event passed humanSession) :=
  (((within_refl _ _).set (by decide) _).trans (closeSession_within.mono (by decide))).set (by decide) _

theorem sentBack_within (current : Dict) (value : Json) : Within turnFields current (sentBack current value) :=
  (((within_refl _ _).set (by decide) _).set (by decide) _).set (by decide) _

theorem written_within {passed : List Json} (frame : Within turnFields current moved) :
    Within (turnFields ++ recordFields) current (written moved e.event passed humanSession) :=
  ((frame.mono (by decide)).trans (settled_within.mono (by decide))).trans (written_settled.mono (by decide))

/-- What an event has to leave for the next state to be represented. -/
structure Turned (current moved : Dict) (e : GateEvent) (names : List String) (s next : Staged.State) : Prop where
  frame : Within turnFields current moved
  within : next.done + (if next.opened then 1 else 0) ≤ names.length
  openStage : moved.find "open_stage" = some (openStageOf names next)
  rounds : (moved.get "discussion_rounds").int?.getD 0 = next.rounds
  counted : roundsValid (.obj moved) = true
  reconciliation : boolOrAbsent (.obj (settled moved e.event)) "reconciliation_required" = true
  owing : ((settled moved e.event).get "reconciliation_required").truthy = next.owing
  passed : passStage (names.take s.done) e.event.asRecord = names.take next.done
  moves : next.moves = s.moves + 1
  presenting : e.event.action ≠ "resolve" → next.opened = true

theorem written_represents (represents : Represents current names s) (turned : Turned current moved e names s next)
    (allowed : requireHumanSession start e.event humanSession = .ok ()) (room : s.moves < 32) :
    Represents (written moved e.event ((names.take next.done).map .str) humanSession) names next := by
  obtain ⟨records, events, recorded⟩ := represents.history
  have whole := @written_within current moved e humanSession ((names.take next.done).map .str) turned.frame
  have kept := @written_settled moved e humanSession ((names.take next.done).map .str)
  have before : ((settled moved e.event).set "completed" (.arr ((names.take next.done).map .str))).get "human_session" =
      current.get "human_session" := by
    rw [get_set, if_neg (by decide), settled_within.get (by decide), turned.frame.get (by decide)]
  have session : (written moved e.event ((names.take next.done).map .str) humanSession).get "human_session" =
      (closeSession ((settled moved e.event).set "completed" (.arr ((names.take next.done).map .str))) e.event
        humanSession).get "human_session" := by
    rw [written, get_set, if_neg (by decide)]
  exact
    { required := (whole.get (by decide)).trans represents.required
      known := fun key held => by
        by_cases listed : key ∈ turnFields ++ recordFields
        · have subset : ∀ name ∈ turnFields ++ recordFields, name ∈ gateRequired ++ gateOptional := by decide
          exact subset key listed
        · rw [whole.has listed] at held
          exact represents.known key held
      sequence := by
        rw [whole.get (by decide), whole.has (by decide)]
        exact represents.sequence
      nonempty := represents.nonempty
      distinct := represents.distinct
      stages := represents.stages
      within := turned.within
      completed := by
        rw [written, get_set, if_neg (by decide), closeSession_within.get (by decide), get_set, if_pos rfl]
      openStage := by
        rw [kept.find (by decide), settled_within.find (by decide)]
        exact turned.openStage
      rounds := by
        rw [kept.get (by decide), settled_within.get (by decide)]
        exact turned.rounds
      counted := by
        have counted := turned.counted
        simp only [roundsValid, Json.has_obj, Json.get_obj] at counted ⊢
        rwa [kept.get (by decide), settled_within.get (by decide), kept.has (by decide), settled_within.has (by decide)]
      authorized := by
        have authorized := represents.authorized
        simp only [boolOrAbsent, Json.has_obj, Json.get_obj] at authorized ⊢
        rwa [whole.get (by decide), whole.has (by decide)]
      reconciliation := by
        have reconciliation := turned.reconciliation
        simp only [boolOrAbsent, Json.has_obj, Json.get_obj] at reconciliation ⊢
        rwa [kept.get (by decide), kept.has (by decide)]
      owing := by
        rw [kept.get (by decide)]
        exact turned.owing
      session := by
        rw [session]
        exact session_kept allowed (before ▸ represents.session)
      presenting := by
        rw [session]
        exact fun presenting => turned.presenting (session_presenting allowed presenting)
      history := by
        refine ⟨records ++ [e.event.asRecord], ?_, ?_⟩
        · rw [written, get_set, if_pos rfl, written_events, turned.frame.get (by decide), events]
          rfl
        · rw [session]
          exact
            { count := by rw [List.length_append, recorded.count, turned.moves]; rfl
              bounded := by rw [turned.moves]; exact room
              read := by
                intro record member
                obtain old | new := List.mem_append.mp member
                · exact recorded.read record old
                · rw [List.mem_singleton.mp new]
                  exact e.checkRecord
              passed := by
                rw [acceptedStages, List.foldl_append, List.foldl_cons, List.foldl_nil, ← turned.passed, ← recorded.passed]
                rfl
              opening := session_opening allowed (before ▸ recorded.opening) } }

/-- The move that an event makes. -/
def moveOf (names : List String) (event : InteractionEvent) : Staged.Move :=
  if event.action = "open" then .start
  else if event.action = "resolve" then if event.disposition = "accepted" then .accept else .reject
  else .reopen (names.idxOf event.stage)

theorem Represents.getOpenStage (represents : Represents current names s) :
    current.get "open_stage" = openStageOf names s := by
  rw [Dict.get, represents.openStage]
  rfl

theorem openStageOf_null : openStageOf names s = .null ↔ s.opened = false := by
  rw [openStageOf]
  cases s.opened <;> simp

theorem openStageOf_stage (distinct : names.Nodup) {index : Nat} (inside : index < names.length)
    (within : s.done + (if s.opened then 1 else 0) ≤ names.length) :
    openStageOf names s = .str names[index] ↔ s.opened = true ∧ s.done = index := by
  rw [openStageOf]
  cases opened : s.opened with
  | false => simp
  | true =>
    have here : s.done < names.length := by
      rw [opened] at within
      exact within
    simp [List.getElem?_eq_getElem here, distinct.getElem_inj_iff]

theorem stage_passed (distinct : names.Nodup) {index count : Nat} (inside : index < names.length) :
    ((names.take count).map Json.str).any (· == .str names[index]) = true ↔ index < count := by
  rw [any_str, List.mem_take_iff_getElem]
  constructor
  · rintro ⟨other, bound, same⟩
    rw [distinct.getElem_inj_iff] at same
    omega
  · intro before
    exact ⟨index, by omega, rfl⟩

theorem stage_found {stage : String} {index : Nat}
    (found : (names.map Json.str).findIdx? (· == .str stage) = some index) :
    ∃ inside : index < names.length, names[index] = stage := by
  rw [List.findIdx?_eq_some_iff_getElem] at found
  obtain ⟨inside, same, -⟩ := found
  rw [List.length_map] at inside
  refine ⟨inside, ?_⟩
  rw [List.getElem_map, Json.str_beq_str, beq_iff_eq] at same
  exact same

theorem find_stage (distinct : names.Nodup) {index : Nat} (inside : index < names.length) :
    (names.map Json.str).findIdx? (· == .str names[index]) = some index := by
  rw [List.findIdx?_eq_some_iff_getElem]
  refine ⟨by simpa using inside, by simp, fun other before => ?_⟩
  have apart : names[other] ≠ names[index] := fun same => absurd (distinct.getElem_inj_iff.mp same) (by omega)
  simpa using apart

section turns

variable {index : Nat} {passed : List Json} (represents : Represents current names s) (inside : index < names.length)
  (stage : names[index] = e.event.stage) (room : s.moves < 32)

theorem passStage_open (stages : List String) (action : e.event.action = "open") :
    passStage stages e.event.asRecord = stages := by
  simp [passStage, InteractionEvent.asRecord, Dict.get, Dict.find, action]

theorem passStage_accept (stages : List String) (action : e.event.action = "resolve")
    (disposition : e.event.disposition = "accepted") :
    passStage stages e.event.asRecord = stages ++ [e.event.stage] := by
  simp [passStage, InteractionEvent.asRecord, Dict.get, Dict.find, action, disposition, Json.text]

theorem passStage_reject (stages : List String) (action : e.event.action = "resolve")
    (disposition : e.event.disposition ≠ "accepted") : passStage stages e.event.asRecord = stages := by
  simp [passStage, InteractionEvent.asRecord, Dict.get, Dict.find, action, disposition]

theorem passStage_reopen (stages : List String) (action : e.event.action = "reopen") :
    passStage stages e.event.asRecord = stages.takeWhile (· ≠ e.event.stage) := by
  simp [passStage, InteractionEvent.asRecord, Dict.get, Dict.find, action, Json.text]

theorem settled_of_not_accepted (other : ¬ (e.event.action = "resolve" ∧ e.event.disposition = "accepted")) :
    settled moved e.event = moved := by
  rw [settled, if_neg]
  simp only [Bool.and_eq_true, decide_eq_true_eq]
  exact fun accepted => other accepted.1

include represents inside stage room

theorem open_turned (action : e.event.action = "open")
    (turn : advance current e.event index ((names.take s.done).map .str) = .ok (moved, passed)) :
    ∃ next, Staged.move (planOf names) s (moveOf names e.event) = some next ∧
      passed = (names.take next.done).map .str ∧ Turned current moved e names s next := by
  rw [advance_open action, represents.getOpenStage, openStageOf_null, List.length_map, List.length_take] at turn
  obtain ⟨closed, -, here, rfl, rfl⟩ := turn
  have bound : s.done ≤ names.length := by
    have within := represents.within
    omega
  obtain rfl : index = s.done := by omega
  have moves : Staged.move (planOf names) s (moveOf names e.event) =
      some { s with opened := true, moves := s.moves + 1 } := by
    rw [moveOf, if_pos action]
    exact if_pos ⟨closed, inside, room⟩
  have frame : Within turnFields current (current.set "open_stage" (.str e.event.stage)) :=
    (within_refl _ _).set (by decide) _
  have same := @settled_of_not_accepted (current.set "open_stage" (.str e.event.stage)) e (by simp [action])
  refine ⟨_, moves, rfl, ?_⟩
  exact
    { frame
      within := inside
      openStage := by simp [find_set, openStageOf, List.getElem?_eq_getElem inside, stage]
      rounds := by simpa using represents.rounds
      counted := by simpa [roundsValid] using represents.counted
      reconciliation := by simpa [same, boolOrAbsent] using represents.reconciliation
      owing := by simpa [same] using represents.owing
      passed := passStage_open _ action
      moves := rfl
      presenting := fun _ => rfl }

theorem accept_turned (action : e.event.action = "resolve") (disposition : e.event.disposition = "accepted")
    (turn : advance current e.event index ((names.take s.done).map .str) = .ok (moved, passed)) :
    ∃ next, Staged.move (planOf names) s (moveOf names e.event) = some next ∧
      passed = (names.take next.done).map .str ∧ Turned current moved e names s next := by
  rw [advance_accept action disposition, represents.getOpenStage, ← stage,
    openStageOf_stage represents.distinct inside represents.within] at turn
  obtain ⟨⟨opened, rfl⟩, rfl, rfl⟩ := turn
  have moves : Staged.move (planOf names) s (moveOf names e.event) = some { s with
      done := s.done + 1, opened := false, owing := s.owing && !(planOf names).clears s.done, moves := s.moves + 1 } := by
    rw [moveOf, if_neg (by simp [action]), if_pos action, if_pos disposition]
    exact if_pos ⟨opened, room⟩
  have taken : names.take (s.done + 1) = names.take s.done ++ [names[s.done]] := by
    rw [List.take_add_one, List.getElem?_eq_getElem inside]
    rfl
  have clears : (planOf names).clears s.done = ["reconciliation", "decision"].contains e.event.stage := by
    simp [planOf, clearingStages, List.getElem?_eq_getElem inside, stage]
  have settles : settled (current.set "open_stage" .null) e.event =
      if (planOf names).clears s.done then (current.set "open_stage" .null).set "reconciliation_required" (.bool false)
      else current.set "open_stage" .null := by
    rw [settled, clears, action, disposition]
    rfl
  refine ⟨_, moves, by rw [taken, List.map_append, stage]; rfl, ?_⟩
  exact
    { frame := (within_refl _ _).set (by decide) _
      within := inside
      openStage := by simp [find_set, openStageOf]
      rounds := by simpa using represents.rounds
      counted := by simpa [roundsValid] using represents.counted
      reconciliation := by
        rw [settles]
        split
        · simp [boolOrAbsent, Json.isBool]
        · simpa [boolOrAbsent] using represents.reconciliation
      owing := by
        rw [settles]
        split
        · next clear => simp [clear, Json.truthy]
        · next keep => simpa [keep] using represents.owing
      passed := by rw [passStage_accept _ action disposition, taken, stage]
      moves := rfl
      presenting := fun other => absurd action other }

omit represents inside stage room in
theorem sentBack_rounds (current : Dict) (value : Json) : (sentBack current value).get "discussion_rounds" =
    .int ((current.get "discussion_rounds").int?.getD 0 + 1) := by
  simp [sentBack]

omit represents inside stage room in
theorem sentBack_owing (current : Dict) (value : Json) :
    (sentBack current value).get "reconciliation_required" = .bool true := by
  simp [sentBack]

omit inside stage room in
/-- Another round is represented whenever it is allowed. -/
theorem sentBack_turned {done : Nat} (earlier : done < names.length) (here : names[done] = e.event.stage)
    (other : ¬ (e.event.action = "resolve" ∧ e.event.disposition = "accepted"))
    (rounds : (current.get "discussion_rounds").int?.getD 0 < 16)
    (passes : passStage (names.take s.done) e.event.asRecord = names.take done) :
    Turned current (sentBack current (.str e.event.stage)) e names s
      { done, opened := true, owing := true, rounds := s.rounds + 1, moves := s.moves + 1 } := by
  have count := represents.rounds
  have same := @settled_of_not_accepted (sentBack current (.str e.event.stage)) e other
  exact
    { frame := sentBack_within _ _
      within := earlier
      openStage := by simp [sentBack, find_set, openStageOf, List.getElem?_eq_getElem earlier, here]
      rounds := by
        rw [sentBack_rounds, count]
        rfl
      counted := by
        have positive : (0 : Int) ≤ s.rounds + 1 ∧ (s.rounds : Int) + 1 ≤ maxDiscussionRounds := by
          rw [maxDiscussionRounds]
          omega
        rw [roundsValid, Json.get_obj, sentBack_rounds, count, Json.int?, Option.any_some]
        simp [positive]
      reconciliation := by
        rw [same, boolOrAbsent, Json.get_obj, sentBack_owing, Json.isBool, Bool.or_true]
      owing := by
        rw [same, sentBack_owing]
        rfl
      passed := passes
      moves := rfl
      presenting := fun _ => rfl }

theorem reject_turned (action : e.event.action = "resolve") (disposition : e.event.disposition ≠ "accepted")
    (turn : advance current e.event index ((names.take s.done).map .str) = .ok (moved, passed)) :
    ∃ next, Staged.move (planOf names) s (moveOf names e.event) = some next ∧
      passed = (names.take next.done).map .str ∧ Turned current moved e names s next := by
  rw [advance_reject action disposition, represents.getOpenStage, ← stage,
    openStageOf_stage represents.distinct inside represents.within] at turn
  obtain ⟨⟨opened, rfl⟩, free, rfl, rfl⟩ := turn
  have bounded : s.rounds < 16 := by
    have count := represents.rounds
    omega
  have moves : Staged.move (planOf names) s (moveOf names e.event) =
      some { done := s.done, opened := true, owing := true, rounds := s.rounds + 1, moves := s.moves + 1 } := by
    rw [moveOf, if_neg (by simp [action]), if_pos action, if_neg disposition, ← opened]
    exact (if_pos ⟨opened, bounded, room⟩).trans (by rw [opened])
  rw [stage]
  exact ⟨_, moves, rfl, sentBack_turned represents inside stage (by simp [disposition]) free
    (passStage_reject _ action disposition)⟩

theorem reopen_turned (action : e.event.action = "reopen")
    (turn : advance current e.event index ((names.take s.done).map .str) = .ok (moved, passed)) :
    ∃ next, Staged.move (planOf names) s (moveOf names e.event) = some next ∧
      passed = (names.take next.done).map .str ∧ Turned current moved e names s next := by
  rw [advance_reopen action, represents.getOpenStage, openStageOf_null, ← stage, stage_passed represents.distinct inside]
    at turn
  obtain ⟨earlier, closed, free, rfl, rfl⟩ := turn
  have bounded : s.rounds < 16 := by
    have count := represents.rounds
    omega
  have moves : Staged.move (planOf names) s (moveOf names e.event) =
      some { done := index, opened := true, owing := true, rounds := s.rounds + 1, moves := s.moves + 1 } := by
    rw [moveOf, if_neg (by simp [action]), if_neg (by simp [action]), ← stage, represents.distinct.idxOf_getElem]
    exact if_pos ⟨closed, earlier, bounded, room⟩
  rw [stage]
  refine ⟨_, moves, ?_, sentBack_turned represents inside stage (by simp [action]) free ?_⟩
  · rw [← List.map_take, List.take_take, min_eq_left (Nat.le_of_lt earlier)]
  · rw [passStage_reopen _ action, ← stage, takeWhile_stage represents.distinct inside earlier]

/-- What an event does to the gate is a move of the approval. -/
theorem advance_turned (turn : advance current e.event index ((names.take s.done).map .str) = .ok (moved, passed)) :
    ∃ next, Staged.move (planOf names) s (moveOf names e.event) = some next ∧
      passed = (names.take next.done).map .str ∧ Turned current moved e names s next := by
  obtain action | action | action := e.action_cases
  · exact open_turned represents inside stage room action turn
  · by_cases disposition : e.event.disposition = "accepted"
    · exact accept_turned represents inside stage room action disposition turn
    · exact reject_turned represents inside stage room action disposition turn
  · exact reopen_turned represents inside stage room action turn

end turns

theorem advance_within {index : Nat} {completed passed : List Json}
    (turn : advance current e.event index completed = .ok (moved, passed)) : Within turnFields current moved := by
  obtain action | action | action := e.action_cases
  · obtain ⟨-, -, -, rfl, -⟩ := (advance_open action).mp turn
    exact (within_refl _ _).set (by decide) _
  · by_cases disposition : e.event.disposition = "accepted"
    · obtain ⟨-, rfl, -⟩ := (advance_accept action disposition).mp turn
      exact (within_refl _ _).set (by decide) _
    · obtain ⟨-, -, rfl, -⟩ := (advance_reject action disposition).mp turn
      exact sentBack_within _ _
  · obtain ⟨-, -, -, rfl, -⟩ := (advance_reopen action).mp turn
    exact sentBack_within _ _

/-- An accepted event is a move, and the gate that it leaves represents the state after it. -/
theorem applyEvent_represents {task last : Meta} {note : String}
    (represents : Represents (startFields task e.event) names s)
    (accepted : applyEvent task e.event humanSession = .ok (last, note)) :
    ∃ next fields, Staged.move (planOf names) s (moveOf names e.event) = some next ∧
      last = task.set "oracle_gate" (.obj fields) ∧ Represents fields names next := by
  obtain ⟨-, -, allowed, -, index, moved, passed, found, turn, room, rfl, -⟩ := applyEvent_eq_ok.mp accepted
  have ready := prepared_represents represents
  rw [ready.sequenceOf] at found
  obtain ⟨inside, stage⟩ := stage_found found
  rw [represents.completed] at turn
  obtain ⟨records, events, recorded⟩ := ready.history
  have bounded : s.moves < 32 := by
    rw [(advance_within turn).get (by decide), events, Json.items, recorded.count] at room
    exact room
  obtain ⟨next, moves, rfl, turned⟩ := advance_turned ready inside stage bounded turn
  exact ⟨next, _, moves, rfl, written_represents ready turned allowed bounded⟩

end step

end Coordinator.OracleLifecycle
