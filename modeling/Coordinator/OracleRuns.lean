import Coordinator.Kit.Run
import Coordinator.OracleMoves

/-! Runs of events on the gate of a task, with any other change of its metadata in between. -/

namespace Coordinator.OracleLifecycle
open Kit Dict

/-- The fields of a task's gate, fresh where it has none. -/
def gateFields (task : Meta) : Dict := (if (gate task).truthy then gate task else freshGate).fields

/-- A call that applies an event, or a change of another field. -/
inductive Change
  | event (e : GateEvent) (humanSession : Option Json)
  | set (key : String) (value : Json)
  | drop (key : String)

/-- A refused event leaves the metadata as it is. -/
def Change.apply (task : Meta) : Change → Meta
  | .event e humanSession =>
      match applyEvent task e.event humanSession with
      | .ok (next, _) => next
      | .error _ => task
  | .set key value => if key = "oracle_gate" then task else task.set key value
  | .drop key => if key = "oracle_gate" then task else task.pop key

/-- The operations that a gate may block. -/
def gatedOperations : List String := ["promote", "claim", "run", "release"]

section admission

variable {fields : Dict} {names : List String} {s : Staged.State} {task : Meta}

theorem eqItems_str {some other : List String} :
    Json.eqItems (some.map .str) (other.map .str) = true ↔ some = other := by
  induction some generalizing other with
  | nil => cases other <;> simp [Json.eqItems]
  | cons name rest ih =>
    cases other with
    | nil => simp [Json.eqItems]
    | cons name' rest' =>
      have same : Json.eq (.str name) (.str name') = (name == name') := rfl
      simp [Json.eqItems, ih, same]

theorem stage_ne_empty {name : String} (known : name ∈ gateSequence ++ stageGateSequence) : name ≠ "" := by
  rintro rfl
  revert known
  decide

/-- The open stage blocks while there is one. -/
theorem Represents.openStage_truthy (represents : Represents fields names s) :
    (fields.get "open_stage").truthy = s.opened := by
  rw [represents.getOpenStage, openStageOf]
  cases opened : s.opened with
  | false => rfl
  | true =>
    have inside : s.done < names.length := by
      have within := represents.within
      rw [opened] at within
      exact within
    have known := stage_ne_empty (represents.stages _ (List.getElem_mem inside))
    simp [List.getElem?_eq_getElem inside, known]

theorem Represents.complete (represents : Represents fields names s) :
    sameItems (fields.get "completed") (OracleLifecycle.sequenceOf (.obj fields)) = true ↔ s.done = names.length := by
  have within := represents.within
  rw [represents.sequenceOf, represents.completed, sameItems]
  change Json.eqItems _ _ = true ↔ _
  rw [eqItems_str, List.take_eq_self_iff]
  constructor <;> intro <;> omega

theorem Represents.sequence_given (represents : Represents fields names s) :
    (fields.has "stage_sequence" && (fields.get "stage_sequence").isNull) = false := by
  obtain ⟨absent, -⟩ | listed := represents.sequence
  · simp [absent]
  · simp [listed, Json.isNull]

/-- A gate lets an operation through exactly when its approval is admitted. -/
theorem transitionAllowed_iff (represents : Represents fields names s) (held : gate task = .obj fields)
    {operation : String} (gated : operation ∈ gatedOperations) :
    transitionAllowed task operation = .ok () ↔ Staged.Admitted (planOf names) s := by
  have listed : ["promote", "claim", "run", "release"].contains operation = true := List.contains_iff_mem.mpr gated
  have completed : fields.has "completed" = true := has_of_get_ne (by simp [represents.completed])
  have presenting : ((fields.get "human_session").isObj && presentingStatus (fields.get "human_session")) = true →
      s.opened = true := fun both => represents.presenting (Bool.and_eq_true_iff.mp both).2
  have object : (Json.obj fields).isObj = true := rfl
  simp only [transitionAllowed, held, object, Json.has_obj, Json.get_obj, represents.sequence_given, Bool.true_and,
    raiseIf_eq_ok, bind_eq_ok, exists_unit, true_and, listed, Bool.and_true, represents.required, isTrue, completed,
    represents.openStage_truthy, represents.owing, Bool.or_eq_false_iff, Bool.not_eq_false', represents.complete]
  rw [Staged.Admitted, and_assoc, and_assoc, ← Bool.not_eq_true (_ && _)]
  constructor
  · rintro ⟨closed, clear, all, -⟩
    exact ⟨all, closed, clear⟩
  · rintro ⟨all, closed, clear⟩
    exact ⟨closed, clear, all, fun both => by simp [presenting both] at closed⟩

end admission

/-- The gate of a task, present or still fresh, stands for a state of the approval. -/
structure Stands (task : Meta) (names : List String) (s : Staged.State) : Prop where
  held : gate task = .null ∨ gate task = .obj (gateFields task)
  represents : Represents (gateFields task) names s

/-- Before the first event. -/
def unopened : Staged.State := { done := 0, opened := false, owing := false, rounds := 0, moves := 0 }

section stands

variable {task last : Meta} {names : List String} {s : Staged.State} {e : GateEvent} {humanSession : Option Json}
  {note : String}

theorem stands_fresh (absent : gate task = .null) : Stands task gateSequence unopened where
  held := .inl absent
  represents := by
    rw [gateFields, absent]
    exact fresh_represents

theorem gateFields_obj {fields : Dict} (held : gate task = .obj fields) (present : fields ≠ []) :
    gateFields task = fields := by
  have truthy : (Json.obj fields).truthy = true := by
    cases fields with
    | nil => exact absurd rfl present
    | cons entry rest => rfl
  rw [gateFields, held, truthy]
  rfl

theorem Represents.ne_nil {fields : Dict} (represents : Represents fields names s) : fields ≠ [] := by
  rintro rfl
  have required := represents.required
  simp [Dict.get, Dict.find] at required

theorem stands_obj {fields : Dict} (held : gate task = .obj fields) (represents : Represents fields names s) :
    Stands task names s := by
  have same := gateFields_obj held represents.ne_nil
  exact ⟨.inr (same ▸ held), same ▸ represents⟩

theorem stands_of_gate {other : Meta} (stands : Stands task names s) (same : gate other = gate task) :
    Stands other names s := by
  have fields : gateFields other = gateFields task := by rw [gateFields, same, gateFields]
  exact ⟨by rw [same, fields]; exact stands.held, by rw [fields]; exact stands.represents⟩

theorem startFields_of_not (other : ¬ ((gateFields task).has "stage_sequence" = false ∧ e.event.stage ∈ stageGateSequence)) :
    startFields task e.event = gateFields task := by
  rw [startFields, ← gateFields, if_neg]
  simpa using other

theorem startFields_of_inserts (absent : (gateFields task).has "stage_sequence" = false)
    (stage : e.event.stage ∈ stageGateSequence) :
    startFields task e.event = (gateFields task).set "stage_sequence" (.arr (stageGateSequence.map .str)) := by
  rw [startFields, ← gateFields, if_pos]
  simpa using ⟨absent, stage⟩

/-- What an event starts from is represented too, under the sequence of its stage. -/
theorem Stands.startFields (stands : Stands task names s) (errors : gateErrors (.obj (startFields task e.event)) = []) :
    ∃ names', (names' = names ∨ names = gateSequence ∧ names' = stageGateSequence ∧ s.done = 0 ∧ s.opened = false) ∧
      Represents (OracleLifecycle.startFields task e.event) names' s := by
  by_cases inserts : (gateFields task).has "stage_sequence" = false ∧ e.event.stage ∈ stageGateSequence
  · rw [startFields_of_inserts inserts.1 inserts.2] at errors ⊢
    obtain absent | valid := gateErrors_eq_nil.mp errors
    · cases absent
    · obtain ⟨plain, none, closed⟩ := inserted_unopened stands.represents inserts.1 valid
      exact ⟨stageGateSequence, .inr ⟨plain, rfl, none, closed⟩, inserted_represents stands.represents inserts.1 valid⟩
  · rw [startFields_of_not inserts]
    exact ⟨names, .inl rfl, stands.represents⟩

theorem Stands.errors_nil (stands : Stands task names s)
    (errors : (if (gate task).truthy && !(gate task).isObj then gateErrors (gate task)
      else gateErrors (.obj (OracleLifecycle.startFields task e.event))) = []) :
    gateErrors (.obj (OracleLifecycle.startFields task e.event)) = [] := by
  obtain absent | held := stands.held
  · simpa [absent] using errors
  · rw [held] at errors
    simpa [Json.isObj] using errors

/-- An accepted event takes a represented gate to a represented gate by one move. -/
theorem Stands.event (stands : Stands task names s)
    (accepted : applyEvent task e.event humanSession = .ok (last, note)) :
    ∃ names' next,
      (names' = names ∨ names = gateSequence ∧ names' = stageGateSequence ∧ s.done = 0 ∧ s.opened = false) ∧
      Staged.WellFormed (planOf names') s ∧ Staged.move (planOf names') s (moveOf names' e.event) = some next ∧
      Stands last names' next ∧ gate last = .obj (gateFields last) := by
  have errors := stands.errors_nil (applyEvent_eq_ok.mp accepted).2.1
  obtain ⟨names', sequence, represents⟩ := stands.startFields errors
  obtain ⟨next, fields, moves, rfl, after⟩ := applyEvent_represents represents accepted
  have held : gate (task.set "oracle_gate" (.obj fields)) = .obj fields := by simp [gate]
  exact ⟨names', next, sequence, represents.wellFormed, moves, stands_obj held after,
    by rw [gateFields_obj held after.ne_nil]; exact held⟩

end stands

/-- The sequences of gates that events create. -/
def createdSequences : List (List String) := [gateSequence, stageGateSequence]

/-- What events and other changes keep of a gate that they created. -/
def Kept (task : Meta) : Prop :=
  ∃ names ∈ createdSequences, ∃ s, Stands task names s ∧ Staged.Cleared (planOf names) s

theorem createdSequences_clear : ∀ names ∈ createdSequences,
    (planOf names).clears ((planOf names).stages - 1) = true := by
  decide

theorem Change.apply_gate {task : Meta} {key : String} {value : Json} :
    gate ((Change.set key value).apply task) = gate task ∧ gate ((Change.drop key).apply task) = gate task := by
  simp only [Change.apply]
  by_cases same : key = "oracle_gate"
  · simp [same]
  · simp [same, gate, Ne.symm same]

theorem Change.apply_kept (task : Meta) (change : Change) (kept : Kept task) : Kept (change.apply task) := by
  obtain ⟨names, created, s, stands, cleared⟩ := kept
  cases change with
  | event e humanSession =>
    rw [Change.apply]
    cases accepted : applyEvent task e.event humanSession with
    | error fault => exact ⟨names, created, s, stands, cleared⟩
    | ok result =>
      obtain ⟨last, note⟩ := result
      obtain ⟨names', next, sequence, fits, moves, after, -⟩ := stands.event accepted
      have created' : names' ∈ createdSequences := by
        obtain rfl | ⟨-, rfl, -, -⟩ := sequence
        · exact created
        · simp [createdSequences]
      exact ⟨names', created', next, after, Staged.move_cleared fits (createdSequences_clear names' created') moves⟩
  | set key value => exact ⟨names, created, s, stands_of_gate stands Change.apply_gate.1, cleared⟩
  | drop key => exact ⟨names, created, s, stands_of_gate stands (@Change.apply_gate _ _ .null).2, cleared⟩

/-- A gate in order, whose open stage follows the completed ones, and which lets the gated operations
through exactly when all stages have been accepted in order and no session is being presented. -/
structure GateSound (task : Meta) (fields : Dict) (names : List String) : Prop where
  held : gate task = .obj fields
  errors : gateErrors (gate task) = []
  sequence : sequenceOf (gate task) = names.map .str
  stages : ∃ done ≤ names.length, fields.get "completed" = .arr ((names.take done).map .str) ∧
    (fields.get "open_stage" = .null ∨ ∃ inside : done < names.length, fields.get "open_stage" = .str names[done])
  admits : ∀ operation ∈ gatedOperations, transitionAllowed task operation = .ok () ↔
    acceptedStages (fields.get "events").items = names ∧ presentingStatus (fields.get "human_session") = false

theorem Stands.sound {task : Meta} {names : List String} {s : Staged.State} (stands : Stands task names s)
    (cleared : Staged.Cleared (planOf names) s) (held : gate task = .obj (gateFields task)) :
    GateSound task (gateFields task) names := by
  have represents := stands.represents
  have within := represents.within
  obtain ⟨records, events, recorded⟩ := represents.history
  have accepted : acceptedStages ((gateFields task).get "events").items = names ↔ s.done = names.length := by
    rw [events, Json.items, recorded.passed, List.take_eq_self_iff]
    constructor <;> intro <;> omega
  exact
    { held := held
      errors := by
        rw [held]
        exact gateErrors_eq_nil.mpr (.inr represents.valid)
      sequence := by
        rw [held]
        exact represents.sequenceOf
      stages := by
        refine ⟨s.done, by omega, represents.completed, ?_⟩
        rw [represents.getOpenStage, openStageOf]
        cases opened : s.opened with
        | false => exact .inl rfl
        | true =>
          have inside : s.done < names.length := by
            rw [opened] at within
            exact within
          exact .inr ⟨inside, by simp [List.getElem?_eq_getElem inside]⟩
      admits := by
        intro operation gated
        rw [transitionAllowed_iff represents held gated, accepted]
        constructor
        · rintro ⟨all, closed, -⟩
          refine ⟨all, Bool.not_eq_true _ ▸ fun presenting => ?_⟩
          rw [represents.presenting presenting] at closed
          cases closed
        · rintro ⟨all, -⟩
          refine ⟨all, ?_, cleared all⟩
          by_contra opened
          rw [Bool.not_eq_false] at opened
          rw [opened, all] at within
          exact absurd within (Nat.not_succ_le_self _) }

def openIntake : GateEvent :=
  @GateEvent.make "AR-0001" "intake" "open" "accepted" 1 (by decide) (by decide) (by decide) (by decide) (by decide)

end Coordinator.OracleLifecycle
