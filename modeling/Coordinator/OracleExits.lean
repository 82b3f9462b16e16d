import Coordinator.OracleRuns

/-! Ways out of a gate. Every move of the staged approval is made by some event, so a gate leads to
one that lets a claim through exactly when its approval is solvable. -/

namespace Coordinator.OracleLifecycle
open Kit Dict

section completeness

/-- Metadata with the identity and revision that events name. -/
structure Identified (task : Meta) (taskId : String) (number : Int) : Prop where
  id : task.get "id" = .str taskId
  named : isTaskId taskId = true
  revision : task.get "task_revision" = .int number
  positive : 1 ≤ number

variable {task last : Meta} {names : List String} {s next : Staged.State} {taskId : String} {revision : Int}

/-- The event for the next stage, or for the one named. -/
theorem exists_turn (represents : Represents (prepared (gateFields task)) names s) {m : Staged.Move}
    (moves : Staged.move (planOf names) s m = some next) :
    ∃ index, ∃ inside : index < names.length, ∃ action disposition, actions.contains action = true ∧
      dispositions.contains disposition = true ∧ ∀ event : InteractionEvent, event.stage = names[index] →
        event.action = action → event.disposition = disposition → moveOf names event = m ∧ s.moves < 32 ∧
          ∃ result, advance (prepared (gateFields task)) event index ((names.take s.done).map .str) = .ok result := by
  have within := represents.within
  have opens := represents.getOpenStage
  cases m with
  | start =>
    simp only [Staged.move, Option.ite_none_right_eq_some, Option.some.injEq] at moves
    obtain ⟨⟨closed, ahead, room⟩, -⟩ := moves
    refine ⟨s.done, ahead, "open", "accepted", by decide, by decide, fun event stage action disposition => ?_⟩
    refine ⟨by rw [moveOf, if_pos action], room, _, (advance_open action).mpr ⟨?_, ?_, ?_, rfl, rfl⟩⟩
    · rw [opens, openStageOf_null]
      exact closed
    · rw [stage, ← Bool.not_eq_true, stage_passed represents.distinct ahead]
      exact Nat.lt_irrefl _
    · rw [List.length_map, List.length_take]
      exact (min_eq_left (Nat.le_of_lt ahead)).symm
  | accept =>
    simp only [Staged.move, Option.ite_none_right_eq_some, Option.some.injEq] at moves
    obtain ⟨⟨opened, room⟩, -⟩ := moves
    have ahead : s.done < names.length := by
      rw [opened] at within
      exact within
    refine ⟨s.done, ahead, "resolve", "accepted", by decide, by decide, fun event stage action disposition => ?_⟩
    refine ⟨by rw [moveOf, if_neg (by simp [action]), if_pos action, if_pos disposition], room, _,
      (advance_accept action disposition).mpr ⟨?_, rfl, rfl⟩⟩
    rw [opens, stage, openStageOf_stage represents.distinct ahead within]
    exact ⟨opened, rfl⟩
  | reject =>
    simp only [Staged.move, Option.ite_none_right_eq_some, Option.some.injEq] at moves
    obtain ⟨⟨opened, free, room⟩, -⟩ := moves
    have ahead : s.done < names.length := by
      rw [opened] at within
      exact within
    have count := represents.rounds
    have limit : s.rounds < 16 := free
    refine ⟨s.done, ahead, "resolve", "rejected", by decide, by decide, fun event stage action disposition => ?_⟩
    have other : event.disposition ≠ "accepted" := by simp [disposition]
    refine ⟨by rw [moveOf, if_neg (by simp [action]), if_pos action, if_neg other], room, _,
      (advance_reject action other).mpr ⟨?_, by omega, rfl, rfl⟩⟩
    rw [opens, stage, openStageOf_stage represents.distinct ahead within]
    exact ⟨opened, rfl⟩
  | reopen index =>
    simp only [Staged.move, Option.ite_none_right_eq_some, Option.some.injEq] at moves
    obtain ⟨⟨closed, earlier, free, room⟩, -⟩ := moves
    have inside : index < names.length := by omega
    have count := represents.rounds
    have limit : s.rounds < 16 := free
    refine ⟨index, inside, "reopen", "accepted", by decide, by decide, fun event stage action disposition => ?_⟩
    refine ⟨?_, room, _, (advance_reopen action).mpr ⟨?_, ?_, by omega, rfl, rfl⟩⟩
    · rw [moveOf, if_neg (by simp [action]), if_neg (by simp [action]), stage, represents.distinct.idxOf_getElem]
    · rw [stage, stage_passed represents.distinct inside]
      exact earlier
    · rw [opens, openStageOf_null]
      exact closed

/-- Every move of the approval is made by some event that is accepted. -/
theorem exists_event (stands : Stands task names s) (identified : Identified task taskId revision) {m : Staged.Move}
    (moves : Staged.move (planOf names) s m = some next) :
    ∃ (e : GateEvent) (last : Meta) (note : String), applyEvent task e.event none = .ok (last, note) ∧
      Stands last names next ∧ gate last = .obj (gateFields last) ∧ Identified last taskId revision := by
  have ready := prepared_represents stands.represents
  obtain ⟨index, inside, action, disposition, action_, disposition_, turns⟩ := exists_turn ready moves
  have known := stands.represents.stages _ (List.getElem_mem inside)
  let e := GateEvent.make identified.named identified.positive known action_ disposition_
  have starts : startFields task e.event = gateFields task := by
    refine startFields_of_not fun inserts => ?_
    obtain ⟨-, rfl⟩ | listed := stands.represents.sequence
    · have apart : ∀ name ∈ gateSequence, name ∉ stageGateSequence := by decide
      exact apart _ (List.getElem_mem inside) inserts.2
    · rw [get_of_not_has inserts.1] at listed
      cases listed
  obtain ⟨same, room, result, turn⟩ := turns e.event rfl rfl rfl
  obtain ⟨records, events, recorded⟩ := ready.history
  have accepted : ∃ last note, applyEvent task e.event none = .ok (last, note) := by
    refine ⟨_, _, applyEvent_eq_ok.mpr ⟨⟨identified.id, ?_⟩, ?_, rfl, ?_, index, result.1, result.2, ?_, ?_, ?_, rfl, rfl⟩⟩
    · rw [identified.revision]
      exact (Json.beq_int_int _ _).mpr rfl
    · have valid : gateErrors (.obj (gateFields task)) = [] := gateErrors_eq_nil.mpr (.inr stands.represents.valid)
      rw [starts]
      obtain absent | held := stands.held
      · simpa [absent] using valid
      · rw [held]
        simpa [Json.isObj] using valid
    · rw [starts]
      exact stands.represents.sequence_given
    · rw [starts, ready.sequenceOf]
      exact find_stage stands.represents.distinct inside
    · rw [starts, stands.represents.completed]
      exact turn
    · rw [(@advance_within _ _ e _ _ _ turn).get (by decide), events, Json.items, recorded.count]
      exact room
  obtain ⟨last, note, accepted⟩ := accepted
  have represents : Represents (startFields task e.event) names s := starts ▸ stands.represents
  obtain ⟨after, fields, made, rfl, next_⟩ := applyEvent_represents represents accepted
  rw [same, moves] at made
  obtain rfl := Option.some.inj made
  have held : gate (task.set "oracle_gate" (.obj fields)) = .obj fields := by simp [gate]
  refine ⟨e, _, note, accepted, stands_obj held next_, by rw [gateFields_obj held next_.ne_nil]; exact held, ?_⟩
  exact ⟨by simpa using identified.id, identified.named, by simpa using identified.revision, identified.positive⟩

end completeness

/-- Calls that are all accepted, one after the other. -/
def applyCalls (task : Meta) (calls : List (GateEvent × Option Json)) : Outcome Meta :=
  calls.foldlM (fun task call => do
    let (next, _) ← applyEvent task call.1.event call.2
    pure next) task

/-- Some calls are accepted and leave a gate that lets the task be claimed. -/
def LeadsOut (task : Meta) : Prop :=
  ∃ calls last, applyCalls task calls = .ok last ∧ transitionAllowed last "claim" = .ok ()

/-- Only the first event finds no stage open and none passed. -/
def Begun (s : Staged.State) : Prop := s.done = 0 → s.opened = false → s.moves = 0

section exits

variable {task last : Meta} {names : List String} {s next : Staged.State} {taskId : String} {number : Int}

theorem applyCalls_cons {call : GateEvent × Option Json} {calls : List (GateEvent × Option Json)} :
    applyCalls task (call :: calls) = .ok last ↔ ∃ middle note,
      applyEvent task call.1.event call.2 = .ok (middle, note) ∧ applyCalls middle calls = .ok last := by
  rw [applyCalls, List.foldlM_cons, bind_eq_ok]
  simp only [bind_eq_ok, Prod.exists, pure_eq_ok]
  constructor
  · rintro ⟨middle, ⟨_, note, accepted, rfl⟩, rest⟩
    exact ⟨_, note, accepted, rest⟩
  · rintro ⟨middle, note, accepted, rest⟩
    exact ⟨middle, ⟨middle, note, accepted, rfl⟩, rest⟩

theorem move_begun {plan : Staged.Plan} {m : Staged.Move} (moved : Staged.move plan s m = some next) : Begun next := by
  cases m with
  | start =>
    simp only [Staged.move, Option.ite_none_right_eq_some, Option.some.injEq] at moved
    obtain ⟨-, rfl⟩ := moved
    exact fun _ closed => by cases closed
  | accept =>
    simp only [Staged.move, Option.ite_none_right_eq_some, Option.some.injEq] at moved
    obtain ⟨-, rfl⟩ := moved
    exact fun none => by cases none
  | reject =>
    simp only [Staged.move, Option.ite_none_right_eq_some, Option.some.injEq] at moved
    obtain ⟨⟨opened, -⟩, rfl⟩ := moved
    exact fun _ closed => by simp [opened] at closed
  | reopen stage =>
    simp only [Staged.move, Option.ite_none_right_eq_some, Option.some.injEq] at moved
    obtain ⟨-, rfl⟩ := moved
    exact fun _ closed => by cases closed

/-- The default sequence has a way out before its first event. -/
theorem solvable_unopened (begun : Begun s) (none : s.done = 0) (closed : s.opened = false) :
    Staged.Solvable (planOf gateSequence) s := by
  refine .inl ⟨fun _ => ⟨3, by omega, by decide, by decide⟩, ?_⟩
  rw [begun none closed, Staged.rest, none, closed]
  decide

/-- Moves are made by accepted calls. -/
theorem exists_calls (stands : Stands task names s) (identified : Identified task taskId number)
    {moves : List Staged.Move} (ran : Staged.run (planOf names) s moves = some next) :
    ∃ calls last, applyCalls task calls = .ok last ∧ Stands last names next ∧ Identified last taskId number := by
  induction moves generalizing task s with
  | nil =>
    obtain rfl := Option.some.inj ran
    exact ⟨[], task, rfl, stands, identified⟩
  | cons m moves ih =>
    rw [Staged.run_cons] at ran
    obtain ⟨middle, moved, ran⟩ := Option.bind_eq_some_iff.mp ran
    obtain ⟨e, after, note, accepted, onward, -, known⟩ := exists_event stands identified moved
    obtain ⟨calls, last, rest, final⟩ := ih onward known ran
    exact ⟨(e, none) :: calls, last, applyCalls_cons.mpr ⟨after, note, accepted, rest⟩, final⟩

theorem claim_admitted (stands : Stands task names s) (admitted : Staged.Admitted (planOf names) s) :
    transitionAllowed task "claim" = .ok () := by
  obtain absent | held := stands.held
  · simp [transitionAllowed, absent, Json.isObj, bind_eq_ok]
  · exact (transitionAllowed_iff stands.represents held (by decide)).mpr admitted

/-- Calls that lead out of a gate solve its approval. -/
theorem solvable_of_calls (stands : Stands task names s) (held : gate task = .obj (gateFields task)) (begun : Begun s)
    {calls : List (GateEvent × Option Json)} (accepted : applyCalls task calls = .ok last)
    (admits : transitionAllowed last "claim" = .ok ()) : Staged.Solvable (planOf names) s := by
  induction calls generalizing task names s with
  | nil =>
    obtain rfl := Except.ok.inj accepted
    have admitted := (transitionAllowed_iff stands.represents held (by decide)).mp admits
    exact .inl (Staged.admitted_forward stands.represents.wellFormed admitted)
  | cons call calls ih =>
    obtain ⟨middle, note, applied, rest⟩ := applyCalls_cons.mp accepted
    obtain ⟨names', next, same | ⟨rfl, -, none, closed⟩, fits, moved, onward, held'⟩ := stands.event applied
    · rw [same] at fits moved onward
      exact Staged.solvable_of_move fits moved (ih onward held' (move_begun moved) rest)
    · -- the sequence of stage gates replaces the default one before its first stage only
      exact solvable_unopened begun none closed

/-- A gate has a way out exactly when its approval has one. -/
theorem leadsOut_iff (stands : Stands task names s) (held : gate task = .obj (gateFields task)) (begun : Begun s)
    (identified : Identified task taskId number) : LeadsOut task ↔ Staged.Solvable (planOf names) s := by
  constructor
  · rintro ⟨calls, last, accepted, admits⟩
    exact solvable_of_calls stands held begun accepted admits
  · intro solvable
    obtain ⟨moves, final, ran, admitted⟩ := (Staged.solvable_iff stands.represents.wellFormed).mpr solvable
    obtain ⟨calls, last, accepted, onward, -⟩ := exists_calls stands identified ran
    exact ⟨calls, last, accepted, claim_admitted onward admitted⟩

end exits

/-- The stages of a gate, by name. -/
def namesOf (fields : Dict) : List String := (sequenceOf (.obj fields)).map Json.text

/-- Where a gate stands, read from its record. -/
def stateOf (fields : Dict) : Staged.State :=
  { done := (fields.get "completed").items.length, opened := !(fields.get "open_stage").isNull
    owing := (fields.get "reconciliation_required").truthy
    rounds := ((fields.get "discussion_rounds").int?.getD 0).toNat, moves := (fields.get "events").items.length }

/-- A valid gate with any sequence of stages, before its first event. -/
structure NotStarted (value : Json) : Prop where
  valid : gateErrors value = []
  sequence : (value.has "stage_sequence" && (value.get "stage_sequence").isNull) = false
  closed : value.get "open_stage" = .null
  completed : value.get "completed" = .arr []
  events : value.get "events" = .arr []
  rounds : (value.get "discussion_rounds").int?.getD 0 = 0
  owing : (value.get "reconciliation_required").truthy = false

section reading

variable {fields : Dict} {names : List String} {s : Staged.State} {task : Meta}

theorem map_text (names : List String) : (names.map Json.str).map Json.text = names := by
  rw [List.map_map]
  exact List.map_id names

theorem Represents.namesOf (represents : Represents fields names s) : namesOf fields = names := by
  rw [OracleLifecycle.namesOf, represents.sequenceOf, map_text]

theorem Represents.stateOf (represents : Represents fields names s) : stateOf fields = s := by
  obtain ⟨records, events, recorded⟩ := represents.history
  have within := represents.within
  have opened : (!(openStageOf names s).isNull) = s.opened := by
    rw [openStageOf]
    cases s.opened <;> rfl
  have passed : ((names.take s.done).map Json.str).length = s.done := by
    rw [List.length_map, List.length_take]
    omega
  rw [OracleLifecycle.stateOf, represents.completed, represents.getOpenStage, represents.owing, represents.rounds, events,
    opened, Json.items, Json.items, passed, recorded.count, Int.toNat_natCast]

theorem names_of_items {items : List Json} {known : List String}
    (listed : items.all (fun item => RetryCircuit.oneOf item known) = true) :
    ∃ names : List String, items = names.map .str ∧ ∀ name ∈ names, name ∈ known := by
  induction items with
  | nil => exact ⟨[], rfl, by simp⟩
  | cons item rest ih =>
    rw [List.all_cons, Bool.and_eq_true, RetryCircuit.oneOf, Bool.and_eq_true, Json.isStr_iff] at listed
    obtain ⟨⟨⟨name, rfl⟩, member⟩, later⟩ := listed
    obtain ⟨names, rfl, known_⟩ := ih later
    exact ⟨name :: names, rfl, List.forall_mem_cons.mpr ⟨List.contains_iff_mem.mp member, known_⟩⟩

theorem nodup_of_distinct {names : List String} (distinct : RetryCircuit.distinct (names.map .str) = true) :
    names.Nodup := by
  induction names with
  | nil => exact List.nodup_nil
  | cons name rest ih =>
    rw [List.map_cons, RetryCircuit.distinct, Bool.and_eq_true, Bool.not_eq_true', List.any_eq_false] at distinct
    refine List.nodup_cons.mpr ⟨fun member => ?_, ih distinct.2⟩
    exact distinct.1 _ (List.mem_map_of_mem member) (by simp)

/-- A gate before its first event, with whatever sequence the validator admits, stands for the first state. -/
theorem NotStarted.represents (start : NotStarted (.obj fields)) : ∃ names, Represents fields names unopened := by
  obtain absent | valid := gateErrors_eq_nil.mp start.valid
  · cases absent
  have shape : ∃ names, ((fields.has "stage_sequence" = false ∧ names = gateSequence) ∨
      fields.get "stage_sequence" = .arr (names.map .str)) ∧ names ≠ [] ∧ names.Nodup ∧
      ∀ name ∈ names, name ∈ gateSequence ++ stageGateSequence := by
    cases given : fields.has "stage_sequence" with
    | false => exact ⟨gateSequence, .inl ⟨rfl, rfl⟩, by decide, by decide, by decide⟩
    | true =>
      have present := start.sequence
      have sequence := valid.sequence
      rw [Json.has_obj, given, Bool.true_and] at present
      rw [stageSequenceValid, present, Bool.false_or, Bool.and_eq_true, Bool.and_eq_true, Bool.and_eq_true,
        Json.isArr_iff] at sequence
      obtain ⟨⟨⟨⟨items, list⟩, nonempty⟩, distinct⟩, listed⟩ := sequence
      rw [list, Json.items] at nonempty distinct listed
      obtain ⟨names, rfl, known⟩ := names_of_items listed
      exact ⟨names, .inr list, by simpa using nonempty, nodup_of_distinct distinct, known⟩
  obtain ⟨names, sequence, nonempty, distinct, stages⟩ := shape
  have openHeld : fields.find "open_stage" = some .null := by
    have held := List.all_eq_true.mp valid.fields "open_stage" (by decide)
    obtain ⟨value, found⟩ := Option.isSome_iff_exists.mp held
    have closed := start.closed
    change fields.find "open_stage" = some value at found
    rw [Json.get_obj, Dict.get, found, Option.getD_some] at closed
    rw [found, closed]
  have session : fields.get "human_session" = .null := by
    obtain absent | ⟨item, member, -⟩ := valid.opening
    · exact Json.isNull_iff.mp absent
    · rw [start.events] at member
      cases member
  refine ⟨names, ?_⟩
  exact
    { required := by
        have required := valid.required
        rw [Json.get_obj] at required
        cases found : fields.get "required" with
        | bool flag =>
          rw [found] at required
          exact congrArg Json.bool required
        | _ => simp [found, isTrue] at required
      known := fun key held => by
        have known := List.all_eq_true.mp valid.known key ((mem_keys_iff_has _ _).mpr held)
        exact List.contains_iff_mem.mp known
      sequence := sequence
      nonempty := nonempty
      distinct := distinct
      stages := stages
      within := Nat.zero_le _
      completed := start.completed
      openStage := openHeld
      rounds := start.rounds
      counted := valid.rounds
      authorized := valid.authorized
      reconciliation := valid.reconciliation
      owing := start.owing
      session := valid.session
      presenting := by
        rw [session]
        exact fun presenting => by cases presenting
      history := ⟨[], start.events, rfl, Nat.zero_le _, by simp, rfl, .inl (by rw [session]; rfl)⟩ }

end reading

/-- What every run keeps of a gate that starts absent or before its first event. -/
def Reached (task : Meta) : Prop := ∃ names s, Stands task names s ∧ Begun s

theorem Change.apply_reached (task : Meta) (change : Change) (reached : Reached task) : Reached (change.apply task) := by
  obtain ⟨names, s, stands, begun⟩ := reached
  cases change with
  | event e humanSession =>
    rw [Change.apply]
    cases accepted : applyEvent task e.event humanSession with
    | error fault => exact ⟨names, s, stands, begun⟩
    | ok result =>
      obtain ⟨last, note⟩ := result
      obtain ⟨names', next, -, -, moved, after, -⟩ := stands.event accepted
      exact ⟨names', next, after, move_begun moved⟩
  | set key value => exact ⟨names, s, stands_of_gate stands Change.apply_gate.1, begun⟩
  | drop key => exact ⟨names, s, stands_of_gate stands (@Change.apply_gate _ _ .null).2, begun⟩

theorem reached_start {start : Meta} (fresh : gate start = .null ∨ NotStarted (gate start)) : Reached start := by
  obtain absent | start_ := fresh
  · exact ⟨gateSequence, unopened, stands_fresh absent, fun _ _ => rfl⟩
  · have object : (gate start).isObj = true := @Json.isObj_of_get_ne _ "events" (by simp [start_.events])
    obtain ⟨fields, held⟩ := Json.isObj_iff.mp object
    rw [held] at start_
    obtain ⟨names, represents⟩ := start_.represents
    exact ⟨names, unopened, stands_obj held represents, fun _ _ => rfl⟩

/-- A task with a gate of one stage that settles. -/
def decisionTask : Meta :=
  [("id", .str "AR-0001"), ("task_revision", .int 1), ("oracle_gate", .obj [("required", .bool true),
    ("open_stage", .null), ("completed", .arr []), ("events", .arr []), ("stage_sequence", .arr [.str "decision"])])]

/-- Intake is opened and accepted, reopened and accepted eleven times over, reopened and rejected. -/
def exhaustingMoves : List Staged.Move :=
  ([.start, .accept] : List Staged.Move) ++ (List.replicate 11 [Staged.Move.reopen 0, .accept]).flatten ++
    ([.reopen 0, .reject] : List Staged.Move)

end Coordinator.OracleLifecycle
