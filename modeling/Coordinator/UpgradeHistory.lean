import Coordinator.UpgradeProgress

/-! Runs of an upgrade engine: each journal write is a move of the automaton, and each execution meets
the journal that has just opened its phase, whatever the adapters and handlers answer and wherever a
call crashes. A predicate on progress that rides along says what else the writes respect. -/

namespace Coordinator.Upgrade
open Kit

theorem disk_write (history : List Effect) (value : Journal) : disk (history ++ [Effect.write value]) = some value := by
  simp [disk, Effect.leaves]

theorem disk_execute (history : List Effect) (step : Step) : disk (history ++ [Effect.execute step]) = disk history := by
  simp [disk, Effect.leaves]

abbrev snoc (history : List Effect) (effect : Effect) : List Effect := history ++ [effect]

theorem final_snoc_eq (history effects : List Effect) : Run.final snoc history effects = history ++ effects := by
  induction effects generalizing history with
  | nil => simp [Run.final]
  | cons effect rest ih =>
    rw [Run.final_cons, ih]
    simp

namespace Progress

/-- An upgrade that goes forward. -/
abbrev ahead (done : List Dict) (opened : Option Opened) : Progress := ⟨done, opened, none, false⟩

/-- The phase has a record. -/
def HasRecord (p : Progress) (phase : Phase) : Prop := ∃ index < p.reached, phases[index]? = some phase

/-- The phase was opened last, and the upgrade goes forward. -/
def Opens (p : Progress) (phase : Phase) : Prop :=
  p.opened = some .started ∧ p.reversal = none ∧ phases[p.done.length]? = some phase

end Progress

namespace Engine

variable (engine : Engine) (Good : Progress → Prop)

/-- The effects so far have led the upgrade to this progress. -/
structure Holds (p : Progress) (history : List Effect) : Prop where
  valid : engine.Valid p
  good : Good p
  stored : disk history = some (engine.journal p)
  executed : ∀ phase, .execute (.phase phase) ∈ history → p.HasRecord phase
  clean : p.Clean → ∀ value, .write value ∈ history → ∀ record ∈ value.records, record.Clean

/-- What an effect may be after the others. -/
def Lawful (history : List Effect) : Effect → Prop
  | .write value => history = [] ∧ value = engine.planned ∨
      ∃ p after, engine.Holds Good p history ∧ engine.Moves p after ∧ Good after ∧ value = engine.journal after
  | .execute (.phase phase) => ∃ p, engine.Holds Good p history ∧ p.Opens phase ∧ .execute (.phase phase) ∉ history
  | .execute .rollback => ∃ p context, engine.Holds Good p history ∧ p.reversal = some (context, .started)

def Held (history : List Effect) : Prop := history = [] ∨ ∃ p, engine.Holds Good p history

variable {engine Good}

theorem Moves.reached {p after : Progress} (moves : engine.Moves p after) : p.reached ≤ after.reached := by
  cases moves with
  | opens idle => simp [Progress.reached, idle]
  | stops opened running => simp [Progress.reached, running]
  | succeeds running => simp [Progress.reached, running]
  | _ => exact le_refl _

/-- The upgrade was clean before it came to a clean progress. -/
theorem Moves.clean {p after : Progress} (moves : engine.Moves p after) (clean : after.Clean) : p.Clean := by
  cases moves with
  | opens idle forward => exact ⟨forward, .inl idle⟩
  | stops opened running forward => exact ⟨forward, .inr running⟩
  | succeeds running forward => exact ⟨forward, .inr running⟩
  | finishes idle forward => exact ⟨forward, .inl idle⟩
  | reverts => cases clean.1
  | settles => cases clean.1
  | releases => cases clean.1

theorem clean_of_mem_journal {p : Progress} (clean : p.Clean) {record : Record} (member : record ∈ (engine.journal p).records) :
    record.Clean := by
  obtain ⟨forward, stage⟩ := clean
  simp only [journal, forward, reversalRecords, List.append_nil, List.mem_append] at member
  rcases member with earlier | last
  · obtain ⟨index, _, same⟩ := List.mem_iff_getElem.mp earlier
    simp only [successes, List.getElem_zipWith] at same
    subst same
    exact ⟨by simp [successRecord, startedRecord], .inr rfl⟩
  · rcases stage with idle | running
    · simp [idle, openedRecords_none] at last
    · cases current : phases[p.done.length]? with
      | none => simp [openedRecords, current] at last
      | some phase =>
        simp only [openedRecords, current, running, List.mem_singleton] at last
        subst last
        exact ⟨by simp [openedRecord, startedRecord], .inl rfl⟩

namespace Holds

variable {p : Progress} {history : List Effect}

theorem start (good : Good ⟨[], none, none, false⟩) : engine.Holds Good ⟨[], none, none, false⟩ [.write engine.planned] where
  valid := Valid.start
  good := good
  stored := by
    rw [journal_planned]
    rfl
  executed phase member := by simp at member
  clean _ value member record inside := by
    simp only [List.mem_singleton, Effect.write.injEq] at member
    subst member
    cases inside

theorem write {after : Progress} (holds : engine.Holds Good p history) (moves : engine.Moves p after) (good : Good after) :
    engine.Holds Good after (snoc history (.write (engine.journal after))) where
  valid := holds.valid.move moves
  good := good
  stored := disk_write _ _
  executed phase member := by
    have earlier : .execute (.phase phase) ∈ history := by simpa using member
    obtain ⟨index, below, found⟩ := holds.executed phase earlier
    exact ⟨index, lt_of_lt_of_le below moves.reached, found⟩
  clean clean value member record inside := by
    rcases List.mem_append.mp member with earlier | last
    · exact holds.clean (moves.clean clean) value earlier record inside
    · simp only [List.mem_singleton, Effect.write.injEq] at last
      subst last
      exact clean_of_mem_journal clean inside

theorem execute {phase : Phase} (holds : engine.Holds Good p history) (opens : p.Opens phase) :
    engine.Holds Good p (snoc history (.execute (.phase phase))) where
  valid := holds.valid
  good := holds.good
  stored := (disk_execute _ _).trans holds.stored
  executed known member := by
    rcases List.mem_append.mp member with earlier | last
    · exact holds.executed known earlier
    · simp only [List.mem_singleton, Effect.execute.injEq, Step.phase.injEq] at last
      subst last
      refine ⟨p.done.length, ?_, opens.2.2⟩
      simp [Progress.reached, opens.1]
  clean clean value member := holds.clean clean value (by simpa using member)

theorem executeRollback (holds : engine.Holds Good p history) :
    engine.Holds Good p (snoc history (.execute .rollback)) where
  valid := holds.valid
  good := holds.good
  stored := (disk_execute _ _).trans holds.stored
  executed phase member := holds.executed phase (by simpa using member)
  clean clean value member := holds.clean clean value (by simpa using member)

end Holds

/-- What a lawful effect leaves behind. -/
theorem Lawful.held (planned : Good ⟨[], none, none, false⟩) {history : List Effect} {effect : Effect}
    (lawful : engine.Lawful Good history effect) : engine.Held Good (snoc history effect) := by
  right
  cases effect with
  | write value =>
    rcases lawful with ⟨rfl, rfl⟩ | ⟨p, after, holds, moves, good, rfl⟩
    · exact ⟨_, Holds.start planned⟩
    · exact ⟨after, holds.write moves good⟩
  | execute step =>
    cases step with
    | phase phase =>
      obtain ⟨p, holds, opens, _⟩ := lawful
      exact ⟨p, holds.execute opens⟩
    | rollback =>
      obtain ⟨p, _, holds, _⟩ := lawful
      exact ⟨p, holds.executeRollback⟩

/-! The calls. -/

theorem nodup_phases : phases.Nodup := by decide

theorem index_unique {index other : Nat} {phase : Phase} (first : phases[index]? = some phase)
    (second : phases[other]? = some phase) : index = other := by
  obtain ⟨inside, _⟩ := List.getElem?_eq_some_iff.mp first
  exact (List.getElem?_inj inside nodup_phases).mp (first.trans second.symm)

/-- A phase that comes next has never been executed. -/
theorem Holds.fresh {p : Progress} {history : List Effect} {phase : Phase} (holds : engine.Holds Good p history)
    (idle : p.opened = none) (current : phases[p.done.length]? = some phase) : .execute (.phase phase) ∉ history := by
  intro member
  obtain ⟨index, below, found⟩ := holds.executed phase member
  have same := index_unique found current
  simp only [Progress.reached, idle, Option.isSome_none, Bool.false_eq_true, if_false] at below
  omega

theorem load_value {verifier : Verifier} {value loaded : Journal} (read : engine.load verifier value = .ok loaded) :
    loaded = value := by
  simp only [load, bind_eq_ok, pure_eq_ok] at read
  obtain ⟨_, _, _, _, _, _, _, _, _, _, same⟩ := read
  exact same.symm

theorem Holds.read {p : Progress} {history : List Effect} {verifier : Verifier} {value : Journal}
    (holds : engine.Holds Good p history) (read : engine.readJournal verifier (disk history) = .ok value) :
    value = engine.journal p := by
  rw [holds.stored] at read
  exact load_value read

abbrev Leads {α : Type} (engine : Engine) (Good : Progress → Prop) (history : List Effect) (t : Attempted α)
    (post : Outcome α → List Effect → Prop) : Prop := Trace.Meets snoc (engine.Lawful Good) history t post

open Trace (Meets)

theorem plan_leads {history : List Effect} (held : engine.Held Good history) :
    engine.Leads Good history (engine.plan (disk history)) (fun _ _ => True) := by
  refine Meets.lift_bind (fun _ _ => trivial) fun u unplanned => ?_
  have empty : history = [] := by
    rcases held with rfl | ⟨p, holds⟩
    · rfl
    · simp [refuseIf, holds.stored] at unplanned
  exact Meets.emit_bind (.inl ⟨empty, rfl⟩) (Meets.pure trivial)

/-- A dispatch executes its phase once, or not at all. -/
theorem dispatch_leads {p : Progress} {history : List Effect} {phase : Phase} (holds : engine.Holds Good p history)
    (opens : p.Opens phase) (fresh : .execute (.phase phase) ∉ history) (call : ApplyCall) (started : Journal)
    (handler : Outcome Dict) :
    engine.Leads Good history (engine.dispatch call started phase handler) (fun _ after => engine.Holds Good p after) := by
  have executed := holds.execute opens
  refine Meets.lift_bind (fun _ _ => holds) fun snapshot _ => ?_
  refine Meets.lift_bind (fun _ _ => holds) fun _ _ => ?_
  refine Meets.lift_bind (fun _ _ => holds) fun _ _ => ?_
  refine Meets.emit_bind ⟨p, holds, opens, fresh⟩ ?_
  refine Meets.lift_bind (fun _ _ => executed) fun adapterResult _ => ?_
  refine Meets.lift_bind (fun _ _ => executed) fun _ _ => ?_
  refine Meets.lift_bind (fun _ _ => executed) fun handlerResult _ => ?_
  refine Meets.lift_bind (fun _ _ => executed) fun _ _ => ?_
  exact Meets.lift_bind (fun _ _ => executed) fun _ _ => Meets.pure executed

section forward

variable (forward : ∀ p : Progress, p.reversal = none → Good p)

include forward

/-- A phase that comes next succeeds with a result, or ends the call. -/
theorem runPhase_leads {done : List Dict} {phase : Phase} {history : List Effect} (holds : engine.Holds Good (.ahead done none) history)
    (current : phases[done.length]? = some phase) (call : ApplyCall) :
    engine.Leads Good history (engine.runPhase call phase (engine.journal (.ahead done none))) (fun outcome after =>
      ∀ value, outcome = .ok value →
        ∃ result, engine.Holds Good (.ahead (done ++ [result]) none) after ∧ value = engine.journal (.ahead (done ++ [result]) none)) := by
  have left : done.length < phases.length := (List.getElem?_eq_some_iff.mp current).1
  have opening : engine.Moves (.ahead done none) (.ahead done (some .started)) := Moves.opens rfl rfl rfl left
  have opened := holds.write opening (forward _ rfl)
  have fresh : .execute (.phase phase) ∉ snoc history (.write (engine.journal (.ahead done (some .started)))) := by
    simpa using holds.fresh rfl current
  have refuses : ∀ (refusal : Refusal) (later : List Effect), engine.Holds Good (.ahead done (some .started)) later →
      engine.Leads Good later (engine.stop (engine.journal (.ahead done none)) phase refusal) (fun outcome after =>
        ∀ value, outcome = .ok value →
          ∃ result, engine.Holds Good (.ahead (done ++ [result]) none) after ∧ value = engine.journal (.ahead (done ++ [result]) none)) := by
    intro refusal later reached
    have stopping : engine.Moves (.ahead done (some .started)) (.ahead done (some (refused refusal))) :=
      Moves.stops (refused refusal) rfl rfl
    unfold stop
    rw [← journal_refused engine rfl rfl current]
    refine Meets.emit_bind (.inr ⟨_, _, reached, stopping, forward _ rfl, rfl⟩) ?_
    refine Meets.fail fun value returned => ?_
    cases returned
  unfold runPhase
  cases (call.phase phase).handler with
  | none =>
    refine Meets.fail fun value returned => ?_
    cases returned
  | some handler =>
    rw [← journal_opens engine rfl rfl current]
    refine Meets.emit_bind (.inr ⟨_, _, holds, opening, forward _ rfl, rfl⟩) ?_
    refine Meets.attempt_bind _ (dispatch_leads opened ⟨rfl, rfl, current⟩ fresh call _ handler) ?_
    intro outcome after reached
    cases outcome with
    | error fault => exact refuses _ after reached
    | ok result =>
      cases checked : engine.checkResult phase result with
      | error refusal =>
        simp only [checked]
        exact refuses refusal after reached
      | ok u =>
        have succeeding : engine.Moves (.ahead done (some .started)) (.ahead (done ++ [result]) none) :=
          Moves.succeeds rfl rfl current checked
        have written : { engine.startedRecord phase with outcome := .success, result := some result } =
          engine.successRecord phase result := rfl
        simp only [checked, written]
        rw [← journal_succeeds engine rfl rfl rfl current]
        refine Meets.emit_bind (.inr ⟨_, _, reached, succeeding, forward _ rfl, rfl⟩) (Meets.pure ?_)
        intro value returned
        cases returned
        exact ⟨result, reached.write succeeding (forward _ rfl), rfl⟩

omit forward in
theorem runPhases_skip (call : ApplyCall) (completed : List Step) (value : Journal) (rest : List Phase) :
    ∀ front : List Phase, (∀ phase ∈ front, completed.contains (.phase phase) = true) →
      engine.runPhases call completed (front ++ rest) value = engine.runPhases call completed rest value := by
  intro front
  induction front with
  | nil =>
    intro _
    rfl
  | cons phase others ih =>
    intro all
    rw [List.cons_append, runPhases, if_pos (all phase (by simp))]
    exact ih fun other member => all other (by simp [member])

/-- The phases that are left, from the first of them on. -/
theorem runPhases_leads (call : ApplyCall) (completed : List Step) :
    ∀ (rest : List Phase) (done : List Dict) (history : List Effect), rest = phases.drop done.length →
      (∀ phase ∈ rest, completed.contains (.phase phase) = false) → engine.Holds Good (.ahead done none) history →
      engine.Leads Good history (engine.runPhases call completed rest (engine.journal (.ahead done none)))
        (fun outcome after => ∀ value, outcome = .ok value →
          ∃ all, engine.Holds Good (.ahead all none) after ∧ all.length = phases.length ∧ value = engine.journal (.ahead all none)) := by
  intro rest
  induction rest with
  | nil =>
    intro done history remaining _ holds
    refine Meets.pure fun value returned => ?_
    cases returned
    have room := holds.valid.room
    have over_ : phases.length ≤ done.length := List.drop_eq_nil_iff.mp remaining.symm
    simp only [Progress.reached, Option.isSome_none, Bool.false_eq_true, if_false] at room
    exact ⟨done, holds, by omega, rfl⟩
  | cons phase others ih =>
    intro done history remaining fresh holds
    have current : phases[done.length]? = some phase := by
      rw [← Nat.add_zero done.length, ← List.getElem?_drop, ← remaining]
      rfl
    have later : ∀ result : Dict, others = phases.drop (done ++ [result]).length := by
      intro result
      rw [List.length_append, List.length_singleton, ← List.tail_drop, ← remaining]
      rfl
    rw [runPhases, if_neg (ne_true_of_eq_false (fresh phase (by simp)))]
    refine Meets.bind _ (runPhase_leads forward holds current call) ?_ ?_
    · intro fault after _ value returned
      cases returned
    · intro next after ran
      obtain ⟨result, reached, rfl⟩ := ran next rfl
      exact ih _ after (later result) (fun other member => fresh other (by simp [member])) reached

omit forward in
theorem map_phase_successes (done : List Dict) :
    (engine.successes done).map Record.phase = (phases.take done.length).map Step.phase := by
  unfold successes
  generalize phases = known
  induction done generalizing known with
  | nil => simp
  | cons result rest ih =>
    cases known with
    | nil => simp
    | cons first others => simp [ih, successRecord, startedRecord]

omit forward in
theorem filter_successes (done : List Dict) :
    (engine.successes done).filter (fun record => record.outcome == .success) = engine.successes done := by
  rw [List.filter_eq_self]
  intro record member
  obtain ⟨index, _, same⟩ := List.mem_iff_getElem.mp member
  simp only [successes, List.getElem_zipWith] at same
  subst same
  rfl

/-- What the guards of a call leave: an upgrade that goes forward, with no phase open. -/
structure Ready (value : Journal) : Prop where
  ongoing : value.status ≠ .completed
  recoverable : (value.status == .failed || value.status == .safeMode || value.status == .rolledBack) = false
  ordered : value.records.map Record.phase = (phases.take (value.records.map Record.phase).length).map Step.phase
  settled : (value.status == .running && value.records.getLast?.map Record.outcome == some .started) = false

omit forward in
theorem Ready.ahead {p : Progress} (valid : engine.Valid p) (ready : Ready (engine.journal p)) : ∃ done, p = .ahead done none := by
  obtain ⟨done, opened, reversal, finished⟩ := p
  have forth : reversal = none := by
    cases reversal with
    | none => rfl
    | some entry =>
      obtain ⟨context, reversal⟩ := entry
      have inside : engine.reversalRecord context reversal ∈ (engine.journal ⟨done, opened, some (context, reversal), finished⟩).records := by
        simp [journal, reversalRecords]
      have listed := List.mem_map_of_mem (f := Record.phase) inside
      rw [ready.ordered] at listed
      obtain ⟨phase, _, same⟩ := List.mem_map.mp listed
      cases reversal <;> cases same
  subst forth
  have open_ : finished = false := by
    cases finished with
    | false => rfl
    | true =>
      have idle := (valid.finished rfl).2.1
      cases idle
      exact absurd rfl ready.ongoing
  subst open_
  have idle : opened = none := by
    cases opened with
    | none => rfl
    | some stage =>
      have refused := ready.recoverable
      have settled := ready.settled
      have room := valid.room
      simp only [Progress.reached, Option.isSome_some, if_true] at room
      obtain ⟨phase, current⟩ : ∃ phase, phases[done.length]? = some phase := ⟨_, List.getElem?_eq_getElem (by omega)⟩
      cases stage with
      | started =>
        simp [journal, Progress.status, Progress.forwardStatus, reversalRecords, openedRecords, current, openedRecord,
          startedRecord] at settled
      | failed error => cases refused
      | ambiguous error => cases refused
  subst idle
  exact ⟨done, rfl⟩

theorem apply_leads {history : List Effect} (held : engine.Held Good history) (call : ApplyCall) :
    engine.Leads Good history (engine.apply call (disk history)) (fun _ _ => True) := by
  unfold Engine.apply
  refine Meets.lift_bind (fun _ _ => trivial) fun value read => ?_
  obtain ⟨p, holds⟩ : ∃ p, engine.Holds Good p history := by
    rcases held with rfl | found
    · simp [readJournal, disk, bind_eq_ok] at read
    · exact found
  cases holds.read read
  refine Meets.ite (fun _ => Meets.pure trivial) fun ongoing => ?_
  refine Meets.lift_bind (fun _ _ => trivial) fun _ recoverable => ?_
  refine Meets.lift_bind (fun _ _ => trivial) fun _ _ => ?_
  refine Meets.lift_bind (fun _ _ => trivial) fun _ ordered => ?_
  refine Meets.lift_bind (fun _ _ => trivial) fun _ settled => ?_
  have ready : Ready (engine.journal p) := by
    refine ⟨ongoing, raiseIf_eq_ok.mp recoverable, ?_, raiseIf_eq_ok.mp settled⟩
    have same := raiseIf_eq_ok.mp ordered
    rw [Bool.or_eq_false_iff, bne_eq_false_iff_eq, bne_eq_false_iff_eq] at same
    exact same.2
  obtain ⟨done, rfl⟩ := ready.ahead holds.valid
  have completed : ((engine.journal (.ahead done none)).records.filter (fun record => record.outcome == .success)).map Record.phase =
      (phases.take done.length).map Step.phase := by
    simp only [journal, openedRecords_none, reversalRecords, List.append_nil]
    rw [filter_successes, map_phase_successes]
  rw [completed]
  have skip : engine.runPhases call ((phases.take done.length).map Step.phase) (phases.take done.length ++ phases.drop done.length)
      (engine.journal (.ahead done none)) = engine.runPhases call ((phases.take done.length).map Step.phase)
        (phases.drop done.length) (engine.journal (.ahead done none)) :=
    runPhases_skip call _ _ _ _ fun phase member => List.contains_iff_mem.mpr (List.mem_map_of_mem member)
  rw [List.take_append_drop] at skip
  rw [skip]
  have disjoint := List.disjoint_take_drop nodup_phases (le_refl done.length)
  refine Meets.bind _ (runPhases_leads forward call _ _ done history rfl ?_ holds) ?_ ?_
  · intro phase member
    rw [Bool.eq_false_iff]
    intro found
    obtain ⟨other, taken, same⟩ := List.mem_map.mp (List.contains_iff_mem.mp found)
    cases same
    exact disjoint taken member
  · exact fun _ _ _ => trivial
  · intro last after ran
    obtain ⟨all, reached, complete, rfl⟩ := ran last rfl
    have finishing : engine.Moves (.ahead all none) { Progress.ahead all none with finished := true } :=
      Moves.finishes rfl rfl complete
    rw [← journal_finishes engine rfl rfl]
    exact Meets.emit_bind (.inr ⟨_, _, reached, finishing, forward _ rfl, rfl⟩) (Meets.pure trivial)

end forward

/-! Rollbacks. -/

theorem validateContext_asdict {operationId : String} {supplied : Dict} {context : PhaseContext}
    (validated : validateContext operationId supplied = .ok context) : validateContext operationId context.asdict = .ok context := by
  simp only [validateContext, refuseIf, raiseIf_bind_ok, orRaise_bind_ok, pure_eq_ok, Bool.or_eq_false_iff] at validated
  obtain ⟨⟨_, named⟩, found, envelope, bounded, rfl⟩ := validated
  obtain ⟨read, canonical⟩ := validateEnvelope_eq_some envelope
  have name : Json.str found.operationId = .str operationId := by
    rw [← operationId_of_readContext read]
    simpa [bne] using named
  cases name
  exact validateContext_of_envelope canonical (by simpa using bounded)

theorem rollbackContext_asdict {supplied : Dict} {context : PhaseContext} (read : engine.rollbackContext supplied = .ok context) :
    engine.rollbackContext context.asdict = .ok context := by
  simp only [rollbackContext, bind_eq_ok] at read
  obtain ⟨found, validated, u, aims, rest⟩ := read
  have same : found = context := by
    split at rest
    · cases rest
    · exact pure_eq_ok.mp rest
  subst same
  simp only [rollbackContext, bind_eq_ok]
  exact ⟨found, validateContext_asdict validated, u, aims, rest⟩

theorem find_rollback_none {p : Progress} :
    (engine.journal p).records.find? (fun record => record.phase == .rollback) = none ↔ p.reversal = none := by
  rw [List.find?_eq_none]
  constructor
  · intro all
    cases reversal : p.reversal with
    | none => rfl
    | some entry =>
      obtain ⟨context, stage⟩ := entry
      have inside : engine.reversalRecord context stage ∈ (engine.journal p).records := by
        simp [journal, reversal, reversalRecords]
      have aimed : (engine.reversalRecord context stage).phase = .rollback := by cases stage <;> rfl
      exact absurd (by rw [aimed]; rfl) (all _ inside)
  · intro forth record member
    simp only [journal, forth, reversalRecords, List.append_nil] at member
    obtain ⟨phase, same⟩ := engine.phase_of_forward member
    simp [same]

theorem find_rollback {p : Progress} {context : PhaseContext} {reversal : Reversal} (reverting : p.reversal = some (context, reversal)) :
    (engine.journal p).records.find? (fun record => record.phase == .rollback) = some (engine.reversalRecord context reversal) := by
  have aimed : (engine.reversalRecord context reversal).phase = .rollback := by cases reversal <;> rfl
  have others : (engine.successes p.done ++ engine.openedRecords p.done p.opened).find? (fun record => record.phase == .rollback) = none := by
    rw [List.find?_eq_none]
    intro record member
    obtain ⟨phase, same⟩ := engine.phase_of_forward member
    simp [same]
  simp only [journal, reverting, reversalRecords]
  rw [List.find?_append, others]
  simp [aimed]

/-- Where a rollback may begin, a phase has a record and the upgrade is not complete. -/
theorem begun_of_status {p : Progress} (valid : engine.Valid p) (forth : p.reversal = none)
    (admitted : (!((engine.journal p).status == .failed || (engine.journal p).status == .running ||
      (engine.journal p).status == .safeMode)) = false) : 0 < p.reached ∧ p.finished = false := by
  obtain ⟨done, opened, reversal, finished⟩ := p
  cases forth
  cases opened with
  | some stage =>
    refine ⟨by simp [Progress.reached], ?_⟩
    cases finished with
    | false => rfl
    | true => cases (valid.finished rfl).2.1
  | none =>
    cases finished with
    | true => cases admitted
    | false =>
      cases done with
      | nil => cases admitted
      | cons first rest => exact ⟨by simp [Progress.reached], rfl⟩

/-- What the predicate asks of a rollback call: each stage that the call can bring about is good. -/
structure Endorses (engine : Engine) (Good : Progress → Prop) (call : RollbackCall) (p : Progress) : Prop where
  begins : p.reversal = none → ∀ context, Good { p with reversal := some (context, .started) }
  stops : p.reversal = none → ∀ context fault, rollbackResult call = .error fault →
    Good { p with reversal := some (context, stoppedBy fault) }
  verifies : p.reversal = none → ∀ context result, engine.rollbackContext context.asdict = .ok context →
    rollbackResult call = .ok result →
    Good { p with reversal := some (context, .verified result) }
  releases : ∀ context result, Good { p with reversal := some (context, .verified result) } →
    Good { p with reversal := some (context, .completed result) }

theorem finish_leads {p : Progress} {history : List Effect} {context current : PhaseContext} {result : Dict}
    (holds : engine.Holds Good p history) (verified : p.reversal = some (context, .verified result))
    (releases : Good { p with reversal := some (context, .completed result) }) (call : RollbackCall) (record : Record) :
    engine.Leads Good history (finishVerifiedRollback call current (engine.journal p) record) (fun _ _ => True) := by
  unfold finishVerifiedRollback
  cases call.release with
  | none => exact Meets.fail trivial
  | some release =>
    refine Meets.lift_bind (fun _ _ => trivial) fun _ _ => ?_
    have releasing : engine.Moves p { p with reversal := some (context, .completed result) } := Moves.releases verified
    rw [← journal_released engine verified]
    exact Meets.emit_bind (.inr ⟨p, _, holds, releasing, releases, rfl⟩) (Meets.pure trivial)

theorem stopRollback_leads {p : Progress} {history : List Effect} {context : PhaseContext} {fault : Fault} (forth : p.reversal = none)
    (holds : engine.Holds Good { p with reversal := some (context, .started) } history)
    (stops : Good { p with reversal := some (context, stoppedBy fault) }) :
    engine.Leads Good history (engine.stopRollback (engine.journal p) context fault) (fun _ _ => True) := by
  have stopping : engine.Moves { p with reversal := some (context, .started) } { p with reversal := some (context, stoppedBy fault) } :=
    Moves.settles _ rfl
  unfold stopRollback
  by_cases rejected : fault.rejected = true
  · have stage : stoppedBy fault = .rejected fault.name := if_pos rejected
    rw [if_pos rejected, ← journal_rejected engine forth]
    rw [stage] at stopping stops
    exact Meets.emit_bind (.inr ⟨_, _, holds, stopping, stops, rfl⟩) (Meets.fail trivial)
  · have stage : stoppedBy fault = .ambiguous fault.name := if_neg rejected
    rw [if_neg rejected, ← journal_ambiguous engine forth]
    rw [stage] at stopping stops
    exact Meets.emit_bind (.inr ⟨_, _, holds, stopping, stops, rfl⟩) (Meets.fail trivial)

theorem rollbackLocked_leads {history : List Effect} (held : engine.Held Good history) {call : RollbackCall} {context : PhaseContext}
    (supplied : engine.rollbackContext context.asdict = .ok context)
    (endorses : ∀ p, engine.Holds Good p history → engine.Endorses Good call p) :
    engine.Leads Good history (engine.rollbackLocked call context (disk history)) (fun _ _ => True) := by
  unfold rollbackLocked
  refine Meets.lift_bind (fun _ _ => trivial) fun value read => ?_
  obtain ⟨p, holds⟩ : ∃ p, engine.Holds Good p history := by
    rcases held with rfl | found
    · simp [readJournal, disk, bind_eq_ok] at read
    · exact found
  cases holds.read read
  have good := endorses p holds
  refine Meets.lift_bind (fun _ _ => trivial) fun _ admitted => ?_
  cases reversal : p.reversal with
  | some entry =>
    obtain ⟨known, stage⟩ := entry
    rw [find_rollback reversal]
    refine Meets.lift_bind (fun _ _ => trivial) fun _ verified => ?_
    cases stage with
    | verified result =>
      have before : Good { p with reversal := some (known, .verified result) } := by
        rw [← reversal]
        exact holds.good
      exact finish_leads holds reversal (good.releases known result before) call _
    | _ => simp [refuseIf, reversalRecord, rollbackRecord] at verified
  | none =>
    rw [find_rollback_none.mpr reversal]
    obtain ⟨begun, unfinished⟩ := begun_of_status holds.valid reversal (raiseIf_eq_ok.mp admitted)
    have reverting : engine.Moves p { p with reversal := some (context, .started) } := Moves.reverts reversal unfinished begun supplied
    have begins := good.begins reversal context
    have reverted := holds.write reverting begins
    rw [← journal_reverts engine reversal]
    refine Meets.emit_bind (.inr ⟨p, _, holds, reverting, begins, rfl⟩) ?_
    refine Meets.attempt_bind (fun outcome after => engine.Holds Good { p with reversal := some (context, .started) } after ∧
      outcome = rollbackResult call) ?_ ?_
    · exact Meets.emit_bind ⟨_, context, reverted, rfl⟩ ⟨trivial, reverted.executeRollback, rfl⟩
    · rintro outcome after ⟨reached, rfl⟩
      cases ran : rollbackResult call with
      | error fault => exact stopRollback_leads reversal reached (good.stops reversal context fault ran)
      | ok result =>
        have verifying : engine.Moves { p with reversal := some (context, .started) } { p with reversal := some (context, .verified result) } :=
          Moves.settles _ rfl
        have verifies := good.verifies reversal context result supplied ran
        have stored := journal_verified engine reversal context result
        dsimp only at stored ⊢
        rw [← stored]
        refine Meets.emit_bind (.inr ⟨_, _, reached, verifying, verifies, rfl⟩) ?_
        exact finish_leads (reached.write verifying verifies) rfl (good.releases context result verifies) call _

/-- A rollback that its context lets through is led on. -/
theorem rollback_leads {history : List Effect} (held : engine.Held Good history) (call : RollbackCall)
    (endorses : ∀ p, engine.Holds Good p history → engine.Endorses Good call p) :
    engine.Leads Good history (engine.rollback call (disk history)) (fun _ _ => True) := by
  refine Meets.lift_bind (fun _ _ => trivial) fun context verified => ?_
  simp only [verifyRollback, bind_eq_ok, pure_eq_ok] at verified
  obtain ⟨_, _, _, _, snapshot, _, _, _, found, supplied, _, _, rfl⟩ := verified
  exact rollbackLocked_leads held (rollbackContext_asdict supplied) endorses

/-! Runs. -/

/-- What the predicate asks of an event. -/
def Endorsed (engine : Engine) (Good : Progress → Prop) (history : List Effect) (event : Event) : Prop :=
  ∀ call, event.call = .rollback call → ∀ p, engine.Holds Good p history → engine.Endorses Good call p

theorem run_leads (forward : ∀ p : Progress, p.reversal = none → Good p) {history : List Effect} (held : engine.Held Good history)
    {event : Event} (endorsed : engine.Endorsed Good history event) :
    engine.Leads Good history (engine.run event.call (disk history)) (fun _ _ => True) := by
  cases called : event.call with
  | plan => exact plan_leads held
  | apply call => exact apply_leads forward held call
  | rollback call => exact rollback_leads held call (endorsed call called)

/-- The effects of a run are lawful, one after the other. -/
theorem lawful_history (forward : ∀ p : Progress, p.reversal = none → Good p) (events : List Event)
    (along : Run.Along engine.act (engine.Endorsed Good) [] events) :
    Run.Along snoc (engine.Lawful Good) [] (engine.history events) ∧ engine.Held Good (engine.history events) := by
  have keeps : ∀ (history : List Effect) (effect : Effect), engine.Held Good history → engine.Lawful Good history effect →
      engine.Held Good (snoc history effect) := fun _ _ _ lawful => lawful.held (forward _ rfl)
  have kept : ∀ (history : List Effect) (event : Event),
      Run.Along snoc (engine.Lawful Good) [] history ∧ engine.Held Good history → engine.Endorsed Good history event →
      Run.Along snoc (engine.Lawful Good) [] (engine.act history event) ∧ engine.Held Good (engine.act history event) := by
    rintro history event ⟨lawful, held⟩ endorsed
    have later := (run_leads forward held endorsed).cut event.reached
    have after := Run.invariant snoc keeps _ history held later
    rw [final_snoc_eq] at after
    refine ⟨(Run.along_append snoc history _ []).mpr ⟨lawful, ?_⟩, after⟩
    rw [final_snoc_eq]
    exact later
  exact Run.invariant engine.act kept events [] ⟨trivial, .inl rfl⟩ along

end Engine

end Coordinator.Upgrade
