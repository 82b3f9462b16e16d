import Coordinator.DependencyGraph
import Coordinator.OracleExits
import Coordinator.Validity

/-! Two projections of a task set for its readers: the blockers on the cards of a campaign and the gate failures
among the metrics of the board. They judge dependencies and gates by rules of their own, next to those by which a
claim is admitted. -/

namespace Coordinator.Campaign
open Kit TaskGraph

def terminal : List String := ["done", "cancelled", "superseded"]

/-- Two digits whose number lies between bounds, and what follows them. -/
def readTwo (low high : Nat) (cs : List Char) : Option (List Char) := do
  let (number, rest) ← Datetime.readDigits 2 0 cs
  if low ≤ number ∧ number ≤ high then some rest else none

def readZone : List Char → Bool
  | ['Z'] => true
  | sign :: rest => (sign == '+' || sign == '-') &&
      ((readTwo 0 14 rest).bind (Text.stripPrefix? [':'])).bind (readTwo 0 59) == some []
  | [] => false

/-- Behind the seconds: up to nine digits of a fraction, and the offset. -/
def readFraction : List Char → Bool
  | '.' :: rest =>
      let digits := rest.takeWhile Text.isDigit
      1 ≤ digits.length && digits.length ≤ 9 && readZone (rest.drop digits.length)
  | rest => readZone rest

/-- The extended form of a date and time with an offset. -/
def isTimestamp (s : String) : Bool :=
  let rest := do
    let (_, rest) ← Datetime.readDigits 4 0 s.toList
    let rest ← readTwo 1 12 (← Text.stripPrefix? ['-'] rest)
    let rest ← readTwo 1 31 (← Text.stripPrefix? ['-'] rest)
    let rest ← readTwo 0 23 (← Text.stripPrefix? ['T'] rest)
    let rest ← readTwo 0 59 (← Text.stripPrefix? [':'] rest)
    readTwo 0 59 (← Text.stripPrefix? [':'] rest)
  rest.any readFraction

def timestamp (value : Json) (field : String) : Outcome Int := do
  raiseIf (!value.isStr || !isTimestamp value.text) (.error (field ++ " is not a timestamp"))
  let parsed ← orRaise (Datetime.read value.text) (.error (field ++ " is not a timestamp"))
  raiseIf parsed.offset.isNone (.error (field ++ " lacks timezone"))
  orRaise (Datetime.aware? value.text) (.error "OverflowError: date value out of range")

/-- A dependency as a card shows it. -/
structure Dependency where
  task : String
  status : String

def statusIn (tasks : List Task) (dependency : String) : String :=
  match byText tasks dependency with
  | some found => if found.fields.has "status" then (statusOf found).toText else "missing"
  | none => "missing"

/-- The dependencies of a task in order. A list of other than texts, which no valid task has, is refused. -/
def dependencies (task : Meta) (tasks : List Task) : Outcome (List Dependency) := do
  let values := dependenciesOf task
  raiseIf (!values.isArr) (.error "depends_on is invalid")
  raiseIf (!values.items.all (·.isStr)) (.error "TypeError: '<' not supported")
  pure ((sortedText (values.items.map Json.text)).map fun dependency => ⟨dependency, statusIn tasks dependency⟩)

/-- How the execution claim on a task stands, and what a card shows of it. -/
def reservation (task : Meta) (observedAt : Int) : Outcome (String × Option Meta) := do
  let reservation := task.get "execution_reservation"
  if reservation.isNull then pure ("clear", none)
  else
    raiseIf (!ExecutionEnvelope.validReservation reservation) (.error "execution reservation is invalid")
    let expiry ← timestamp (reservation.get "expires_at") "execution reservation expiry"
    pure (if expiry ≤ observedAt then "expired" else "live", some [("execution_id", reservation.get "execution_id"),
      ("expires_at", reservation.get "expires_at")])

def dependencyBlockers (items : List Dependency) : List Meta :=
  (items.filter fun item => !terminal.contains item.status).map fun item =>
    [("kind", .str "dependency"), ("task", .str item.task), ("status", .str item.status)]

def circuitBlockers (circuit : Json) : List Meta :=
  (if (circuit.get "hold").isNull then [] else [[("kind", Json.str "retry-circuit"), ("state", .str "held")]]) ++
    if (circuit.get "reservations").truthy then [[("kind", Json.str "retry-claim"), ("state", .str "live")]] else []

def checkCircuit (circuit : Json) : Outcome Unit := if circuit.isNull then pure () else RetryCircuit.validate circuit

def blockers (task : Meta) (items : List Dependency) (observedAt : Int) : Outcome (List Meta) := do
  let (state, _) ← reservation task observedAt
  let circuit := task.get "retry_circuit"
  checkCircuit circuit
  pure (dependencyBlockers items ++
    (if task.get "status" == .str "blocked" then [[("kind", .str "task-status")]] else []) ++
    (if state == "clear" then [] else [[("kind", .str "execution-claim"), ("state", .str state)]]) ++
    if circuit.isNull then [] else circuitBlockers circuit)

/-- The blockers on the card of a task. -/
def cardBlockers (tasks : List Task) (task : Meta) (observedAt : Int) : Outcome (List Meta) := do
  blockers task (← dependencies task tasks) observedAt

/-- A card without a dependency among its blockers. -/
def Clear (shown : List Meta) : Prop := ∀ blocker ∈ shown, blocker.get "kind" ≠ .str "dependency"

theorem clear_dependencyBlockers {items : List Dependency} : Clear (dependencyBlockers items) ↔
    ∀ item ∈ items, item.status ∈ terminal := by
  simp only [Clear, dependencyBlockers, List.forall_mem_map, List.mem_filter, Bool.not_eq_true', and_imp]
  refine forall₂_congr fun item member => ?_
  cases ended : terminal.contains item.status with
  | true => simpa using List.contains_iff_mem.mp ended
  | false => simpa [Dict.get, Dict.find] using fun listed => Bool.false_ne_true (ended.symm.trans (List.contains_iff_mem.mpr listed))

theorem clear_append {first rest : List Meta} : Clear (first ++ rest) ↔ Clear first ∧ Clear rest := List.forall_mem_append

/-- Only the blockers made of dependencies are of their kind. -/
theorem clear_blockers {task : Meta} {items : List Dependency} {observedAt : Int} {shown : List Meta}
    (built : blockers task items observedAt = .ok shown) : Clear shown ↔ Clear (dependencyBlockers items) := by
  simp only [blockers, bind_eq_ok, exists_unit, pure_eq_ok] at built
  obtain ⟨⟨state, -⟩, -, -, rfl⟩ := built
  have blocked : Clear (if task.get "status" == .str "blocked" then [[("kind", .str "task-status")]] else []) := by
    split <;> simp [Clear, Dict.get, Dict.find]
  have claimed : Clear (if state == "clear" then [] else [[("kind", .str "execution-claim"), ("state", .str state)]]) := by
    split <;> simp [Clear, Dict.get, Dict.find]
  have held : Clear (if (task.get "retry_circuit").isNull then [] else circuitBlockers (task.get "retry_circuit")) := by
    unfold circuitBlockers
    split
    · exact List.forall_mem_nil _
    · rw [clear_append]
      constructor <;> split <;> simp [Clear, Dict.get, Dict.find]
  simp only [clear_append, blocked, claimed, held, and_true]

end Coordinator.Campaign

namespace Coordinator.BoardMetrics
open Kit OracleLifecycle

/-- The stage at which the gate of a task stands, as the metrics of the board show it. -/
def gateFailure (task : Meta) : Option String :=
  let gate := task.get "oracle_gate"
  if !gate.isObj || !isTrue (gate.get "required") then none
  else if (gate.get "open_stage").truthy then some (gate.get "open_stage").toText
  else if (gate.get "reconciliation_required").truthy then some "reconciliation"
  else
    let sequence := if (gate.get "stage_sequence").truthy then (gate.get "stage_sequence").items else gateSequence.map .str
    let completed := if (gate.get "completed").truthy then (gate.get "completed").items else []
    (sequence.find? fun stage => !completed.any (· == stage)).map Json.toText

/-- The stages that a checked gate asks for and those that it has behind it. -/
theorem stages_of_valid {value : Json} (valid : GateValid value) : ∃ stages passed : List String, stages ≠ [] ∧
    sequenceOf value = stages.map .str ∧ value.get "completed" = .arr (passed.map .str) ∧
    (∀ stage ∈ stages, stage ∈ gateSequence ++ stageGateSequence) ∧
    ((value.get "stage_sequence").isNull = false → (value.get "stage_sequence").truthy = true) := by
  have listed : ∃ stages : List String, stages ≠ [] ∧ sequenceOf value = stages.map .str ∧
      (∀ stage ∈ stages, stage ∈ gateSequence ++ stageGateSequence) ∧
      ((value.get "stage_sequence").isNull = false → (value.get "stage_sequence").truthy = true) := by
    have sequence := valid.sequence
    cases absent : (value.get "stage_sequence").isNull with
    | true => exact ⟨gateSequence, by decide, by rw [sequenceOf, if_pos absent], by decide, fun named => by cases named⟩
    | false =>
      rw [stageSequenceValid, absent, Bool.false_or, Bool.and_eq_true, Bool.and_eq_true, Bool.and_eq_true,
        Json.isArr_iff] at sequence
      obtain ⟨⟨⟨⟨items, list⟩, nonempty⟩, -⟩, known⟩ := sequence
      rw [list, Json.items] at nonempty known
      obtain ⟨stages, rfl, within⟩ := names_of_items known
      refine ⟨stages, by simpa using nonempty, ?_, within, fun _ => ?_⟩
      · rw [sequenceOf, absent, if_neg Bool.false_ne_true, list, Json.items]
      · rw [list]
        simpa [Json.truthy] using nonempty
  obtain ⟨stages, nonempty, sequence, known, given⟩ := listed
  obtain ⟨items, list⟩ := Json.isArr_iff.mp valid.completed
  have texts : items.all (fun item => RetryCircuit.oneOf item stages) = true := by
    refine List.all_eq_true.mpr fun item member => ?_
    have inside := valid.listed item (by rw [list]; exact member)
    rw [sequence, List.any_map, List.any_eq_true] at inside
    obtain ⟨stage, among, same⟩ := inside
    obtain rfl := (Json.str_beq stage item).mp same
    simpa [RetryCircuit.oneOf, Json.isStr, Json.text] using among
  obtain ⟨passed, rfl, -⟩ := names_of_items texts
  exact ⟨stages, passed, nonempty, sequence, list, known, given⟩

/-- Where the metrics and admission say the same about a gate: it is absent, both find it open, or it has passed its
stages in order and once each, without a null in place of the stages and without a session before a human. -/
def GateAgrees (gate : Json) : Prop :=
  gate.isNull = true ∨ (gate.get "open_stage").isNull = false ∨ (gate.get "reconciliation_required").truthy = true ∨
    (∃ stage ∈ sequenceOf gate, (gate.get "completed").items.any (· == stage) = false) ∨
    ((gate.has "stage_sequence" && (gate.get "stage_sequence").isNull) = false ∧
      gate.get "completed" = .arr (sequenceOf gate) ∧ presentingStatus (gate.get "human_session") = false)

section gates

variable {task : Meta}

/-- The metrics show no failure of a checked gate once its stages are behind it. -/
theorem gateFailure_eq_none (valid : GateValid (gate task)) : gateFailure task = none ↔
    ((gate task).get "open_stage").truthy = false ∧ ((gate task).get "reconciliation_required").truthy = false ∧
      ∀ stage ∈ sequenceOf (gate task), ((gate task).get "completed").items.any (· == stage) = true := by
  obtain ⟨stages, passed, -, sequence, list, -, given⟩ := stages_of_valid valid
  have completed : (if ((gate task).get "completed").truthy then ((gate task).get "completed").items else []) =
      ((gate task).get "completed").items := by
    rw [list]
    cases passed <;> rfl
  have asked : (if ((gate task).get "stage_sequence").truthy then ((gate task).get "stage_sequence").items
      else gateSequence.map .str) = sequenceOf (gate task) := by
    rw [sequenceOf]
    cases absent : ((gate task).get "stage_sequence").isNull with
    | true => rw [Json.isNull_iff.mp absent, if_neg (by decide), if_pos rfl]
    | false => rw [if_pos (given absent), if_neg Bool.false_ne_true]
  change (if !(gate task).isObj || !isTrue ((gate task).get "required") then none
    else if ((gate task).get "open_stage").truthy then some ((gate task).get "open_stage").toText
    else if ((gate task).get "reconciliation_required").truthy then some "reconciliation"
    else ((if ((gate task).get "stage_sequence").truthy then ((gate task).get "stage_sequence").items
      else gateSequence.map .str).find? fun stage =>
        !(if ((gate task).get "completed").truthy then ((gate task).get "completed").items else []).any (· == stage)).map
          Json.toText) = none ↔ _
  rw [completed, asked, valid.object, valid.required]
  cases ((gate task).get "open_stage").truthy <;> cases ((gate task).get "reconciliation_required").truthy <;>
    simp [List.find?_eq_none]

theorem transitionAllowed_claim (valid : GateValid (gate task)) : transitionAllowed task "claim" = .ok () ↔
    ((gate task).has "stage_sequence" && ((gate task).get "stage_sequence").isNull) = false ∧
      ((gate task).get "open_stage").truthy = false ∧ ((gate task).get "reconciliation_required").truthy = false ∧
      (gate task).get "completed" = .arr (sequenceOf (gate task)) ∧
      presentingStatus ((gate task).get "human_session") = false := by
  obtain ⟨stages, passed, -, sequence, list, -, -⟩ := stages_of_valid valid
  have held : (gate task).has "completed" = true := List.all_eq_true.mp valid.fields "completed" (by decide)
  have exact_ : sameItems ((gate task).get "completed") (sequenceOf (gate task)) = true ↔
      (gate task).get "completed" = .arr (sequenceOf (gate task)) := by
    rw [list, sequence, sameItems, Json.arr.injEq]
    exact eqItems_str.trans (List.map_injective_iff.mpr fun a b => Json.str.inj).eq_iff.symm
  have presented : (((gate task).get "human_session").isObj && presentingStatus ((gate task).get "human_session")) =
      presentingStatus ((gate task).get "human_session") := by
    obtain absent | session := humanSessionErrors_eq_nil.mp valid.session
    · rw [absent]
      rfl
    · rw [session.object, Bool.true_and]
  simp only [transitionAllowed, valid.object, valid.required, held, presented, Bool.true_and, bind_eq_ok, raiseIf_eq_ok,
    exists_unit, Bool.or_eq_false_iff, Bool.not_eq_false', exact_, show ["promote", "claim", "run", "release"].contains
      "claim" = true from rfl, Bool.and_true, and_assoc]

/-- An open stage of a checked gate counts as one. -/
theorem openStage_named (valid : GateValid (gate task)) :
    ((gate task).get "open_stage").truthy = !((gate task).get "open_stage").isNull := by
  obtain ⟨stages, passed, -, sequence, -, known, -⟩ := stages_of_valid valid
  obtain absent | named := valid.openStage
  · rw [Json.isNull_iff.mp absent]
    rfl
  · rw [sequence, List.any_map, List.any_eq_true] at named
    obtain ⟨stage, among, same⟩ := named
    have spelled := (Json.str_beq stage _).mp same
    rw [spelled]
    simpa [Json.isNull] using stage_ne_empty (known stage among)

/-- The metrics agree with admission about a claim exactly where their rules do. -/
theorem gateFailure_iff_allowed (clean : gateErrors (gate task) = []) :
    (gateFailure task = none ↔ transitionAllowed task "claim" = .ok ()) ↔ GateAgrees (gate task) := by
  obtain absent | valid := gateErrors_eq_nil.mp clean
  · have shown : gateFailure task = none := by
      rw [gateFailure, show task.get "oracle_gate" = .null from absent]
      rfl
    have admitted : transitionAllowed task "claim" = .ok () := by
      rw [transitionAllowed, absent]
      rfl
    exact iff_of_true (iff_of_true shown admitted) (.inl (Json.isNull_iff.mpr absent))
  obtain ⟨stages, passed, -, sequence, list, -, -⟩ := stages_of_valid valid
  have present : (gate task).isNull = false := by
    cases absent : (gate task).isNull with
    | false => rfl
    | true =>
      have object := valid.object
      rw [Json.isNull_iff.mp absent] at object
      cases object
  rw [gateFailure_eq_none valid, transitionAllowed_claim valid, GateAgrees, present, openStage_named valid]
  -- whoever has passed the stages in order has passed them all
  have every (same : (gate task).get "completed" = .arr (sequenceOf (gate task))) (stage : Json)
      (member : stage ∈ sequenceOf (gate task)) : ((gate task).get "completed").items.any (· == stage) = true := by
    rw [same, Json.items]
    rw [sequence] at member ⊢
    obtain ⟨name, among, rfl⟩ := List.mem_map.mp member
    exact any_str.mpr among
  cases ((gate task).get "open_stage").isNull with
  | false => simp
  | true =>
    cases ((gate task).get "reconciliation_required").truthy with
    | true => simp
    | false =>
      simp only [Bool.not_true, true_and, Bool.true_eq_false, Bool.false_eq_true, false_or]
      constructor
      · intro agree
        by_cases all_ : ∀ stage ∈ sequenceOf (gate task), ((gate task).get "completed").items.any (· == stage) = true
        · exact .inr (agree.mp all_)
        · push Not at all_
          obtain ⟨stage, member, missing⟩ := all_
          exact .inl ⟨stage, member, Bool.not_eq_true _ ▸ missing⟩
      · rintro (⟨stage, member, missing⟩ | ⟨given, same, quiet⟩)
        · refine iff_of_false (fun all_ => ?_) fun both => ?_
          · rw [all_ stage member] at missing
            cases missing
          · rw [every both.2.1 stage member] at missing
            cases missing
        · exact iff_of_true (every same) ⟨given, same, quiet⟩

end gates

end Coordinator.BoardMetrics

namespace Coordinator.Campaign
open Kit TaskGraph TaskValidation

/-- The checks of a task set that the projection of a campaign repeats. -/
structure Projected (files : Files) (tasks : List Task) : Prop where
  members : ∀ task ∈ tasks, basicTaskErrors files task.path task.fields true = []
  graph : graphErrors tasks = []
  hierarchy : hierarchyErrors tasks = []
  supersession : supersessionErrors tasks = []

section dependencies

variable {files : Files} {tasks : List Task} {taskId : String}

theorem Projected.byId_eq (projected : Projected files tasks) (taskId : String) : byId tasks taskId = byText tasks taskId := by
  rw [byId, byText, ← List.head?_filter, ← List.head?_filter]
  refine congrArg List.head? (List.filter_congr fun task member => ?_)
  have valid := basicTaskErrors_eq_nil.mp (projected.members task (List.mem_reverse.mp member))
  obtain ⟨word, named, -⟩ := valid.id_str
  rw [named, Json.str_beq_str, idOf, taskText, Dict.textOr_of_str named]

theorem Projected.member (projected : Projected files tasks) {task : Task} (found : byId tasks taskId = some task) :
    task ∈ tasks ∧ idOf task = taskId ∧ ∃ word, statusOf task = .str word ∧ word ∈ statuses := by
  rw [projected.byId_eq] at found
  obtain ⟨member, named⟩ := byText_eq_some found
  exact ⟨member, named, (basicTaskErrors_eq_nil.mp (projected.members task member)).status_mem⟩

/-- A dependency that a card shows as ended. -/
def Ended (tasks : List Task) (taskId : String) : Prop :=
  ∃ task, byId tasks taskId = some task ∧ RetryCircuit.oneOf (statusOf task) terminal = true

/-- A dependency that ended without its work: cancelled, or superseded by no task. -/
def Abandoned (tasks : List Task) (taskId : String) : Prop :=
  ∃ task, byId tasks taskId = some task ∧ (statusOf task = .str "cancelled" ∨
    statusOf task = .str "superseded" ∧ (task.fields.get "superseded_by").isNull = true)

theorem Projected.statusIn_ended (projected : Projected files tasks) (taskId : String) :
    statusIn tasks taskId ∈ terminal ↔ Ended tasks taskId := by
  unfold Ended statusIn
  rw [← projected.byId_eq]
  cases found : byId tasks taskId with
  | none => simp [terminal]
  | some task =>
    obtain ⟨-, -, word, status_, -⟩ := projected.member found
    have held : task.fields.has "status" = true := Dict.has_of_get_ne (by
      rw [statusOf] at status_
      simp [status_])
    simp [held, status_, RetryCircuit.oneOf, Json.isStr, Json.text, Json.toText]

/-- A successor that the checks have passed leads to a task that is done. -/
theorem Projected.successor (projected : Projected files tasks) {task : Task} (found : byId tasks taskId = some task)
    (superseded : statusOf task = .str "superseded") (named : (task.fields.get "superseded_by").isNull = false) :
    ∃ successor, successorOf tasks taskId = some successor ∧ dependencySatisfied successor tasks = true := by
  obtain ⟨member, -, -⟩ := projected.member found
  have clean := List.flatMap_eq_nil_iff.mp projected.supersession task member
  have current : (statusOf task != .str "superseded") = false := by
    rw [superseded]
    rfl
  simp only [supersessionError, named, Bool.false_eq_true, ↓reduceIte, OracleLifecycle.message_eq_nil,
    Bool.not_eq_false'] at clean
  obtain ⟨-, shape, -, -, leads, -⟩ := clean
  refine ⟨(task.fields.get "superseded_by").text, ?_, leads⟩
  simp [successorOf, found, superseded, (Bool.and_eq_true_iff.mp shape).1, (Bool.and_eq_true_iff.mp shape).2]

/-- On a checked task set, admission takes for satisfied what a card shows as ended but for what was abandoned. -/
theorem Projected.satisfied_iff (projected : Projected files tasks) (taskId : String) :
    dependencySatisfied taskId tasks = true ↔ Ended tasks taskId ∧ ¬Abandoned tasks taskId := by
  rw [(dependency_satisfied_iff tasks taskId).1]
  constructor
  · rintro ⟨rest, arrived⟩
    cases rest with
    | nil =>
      have reached : isDone tasks taskId = true := Graph.arrives_singleton.mp arrived
      obtain ⟨task, found, done⟩ := (Option.any_eq_true _ _).mp reached
      rw [Json.beq_str] at done
      refine ⟨⟨task, found, by simp [done, RetryCircuit.oneOf, terminal, Json.isStr, Json.text]⟩, ?_⟩
      rintro ⟨other, again, left⟩
      obtain rfl : task = other := Option.some.inj (found.symm.trans again)
      rw [done] at left
      simp at left
    | cons successor rest =>
      obtain ⟨task, found, step⟩ := Option.bind_eq_some_iff.mp (Graph.arrives_cons.mp arrived).1
      dsimp only at step
      split at step
      · next named =>
        rw [Bool.and_eq_true, Bool.and_eq_true, Json.beq_str] at named
        refine ⟨⟨task, found, by simp [named.1.1, RetryCircuit.oneOf, terminal, Json.isStr, Json.text]⟩, ?_⟩
        rintro ⟨other, again, left⟩
        obtain rfl : task = other := Option.some.inj (found.symm.trans again)
        rw [named.1.1] at left
        obtain ⟨word, text⟩ := Json.isStr_iff.mp named.1.2
        simp [text, Json.isNull] at left
      · cases step
  · rintro ⟨⟨task, found, ended⟩, kept⟩
    obtain ⟨-, -, word, status_, -⟩ := projected.member found
    have cases_ : word = "done" ∨ word = "cancelled" ∨ word = "superseded" := by
      simpa [status_, RetryCircuit.oneOf, terminal, Json.isStr, Json.text] using ended
    obtain rfl | rfl | rfl := cases_
    · exact ⟨[], Graph.arrives_singleton.mpr (by simp [isDone, found, status_])⟩
    · exact absurd ⟨task, found, .inl status_⟩ kept
    · cases named : (task.fields.get "superseded_by").isNull with
      | true => exact absurd ⟨task, found, .inr ⟨status_, named⟩⟩ kept
      | false =>
        obtain ⟨successor, step, leads⟩ := projected.successor found status_ named
        obtain ⟨rest, arrived⟩ := (dependency_satisfied_iff tasks successor).1.mp leads
        have open_ : isDone tasks taskId = false := by
          simp [isDone, found, status_]
        exact ⟨successor :: rest, Graph.arrives_cons.mpr ⟨step, arrived.not_mem step open_, arrived⟩⟩

/-- Where a card and admission say the same about dependencies: one of them has not ended, or none was abandoned. -/
def DependenciesAgree (tasks : List Task) (task : Meta) : Prop :=
  (∃ dependency ∈ (dependenciesOf task).items.map Json.text, ¬Ended tasks dependency) ∨
    ∀ dependency ∈ (dependenciesOf task).items.map Json.text, ¬Abandoned tasks dependency

theorem clear_card {tasks : List Task} {task : Meta} {observedAt : Int} {shown : List Meta}
    (built : cardBlockers tasks task observedAt = .ok shown) :
    Clear shown ↔ ∀ dependency ∈ (dependenciesOf task).items.map Json.text, statusIn tasks dependency ∈ terminal := by
  obtain ⟨items, listed, built⟩ := bind_eq_ok.mp built
  simp only [dependencies, bind_eq_ok, raiseIf_eq_ok, exists_unit, pure_eq_ok] at listed
  obtain ⟨-, -, rfl⟩ := listed
  rw [clear_blockers built, clear_dependencyBlockers, List.forall_mem_map]
  simp only [mem_sortedText]

theorem Projected.clear_iff_satisfied (projected : Projected files tasks) {task : Meta} {observedAt : Int}
    {shown : List Meta} (built : cardBlockers tasks task observedAt = .ok shown) :
    (Clear shown ↔ ∀ dependency ∈ (dependenciesOf task).items.map Json.text, dependencySatisfied dependency tasks = true) ↔
      DependenciesAgree tasks task := by
  simp only [clear_card built, projected.statusIn_ended, projected.satisfied_iff]
  constructor
  · intro agree
    by_cases ended : ∀ dependency ∈ (dependenciesOf task).items.map Json.text, Ended tasks dependency
    · exact .inr fun dependency member => (agree.mp ended dependency member).2
    · push Not at ended
      exact .inl ended
  · rintro (⟨dependency, member, waiting⟩ | kept)
    · exact iff_of_false (fun ended => waiting (ended dependency member)) fun both => waiting (both dependency member).1
    · exact forall₂_congr fun dependency member => (and_iff_left (kept dependency member)).symm

end dependencies

/-- Two readings of one task set: what the projections show as clear is what admission lets through exactly for a task
whose dependencies and gate both judge alike. -/
theorem views_agree_iff {files : Files} {tasks : List Task} {task : Task} {observedAt : Int} {shown : List Meta}
    (projected : Projected files tasks) (member : task ∈ tasks)
    (built : cardBlockers tasks task.fields observedAt = .ok shown) :
    ((Clear shown ↔
        ∀ dependency ∈ (dependenciesOf task.fields).items.map Json.text, dependencySatisfied dependency tasks = true) ∧
      (BoardMetrics.gateFailure task.fields = none ↔ OracleLifecycle.transitionAllowed task.fields "claim" = .ok ())) ↔
      DependenciesAgree tasks task.fields ∧ BoardMetrics.GateAgrees (OracleLifecycle.gate task.fields) := by
  have clean : OracleLifecycle.gateErrors (OracleLifecycle.gate task.fields) = [] :=
    (basicTaskErrors_eq_nil.mp (projected.members task member)).value
      (show Dict.Check.ofValue "oracle_gate" (fun value => OracleLifecycle.gateErrors value = []) ∈ _ by simp [checks])
  rw [projected.clear_iff_satisfied built, BoardMetrics.gateFailure_iff_allowed clean]

/-- A task that waits for another. -/
def waitingTask (gate : Json) : Task :=
  ⟨"AR-0001.md", ((sampleTask "AR-0001" "open" "" "" 4).set "depends_on" (.arr [.str "AR-0002"])).set "oracle_gate" gate,
    "Body.\n"⟩

def waiting (status : String) (gate : Json) : List Task :=
  [waitingTask gate, ⟨"AR-0002.md", sampleTask "AR-0002" status "" "" 2, "Body.\n"⟩]

/-- A gate whose stages were passed the other way round. -/
def turnedGate : Json :=
  .obj [("required", .bool true), ("stage_sequence", .arr [.str "role", .str "spec"]), ("open_stage", .null),
    ("completed", .arr [.str "spec", .str "role"]), ("events", .arr [])]

theorem projected_of_clean {tasks : List Task}
    (members : tasks.all (fun task => (basicTaskErrors sampleFiles task.path task.fields true).isEmpty) = true)
    (relations : (graphErrors tasks ++ hierarchyErrors tasks ++ supersessionErrors tasks).isEmpty = true) :
    Projected sampleFiles tasks := by
  rw [List.isEmpty_iff, List.append_eq_nil_iff, List.append_eq_nil_iff] at relations
  refine ⟨fun task member => ?_, relations.1.1, relations.1.2, relations.2⟩
  exact List.isEmpty_iff.mp (List.all_eq_true.mp members task member)

theorem waiting_agree : cardBlockers (waiting "done" .null) (waitingTask .null).fields 0 = .ok [] ∧
    DependenciesAgree (waiting "done" .null) (waitingTask .null).fields ∧
    BoardMetrics.GateAgrees (OracleLifecycle.gate (waitingTask .null).fields) := by
  have projected : Projected sampleFiles (waiting "done" .null) := projected_of_clean (by decide +kernel) (by decide +kernel)
  have built : cardBlockers (waiting "done" .null) (waitingTask .null).fields 0 = .ok [] := rfl
  have satisfied : ∀ dependency ∈ (dependenciesOf (waitingTask .null).fields).items.map Json.text,
      dependencySatisfied dependency (waiting "done" .null) = true := by decide +kernel
  exact ⟨built, (views_agree_iff projected List.mem_cons_self built).mp
    ⟨iff_of_true (List.forall_mem_nil _) satisfied, iff_of_true rfl rfl⟩⟩

/-- A cancelled dependency and a gate passed out of order are shown as clear, and a claim is refused for each. -/
theorem refused_shown_clear :
    (Projected sampleFiles (waiting "cancelled" .null) ∧
      cardBlockers (waiting "cancelled" .null) (waitingTask .null).fields 0 = .ok [] ∧
      dependencySatisfied "AR-0002" (waiting "cancelled" .null) = false) ∧
    Projected sampleFiles (waiting "done" turnedGate) ∧ BoardMetrics.gateFailure (waitingTask turnedGate).fields = none ∧
    OracleLifecycle.transitionAllowed (waitingTask turnedGate).fields "claim" =
      .error (.error "interaction gate unresolved: reconciliation") :=
  ⟨⟨projected_of_clean (by decide +kernel) (by decide +kernel), rfl, by decide +kernel⟩,
    projected_of_clean (by decide +kernel) (by decide +kernel), by decide +kernel, rfl⟩

end Coordinator.Campaign
