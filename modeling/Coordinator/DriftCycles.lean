import Coordinator.ChangeDrift
import Coordinator.Kit.Frame
import Coordinator.Kit.Run
import Coordinator.Revision

/-! Cycles of change drift. A history that the command writes is one cycle: a baseline, re-scopes of
it, at most one delta and explanations of that delta. Completion and a new baseline both wait until
the explanations name every material path of the delta. -/

namespace Coordinator.ChangeDrift
open Kit Dict

def entriesOf (record : Json) : List Json := ((payloadOf record).get "entries").items

def pathsOf (record : Json) : List Json := ((payloadOf record).get "paths").items

/-- A baseline with re-scopes of it. -/
structure Opened (base : Json) (scopes : List Json) : Prop where
  baseline : kindOf base = "baseline"
  scopes : ∀ record ∈ scopes, kindOf record = "rescope"

/-- A valid explanation of a delta. -/
structure Explains (current record : Json) : Prop where
  kind : kindOf record = "explain"
  linked : ((payloadOf record).get "delta_digest" == current.get "digest") = true
  valid : validate record = .ok ()

/-- A baseline with its delta and the explanations of that delta. -/
structure Captured (base : Json) (scopes : List Json) (current : Json) (explains : List Json) : Prop
    extends Opened base scopes where
  delta : kindOf current = "delta"
  valid : validate current = .ok ()
  explains : ∀ record ∈ explains, Explains current record

/-- How far the only cycle of a history has come. -/
inductive Phase : List Json → Cycle → Prop
  | idle : Phase [] ⟨none, none⟩
  | opened {base : Json} {scopes : List Json} (shape : Opened base scopes) : Phase (base :: scopes) ⟨some base, none⟩
  | captured {base current : Json} {scopes explains : List Json} (shape : Captured base scopes current explains) :
      Phase (base :: scopes ++ current :: explains) ⟨some base, some current⟩

/-- Every material path of the captured delta is named by one of its explanations. -/
def Explained (current : Json) (explains : List Json) : Prop :=
  ∀ entry ∈ entriesOf current, (entry.get "material").truthy = true → ∃ record ∈ explains,
    entry.get "path" ∈ pathsOf record

/-- A history whose cycle has a captured delta with all its material paths explained. -/
def Resolved (history : List Json) : Prop :=
  ∃ base scopes current explains, history = base :: scopes ++ current :: explains ∧
    Captured base scopes current explains ∧ Explained current explains

/-- The header that every valid record carries. -/
structure Identified (record : Json) : Prop where
  fields : record.hasExactly recordFields = true
  schema : (record.get "schema_version" == .int 2) = true
  kind : RetryCircuit.oneOf (record.get "kind") kinds = true
  task : ExecutionEnvelope.isTask (record.get "task").toText = true
  revision : ExecutionEnvelope.positive (record.get "task_revision") = true
  recordedAt : RetryCircuit.nonemptyStr (record.get "recorded_at") = true
  previous : (record.get "previous_digest").isStr = true
  linked : (record.get "previous_digest").text = "" ∨ Text.isDigest (record.get "previous_digest").text = true
  digest : record.get "digest" = .str (digest (identityOf record))
  payload : (record.get "payload").isObj = true

theorem identified_of_validate {record : Json} (valid : validate record = .ok ()) : Identified record := by
  simp only [validate, raiseIf_bind_ok, Bool.or_eq_false_iff, Bool.not_eq_false', bne_eq_false_iff_eq,
    Bool.and_eq_false_iff] at valid
  obtain ⟨fields, ⟨⟨⟨⟨⟨⟨⟨schema, kind⟩, task⟩, revision⟩, recordedAt⟩, previous⟩, linked⟩, digest⟩, payload, -⟩ := valid
  rw [bne, Bool.not_eq_false'] at schema digest
  exact ⟨fields, schema, kind, task, revision, recordedAt, previous, linked, (Json.beq_str _ _).mp digest, payload⟩

theorem kind_mem {record : Json} (valid : validate record = .ok ()) : kindOf record ∈ kinds := by
  have known := (identified_of_validate valid).kind
  rw [RetryCircuit.oneOf, Bool.and_eq_true, List.contains_iff_mem] at known
  exact known.2

theorem observation_of_delta {record : Json} (valid : validate record = .ok ()) (delta : kindOf record = "delta") :
    validateObservation (payloadOf record) false true = .ok () := by
  rw [kindOf] at delta
  simp only [validate, delta, raiseIf_bind_ok] at valid
  exact valid.2.2.2.2

theorem entryValid_of_delta {record entry : Json} (valid : validate record = .ok ()) (delta : kindOf record = "delta")
    (member : entry ∈ entriesOf record) : entryValid true entry = true := by
  have observed := observation_of_delta valid delta
  simp only [validateObservation, raiseIf_bind_ok, Bool.not_eq_false'] at observed
  obtain ⟨-, -, entries, -⟩ := observed
  exact List.all_eq_true.mp entries entry member

theorem safePath_of_entry {entry : Json} (valid : entryValid true entry = true) : safePath (entry.get "path") = true := by
  simp only [entryValid, Bool.and_eq_true] at valid
  exact valid.1.1.1.1.1.1.1.2

theorem path_eq {entry : Json} (valid : entryValid true entry = true) :
    entry.get "path" = .str (entry.get "path").text := by
  have safe := safePath_of_entry valid
  simp only [safePath, Bool.and_eq_true] at safe
  obtain ⟨word, named⟩ := Json.isStr_iff.mp safe.1.1.1.1.1
  rw [named, Json.text]

/-! The phase that a checked history has reached. -/

section phases

variable {base current record : Json} {scopes explains before : List Json} {cycle next : Cycle}

theorem Captured.snoc (shape : Captured base scopes current explains) (named : Explains current record) :
    Captured base scopes current (explains ++ [record]) where
  toOpened := shape.toOpened
  delta := shape.delta
  valid := shape.valid
  explains := List.forall_mem_append.mpr ⟨shape.explains, by simpa using named⟩

theorem follow_explain (kind : kindOf record = "explain") : follow cycle before record = .ok next ↔
    ∃ delta, cycle.delta = some delta ∧ ((payloadOf record).get "delta_digest" == delta.get "digest") = true ∧
      (∀ path ∈ pathsOf record, ∃ entry ∈ entriesOf delta, (entry.get "path" == path) = true) ∧ cycle = next := by
  unfold follow
  split
  · next other => exact absurd (kind.symm.trans other) (by decide)
  · next other => exact absurd (kind.symm.trans other) (by decide)
  · next other => exact absurd (kind.symm.trans other) (by decide)
  · simp only [bind_eq_ok, orRaise_eq_ok, raiseIf_eq_ok, exists_unit, pure_eq_ok, bne, Bool.not_eq_false',
      List.any_eq_false, Bool.not_eq_true', List.any_map, Function.comp, not_forall, not_not, exists_prop,
      pathsOf, entriesOf]

/-- A valid record that is no second baseline takes the cycle one step on. -/
theorem follow_phase (phase : Phase before cycle) (valid : validate record = .ok ())
    (followed : follow cycle before record = .ok next) (first : before ≠ [] → kindOf record ≠ "baseline") :
    Phase (before ++ [record]) next := by
  have known := kind_mem valid
  simp only [kinds, List.mem_cons, List.not_mem_nil, or_false] at known
  obtain kind | kind | kind | kind := known
  · -- a baseline opens the history
    simp only [follow, kind, raiseIf_bind_ok, pure_eq_ok] at followed
    obtain ⟨-, rfl⟩ := followed
    obtain rfl : before = [] := by
      by_contra later
      exact first later kind
    cases phase
    exact .opened ⟨kind, by simp⟩
  · simp only [follow, kind, raiseIf_bind_ok, pure_eq_ok, Bool.not_eq_false'] at followed
    obtain ⟨linked, rfl⟩ := followed
    cases phase with
    | idle => simp [ChangeDrift.linked] at linked
    | captured shape => simp [ChangeDrift.linked] at linked
    | opened shape => exact .captured ⟨shape, kind, valid, by simp⟩
  · obtain ⟨delta, here, named, -, rfl⟩ := (follow_explain kind).mp followed
    cases phase with
    | idle => cases here
    | opened shape => cases here
    | captured shape =>
      cases here
      rw [List.append_assoc, List.cons_append]
      exact .captured (shape.snoc ⟨kind, named, valid⟩)
  · simp only [follow, kind, raiseIf_bind_ok, pure_eq_ok, Bool.not_eq_false'] at followed
    obtain ⟨linked, rfl⟩ := followed
    cases phase with
    | idle => simp [ChangeDrift.linked] at linked
    | captured shape => simp [ChangeDrift.linked] at linked
    | opened shape => exact .opened ⟨shape.baseline, List.forall_mem_append.mpr ⟨shape.scopes, by simp [kind]⟩⟩

/-- A record that a history accepts next. -/
structure Follows (taskId : Json) (before : List Json) (cycle : Cycle) (record : Json) (next : Cycle) : Prop where
  valid : validate record = .ok ()
  task : (record.get "task" == taskId) = true
  linked : (record.get "previous_digest" == (before.getLast?.map (·.get "digest")).getD (.str "")) = true
  later : (before.getLast?.map revisionOf).getD 0 < revisionOf record
  followed : follow cycle before record = .ok next

theorem Follows.checkHistory {taskId : Json} (follows : Follows taskId before cycle record next) (rest : List Json) :
    checkHistory taskId before cycle (record :: rest) = checkHistory taskId (before ++ [record]) next rest := by
  have later := decide_eq_false (not_le.mpr follows.later)
  simp only [ChangeDrift.checkHistory, follows.valid, ok_bind, bne, follows.task, follows.linked, Bool.not_true,
    raiseIf_false, later, follows.followed]

theorem checkHistory_cons {taskId : Json} {rest : List Json}
    (checked : checkHistory taskId before cycle (record :: rest) = .ok ()) :
    ∃ next, Follows taskId before cycle record next ∧ checkHistory taskId (before ++ [record]) next rest = .ok () := by
  simp only [ChangeDrift.checkHistory, bind_eq_ok, exists_unit, raiseIf_eq_ok, bne, Bool.not_eq_false',
    decide_eq_false_iff_not, not_le] at checked
  obtain ⟨valid, task, linked, later, next, followed, checked⟩ := checked
  exact ⟨next, ⟨valid, task, linked, later, followed⟩, checked⟩

/-- A checked continuation without a second baseline goes on to some phase. -/
theorem checkHistory_phase {taskId : Json} {rest : List Json} (phase : Phase before cycle)
    (checked : checkHistory taskId before cycle rest = .ok ())
    (single : ∀ record ∈ (before ++ rest).tail, kindOf record ≠ "baseline") :
    ∃ last, Phase (before ++ rest) last := by
  induction rest generalizing before cycle with
  | nil => exact ⟨cycle, by simpa using phase⟩
  | cons record rest ih =>
    obtain ⟨next, follows, checked⟩ := checkHistory_cons checked
    have first : before ≠ [] → kindOf record ≠ "baseline" := by
      intro later
      obtain ⟨head, tail, rfl⟩ := List.exists_cons_of_ne_nil later
      exact single record (by simp)
    have onward := ih (follow_phase phase follows.valid follows.followed first) checked (by simpa using single)
    simpa using onward

theorem latest_captured (shape : Captured base scopes current explains) :
    latest (base :: scopes ++ current :: explains) "delta" = some current := by
  have none : explains.reverse.find? (fun record => kindOf record == "delta") = none := by
    rw [List.find?_eq_none]
    intro record member
    simp [(shape.explains record (List.mem_reverse.mp member)).kind]
  simp [latest, List.find?_append, none, shape.delta]

/-- What is unresolved of a captured cycle: its material entries that no explanation names. -/
theorem unresolved_captured (shape : Captured base scopes current explains) :
    unresolved (base :: scopes ++ current :: explains) = (entriesOf current).filter (fun entry =>
      (entry.get "material").truthy && !(explains.flatMap pathsOf).any (· == entry.get "path")) := by
  have others : ∀ record ∈ base :: scopes ++ [current], (kindOf record == "explain" &&
      (payloadOf record).get "delta_digest" == current.get "digest") = false := by
    intro record member
    simp only [List.cons_append, List.mem_cons, List.mem_append, List.not_mem_nil, or_false] at member
    obtain rfl | scope | rfl := member
    · simp [shape.baseline]
    · simp [shape.scopes record scope]
    · simp [shape.delta]
  have split : base :: scopes ++ current :: explains = (base :: scopes ++ [current]) ++ explains := by simp
  have named : (base :: scopes ++ current :: explains).filter (fun record => kindOf record == "explain" &&
      (payloadOf record).get "delta_digest" == current.get "digest") = explains := by
    rw [split, List.filter_append, List.filter_eq_nil_iff.mpr (fun record member => by simp [others record member]),
      List.nil_append, List.filter_eq_self]
    intro record member
    have named := shape.explains record member
    simp [named.kind, named.linked]
  simp only [unresolved, latest_captured shape, named]
  rfl

theorem unresolved_eq_nil (shape : Captured base scopes current explains) :
    unresolved (base :: scopes ++ current :: explains) = [] ↔ Explained current explains := by
  rw [unresolved_captured shape, List.filter_eq_nil_iff, Explained]
  refine forall₂_congr fun entry member => ?_
  rw [path_eq (entryValid_of_delta shape.valid shape.delta member)]
  simp [List.any_eq_true]

theorem completionError_getLast {history : List Json} (last : history.getLast? = some record) :
    completionError history = none ↔ (kindOf record = "delta" ∨ kindOf record = "explain") ∧ unresolved history = [] := by
  simp only [completionError, last]
  by_cases worked : kindOf record = "delta" ∨ kindOf record = "explain"
  · have measured : (kindOf record != "delta" && kindOf record != "explain") = false := by
      rw [Bool.and_eq_false_iff, bne_eq_false_iff_eq, bne_eq_false_iff_eq]
      exact worked
    simp [measured, worked]
  · have open_ : (kindOf record != "delta" && kindOf record != "explain") = true := by
      rw [not_or] at worked
      simp [worked]
    simp [open_, worked]

theorem resolved_unresolved {history : List Json} (resolved : Resolved history) : unresolved history = [] := by
  obtain ⟨base, scopes, current, explains, rfl, shape, named⟩ := resolved
  exact (unresolved_eq_nil shape).mpr named

/-- A checked history of one cycle is complete when it is empty or resolved. -/
theorem completionError_eq_none {history : List Json} (phase : Phase history cycle) :
    completionError history = none ↔ history = [] ∨ Resolved history := by
  cases phase with
  | idle => simp [completionError]
  | opened shape =>
    next base scopes =>
    have early : ∀ record ∈ base :: scopes, kindOf record ≠ "delta" ∧ kindOf record ≠ "explain" := by
      rw [List.forall_mem_cons]
      exact ⟨by simp [shape.baseline], fun record member => by simp [shape.scopes record member]⟩
    obtain ⟨record, last⟩ := Option.isSome_iff_exists.mp (show (base :: scopes).getLast?.isSome by simp)
    rw [completionError_getLast last]
    constructor
    · rintro ⟨worked, -⟩
      have unworked := early record (List.mem_of_getLast? last)
      exact absurd worked (by simp [unworked])
    · rintro (empty | ⟨base', scopes', current, explains, same, shape', -⟩)
      · cases empty
      · exact absurd shape'.delta (early current (by simp [same])).1
  | captured shape =>
    next base current scopes explains =>
    obtain ⟨record, last, worked⟩ : ∃ record, (base :: scopes ++ current :: explains).getLast? = some record ∧
        (kindOf record = "delta" ∨ kindOf record = "explain") := by
      rw [List.getLast?_append_of_ne_nil _ (List.cons_ne_nil current explains)]
      refine ⟨_, List.getLast?_eq_some_getLast (List.cons_ne_nil current explains), ?_⟩
      have member := List.getLast_mem (List.cons_ne_nil current explains)
      rw [List.mem_cons] at member
      obtain same | member := member
      · rw [same]
        exact .inl shape.delta
      · exact .inr (shape.explains _ member).kind
    rw [completionError_getLast last]
    constructor
    · rintro ⟨-, clean⟩
      exact .inr ⟨base, scopes, current, explains, rfl, shape, (unresolved_eq_nil shape).mp clean⟩
    · rintro (empty | resolved)
      · simp at empty
      · exact ⟨worked, resolved_unresolved resolved⟩

end phases

/-! Runs of the command on one task. -/

def historyOf (task : Meta) : List Json := (task.get "change_drift").items

/-- The history holds no baseline after its first record. -/
def OneCycle (task : Meta) : Prop := ∀ record ∈ (historyOf task).tail, kindOf record ≠ "baseline"

theorem records_eq_ok {task : Meta} {history : List Json} (read : records task = .ok history) :
    history = historyOf task ∧ history.length ≤ maxRecords ∧
      checkHistory (task.get "id") [] ⟨none, none⟩ history = .ok () := by
  simp only [records, bind_eq_ok, exists_unit, raiseIf_eq_ok, pure_eq_ok, Bool.or_eq_false_iff,
    decide_eq_false_iff_not, not_lt] at read
  obtain ⟨⟨-, bounded⟩, checked, rfl⟩ := read
  have same : (if task.has "change_drift" then task.get "change_drift" else .arr []).items = historyOf task := by
    split
    · rfl
    · next absent =>
      rw [historyOf, get_of_not_has (Bool.not_eq_true _ ▸ absent)]
      rfl
  exact ⟨same, bounded, checked⟩

theorem records_phase {task : Meta} {history : List Json} (read : records task = .ok history) (single : OneCycle task) :
    ∃ cycle, Phase history cycle := by
  obtain ⟨rfl, -, checked⟩ := records_eq_ok read
  exact checkHistory_phase .idle checked single

/-- Completion of a one-cycle history is admitted only when it is empty or resolved. -/
theorem doneAdmission_resolved {task : Meta} (single : OneCycle task) (admitted : doneAdmissionError task = none) :
    historyOf task = [] ∨ Resolved (historyOf task) := by
  unfold doneAdmissionError at admitted
  split at admitted
  · cases admitted
  · next history read =>
    obtain ⟨cycle, phase⟩ := records_phase read single
    obtain ⟨rfl, -, -⟩ := records_eq_ok read
    rw [← completionError_eq_none phase]
    split at admitted
    · split at admitted <;> cases admitted
    · next clean => exact clean

/-- What an accepted drift action has checked and what it writes. -/
structure Applied (files : Files) (world : Moment) (task : Meta) (request : Request) (settings : Dict)
    (history previous : List Json) (made : Json) (after : Meta) : Prop where
  configured : files.config = some settings
  root : settings.has "projects_root" = true
  holder : owner task = .str request.owner
  active : status task = .str "in_progress"
  fenced : requireRevision task request.expectedRevision = .ok ()
  read : records task = .ok history
  bound : validWorktreeKey (task.get "worktree_key") = true
  apart : (task.get "worktree_key").text ≠ settings.textOr "product_worktree"
  opened : world.worktreeRefused (task.get "worktree_key").text = none
  next : nextRecord world (task.get "worktree_key").text history (Meta.revision task + 1) world.now request =
    .ok (made, previous)
  room : previous.length < maxRecords
  written : after = task.set "change_drift" (.arr (previous ++ [made]))

section applied

variable {files : Files} {world : Moment} {task after : Meta} {request : Request} {settings : Dict}
  {history previous : List Json} {made : Json} {note : String}

theorem apply_eq_ok (applied : apply files world task request = .ok (after, note)) :
    ∃ settings history previous made, Applied files world task request settings history previous made after := by
  simp only [apply, bind_eq_ok, exists_unit, orRaise_eq_ok, raiseIf_eq_ok, Bool.or_eq_false_iff,
    Bool.not_eq_false', beq_eq_false_iff_ne] at applied
  obtain ⟨settings, configured, root, ⟨holder, active⟩, fenced, history, read, ⟨bound, apart⟩, applied⟩ := applied
  split at applied
  · simp at applied
  · next opened =>
    simp only [bind_eq_ok, exists_unit, raiseIf_eq_ok, pure_eq_ok, decide_eq_false_iff_not, not_le, Prod.mk.injEq]
      at applied
    obtain ⟨⟨made, previous⟩, next, room, written, -⟩ := applied
    rw [bne, Bool.not_eq_false', Json.beq_str] at holder active
    exact ⟨settings, history, previous, made, configured, root, holder, active, fenced, read, bound, apart, opened,
      next, room, written.symm⟩

theorem Applied.accepted (applied : Applied files world task request settings history previous made after) :
    ∃ note, apply files world task request = .ok (after, note) := by
  refine ⟨"Recorded change-drift " ++ request.action ++ " " ++ (made.get "digest").text ++ ".", ?_⟩
  have holder : (owner task != .str request.owner) = false := by
    rw [bne, Bool.not_eq_false', Json.beq_str]
    exact applied.holder
  have active : (status task != .str "in_progress") = false := by
    rw [bne, Bool.not_eq_false', Json.beq_str]
    exact applied.active
  have room : decide (maxRecords ≤ previous.length) = false := by simpa using applied.room
  simp only [apply, applied.configured, orRaise, ok_bind, applied.root, Bool.not_true, raiseIf_false, holder, active,
    Bool.or_false, applied.fenced, applied.read, applied.bound, beq_eq_false_iff_ne.mpr applied.apart, applied.opened,
    applied.next, room, applied.written]
  rfl

theorem kindOf_record {kind name recordedAt previous : String} {revision : Int} {payload : Json}
    (built : record kind name revision recordedAt payload previous = .ok made) : kindOf made = kind := by
  simp only [record, raiseIf_bind_ok, pure_eq_ok] at built
  obtain ⟨-, -, rfl⟩ := built
  rfl

/-- Every action makes one record of its kind. A baseline starts over from an empty or complete
history; any other action extends the history. -/
theorem nextRecord_eq_ok {key timestamp : String} {revision : Int}
    (built : nextRecord world key history revision timestamp request = .ok (made, previous)) :
    (∃ payload linked, record request.action request.task revision timestamp payload linked = .ok made) ∧
      ((request.action = "baseline" ∧ previous = [] ∧ completionError history = none) ∨
        (request.action ≠ "baseline" ∧ previous = history)) := by
  unfold nextRecord at built
  split at built <;> simp only [bind_eq_ok, exists_unit, orRaise_eq_ok, raiseIf_eq_ok, pure_eq_ok, throw_eq_ok,
    Prod.mk.injEq] at built
  · next action =>
    obtain ⟨complete, _, -, _, -, other, built, rfl, rfl⟩ := built
    refine ⟨action ▸ ⟨_, _, built⟩, .inl ⟨action, rfl, ?_⟩⟩
    rw [Bool.and_eq_false_iff, Option.isSome_eq_false_iff, Option.isNone_iff_eq_none] at complete
    obtain empty | clean := complete
    · obtain rfl : history = [] := by simpa using empty
      rfl
    · exact clean
  · next action =>
    obtain ⟨_, -, _, -, built⟩ := built
    -- the committed entries are looked up only when the head has moved
    split at built
    · simp only [bind_eq_ok, pure_eq_ok, Prod.mk.injEq] at built
      obtain ⟨_, -, other, built, rfl, rfl⟩ := built
      exact ⟨action ▸ ⟨_, _, built⟩, .inr ⟨by simp [action], rfl⟩⟩
    · split at built <;> simp only [bind_eq_ok, pure_eq_ok, throw_eq_ok, Prod.mk.injEq, false_and, exists_false] at built
      obtain ⟨_, -, other, built, rfl, rfl⟩ := built
      exact ⟨action ▸ ⟨_, _, built⟩, .inr ⟨by simp [action], rfl⟩⟩
  · next action =>
    obtain ⟨_, -, -, -, other, built, rfl, rfl⟩ := built
    exact ⟨action ▸ ⟨_, _, built⟩, .inr ⟨by simp [action], rfl⟩⟩
  · next action =>
    obtain ⟨_, -, _, -, other, built, rfl, rfl⟩ := built
    exact ⟨action ▸ ⟨_, _, built⟩, .inr ⟨by simp [action], rfl⟩⟩

/-- An accepted action starts over from an empty or resolved cycle, or extends the history. -/
theorem apply_cases (applied : apply files world task request = .ok (after, note)) (single : OneCycle task) :
    (historyOf task = [] ∨ Resolved (historyOf task) ∨ historyOf task <+: historyOf after) ∧ OneCycle after := by
  obtain ⟨settings, history, previous, made, done⟩ := apply_eq_ok applied
  obtain ⟨rfl, -, -⟩ := records_eq_ok done.read
  obtain ⟨cycle, phase⟩ := records_phase done.read single
  have written : historyOf after = previous ++ [made] := by
    rw [done.written, historyOf, get_set, if_pos rfl]
    rfl
  obtain ⟨⟨payload, linked, built⟩, ⟨-, rfl, complete⟩ | ⟨other, rfl⟩⟩ := nextRecord_eq_ok done.next
  · refine ⟨?_, ?_⟩
    · obtain empty | resolved := (completionError_eq_none phase).mp complete
      · exact .inl empty
      · exact .inr (.inl resolved)
    · intro record member
      simp [written] at member
  · refine ⟨.inr (.inr ⟨[made], written.symm⟩), ?_⟩
    intro record member
    rw [written] at member
    cases known : historyOf task with
    | nil => simp [known] at member
    | cons first rest =>
      rw [known, List.cons_append, List.tail_cons, List.mem_append, List.mem_singleton] at member
      obtain earlier | rfl := member
      · exact single record (by simpa [known] using earlier)
      · rwa [kindOf_record built]

end applied

/-! Runs of the command on one task. -/

/-- A drift command, or a change of the task that leaves its drift alone. -/
inductive Change
  | drift (files : Files) (world : Moment) (request : Request)
  | other (after : Meta)

/-- An accepted command is committed at the next revision, a refused one leaves the task alone. -/
def step (task : Meta) : Change → Meta
  | .drift files world request =>
      match apply files world task request with
      | .ok (after, _) => Authority.advanced after world.now
      | .error _ => task
  | .other after => after

/-- Other changes leave the drift history alone. -/
def Allowed (task : Meta) : Change → Prop
  | .drift .. => True
  | .other after => SameOn ["change_drift"] after task

/-- A step extends the history, or replaces a resolved one. -/
def KeepsOpenWork (task : Meta) (_ : Change) (after : Meta) : Prop :=
  historyOf task <+: historyOf after ∨ Resolved (historyOf task)

theorem step_keeps {task : Meta} {change : Change} (single : OneCycle task) (allowed : Allowed task change) :
    KeepsOpenWork task change (step task change) ∧ OneCycle (step task change) := by
  cases change with
  | other after =>
    have same : historyOf after = historyOf task := by rw [historyOf, historyOf, allowed.get (by simp)]
    exact ⟨.inl (by rw [step, same]), by rw [step, OneCycle, same]; exact single⟩
  | drift files world request =>
    simp only [step]
    split
    · next after note applied =>
      have same : historyOf (Authority.advanced after world.now) = historyOf after := by
        rw [historyOf, historyOf, Authority.advanced_get (by decide)]
      obtain ⟨kept, next⟩ := apply_cases applied single
      refine ⟨?_, by rw [OneCycle, same]; exact next⟩
      rw [KeepsOpenWork, same]
      obtain empty | resolved | extended := kept
      · exact .inl (empty ▸ List.nil_prefix)
      · exact .inr resolved
      · exact .inl extended
    · exact ⟨.inl List.prefix_rfl, single⟩

/-- In every run of drift commands on a task that starts without drift, no step drops work that is
not explained, and completion is admitted only of an empty or a resolved history. -/
theorem drift_run (task : Meta) (fresh : task.has "change_drift" = false) (changes : List Change)
    (allowed : Run.Along step Allowed task changes) :
    Run.Steps step KeepsOpenWork task changes ∧
      (doneAdmissionError (Run.final step task changes) = none →
        historyOf (Run.final step task changes) = [] ∨ Resolved (historyOf (Run.final step task changes))) := by
  have single : OneCycle task := by
    have empty : historyOf task = [] := by
      rw [historyOf, get_of_not_has fresh]
      rfl
    simp [OneCycle, empty]
  have keeps (task : Meta) (change : Change) (single : OneCycle task) (allowed : Allowed task change) :
      OneCycle (step task change) := (step_keeps single allowed).2
  refine ⟨Run.steps_of_invariant step keeps (fun _ _ single allowed => (step_keeps single allowed).1) changes task
    single allowed, doneAdmission_resolved ?_⟩
  exact Run.invariant step keeps changes task single allowed

open TaskValidation in
/-- The claimed sample task with a worktree. -/
def boundSample : Meta := claimedSample ++ [("worktree_key", .str "sample")]

open TaskValidation in
def driftFiles : Files := { sampleFiles with config := some [("projects_root", .str "projects")] }

def changedEntry (path : String) : Json :=
  .obj [("path", .str path), ("previous_path", .str ""), ("status", .str " M"), ("generated", .bool false),
    ("content_digest", .str "")]

open TaskValidation in
/-- The sample moment with some changed files in every worktree. -/
def changedWorld (paths : List String) : Moment :=
  { sampleWorld with driftObservation := fun _ => .ok ("head", paths.map changedEntry) }

/-- A drift command of the sample owner. -/
def sampleDrift (action : String) (revision : Int) (scope path : List String) : Request where
  task := "AR-0001"
  owner := "worker"
  expectedRevision := revision
  action := action
  scopePath := scope
  path := path
  reason := "Work of the task."
  generated := false

/-- A baseline, a delta with one changed file and the explanation of that file. -/
def sampleCycle : List Change :=
  [.drift driftFiles (changedWorld []) (sampleDrift "baseline" 4 ["src"] []),
    .drift driftFiles (changedWorld ["src/one.py"]) (sampleDrift "delta" 5 [] []),
    .drift driftFiles (changedWorld ["src/one.py"]) (sampleDrift "explain" 6 [] ["src/one.py"])]

/-- The sample cycle ends with a history that is resolved and admitted. -/
theorem sampleCycle_resolved :
    doneAdmissionError (Run.final step boundSample sampleCycle) = none ∧
      (historyOf (Run.final step boundSample sampleCycle)).length = 3 ∧
      Resolved (historyOf (Run.final step boundSample sampleCycle)) := by
  have both : (historyOf (Run.final step boundSample sampleCycle)).length = 3 ∧
      doneAdmissionError (Run.final step boundSample sampleCycle) = none := by decide +kernel
  obtain ⟨three, admitted⟩ := both
  obtain empty | resolved := (drift_run boundSample rfl sampleCycle ⟨trivial, trivial, trivial, trivial⟩).2 admitted
  · rw [empty] at three
    cases three
  · exact ⟨admitted, three, resolved⟩

end Coordinator.ChangeDrift
