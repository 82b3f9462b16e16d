import Coordinator.Kit.Frame
import Coordinator.TaskValidation
import Mathlib.Data.List.Dedup

/-! Valid metadata as a closed set of fields and a list of checks that each read a few of them.
A change that writes some fields keeps every check that reads none of these. -/

namespace Coordinator.TaskSpec
open Kit Dict

def specReads : List String := ["id", "spec_ref", "spec_revision", "evidence_ledger", "task_revision"]

theorem sorted_eq_nil {messages : List String} : sorted messages = [] ↔ messages = [] := by
  constructor
  · intro none
    have size := List.length_insertionSort (· ≤ ·) messages.dedup
    rw [show messages.dedup.insertionSort (· ≤ ·) = [] from none] at size
    exact (List.dedup_eq_nil _).mp (List.length_eq_zero_iff.mp size.symm)
  · rintro rfl
    rfl

theorem revision_of_same {names : List String} {a b : Meta} (same : SameOn names a b)
    (listed : "task_revision" ∈ names) : Meta.revision a = Meta.revision b := by
  rw [Meta.revision, Meta.revision, same.get listed]

theorem taskText_same {names : List String} {a b : Meta} (same : SameOn names a b) (listed : "id" ∈ names) :
    taskText a = taskText b := same.textOr listed

theorem stepErrors_revision (files : Files) {a b : Meta} (same : Meta.revision a = Meta.revision b) (ledger : Json)
    (predicates : List Json) (seen : List String) (step : Json) :
    stepErrors files a ledger predicates seen step = stepErrors files b ledger predicates seen step := by
  simp only [stepErrors, same]

theorem ledgerSteps_revision (files : Files) {a b : Meta} (same : Meta.revision a = Meta.revision b) (ledger : Json)
    (predicates steps : List Json) :
    ∀ seen, ledgerSteps files a ledger predicates seen steps = ledgerSteps files b ledger predicates seen steps := by
  induction steps with
  | nil => exact fun _ => rfl
  | cons step rest ih =>
    intro seen
    simp only [ledgerSteps, ih, stepErrors_revision files same]

theorem evidenceLedgerErrors_same (files : Files) {a b : Meta} (same : SameOn specReads a b) :
    evidenceLedgerErrors files a = evidenceLedgerErrors files b := by
  simp only [evidenceLedgerErrors, same.get (show "evidence_ledger" ∈ _ by simp [specReads]),
    same.get (show "spec_ref" ∈ _ by simp [specReads]), taskText_same same (by simp [specReads]),
    ledgerSteps_revision files (revision_of_same same (by simp [specReads]))]

/-- The fields that a specification check reads, but for the revision. -/
def bindingReads : List String := ["id", "spec_ref", "spec_revision", "evidence_ledger"]

theorem hasSpec_same {a b : Meta} (same : SameOn bindingReads a b) : hasSpec a = hasSpec b := by
  rw [hasSpec, hasSpec, same.has (by simp [bindingReads]), same.has (by simp [bindingReads])]

theorem metadataErrors_same {a b : Meta} (same : SameOn bindingReads a b) (taskId : String) :
    metadataErrors taskId a = metadataErrors taskId b := by
  simp only [metadataErrors, same.get (show "spec_ref" ∈ _ by simp [bindingReads]),
    same.get (show "spec_revision" ∈ _ by simp [bindingReads])]

theorem taskSpecErrors_same (files : Files) {a b : Meta} (same : SameOn specReads a b) (includeLedger : Bool) :
    taskSpecErrors files a includeLedger = taskSpecErrors files b includeLedger := by
  have bound : SameOn bindingReads a b := same.mono (by simp [bindingReads, specReads])
  simp only [taskSpecErrors, hasSpec_same bound, metadataErrors_same bound,
    evidenceLedgerErrors_same files same, same.get (show "spec_ref" ∈ _ by simp [specReads]),
    same.get (show "spec_revision" ∈ _ by simp [specReads]), same.has (show "id" ∈ _ by simp [specReads]),
    taskText_same same (by simp [specReads])]

/-- A ledger row stays good as the revision of its task grows. -/
theorem stepErrors_mono (files : Files) {a b : Meta} (later : Meta.revision a ≤ Meta.revision b) {ledger : Json}
    {predicates : List Json} {seen : List String} {step : Json}
    (clean : stepErrors files a ledger predicates seen step = []) :
    stepErrors files b ledger predicates seen step = [] := by
  simp only [stepErrors, List.append_eq_nil_iff] at clean ⊢
  refine ⟨clean.1, ?_⟩
  have bounded := clean.2
  cases recorded : (step.get "recorded_task_revision").exactInt? with
  | none => simp [recorded] at bounded
  | some revision =>
    simp only [recorded, Option.any_some, ite_eq_right_iff, reduceCtorEq, imp_false, Bool.not_eq_true,
      Bool.not_eq_false', Bool.and_eq_true, decide_eq_true_eq] at bounded ⊢
    omega

theorem ledgerSteps_mono (files : Files) {a b : Meta} (later : Meta.revision a ≤ Meta.revision b) {ledger : Json}
    {predicates steps : List Json} : ∀ {seen}, ledgerSteps files a ledger predicates seen steps = [] →
      ledgerSteps files b ledger predicates seen steps = [] := by
  induction steps with
  | nil => exact fun clean => clean
  | cons step rest ih =>
    intro seen clean
    simp only [ledgerSteps] at clean ⊢
    split at clean
    · exact absurd clean (by simp)
    · next whole =>
      rw [if_neg whole]
      rw [List.append_eq_nil_iff] at clean ⊢
      exact ⟨stepErrors_mono files later clean.1, ih clean.2⟩

theorem evidenceLedgerErrors_mono (files : Files) {a b : Meta} (same : SameOn bindingReads a b)
    (later : Meta.revision a ≤ Meta.revision b) (clean : evidenceLedgerErrors files a = []) :
    evidenceLedgerErrors files b = [] := by
  simp only [evidenceLedgerErrors, same.get (show "evidence_ledger" ∈ _ by simp [bindingReads]),
    same.get (show "spec_ref" ∈ _ by simp [bindingReads]), taskText_same same (by simp [bindingReads])] at clean ⊢
  split at clean
  · next absent => rw [if_pos absent]
  next present =>
  rw [if_neg present]
  split at clean
  · exact absurd clean (by simp)
  next whole =>
  rw [if_neg whole]
  split at clean
  · exact absurd clean (by simp)
  next digest =>
  rw [if_neg digest]
  split at clean
  · exact absurd clean (by simp)
  next listed =>
  rw [if_neg listed]
  cases found : loadSpec files (taskText b) (Dict.get b "spec_ref").toText with
  | error reason => simp [found] at clean
  | ok spec =>
    simp only [found] at clean ⊢
    split at clean
    · exact absurd clean (by simp)
    next object =>
    rw [if_neg object]
    rw [sorted_eq_nil] at clean ⊢
    exact ledgerSteps_mono files later clean

theorem taskSpecErrors_mono (files : Files) {a b : Meta} (same : SameOn bindingReads a b)
    (later : Meta.revision a ≤ Meta.revision b) {includeLedger : Bool}
    (clean : taskSpecErrors files a includeLedger = []) : taskSpecErrors files b includeLedger = [] := by
  simp only [taskSpecErrors, hasSpec_same same, metadataErrors_same same,
    same.get (show "spec_ref" ∈ _ by simp [bindingReads]), same.get (show "spec_revision" ∈ _ by simp [bindingReads]),
    same.has (show "id" ∈ _ by simp [bindingReads]), taskText_same same (by simp [bindingReads])] at clean ⊢
  generalize (if has b "id" = true then taskText b else "task") = taskId at clean ⊢
  by_cases unbound : (!hasSpec b) = true
  · rw [if_pos unbound]
  rw [if_neg unbound] at clean ⊢
  by_cases named : (!(metadataErrors taskId b).isEmpty) = true
  · rw [if_pos named] at clean
    simp [clean] at named
  rw [if_neg named] at clean ⊢
  cases found : loadSpec files taskId (Dict.get b "spec_ref").text with
  | error reason => simp [found] at clean
  | ok spec =>
    simp only [found, sorted_eq_nil, List.append_eq_nil_iff] at clean ⊢
    refine ⟨clean.1, ?_⟩
    cases includeLedger with
    | false => rfl
    | true => exact evidenceLedgerErrors_mono files same later clean.2

end Coordinator.TaskSpec

namespace Coordinator.TaskValidation
open Kit Dict

/-! The parts of validation that read several fields. -/

section same

variable {a b : Meta}

theorem validBinding_same (same : SameOn ExecutionEnvelope.bindingFields a b) :
    ExecutionEnvelope.validBinding a = ExecutionEnvelope.validBinding b := by
  have fields : ExecutionEnvelope.bindingFields.all (fun name => (a.get name).isNull) =
      ExecutionEnvelope.bindingFields.all (fun name => (b.get name).isNull) := by
    rw [Bool.eq_iff_iff, List.all_eq_true, List.all_eq_true]
    exact forall₂_congr fun name member => by rw [same.get member]
  rw [ExecutionEnvelope.validBinding, ExecutionEnvelope.validBinding, fields]
  simp (disch := decide) only [same.get]

theorem envelopeErrors_same (same : SameOn ExecutionEnvelope.bindingFields a b) (taskId : String) :
    envelopeErrors taskId a = envelopeErrors taskId b := by
  simp (disch := decide) only [envelopeErrors, same.get]

theorem driftError_same (same : SameOn ["id", "change_drift"] a b) :
    ChangeDrift.metadataError a = ChangeDrift.metadataError b := by
  have histories : ChangeDrift.records a = ChangeDrift.records b := by
    simp only [ChangeDrift.records, same.has (show "change_drift" ∈ _ by simp),
      same.get (show "change_drift" ∈ _ by simp), same.get (show "id" ∈ _ by simp)]
  rw [ChangeDrift.metadataError, ChangeDrift.metadataError, histories]

theorem assumptionRecords_same (same : SameOn ["assumption_revalidation"] a b) :
    AssumptionRevalidation.records a = AssumptionRevalidation.records b := by
  simp only [AssumptionRevalidation.records, same.has (show "assumption_revalidation" ∈ _ by simp),
    same.get (show "assumption_revalidation" ∈ _ by simp)]

theorem assumptionError_same (same : SameOn ["assumption_revalidation"] a b) :
    AssumptionRevalidation.metadataError a = AssumptionRevalidation.metadataError b := by
  rw [AssumptionRevalidation.metadataError, AssumptionRevalidation.metadataError, assumptionRecords_same same]

theorem circuitError_same (same : SameOn ["retry_circuit"] a b) :
    RetryCircuit.metadataError a = RetryCircuit.metadataError b := by
  have circuits : RetryCircuit.circuit a = RetryCircuit.circuit b := same.get (by simp)
  rw [RetryCircuit.metadataError, RetryCircuit.metadataError, circuits]

theorem autonomyError_same (same : SameOn ["autonomy_limits", "task_revision"] a b) :
    AutonomyLimits.metadataError a = AutonomyLimits.metadataError b := by
  have ledgers : AutonomyLimits.ledger a = AutonomyLimits.ledger b := same.get (by simp)
  have holds (hold : Json) : AutonomyLimits.holdValid hold a = AutonomyLimits.holdValid hold b := by
    rw [AutonomyLimits.holdValid, AutonomyLimits.holdValid, same.get (by simp)]
  simp only [AutonomyLimits.metadataError, ledgers, holds]

end same

/-! Validation as checks with the fields they read. -/

def absentOr (good : Json → Bool) (value : Json) : Prop := value.isNull = true ∨ good value = true

def worktreeValid (files : Files) (value : Json) : Prop :=
  value.isNull = true ∨ value = .str "" ∨ validBindingWorktree files value = true

def falsyOr (good : String → Bool) (value : Json) : Prop :=
  value.truthy = false ∨ (value.isStr = true ∧ good value.text = true)

def textCheck (name : String) : Check := .ofValue name (fun value => RetryCircuit.nonemptyStr value = true)

def shortTitleCheck (files : Files) : Check where
  reads := ["id", "short_title"]
  passes task := shortTitleErrors files (taskText task) (Dict.get task "short_title") = []
  sees same passed := by
    rw [← same.get (by simp), ← TaskSpec.taskText_same same (by simp)]
    exact passed

def bindingCheck : Check where
  reads := ExecutionEnvelope.bindingFields
  passes task := ExecutionEnvelope.validBinding task = true
  sees same passed := validBinding_same same ▸ passed

def driftCheck : Check where
  reads := ["id", "change_drift"]
  passes task := ChangeDrift.metadataError task = none
  sees same passed := driftError_same same ▸ passed

def assumptionCheck : Check where
  reads := ["assumption_revalidation"]
  passes task := AssumptionRevalidation.metadataError task = none
  sees same passed := assumptionError_same same ▸ passed

def circuitCheck : Check where
  reads := ["retry_circuit"]
  passes task := RetryCircuit.metadataError task = none
  sees same passed := circuitError_same same ▸ passed

def autonomyCheck : Check where
  reads := ["autonomy_limits", "task_revision"]
  passes task := AutonomyLimits.metadataError task = none
  sees same passed := autonomyError_same same ▸ passed

def updatedAtCheck : Check where
  reads := ["updated_at"]
  passes task := (Datetime.read (Dict.textOr task "updated_at")).isSome = true
  sees same passed := same.textOr (show "updated_at" ∈ _ by simp) ▸ passed

def envelopeCheck : Check where
  reads := "id" :: ExecutionEnvelope.bindingFields
  passes task := envelopeErrors (taskText task) task = []
  sees same passed := by
    rw [← envelopeErrors_same (same.mono (fun _ member => List.mem_cons_of_mem _ member)), ← TaskSpec.taskText_same same (by simp)]
    exact passed

def specCheck (files : Files) (includeLedger : Bool) : Check where
  reads := TaskSpec.specReads
  passes task := TaskSpec.taskSpecErrors files task includeLedger = []
  sees same passed := TaskSpec.taskSpecErrors_same files same includeLedger ▸ passed

/-- The checks of validation, in the order in which it makes them. -/
def checks (files : Files) (includeLedger : Bool) : List Check :=
  [.ofValue "id" (fun value => (value.isStr && isTaskId value.text) = true),
    .ofValue "status" (fun value => RetryCircuit.oneOf value statuses = true),
    .ofValue "priority" (fun value => RetryCircuit.oneOf value priorities = true),
    .ofValue "task_revision" (fun value => value.int?.any (fun number => decide (1 ≤ number)) = true),
    textCheck "title", textCheck "summary", textCheck "next_action", textCheck "updated_at",
    shortTitleCheck files, .ofValue "worktree_key" (worktreeValid files),
    .ofValue "oracle_gate" (fun value => OracleLifecycle.gateErrors value = []),
    .ofValue "claim_process" (absentOr validClaimProcess),
    .ofValue "execution_reservation" (absentOr ExecutionEnvelope.validReservation),
    .ofValue "execution_result" (absentOr Execution.receiptValid),
    .ofValue "execution_abandonments" (fun value => Execution.validRecords value = true), bindingCheck,
    .ofValue "execution_envelope_replacements" (fun value => ExecutionEnvelope.validReplacements value = true),
    driftCheck, assumptionCheck, circuitCheck, autonomyCheck, updatedAtCheck,
    .ofValue "checkpoint_commit" (falsyOr RetryCircuit.isCommit), .ofValue "plan" (falsyOr files.planIsFile),
    envelopeCheck, specCheck files includeLedger]

/-- Metadata with the required fields and no unknown one that passes every check. -/
structure Valid (files : Files) (includeLedger : Bool) (task : Meta) : Prop where
  required : ∀ name ∈ req, task.has name = true
  known : ∀ key ∈ task.keys, key ∈ knownFields
  passed : ∀ check ∈ checks files includeLedger, check.passes task

theorem fieldErrors_eq_nil {path : String} {task : Meta} :
    fieldErrors path task = [] ↔ (∀ name ∈ req, task.has name = true) ∧ ∀ key ∈ task.keys, key ∈ knownFields := by
  simp [fieldErrors]

theorem absentOr_iff {good : Json → Bool} {value : Json} :
    (!value.isNull && !good value) = false ↔ absentOr good value := by
  cases absent : value.isNull <;> simp [absentOr, absent]

theorem falsyOr_iff {good : String → Bool} {value : Json} :
    (value.truthy && !(value.isStr && good value.text)) = false ↔ falsyOr good value := by
  cases present : value.truthy <;> simp [falsyOr, present]

theorem worktreeValid_iff {files : Files} {value : Json} :
    (!value.isNull && value != .str "" && !validBindingWorktree files value) = false ↔ worktreeValid files value := by
  have same : (value != .str "") = true ↔ value ≠ .str "" := by
    rw [bne, Bool.not_eq_true', ← Bool.not_eq_true, Json.beq_str]
  simp only [worktreeValid, Bool.and_eq_false_imp, Bool.not_eq_true', Bool.and_eq_true, Bool.not_eq_false', same]
  cases value.isNull <;> by_cases empty : value = .str "" <;> simp [empty]

theorem reported_eq_nil {error : Option String} {say : String → String} :
    error.toList.map say = [] ↔ error = none := by
  cases error <;> simp

theorem textErrors_eq_nil {task : Meta} {say : String → String} {names : List String} :
    (names.filter (fun name => !RetryCircuit.nonemptyStr (task.get name))).map say = [] ↔
      ∀ name ∈ names, (textCheck name).passes task := by
  simp [textCheck, Check.ofValue]

/-- Validation reports nothing exactly about valid metadata. -/
theorem basicTaskErrors_eq_nil {files : Files} {path : String} {task : Meta} {includeLedger : Bool} :
    basicTaskErrors files path task includeLedger = [] ↔ Valid files includeLedger task := by
  have values : valueErrors files path task = [] ↔ ∀ check ∈ (checks files includeLedger).take 21,
      check.passes task := by
    simp only [valueErrors, executionMetadataErrors, List.append_eq_nil_iff, errorIf_eq_nil, checks, List.take,
      List.forall_mem_cons, textErrors_eq_nil, reported_eq_nil, absentOr_iff, worktreeValid_iff, Bool.not_eq_false',
      and_assoc, List.not_mem_nil, IsEmpty.forall_iff, implies_true, and_true]
    simp only [List.map_eq_nil_iff]
    exact Iff.rfl
  have references : referenceErrors files task = [] ∧ TaskSpec.taskSpecErrors files task includeLedger = [] ↔
      ∀ check ∈ (checks files includeLedger).drop 21, check.passes task := by
    simp only [referenceErrors, List.append_eq_nil_iff, errorIf_eq_nil, checks, List.drop, List.forall_mem_cons,
      falsyOr_iff, and_assoc, List.not_mem_nil, IsEmpty.forall_iff, implies_true, and_true, Option.isNone_eq_false_iff]
    exact Iff.rfl
  rw [basicTaskErrors, List.append_eq_nil_iff, List.append_eq_nil_iff, List.append_eq_nil_iff, and_assoc,
    fieldErrors_eq_nil, values, references]
  constructor
  · rintro ⟨⟨⟨required, known⟩, first⟩, second⟩
    refine ⟨required, known, fun check member => ?_⟩
    rw [← List.take_append_drop 21 (checks files includeLedger), List.mem_append] at member
    exact member.elim (first check) (second check)
  · intro valid
    exact ⟨⟨⟨valid.required, valid.known⟩, fun check member => valid.passed check (List.mem_of_mem_take member)⟩,
      fun check member => valid.passed check (List.mem_of_mem_drop member)⟩

/-- The checks that read one of the names. -/
def touched (files : Files) (includeLedger : Bool) (names : List String) : List Check :=
  (checks files includeLedger).filter (fun check => check.reads.any (names.contains ·))

/-- A change to known fields keeps metadata valid when the checks that it touches pass again. -/
theorem Valid.change {files : Files} {includeLedger : Bool} {names : List String} {before after : Meta}
    (valid : Valid files includeLedger before) (frame : Within names before after)
    (listed : ∀ name ∈ names, name ∈ knownFields) (required : ∀ name ∈ req, name ∈ names → after.has name = true)
    (again : ∀ check ∈ touched files includeLedger names, check.passes after) : Valid files includeLedger after where
  required name member := by
    by_cases written : name ∈ names
    · exact required name member written
    · rw [frame.has written]
      exact valid.required name member
  known key member := (frame.mem_keys member).elim (valid.known key) (listed key)
  passed := Check.preserved valid.passed frame fun check member ⟨name, read, written⟩ =>
    again check (List.mem_filter.mpr ⟨member, List.any_eq_true.mpr ⟨name, read, by simpa using written⟩⟩)

section accessors

variable {files : Files} {includeLedger : Bool} {task : Meta}

/-- What a check of one value says about valid metadata. -/
theorem Valid.value {key : String} {good : Json → Prop} (valid : Valid files includeLedger task)
    (listed : Check.ofValue key good ∈ checks files includeLedger) : good (task.get key) := valid.passed _ listed

theorem Valid.id_str (valid : Valid files includeLedger task) :
    ∃ word, task.get "id" = .str word ∧ isTaskId word = true := by
  have passed := valid.value (show Check.ofValue "id" (fun value => (value.isStr && isTaskId value.text) = true) ∈ _ by
    simp [checks])
  rw [Bool.and_eq_true] at passed
  obtain ⟨word, same⟩ := Json.isStr_iff.mp passed.1
  exact ⟨word, same, by simpa [same, Json.text] using passed.2⟩

theorem Valid.status_mem (valid : Valid files includeLedger task) :
    ∃ word, status task = .str word ∧ word ∈ statuses := by
  have passed := valid.value (show Check.ofValue "status" (fun value => RetryCircuit.oneOf value statuses = true) ∈ _ by
    simp [checks])
  rw [RetryCircuit.oneOf, Bool.and_eq_true] at passed
  obtain ⟨word, same⟩ := Json.isStr_iff.mp passed.1
  exact ⟨word, same, by simpa [same, Json.text] using passed.2⟩

theorem Valid.revision_pos (valid : Valid files includeLedger task) :
    ∃ number, (task.get "task_revision").int? = some number ∧ Meta.revision task = number ∧ 1 ≤ number := by
  have passed := valid.value (show Check.ofValue "task_revision"
    (fun value => value.int?.any (fun number => decide (1 ≤ number)) = true) ∈ _ by simp [checks])
  cases known : (task.get "task_revision").int? with
  | none => simp [known] at passed
  | some number => exact ⟨number, rfl, by rw [Meta.revision, known]; rfl, by simpa [known] using passed⟩

theorem Valid.spec (valid : Valid files includeLedger task) :
    TaskSpec.taskSpecErrors files task includeLedger = [] :=
  valid.passed (specCheck files includeLedger) (by simp [checks])

theorem Valid.autonomy (valid : Valid files includeLedger task) : AutonomyLimits.metadataError task = none :=
  valid.passed autonomyCheck (by simp [checks])

theorem Valid.circuit (valid : Valid files includeLedger task) : RetryCircuit.metadataError task = none :=
  valid.passed circuitCheck (by simp [checks])

end accessors

/-! A small repository for concrete runs. -/

def sampleSpec : Json := .obj
  [("acceptance_predicates", .arr [.obj [("id", .str "predicate-1"), ("description", .str "It works.")]]),
    ("allowed_tools", .arr [.str "git"]), ("definition_of_done", .arr [.str "The predicate holds."]),
    ("forbidden_tools", .arr []), ("gates", .arr [.obj [("id", .str "gate-1"), ("description", .str "Review.")]]),
    ("inputs", .arr [.obj [("id", .str "input-1"), ("description", .str "Source.")]]),
    ("outputs", .arr [.obj [("id", .str "output-1"), ("description", .str "Result.")]]),
    ("required_evidence_classes", .arr [.str "mechanical"]), ("schema_version", .int 1),
    ("spec_ref", .str "specs/one.json"), ("spec_revision", .int 1)]

def sampleEnvelope (number taskRevision : Int) : Json := .obj
  [("command_classes", .obj [("read", .obj [("allowed", .bool true)])]),
    ("envelope_id", .str ("AR-0001-e" ++ toString number)), ("envelope_revision", .int number),
    ("evidence", .arr [.obj [("id", .str "evidence-1"), ("class", .str "mechanical"), ("required", .bool true)]]),
    ("non_goals", .arr [.str "Nothing else."]),
    ("outputs", .arr [.obj [("id", .str "output-1"), ("description", .str "Result.")]]),
    ("path_scope", .obj [("read", .arr [.str "src"]), ("write", .arr [.str "src"])]), ("schema_version", .int 1),
    ("spec_ref", .str "specs/one.json"), ("spec_revision", .int 1),
    ("stop_conditions", .arr [.obj [("id", .str "stop-1"), ("kind", .str "deny")]]), ("task", .str "AR-0001"),
    ("task_revision", .int taskRevision)]

/-- One specification and one further envelope, on a machine without local settings. -/
def sampleFiles : Files where
  spec reference := if reference = "specs/one.json" then .ok sampleSpec else .error "FileNotFoundError"
  envelope reference := if reference = "envelopes/two.json" then .ok (sampleEnvelope 2 4) else .error "FileNotFoundError"
  artifact _ := none
  planIsFile _ := false
  config := none
  configPresent := false
  insideRoot _ _ := false
  privateText _ := []
  additionalEvidenceClasses := []

/-- The third of January 2026 at midnight, with no process but the coordinator. -/
def sampleWorld : Moment where
  clock := ⟨(Calendar.toOrdinal 2026 1 3 - 1) * Datetime.day, by decide⟩
  roleDenied _ _ := none
  processStartTime _ := .ok none
  workerScope := .error "worker scope is unavailable"
  branchRef _ := true
  worktreeHead _ := .error "worktree is unavailable"
  observationDigest _ := .error "observation is unavailable"
  worktreeRefused _ := none
  driftObservation _ := .error "worktree is unavailable"
  driftCommitted _ _ _ := .error "worktree is unavailable"
  promotionBlocked := none
  publicationFails := none

/-- A task with the claim that its status calls for. -/
def sampleTask (name status owner expires : String) (revision : Int) : Meta :=
  [("schema_version", .int 1), ("id", .str name), ("title", .str "Sample"), ("status", .str status),
    ("priority", .str "P2"), ("summary", .str "A sample."), ("next_action", .str "Continue."),
    ("task_revision", .int revision), ("updated_at", .str "2026-01-01T00:00:00+00:00"), ("owner", .str owner),
    ("claim_expires", .str expires)]

/-- The sample task claimed until the day after the sample moment. -/
def claimedSample : Meta := sampleTask "AR-0001" "in_progress" "worker" "2026-01-04T00:00:00+00:00" 4

def sampleDigest : String := "sha256:0123456789abcdef0123456789abcdef0123456789abcdef0123456789abcdef"

/-- A ledger whose command budget is used up, held at revision four. -/
def heldLedger : Json := .obj (((AutonomyLimits.freshState sampleDigest "2026-01-01T00:00:00+00:00").set
  "commands" (.int 1)).set "hold" (.obj
  [("trigger", .str "command"), ("observed", .int 1), ("limit", .int 1),
    ("held_at", .str "2026-01-02T00:00:00+00:00"), ("task_revision", .int 4)]))

end Coordinator.TaskValidation
