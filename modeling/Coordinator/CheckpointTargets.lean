import Coordinator.Revision
import Coordinator.RollbackRecords

/-! Which checkpoints a rollback can name. The lifecycle prints the revision of a task with at least
four digits; the records of a rollback take names of exactly four. -/

namespace Coordinator.Records
open Kit RollbackRecords TaskValidation

/-- The parts of a checkpoint's name between its hyphens. -/
def nameParts (number : List Char) (revision : Int) : List (List Char) :=
  [['A', 'R'], number, 'r' :: (Text.padded 4 revision.toNat).toList]

theorem digits_no_hyphen {digits : List Char} (all : digits.all Text.isDigit = true) : '-' ∉ digits := by
  intro member
  exact absurd (List.all_eq_true.mp all '-' member) (by decide)

theorem checkpointName_toList {name : String} {number : List Char} {revision : Int}
    (spelled : name.toList = 'A' :: 'R' :: '-' :: number) :
    (checkpointName name revision).toList = ['-'].intercalate (nameParts number revision) := by
  simp [checkpointName, nameParts, spelled, List.intercalate]

/-- A rollback takes the name of a task's checkpoint exactly if its revision has four digits. -/
theorem isCheckpoint_checkpointName {name : String} {revision : Int} (shape : ExecutionEnvelope.isTask name = true) :
    isCheckpoint (checkpointName name revision) = true ↔ revision ≤ 9999 := by
  obtain ⟨number, spelled, four⟩ := ExecutionEnvelope.isTask_iff.mp shape
  have numeric := four
  rw [Text.exactly, Bool.and_eq_true] at numeric
  have printed : '-' ∉ (Text.padded 4 revision.toNat).toList := digits_no_hyphen (Text.padded_digits 4 revision.toNat)
  have apart : ∀ part ∈ nameParts number revision, '-' ∉ part := by
    simp [nameParts, printed, digits_no_hyphen numeric.2]
  have parts := List.splitOn_intercalate '-' apart (by simp [nameParts])
  rw [isCheckpoint, checkpointName_toList spelled, parts]
  simp only [nameParts, four, beq_self_eq_true, List.head?_cons, List.tail_cons, Bool.true_and, Bool.and_true,
    Text.exactly_padded (show 0 < 4 by decide)]
  omega

/-- The record of a task, whose identifier and source commit have been checked. -/
def checkpointOf (task : Meta) (body sourceCommit recordedAt : String) : Json :=
  .obj [("schema_version", .int 1), ("name", .str (checkpointName (taskText task) (Meta.revision task))),
    ("task", .str (taskText task)), ("task_revision", .int (Meta.revision task)), ("recorded_at", .str recordedAt),
    ("source_commit", .str sourceCommit), ("state", .obj task), ("body_digest", .str (Sha256.hexdigest body.toList)),
    ("artifact_refs", .arr ((checkpointArtifactRefs task).map .str))]

theorem buildCheckpoint_eq_ok {task : Meta} {body sourceCommit recordedAt : String} {record : Json} :
    buildCheckpoint task body sourceCommit recordedAt = .ok record ↔
      RetryCircuit.isCommit sourceCommit = true ∧ ExecutionEnvelope.isTask (taskText task) = true ∧
      checkpointOf task body sourceCommit recordedAt = record := by
  simp only [buildCheckpoint, bind_eq_ok, exists_unit, raiseIf_eq_ok, pure_eq_ok, Bool.not_eq_false', checkpointOf]

theorem checkpointArtifactRefs_nonempty (task : Meta) : ∀ item ∈ checkpointArtifactRefs task, item ≠ "" := by
  intro item member
  have listed := List.mem_of_mem_take member
  simp only [List.mem_append] at listed
  obtain (spec | envelope) | evidence := listed
  · exact prefixedRef_nonempty (by decide) _ item spec
  · exact prefixedRef_nonempty (by decide) _ item envelope
  · exact prefixedRef_nonempty (by decide) _ item evidence

section recorded

variable {files : Files} {includeLedger : Bool} {task : Meta} {body sourceCommit recordedAt : String} {record : Json}

/-- What the lifecycle records is a valid checkpoint, at every revision. -/
theorem validateCheckpoint_of_build (valid : Valid files includeLedger task) (dated : recordedAt ≠ "")
    (built : buildCheckpoint task body sourceCommit recordedAt = .ok record) : validateCheckpoint record = .ok () := by
  obtain ⟨commit, shape, rfl⟩ := buildCheckpoint_eq_ok.mp built
  obtain ⟨name, named, -⟩ := valid.id_str
  obtain ⟨number, -, current, positive⟩ := valid.revision_pos
  have text : taskText task = name := Dict.textOr_of_str named
  have fields : (!(checkpointOf task body sourceCommit recordedAt).hasExactly checkpointFields) = false := rfl
  have owned : (!((Json.str (taskText task)).isStr && ExecutionEnvelope.isTask (Json.str (taskText task)).text)) = false := by
    simpa [Json.isStr, Json.text] using shape
  have same : ∀ word : String, (Json.str word != Json.str word) = false := fun word => by
    rw [bne, (Json.beq_str _ _).mpr rfl, Bool.not_true]
  have revision : (!ExecutionEnvelope.positive (.int (Meta.revision task))) = false := by
    rw [current, Bool.not_eq_false']
    exact decide_eq_true positive
  have source : (!((Json.str sourceCommit).isStr && RetryCircuit.isCommit (Json.str sourceCommit).text)) = false := by
    simpa [Json.isStr, Json.text] using commit
  have state : (!(Json.obj task).isObj || (Json.obj task).get "id" != .str (taskText task)) = false := by
    rw [Json.get_obj, named, text, same]
    rfl
  have dates : (!RetryCircuit.nonemptyStr (.str recordedAt)) = false := by
    simp [RetryCircuit.nonemptyStr, Json.isStr, Json.text, dated]
  have digest : (!((Json.str (Sha256.hexdigest body.toList)).isStr &&
      Text.hexText 64 (Json.str (Sha256.hexdigest body.toList)).text)) = false := by
    simpa [Json.isStr, Json.text] using Sha256.hexText_hexdigest body.toList
  have refs : (!(Json.arr ((checkpointArtifactRefs task).map .str)).isArr ||
      decide (8 < ((checkpointArtifactRefs task).map Json.str).length) ||
      !((checkpointArtifactRefs task).map Json.str).all RetryCircuit.nonemptyStr) = false := by
    have few : ¬8 < (checkpointArtifactRefs task).length := not_lt.mpr (List.length_take_le _ _)
    simp only [Json.isArr, List.length_map, few, List.all_map, Bool.not_true, decide_false, Bool.false_or, Bool.not_eq_false',
      List.all_eq_true]
    intro item member
    simp [RetryCircuit.nonemptyStr, Json.isStr, Json.text, checkpointArtifactRefs_nonempty task item member]
  simp only [validateCheckpoint, bind_eq_ok, exists_unit, raiseIf_eq_ok]
  exact ⟨fields, rfl, owned, same _, revision, source, state, dates, digest, refs⟩

end recorded

/-- A checkpoint that can be restored: it is valid, the records of a rollback take its name, and a rollback to it
starts wherever no earlier one was started. -/
structure Usable (record : Json) : Prop where
  valid : validateCheckpoint record = .ok ()
  named : isCheckpoint (CheckpointRef.ofRecord record).name = true
  admitted : ∀ (journal : List Record) (currentCommit : String) (world : Moment) (fresh : Operation),
    RetryCircuit.isCommit currentCommit = true → Loadable journal →
    (∀ last, latestOf journal (CheckpointRef.ofRecord record).name = some last → last.status = .planned) →
    ∃ target started, admitRollback journal (CheckpointRef.ofRecord record) currentCommit false = .ok target ∧
      startRollback journal target world.now fresh = .ok started

/-- A rollback that nothing has started can be planned and started. -/
theorem starts_fresh {journal : List Record} {checkpoint : CheckpointRef} {currentCommit at_ : String} {fresh : Operation}
    (recordable : Recordable checkpoint currentCommit) (loadable : Loadable journal) (dated : at_ ≠ "")
    (idle : ∀ last, latestOf journal checkpoint.name = some last → last.status = .planned) :
    ∃ target started, admitRollback journal checkpoint currentCommit false = .ok target ∧
      startRollback journal target at_ fresh = .ok started := by
  have open_ : ∀ last, latestOf journal checkpoint.name = some last →
      last.status ≠ .rollbackCompleted ∧ (last.status.pending = true → false = true) := by
    intro last found
    rw [idle last found]
    exact ⟨by decide, by decide⟩
  obtain ⟨planned, built⟩ : ∃ planned, buildRecord checkpoint currentCommit at_ .planned fresh "" 1 = .ok planned :=
    ⟨_, buildRecord_eq_ok.mpr ⟨recordable, .inl rfl, by decide, rfl⟩⟩
  have appended := appendRecord_eq_ok.mpr ⟨(validateRecord_of_build built).mpr dated, loadable, rfl⟩
  let target : Target := ⟨checkpoint, currentCommit, latestOf journal checkpoint.name, false⟩
  have planning : planRollback journal target at_ fresh = .ok (_, planned) := planRollback_eq_ok.mpr ⟨built, appended⟩
  obtain ⟨after, started, going⟩ := startPlanned_of_planned planning
  refine ⟨target, (after, started, false), admitRollback_eq_ok.mpr ⟨loadable, open_, rfl⟩, ?_⟩
  have unresumed : target.resumed = none := rfl
  rw [startRollback, unresumed]
  simp only [planning, ok_bind, going]
  rfl

section usable

variable {files : Files} {includeLedger : Bool} {task : Meta} {body sourceCommit : String} {recorded : Moment} {record : Json}

/-- A recorded checkpoint can be restored exactly if the revision of its task has at most four digits. -/
theorem checkpoint_usable_iff (valid : Valid files includeLedger task)
    (built : buildCheckpoint task body sourceCommit recorded.now = .ok record) :
    Usable record ↔ Meta.revision task ≤ 9999 := by
  obtain ⟨commit, shape, rfl⟩ := buildCheckpoint_eq_ok.mp built
  have named : isCheckpoint (checkpointName (taskText task) (Meta.revision task)) = true ↔ Meta.revision task ≤ 9999 :=
    isCheckpoint_checkpointName shape
  constructor
  · intro usable
    exact named.mp usable.named
  · intro fits
    refine ⟨validateCheckpoint_of_build valid (Authority.stamp_ne_empty recorded.clock) built, named.mpr fits, ?_⟩
    intro journal currentCommit world fresh current loadable idle
    have recordable : Recordable (CheckpointRef.ofRecord (checkpointOf task body sourceCommit recorded.now)) currentCommit :=
      ⟨named.mpr fits, shape, commit, current⟩
    exact starts_fresh recordable loadable (Authority.stamp_ne_empty world.clock) idle

end usable

/-- The open sample task at a revision, recorded at a source commit. -/
def recordedSample (revision : Int) : Json :=
  checkpointOf (sampleTask "AR-0001" "open" "" "" revision) "" "0123456789012345678901234567890123456789" sampleWorld.now

theorem recordedSample_built (revision : Int) :
    buildCheckpoint (sampleTask "AR-0001" "open" "" "" revision) "" "0123456789012345678901234567890123456789"
      sampleWorld.now = .ok (recordedSample revision) := by
  have named : taskText (sampleTask "AR-0001" "open" "" "" revision) = "AR-0001" := rfl
  exact buildCheckpoint_eq_ok.mpr ⟨by decide +kernel, by rw [named]; decide +kernel, rfl⟩

theorem sampleTask_valid {revision : Int}
    (clean : basicTaskErrors sampleFiles "AR-0001.md" (sampleTask "AR-0001" "open" "" "" revision) true = []) :
    Valid sampleFiles true (sampleTask "AR-0001" "open" "" "" revision) := basicTaskErrors_eq_nil.mp clean

theorem checkpoint_usable_last : Usable (recordedSample 9999) :=
  (checkpoint_usable_iff (sampleTask_valid (by decide +kernel)) (recordedSample_built 9999)).mpr (by decide)

/-- The checkpoint of revision ten thousand is valid, and no rollback can name it. -/
theorem checkpoint_unusable : Valid sampleFiles true (sampleTask "AR-0001" "open" "" "" 10000) ∧
    buildCheckpoint (sampleTask "AR-0001" "open" "" "" 10000) "" "0123456789012345678901234567890123456789"
      sampleWorld.now = .ok (recordedSample 10000) ∧
    validateCheckpoint (recordedSample 10000) = .ok () ∧ ¬Usable (recordedSample 10000) := by
  have valid := @sampleTask_valid 10000 (by decide +kernel)
  have built := recordedSample_built 10000
  refine ⟨valid, built, validateCheckpoint_of_build valid (Authority.stamp_ne_empty _) built, ?_⟩
  intro usable
  have shape : ExecutionEnvelope.isTask "AR-0001" = true := by decide +kernel
  have fits : (10000 : Int) ≤ 9999 := (isCheckpoint_checkpointName shape).mp usable.named
  exact absurd fits (by decide)

end Coordinator.Records
