import Coordinator.ObservationSync

/-! Which valid tasks can be recorded. The validation of a task asks only that its texts are not empty;
a session record keeps to one line, to a length and to a size in its serialized form. -/

namespace Coordinator.Records
open Kit TaskValidation

/-- The length of a text as a literal. -/
def encoded (s : String) : Nat := (Json.quoted s).length

/-- The length of a list of texts as literals. -/
def encodedList (words : List String) : Nat := max 2 (1 + (words.map (fun word => encoded word + 1)).sum)

/-- The bounds that a session record sets to the task that it is taken from. -/
structure Bounded (task : Meta) (trigger recordedAt : String) : Prop where
  named : ExecutionEnvelope.isTask (taskText task) = true
  line : Text.contains '\n' (task.textOr "next_action") = false
  short : (task.textOr "next_action").length ≤ 1024
  small : 255 + encoded (task.textOr "next_action") + encodedList (sessionArtifactRefs task) + encoded recordedAt +
    encoded trigger + 2 * encoded (task.textOr "status") + 2 * (toString (Meta.revision task)).length ≤ maxSessionBytes

section encoding

theorem plain_of_range {c : Char} (low : 93 ≤ c.toNat ∨ 48 ≤ c.toNat ∧ c.toNat ≤ 91) (high : c.toNat ≤ 126) :
    Json.isPlain c = true := by
  have quote : c ≠ '"' := fun same => by simp [same] at low
  have slash : c ≠ '\\' := fun same => by simp [same] at low
  simp only [Json.isPlain, bne_iff_ne, Bool.and_eq_true, decide_eq_true_eq]
  exact ⟨⟨⟨quote, slash⟩, by omega⟩, high⟩

theorem plain_of_isHex {c : Char} (hex : Text.isHex c = true) : Json.isPlain c = true := by
  simp only [Text.isHex, Text.isDigit, Bool.or_eq_true, Bool.and_eq_true, decide_eq_true_eq, Char.le_def,
    UInt32.le_iff_toNat_le] at hex
  obtain ⟨low, high⟩ | ⟨low, high⟩ := hex
  · have below : c.toNat ≤ 57 := high
    exact plain_of_range (.inr ⟨low, by omega⟩) (by omega)
  · have below : c.toNat ≤ 102 := high
    have above : 97 ≤ c.toNat := low
    exact plain_of_range (.inl (by omega)) (by omega)

theorem encoded_plain {s : String} (plain : s.toList.all Json.isPlain = true) : encoded s = s.length + 2 :=
  Json.length_quoted_plain plain

theorem encoded_digest (task : Meta) : encoded (RetryCircuit.digest (contextOf task)) = 73 := by
  have hex := Sha256.hexText_hexdigest (contextOf task).canonical
  rw [Text.hexText, Text.characters_eq, Text.exactly, Bool.and_eq_true, beq_iff_eq, String.length_toList] at hex
  have plain : (RetryCircuit.digest (contextOf task)).toList.all Json.isPlain = true := by
    rw [RetryCircuit.digest, String.toList_append, List.all_append, Bool.and_eq_true]
    exact ⟨by decide +kernel, List.all_eq_true.mpr fun c member => plain_of_isHex (List.all_eq_true.mp hex.2 c member)⟩
  rw [encoded_plain plain, RetryCircuit.digest, String.length_append, hex.1]
  rfl

theorem encoded_task {name : String} (shape : ExecutionEnvelope.isTask name = true) : encoded name = 9 := by
  obtain ⟨number, spelled, four⟩ := ExecutionEnvelope.isTask_iff.mp shape
  rw [Text.exactly, Bool.and_eq_true, beq_iff_eq] at four
  have plain : name.toList.all Json.isPlain = true := by
    rw [spelled, List.all_eq_true]
    intro c member
    simp only [List.mem_cons] at member
    obtain rfl | rfl | rfl | digit := member
    · decide
    · decide
    · decide
    · exact plain_of_isHex (by rw [Text.isHex, List.all_eq_true.mp four.2 c digit, Bool.true_or])
  rw [encoded_plain plain, ← String.length_toList, spelled, List.length_cons, List.length_cons, List.length_cons, four.1]

theorem length_canonical_str (s : String) : (Json.str s).canonical.length = encoded s := by
  rw [Json.canonical, encoded]

theorem length_canonical_int (n : Int) : (Json.int n).canonical.length = (toString n).length := by
  rw [Json.canonical, String.length_toList]

theorem length_canonical_strs (words : List String) : (Json.arr (words.map .str)).canonical.length = encodedList words := by
  cases words with
  | nil => rfl
  | cons word rest =>
    rw [Json.length_canonical_arr (by simp), List.map_map, encodedList]
    have positive : 2 ≤ 1 + ((word :: rest).map (fun word => encoded word + 1)).sum := by
      rw [List.map_cons, List.sum_cons, encoded, Json.quoted, List.length_append, List.length_cons]
      omega
    rw [max_eq_right positive]
    rfl

/-- The size of a snapshot, in terms of the texts that it takes over. -/
theorem snapshot_length {task : Meta} {name word : String} (trigger recordedAt : String)
    (id : task.get "id" = .str name) (status : task.get "status" = .str word) (shape : ExecutionEnvelope.isTask name = true) :
    (sessionSnapshot task trigger recordedAt).canonical.length =
      255 + encoded (task.textOr "next_action") + encodedList (sessionArtifactRefs task) + encoded recordedAt +
        encoded trigger + 2 * encoded word + 2 * (toString (Meta.revision task)).length := by
  have state : (Json.obj [("status", .str word), ("task_revision", .int (Meta.revision task))]).canonical.length =
      28 + encoded word + (toString (Meta.revision task)).length := by
    rw [Json.length_canonical_obj (by simp)]
    simp only [List.map_cons, List.map_nil, List.sum_cons, List.sum_nil, length_canonical_str, length_canonical_int,
      show (Json.quoted "status").length = 8 by decide +kernel, show (Json.quoted "task_revision").length = 15 by decide +kernel]
    omega
  rw [sessionSnapshot, Json.length_canonical_obj (by simp)]
  simp only [id, status, Json.toText_str, List.map_cons, List.map_nil, List.sum_cons, List.sum_nil, state, length_canonical_strs,
    length_canonical_str, length_canonical_int, encoded_digest, encoded_task shape,
    show (Json.quoted "schema_version").length = 16 by decide +kernel, show (Json.quoted "task").length = 6 by decide +kernel,
    show (Json.quoted "task_revision").length = 15 by decide +kernel,
    show (Json.quoted "recorded_at").length = 13 by decide +kernel, show (Json.quoted "trigger").length = 9 by decide +kernel,
    show (Json.quoted "status").length = 8 by decide +kernel, show (Json.quoted "context_digest").length = 16 by decide +kernel,
    show (Json.quoted "step_state").length = 12 by decide +kernel,
    show (Json.quoted "artifact_refs").length = 15 by decide +kernel,
    show (Json.quoted "next_action").length = 13 by decide +kernel, show (toString (1 : Int)).length = 1 by decide +kernel]
  omega

end encoding

theorem sessionArtifactRefs_nonempty (task : Meta) : ∀ item ∈ sessionArtifactRefs task, item ≠ "" := by
  intro item member
  have listed := List.mem_of_mem_take member
  rw [List.mem_reverse, List.mem_dedup, List.mem_reverse] at listed
  simp only [ledgerArtifactRefs, List.mem_append] at listed
  obtain (((spec | envelope) | evidence) | (candidate | step)) | checkpoint := listed
  · exact prefixedRef_nonempty (by decide) _ item spec
  · exact prefixedRef_nonempty (by decide) _ item envelope
  · exact prefixedRef_nonempty (by decide) _ item evidence
  · exact prefixedRef_nonempty (by decide) _ item candidate
  · obtain ⟨value, -, rfl⟩ := List.mem_map.mp step
    exact lead_nonempty (by decide) _
  · split at checkpoint
    · rw [List.mem_singleton.mp checkpoint]
      exact lead_nonempty (by decide) _
    · cases checkpoint

/-- What a session record takes from a task without a check of its own. -/
structure Identified (task : Meta) (name word : String) : Prop where
  id : task.get "id" = .str name
  status : task.get "status" = .str word
  stated : word ≠ ""
  revision : 1 ≤ Meta.revision task

theorem identified_of_valid {files : Files} {includeLedger : Bool} {task : Meta} (valid : Valid files includeLedger task) :
    ∃ name word, Identified task name word := by
  obtain ⟨name, id, -⟩ := valid.id_str
  obtain ⟨word, status, known⟩ := valid.status_mem
  obtain ⟨number, -, current, positive⟩ := valid.revision_pos
  exact ⟨name, word, id, status, fun empty => absurd (empty ▸ known) (by decide), current ▸ positive⟩

section admission

variable {files : Files} {includeLedger : Bool} {task : Meta} {trigger recordedAt name word : String}

theorem Identified.taskText (known : Identified task name word) : taskText task = name := Dict.textOr_of_str known.id

theorem Identified.textOr_status (known : Identified task name word) : task.textOr "status" = word :=
  Dict.textOr_of_str known.status

theorem Identified.positive (known : Identified task name word) :
    (!ExecutionEnvelope.positive (.int (Meta.revision task))) = false := by
  rw [Bool.not_eq_false']
  exact decide_eq_true known.revision

/-- A snapshot has a header in order if the task has a number of ASCII digits. -/
theorem validateHeader_iff (known : Identified task name word) (listed : trigger ∈ triggers) (dated : recordedAt ≠ "") :
    validateHeader (sessionSnapshot task trigger recordedAt) = .ok () ↔ ExecutionEnvelope.isTask name = true := by
  have dates : (!RetryCircuit.nonemptyStr (.str recordedAt)) = false := by
    simp [RetryCircuit.nonemptyStr, Json.isStr, Json.text, dated]
  have started : (!RetryCircuit.oneOf (.str trigger) triggers) = false := by
    simp [RetryCircuit.oneOf, Json.isStr, Json.text, listed]
  have states : (!RetryCircuit.nonemptyStr (.str (task.get "status").toText)) = false := by
    simp [known.status, RetryCircuit.nonemptyStr, Json.isStr, Json.text, known.stated]
  have shaped : Text.isDigest (RetryCircuit.digest (contextOf task)) = true := Sha256.isDigest_hexdigest _
  have digest : (!((Json.str (RetryCircuit.digest (contextOf task))).isStr &&
      Text.isDigest (Json.str (RetryCircuit.digest (contextOf task))).text)) = false := by
    simpa [Json.isStr, Json.text] using shaped
  have named : (!((Json.str (task.get "id").toText).isStr && ExecutionEnvelope.isTask (Json.str (task.get "id").toText).text)) =
      false ↔ ExecutionEnvelope.isTask name = true := by
    simp [known.id, Json.isStr, Json.text]
  simp only [validateHeader, bind_eq_ok, exists_unit, raiseIf_eq_ok]
  constructor
  · rintro ⟨-, -, shape, -⟩
    exact named.mp shape
  · intro shape
    exact ⟨rfl, rfl, named.mpr shape, known.positive, dates, started, states, digest⟩

theorem validateState_snapshot (known : Identified task name word) :
    validateState (sessionSnapshot task trigger recordedAt) = .ok () := by
  have status : (Json.str (task.get "status").toText != .str (task.get "status").toText) = false := by
    rw [bne, (Json.beq_str _ _).mpr rfl, Bool.not_true]
  have same : (Json.int (Meta.revision task) != .int (Meta.revision task)) = false := by
    rw [bne, (Json.beq_int_int _ _).mpr rfl, Bool.not_true]
  simp only [validateState, bind_eq_ok, exists_unit, raiseIf_eq_ok]
  exact ⟨rfl, known.positive, status, same⟩

/-- What is left to check of a snapshot is its next action and its size. -/
theorem validatePayload_iff :
    validatePayload (sessionSnapshot task trigger recordedAt) = .ok () ↔
      Text.contains '\n' (task.textOr "next_action") = false ∧ (task.textOr "next_action").length ≤ 1024 ∧
        (sessionSnapshot task trigger recordedAt).canonical.length ≤ maxSessionBytes := by
  have refs : (!(Json.arr ((sessionArtifactRefs task).map .str)).isArr ||
      decide (8 < ((sessionArtifactRefs task).map Json.str).length) ||
      !((sessionArtifactRefs task).map Json.str).all RetryCircuit.nonemptyStr) = false := by
    have few : ¬8 < (sessionArtifactRefs task).length := not_lt.mpr (List.length_take_le _ _)
    simp only [Json.isArr, List.length_map, few, List.all_map, Bool.not_true, decide_false, Bool.false_or, Bool.not_eq_false',
      List.all_eq_true]
    intro item member
    simp [RetryCircuit.nonemptyStr, Json.isStr, Json.text, sessionArtifactRefs_nonempty task item member]
  have next : (!(Json.str (task.textOr "next_action")).isStr || Text.contains '\n' (task.textOr "next_action") ||
      decide (1024 < (task.textOr "next_action").length)) = false ↔
      Text.contains '\n' (task.textOr "next_action") = false ∧ (task.textOr "next_action").length ≤ 1024 := by
    simp [Json.isStr]
  simp only [validatePayload, bind_eq_ok, exists_unit, raiseIf_eq_ok, decide_eq_false_iff_not, not_lt]
  constructor
  · rintro ⟨-, action, small⟩
    exact ⟨(next.mp action).1, (next.mp action).2, small⟩
  · rintro ⟨line, short, small⟩
    exact ⟨refs, next.mpr ⟨line, short⟩, small⟩

/-- A task can be recorded exactly within the bounds of a record. -/
theorem recorded_iff_bounded (known : Identified task name word) (listed : trigger ∈ triggers) (world : Moment) :
    (∃ record, buildSessionRecord task trigger world.now = .ok record ∧ validateSessionRecord record = .ok ()) ↔
      Bounded task trigger world.now := by
  have header := validateHeader_iff known listed (Authority.stamp_ne_empty world.clock)
  have state : validateState (sessionSnapshot task trigger world.now) = .ok () := validateState_snapshot known
  have started : triggers.contains trigger = true := List.contains_iff_mem.mpr listed
  have accepted : validateSessionRecord (sessionSnapshot task trigger world.now) = .ok () ↔ Bounded task trigger world.now := by
    simp only [validateSessionRecord, bind_eq_ok, exists_unit, validatePayload_iff]
    constructor
    · rintro ⟨head, -, line, short, small⟩
      have shape := header.mp head
      rw [snapshot_length trigger world.now known.id known.status shape, ← known.textOr_status] at small
      exact ⟨known.taskText ▸ shape, line, short, small⟩
    · rintro ⟨shape, line, short, small⟩
      rw [known.taskText] at shape
      rw [known.textOr_status, ← snapshot_length trigger world.now known.id known.status shape] at small
      exact ⟨header.mpr shape, state, line, short, small⟩
  rw [← accepted]
  simp only [buildSessionRecord, bind_eq_ok, exists_unit, raiseIf_eq_ok, pure_eq_ok, Bool.not_eq_false', started, true_and]
  constructor
  · rintro ⟨record, ⟨sound, rfl⟩, -⟩
    exact sound
  · intro sound
    exact ⟨_, ⟨sound, rfl⟩, sound⟩

/-- A valid task can be recorded exactly within the bounds of a record. -/
theorem session_record_iff (valid : Valid files includeLedger task) (listed : trigger ∈ triggers) (world : Moment) :
    (∃ record, buildSessionRecord task trigger world.now = .ok record ∧ validateSessionRecord record = .ok ()) ↔
      Bounded task trigger world.now := by
  obtain ⟨name, word, known⟩ := identified_of_valid valid
  exact recorded_iff_bounded known listed world

end admission

/-- An update of the sample by its owner to another next action. -/
def sampleUpdate (action : String) : Transitions.Mutation :=
  .update ⟨"worker", some 4, none, none, none, some action, "Noted.", none⟩

/-- The sample task after that update. -/
def actedSample (action : String) : Meta :=
  Authority.advanced (claimedSample.set "next_action" (.str action)) sampleWorld.now

theorem actedSample_valid {action : String}
    (clean : basicTaskErrors sampleFiles "AR-0001.md" (actedSample action) true = []) :
    Valid sampleFiles true (actedSample action) := basicTaskErrors_eq_nil.mp clean

theorem session_record_update : ∃ record, buildSessionRecord (actedSample "Wait.") "update" sampleWorld.now = .ok record ∧
    validateSessionRecord record = .ok () :=
  (session_record_iff (actedSample_valid (by decide +kernel)) (by decide) sampleWorld).mpr
    ⟨by decide +kernel, by decide +kernel, by decide +kernel, by decide +kernel⟩

/-- The handler takes a next action of two lines, the updated task is valid, and both authorities then fail
on its session record. -/
theorem session_record_refused :
    allowed (Transitions.applyTransition (Authority.contextOf sampleFiles sampleWorld (Authority.sampleStore claimedSample) "AR-0001")
      claimedSample (sampleUpdate "Wait.\nContinue.")) = true ∧
    Valid sampleFiles true (actedSample "Wait.\nContinue.") ∧
    allowed (buildSessionRecord (actedSample "Wait.\nContinue.") "update" sampleWorld.now) = false ∧
    allowed (Authority.gitMutate sampleFiles sampleWorld (Authority.sampleStore claimedSample) "AR-0001"
      (sampleUpdate "Wait.\nContinue.")) = false ∧
    allowed (Authority.sqliteMutate sampleFiles sampleWorld (Authority.sampleStore claimedSample) "AR-0001"
      (sampleUpdate "Wait.\nContinue.")) = false ∧
    allowed (Authority.gitMutate sampleFiles sampleWorld (Authority.sampleStore claimedSample) "AR-0001"
      (sampleUpdate "Wait.")) = true := by
  refine ⟨?_, actedSample_valid ?_, ?_, ?_⟩
  · decide +kernel
  · decide +kernel
  · decide +kernel
  · decide +kernel

end Coordinator.Records
