import Coordinator.Authority
import Coordinator.Effects
import Coordinator.Validity

/-! Which mutations keep to the closed set of fields. Every handler writes fields that validation
knows but one, and that one always writes a field that it does not know. -/

namespace Coordinator.Transitions
open Kit TaskGraph TaskValidation Authority

/-- The fields that a mutation may write are known, unless it replaces an envelope. -/
theorem writes_known (m : Mutation) (other : m.kind ≠ "replace-envelope") : ∀ key ∈ m.writes, key ∈ knownFields := by
  cases m with
  | replaceEnvelope request => exact absurd rfl other
  | _ =>
    simp only [Mutation.writes]
    decide

theorem replaced_has (task : Meta) (request : ExecutionEnvelope.Request) (envelope history : Json) :
    (ExecutionEnvelope.bind (task.set "execution_envelope_replacements" history) request envelope).has
      "execution_envelope_replacements" = true := by
  simp [ExecutionEnvelope.bind]

/-- A replacement records itself in a field of its own. -/
theorem applyReplaceEnvelope_records (ctx : Context) (task : Meta) (request : EnvelopeRequest) :
    Ensures (fun result : Meta × String => result.1.has "execution_envelope_replacements" = true)
      (applyReplaceEnvelope ctx task request) := by
  unfold applyReplaceEnvelope ExecutionEnvelope.replaceBound
  iterate 18 refine .bind fun _ _ => ?_
  exact .pure (replaced_has task _ _ _)

theorem mem_keys_advanced {task : Meta} {at_ key : String} : key ∈ (advanced task at_).keys ↔
    key = "updated_at" ∨ key = "task_revision" ∨ key ∈ task.keys := by
  rw [advanced, Dict.mem_keys_set, Dict.mem_keys_set]

theorem advanced_known {task : Meta} {at_ : String} :
    (∀ key ∈ (advanced task at_).keys, key ∈ knownFields) ↔ ∀ key ∈ task.keys, key ∈ knownFields := by
  constructor
  · exact fun known key member => known key (mem_keys_advanced.mpr (Or.inr (Or.inr member)))
  · intro known key member
    obtain rfl | rfl | member := mem_keys_advanced.mp member
    · decide
    · decide
    · exact known key member

/-- What a handler accepts has only known fields exactly when the mutation replaces no envelope. -/
theorem fields_closed_iff {ctx : Context} {task after : Meta} {m : Mutation} {note at_ : String}
    (valid : Valid ctx.files true task) (accepted : applyTransition ctx task m = .ok (after, note)) :
    (∀ key ∈ (advanced after at_).keys, key ∈ knownFields) ↔ m.kind ≠ "replace-envelope" := by
  rw [advanced_known]
  constructor
  · intro known replaced
    cases m with
    | replaceEnvelope request =>
      have recorded := applyReplaceEnvelope_records ctx task request (after, note) accepted
      exact absurd (known _ ((Dict.mem_keys_iff_has _ _).mpr recorded)) (by decide)
    | _ => simp [Mutation.kind] at replaced
  · intro other key member
    have frame : Dict.Within m.writes task after := transition_within ctx task m (after, note) accepted
    exact (frame.mem_keys member).elim (valid.known key) (writes_known m other key)

/-- The sample task with a specification and a first envelope. -/
def envelopedSample : Meta :=
  ExecutionEnvelope.bind (claimedSample ++ [("spec_ref", .str "specs/one.json"), ("spec_revision", .int 1)])
    ⟨"AR-0001", "envelopes/one.json", 1⟩ (sampleEnvelope 1 4)

def sampleReplacement : Mutation := .replaceEnvelope ⟨"worker", 4, "envelopes/two.json", 2⟩

def sampleContext (task : Meta) : Context where
  files := sampleFiles
  world := sampleWorld
  name := "AR-0001"
  tasks := [⟨"AR-0001.md", task, ""⟩]
  sessions := []
  checkpoints := []

theorem envelopedSample_valid : Valid sampleFiles true envelopedSample := by
  have clean : basicTaskErrors sampleFiles "AR-0001.md" envelopedSample true = [] := by decide +kernel
  exact basicTaskErrors_eq_nil.mp clean

/-- The replacement of the sample envelope is accepted by its handler. -/
theorem sampleReplacement_accepted :
    allowed (applyTransition (sampleContext envelopedSample) envelopedSample sampleReplacement) = true := by
  decide +kernel

theorem replacement_unknown_field : ∃ after note, Valid sampleFiles true envelopedSample ∧
    applyTransition (sampleContext envelopedSample) envelopedSample sampleReplacement = .ok (after, note) ∧
      ∃ key ∈ (advanced after sampleWorld.now).keys, key ∉ knownFields := by
  obtain ⟨⟨after, note⟩, accepted⟩ := allowed_iff.mp sampleReplacement_accepted
  have recorded := applyReplaceEnvelope_records _ _ _ (after, note) accepted
  exact ⟨after, note, envelopedSample_valid, accepted, "execution_envelope_replacements",
    mem_keys_advanced.mpr (Or.inr (Or.inr ((Dict.mem_keys_iff_has _ _).mpr recorded))), by decide⟩

/-- A claim of the open sample keeps to the known fields. -/
theorem fields_closed_claim : ∃ after note,
    applyTransition (sampleContext (sampleTask "AR-0001" "open" "" "" 4)) (sampleTask "AR-0001" "open" "" "" 4)
      (.claim ⟨"worker", 60, none, none, none⟩) = .ok (after, note) ∧
      ∀ key ∈ (advanced after sampleWorld.now).keys, key ∈ knownFields := by
  have accepted : allowed (applyTransition (sampleContext (sampleTask "AR-0001" "open" "" "" 4))
    (sampleTask "AR-0001" "open" "" "" 4) (.claim ⟨"worker", 60, none, none, none⟩)) = true := by decide +kernel
  have clean : basicTaskErrors sampleFiles "AR-0001.md" (sampleTask "AR-0001" "open" "" "" 4) true = [] := by
    decide +kernel
  obtain ⟨⟨after, note⟩, done⟩ := allowed_iff.mp accepted
  exact ⟨after, note, done, (fields_closed_iff (basicTaskErrors_eq_nil.mp clean) done).mpr (by decide)⟩

end Coordinator.Transitions
