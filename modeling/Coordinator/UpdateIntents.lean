import Coordinator.Effects
import Coordinator.ReceiptWorker
import Coordinator.SessionAdmission

/-! Which updates from an intent can be recorded. An intent bounds the characters of a next action. A session
record bounds the bytes of its own serialized form, in which one character takes up to twelve of them. -/

namespace Coordinator.ReceiptWorker
open Kit Receipts Records TaskValidation Dict

/-- A change that an update carries, if it does. -/
def changeOf (changes : Json) (key : String) : Option String :=
  if changes.has key then some (changes.get key).text else none

/-- The arguments that the worker takes from an update intent. -/
def updateArguments (intent : Intent) (payload : Json) : Transitions.UpdateRequest :=
  let change := changeOf (payload.get "changes")
  { owner := (payload.get "owner").text, expectedRevision := some intent.expectedRevision, status := change "status",
    priority := change "priority", summary := change "summary", nextAction := change "next_action",
    note := (payload.get "note").text, sessionTrigger := none }

/-- The task that the update of an intent leads to. -/
def updatedTask (task : Meta) (intent : Intent) (payload : Json) (at_ : String) : Meta :=
  Authority.advanced (Transitions.updated task (updateArguments intent payload)) at_

/-- A text of the task once the changes are in it. -/
def changedText (task : Meta) (changes : Json) (key : String) : String := (changeOf changes key).getD (task.textOr key)

/-- The changes of an update that leave the task within the bounds of a session record. -/
structure FitsRecord (task : Meta) (changes : Json) (recordedAt : String) : Prop where
  named : ExecutionEnvelope.isTask (taskText task) = true
  kept : changes.has "next_action" = false →
    Text.contains '\n' (task.textOr "next_action") = false ∧ (task.textOr "next_action").length ≤ 1024
  small : 263 + encoded (changedText task changes "next_action") + encodedList (sessionArtifactRefs task) + encoded recordedAt +
    2 * encoded (changedText task changes "status") + 2 * (toString (Meta.revision task + 1)).length ≤ maxSessionBytes

section changes

variable {changes : Json} {accepted : Dict}

theorem carried_str (valid : validateUpdateChanges changes = .ok accepted) {key : String} (carried : changes.has key = true) :
    changes.get key = .str (changes.get key).text := by
  simp only [validateUpdateChanges, bind_eq_ok, exists_unit, raiseIf_eq_ok, Bool.or_eq_false_iff, List.any_eq_false,
    Bool.not_eq_true', Bool.not_eq_false] at valid
  obtain ⟨⟨⟨⟨⟨⟨-, texts⟩, -⟩, -⟩, -⟩, -⟩, -⟩ := valid
  obtain ⟨word, same⟩ : ∃ word, changes.get key = .str word :=
    Json.isStr_iff.mp (texts _ (Json.mem_fields_of_has carried))
  rw [same]
  rfl

/-- A next action that an update may carry. -/
theorem carried_action (valid : validateUpdateChanges changes = .ok accepted) (carried : changes.has "next_action" = true) :
    Text.contains '\n' (changes.get "next_action").text = false ∧ (changes.get "next_action").text.length ≤ 1024 := by
  have text := carried_str valid carried
  simp only [validateUpdateChanges, bind_eq_ok, exists_unit, raiseIf_eq_ok, Bool.or_eq_false_iff, carried, Bool.true_and,
    decide_eq_false_iff_not, not_lt] at valid
  rw [text, Json.toText_str] at valid
  obtain ⟨⟨⟨⟨-, ⟨⟨-, short⟩, -⟩, line⟩, -⟩, -⟩, -⟩ := valid
  exact ⟨line, short⟩

/-- An update leaves a status alone or sets it to the only one that it may. -/
theorem carried_status (valid : validateUpdateChanges changes = .ok accepted) (carried : changes.has "status" = true) :
    (changes.get "status").text = "in_progress" := by
  have text := carried_str valid carried
  simp only [validateUpdateChanges, bind_eq_ok, exists_unit, raiseIf_eq_ok, Bool.or_eq_false_iff, carried, Bool.true_and,
    decide_eq_false_iff_not, not_not] at valid
  rw [text, Json.toText_str] at valid
  obtain ⟨⟨⟨-, same⟩, -⟩, -⟩ := valid
  exact same

end changes

section records

variable {files : Files} {includeLedger : Bool} {task : Meta} {intent : Intent} {payload : Json} {accepted : Dict} {at_ : String}

theorem setGiven_textOr (task : Meta) (key other : String) (value : Option String) :
    (Transitions.setGiven task key value).textOr other =
      if other = key then value.getD (task.textOr other) else task.textOr other := by
  cases value with
  | none => simp [Transitions.setGiven]
  | some word =>
    by_cases same : other = key
    · simp [Transitions.setGiven, same]
    · simp [Transitions.setGiven, same]

theorem updated_within : Within ["status", "priority", "summary", "next_action"] task
    (Transitions.updated task (updateArguments intent payload)) := by
  unfold Transitions.updated
  iterate 4 refine Transitions.setGiven_within ?_ (by simp) _
  exact within_refl _ task

theorem updatedTask_within : Within ["status", "priority", "summary", "next_action", "task_revision", "updated_at"] task
    (updatedTask task intent payload at_) :=
  ((updated_within.mono (by simp)).set (by simp) _).set (by simp) _

theorem updatedTask_revision : Meta.revision (updatedTask task intent payload at_) = Meta.revision task + 1 := by
  rw [updatedTask, Authority.revision_advanced, Meta.revision, Meta.revision, updated_within.get (by simp)]

theorem updatedTask_text {key : String} (named : key ∈ ["status", "next_action"]) :
    (updatedTask task intent payload at_).textOr key = changedText task (payload.get "changes") key := by
  have apart : key ∉ Authority.revisionFields := by
    simp only [List.mem_cons, List.not_mem_nil, or_false] at named
    obtain rfl | rfl := named
    · decide
    · decide
  rw [updatedTask, (Authority.advanced_within _ _).textOr apart]
  simp only [List.mem_cons, List.not_mem_nil, or_false] at named
  obtain rfl | rfl := named
  · simp [Transitions.updated, setGiven_textOr, updateArguments, changedText]
  · simp [Transitions.updated, setGiven_textOr, updateArguments, changedText]

theorem updatedTask_refs : sessionArtifactRefs (updatedTask task intent payload at_) = sessionArtifactRefs task := by
  simp only [sessionArtifactRefs, updatedTask_within.get (show "spec_ref" ∉ _ by simp),
    updatedTask_within.get (show "execution_envelope_ref" ∉ _ by simp),
    updatedTask_within.get (show "spec_acceptance" ∉ _ by simp), updatedTask_within.get (show "evidence_ledger" ∉ _ by simp),
    updatedTask_within.get (show "checkpoint_commit" ∉ _ by simp)]

/-- An updated task has the texts that a record takes over. -/
theorem updatedTask_identified (valid : Valid files includeLedger task)
    (checked : validateUpdateChanges (payload.get "changes") = .ok accepted) :
    ∃ name word, Identified (updatedTask task intent payload at_) name word := by
  obtain ⟨name, word, known⟩ := identified_of_valid valid
  have positive : 1 ≤ Meta.revision (updatedTask task intent payload at_) := by
    rw [updatedTask_revision]
    have before := known.revision
    omega
  have id : (updatedTask task intent payload at_).get "id" = .str name := by
    rw [updatedTask_within.get (by simp), known.id]
  have status : status (updatedTask task intent payload at_) = (changeOf (payload.get "changes") "status").elim (.str word) .str := by
    rw [updatedTask, Authority.status_advanced, Transitions.updated_status, show status task = .str word from known.status]
    rfl
  cases carried : (payload.get "changes").has "status" with
  | false =>
    rw [changeOf, carried] at status
    exact ⟨name, word, id, status, known.stated, positive⟩
  | true =>
    rw [changeOf, carried, if_pos rfl, carried_status checked carried] at status
    exact ⟨name, "in_progress", id, status, by decide, positive⟩

theorem bounded_iff_fits (valid : Valid files includeLedger task)
    (checked : validateUpdateChanges (payload.get "changes") = .ok accepted) (world : Moment) :
    (∃ record, buildSessionRecord (updatedTask task intent payload world.now) "update" world.now = .ok record ∧
      validateSessionRecord record = .ok ()) ↔ FitsRecord task (payload.get "changes") world.now := by
  obtain ⟨name, word, known⟩ : ∃ name word, Identified (updatedTask task intent payload world.now) name word :=
    updatedTask_identified valid checked
  rw [recorded_iff_bounded known (by decide) world]
  have named : taskText (updatedTask task intent payload world.now) = taskText task := updatedTask_within.textOr (by simp)
  have update : encoded "update" = 8 := by decide +kernel
  constructor
  · rintro ⟨shape, line, short, small⟩
    rw [named] at shape
    rw [updatedTask_text (by simp)] at line short small
    rw [updatedTask_text (by simp), updatedTask_refs, updatedTask_revision, update] at small
    refine ⟨shape, fun absent => ?_, by omega⟩
    rw [changedText, changeOf, absent] at line short
    exact ⟨line, short⟩
  · rintro ⟨shape, kept, small⟩
    have action : Text.contains '\n' (changedText task (payload.get "changes") "next_action") = false ∧
        (changedText task (payload.get "changes") "next_action").length ≤ 1024 := by
      cases carried : (payload.get "changes").has "next_action" with
      | false =>
        rw [changedText, changeOf, carried]
        exact kept carried
      | true =>
        rw [changedText, changeOf, carried]
        exact carried_action checked carried
    refine ⟨named ▸ shape, ?_, ?_, ?_⟩
    · rw [updatedTask_text (by simp)]
      exact action.1
    · rw [updatedTask_text (by simp)]
      exact action.2
    · rw [updatedTask_text (by simp), updatedTask_text (by simp), updatedTask_refs, updatedTask_revision, update]
      omega

/-- The update of an intent can be recorded exactly if it leaves the task within the bounds of a record. -/
theorem update_recorded_iff (valid : Valid files includeLedger task)
    (checked : validateUpdateChanges (payload.get "changes") = .ok accepted) (world : Moment) :
    (∃ record, buildSessionRecord (updatedTask task intent payload world.now) "update" world.now = .ok record ∧
      validateSessionRecord record = .ok ()) ↔ FitsRecord task (payload.get "changes") world.now :=
  bounded_iff_fits valid checked world

end records

/-- An intent to update the next action alone. -/
def actionIntent : Intent :=
  ⟨"", "key", "update", "AR-0001", 4, "", "", .running, none, none, none, none, none, none, none, 0⟩

def actionPayload (action : String) : Json := .obj
  [("changes", .obj [("next_action", .str action)]), ("note", .str "Noted."), ("owner", .str "worker")]

/-- A next action of one line passes as an update up to its length. -/
theorem action_validated {action : String} (some_ : 1 ≤ action.length) (short : action.length ≤ 1024)
    (line : Text.contains '\n' action = false) (plain : Text.contains '\x00' action = false) :
    validateUpdateChanges ((actionPayload action).get "changes") = .ok [("next_action", .str action)] := by
  have texts : ((actionPayload action).get "changes").fields.any (fun entry => !entry.2.isStr) = false := rfl
  have known : ((actionPayload action).get "changes").fields.any
      (fun entry => !(["status", "priority", "summary", "next_action"].contains entry.1)) = false := rfl
  have text : (((actionPayload action).get "changes").get "next_action").toText = action := rfl
  have status : ((actionPayload action).get "changes").has "status" = false := rfl
  have priority : ((actionPayload action).get "changes").has "priority" = false := rfl
  have summary : ((actionPayload action).get "changes").has "summary" = false := rfl
  have carried : ((actionPayload action).get "changes").has "next_action" = true := rfl
  have empty : decide (action.length < 1) = false := decide_eq_false (Nat.not_lt.mpr some_)
  have long : decide (maxNextAction < action.length) = false := decide_eq_false (Nat.not_lt.mpr short)
  simp only [validateUpdateChanges, texts, known, text, status, priority, summary, carried, empty, long, line, plain,
    Bool.or_false, Bool.false_and, Bool.and_false]
  rfl

theorem claimedSample_recordable : Valid sampleFiles true claimedSample := basicTaskErrors_eq_nil.mp (by decide +kernel :
  basicTaskErrors sampleFiles "AR-0001.md" claimedSample true = [])

theorem short_action_recorded : ∃ record,
    buildSessionRecord (updatedTask claimedSample actionIntent (actionPayload "Wait.") sampleWorld.now) "update" sampleWorld.now =
      .ok record ∧ validateSessionRecord record = .ok () :=
  (update_recorded_iff claimedSample_recordable
    (action_validated (by decide) (by decide) (by decide +kernel) (by decide +kernel)) sampleWorld).mpr
      ⟨by decide +kernel, nofun, by decide +kernel⟩

/-- No record can be built of an update to a next action whose literal is too wide. -/
theorem wide_unrecorded {files : Files} {includeLedger : Bool} {task : Meta} {action : String} {accepted : Dict}
    (valid : Valid files includeLedger task) (checked : validateUpdateChanges ((actionPayload action).get "changes") = .ok accepted)
    (wide : maxSessionBytes < 263 + encoded action) (world : Moment) : ¬ ∃ record,
      buildSessionRecord (updatedTask task actionIntent (actionPayload action) world.now) "update" world.now = .ok record ∧
        validateSessionRecord record = .ok () := by
  intro recorded
  have small := ((bounded_iff_fits valid checked world).mp recorded).small
  have carried : changedText task ((actionPayload action).get "changes") "next_action" = action := rfl
  rw [carried] at small
  omega

theorem encoded_accents (count : Nat) : encoded (String.ofList (List.replicate count 'é')) = 6 * count + 2 := by
  have escape : (Json.escape 'é').length = 6 := by decide +kernel
  rw [encoded, Json.quoted, Text.characters_eq, String.toList_ofList, List.length_append, List.length_cons, List.length_flatMap,
    List.map_replicate, List.sum_replicate_nat, escape, List.length_singleton]
  omega

theorem accents_validated {count : Nat} (some_ : 1 ≤ count) (short : count ≤ 1024) :
    validateUpdateChanges ((actionPayload (String.ofList (List.replicate count 'é'))).get "changes") =
      .ok [("next_action", .str (String.ofList (List.replicate count 'é')))] := by
  have length : (String.ofList (List.replicate count 'é')).length = count := by
    rw [String.length_ofList, List.length_replicate]
  have only (c : Char) (other : c ≠ 'é') : Text.contains c (String.ofList (List.replicate count 'é')) = false := by
    rw [Text.contains, String.toList_ofList, ← Bool.not_eq_true, List.contains_iff_mem]
    exact fun member => other (List.eq_of_mem_replicate member)
  exact action_validated (length.symm ▸ some_) (length.symm ▸ short) (only '\n' (by decide)) (only '\x00' (by decide))

/-- An update to as many accented letters as a next action may have passes, and no record of it can ever be built. -/
theorem accents_unrecorded : Valid sampleFiles true claimedSample ∧
    validateUpdateChanges ((actionPayload (String.ofList (List.replicate 1024 'é'))).get "changes") =
      .ok [("next_action", .str (String.ofList (List.replicate 1024 'é')))] ∧
    ∀ world : Moment, ¬ ∃ record, buildSessionRecord
      (updatedTask claimedSample actionIntent (actionPayload (String.ofList (List.replicate 1024 'é'))) world.now) "update"
        world.now = .ok record ∧ validateSessionRecord record = .ok () := by
  have checked := accents_validated (by decide : 1 ≤ 1024) (le_refl 1024)
  refine ⟨claimedSample_recordable, checked, wide_unrecorded claimedSample_recordable checked ?_⟩
  rw [encoded_accents]
  decide

end Coordinator.ReceiptWorker
