import Coordinator.Authority
import Coordinator.Validity

/-! The step to the next revision: what it leaves alone, and the one record that it can break. A
diagnostic hold is fenced to the revision of its task, so metadata stays valid exactly when it
carries no hold. -/

namespace Coordinator.AutonomyLimits
open Kit

/-- The hold in the ledger of a task, null when there is none. -/
def holdOf (task : Meta) : Json := (ledger task).get "hold"

theorem holdValid_revision {hold : Json} {task : Meta} {number : Int} (valid : holdValid hold task = true)
    (known : (task.get "task_revision").int? = some number) : hold.get "task_revision" = .int number := by
  simp only [holdValid, Bool.and_eq_true] at valid
  obtain ⟨⟨-, fenced⟩, same⟩ := valid
  obtain ⟨revision, exact⟩ := Option.isSome_iff_exists.mp fenced
  rw [Json.exactInt?_eq_some] at exact
  rw [exact] at same ⊢
  have equal : revision = number := by
    cases found : task.get "task_revision" with
    | int value =>
      rw [found] at same known
      simp only [Json.int?, Option.some.injEq] at known
      rw [Json.beq_int_int] at same
      omega
    | bool flag =>
      rw [found] at same known
      simp only [Json.int?, Option.some.injEq] at known
      change Json.eq (.int revision) (.bool flag) = true at same
      simp only [Json.eq, beq_iff_eq] at same
      omega
    | _ => simp [found, Json.int?] at known
  rw [equal]

/-- A ledger that is in order at one revision is in order at another exactly when it holds nothing. -/
theorem metadataError_moved {before after : Meta} {old new : Int} (same : ledger after = ledger before)
    (valid : metadataError before = none) (known : (before.get "task_revision").int? = some old)
    (next : (after.get "task_revision").int? = some new) (moved : new ≠ old) :
    metadataError after = none ↔ (holdOf before).isNull = true := by
  rw [metadataError_eq_none] at valid ⊢
  rw [same, holdOf]
  obtain absent | ⟨sound, held⟩ := valid
  · rw [Json.isNull_iff] at absent
    simp [absent, Json.isNull, Json.get, Json.fields, Dict.get, Dict.find]
  · constructor
    · rintro (absent | ⟨-, free | fenced⟩)
      · rw [Json.isNull_iff] at absent
        simp [absent, Json.isNull, Json.get, Json.fields, Dict.get, Dict.find]
      · exact free
      · obtain free | earlier := held
        · exact free
        · have here := holdValid_revision fenced next
          have there := holdValid_revision earlier known
          rw [there, Json.int.injEq] at here
          exact absurd here.symm moved
    · exact fun free => Or.inr ⟨sound, Or.inl free⟩

end Coordinator.AutonomyLimits

namespace Coordinator.Authority
open Kit Dict TaskGraph TaskValidation

def revisionFields : List String := ["task_revision", "updated_at"]

section advance

variable {task : Meta} {at_ : String}

theorem advanced_within (task : Meta) (at_ : String) : Within revisionFields task (advanced task at_) :=
  ((within_refl _ task).set (by simp [revisionFields]) _).set (by simp [revisionFields]) _

@[simp] theorem revision_advanced (task : Meta) (at_ : String) :
    Meta.revision (advanced task at_) = Meta.revision task + 1 := by
  rw [advanced, revision_set_of_ne (by decide), revision_set_revision]

theorem advanced_revision (task : Meta) (at_ : String) :
    (advanced task at_).get "task_revision" = .int (Meta.revision task + 1) := by
  simp [advanced]

theorem advanced_get {key : String} (other : key ∉ revisionFields) : (advanced task at_).get key = task.get key :=
  (advanced_within task at_).get other

theorem taskText_advanced : taskText (advanced task at_) = taskText task :=
  (advanced_within task at_).textOr (by decide)

theorem status_advanced : status (advanced task at_) = status task := advanced_get (by decide)

theorem owner_advanced : owner (advanced task at_) = owner task := advanced_get (by decide)

theorem claimExpires_advanced : claimExpires (advanced task at_) = claimExpires task := advanced_get (by decide)

end advance

theorem stamp_ne_empty (clock : Clock) : clock.stamp ≠ "" := Datetime.isoformat_ne_empty _

section stamps

variable {files : Files} {includeLedger : Bool} {task : Meta} (clock : Clock)

theorem stamp_passes (task : Meta) : ∀ check ∈ [textCheck "updated_at", updatedAtCheck],
    check.passes (task.set "updated_at" (.str clock.stamp)) := by
  simp only [List.forall_mem_cons, List.not_mem_nil, IsEmpty.forall_iff, implies_true, and_true]
  constructor
  · simp [textCheck, Check.ofValue, RetryCircuit.nonemptyStr, Json.isStr, Json.text, stamp_ne_empty]
  · simp [updatedAtCheck, Clock.read_stamp]

/-- Metadata stays valid under a new time of its last change. -/
theorem restamped_valid (valid : Valid files includeLedger task) :
    Valid files includeLedger (task.set "updated_at" (.str clock.stamp)) := by
  have frame : Within ["updated_at"] task (task.set "updated_at" (.str clock.stamp)) :=
    (within_refl _ task).set (by simp) _
  refine valid.change frame (by decide) (fun name _ member => by simp [List.mem_singleton.mp member]) ?_
  have touches : touched files includeLedger ["updated_at"] = [textCheck "updated_at", updatedAtCheck] := rfl
  rw [touches]
  exact stamp_passes clock task

/-- Valid metadata is valid at its next revision exactly when it carries no hold. -/
theorem valid_advanced_iff (valid : Valid files includeLedger task) :
    Valid files includeLedger (advanced task clock.stamp) ↔ (AutonomyLimits.holdOf task).isNull = true := by
  obtain ⟨number, known, current, positive⟩ := valid.revision_pos
  have next : ((advanced task clock.stamp).get "task_revision").int? = some (number + 1) := by
    rw [advanced_revision, current]
    rfl
  have same : AutonomyLimits.ledger (advanced task clock.stamp) = AutonomyLimits.ledger task := advanced_get (by decide)
  have fence := AutonomyLimits.metadataError_moved same valid.autonomy known next (by omega)
  rw [← fence]
  refine ⟨fun later => later.autonomy, fun clean => ?_⟩
  refine valid.change (advanced_within task clock.stamp) (by decide) ?_ ?_
  · intro name _ member
    simp only [revisionFields, List.mem_cons, List.not_mem_nil, or_false] at member
    obtain rfl | rfl := member <;> simp [advanced]
  · have touches : touched files includeLedger revisionFields =
        [.ofValue "task_revision" (fun value => value.int?.any (fun number => decide (1 ≤ number)) = true),
          textCheck "updated_at", autonomyCheck, updatedAtCheck, specCheck files includeLedger] := rfl
    have stamped := stamp_passes clock (task.set "task_revision" (.int (Meta.revision task + 1)))
    rw [touches]
    simp only [List.forall_mem_cons, List.not_mem_nil, IsEmpty.forall_iff, implies_true, and_true] at stamped ⊢
    refine ⟨?_, stamped.1, clean, stamped.2, ?_⟩
    · simp only [Check.ofValue, next, Option.any_some, decide_eq_true_eq]
      omega
    · refine TaskSpec.taskSpecErrors_mono files ((advanced_within task clock.stamp).sameOn (by decide)).symm ?_ valid.spec
      rw [revision_advanced]
      omega

end stamps

end Coordinator.Authority
