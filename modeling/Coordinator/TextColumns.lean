import Coordinator.Commit

/-! The fields that a store keeps in text columns. Where they hold strings or nothing, the
comparisons of a validator and those of a database are the same, and the handlers keep them so. -/

namespace Coordinator.Authority
open Kit Dict TaskGraph TaskValidation Transitions

def textKeys : List String := ["status", "owner", "claim_expires", "branch", "worktree_key"]

/-- Every field with a text column is a string or absent. -/
def Textual (task : Meta) : Prop := ∀ key ∈ textKeys, task.find key = none ∨ ∃ word, task.find key = some (.str word)

section closure

variable {task before after : Meta} {key : String}

theorem Textual.set_str (textual : Textual task) (key word : String) : Textual (task.set key (.str word)) := by
  intro other listed
  rw [find_set]
  split
  · exact Or.inr ⟨word, rfl⟩
  · exact textual other listed

theorem Textual.set_other (textual : Textual task) (other : key ∉ textKeys) (value : Json) :
    Textual (task.set key value) := by
  intro name listed
  have apart : name ≠ key := fun same => other (same ▸ listed)
  rw [find_set, if_neg apart]
  exact textual name listed

theorem Textual.pop (textual : Textual task) (key : String) : Textual (task.pop key) := by
  intro other listed
  rw [find_pop]
  split
  · exact Or.inl rfl
  · exact textual other listed

theorem Textual.within {names : List String} (textual : Textual before) (frame : Within names before after)
    (apart : ∀ name ∈ textKeys, name ∉ names) : Textual after := by
  intro key listed
  rw [frame key (apart key listed)]
  exact textual key listed

theorem Textual.clearClaim (textual : Textual task) : Textual (clearClaim task) :=
  ((textual.set_str _ _).set_str _ _).pop _

theorem Textual.advanced (textual : Textual task) (at_ : String) : Textual (advanced task at_) :=
  textual.within (advanced_within task at_) (by decide)

theorem Textual.setGiven (textual : Textual task) (key : String) (value : Option String) :
    Textual (setGiven task key value) := by
  cases value with
  | none => exact textual
  | some word => exact textual.set_str key word

end closure

/-! What a text column shows. -/

section columns

variable {task : Meta} {key : String}

/-- A textual field is absent and shown as the empty text, or a string and shown as itself. -/
theorem Textual.column (textual : Textual task) (listed : key ∈ textKeys) :
    (task.get key = .null ∧ textColumn task key = some "") ∨
      ∃ word, task.get key = .str word ∧ textColumn task key = some word := by
  obtain absent | ⟨word, present⟩ := textual key listed
  · exact Or.inl ⟨by simp [Dict.get, absent], by simp [textColumn, absent]⟩
  · exact Or.inr ⟨word, by simp [Dict.get, present], by simp [textColumn, present]⟩

theorem Textual.truthy_iff (textual : Textual task) (listed : key ∈ textKeys) :
    (task.get key).truthy = true ↔ textColumn task key ≠ some "" := by
  obtain ⟨same, shown⟩ | ⟨word, same, shown⟩ := textual.column listed
  · simp [same, shown]
  · simp [same, shown]

/-- Two textual fields are equal, and not empty, exactly when their columns are. -/
theorem Textual.same_iff {other : Meta} (textual : Textual task) (also : Textual other) (listed : key ∈ textKeys)
    (present : (task.get key).truthy = true) :
    (other.get key == task.get key) = true ↔ textColumn other key = textColumn task key := by
  obtain ⟨here, shown⟩ | ⟨word, here, shown⟩ := textual.column listed
  · simp [here] at present
  · obtain ⟨there, seen⟩ | ⟨name, there, seen⟩ := also.column listed
    · have filled : word ≠ "" := by simpa [here] using present
      rw [here, there, shown, seen, Json.beq_str]
      simp [Ne.symm filled]
    · rw [here, there, shown, seen, Json.beq_str]
      simp

theorem Textual.hashable (textual : Textual task) (listed : key ∈ textKeys) :
    ExecutionEnvelope.hashable (task.get key) = true := by
  obtain ⟨same, -⟩ | ⟨word, same, -⟩ := textual.column listed <;> rw [same] <;> rfl

end columns

/-! The handlers keep text columns textual, save a rollback, which restores any value. -/

section handlers

variable {ctx : Context} {task : Meta} (textual : Textual task)

include textual

theorem attachClaimProcess_textual {world : Moment} (pid start : Option Int) :
    Ensures Textual (attachClaimProcess world task pid start) := by
  unfold attachClaimProcess
  refine .bind fun identity _ => ?_
  cases identity with
  | none => exact .pure (textual.pop _)
  | some identity => exact .pure ((textual.pop _).set_other (by decide) _)

abbrev KeepsText (x : Outcome (Meta × String)) : Prop := Ensures (fun result => Textual result.1) x

theorem applyClaim_textual (request : ClaimRequest) : KeepsText (applyClaim ctx task request) := by
  unfold applyClaim
  iterate 7 refine .bind fun _ _ => ?_
  refine .bind fun claimed attached => .bind fun lease _ => .pure ?_
  exact (attachClaimProcess_textual ((textual.set_str _ _).set_str _ _) _ _ claimed attached).set_str _ _

theorem applyHeartbeat_textual (ownerId : String) (minutes : Int) (expected : Option Int) :
    KeepsText (applyHeartbeat ctx task ownerId minutes expected) := by
  unfold applyHeartbeat
  iterate 5 refine .bind fun _ _ => ?_
  exact .pure (textual.set_str _ _)

theorem applyRelease_textual (ownerId releasedTo note : String) :
    KeepsText (applyRelease ctx task ownerId releasedTo note) := by
  unfold applyRelease
  iterate 4 refine .bind fun _ _ => ?_
  exact .pure (textual.set_str _ _).clearClaim

theorem applyUpdate_textual (request : UpdateRequest) : KeepsText (applyUpdate ctx task request) := by
  unfold applyUpdate
  iterate 5 refine .bind fun _ _ => ?_
  have given : Textual (updated task request) := (((textual.setGiven _ _).setGiven _ _).setGiven _ _).setGiven _ _
  exact .pure (given.within (carryRunHold_within (within_refl ["autonomy_limits"] _) (by simp) _ _) (by decide))

theorem applyPromote_textual (expected : Int) (note : String) : KeepsText (applyPromote ctx task expected note) := by
  unfold applyPromote
  iterate 6 refine .bind fun _ _ => ?_
  exact .pure (textual.set_str _ _)

theorem applyPause_textual (ownerId : String) (expected : Int) (note : String) :
    KeepsText (applyPause ctx task ownerId expected note) := by
  unfold applyPause
  iterate 6 refine .bind fun _ _ => ?_
  exact .pure (textual.set_str _ _).clearClaim

theorem applyResume_textual (expected : Int) (session note : String) :
    KeepsText (applyResume ctx task expected session note) := by
  unfold applyResume
  iterate 4 refine .bind fun _ _ => ?_
  exact .pure ((textual.set_str _ _).set_str _ _)

theorem applyUnblock_textual (expected : Int) (note : String) : KeepsText (applyUnblock ctx task expected note) := by
  unfold applyUnblock
  iterate 4 refine .bind fun _ _ => ?_
  exact .pure (textual.set_str _ _)

theorem applyRecoverExpired_textual (expected : Int) (note : String) (allowLegacy : Bool) :
    KeepsText (applyRecoverExpired ctx task expected note allowLegacy) := by
  unfold applyRecoverExpired
  iterate 6 refine .bind fun _ _ => ?_
  refine .bind fun cleaned returned => ?_
  iterate 2 refine .bind fun _ _ => ?_
  refine .bind fun evident found => .pure ?_
  have swept : Textual cleaned :=
    textual.within (requireNoLiveReservation_within task _ cleaned returned) (by decide)
  have noted : Textual evident.1 := swept.within
    (recoveryEvidence_within ctx cleaned (within_refl ["next_action"] _) (by simp) _ _ _ evident found) (by decide)
  exact (noted.set_str _ _).clearClaim

theorem abandon_textual (request : Execution.AbandonRequest) :
    KeepsText (Execution.abandon ctx.world task request) := by
  unfold Execution.abandon
  iterate 4 refine .bind fun _ _ => ?_
  have written (records : Json) : Textual (clearClaim
      (((task.set "execution_abandonments" records).pop "execution_reservation").set "status" (.str "open"))) :=
    (((textual.set_other (by decide) _).pop _).set_str _ _).clearClaim
  split
  · iterate 4 refine .bind fun _ _ => ?_
    exact .pure (written _)
  · iterate 5 refine .bind fun _ _ => ?_
    exact .pure (written _)

theorem start_textual (request : Execution.StartRequest) : KeepsText (Execution.start ctx.world task request) := by
  unfold Execution.start
  iterate 9 refine .bind fun _ _ => ?_
  refine .pure ?_
  split
  · exact (textual.set_other (by decide) _).set_str _ _
  · exact textual.set_other (by decide) _

theorem applyBindWorktree_textual (request : WorktreeRequest) : KeepsText (applyBindWorktree ctx task request) := by
  unfold applyBindWorktree
  iterate 2 refine .bind fun _ _ => ?_
  exact .pure ((textual.set_str _ _).set_str _ _)

theorem repairLegacyBinding_textual (expected : Int) (worktreeKey note : String) :
    KeepsText (PredicateLedger.repairLegacyBinding task expected worktreeKey note) := by
  unfold PredicateLedger.repairLegacyBinding
  iterate 5 refine .bind fun _ _ => ?_
  exact .pure (textual.set_str _ _)

/-- A mutation that the SQLite authority takes keeps the text columns textual. -/
theorem transition_textual {m : Mutation} (supported : requireSqliteAuthority m = .ok ()) :
    KeepsText (applyTransition ctx task m) := by
  have kept (apart : ∀ name ∈ textKeys, name ∉ m.writes) : KeepsText (applyTransition ctx task m) :=
    fun result applied => textual.within (transition_within ctx task m result applied) apart
  cases m with
  | claim request => exact applyClaim_textual textual request
  | heartbeat ownerId minutes expected => exact applyHeartbeat_textual textual ownerId minutes expected
  | release ownerId releasedTo note => exact applyRelease_textual textual ownerId releasedTo note
  | update request => exact applyUpdate_textual textual request
  | promote expected note => exact applyPromote_textual textual expected note
  | pause ownerId expected note => exact applyPause_textual textual ownerId expected note
  | resume expected session note => exact applyResume_textual textual expected session note
  | unblock expected note => exact applyUnblock_textual textual expected note
  | recoverExpired expected note allowLegacy => exact applyRecoverExpired_textual textual expected note allowLegacy
  | abandonExecution request => exact abandon_textual textual request
  | executionStart request => exact start_textual textual _
  | bindWorktree request => exact applyBindWorktree_textual textual request
  | repairLegacyBinding expected key note => exact repairLegacyBinding_textual textual expected key note
  | rollback name => simp [requireSqliteAuthority] at supported
  | _ => exact kept (by simp only [Mutation.writes]; decide)

end handlers

end Coordinator.Authority
