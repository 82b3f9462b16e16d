import Coordinator.DoneAdmission

/-! What a rollback restores of a recorded task, over any run between the checkpoint and the rollback. -/

namespace Coordinator.Authority
open Kit Dict TaskGraph TaskValidation Transitions

/-- The fields that a rollback takes from the checkpoint. -/
def restorable : List String := "short_title" :: rollbackFields

/-- A rollback restores a recorded state: its fields come back, its absent ones go, its claim is closed and the rest of
the task stays. -/
structure Restores (state target after : Meta) : Prop where
  fields : ∀ field ∈ restorable, after.find field = state.find field
  status : after.get "status" = restoredStatus (.obj state)
  owner : after.get "owner" = .str ""
  expires : after.get "claim_expires" = .str ""
  process : after.has "claim_process" = false
  rest : Within restoredFields target after

section restoring

variable {state task : Meta}

/-- Among the listed fields, those of the recorded state come back. -/
theorem find_foldl_restored (names : List String) : ∀ (current : Meta) (key : String),
    (names.foldl (fun current field =>
      if (Json.obj state).has field then current.set field ((Json.obj state).get field) else current) current).find key =
      if key ∈ names ∧ state.has key = true then state.find key else current.find key := by
  induction names with
  | nil =>
    intro current key
    simp
  | cons name rest ih =>
    intro current key
    rw [List.foldl_cons, ih, Json.has_obj, Json.get_obj]
    by_cases later : key ∈ rest ∧ state.has key = true
    · rw [if_pos later, if_pos ⟨List.mem_cons_of_mem name later.1, later.2⟩]
    · rw [if_neg later]
      by_cases here : key = name
      · subst here
        by_cases recorded : state.has key = true
        · obtain ⟨value, found⟩ := Option.isSome_iff_exists.mp recorded
          rw [if_pos recorded, if_pos ⟨List.mem_cons_self, recorded⟩, find_set, if_pos rfl, Dict.get, found]
          rfl
        · rw [if_neg recorded, if_neg fun both => recorded both.2]
      · have skipped : ¬ (key ∈ name :: rest ∧ state.has key = true) := fun both =>
          later ⟨(List.mem_cons.mp both.1).resolve_left here, both.2⟩
        rw [if_neg skipped]
        split
        · rw [find_set, if_neg here]
        · rfl

theorem restored_find {key : String} (listed : key ∈ rollbackFields) : (restored task (.obj state)).find key =
    if state.has key = true then state.find key else task.find key := by
  have other : key ≠ "short_title" := fun same => absurd (same ▸ listed) (by decide)
  rw [restored, find_foldl_restored]
  by_cases recorded : state.has key = true
  · rw [if_pos ⟨listed, recorded⟩, if_pos recorded]
  · rw [if_neg fun both => recorded both.2, if_neg recorded]
    split
    · rw [find_set, if_neg other]
    · rw [find_pop, if_neg other]

theorem restored_title : (restored task (.obj state)).find "short_title" = state.find "short_title" := by
  rw [restored, find_foldl_restored, if_neg fun both => absurd both.1 (by decide), Json.has_obj, Json.get_obj]
  by_cases recorded : state.has "short_title" = true
  · obtain ⟨value, found⟩ := Option.isSome_iff_exists.mp recorded
    rw [if_pos recorded, find_set, if_pos rfl, Dict.get, found]
    rfl
  · rw [if_neg recorded, find_pop, if_pos rfl]
    exact (Option.not_isSome_iff_eq_none.mp recorded).symm

end restoring

/-- The source commit of a checkpoint is the one in the state that it records. -/
def Coherent (record : Json) : Prop :=
  ∃ state : Meta, record.get "state" = .obj state ∧ state.find "checkpoint_commit" = some (.str (record.get "source_commit").toText)

section rollback

variable {ctx : Context} {task after : Meta} {checkpointName note : String} {record : Json}

/-- What an accepted rollback leaves of its target. -/
theorem applyRollback_eq_ok {state : Meta} (chosen : Records.findCheckpoint ctx.checkpoints checkpointName = .ok record)
    (recorded : record.get "state" = .obj state)
    (applied : applyRollback ctx task checkpointName = .ok (after, note)) :
    after = (clearClaim ((restored task (.obj state)).set "status" (restoredStatus (.obj state)))).set "checkpoint_commit"
      (.str (record.get "source_commit").toText) := by
  simp only [applyRollback, chosen, ok_bind, bind_eq_ok, exists_unit, raiseIf_eq_ok, pure_eq_ok, recorded,
    Prod.mk.injEq] at applied
  exact applied.2.2.1.symm

theorem applyRollback_find {state : Meta} {key : String}
    (moved : key ∉ "checkpoint_commit" :: "status" :: claimFields)
    (left : after = (clearClaim ((restored task (.obj state)).set "status" (restoredStatus (.obj state)))).set
      "checkpoint_commit" (.str (record.get "source_commit").toText)) :
    after.find key = (restored task (.obj state)).find key := by
  have frame : Within ("checkpoint_commit" :: "status" :: claimFields) (restored task (.obj state)) after := by
    rw [left]
    refine (clearClaim_within ((within_refl _ _).set (by simp) _) fun name member => ?_).set (by simp) _
    exact List.mem_cons_of_mem _ (List.mem_cons_of_mem _ member)
  exact frame key moved

/-- A rollback restores what a coherent checkpoint records exactly if its target has gained none of the fields that the
checkpoint lacks. -/
theorem restores_iff {state : Meta} (chosen : Records.findCheckpoint ctx.checkpoints checkpointName = .ok record)
    (recorded : record.get "state" = .obj state)
    (committed : state.find "checkpoint_commit" = some (.str (record.get "source_commit").toText))
    (applied : applyRollback ctx task checkpointName = .ok (after, note)) :
    Restores state task after ↔ ∀ field ∈ rollbackFields, task.has field = true → state.has field = true := by
  have left := applyRollback_eq_ok chosen recorded applied
  have away {key : String} (listed : key ∈ rollbackFields) (other : key ≠ "checkpoint_commit") :
      after.find key = if state.has key = true then state.find key else task.find key := by
    rw [applyRollback_find (fun member => ?_) left, restored_find listed]
    obtain same | kept := List.mem_cons.mp member
    · exact other same
    · have apart : ∀ name ∈ rollbackFields, name ∉ "status" :: claimFields := by decide
      exact apart key listed kept
  have source : after.find "checkpoint_commit" = state.find "checkpoint_commit" := by
    rw [left, find_set, if_pos rfl, committed]
  constructor
  · rintro restores field listed held
    by_contra absent
    by_cases here : field = "checkpoint_commit"
    · rw [here, Dict.has, committed] at absent
      exact absent rfl
    · have kept := restores.fields field (List.mem_cons_of_mem _ listed)
      rw [away listed here, if_neg absent] at kept
      rw [Dict.has, kept] at held
      exact absent held
  · intro lacking
    refine ⟨fun field listed => ?_, ?_, ?_, ?_, ?_, applyRollback_within ctx task checkpointName (after, note) applied⟩
    · obtain rfl | member := List.mem_cons.mp listed
      · rw [applyRollback_find (by decide) left, restored_title]
      · by_cases here : field = "checkpoint_commit"
        · rw [here, source]
        · rw [away member here]
          by_cases kept : state.has field = true
          · rw [if_pos kept]
          · rw [if_neg kept]
            have gone : task.has field ≠ true := fun held => kept (lacking field member held)
            rw [Option.not_isSome_iff_eq_none.mp gone, Option.not_isSome_iff_eq_none.mp kept]
    · rw [left]
      simp [clearClaim]
    · rw [left]
      simp [clearClaim]
    · rw [left]
      simp [clearClaim]
    · rw [left]
      simp [clearClaim]

end rollback

/-- Every checkpoint that an authority keeps is coherent. -/
def CoherentCheckpoints (store : Store) : Prop := ∀ name, ∀ record ∈ store.checkpoints name, Coherent record

/-- A checkpoint records the commit that it was taken at in its state too. -/
theorem coherent_of_build {ctx : Context} {target : Task} {task : Meta} {ownerId sourceCommit note at_ : String}
    {expected : Int} {record : Json} (applied : applyCheckpoint ctx target.fields ownerId expected sourceCommit = .ok (task, note))
    (built : Records.buildCheckpoint (advanced task at_) target.body sourceCommit at_ = .ok record) : Coherent record := by
  simp only [applyCheckpoint, bind_eq_ok, exists_unit, pure_eq_ok, Prod.mk.injEq] at applied
  obtain ⟨-, -, -, rfl, -⟩ := applied
  have source : record.get "source_commit" = .str sourceCommit := by
    simp only [Records.buildCheckpoint, bind_eq_ok, exists_unit, raiseIf_eq_ok, pure_eq_ok] at built
    obtain ⟨-, -, rfl⟩ := built
    rfl
  refine ⟨_, buildCheckpoint_state built, ?_⟩
  rw [(advanced_within _ at_).find (by decide), find_set, if_pos rfl, source]
  rfl

theorem step_coherent (files : Files) (backend : Backend) {store : Store} (event : Event) (distinct : Distinct store.tasks)
    (coherent : CoherentCheckpoints store) : CoherentCheckpoints (step files backend store event) := by
  intro name record member
  obtain earlier | ⟨world, ctx, target, ownerId, expected, sourceCommit, task, note, -, -, applied, built⟩ :=
    step_checkpoint distinct member
  · exact coherent name record earlier
  · exact coherent_of_build applied built

theorem step_distinct (files : Files) (backend : Backend) {store : Store} (event : Event) (distinct : Distinct store.tasks) :
    Distinct (step files backend store event).tasks := by
  obtain same | accepted := step_cases files backend store event
  · rw [same]
    exact distinct
  · exact attempt_distinct distinct accepted

/-- What is claimed of a step: a rollback that the lifecycle accepts restores its checkpoint exactly if the task has
gained no field that the checkpoint lacks. -/
def RollbackContract (files : Files) (store : Store) (event : Event) (_ : Store) : Prop :=
  ∀ world name checkpointName target record (state task : Meta) note, event = .mutation world name (.rollback checkpointName) →
    locate store name = .ok target → Records.findCheckpoint (store.checkpoints name) checkpointName = .ok record →
    record.get "state" = .obj state →
    applyTransition (contextOf files world store name) target.fields (.rollback checkpointName) = .ok (task, note) →
    (Restores state target.fields task ↔
      ∀ field ∈ rollbackFields, target.fields.has field = true → state.has field = true)

theorem coherent_contract {files : Files} {store after : Store} {event : Event} (coherent : CoherentCheckpoints store) :
    RollbackContract files store event after := by
  rintro world name checkpointName target record state task note rfl - chosen recorded applied
  have member : record ∈ store.checkpoints name := by
    have found := chosen
    simp only [Records.findCheckpoint, Records.decodeCheckpoints, bind_eq_ok, exists_unit, pure_eq_ok, orRaise_eq_ok] at found
    obtain ⟨records, ⟨-, -, rfl⟩, located⟩ := found
    exact List.mem_of_find?_eq_some located
  obtain ⟨other, same, committed⟩ := coherent name record member
  obtain rfl : other = state := by
    rw [same, Json.obj.injEq] at recorded
    exact recorded
  exact restores_iff chosen same committed applied

/-- In every run that starts with coherent checkpoints, rollbacks restore exactly where nothing has been gained. -/
theorem rollbacks_restore_iff (files : Files) (backend : Backend) {store : Store} (distinct : Distinct store.tasks)
    (coherent : CoherentCheckpoints store) (events : List Event) :
    Run.Steps (step files backend) (RollbackContract files) store events := by
  have keeps (store : Store) (event : Event) (holds : Distinct store.tasks ∧ CoherentCheckpoints store) (_ : True) :
      Distinct (step files backend store event).tasks ∧ CoherentCheckpoints (step files backend store event) :=
    ⟨step_distinct files backend event holds.1, step_coherent files backend event holds.1 holds.2⟩
  refine Run.steps_of_invariant (step files backend) keeps (fun store event holds _ => coherent_contract holds.2) events store
    ⟨distinct, coherent⟩ ?_
  exact Run.along_of_forall (step files backend) (fun _ _ => trivial : ∀ event ∈ events, (fun _ => True) event)

/-- The fields of a task that an accepted rollback would leave although the checkpoint lacks them. -/
def gained (files : Files) (world : Moment) (store : Store) (name checkpointName : String) : Outcome (List String) := do
  let target ← locate store name
  let record ← Records.findCheckpoint (store.checkpoints name) checkpointName
  let _ ← applyTransition (contextOf files world store name) target.fields (.rollback checkpointName)
  pure (rollbackFields.filter (fun field => target.fields.has field && !(record.get "state").has field))

/-- A checkpoint of the claimed sample, what its owner does then, and a release. -/
def recordedRun (between : List Event) : List Event :=
  .mutation sampleWorld "AR-0001" (.checkpoint "worker" 4 "0123456789012345678901234567890123456789") ::
    between ++ [.mutation sampleWorld "AR-0001" (.release "worker" "open" "Paused.")]

def recordedStore (between : List Event) : Store := Run.final (step sampleFiles .git) (sampleStore claimedSample) (recordedRun between)

def bindingEvent : Event := .mutation sampleWorld "AR-0001" (.bindSpec "worker" 5 "specs/one.json" 1)

theorem recordedStore_gained :
    (gained sampleFiles sampleWorld (recordedStore []) "AR-0001" "AR-0001-r0005").toOption = some [] ∧
      (gained sampleFiles sampleWorld (recordedStore [bindingEvent]) "AR-0001" "AR-0001-r0005").toOption =
        some ["spec_ref", "spec_revision"] := by
  decide +kernel

theorem gained_eq_ok {files : Files} {world : Moment} {store : Store} {name checkpointName : String} {fields : List String}
    (counted : (gained files world store name checkpointName).toOption = some fields) :
    ∃ (target : Task) (record : Json) (state task : Meta) (note : String), locate store name = .ok target ∧
      Records.findCheckpoint (store.checkpoints name) checkpointName = .ok record ∧ record.get "state" = .obj state ∧
      applyTransition (contextOf files world store name) target.fields (.rollback checkpointName) = .ok (task, note) ∧
      fields = rollbackFields.filter (fun field => target.fields.has field && !state.has field) := by
  cases answer : gained files world store name checkpointName with
  | error fault =>
    rw [answer] at counted
    cases counted
  | ok kept =>
    rw [answer] at counted
    cases counted
    simp only [gained, bind_eq_ok, pure_eq_ok] at answer
    obtain ⟨target, found, record, chosen, ⟨task, note⟩, applied, rfl⟩ := answer
    have accepted : applyRollback (contextOf files world store name) target.fields checkpointName = .ok (task, note) := applied
    simp only [applyRollback, show (contextOf files world store name).checkpoints = store.checkpoints name from rfl, chosen,
      ok_bind, bind_eq_ok, exists_unit, raiseIf_eq_ok, Bool.or_eq_false_iff, Bool.not_eq_false'] at accepted
    obtain ⟨state, recorded⟩ := Json.isObj_iff.mp accepted.2.1.1
    exact ⟨target, record, state, task, note, found, chosen, recorded, applied, by rw [recorded]; rfl⟩

/-- A field that the checkpoint lacks comes through a rollback unchanged. -/
theorem rollback_keeps {files : Files} {world : Moment} {store : Store} {name checkpointName note field : String} {target : Task}
    {record : Json} {state task : Meta} (chosen : Records.findCheckpoint (store.checkpoints name) checkpointName = .ok record)
    (recorded : record.get "state" = .obj state)
    (applied : applyTransition (contextOf files world store name) target.fields (.rollback checkpointName) = .ok (task, note))
    (listed : field ∈ rollbackFields) (other : field ≠ "checkpoint_commit") (absent : state.has field = false) :
    task.find field = target.fields.find field := by
  have left := applyRollback_eq_ok (show Records.findCheckpoint (contextOf files world store name).checkpoints checkpointName = .ok record from chosen) recorded
    applied
  rw [applyRollback_find (fun member => ?_) left, restored_find listed, absent, if_neg Bool.false_ne_true]
  have apart : ∀ name ∈ rollbackFields, name ∉ "status" :: claimFields := by decide
  exact apart field listed ((List.mem_cons.mp member).resolve_left other)

theorem sampleStore_distinct (task : Meta) : Distinct (sampleStore task).tasks := by
  constructor <;> simp [sampleStore]

theorem sampleStore_coherent (task : Meta) : CoherentCheckpoints (sampleStore task) := by
  intro name record member
  cases member

/-- The sample is restored to a checkpoint after which it was only released. -/
theorem release_restored : ∃ (target : Task) (record : Json) (state task : Meta) (note : String),
    locate (recordedStore []) "AR-0001" = .ok target ∧
      Records.findCheckpoint ((recordedStore []).checkpoints "AR-0001") "AR-0001-r0005" = .ok record ∧
      record.get "state" = .obj state ∧
      applyTransition (contextOf sampleFiles sampleWorld (recordedStore []) "AR-0001") target.fields
        (.rollback "AR-0001-r0005") = .ok (task, note) ∧ Restores state target.fields task := by
  obtain ⟨target, record, state, task, note, found, chosen, recorded, applied, none_⟩ := gained_eq_ok recordedStore_gained.1
  have run := rollbacks_restore_iff sampleFiles .git (sampleStore_distinct claimedSample) (sampleStore_coherent claimedSample)
    (recordedRun [] ++ [.mutation sampleWorld "AR-0001" (.rollback "AR-0001-r0005")])
  have contract : RollbackContract sampleFiles (recordedStore []) (.mutation sampleWorld "AR-0001" (.rollback "AR-0001-r0005")) _ :=
    ((Run.along_append (step sampleFiles .git) (recordedRun []) _ _).mp run).2.1
  refine ⟨target, record, state, task, note, found, chosen, recorded, applied,
    (contract sampleWorld "AR-0001" "AR-0001-r0005" target record state task note rfl found chosen recorded applied).mpr ?_⟩
  intro field listed held
  have skipped := List.filter_eq_nil_iff.mp none_.symm field listed
  simpa [held] using skipped

/-- A specification that was bound after the checkpoint outlives the rollback. -/
theorem spec_outlives_rollback : ∃ (target : Task) (record : Json) (state task : Meta) (note : String),
    locate (recordedStore [bindingEvent]) "AR-0001" = .ok target ∧
      Records.findCheckpoint ((recordedStore [bindingEvent]).checkpoints "AR-0001") "AR-0001-r0005" = .ok record ∧
      record.get "state" = .obj state ∧
      applyTransition (contextOf sampleFiles sampleWorld (recordedStore [bindingEvent]) "AR-0001") target.fields
        (.rollback "AR-0001-r0005") = .ok (task, note) ∧
      state.has "spec_ref" = false ∧ task.has "spec_ref" = true ∧ ¬ Restores state target.fields task := by
  obtain ⟨target, record, state, task, note, found, chosen, recorded, applied, kept⟩ := gained_eq_ok recordedStore_gained.2
  have spec : "spec_ref" ∈ rollbackFields.filter (fun field => target.fields.has field && !state.has field) := by
    rw [← kept]
    simp
  obtain ⟨listed, apart⟩ := List.mem_filter.mp spec
  rw [Bool.and_eq_true, Bool.not_eq_true'] at apart
  have outlives := rollback_keeps chosen recorded applied listed (by decide) apart.2
  have kept_ : task.has "spec_ref" = true := by
    rw [Dict.has, outlives]
    exact apart.1
  refine ⟨target, record, state, task, note, found, chosen, recorded, applied, apart.2, kept_, fun restores => ?_⟩
  have same := restores.fields "spec_ref" (List.mem_cons_of_mem _ listed)
  rw [Dict.has, same] at kept_
  exact absurd (kept_.symm.trans apart.2) (by decide)

end Coordinator.Authority
