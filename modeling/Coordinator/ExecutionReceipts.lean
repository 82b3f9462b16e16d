import Coordinator.ExecutionFence

/-! The receipts of bound executions. A task keeps the terminal receipt of its last execution, and the
command that records a receipt does not look at whose receipt it replaces. -/

namespace Coordinator.Transitions
open Kit Dict TaskGraph

/-- The receipt that a task keeps, and the execution that it ends. -/
def Receipted (task : Meta) (executionId : String) (receipt : Json) : Prop :=
  task.get "execution_result" = receipt ∧ receipt.get "execution_id" = .str executionId

/-- The execution that a task has reserved. -/
def Executes (task : Meta) (executionId : String) : Prop := (reservation task).get "execution_id" = .str executionId

def receiptFields : List String := ["execution_reservation", "execution_result"]

/-- What a command does to the reservation and to the receipt of a task. -/
inductive Moved (task after : Meta) (m : Mutation) : Prop where
  | keeps (receipt : after.get "execution_result" = task.get "execution_result")
      (held : reservation after = reservation task ∨ (reservation after).isNull = true)
  | starts (request : Execution.StartRequest) (asked : m = .executionStart request)
      (receipt : after.get "execution_result" = task.get "execution_result") (held : Executes after request.executionId)
      (free : ¬Reserved task)
  | records (expected : Option Int) (request : Execution.ReceiptRequest) (recorded : Json)
      (asked : m = .executionResult expected request)
      (built : Execution.buildReceipt (reservation task) request = .ok recorded)
      (receipt : after.get "execution_result" = recorded) (held : reservation after = reservation task)

section moves

variable (ctx : Context) (task : Meta)

theorem start_executes (request : Execution.StartRequest) :
    Ensures (fun result => Executes result.1 request.executionId) (Execution.start ctx.world task request) := by
  unfold Execution.start
  iterate 9 refine .bind fun _ _ => ?_
  refine .pure ?_
  dsimp only
  split
  · rw [Executes, reservation, get_set, if_neg (by decide), get_set, if_pos rfl]
    rfl
  · rw [Executes, reservation, get_set, if_pos rfl]
    rfl

theorem result_records (expected : Option Int) (request : Execution.ReceiptRequest) :
    Ensures (fun result => ∃ recorded, Execution.buildReceipt (reservation task) request = .ok recorded ∧
      result.1.get "execution_result" = recorded) (Execution.result task expected request) := by
  unfold Execution.result
  iterate 2 refine .bind fun _ _ => ?_
  refine .bind fun recorded built => .bind fun _ _ => .pure ⟨recorded, built, ?_⟩
  rw [get_set, if_pos rfl]

/-- Only the result command writes a receipt, and only the start of an execution reserves it. -/
theorem transition_moved (m : Mutation) :
    Ensures (fun result => Moved task result.1 m) (applyTransition ctx task m) := by
  intro result returned
  have frame : Within m.writes task result.1 := transition_within ctx task m result returned
  have untouched (receipt : "execution_result" ∉ m.writes) (held : "execution_reservation" ∉ m.writes) :
      Moved task result.1 m := .keeps (frame.get receipt) (.inl (frame.get held))
  have cleared (receipt : "execution_result" ∉ m.writes) (gone : (reservation result.1).isNull = true) :
      Moved task result.1 m := .keeps (frame.get receipt) (.inr gone)
  cases m with
  | executionStart request =>
    exact .starts request rfl (frame.get (by simp only [Mutation.writes]; decide))
      (start_executes ctx task { request with task := ctx.name } result returned) (start_unreserved ctx task _ result returned)
  | executionResult expected request =>
    obtain ⟨recorded, built, receipt⟩ := result_records task expected request result returned
    exact .records expected request recorded rfl built receipt (frame.get (by simp only [Mutation.writes]; decide))
  | executionFinish ownerId executionId expected note =>
    exact cleared (by simp only [Mutation.writes]; decide) (finish_releases task ownerId executionId expected note result returned).1
  | recoverExecution expected =>
    exact cleared (by simp only [Mutation.writes]; decide) (recover_releases ctx task expected result returned).1
  | abandonExecution request =>
    exact cleared (by simp only [Mutation.writes]; decide) (abandon_releases ctx task request result returned).1
  | _ => exact untouched (by simp only [Mutation.writes]; decide) (by simp only [Mutation.writes]; decide)

/-- A result that is given again: the same end of the same execution. -/
structure Repeats (request : Execution.ReceiptRequest) (receipt : Json) : Prop where
  classification : receipt.get "classification" = .str request.classification
  returncode : receipt.get "returncode" = .int request.returncode
  recordedAt : receipt.get "recorded_at" = .str request.recordedAt

/-- A start reserves a new execution, and a result that is given again says the same. -/
def Careful (used : List (String × String)) (path : String) (task : Meta) : Mutation → Prop
  | .executionStart request => Reserved task ∨ (path, request.executionId) ∉ used
  | .executionResult _ request => ∀ receipt, Receipted task request.executionId receipt → Repeats request receipt
  | _ => True

/-- The receipt of an execution that is still reserved was made for this reservation. -/
def Standing (task : Meta) : Prop := ∀ executionId receipt, Executes task executionId → Receipted task executionId receipt →
  ∃ request, Execution.buildReceipt (reservation task) request = .ok receipt

/-- What has been reserved or recorded in a task counts as used. -/
structure Known (used : List (String × String)) (path : String) (task : Meta) : Prop where
  executes : ∀ executionId, Executes task executionId → (path, executionId) ∈ used
  receipted : ∀ executionId receipt, Receipted task executionId receipt → (path, executionId) ∈ used

/-- The one receipt that an execution has, as long as it stands, and while its execution is reserved. -/
structure Fixed (executionId : String) (receipt : Json) (task : Meta) : Prop where
  named : receipt.get "execution_id" = .str executionId
  stands : ∀ later, Receipted task executionId later → later = receipt
  reserved : Executes task executionId → task.get "execution_result" = receipt

section built

variable {reserved receipt again : Json} {request other : Execution.ReceiptRequest}

theorem buildReceipt_eq_ok : Execution.buildReceipt reserved request = .ok receipt ↔
    reserved.get "execution_id" = .str request.executionId ∧ reserved.get "owner" = .str request.owner ∧
    Execution.receiptValid receipt = true ∧
    receipt = .obj
      [("execution_id", .str request.executionId), ("owner", .str request.owner),
        ("envelope_digest", reserved.get "envelope_digest"), ("argv_digest", reserved.get "argv_digest"),
        ("classification", .str request.classification), ("returncode", .int request.returncode),
        ("recorded_at", .str request.recordedAt)] := by
  simp only [Execution.buildReceipt, bind_eq_ok, exists_unit, raiseIf_eq_ok, pure_eq_ok, bne, Bool.not_eq_false', Json.beq_str]
  constructor
  · rintro ⟨id, holder, valid, rfl⟩
    exact ⟨id, holder, valid, rfl⟩
  · rintro ⟨id, holder, valid, rfl⟩
    exact ⟨id, holder, valid, rfl⟩

theorem buildReceipt_id (built : Execution.buildReceipt reserved request = .ok receipt) :
    reserved.get "execution_id" = .str request.executionId ∧ receipt.get "execution_id" = .str request.executionId := by
  obtain ⟨id, -, -, rfl⟩ := buildReceipt_eq_ok.mp built
  exact ⟨id, rfl⟩

/-- A repeated result for the same reservation is the same receipt. -/
theorem buildReceipt_repeats (first : Execution.buildReceipt reserved other = .ok receipt)
    (second : Execution.buildReceipt reserved request = .ok again) (repeats : Repeats request receipt) : again = receipt := by
  obtain ⟨id, holder, -, rfl⟩ := buildReceipt_eq_ok.mp first
  obtain ⟨sameId, sameHolder, -, rfl⟩ := buildReceipt_eq_ok.mp second
  have execution := id.symm.trans sameId
  have owner := holder.symm.trans sameHolder
  have classification : Json.str other.classification = .str request.classification := repeats.classification
  have returncode : Json.int other.returncode = .int request.returncode := repeats.returncode
  have recordedAt : Json.str other.recordedAt = .str request.recordedAt := repeats.recordedAt
  rw [execution, owner, classification, returncode, recordedAt]

end built

section fixed

variable {used : List (String × String)} {path : String} {task after : Meta} {m : Mutation} {executionId : String} {receipt : Json}

theorem Executes.inj {other : String} (first : Executes task executionId) (second : Executes task other) : other = executionId :=
  Json.str.inj (second.symm.trans first)

theorem not_executes_of_null (gone : (reservation task).isNull = true) : ¬Executes task executionId := by
  rw [Executes, Json.isNull_iff.mp gone]
  exact fun held => by cases held

theorem Receipted.of_eq (receipted : Receipted after executionId receipt)
    (same : after.get "execution_result" = task.get "execution_result") : Receipted task executionId receipt :=
  ⟨same ▸ receipted.1, receipted.2⟩

theorem Executes.of_eq (executes : Executes after executionId) (same : reservation after = reservation task) :
    Executes task executionId := by
  rw [Executes, ← same]
  exact executes

/-- A receipt is recorded for the execution that is reserved. -/
theorem Moved.receipted (known : Known used path task) (moved : Moved task after m)
    (receipted : Receipted after executionId receipt) : (path, executionId) ∈ used := by
  cases moved with
  | keeps same _ => exact known.receipted executionId receipt (receipted.of_eq same)
  | starts request asked same held free => exact known.receipted executionId receipt (receipted.of_eq same)
  | records expected request recorded asked built same held =>
    obtain ⟨reserved, id⟩ := buildReceipt_id built
    have named : executionId = request.executionId := by
      rw [← Json.str.injEq, ← receipted.2, ← receipted.1, same, id]
    exact known.executes executionId (named ▸ reserved)

theorem Moved.standing (known : Known used path task) (standing : Standing task) (careful : Careful used path task m)
    (moved : Moved task after m) : Standing after := by
  intro id receipt executes receipted
  cases moved with
  | keeps same held =>
    obtain stays | gone := held
    · rw [stays]
      exact standing id receipt (executes.of_eq stays) (receipted.of_eq same)
    · exact absurd executes (not_executes_of_null gone)
  | starts request asked same held free =>
    subst asked
    obtain rfl := held.inj executes
    exact absurd (known.receipted _ receipt (receipted.of_eq same)) (careful.resolve_left free)
  | records expected request recorded asked built same held =>
    rw [held, ← receipted.1, same]
    exact ⟨request, built⟩

/-- A careful command leaves an execution with the receipt that it has. -/
theorem Moved.fixed (member : (path, executionId) ∈ used) (standing : Standing task) (careful : Careful used path task m)
    (moved : Moved task after m) (fixed : Fixed executionId receipt task) : Fixed executionId receipt after := by
  cases moved with
  | keeps same held =>
    refine ⟨fixed.named, fun later receipted => fixed.stands later (receipted.of_eq same), fun executes => ?_⟩
    obtain stays | gone := held
    · rw [same]
      exact fixed.reserved (executes.of_eq stays)
    · exact absurd executes (not_executes_of_null gone)
  | starts request asked same held free =>
    subst asked
    refine ⟨fixed.named, fun later receipted => fixed.stands later (receipted.of_eq same), fun executes => ?_⟩
    obtain rfl := held.inj executes
    exact absurd member (careful.resolve_left free)
  | records expected request recorded asked built same held =>
    subst asked
    obtain ⟨reserved, id⟩ := buildReceipt_id built
    have repeated (execution : request.executionId = executionId) : recorded = receipt := by
      subst execution
      have stands : Receipted task request.executionId receipt := ⟨fixed.reserved reserved, fixed.named⟩
      obtain ⟨first, builtFirst⟩ := standing _ receipt reserved stands
      exact buildReceipt_repeats builtFirst built (careful receipt stands)
    refine ⟨fixed.named, fun later receipted => ?_, fun executes => ?_⟩
    · have execution : request.executionId = executionId := by
        rw [← Json.str.injEq, ← id, ← same, receipted.1, receipted.2]
      rw [← receipted.1, same, repeated execution]
    · have execution : request.executionId = executionId := Executes.inj (executes.of_eq held) reserved
      rw [same, repeated execution]

end fixed

/-- Neither field is touched where both are the same. -/
theorem moved_of_same {task after moved : Meta} {m : Mutation} (same : SameOn receiptFields after moved) (moves : Moved task moved m) :
    Moved task after m := by
  have receipt : after.get "execution_result" = moved.get "execution_result" := same.get (by simp [receiptFields])
  have held : reservation after = reservation moved := same.get (by simp [receiptFields])
  cases moves with
  | keeps kept stays => exact .keeps (receipt.trans kept) (by rw [held]; exact stays)
  | starts request asked kept executes free =>
    refine .starts request asked (receipt.trans kept) ?_ free
    rw [Executes, held]
    exact executes
  | records expected request recorded asked built kept stays =>
    exact .records expected request recorded asked built (receipt.trans kept) (held.trans stays)

end moves

end Coordinator.Transitions

namespace Coordinator.Authority
open Kit Dict TaskGraph TaskValidation Transitions

/-- What the tasks of a store have reserved. -/
def reservedIds (store : Store) : List (String × String) :=
  store.tasks.filterMap (fun task =>
    match (reservation task.fields).get "execution_id" with
    | .str executionId => some (task.path, executionId)
    | _ => none)

/-- A system with all executions that its tasks have ever reserved. -/
structure Watched where
  system : System
  used : List (String × String)

def Watched.act (files : Files) (backend : Backend) (watched : Watched) (action : Action) : Watched where
  system := watched.system.act files backend action
  used := watched.used ++ reservedIds (watched.system.act files backend action).store

/-- The command of an action is careful with the task that it is for. -/
def Watched.Careful (watched : Watched) (action : Action) : Prop :=
  ∀ world name m, watched.system.mutationOf action = some (world, name, m) → ∀ task ∈ watched.system.store.tasks,
    task.fields.get "id" = .str name → Transitions.Careful watched.used task.path task.fields m

/-- Tasks under names of their own, whose executions are known and whose receipts are those of their reservations. -/
structure Watched.Sound (watched : Watched) : Prop where
  distinct : Distinct watched.system.store.tasks
  known : ∀ task ∈ watched.system.store.tasks, Known watched.used task.path task.fields
  standing : ∀ task ∈ watched.system.store.tasks, Standing task.fields

/-- A task keeps a receipt for an execution. -/
def Watched.Receipted (watched : Watched) (path executionId : String) (receipt : Json) : Prop :=
  ∃ task ∈ watched.system.store.tasks, task.path = path ∧ Transitions.Receipted task.fields executionId receipt

section watching

variable {files : Files} {backend : Backend} {watched : Watched} {action : Action} {path executionId : String} {receipt : Json}

theorem mem_reservedIds {store : Store} {task : Task} (member : task ∈ store.tasks) (executes : Executes task.fields executionId) :
    (task.path, executionId) ∈ reservedIds store := by
  refine List.mem_filterMap.mpr ⟨task, member, ?_⟩
  rw [executes]

/-- Every task after an action was there before, and it is as a careful command has left it. -/
theorem act_moved (distinct : Distinct watched.system.store.tasks) (careful : watched.Careful action) {next : Task}
    (present : next ∈ (watched.system.act files backend action).store.tasks) :
    ∃ task ∈ watched.system.store.tasks, task.path = next.path ∧
      ∃ m, Transitions.Careful watched.used task.path task.fields m ∧ Moved task.fields next.fields m := by
  have still {task : Task} (member : task ∈ watched.system.store.tasks) (here : task.path = next.path)
      (same : SameOn receiptFields next.fields task.fields) : ∃ task ∈ watched.system.store.tasks, task.path = next.path ∧
      ∃ m, Transitions.Careful watched.used task.path task.fields m ∧ Moved task.fields next.fields m :=
    ⟨task, member, here, .promote 0 "", trivial,
      .keeps (same.get (by simp [receiptFields])) (.inl (same.get (by simp [receiptFields])))⟩
  obtain same | changes := watched.system.act_changes files backend action distinct
  · rw [same] at present
    exact still present rfl fun _ _ => rfl
  · cases changes with
    | mutation world name m target task asked rewrites =>
      obtain ⟨path, at_, fields⟩ | ⟨old, -⟩ := rewrites.next present
      · obtain ⟨note, applied⟩ := rewrites.applied
        have moved := transition_moved _ target.fields m (task, note) applied
        refine ⟨target, rewrites.member, path.symm, m, careful world name m asked target rewrites.member rewrites.named, ?_⟩
        rw [fields]
        exact moved_of_same ((advanced_within task at_).sameOn (by decide)) moved
      · exact still old rfl fun _ _ => rfl
    | observation observations at_ key tasks =>
      rw [tasks] at present
      obtain ⟨task, listed, rfl⟩ := List.mem_map.mp present
      exact still listed (syncTask_path observations at_ (key task) task).symm
        ((syncTask_within observations at_ (key task) task).sameOn (by decide))

theorem act_sound (sound : watched.Sound) (careful : watched.Careful action) : (watched.act files backend action).Sound where
  distinct := watched.system.act_distinct files backend action sound.distinct
  known next present := by
    obtain ⟨task, member, here, m, care, moved⟩ := act_moved sound.distinct careful present
    refine ⟨fun id executes => List.mem_append_right _ (mem_reservedIds present executes), fun id receipt receipted => ?_⟩
    exact List.mem_append_left _ (here ▸ moved.receipted (sound.known task member) receipted)
  standing next present := by
    obtain ⟨task, member, here, m, care, moved⟩ := act_moved sound.distinct careful present
    exact moved.standing (sound.known task member) (sound.standing task member) care

/-- No action adds or removes a task. -/
theorem act_paths (files : Files) (backend : Backend) (system : System) (action : Action) (distinct : Distinct system.store.tasks) :
    (system.act files backend action).store.tasks.map (·.path) = system.store.tasks.map (·.path) := by
  obtain same | changes := system.act_changes files backend action distinct
  · rw [same]
  · cases changes with
    | mutation world name m target task asked rewrites =>
      obtain ⟨at_, body, tasks⟩ := rewrites.tasks
      rw [tasks, rewritten_paths]
    | observation observations at_ key tasks =>
      rw [tasks, List.map_map]
      exact List.map_congr_left fun task _ => syncTask_path observations at_ (key task) task

/-- A receipt stays until another execution of its task has one. -/
def Keeps (before : Watched) (_ : Action) (after : Watched) : Prop := ∀ path executionId receipt,
  before.Receipted path executionId receipt → after.Receipted path executionId receipt ∨
    ∃ other next, other ≠ executionId ∧ after.Receipted path other next

theorem fixed_of_receipted {task : Meta} (receipted : Transitions.Receipted task executionId receipt) :
    Fixed executionId receipt task :=
  ⟨receipted.2, fun _ later => later.1.symm.trans receipted.1, fun _ => receipted.1⟩

theorem act_keeps (sound : watched.Sound) (careful : watched.Careful action) :
    Keeps watched action (watched.act files backend action) := by
  rintro path id receipt ⟨task, member, here, receipted⟩
  have listed : task.path ∈ (watched.system.act files backend action).store.tasks.map (·.path) := by
    rw [act_paths files backend watched.system action sound.distinct]
    exact List.mem_map_of_mem member
  obtain ⟨next, present, same⟩ := List.mem_map.mp listed
  obtain ⟨origin, there, shared, m, care, moved⟩ := act_moved sound.distinct careful present
  obtain rfl : origin = task := nodup_map_unique sound.distinct.paths there member (shared.trans same)
  have known := (sound.known origin there).receipted id receipt receipted
  have fixed := moved.fixed known (sound.standing origin there) care (fixed_of_receipted receipted)
  cases moved with
  | keeps kept _ => exact .inl ⟨next, present, same.trans here, kept.trans receipted.1, receipted.2⟩
  | starts _ _ kept _ _ => exact .inl ⟨next, present, same.trans here, kept.trans receipted.1, receipted.2⟩
  | records expected request recorded asked built slot held =>
    have written : Transitions.Receipted next.fields request.executionId recorded := ⟨slot, (buildReceipt_id built).2⟩
    by_cases again : request.executionId = id
    · subst again
      exact .inl ⟨next, present, same.trans here, fixed.stands recorded written ▸ written⟩
    · exact .inr ⟨request.executionId, recorded, again, next, present, same.trans here, written⟩

end watching

def sampleExecution : String := "00000000000000000000000000000001"

/-- The end of the reserved sample's execution with a return code. -/
def sampleResult (returncode : Int) : Action :=
  .event (.mutation sampleWorld "AR-0001"
    (.executionResult none ⟨sampleExecution, "worker", "EXIT", returncode, "2026-01-02T23:00:00+00:00"⟩))

def watchedSample : Watched := ⟨reservedSystem, [("AR-0001.md", sampleExecution)]⟩

theorem reservedSample_unreceipted {executionId : String} {receipt : Json} :
    ¬Transitions.Receipted reservedSample executionId receipt := by
  rintro ⟨same, id⟩
  obtain rfl : receipt = .null := same.symm
  cases id

theorem watchedSample_sound : watchedSample.Sound := by
  have only {executionId : String} (executes : Executes reservedSample executionId) : executionId = sampleExecution :=
    Json.str.inj (executes.symm.trans rfl)
  refine ⟨reservedSystem_fenced.distinct, fun task member => ?_, fun task member => ?_⟩
  · obtain rfl := List.mem_singleton.mp member
    exact ⟨fun id executes => by rw [only executes]; exact List.mem_singleton_self _, fun id receipt receipted => absurd receipted reservedSample_unreceipted⟩
  · obtain rfl := List.mem_singleton.mp member
    exact fun id receipt _ receipted => absurd receipted reservedSample_unreceipted

/-- The sample's execution has a receipt with a return code. -/
def returned (watched : Watched) (returncode : Int) : Bool :=
  watched.system.store.tasks.any (fun task => task.path == "AR-0001.md" &&
    (task.fields.get "execution_result").get "execution_id" == .str sampleExecution &&
    ((task.fields.get "execution_result").get "returncode").exactInt? == some returncode)

theorem receipted_of_returned {watched : Watched} {returncode : Int} (found : returned watched returncode = true) :
    ∃ receipt, watched.Receipted "AR-0001.md" sampleExecution receipt ∧
      (receipt.get "returncode").exactInt? = some returncode := by
  obtain ⟨task, member, checked⟩ := List.any_eq_true.mp found
  simp only [Bool.and_eq_true, beq_iff_eq, Json.beq_str] at checked
  exact ⟨_, ⟨task, member, checked.1.1, rfl, checked.1.2⟩, checked.2⟩

/-- A second result of the reserved sample's execution replaces its receipt. -/
def ResultReplaced (backend : Backend) : Prop := ∃ receipt later,
  (Run.final (Watched.act sampleFiles backend) watchedSample [sampleResult 0]).Receipted "AR-0001.md" sampleExecution receipt ∧
  (Run.final (Watched.act sampleFiles backend) watchedSample [sampleResult 0, sampleResult 1]).Receipted "AR-0001.md"
    sampleExecution later ∧ later ≠ receipt

/-- Every receipt says what a result of the sample would say again. -/
def saysAgain (watched : Watched) (returncode : Int) : Bool :=
  watched.system.store.tasks.all (fun task =>
    (task.fields.get "execution_result").get "classification" == .str "EXIT" &&
    ((task.fields.get "execution_result").get "returncode").exactInt? == some returncode &&
    (task.fields.get "execution_result").get "recorded_at" == .str "2026-01-02T23:00:00+00:00")

theorem sampleResults_returned (backend : Backend) :
    returned (Run.final (Watched.act sampleFiles backend) watchedSample [sampleResult 0]) 0 = true ∧
      returned (Run.final (Watched.act sampleFiles backend) watchedSample [sampleResult 0, sampleResult 1]) 1 = true ∧
      saysAgain (Run.final (Watched.act sampleFiles backend) watchedSample [sampleResult 0]) 0 = true := by
  cases backend <;> decide +kernel

theorem result_replaced (backend : Backend) : ResultReplaced backend := by
  obtain ⟨first, second, -⟩ := sampleResults_returned backend
  obtain ⟨receipt, receipted, zero⟩ := receipted_of_returned first
  obtain ⟨later, replaced, one⟩ := receipted_of_returned second
  refine ⟨receipt, later, receipted, replaced, ?_⟩
  rintro rfl
  rw [zero] at one
  cases one

theorem careful_of_saysAgain {watched : Watched} {returncode : Int} (again : saysAgain watched returncode = true) :
    watched.Careful (sampleResult returncode) := by
  rintro world name m asked task member -
  obtain ⟨rfl, rfl, rfl⟩ : sampleWorld = world ∧ "AR-0001" = name ∧ _ = m := by
    simpa [sampleResult, System.mutationOf] using asked
  rintro receipt ⟨rfl, -⟩
  have checked := List.all_eq_true.mp again task member
  simp only [Bool.and_eq_true, beq_iff_eq, Json.beq_str] at checked
  refine ⟨checked.1.1, ?_, checked.2⟩
  cases code : (task.fields.get "execution_result").get "returncode" with
  | int n =>
    rw [code] at checked
    exact congrArg Json.int (Option.some.inj checked.1.2)
  | _ =>
    rw [code] at checked
    cases checked.1.2

end Coordinator.Authority
