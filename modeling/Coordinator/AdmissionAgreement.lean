import Coordinator.ActiveKeys
import Coordinator.DependencyGraph
import Coordinator.TextColumns

/-! Admission of a result by the two authorities. The checks and indexes of the schema say what the
validators of the Git authority say, but for the lease of an active task, which only the Git
authority compares with the clock. -/

namespace Coordinator.Authority
open Kit Dict TaskGraph TaskValidation Transitions

/-- The validation that the Git authority makes of a written task within its set. -/
def GitAdmits (files : Files) (world : Moment) (tasks : List Task) (written : Task) (m : Mutation) : Prop :=
  mutationErrors files world (rewritten tasks written) written.path written.fields m.includeLedger = []

/-- The checks of the SQLite transition and those of its schema. -/
def SqliteAdmits (files : Files) (tasks : List Task) (path name : String) (task : Meta) (at_ : String) (m : Mutation) :
    Prop :=
  transitionErrors files tasks path name task m = [] ∧ schemaAccepts tasks name (advanced task at_) = true

/-- An active task has a lease that is no time, or one that has passed. -/
def leaseLapsed (world : Moment) (task : Meta) : Bool :=
  isActive task && (claimExpires task).truthy &&
    !(expiry? (claimExpires task)).any (fun expiry => decide (world.instant < expiry))

/-- A claim where there should be none, or none where there should be one. -/
def claimMismatch (task : Meta) : Bool :=
  if isActive task then !(owner task).truthy || !(claimExpires task).truthy
  else (owner task).truthy || (claimExpires task).truthy

/-- The errors of the Git validation but for a lapsed lease. -/
def otherErrors (files : Files) (tasks : List Task) (written : Task) (m : Mutation) : List String :=
  basicTaskErrors files written.path written.fields m.includeLedger ++
    errorIf (claimMismatch written.fields) (idOf written ++ ": claim does not fit its status") ++
    mutationGlobalErrors (rewritten tasks written)

theorem claimErrors_eq_nil {world : Moment} {task : Meta} :
    claimErrors world task = [] ↔ claimMismatch task = false ∧ leaseLapsed world task = false := by
  have idle : (status task != .str "in_progress") = !isActive task := rfl
  rw [claimErrors, claimMismatch, leaseLapsed, idle]
  cases isActive task with
  | false => simp [Bool.or_eq_false_iff]
  | true =>
    simp only [Bool.not_true, Bool.false_eq_true, ↓reduceIte, List.append_eq_nil_iff, errorIf_eq_nil,
      activeExpiryErrors, Bool.true_and, Bool.or_eq_false_iff, Bool.not_eq_false']
    cases (claimExpires task).truthy with
    | false => simp
    | true =>
      cases expiry? (claimExpires task) with
      | none => simp
      | some expiry => simp

/-- The Git authority also asks that the lease has not lapsed. -/
theorem gitAdmits_iff {files : Files} {world : Moment} {tasks : List Task} {written : Task} {m : Mutation} :
    GitAdmits files world tasks written m ↔
      otherErrors files tasks written m = [] ∧ leaseLapsed world written.fields = false := by
  simp only [GitAdmits, mutationErrors, otherErrors, List.append_eq_nil_iff, errorIf_eq_nil, claimErrors_eq_nil]
  tauto

/-! Rows. -/

theorem textual_claim {task : Meta} (textual : Textual task) {key : String} (listed : key ∈ textKeys) :
    ∃ word, textColumn task key = some word ∧ ((task.get key).truthy = true ↔ word ≠ "") := by
  obtain ⟨same, shown⟩ | ⟨word, same, shown⟩ := textual.column listed
  · exact ⟨"", shown, by simp [same]⟩
  · exact ⟨word, shown, by simp [same]⟩

/-- A row of valid textual metadata meets its checks exactly when the claim fits the status. -/
theorem rowValid_iff {files : Files} {includeLedger : Bool} {task : Meta} (textual : Textual task)
    (valid : Valid files includeLedger task) : rowValid task = true ↔ claimMismatch task = false := by
  obtain ⟨number, -, current, positive⟩ := valid.revision_pos
  obtain ⟨state, named, known⟩ := valid.status_mem
  have shown : textColumn task "status" = some state := textColumn_str named
  obtain ⟨holder, held, owned⟩ := textual_claim textual (show "owner" ∈ textKeys by decide)
  obtain ⟨lease, leased, ends⟩ := textual_claim textual (show "claim_expires" ∈ textKeys by decide)
  obtain ⟨branch, branched, -⟩ := textual_claim textual (show "branch" ∈ textKeys by decide)
  obtain ⟨place, placed, -⟩ := textual_claim textual (show "worktree_key" ∈ textKeys by decide)
  have listed : statuses.contains state = true := by simpa using known
  have active : isActive task = decide (state = "in_progress") := by
    rw [isActive, named]
    rfl
  have truthyOwner : (owner task).truthy = decide (holder ≠ "") := by
    rw [Bool.eq_iff_iff, decide_eq_true_eq]
    exact owned
  have truthyLease : (claimExpires task).truthy = decide (lease ≠ "") := by
    rw [Bool.eq_iff_iff, decide_eq_true_eq]
    exact ends
  have counted : decide (1 ≤ Meta.revision task) = true := by
    rw [decide_eq_true_eq]
    omega
  simp only [rowValid, shown, held, leased, branched, placed, counted, listed, Option.isSome_some, Bool.true_and,
    claimMismatch, active, truthyOwner, truthyLease]
  by_cases here : state = "in_progress" <;> by_cases free : holder = "" <;> by_cases open_ : lease = "" <;>
    simp [here, free, open_]

/-! Identities and keys. -/

/-- Two tasks have different names and no text column in common while both are active. -/
def Separate (a b : Task) : Prop :=
  idOf a ≠ idOf b ∧ (isActive a.fields = true → isActive b.fields = true → ∀ field ∈ activeFields,
    textColumn b.fields field ≠ some "" → textColumn a.fields field ≠ textColumn b.fields field)

theorem Separate.symm {a b : Task} (separate : Separate a b) : Separate b a :=
  ⟨separate.1.symm, fun activeB activeA field listed filled same =>
    separate.2 activeA activeB field listed (same ▸ filled) same.symm⟩

instance : Std.Symm Separate := ⟨fun _ _ => Separate.symm⟩

theorem activeFields_textual : ∀ field ∈ activeFields, field ∈ textKeys := by decide

theorem apart_iff {a b : Task} (textualA : Textual a.fields) (textualB : Textual b.fields) :
    Apart a b ↔ Separate a b := by
  constructor
  · intro apart
    refine ⟨apart.names, fun activeA activeB field listed filled same => ?_⟩
    have text := activeFields_textual field listed
    have present := (textualB.truthy_iff text).mpr filled
    have equal := (textualB.same_iff textualA text present).mpr same
    rw [apart.keys activeA activeB field listed present] at equal
    cases equal
  · rintro ⟨names, keys⟩
    refine ⟨names, fun activeA activeB field listed present => ?_⟩
    have text := activeFields_textual field listed
    rw [Bool.eq_false_iff]
    intro equal
    exact keys activeA activeB field listed ((textualB.truthy_iff text).mp present)
      ((textualB.same_iff textualA text present).mp equal)

/-- Identities are clean exactly when any two tasks are separate. -/
theorem identitiesErrors_iff {tasks : List Task} (textual : ∀ task ∈ tasks, Textual task.fields)
    (nodup : tasks.Nodup) : identitiesErrors [] tasks = [] ↔ ∀ a ∈ tasks, ∀ b ∈ tasks, a ≠ b → Separate a b := by
  have hashable : ∀ task ∈ tasks, KeysHashable task := fun task member _ field listed _ =>
    (textual task member).hashable (activeFields_textual field listed)
  rw [identitiesErrors_eq_nil]
  constructor
  · rintro ⟨-, apart⟩
    have separate : tasks.Pairwise Separate :=
      apart.imp_of_mem fun first second pair => (apart_iff (textual _ first) (textual _ second)).mp pair
    exact fun a first b second other => separate.forall first second other
  · intro separate
    refine ⟨hashable, nodup.pairwise_of_forall_ne fun a first b second other => ?_⟩
    exact (apart_iff (textual a first) (textual b second)).mpr (separate a first b second other)

/-! The result of a transition within its set. -/

section results

variable {files : Files} {tasks : List Task} {target : Task} {name note : String} {ctx : Context} {m : Mutation} {task : Meta}

/-- The result as its validation before the write sees it. -/
def projected (target : Task) (task : Meta) : Task := { target with fields := AutonomyLimits.nextRevisionProjection task }

theorem committed_alike (target : Task) (task : Meta) (note at_ : String) : Alike (committed target task note at_) (projected target task) := by
  have frame : Within ["updated_at"] (AutonomyLimits.nextRevisionProjection task) (advanced task at_) :=
    (within_refl _ _).set (by simp) _
  have state : statusOf (committed target task note at_) = statusOf (projected target task) := frame.get (by decide)
  exact ⟨frame.sameOn (by decide), by rw [state], by rw [state]⟩

/-- What is written under a path stands for what was validated there. -/
theorem rewritten_projected (note at_ : String) : rewritten tasks (committed target task note at_) =
    (rewritten tasks (projected target task)).map fun other =>
      if other.path = target.path then committed target task note at_ else other := by
  have twice : rewritten (rewritten tasks (projected target task)) (committed target task note at_) =
      rewritten tasks (committed target task note at_) := rewritten_rewritten rfl
  exact twice.symm

theorem relations_projected (distinct : Distinct tasks) (member : target ∈ tasks) (named : target.fields.get "id" = .str name)
    (note at_ : String) :
    (graphErrors (withFields tasks name (AutonomyLimits.nextRevisionProjection task)) = [] ∧
      hierarchyErrors (withFields tasks name (AutonomyLimits.nextRevisionProjection task)) = [] ∧
      supersessionErrors (withFields tasks name (AutonomyLimits.nextRevisionProjection task)) = []) ↔
    (graphErrors (rewritten tasks (committed target task note at_)) = [] ∧
      hierarchyErrors (rewritten tasks (committed target task note at_)) = [] ∧
      supersessionErrors (rewritten tasks (committed target task note at_)) = []) := by
  have alike : ∀ other ∈ rewritten tasks (projected target task),
      Alike (if other.path = target.path then committed target task note at_ else other) other := by
    intro other present
    obtain rfl | ⟨-, apart⟩ := mem_rewritten present
    · rw [if_pos (show (projected target task).path = target.path from rfl)]
      exact committed_alike target task note at_
    · rw [if_neg (show other.path ≠ target.path from apart)]
      exact ⟨fun _ _ => rfl, rfl, rfl⟩
  rw [withFields_eq distinct member named, rewritten_projected, graphErrors_map alike, hierarchyErrors_map alike,
    supersessionErrors_map alike]
  rfl

variable (applied : applyTransition ctx target.fields m = .ok (task, note))

include applied

/-- The time of a change does not decide whether its result is valid. -/
theorem projected_valid {includeLedger : Bool} (valid : Valid files true target.fields) (clock : Clock) :
    Valid files includeLedger (AutonomyLimits.nextRevisionProjection task) ↔ Valid files includeLedger (advanced task clock.stamp) := by
  refine ⟨restamped_valid clock, fun later => ?_⟩
  have frame : Within m.writes target.fields task := transition_within _ _ m (task, note) applied
  have kept : (AutonomyLimits.nextRevisionProjection task).find "updated_at" = target.fields.find "updated_at" :=
    ((within_refl ["task_revision"] task).set (by simp) _ "updated_at" (by decide)).trans (frame _ (not_mem_writes m (by simp)))
  have back : Within ["updated_at"] (advanced task clock.stamp) (AutonomyLimits.nextRevisionProjection task) := fun key other =>
    ((within_refl ["updated_at"] (AutonomyLimits.nextRevisionProjection task)).set (by simp) _ key other).symm
  have same : SameOn ["updated_at"] target.fields (AutonomyLimits.nextRevisionProjection task) := fun key listed => by
    rw [List.mem_singleton.mp listed, kept]
  refine later.change back (by decide) (fun key required listed => ?_) fun check listed => ?_
  · rw [List.mem_singleton.mp listed, ← same.has (by simp)]
    exact valid.required _ (List.mem_singleton.mp listed ▸ required)
  · have touches : touched files includeLedger ["updated_at"] = [textCheck "updated_at", updatedAtCheck] := rfl
    rw [touches] at listed
    simp only [List.mem_cons, List.not_mem_nil, or_false] at listed
    obtain rfl | rfl := listed
    · exact (textCheck "updated_at").sees same (valid.passed _ (by simp [checks]))
    · exact updatedAtCheck.sees same (valid.passed _ (by simp [checks]))

end results

/-! The rows of a set. -/

section rows

variable {files : Files} {tasks : List Task} {target written : Task} {name : String}

/-- The row of a written task takes no key of another active row exactly when it is separate from all others. -/
theorem keysFree_iff (distinct : Distinct tasks) (member : target ∈ tasks) (named : target.fields.get "id" = .str name)
    (identity : idOf written = idOf target) :
    (∀ field ∈ activeFields, activeKeyTaken tasks name written.fields field = false) ↔
      ∀ other ∈ tasks, other.path ≠ target.path → Separate other written := by
  have foreign {other : Task} (present : other ∈ tasks) :
      (other.fields.get "id" != .str name) = true ↔ other.path ≠ target.path := by
    rw [bne, Bool.not_eq_true', Bool.eq_false_iff, Ne, named_iff_path distinct member named present]
  constructor
  · intro free other present apart
    refine ⟨fun same => apart ?_, fun active activeWritten field listed filled same => ?_⟩
    · exact congrArg Task.path (nodup_map_unique distinct.ids present member (same.trans identity))
    · have taken : activeKeyTaken tasks name written.fields field = true := by
        rw [activeKeyTaken, activeWritten, Bool.true_and, Bool.and_eq_true]
        refine ⟨by simpa using filled, List.any_eq_true.mpr ⟨other, present, ?_⟩⟩
        simp [(foreign present).mpr apart, active, same]
      rw [free field listed] at taken
      cases taken
  · intro separate field listed
    rw [Bool.eq_false_iff]
    intro taken
    rw [activeKeyTaken, Bool.and_eq_true, Bool.and_eq_true, List.any_eq_true] at taken
    obtain ⟨⟨active, filled⟩, other, present, held⟩ := taken
    rw [Bool.and_eq_true, Bool.and_eq_true] at held
    obtain ⟨⟨apart, activeOther⟩, same⟩ := held
    exact (separate other present ((foreign present).mp apart)).2 activeOther active field listed (by simpa using filled)
      (by simpa using same)

theorem identities_rewritten (distinct : Distinct tasks) (member : target ∈ tasks)
    (path : written.path = target.path) (identity : idOf written = idOf target)
    (textual : ∀ task ∈ tasks, Textual task.fields) (textualWritten : Textual written.fields)
    (clean : identitiesErrors [] tasks = []) :
    identitiesErrors [] (rewritten tasks written) = [] ↔ ∀ other ∈ tasks, other.path ≠ target.path → Separate other written := by
  have distinct_ := rewritten_distinct distinct member path identity
  have textual_ : ∀ task ∈ rewritten tasks written, Textual task.fields := fun task present => by
    obtain rfl | ⟨old, -⟩ := mem_rewritten present
    · exact textualWritten
    · exact textual task old
  rw [identitiesErrors_iff textual (List.Nodup.of_map _ distinct.paths)] at clean
  rw [identitiesErrors_iff textual_ (List.Nodup.of_map _ distinct_.paths)]
  constructor
  · intro separate other present apart
    have elsewhere : other.path ≠ written.path := path ▸ apart
    exact separate other (mem_rewritten_of_ne present elsewhere) written (rewritten_mem member path) fun same =>
      elsewhere (congrArg Task.path same)
  · intro separate a first b second other
    obtain rfl | ⟨oldA, elsewhereA⟩ := mem_rewritten first
    · obtain rfl | ⟨oldB, elsewhereB⟩ := mem_rewritten second
      · exact absurd rfl other
      · exact (separate b oldB (path ▸ elsewhereB)).symm
    · obtain rfl | ⟨oldB, -⟩ := mem_rewritten second
      · exact separate a oldA (path ▸ elsewhereA)
      · exact clean a oldA b oldB other

theorem dependencyRows_of_graph (distinct : Distinct tasks) (member : target ∈ tasks) (named : target.fields.get "id" = .str name)
    (path : written.path = target.path) (identity : idOf written = idOf target)
    (texts : ∀ task ∈ tasks, ∃ word, task.fields.get "id" = .str word)
    (clean : graphErrors (rewritten tasks written) = []) : dependencyRowsValid tasks name written.fields = true := by
  obtain ⟨-, shapes⟩ := dependencyShape_eq_nil.mp (List.append_eq_nil_iff.mp clean).1
  obtain ⟨other, listed, apart, known⟩ := shapes written (rewritten_mem member path)
  rw [rewritten_ids distinct member path identity] at other listed apart known
  simp only [dependencyRowsValid, listed, Json.isArr, Json.items, Bool.true_and, Bool.and_eq_true, List.all_eq_true, List.mem_map,
    forall_exists_index, and_imp, forall_apply_eq_imp_iff₂, RetryCircuit.distinct_strs, Json.isStr, List.any_eq_true]
  refine ⟨fun item present => ⟨?_, ?_⟩, apart⟩
  · obtain ⟨holder, there, same⟩ := List.mem_map.mp (known item present)
    obtain ⟨word, text⟩ := texts holder there
    refine ⟨trivial, holder, there, ?_⟩
    rw [text, ← same, named_idOf text, Json.beq_str]
  · rw [bne, Bool.not_eq_true', Bool.eq_false_iff, Ne, Json.beq_str]
    intro same
    cases same
    exact other (by rw [identity, named_idOf named]; exact present)

end rows

/-- A reached set of the SQLite authority: its own names, text columns that are textual, and waiting calls that it takes. -/
structure SqliteReached (system : System) : Prop where
  distinct : Distinct system.store.tasks
  textual : ∀ task ∈ system.store.tasks, Textual task.fields
  supported : ∀ waiting ∈ system.pending, requireSqliteAuthority waiting.mutation = .ok ()

theorem syncTask_textual {observations : List Observation} {at_ key : String} {task : Task} (textual : Textual task.fields) :
    Textual (syncTask observations at_ key task).fields :=
  textual.within (syncTask_within observations at_ key task) (by decide)

theorem SqliteReached.act {files : Files} {system : System} (reached : SqliteReached system) (action : Action) :
    SqliteReached (system.act files .sqlite action) := by
  have rewrite {after : List Task} {target : Task} {name note at_ body : String} {world : Moment} {m : Mutation} {task : Meta}
      (member : target ∈ system.store.tasks) (supported : requireSqliteAuthority m = .ok ())
      (applied : applyTransition (contextOf files world system.store name) target.fields m = .ok (task, note))
      (tasks : after = rewritten system.store.tasks { target with fields := advanced task at_, body := body }) :
      ∀ next ∈ after, Textual next.fields := by
    intro next present
    rw [tasks] at present
    obtain rfl | ⟨old, -⟩ := mem_rewritten present
    · exact (transition_textual (reached.textual target member) supported (task, note) applied).advanced at_
    · exact reached.textual next old
  refine ⟨system.act_distinct files .sqlite action reached.distinct, ?_, ?_⟩
  · obtain same | ⟨event, rfl, accepted⟩ | ⟨-, index, world, waiting, rfl, found, accepted⟩ := system.act_store files .sqlite action
    · rw [same]
      exact reached.textual
    · cases event with
      | mutation world name m =>
        obtain ⟨target, task, note, commits, -, supported⟩ := sqliteMutate_eq_ok reached.distinct accepted
        exact rewrite commits.member supported commits.applied commits.tasks
      | observation world observations =>
        obtain ⟨⟨key, tasks⟩, -, -⟩ := observation_eq_ok accepted
        rw [tasks]
        intro next present
        obtain ⟨task, member, rfl⟩ := List.mem_map.mp present
        exact syncTask_textual (reached.textual task member)
    · obtain ⟨target, task, note, located, -, applied, -, -, -, -, tasks⟩ := commitPrepared_eq_ok accepted
      obtain ⟨member, named⟩ := locate_eq_ok located
      rw [updatedRow_eq reached.distinct member named] at tasks
      exact rewrite member (reached.supported waiting (List.mem_of_getElem? found)) applied tasks
  · intro waiting member
    obtain there | ⟨-, world, prepared, -⟩ := System.act_pending member
    · exact reached.supported waiting there
    · exact (prepare_eq_ok prepared).1

/-- The two authorities admit the same result of a mutation, but for a lapsed lease. -/
theorem admits_iff {files : Files} {tasks : List Task} {target : Task} {name note : String} {ctx : Context} {m : Mutation} {task : Meta}
    (valid : ValidTasks files tasks) (textual : ∀ task ∈ tasks, Textual task.fields) (member : target ∈ tasks)
    (named : target.fields.get "id" = .str name) (supported : requireSqliteAuthority m = .ok ())
    (applied : applyTransition ctx target.fields m = .ok (task, note)) (world : Moment) :
    otherErrors files tasks (committed target task note world.now) m = [] ↔
      SqliteAdmits files tasks target.path name task world.now m := by
  have distinct := ValidTasks.distinct valid
  have frame : Within m.writes target.fields task := transition_within _ _ m (task, note) applied
  have identity : idOf (committed target task note world.now) = idOf target :=
    taskText_advanced.trans (frame.textOr (not_mem_writes m (by simp)))
  have path : (committed target task note world.now).path = target.path := rfl
  have textualWritten : Textual (committed target task note world.now).fields :=
    (transition_textual (textual target member) supported (task, note) applied).advanced world.now
  have clean := valid.relations
  simp only [mutationGlobalErrors, List.append_eq_nil_iff] at clean
  have texts : ∀ task ∈ tasks, ∃ word, task.fields.get "id" = .str word := fun task present => by
    obtain ⟨word, text, -⟩ := (valid.members task present).id_str
    exact ⟨word, text⟩
  have keys := keysFree_iff distinct member named identity
  have rows := identities_rewritten distinct member path identity textual textualWritten clean.1.1.1
  have relations := @relations_projected tasks target name task distinct member named note world.now
  have same : Valid files m.includeLedger (AutonomyLimits.nextRevisionProjection task) ↔
      Valid files m.includeLedger (advanced task world.now) := projected_valid applied (valid.members target member) world.clock
  simp only [otherErrors, SqliteAdmits, mutationGlobalErrors, List.append_eq_nil_iff, errorIf_eq_nil, basicTaskErrors_eq_nil,
    transitionErrors_eq_nil, relations, rows, ← keys, same, schemaAccepts, Bool.and_eq_true, List.all_eq_true, Bool.not_eq_true']
  constructor
  · rintro ⟨⟨fields, fits⟩, ⟨⟨free, graph⟩, hierarchy⟩, successors⟩
    exact ⟨⟨fields, graph, hierarchy, successors⟩, ⟨(rowValid_iff textualWritten fields).mpr fits, free⟩,
      dependencyRows_of_graph distinct member named path identity texts graph⟩
  · rintro ⟨⟨fields, graph, hierarchy, successors⟩, ⟨row, free⟩, -⟩
    exact ⟨⟨fields, (rowValid_iff textualWritten fields).mp row⟩, ⟨⟨free, graph⟩, hierarchy⟩, successors⟩

end Coordinator.Authority
