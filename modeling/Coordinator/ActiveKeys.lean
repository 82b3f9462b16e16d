import Coordinator.Clients
import Coordinator.Kit.Run
import Mathlib.Data.List.Pairwise

/-! The keys of active tasks. The Git authority compares the whole task set before it writes; the
SQLite authority has partial unique indexes. Either way no two active tasks share an owner, a branch
or a worktree, whatever the clients do. -/

namespace Coordinator.Authority
open Kit Dict TaskGraph TaskValidation Transitions

/-- Two active tasks, one apart from the other. -/
structure BothActive (tasks : List Task) (a b : Task) : Prop where
  first : a ∈ tasks
  second : b ∈ tasks
  apart : a.path ≠ b.path
  left : isActive a.fields = true
  right : isActive b.fields = true

/-- Active tasks have different owners and, where they have any, different branches and worktree keys. -/
structure Exclusive (tasks : List Task) : Prop where
  owners : ∀ a b, BothActive tasks a b → owner a.fields ≠ owner b.fields
  branches : ∀ a b, BothActive tasks a b → ∀ branch, branch ≠ "" → a.fields.get "branch" = .str branch →
    b.fields.get "branch" ≠ .str branch
  worktrees : ∀ a b, BothActive tasks a b → ∀ key, key ≠ "" → a.fields.get "worktree_key" = .str key →
    b.fields.get "worktree_key" ≠ .str key

/-- What the validation of the Git authority sees to. -/
structure GitKeys (tasks : List Task) : Prop where
  distinct : Distinct tasks
  identities : identitiesErrors [] tasks = []
  owned : ∀ task ∈ tasks, isActive task.fields = true → (owner task.fields).truthy = true

/-- What the checks and indexes of the SQLite schema see to. -/
structure SqliteKeys (tasks : List Task) : Prop where
  distinct : Distinct tasks
  rows : ∀ task ∈ tasks, rowValid task.fields = true
  unique : ∀ a b, BothActive tasks a b → ∀ field ∈ activeFields, textColumn a.fields field ≠ some "" →
    textColumn a.fields field ≠ textColumn b.fields field

def Backend.Keys : Backend → List Task → Prop
  | .git => GitKeys
  | .sqlite => SqliteKeys

/-! The Git authority. -/

theorem beq_self_of_hashable {value : Json} (hashable : ExecutionEnvelope.hashable value = true) :
    (value == value) = true := by
  change Json.eq value value = true
  cases value <;> simp_all [Json.eq, Json.decimalEq, ExecutionEnvelope.hashable]

theorem apart_either {tasks : List Task} (clean : identitiesErrors [] tasks = []) {a b : Task}
    (both : BothActive tasks a b) : Apart a b ∨ Apart b a := by
  have symmetric : Std.Symm (fun x y => Apart x y ∨ Apart y x) := ⟨fun _ _ => Or.symm⟩
  have pairs : tasks.Pairwise (fun x y => Apart x y ∨ Apart y x) := (identitiesErrors_eq_nil.mp clean).2.imp Or.inl
  exact pairs.forall both.first both.second fun same => both.apart (congrArg Task.path same)

theorem GitKeys.differ {tasks : List Task} (keys : GitKeys tasks) {a b : Task} (both : BothActive tasks a b)
    {field : String} (listed : field ∈ activeFields) (present : (a.fields.get field).truthy = true) :
    a.fields.get field ≠ b.fields.get field := by
  intro same
  have hashable := (identitiesErrors_eq_nil.mp keys.identities).1 a both.first both.left field listed present
  have equal := beq_self_of_hashable hashable
  obtain pair | pair := apart_either keys.identities both
  · have differs := pair.keys both.left both.right field listed (same ▸ present)
    rw [← same, equal] at differs
    cases differs
  · have differs := pair.keys both.right both.left field listed present
    rw [← same, equal] at differs
    cases differs

theorem GitKeys.exclusive {tasks : List Task} (keys : GitKeys tasks) : Exclusive tasks := by
  have texts (field : String) (listed : field ∈ activeFields) (a b : Task) (both : BothActive tasks a b) (word : String)
      (filled : word ≠ "") (known : a.fields.get field = .str word) : b.fields.get field ≠ .str word := by
    have present : (a.fields.get field).truthy = true := by simpa [known] using filled
    exact fun same => keys.differ both listed present (known.trans same.symm)
  exact ⟨fun a b both => keys.differ both (show "owner" ∈ _ by decide) (keys.owned a both.first both.left),
    texts "branch" (by decide), texts "worktree_key" (by decide)⟩

/-! The SQLite authority. -/

theorem textColumn_same {names : List String} {a b : Meta} (same : SameOn names a b) {field : String}
    (listed : field ∈ names) : textColumn a field = textColumn b field := by
  rw [textColumn, textColumn, same.find listed]

/-- A column that holds a text is the same for the same value. -/
theorem textColumn_of_get {a b : Meta} {field word : String} (shown : textColumn a field = some word)
    (filled : word ≠ "") (same : a.get field = b.get field) : textColumn b field = some word := by
  unfold textColumn at shown ⊢
  unfold Dict.get at same
  cases held : a.find field with
  | none =>
    rw [held] at shown
    exact absurd (Option.some.inj shown).symm filled
  | some value =>
    rw [held] at shown same
    cases there : b.find field with
    | none =>
      rw [there] at same
      simp only [Option.getD_some, Option.getD_none] at same
      subst same
      cases shown
    | some other =>
      rw [there] at same
      simp only [Option.getD_some] at same
      subst same
      exact shown

/-- An active row names its owner. -/
theorem rowValid_owner {task : Meta} (row : rowValid task = true) (active : isActive task = true) :
    ∃ word, word ≠ "" ∧ textColumn task "owner" = some word := by
  have state : textColumn task "status" = some "in_progress" := textColumn_str ((Json.beq_str _ _).mp active)
  unfold rowValid at row
  rw [state] at row
  cases held : textColumn task "owner" with
  | none => simp [held] at row
  | some word =>
    cases ends : textColumn task "claim_expires" with
    | none => simp [held, ends] at row
    | some lease =>
      simp only [held, ends, if_true, Bool.and_eq_true, bne_iff_ne] at row
      exact ⟨word, row.2.1, rfl⟩

def rowFields : List String := ["status", "owner", "claim_expires", "branch", "worktree_key"]

theorem rowValid_kept {a b : Meta} (same : SameOn rowFields a b) (grown : Meta.revision b ≤ Meta.revision a)
    (row : rowValid b = true) : rowValid a = true := by
  have column {field : String} (listed : field ∈ rowFields) : textColumn a field = textColumn b field :=
    textColumn_same same listed
  have later (start : 1 ≤ Meta.revision b) : 1 ≤ Meta.revision a := by omega
  unfold rowValid at row ⊢
  rw [column (show "status" ∈ rowFields by decide), column (show "owner" ∈ rowFields by decide),
    column (show "claim_expires" ∈ rowFields by decide), column (show "branch" ∈ rowFields by decide),
    column (show "worktree_key" ∈ rowFields by decide)]
  split at row
  · simp only [Bool.and_eq_true, decide_eq_true_eq] at row ⊢
    exact ⟨⟨⟨row.1.1.1, later row.1.1.2⟩, row.1.2⟩, row.2⟩
  · cases row

theorem SqliteKeys.exclusive {tasks : List Task} (keys : SqliteKeys tasks) : Exclusive tasks := by
  have texts (field : String) (listed : field ∈ activeFields) (a b : Task) (both : BothActive tasks a b) (word : String)
      (filled : word ≠ "") (known : a.fields.get field = .str word) : b.fields.get field ≠ .str word := by
    have present : textColumn a.fields field ≠ some "" := by
      rw [textColumn_str known]
      simpa using filled
    intro same
    exact keys.unique a b both field listed present ((textColumn_str known).trans (textColumn_str same).symm)
  refine ⟨fun a b both same => ?_, texts "branch" (by decide), texts "worktree_key" (by decide)⟩
  obtain ⟨word, filled, held⟩ := rowValid_owner (keys.rows a both.first) both.left
  exact keys.unique a b both "owner" (by decide) (by rw [held]; simpa using filled)
    (held.trans (textColumn_of_get held filled same).symm)

theorem Backend.Keys.exclusive {backend : Backend} {tasks : List Task} (keys : backend.Keys tasks) :
    Exclusive tasks := by
  cases backend with
  | git => exact GitKeys.exclusive keys
  | sqlite => exact SqliteKeys.exclusive keys

theorem Backend.Keys.distinct {backend : Backend} {tasks : List Task} (keys : backend.Keys tasks) : Distinct tasks := by
  cases backend with
  | git => exact GitKeys.distinct keys
  | sqlite => exact SqliteKeys.distinct keys

/-! Steps. -/

section steps

variable {files : Files} {store after : Store}

theorem gitKeys_mutation {world : Moment} {name : String} {m : Mutation} (keys : GitKeys store.tasks)
    (accepted : gitMutate files world store name m = .ok after) : GitKeys after.tasks := by
  obtain ⟨target, task, note, commits, claim, relations, -⟩ := gitMutate_eq_ok accepted
  simp only [mutationGlobalErrors, List.append_eq_nil_iff] at relations
  refine ⟨commits.rewrites.distinct keys.distinct, relations.1.1.1, fun other member active => ?_⟩
  rw [commits.tasks] at member
  obtain rfl | ⟨old, -⟩ := mem_rewritten member
  · have idle : (status (advanced task world.now) != .str "in_progress") = false := by
      rw [bne, Bool.not_eq_false']
      exact active
    rw [claimErrors, idle, if_neg (by simp), List.append_eq_nil_iff, errorIf_eq_nil, Bool.not_eq_false'] at claim
    exact claim.1
  · exact keys.owned other old active

theorem synchronized_fields (observations : List Observation) (at_ key : String) (task : Task) :
    SameOn rowFields (syncTask observations at_ key task).fields task.fields :=
  (syncTask_within observations at_ key task).sameOn (by decide)

theorem isActive_same {a b : Meta} (same : SameOn rowFields a b) : isActive a = isActive b := by
  have state : status a = status b := same.get (by decide)
  rw [isActive, isActive, state]

theorem gitKeys_observation {observations : List Observation} {at_ : String} {key : Task → String}
    (keys : GitKeys store.tasks) :
    GitKeys (store.tasks.map (fun task => syncTask observations at_ (key task) task)) := by
  refine ⟨synchronized_distinct keys.distinct observations at_ key,
    identitiesErrors_map (fun task _ => syncTask_quieter observations at_ (key task) task) keys.identities,
    fun task member active => ?_⟩
  obtain ⟨old, present, rfl⟩ := List.mem_map.mp member
  have same := synchronized_fields observations at_ (key old) old
  have holder : owner (syncTask observations at_ (key old) old).fields = owner old.fields := same.get (by decide)
  rw [holder]
  exact keys.owned old present ((isActive_same same) ▸ active)

/-- The indexes hold between a row that the schema accepts and all others. -/
theorem sqliteKeys_row {name : String} {target written : Task} (keys : SqliteKeys store.tasks)
    (member : target ∈ store.tasks) (named : target.fields.get "id" = .str name) (path : written.path = target.path)
    (identity : idOf written = idOf target) (row : schemaAccepts store.tasks name written.fields = true) :
    SqliteKeys (rewritten store.tasks written) := by
  simp only [schemaAccepts, Bool.and_eq_true, List.all_eq_true, Bool.not_eq_true'] at row
  obtain ⟨⟨valid, free⟩, -⟩ := row
  have apart {other : Task} (present : other ∈ store.tasks) (elsewhere : other.path ≠ written.path)
      (activeOther : isActive other.fields = true) (activeWritten : isActive written.fields = true) {field : String}
      (listed : field ∈ activeFields) (filled : textColumn written.fields field ≠ some "") :
      textColumn other.fields field ≠ textColumn written.fields field := by
    intro same
    have taken : activeKeyTaken store.tasks name written.fields field = true := by
      rw [activeKeyTaken, activeWritten, Bool.true_and, Bool.and_eq_true]
      refine ⟨by simpa using filled, List.any_eq_true.mpr ⟨other, present, ?_⟩⟩
      have foreign : (other.fields.get "id" != .str name) = true := by
        rw [bne, Bool.not_eq_true', Bool.eq_false_iff]
        intro shared
        exact elsewhere (((named_iff_path keys.distinct member named present).mp shared).trans path.symm)
      simp [foreign, activeOther, same]
    rw [free field listed] at taken
    cases taken
  refine ⟨rewritten_distinct keys.distinct member path identity, fun other present => ?_, fun a b both => ?_⟩
  · obtain rfl | ⟨old, -⟩ := mem_rewritten present
    · exact valid
    · exact keys.rows other old
  · intro field listed filled same
    obtain ⟨first, second, separate, left, right⟩ := both
    obtain rfl | ⟨oldA, elsewhereA⟩ := mem_rewritten first
    · obtain rfl | ⟨oldB, elsewhereB⟩ := mem_rewritten second
      · exact separate rfl
      · exact apart oldB elsewhereB right left listed filled same.symm
    · obtain rfl | ⟨oldB, -⟩ := mem_rewritten second
      · exact apart oldA elsewhereA left right listed (same ▸ filled) same
      · exact keys.unique a b ⟨oldA, oldB, separate, left, right⟩ field listed filled same

theorem syncTask_revision (observations : List Observation) (at_ key : String) (task : Task) :
    Meta.revision task.fields ≤ Meta.revision (syncTask observations at_ key task).fields := by
  obtain ⟨-, same⟩ | ⟨seen, -, same⟩ := syncTask_cases observations at_ key task
  · rw [same]
  · have kept : (task.fields.update seen.values).get "task_revision" = task.fields.get "task_revision" :=
      (values_within seen task.fields).get (by decide)
    have revision : Meta.revision (task.fields.update seen.values) = Meta.revision task.fields := by
      rw [Meta.revision, Meta.revision, kept]
    rw [same]
    change Meta.revision task.fields ≤ Meta.revision (advanced (task.fields.update seen.values) at_)
    rw [revision_advanced, revision]
    exact Int.le_add_one (le_refl _)

theorem sqliteKeys_observation {observations : List Observation} {at_ : String} {key : Task → String}
    (keys : SqliteKeys store.tasks) :
    SqliteKeys (store.tasks.map (fun task => syncTask observations at_ (key task) task)) := by
  have same (task : Task) := synchronized_fields observations at_ (key task) task
  refine ⟨synchronized_distinct keys.distinct observations at_ key, fun task member => ?_, fun a b both => ?_⟩
  · obtain ⟨old, present, rfl⟩ := List.mem_map.mp member
    exact rowValid_kept (same old) (syncTask_revision observations at_ (key old) old) (keys.rows old present)
  · obtain ⟨first, second, separate, left, right⟩ := both
    obtain ⟨oldA, presentA, rfl⟩ := List.mem_map.mp first
    obtain ⟨oldB, presentB, rfl⟩ := List.mem_map.mp second
    rw [syncTask_path, syncTask_path] at separate
    intro field listed
    have column (task : Task) : textColumn (syncTask observations at_ (key task) task).fields field =
        textColumn task.fields field := textColumn_same (same task) (by revert field; decide)
    rw [column, column]
    exact keys.unique oldA oldB ⟨presentA, presentB, separate, (isActive_same (same oldA)) ▸ left,
      (isActive_same (same oldB)) ▸ right⟩ field listed

/-- What an authority sees to is kept by every action of its clients. -/
theorem act_keys {backend : Backend} {system : System} (action : Action) (keys : backend.Keys system.store.tasks) :
    backend.Keys (system.act files backend action).store.tasks := by
  have distinct : Distinct system.store.tasks := keys.distinct
  obtain same | ⟨event, rfl, accepted⟩ | ⟨rfl, index, world, waiting, rfl, found, accepted⟩ :=
    system.act_store files backend action
  · rw [same]
    exact keys
  · cases event with
    | mutation world name m =>
      cases backend with
      | git => exact gitKeys_mutation keys accepted
      | sqlite =>
        obtain ⟨target, task, note, commits, row, -⟩ := sqliteMutate_eq_ok distinct accepted
        rw [commits.tasks]
        exact sqliteKeys_row keys commits.member commits.named rfl commits.idOf_eq row
    | observation world observations =>
      obtain ⟨⟨key, tasks⟩, -, -⟩ := observation_eq_ok accepted
      rw [tasks]
      cases backend with
      | git => exact gitKeys_observation keys
      | sqlite => exact sqliteKeys_observation keys
  · obtain ⟨target, task, at_, body, rewrites, tasks, row, -⟩ := commitPrepared_rewrites distinct accepted
    obtain ⟨note, applied⟩ := rewrites.applied
    have frame : Within waiting.mutation.writes target.fields task := transition_within _ _ _ (task, note) applied
    have identity : taskText (advanced task at_) = idOf target :=
      taskText_advanced.trans (frame.textOr (not_mem_writes waiting.mutation (by simp)))
    rw [tasks]
    exact sqliteKeys_row keys rewrites.member rewrites.named rfl identity row

end steps

/-- Whatever the clients do, in every state reached no two active tasks share an owner, a branch or a
worktree key. -/
theorem active_keys_run (files : Files) (backend : Backend) {start : System} (keys : backend.Keys start.store.tasks)
    (actions : List Action) : Exclusive (Run.final (System.act files backend) start actions).store.tasks := by
  have keeps (system : System) (action : Action) (holds : backend.Keys system.store.tasks) :
      backend.Keys (system.act files backend action).store.tasks := act_keys action holds
  exact Backend.Keys.exclusive (Run.invariant_always (System.act files backend) keeps actions keys)

/-- Two open tasks that name no worktree. -/
def openPair : Store where
  tasks := [⟨"AR-0001.md", sampleTask "AR-0001" "open" "" "" 4 ++ [("worktree_key", .str "")], "Body.\n"⟩,
    ⟨"AR-0002.md", sampleTask "AR-0002" "open" "" "" 4 ++ [("worktree_key", .str "")], "Body.\n"⟩]
  sessions _ := []
  checkpoints _ := []
  events := []

def openSystem : System := ⟨openPair, []⟩

def sampleClaim (name ownerId : String) : Action :=
  .event (.mutation sampleWorld name (.claim ⟨ownerId, 60, none, none, none⟩))

def bothClaims : List Action := [sampleClaim "AR-0001" "first", sampleClaim "AR-0002" "second"]

theorem openSystem_keys : Backend.git.Keys openSystem.store.tasks :=
  ⟨⟨by decide, by decide⟩, by decide +kernel, fun task member active => by
    simp only [openSystem, openPair, List.mem_cons, List.not_mem_nil, or_false] at member
    obtain rfl | rfl := member <;> exact absurd active (by decide)⟩

/-- The sample claims leave the keys apart. -/
theorem openPair_run : Exclusive (Run.final (System.act sampleFiles .git) openSystem bothClaims).store.tasks :=
  active_keys_run sampleFiles .git openSystem_keys bothClaims

/-- Two active tasks hold the empty worktree key. -/
def shareNoWorktree (store : Store) : Bool :=
  store.tasks.any (fun a => store.tasks.any (fun b => a.path != b.path && isActive a.fields && isActive b.fields &&
    a.fields.get "worktree_key" == .str "" && b.fields.get "worktree_key" == .str ""))

theorem shareNoWorktree_breaks {store : Store} (shares : shareNoWorktree store = true) :
    ¬∀ a b, BothActive store.tasks a b → a.fields.get "worktree_key" ≠ b.fields.get "worktree_key" := by
  intro differ
  obtain ⟨a, first, shares⟩ := List.any_eq_true.mp shares
  obtain ⟨b, second, shares⟩ := List.any_eq_true.mp shares
  simp only [Bool.and_eq_true, bne_iff_ne, Json.beq_str] at shares
  obtain ⟨⟨⟨⟨apart, left⟩, right⟩, keyA⟩, keyB⟩ := shares
  exact differ a b ⟨first, second, apart, left, right⟩ (keyA.trans keyB.symm)

/-- Under either authority two claims make two tasks active that have the same, empty, worktree key. -/
theorem claims_share_empty_worktree : Backend.git.Keys openSystem.store.tasks ∧
    (¬∀ a b, BothActive (Run.final (System.act sampleFiles .git) openSystem bothClaims).store.tasks a b →
      a.fields.get "worktree_key" ≠ b.fields.get "worktree_key") ∧
    ¬∀ a b, BothActive (Run.final (System.act sampleFiles .sqlite) openSystem bothClaims).store.tasks a b →
      a.fields.get "worktree_key" ≠ b.fields.get "worktree_key" :=
  ⟨openSystem_keys, shareNoWorktree_breaks (by decide +kernel), shareNoWorktree_breaks (by decide +kernel)⟩

end Coordinator.Authority
