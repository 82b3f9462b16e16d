import Coordinator.DoneAdmission

/-! The contract of the lifecycle commands: what each requires of its target and what it makes of
it. Every command keeps its row but a release and an update, which do not look at the status; they
stray from it when they name the empty owner on a task that nobody holds. -/

namespace Coordinator.Transitions
open Kit Dict TaskGraph

/-- The claim is gone. -/
def Cleared (task : Meta) : Prop :=
  owner task = .str "" ∧ claimExpires task = .str "" ∧ task.has "claim_process" = false

def AtRevision (task : Meta) (expected : Option Int) : Prop :=
  ∀ number, expected = some number → Meta.revision task = number

/-- The source status, the actor and the revision that the row of a command asks for. -/
def Requires (ctx : Context) (task : Meta) : Mutation → Prop
  | .claim request => AtRevision task request.receiptRevision ∧ status task = .str "open" ∧
      pendingDependencies task ctx.tasks = [] ∧ heldBy ctx request.owner = []
  | .promote expected _ => AtRevision task (some expected) ∧ status task = .str "planned" ∧ Unowned task ∧
      pendingDependencies task ctx.tasks = []
  | .release ownerId _ _ => status task = .str "in_progress" ∧ owner task = .str ownerId
  | .update request => AtRevision task request.expectedRevision ∧ status task = .str "in_progress" ∧
      owner task = .str request.owner
  | .heartbeat ownerId minutes expected => AtRevision task expected ∧ status task = .str "in_progress" ∧
      owner task = .str ownerId ∧ 0 < minutes
  | .pause ownerId expected _ => AtRevision task (some expected) ∧ status task = .str "in_progress" ∧
      owner task = .str ownerId
  | .resume expected session _ => AtRevision task (some expected) ∧ status task = .str "blocked" ∧ Unowned task ∧
      ∃ record, sessionForReference ctx session = .ok record ∧
        (record.get "task_revision" == .int expected) = true
  | .unblock expected _ => AtRevision task (some expected) ∧ status task = .str "blocked" ∧ Unowned task ∧
      sessionsAt ctx expected = .ok []
  | .recoverExpired expected _ _ => AtRevision task (some expected) ∧ status task = .str "in_progress" ∧
      ∃ expiry, expiry? (claimExpires task) = some expiry ∧ expiry ≤ ctx.world.instant
  | _ => True

/-- The target state of the row of a command. -/
def Results (ctx : Context) (task after : Meta) : Mutation → Prop
  | .claim request => status after = .str "in_progress" ∧ owner after = .str request.owner
  | .promote .. | .resume .. | .unblock .. => status after = .str "open"
  | .release _ releasedTo _ => status after = .str releasedTo ∧ Cleared after
  | .update _ => status after = .str "in_progress" ∧ owner after = owner task
  | .heartbeat _ minutes _ => status after = .str "in_progress" ∧ owner after = owner task ∧
      ∃ lease, leaseText ctx.world minutes = .ok lease ∧ claimExpires after = .str lease
  | .pause .. => status after = .str "blocked" ∧ Cleared after
  | .recoverExpired .. => status after = .str "open" ∧ Cleared after
  | _ => True

/-- A release or an update of a task that nobody holds, in the name of the empty owner, once it has
passed the checks that it makes; and what it returns. -/
def Strays (world : Moment) (task : Meta) : Mutation → Meta → String → Prop
  | .release ownerId releasedTo note, after, word => ownerId = "" ∧ owner task = .str "" ∧
      (reservation task).isNull = true ∧ OracleLifecycle.transitionAllowed task "release" = .ok () ∧
      after = clearClaim (task.set "status" (.str releasedTo)) ∧ word = note
  | .update request, after, word => request.owner = "" ∧ owner task = .str "" ∧
      world.roleDenied "" "implementer" = none ∧ (reservation task).isNull = true ∧
      requireOptionalRevision task request.expectedRevision = .ok () ∧
      request.status.any (· != "in_progress") = false ∧
      after = AutonomyLimits.carryRunHold request.sessionTrigger "update" (updated task request) ∧ word = request.note
  | _, _, _ => False

section rows

variable {ctx : Context} {task after : Meta} {note : String}

theorem cleared_clearClaim (task : Meta) : Cleared (clearClaim task) := by
  simp [Cleared, clearClaim, owner, claimExpires]

/-- A revision check that passes, on a task whose revision is a number. -/
theorem atRevision {number : Int} (known : (task.get "task_revision").int? = some number) {expected : Option Int}
    (passed : requireOptionalRevision task expected = .ok ()) : AtRevision task expected := by
  rintro wanted rfl
  rw [requireOptionalRevision_some, requireRevision_eq_ok known] at passed
  exact passed

theorem attachClaimProcess_owner {world : Moment} {task claimed : Meta} {pid start : Option Int}
    (attached : attachClaimProcess world task pid start = .ok claimed) : owner claimed = owner task := by
  simp only [attachClaimProcess, bind_eq_ok] at attached
  obtain ⟨identity, -, attached⟩ := attached
  cases identity with
  | none =>
    rw [pure_eq_ok] at attached
    simp [← attached, owner]
  | some identity =>
    rw [pure_eq_ok] at attached
    simp [← attached, owner]

/-- A blocked task is taken for externally blocked when no session record has its revision. -/
theorem blockedProvenance_external {revision : Int} (external : blockedProvenance ctx revision = .ok .external) :
    sessionsAt ctx revision = .ok [] := by
  simp only [blockedProvenance, bind_eq_ok] at external
  obtain ⟨current, found, classified⟩ := external
  split at classified
  · exact found
  · simp only [bind_eq_ok, exists_unit, pure_eq_ok, reduceCtorEq, and_false] at classified
  · simp at classified

variable {number : Int} (known : (task.get "task_revision").int? = some number)

include known

theorem claim_row {request : ClaimRequest} (applied : applyClaim ctx task request = .ok (after, note)) :
    Requires ctx task (.claim request) ∧ Results ctx task after (.claim request) := by
  have landed := applyClaim_lands ctx task request (after, note) applied
  simp only [applyClaim, bind_eq_ok, exists_unit, requireStatus_eq_ok, requireDependencies_eq_ok, raiseIf_eq_ok,
    Bool.not_eq_false', List.isEmpty_iff, pure_eq_ok, Prod.mk.injEq] at applied
  obtain ⟨revision, -, source, -, pending, -, free, claimed, attached, lease, -, rfl, rfl⟩ := applied
  refine ⟨⟨atRevision known revision, source, pending, free⟩, landed, ?_⟩
  have holder := attachClaimProcess_owner attached
  simp only [owner, Dict.get_set] at holder ⊢
  simpa using holder

theorem promote_row {expected : Int} {word : String} (applied : applyPromote ctx task expected word = .ok (after, note)) :
    Requires ctx task (.promote expected word) ∧ Results ctx task after (.promote expected word) := by
  have landed := applyPromote_lands ctx task expected word (after, note) applied
  simp only [applyPromote, bind_eq_ok, exists_unit, requireStatus_eq_ok, requireNoClaim_eq_ok,
    requireDependencies_eq_ok] at applied
  obtain ⟨revision, source, unowned, pending, -⟩ := applied
  exact ⟨⟨atRevision known revision, source, unowned, pending⟩, landed⟩

theorem heartbeat_row {ownerId : String} {minutes : Int} {expected : Option Int}
    (applied : applyHeartbeat ctx task ownerId minutes expected = .ok (after, note)) :
    Requires ctx task (.heartbeat ownerId minutes expected) ∧
      Results ctx task after (.heartbeat ownerId minutes expected) := by
  simp only [applyHeartbeat, bind_eq_ok, exists_unit, requireOwner_eq_ok, raiseIf_eq_ok, Bool.or_eq_false_iff,
    decide_eq_false_iff_not, Int.not_le, bne, Bool.not_eq_false', Json.beq_str, pure_eq_ok, Prod.mk.injEq] at applied
  obtain ⟨holder, -, ⟨positive, active⟩, revision, lease, leased, rfl, rfl⟩ := applied
  refine ⟨⟨atRevision known revision, active, holder, positive⟩, ?_, ?_, lease, leased, ?_⟩
  · rw [status_set_of_ne (by decide), active]
  · simp [owner]
  · simp [claimExpires]

theorem pause_row {ownerId word : String} {expected : Int}
    (applied : applyPause ctx task ownerId expected word = .ok (after, note)) :
    Requires ctx task (.pause ownerId expected word) ∧ Results ctx task after (.pause ownerId expected word) := by
  simp only [applyPause, bind_eq_ok, exists_unit, requireOwner_eq_ok, requireStatus_eq_ok, pure_eq_ok,
    Prod.mk.injEq] at applied
  obtain ⟨holder, -, -, revision, active, -, rfl, rfl⟩ := applied
  exact ⟨⟨atRevision known revision, active, holder⟩, by simp, cleared_clearClaim _⟩

theorem resume_row {expected : Int} {session word : String}
    (applied : applyResume ctx task expected session word = .ok (after, note)) :
    Requires ctx task (.resume expected session word) ∧ Results ctx task after (.resume expected session word) := by
  have landed := applyResume_lands ctx task expected session word (after, note) applied
  simp only [applyResume, requireBlocked, bind_eq_ok, exists_unit, requireStatus_eq_ok, requireNoClaim_eq_ok,
    raiseIf_eq_ok, bne, Bool.not_eq_false'] at applied
  obtain ⟨⟨revision, source, unowned⟩, record, referenced, same, -⟩ := applied
  exact ⟨⟨atRevision known revision, source, unowned, record, referenced, same⟩, landed⟩

theorem unblock_row {expected : Int} {word : String}
    (applied : applyUnblock ctx task expected word = .ok (after, note)) :
    Requires ctx task (.unblock expected word) ∧ Results ctx task after (.unblock expected word) := by
  have landed := applyUnblock_lands ctx task expected word (after, note) applied
  simp only [applyUnblock, requireBlocked, bind_eq_ok, exists_unit, requireStatus_eq_ok, requireNoClaim_eq_ok,
    raiseIf_eq_ok] at applied
  obtain ⟨⟨revision, source, unowned⟩, provenance, classified, external, -⟩ := applied
  have current : AtRevision task (some expected) := atRevision known revision
  obtain rfl : provenance = .external := by
    cases provenance with
    | external => rfl
    | pause => exact absurd external (by decide)
  rw [current expected rfl] at classified
  exact ⟨⟨current, source, unowned, blockedProvenance_external classified⟩, landed⟩

theorem recoverExpired_row {expected : Int} {word : String} {allowLegacy : Bool}
    (applied : applyRecoverExpired ctx task expected word allowLegacy = .ok (after, note)) :
    Requires ctx task (.recoverExpired expected word allowLegacy) ∧
      Results ctx task after (.recoverExpired expected word allowLegacy) := by
  simp only [applyRecoverExpired, bind_eq_ok, exists_unit, raiseIf_eq_ok, Bool.or_eq_false_iff, bne,
    Bool.not_eq_false', Json.beq_str, orRaise_eq_ok, decide_eq_false_iff_not, Int.not_lt, Prod.exists, pure_eq_ok,
    Prod.mk.injEq] at applied
  obtain ⟨-, revision, ⟨active, -⟩, expiry, lease, elapsed, -, cleaned, -, records, -, current, -, evident, recovered,
    -, rfl, rfl⟩ := applied
  exact ⟨⟨atRevision known revision, active, expiry, lease, elapsed⟩, by simp, cleared_clearClaim _⟩

end rows

/-! The two commands that look at no status. -/

section strays

variable {ctx : Context} {task after : Meta} {note : String}

theorem release_eq_ok {ownerId releasedTo word : String} :
    applyRelease ctx task ownerId releasedTo word = .ok (after, note) ↔ owner task = .str ownerId ∧
      (reservation task).isNull = true ∧ requireReleaseAdmission ctx task releasedTo = .ok () ∧
      OracleLifecycle.transitionAllowed task "release" = .ok () ∧
      clearClaim (task.set "status" (.str releasedTo)) = after ∧ word = note := by
  simp only [applyRelease, bind_eq_ok, exists_unit, requireOwner_eq_ok, requireNoExecutionReservation_eq_ok,
    pure_eq_ok, Prod.mk.injEq]

theorem update_eq_ok {request : UpdateRequest} :
    applyUpdate ctx task request = .ok (after, note) ↔ owner task = .str request.owner ∧
      ctx.world.roleDenied request.owner "implementer" = none ∧ (reservation task).isNull = true ∧
      requireOptionalRevision task request.expectedRevision = .ok () ∧
      request.status.any (· != "in_progress") = false ∧
      AutonomyLimits.carryRunHold request.sessionTrigger "update" (updated task request) = after ∧
      request.note = note := by
  simp only [applyUpdate, bind_eq_ok, exists_unit, requireOwner_eq_ok, requireRoleAdmission_eq_ok,
    requireNoBoundExecution_eq_ok, raiseIf_eq_ok, pure_eq_ok, Prod.mk.injEq]

/-- The end of a task that is not active needs no admission. -/
theorem requireReleaseAdmission_idle (idle : status task ≠ .str "in_progress") (releasedTo : String) :
    requireReleaseAdmission ctx task releasedTo = .ok () := by
  have here : (status task != .str "in_progress") = true := by
    rw [bne, Bool.not_eq_true', ← Bool.not_eq_true, Json.beq_str]
    exact idle
  unfold requireReleaseAdmission
  by_cases done : releasedTo = "done"
  · rw [if_pos done, requireDoneAdmission, if_pos here]
    rfl
  · rw [if_neg done]
    rfl

/-- A straying command is one that its handler accepts. -/
theorem strays_applied {m : Mutation} (idle : status task ≠ .str "in_progress")
    (strays : Strays ctx.world task m after note) : applyTransition ctx task m = .ok (after, note) := by
  cases m with
  | release ownerId releasedTo word =>
    obtain ⟨rfl, holder, free, gate, rfl, rfl⟩ := strays
    exact release_eq_ok.mpr ⟨holder, free, requireReleaseAdmission_idle idle releasedTo, gate, rfl, rfl⟩
  | update request =>
    obtain ⟨nobody, holder, role, free, revision, active, rfl, rfl⟩ := strays
    exact update_eq_ok.mpr ⟨nobody ▸ holder, nobody ▸ role, free, revision, active, rfl, rfl⟩
  | _ => exact strays.elim

/-- A release keeps its row or strays. -/
theorem release_row (fits : Authority.ClaimFits task) {ownerId releasedTo word : String}
    (applied : applyRelease ctx task ownerId releasedTo word = .ok (after, note)) :
    (Requires ctx task (.release ownerId releasedTo word) ∧ Results ctx task after (.release ownerId releasedTo word)) ∨
      (status task ≠ .str "in_progress" ∧ Strays ctx.world task (.release ownerId releasedTo word) after note) := by
  obtain ⟨holder, free, -, gate, rfl, rfl⟩ := release_eq_ok.mp applied
  by_cases active : status task = .str "in_progress"
  · exact Or.inl ⟨⟨active, holder⟩, by simp, cleared_clearClaim _⟩
  · obtain rfl := fits.idle active ownerId holder
    exact Or.inr ⟨active, rfl, holder, free, gate, rfl, rfl⟩

theorem updated_owner (request : UpdateRequest) :
    owner (AutonomyLimits.carryRunHold request.sessionTrigger "update" (updated task request)) = owner task := by
  have frame : Within updateFields task
      (AutonomyLimits.carryRunHold request.sessionTrigger "update" (updated task request)) := by
    refine carryRunHold_within ?_ (by simp [updateFields]) _ _
    iterate 4 refine setGiven_within ?_ (by simp [updateFields]) _
    exact within_refl _ task
  exact frame.get (by decide)

variable {number : Int} (known : (task.get "task_revision").int? = some number) (fits : Authority.ClaimFits task)

include known fits

/-- An update keeps its row or strays. -/
theorem update_row {request : UpdateRequest} (applied : applyUpdate ctx task request = .ok (after, note)) :
    (Requires ctx task (.update request) ∧ Results ctx task after (.update request)) ∨
      (status task ≠ .str "in_progress" ∧ Strays ctx.world task (.update request) after note) := by
  have landed := applyUpdate_lands ctx task request (after, note) applied
  obtain ⟨holder, role, free, revision, given, rfl, rfl⟩ := update_eq_ok.mp applied
  by_cases active : status task = .str "in_progress"
  · refine Or.inl ⟨⟨atRevision known revision, active, holder⟩, ?_, updated_owner request⟩
    dsimp only at landed
    rw [landed]
    cases chosen : request.status with
    | none => exact active
    | some word => simpa [chosen] using given
  · have nobody := fits.idle active request.owner holder
    exact Or.inr ⟨active, nobody, nobody ▸ holder, nobody ▸ role, free, revision, given, rfl, rfl⟩

/-- Every command keeps its row or strays. -/
theorem transition_row {m : Mutation} (applied : applyTransition ctx task m = .ok (after, note)) :
    (Requires ctx task m ∧ Results ctx task after m) ∨
      (status task ≠ .str "in_progress" ∧ Strays ctx.world task m after note) := by
  cases m with
  | claim request => exact Or.inl (claim_row known applied)
  | heartbeat ownerId minutes expected => exact Or.inl (heartbeat_row known applied)
  | release ownerId releasedTo word => exact release_row fits applied
  | update request => exact update_row known fits applied
  | promote expected word => exact Or.inl (promote_row known applied)
  | pause ownerId expected word => exact Or.inl (pause_row known applied)
  | resume expected session word => exact Or.inl (resume_row known applied)
  | unblock expected word => exact Or.inl (unblock_row known applied)
  | recoverExpired expected word allowLegacy => exact Or.inl (recoverExpired_row known applied)
  | _ => exact Or.inl ⟨trivial, trivial⟩

end strays

end Coordinator.Transitions

namespace Coordinator.Authority
open Kit Dict TaskGraph TaskValidation Transitions

/-- An accepted command has met its row and advanced the revision of its target by one, within the
statuses that the row allows; a rejected one has changed nothing. -/
structure Contract (files : Files) (backend : Backend) (world : Moment) (store : Store) (name : String) (m : Mutation) :
    Prop where
  accepted : ∀ after, mutate files backend world store name m = .ok after →
    ∃ target ∈ store.tasks, ∃ written ∈ after.tasks, target.fields.get "id" = .str name ∧ written.path = target.path ∧
      Requires (contextOf files world store name) target.fields m ∧
      Results (contextOf files world store name) target.fields written.fields m ∧
      ClaimFits written.fields ∧ Meta.revision written.fields = Meta.revision target.fields + 1 ∧
      ∀ other ∈ store.tasks, other.path ≠ target.path → other ∈ after.tasks
  rejected : ∀ fault, mutate files backend world store name m = .error fault →
    step files backend store (.mutation world name m) = store

/-- A release or an update by the empty owner passes its checks on a task that is not in progress,
and its authority admits and persists what it returns. -/
def Slips (files : Files) (backend : Backend) (world : Moment) (store : Store) (name : String) (m : Mutation) : Prop :=
  ∃ target task note, locate store name = .ok target ∧ status target.fields ≠ .str "in_progress" ∧
    Strays world target.fields m task note ∧ backend.Admits world target.fields m ∧
    persists files backend world store target name task note m = true

section advance

variable {ctx : Context} {task after : Meta} {m : Mutation} {at_ : String}

theorem cleared_advanced (cleared : Cleared after) : Cleared (advanced after at_) := by
  obtain ⟨holder, lease, process⟩ := cleared
  refine ⟨owner_advanced.trans holder, claimExpires_advanced.trans lease, ?_⟩
  rw [(advanced_within after at_).has (by decide)]
  exact process

/-- The result of a row stands in the committed revision. -/
theorem results_advanced (results : Results ctx task after m) : Results ctx task (advanced after at_) m := by
  cases m with
  | release _ _ _ | pause _ _ _ | recoverExpired _ _ _ =>
    exact ⟨status_advanced.trans results.1, cleared_advanced results.2⟩
  | claim _ | update _ => exact ⟨status_advanced.trans results.1, owner_advanced.trans results.2⟩
  | heartbeat _ _ _ =>
    obtain ⟨state, holder, lease, leased, renewed⟩ := results
    exact ⟨status_advanced.trans state, owner_advanced.trans holder, lease, leased, claimExpires_advanced.trans renewed⟩
  | promote _ _ | resume _ _ _ | unblock _ _ => exact status_advanced.trans results
  | _ => trivial

end advance

/-- The commands of the lifecycle keep their contract except where a release or an update slips. -/
theorem contract_iff {files : Files} {store : Store} (valid : ValidTasks files store.tasks) (backend : Backend)
    (world : Moment) (name : String) (m : Mutation) :
    Contract files backend world store name m ↔ ¬Slips files backend world store name m := by
  have orderly := ValidTasks.orderly valid
  constructor
  · rintro contract ⟨target, task, note, found, idle, strays, admitted, persisted⟩
    have applied : applyTransition (contextOf files world store name) target.fields m = .ok (task, note) :=
      strays_applied idle strays
    obtain ⟨after, accepted⟩ :=
      allowed_iff.mp ((mutate_allowed_iff found).mpr ⟨admitted, task, note, applied, persisted⟩)
    obtain ⟨other, member, -, -, named, -, required, -⟩ := contract.accepted after accepted
    obtain rfl : other = target := by simpa [locate_of_mem orderly.distinct member named] using found
    cases m with
    | release _ _ _ => exact idle required.1
    | update _ => exact idle required.2.1
    | _ => exact strays.elim
  · intro steady
    refine ⟨fun after accepted => ?_, fun fault refused => ?_⟩
    · obtain ⟨target, task, note, commits, fits⟩ := mutate_fits orderly.distinct accepted
      have found := locate_of_mem orderly.distinct commits.member commits.named
      obtain ⟨number, known, -⟩ := (valid.members target commits.member).revision_pos
      obtain ⟨required, results⟩ | ⟨idle, strays⟩ :=
        transition_row known (orderly.fits target commits.member) commits.applied
      · refine ⟨target, commits.member, committed target task note world.now, ?_, commits.named, rfl, required,
          results_advanced results, fits, ?_, ?_⟩
        · rw [commits.tasks]
          exact rewritten_mem commits.member rfl
        · have kept : Within m.writes target.fields task := transition_within _ _ m (task, note) commits.applied
          change Meta.revision (advanced task world.now) = _
          rw [revision_advanced, Meta.revision, Meta.revision, kept.get (not_mem_writes m (by simp))]
        · rw [commits.tasks]
          exact fun other member apart => mem_rewritten_of_ne member apart
      · obtain ⟨admitted, task', note', applied, persisted⟩ :=
          (mutate_allowed_iff found).mp (allowed_iff.mpr ⟨after, accepted⟩)
        obtain ⟨rfl, rfl⟩ : task' = task ∧ note' = note := by simpa [commits.applied] using applied.symm
        exact absurd ⟨target, task', note', found, idle, strays, admitted, persisted⟩ steady
    · have same : attempt files backend store (.mutation world name m) = .error fault := refused
      rw [step, same]

/-- A claim of the open sample keeps the contract. -/
theorem contract_claim : Contract sampleFiles .git sampleWorld (sampleStore openSample) "AR-0001"
    (.claim ⟨"worker", 60, none, none, none⟩) :=
  (contract_iff openSample_valid .git sampleWorld "AR-0001" _).mpr (fun ⟨_, _, _, _, _, strays, _⟩ => strays)

def sampleRelease : Mutation := .release "" "blocked" "Blocked."

theorem sampleRelease_breaks (backend : Backend)
    (accepted : allowed (mutate sampleFiles backend sampleWorld (sampleStore openSample) "AR-0001" sampleRelease) = true) :
    ¬Contract sampleFiles backend sampleWorld (sampleStore openSample) "AR-0001" sampleRelease := by
  intro contract
  obtain ⟨after, done⟩ := allowed_iff.mp accepted
  obtain ⟨target, member, -, -, -, -, required, -⟩ := contract.accepted after done
  obtain rfl : target = ⟨"AR-0001.md", openSample, "Body.\n"⟩ := by simpa [sampleStore] using member
  simpa [openSample_status] using required.1

/-- Under either authority, the empty owner releases an open task that nobody holds. -/
theorem release_without_owner : ValidTasks sampleFiles (sampleStore openSample).tasks ∧
    ¬Contract sampleFiles .git sampleWorld (sampleStore openSample) "AR-0001" sampleRelease ∧
    ¬Contract sampleFiles .sqlite sampleWorld (sampleStore openSample) "AR-0001" sampleRelease :=
  ⟨openSample_valid, sampleRelease_breaks .git (by decide +kernel), sampleRelease_breaks .sqlite (by decide +kernel)⟩

end Coordinator.Authority
