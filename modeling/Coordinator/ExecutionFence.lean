import Coordinator.Clients
import Coordinator.Kit.Run

/-! The fence of a bound execution. While a task holds an execution reservation, its claim stays as
long as the reservation needs it, the commands that would take the claim away are refused, and only
the end of that execution gives the reservation up. -/

namespace Coordinator.Transitions
open Kit Dict TaskGraph

def Reserved (task : Meta) : Prop := (reservation task).isNull = false

/-- The instant that a text denotes. -/
def instantOf (word : String) : Option Int := (Datetime.read word).bind Datetime.instant?

def reservedUntil (task : Meta) : Option Int := instantOf ((reservation task).textOr "expires_at")

/-- The claim under which a reservation was made. -/
structure Bound (task : Meta) : Prop where
  active : status task = .str "in_progress"
  owner : owner task = (reservation task).get "owner"
  lease : ∃ claim expires, instantOf (claimExpires task).text = some claim ∧ reservedUntil task = some expires ∧
    expires ≤ claim

/-- A reservation is there only with the claim that it needs. -/
def Fenced (task : Meta) : Prop := Reserved task → Bound task

/-- The commands that a reservation keeps out. -/
def Mutation.fenced : Mutation → Bool
  | .heartbeat .. | .update .. | .release .. | .pause .. | .recoverExpired .. | .rollback .. => true
  | _ => false

/-- The commands that need a status in which no reservation can be. -/
def Mutation.reopens : Mutation → Bool
  | .claim .. | .promote .. | .resume .. | .unblock .. => true
  | _ => false

/-- The ends of an execution: with its receipt, or as an expired one of unknown outcome. -/
def Releases (world : Moment) (task : Meta) : Mutation → Prop
  | .executionFinish .. | .recoverExecution .. =>
      Execution.receiptMatches (reservation task) (task.get "execution_result") = true
  | .abandonExecution .. => (∃ expires, reservedUntil task = some expires ∧ expires ≤ world.instant) ∧
      Execution.receiptMatches (reservation task) (task.get "execution_result") = false
  | _ => False

/-- The fields that the fence depends on. -/
def fenceFields : List String := ["execution_reservation", "status", "owner", "claim_expires"]

section same

variable {before after : Meta}

theorem reservation_same (same : SameOn fenceFields after before) : reservation after = reservation before :=
  same.get (by simp [fenceFields])

theorem Fenced.same (same : SameOn fenceFields after before) (fenced : Fenced before) : Fenced after := by
  have kept := reservation_same same
  intro reserved
  rw [Reserved, kept] at reserved
  obtain ⟨active, holder, lease⟩ := fenced reserved
  have state : status after = status before := same.get (by simp [fenceFields])
  have owned : owner after = owner before := same.get (by simp [fenceFields])
  have ends : claimExpires after = claimExpires before := same.get (by simp [fenceFields])
  refine ⟨state ▸ active, by rw [owned, kept, holder], ?_⟩
  rw [ends, reservedUntil, kept]
  exact lease

end same

theorem expiry?_instant {value : Json} {expiry : Int} (known : expiry? value = some expiry) :
    instantOf value.text = some expiry := by
  unfold expiry? parseClaimExpiry at known
  cases value with
  | str word =>
    simp only at known
    split at known
    · cases known
    · split at known
      · cases known
      · next parsed reads =>
        split at known
        · cases known
        · split at known
          · next at_ aware =>
            cases known
            simp only [Datetime.aware?, reads, Option.bind_eq_bind, Option.bind_some, Option.bind_eq_some_iff] at aware
            obtain ⟨found, instant, range⟩ := aware
            split at range
            · cases range
              simp [instantOf, Json.text, reads, instant]
            · cases range
          · cases known
  | _ => cases known

theorem Bound.leased {task : Meta} (bound : Bound task) : (claimExpires task).truthy = true := by
  obtain ⟨claim, -, instant, -, -⟩ := bound.lease
  have empty : instantOf "" = none := rfl
  cases shown : claimExpires task with
  | str word =>
    rw [shown, Json.text] at instant
    have filled : word ≠ "" := fun same => by
      rw [same, empty] at instant
      cases instant
    simpa using filled
  | _ =>
    rw [shown] at instant
    exact absurd (empty.symm.trans instant) (by simp)

section handlers

variable (ctx : Context) (task : Meta)

/-- A command that returns has found no reservation. -/
abbrev Unreserved (x : Outcome (Meta × String)) : Prop := Ensures (fun _ => ¬Reserved task) x

theorem not_reserved {task : Meta} : ¬Reserved task ↔ (reservation task).isNull = true := by
  rw [Reserved, Bool.not_eq_false]

theorem fenced_unreserved (fenced : Fenced task) (m : Mutation) (fences : m.fenced = true) :
    Unreserved task (applyTransition ctx task m) := by
  cases m with
  | heartbeat ownerId minutes expected =>
    refine .bind fun _ _ => .bind fun _ free => fun _ _ => ?_
    exact not_reserved.mpr (requireNoBoundExecution_eq_ok.mp free)
  | update request =>
    refine .bind fun _ _ => .bind fun _ _ => .bind fun _ free => fun _ _ => ?_
    exact not_reserved.mpr (requireNoBoundExecution_eq_ok.mp free)
  | release ownerId releasedTo note =>
    refine .bind fun _ _ => .bind fun _ free => fun _ _ => ?_
    exact not_reserved.mpr (requireNoExecutionReservation_eq_ok.mp free)
  | pause ownerId expected note =>
    refine .bind fun _ _ => .bind fun _ _ => .bind fun _ free => fun _ _ => ?_
    exact not_reserved.mpr (requireNoExecutionReservation_eq_ok.mp free)
  | recoverExpired expected note allowLegacy =>
    refine .bind fun _ free => fun _ _ => ?_
    exact not_reserved.mpr (requireNoExecutionReservation_eq_ok.mp free)
  | rollback checkpointName =>
    refine .bind fun _ _ => .guard fun unowned => fun _ _ => ?_
    intro reserved
    rw [Bool.or_eq_false_iff, (fenced reserved).leased] at unowned
    cases unowned.2
  | _ => cases fences

theorem inactive_unreserved (fenced : Fenced task) {word : String} (state : status task = .str word)
    (idle : word ≠ "in_progress") : ¬Reserved task := by
  intro reserved
  have active := (fenced reserved).active
  rw [state, Json.str.injEq] at active
  exact idle active

theorem reopens_unreserved (fenced : Fenced task) (m : Mutation) (reopens : m.reopens = true) :
    Unreserved task (applyTransition ctx task m) := by
  have blocked (expected : Int) (passed : requireBlocked ctx task expected = .ok ()) : ¬Reserved task := by
    simp only [requireBlocked, bind_eq_ok, exists_unit, requireStatus_eq_ok] at passed
    exact inactive_unreserved task fenced passed.2.1 (by decide)
  cases m with
  | claim request =>
    refine .bind fun _ _ => .bind fun _ _ => .bind fun _ state => fun _ _ => ?_
    exact inactive_unreserved task fenced (requireStatus_eq_ok.mp state) (by decide)
  | promote expected note =>
    refine .bind fun _ _ => .bind fun _ state => fun _ _ => ?_
    exact inactive_unreserved task fenced (requireStatus_eq_ok.mp state) (by decide)
  | resume expected session note => exact .bind fun _ passed => fun _ _ => blocked expected passed
  | unblock expected note => exact .bind fun _ passed => fun _ _ => blocked expected passed
  | _ => cases reopens

/-- A new reservation has the claim of its owner, extended to its end. -/
theorem start_bound (request : Execution.StartRequest) :
    Ensures (fun result => Bound result.1) (Execution.start ctx.world task request) := by
  unfold Execution.start
  refine .bind fun _ owned => ?_
  iterate 4 refine .bind fun _ _ => ?_
  refine .bind fun expires reads => .bind fun instant shown => ?_
  iterate 1 refine .bind fun _ _ => ?_
  refine .bind fun claim known => ?_
  rw [orRaise_eq_ok] at reads shown known
  simp only [requireActiveBindingOwner, bind_eq_ok, exists_unit, requireOwner_eq_ok, raiseIf_eq_ok, bne,
    Bool.not_eq_false', Json.beq_str] at owned
  obtain ⟨holder, -, active, -, -⟩ := owned
  obtain ⟨whole, again, wholeInstant, below⟩ := Datetime.read_wholeSeconds reads shown
  have ends : instantOf expires.wholeSeconds.isoformat = some whole := by simp [instantOf, again, wholeInstant]
  have claimed := expiry?_instant known
  refine .pure ?_
  dsimp only
  split
  · refine ⟨by simpa [status] using active, ?_, whole, whole, ?_, ?_, le_refl _⟩
    · rw [reservation, get_set, if_neg (by decide), get_set, if_pos rfl]
      change owner _ = .str request.owner
      simpa [owner] using holder
    · simpa [claimExpires, Json.text] using ends
    · rw [reservedUntil, reservation, get_set, if_neg (by decide), get_set, if_pos rfl]
      exact ends
  · next later =>
    refine ⟨by simpa [status] using active, ?_, claim, whole, ?_, ?_, by omega⟩
    · rw [reservation, get_set, if_pos rfl]
      change owner _ = .str request.owner
      simpa [owner] using holder
    · simpa [claimExpires] using claimed
    · rw [reservedUntil, reservation, get_set, if_pos rfl]
      exact ends

theorem start_unreserved (request : Execution.StartRequest) :
    Unreserved task (Execution.start ctx.world task request) := by
  unfold Execution.start
  iterate 3 refine .bind fun _ _ => ?_
  refine .guard fun free => fun _ _ => ?_
  rw [not_reserved]
  simpa using free

/-- What becomes of a reservation: it stays, or its execution ends. -/
def Outlives (before after : Meta) (m : Mutation) : Prop :=
  reservation after = reservation before ∨
    (reservation after).isNull = true ∧ Releases ctx.world before m

theorem finish_releases (ownerId executionId : String) (expected : Option Int) (note : String) :
    Ensures (fun result => (reservation result.1).isNull = true ∧
      Execution.receiptMatches (reservation task) (task.get "execution_result") = true)
      (Execution.finish task ownerId executionId expected note) := by
  unfold Execution.finish
  iterate 3 refine .bind fun _ _ => ?_
  refine .guard fun proved => .pure ⟨by simp [reservation, Json.isNull], ?_⟩
  simpa using proved

theorem recover_releases (expected : Option Int) :
    Ensures (fun result => (reservation result.1).isNull = true ∧
      Execution.receiptMatches (reservation task) (task.get "execution_result") = true)
      (Execution.recover ctx.world task expected) := by
  unfold Execution.recover
  iterate 4 refine .bind fun _ _ => ?_
  refine .guard fun proved => .pure ⟨by simp [reservation, Json.isNull], ?_⟩
  simpa using proved

theorem reservedUntil_of_valid {task : Meta} (valid : ExecutionEnvelope.validReservation (reservation task) = true) :
    ∃ expires, reservedUntil task = some expires := by
  simp only [ExecutionEnvelope.validReservation, Bool.and_eq_true] at valid
  have zoned := valid.2
  rw [ExecutionEnvelope.zoned, Option.isSome_iff_exists] at zoned
  obtain ⟨offset, zoned⟩ := zoned
  obtain ⟨read, reads, zone⟩ := Option.bind_eq_some_iff.mp zoned
  exact ⟨read.wall - offset, by simp [reservedUntil, instantOf, reads, Datetime.instant?, zone]⟩

theorem abandon_releases (request : Execution.AbandonRequest) :
    Ensures (fun result => (reservation result.1).isNull = true ∧
      (∃ expires, reservedUntil task = some expires ∧ expires ≤ ctx.world.instant) ∧
      Execution.receiptMatches (reservation task) (task.get "execution_result") = false)
      (Execution.abandon ctx.world task request) := by
  have gone (current : Meta) : (reservation (clearClaim ((current.pop "execution_reservation").set "status"
      (.str "open")))).isNull = true := by simp [reservation, clearClaim, Json.isNull]
  unfold Execution.abandon
  refine .bind fun _ _ => .guard fun valid => .bind fun _ _ => .guard fun past => ?_
  rw [Bool.not_eq_false'] at valid
  have expired : ∃ expires, reservedUntil task = some expires ∧ expires ≤ ctx.world.instant := by
    obtain ⟨expires, ends⟩ := reservedUntil_of_valid valid
    refine ⟨expires, ends, ?_⟩
    rw [reservedUntil, instantOf] at ends
    rw [liveExecutionReservation, valid, Bool.true_and, ends] at past
    simpa using past
  split
  · refine .guard fun unknown => ?_
    iterate 3 refine .bind fun _ _ => ?_
    exact .pure ⟨gone _, expired, unknown⟩
  · refine .bind fun _ _ => .guard fun unknown => ?_
    iterate 3 refine .bind fun _ _ => ?_
    exact .pure ⟨gone _, expired, unknown⟩

/-- Every accepted command keeps the fence, and only the end of an execution gives it up. -/
theorem transition_fence (fenced : Fenced task) (m : Mutation) :
    Ensures (fun result => Fenced result.1 ∧ (Reserved task → Outlives ctx task result.1 m))
      (applyTransition ctx task m) := by
  intro result returned
  have frame : Within m.writes task result.1 := transition_within ctx task m result returned
  have absent (free : ¬Reserved task) (apart : "execution_reservation" ∉ m.writes) :
      Fenced result.1 ∧ (Reserved task → Outlives ctx task result.1 m) := by
    have kept : reservation result.1 = reservation task := frame.get apart
    refine ⟨fun reserved => ?_, fun reserved => absurd reserved free⟩
    rw [Reserved, kept] at reserved
    exact absurd reserved free
  have untouched (apart : ∀ name ∈ fenceFields, name ∉ m.writes) :
      Fenced result.1 ∧ (Reserved task → Outlives ctx task result.1 m) := by
    have same := frame.sameOn apart
    exact ⟨fenced.same same, fun _ => Or.inl (reservation_same same)⟩
  have cleared (gone : (reservation result.1).isNull = true) (released : Releases ctx.world task m) :
      Fenced result.1 ∧ (Reserved task → Outlives ctx task result.1 m) :=
    ⟨fun reserved => absurd reserved (not_reserved.mpr gone), fun _ => Or.inr ⟨gone, released⟩⟩
  cases m with
  | heartbeat | update | release | pause | recoverExpired | rollback =>
    exact absent (fenced_unreserved ctx task fenced _ rfl result returned) (by simp only [Mutation.writes]; decide)
  | claim | promote | resume | unblock =>
    exact absent (reopens_unreserved ctx task fenced _ rfl result returned) (by simp only [Mutation.writes]; decide)
  | executionStart request =>
    exact ⟨fun _ => start_bound ctx task _ result returned, fun reserved =>
      absurd reserved (start_unreserved ctx task _ result returned)⟩
  | executionFinish ownerId executionId expected note =>
    obtain ⟨gone, proved⟩ := finish_releases task ownerId executionId expected note result returned
    exact cleared gone proved
  | recoverExecution expected =>
    obtain ⟨gone, proved⟩ := recover_releases ctx task expected result returned
    exact cleared gone proved
  | abandonExecution request =>
    obtain ⟨gone, expired, unknown⟩ := abandon_releases ctx task request result returned
    exact cleared gone ⟨expired, unknown⟩
  | _ => exact untouched (by simp only [Mutation.writes]; decide)

end handlers

end Coordinator.Transitions

namespace Coordinator.Authority
open Kit Dict TaskGraph TaskValidation Transitions

/-- Tasks under names of their own, with every reservation fenced. -/
structure FencedStore (store : Store) : Prop where
  distinct : Distinct store.tasks
  fenced : ∀ task ∈ store.tasks, Fenced task.fields

theorem syncTask_fence (observations : List Observation) (at_ key : String) (task : Task) :
    SameOn fenceFields (syncTask observations at_ key task).fields task.fields :=
  (syncTask_within observations at_ key task).sameOn (by decide)

theorem advanced_fence (task : Meta) (at_ : String) : SameOn fenceFields (advanced task at_) task :=
  (advanced_within task at_).sameOn (by decide)

/-- What an action leaves of the reservation of a task. -/
def Survives (system : System) (action : Action) (before after : Meta) : Prop :=
  reservation after = reservation before ∨ (reservation after).isNull = true ∧
    ∃ world name m, system.mutationOf action = some (world, name, m) ∧ Releases world before m

section steps

variable {files : Files} {backend : Backend} {system : System} {action : Action}

theorem act_fence (fenced : FencedStore system.store) :
    (∀ next ∈ (system.act files backend action).store.tasks, Fenced next.fields) ∧ ∀ task ∈ system.store.tasks, Reserved task.fields →
      ∀ next ∈ (system.act files backend action).store.tasks, next.path = task.path →
        Survives system action task.fields next.fields := by
  obtain ⟨distinct, fenced⟩ := fenced
  have unique {a b : Task} (first : a ∈ system.store.tasks) (second : b ∈ system.store.tasks) (same : a.path = b.path) :
      a = b := nodup_map_unique distinct.paths first second same
  obtain same | changes := system.act_changes files backend action distinct
  · rw [same]
    refine ⟨fenced, fun task member _ next present here => ?_⟩
    rw [unique present member here]
    exact Or.inl rfl
  · cases changes with
    | mutation world name m target task asked rewrites =>
      obtain ⟨note, applied⟩ := rewrites.applied
      obtain ⟨kept, outlives⟩ := transition_fence _ _ (fenced target rewrites.member) m (task, note) applied
      refine ⟨fun next present => ?_, fun old member reserved next present here => ?_⟩
      · obtain ⟨-, at_, fields⟩ | ⟨old, -⟩ := rewrites.next present
        · rw [fields]
          exact kept.same (advanced_fence task at_)
        · exact fenced next old
      · obtain ⟨path, at_, fields⟩ | ⟨present, -⟩ := rewrites.next present
        · obtain rfl : old = target := unique member rewrites.member (here.symm.trans path)
          have moved : reservation next.fields = reservation task := by
            rw [fields]
            exact reservation_same (advanced_fence task at_)
          obtain stays | ⟨gone, released⟩ := outlives reserved
          · exact Or.inl (moved.trans stays)
          · exact Or.inr ⟨by rw [moved]; exact gone, world, name, m, asked, released⟩
        · rw [unique present member here]
          exact Or.inl rfl
    | observation observations at_ key tasks =>
      rw [tasks]
      refine ⟨fun next present => ?_, fun old member reserved next present here => ?_⟩
      · obtain ⟨task, listed, rfl⟩ := List.mem_map.mp present
        exact (fenced task listed).same (syncTask_fence observations at_ (key task) task)
      · obtain ⟨task, listed, rfl⟩ := List.mem_map.mp present
        obtain rfl := unique listed member ((syncTask_path observations at_ (key task) task).symm.trans here)
        exact Or.inl (reservation_same (syncTask_fence observations at_ (key task) task))

theorem act_fencedStore (fenced : FencedStore system.store) : FencedStore (system.act files backend action).store :=
  ⟨system.act_distinct files backend action fenced.distinct, (act_fence fenced).1⟩

end steps

/-- A command that a reservation keeps out is refused by either authority, from any snapshot. -/
theorem fenced_refused (files : Files) {store : Store} (fenced : FencedStore store) {task : Task} (member : task ∈ store.tasks)
    (reserved : Reserved task.fields) {name : String} (named : task.fields.get "id" = .str name) {m : Mutation} (fences : m.fenced = true) (world : Moment) :
    (∀ backend, allowed (mutate files backend world store name m) = false) ∧
      ∀ call, allowed (commitPrepared files world call store name m) = false := by
  obtain ⟨distinct, fenced⟩ := fenced
  have refuses {target : Task} (found : locate store name = .ok target) (ctx : Context) (result : Meta × String) :
      applyTransition ctx target.fields m ≠ .ok result := by
    obtain ⟨there, same⟩ := locate_eq_ok found
    obtain rfl : target = task :=
      nodup_map_unique distinct.ids there member ((named_idOf same).trans (named_idOf named).symm)
    intro returned
    exact fenced_unreserved ctx target.fields (fenced target member) m fences result returned reserved
  constructor
  · intro backend
    rw [Bool.eq_false_iff]
    intro accepted
    obtain ⟨after, accepted⟩ := allowed_iff.mp accepted
    obtain ⟨target, result, note, commits⟩ := mutate_eq_ok distinct accepted
    exact refuses (locate_of_mem distinct commits.member commits.named) _ _ commits.applied
  · intro call
    rw [Bool.eq_false_iff]
    intro accepted
    obtain ⟨after, accepted⟩ := allowed_iff.mp accepted
    obtain ⟨target, result, note, found, -, applied, -⟩ := commitPrepared_eq_ok accepted
    exact refuses found _ _ applied

/-- In every state that any clients reach, a reservation has the claim that it needs, it keeps out
every command that would take the claim away, and it ends only with its execution. -/
theorem reservation_run (files : Files) (backend : Backend) {start : System} (fenced : FencedStore start.store)
    (actions : List Action) :
    let system := Run.final (System.act files backend) start actions
    FencedStore system.store ∧
      (∀ task ∈ system.store.tasks, Reserved task.fields → ∀ name, task.fields.get "id" = .str name →
        ∀ m : Mutation, m.fenced = true → ∀ world,
          allowed (mutate files backend world system.store name m) = false ∧
            ∀ call, allowed (commitPrepared files world call system.store name m) = false) ∧
      ∀ action, ∀ task ∈ system.store.tasks, Reserved task.fields →
        ∀ next ∈ (system.act files backend action).store.tasks, next.path = task.path →
          Survives system action task.fields next.fields := by
  intro system
  have keeps (system : System) (action : Action) (holds : FencedStore system.store) :
      FencedStore (system.act files backend action).store := act_fencedStore holds
  have kept : FencedStore system.store := Run.invariant_always (System.act files backend) keeps actions fenced
  refine ⟨kept, fun task member reserved name named m fences world => ?_, fun action => (act_fence kept).2⟩
  obtain ⟨direct, prepared⟩ := fenced_refused files kept member reserved named fences world
  exact ⟨direct backend, prepared⟩

/-- The claimed sample with a reservation that ends before its lease. -/
def reservedSample : Meta := claimedSample.set "execution_reservation" (.obj
  [("execution_id", .str "00000000000000000000000000000001"), ("owner", .str "worker"), ("task_revision", .int 3),
    ("envelope_digest", .str sampleDigest), ("command_class", .str "test"), ("scope_digest", .str sampleDigest),
    ("argv_digest", .str "0123456789abcdef0123456789abcdef0123456789abcdef0123456789abcdef"),
    ("expires_at", .str "2026-01-03T12:00:00+00:00")])

def reservedSystem : System := ⟨sampleStore reservedSample, []⟩

theorem reservedSystem_fenced : FencedStore reservedSystem.store := by
  refine ⟨⟨by decide, by decide⟩, fun task member => ?_⟩
  obtain rfl := List.mem_singleton.mp member
  intro _
  have lease : instantOf (claimExpires reservedSample).text = some 63903081600000000 := by decide +kernel
  have ends : reservedUntil reservedSample = some 63903038400000000 := by decide +kernel
  exact ⟨rfl, rfl, _, _, lease, ends, by decide⟩

/-- A client's heartbeat leaves the reservation of the sample fenced. -/
theorem reservedSystem_run : FencedStore (Run.final (System.act sampleFiles .sqlite) reservedSystem
    [.event (.mutation sampleWorld "AR-0001" (.heartbeat "worker" 10 none))]).store :=
  (reservation_run sampleFiles .sqlite reservedSystem_fenced _).1

end Coordinator.Authority
