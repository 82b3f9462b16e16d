import Coordinator.Kit.Locks
import Coordinator.SessionTransitions
import Mathlib.Data.Fintype.Defs
import Mathlib.Order.Fin.Basic

/-! The fence between mutations of the authority and the barrier session. A mutation takes the common, the control and the
authority lock, looks at the session, and goes on only while it is released. Sessions change one commit after the other under the
first two locks at least. Processes interleave at every lock, every commit and every write, and die anywhere. -/

namespace Coordinator.MutationFence
open Kit Kit.Durable BarrierSession

inductive Lock
  | common
  | control
  | authority
  deriving DecidableEq

/-- The order in which the locks are taken. -/
def Lock.rank : Lock → Nat
  | .common => 0
  | .control => 1
  | .authority => 2

theorem rank_injective : Function.Injective Lock.rank := by
  intro first second same
  cases first <;> cases second <;> first | rfl | cases same

instance : LinearOrder Lock := LinearOrder.lift' Lock.rank rank_injective

theorem rank_lt {first second : Lock} : first < second ↔ first.rank < second.rank := Iff.rfl

instance : WellFoundedGT Lock :=
  ⟨Subrelation.wf (fun {first second} (later : second < first) => (show 2 - first.rank < 2 - second.rank by
    have order := rank_lt.mp later
    cases first <;> cases second <;> simp_all [Lock.rank])) (InvImage.wf (fun lock : Lock => 2 - lock.rank) Nat.lt_wfRel.wf)⟩

/-- What a process takes locks for: a mutation of the authority, one operation of the control store, a scope of the whole lock
domain, or a command that only excludes other commands. -/
inductive Task
  | mutation
  | operation
  | domain
  | command
  deriving DecidableEq

def Task.needs : Task → List Lock
  | .mutation | .domain => [.common, .control, .authority]
  | .operation => [.common, .control]
  | .command => [.common]

theorem Task.ordered (task : Task) : task.needs.Pairwise (· < ·) := by
  cases task <;> simp [Task.needs, rank_lt, Lock.rank]

section observation

variable (project : String) (db : SessionStore)

/-- The session as a mutation sees it. A released one that has advanced has to be in the journal, and no effect may be open. -/
def observeConnection : BarrierSession.Outcome (Option BarrierSessionState) :=
  match db.row with
  | none => .ok none
  | some row => do
      let current ← readRow project row
      refuseIf (current.status == .released && decide (1 < current.revision) &&
        !db.intents.any (fun intent => namesSession current intent && intent.proposedRevision == current.revision))
        "durable barrier session intent is missing"
      refuseIf (db.preparedEffects != []) "durable authority effect intent is unresolved"
      pure (some current)

/-- The status of the barrier under the identity that the fence is bound to, which is the first one that it has seen. -/
def readBarrierStatus (bound : Option BarrierSessionIdentity) : BarrierSession.Outcome (Status × BarrierSessionIdentity) := do
  let observed ← observeConnection project db
  let current ← orRaise observed (.controlStore "durable control barrier is missing or ambiguous")
  refuseIf (bound.any (· != current.identity)) "barrier session identity changed"
  pure (current.status, current.identity)

end observation

variable {Content : Type}

structure World (Content : Type) where
  locks : Locks Lock
  task : Nat → Task
  sessions : Sessions
  pending : Nat → List SessionStore
  bound : Nat → Option BarrierSessionIdentity
  admitted : Nat → Bool
  authority : Content

def World.start (authority : Content) : World Content :=
  ⟨.free, fun _ => .command, .empty, fun _ => [], fun _ => none, fun _ => false, authority⟩

inductive Event (Content : Type)
  | enter (pid : Nat) (task : Task)
  | take (pid : Nat)
  | look (pid : Nat)
  | observe (pid : Nat)
  | write (pid : Nat) (content : Content)
  | begin (pid : Nat) (call : Call)
  | commit (pid : Nat)
  | leave (pid : Nat)
  | die (pid : Nat)

section runs

variable (project : String) (w : World Content)

def World.inside (pid : Nat) : Bool :=
  match w.locks.scope pid with
  | none => false
  | some scope => decide (scope.needs.length ≤ scope.taken) && !scope.leaving

/-- A process whose body is over neither is admitted nor has commits to make. -/
def World.over (pid : Nat) (locks : Locks Lock) : World Content :=
  { w with locks, pending := Function.update w.pending pid [], admitted := Function.update w.admitted pid false }

def World.enter (pid : Nat) (task : Task) : World Content :=
  { w.over pid (w.locks.enter pid task.needs task.ordered) with task := Function.update w.task pid task }

/-- A mutation is admitted while the session is released, and otherwise raises. -/
def World.observe (pid : Nat) : World Content :=
  if w.inside pid && w.task pid == .mutation then
    match readBarrierStatus project w.sessions.store (w.bound pid) with
    | .ok (.released, identity) =>
        { w with admitted := Function.update w.admitted pid true, bound := Function.update w.bound pid (some identity) }
    | .ok (_, identity) => { w with bound := Function.update w.bound pid (some identity) }
    | .error _ => w
  else w

/-- An operation on the session plans its commits under the locks. -/
def World.begin (pid : Nat) (call : Call) : World Content :=
  if w.inside pid && (w.task pid == .operation || w.task pid == .domain) then
    { w with pending := Function.update w.pending pid (w.sessions.program project { call with pid := pid }).effects }
  else w

def World.commit (pid : Nat) : World Content :=
  match w.pending pid with
  | [] => w
  | after :: rest =>
      { w with sessions := { w.sessions with store := after }, pending := Function.update w.pending pid rest }

def step : Event Content → World Content
  | .enter pid task => if w.locks.scope pid = none then w.enter pid task else w
  | .take pid => { w with locks := w.locks.take pid }
  | .look pid => { w with sessions := w.sessions.look project pid }
  | .observe pid => w.observe project pid
  | .write pid content => if w.admitted pid then { w with authority := content } else w
  | .begin pid call => w.begin project pid call
  | .commit pid => w.commit pid
  | .leave pid => w.over pid (w.locks.leave pid)
  | .die pid => w.over pid (w.locks.die pid)

end runs

/-- The session lets mutations of the authority through. -/
def Released (db : SessionStore) : Prop := ∃ current, db.row = some current ∧ current.status = .released ∧ db.preparedEffects = []

structure Safe (w : World Content) : Prop where
  owned : w.locks.Owned
  needs : ∀ pid scope, w.locks.scope pid = some scope → scope.needs = (w.task pid).needs
  planned : ∀ pid, w.pending pid ≠ [] → w.inside pid = true ∧ (w.task pid = .operation ∨ w.task pid = .domain)
  admitted : ∀ pid, w.admitted pid = true → w.inside pid = true ∧ w.task pid = .mutation ∧ Released w.sessions.store

section safety

variable {project : String} {w : World Content} {pid other : Nat} {locks : Locks Lock}

theorem inside_eq_true : w.inside pid = true ↔ ∃ scope, w.locks.scope pid = some scope ∧ scope.Inside := by
  unfold World.inside
  cases w.locks.scope pid with
  | none => simp
  | some scope => simp [Scope.Inside]

theorem inside_congr {later : World Content} (same : later.locks.scope pid = w.locks.scope pid) : later.inside pid = w.inside pid := by
  rw [World.inside, same, World.inside]

theorem Task.common (task : Task) : .common ∈ task.needs := by
  cases task <;> simp [Task.needs]

/-- Bodies of scopes exclude each other. -/
theorem Safe.alone (safe : Safe w) (first : w.inside pid = true) (second : w.inside other = true) : pid = other := by
  obtain ⟨scope, entered, inside⟩ := inside_eq_true.mp first
  obtain ⟨found, also, within⟩ := inside_eq_true.mp second
  have first : Lock.common ∈ scope.held := by
    rw [Scope.held_of_inside inside, safe.needs pid scope entered]
    exact Task.common _
  have second : Lock.common ∈ found.held := by
    rw [Scope.held_of_inside within, safe.needs other found also]
    exact Task.common _
  exact safe.owned.exclusive entered also first second

/-- Nobody has commits to make while a mutation is admitted. -/
theorem Safe.quiet (safe : Safe w) (admitted : w.admitted pid = true) (other : Nat) : w.pending other = [] := by
  by_contra planned
  obtain ⟨within, task⟩ := safe.planned other planned
  obtain ⟨inside, mutation, -⟩ := safe.admitted pid admitted
  rw [safe.alone inside within] at mutation
  rw [mutation] at task
  obtain same | same := task <;> cases same

theorem readBarrierStatus_released {db : SessionStore} {bound : Option BarrierSessionIdentity} {identity : BarrierSessionIdentity}
    (read : readBarrierStatus project db bound = .ok (.released, identity)) : Released db := by
  simp only [readBarrierStatus, bind_eq_ok, exists_unit, orRaise_eq_ok, refuseIf_eq_ok, pure_eq_ok, Prod.mk.injEq] at read
  obtain ⟨observed, looked, current, rfl, -, released, -⟩ := read
  unfold observeConnection at looked
  split at looked
  · cases looked
  · next row found =>
    simp only [bind_eq_ok, exists_unit, readRow_eq_ok, refuseIf_eq_ok, pure_eq_ok, Option.some.injEq, bne_eq_false_iff_eq] at looked
    obtain ⟨_, ⟨-, rfl⟩, -, settled, rfl⟩ := looked
    exact ⟨row, found, released, settled⟩

/-- A process whose body is over leaves the others where they are. -/
theorem Safe.over (safe : Safe w) (owned : locks.Owned) (others : ∀ other, other ≠ pid → locks.scope other = w.locks.scope other)
    (needs : ∀ scope, locks.scope pid = some scope → scope.needs = (w.task pid).needs) : Safe (w.over pid locks) := by
  have inside : ∀ other, other ≠ pid → (w.over pid locks).inside other = w.inside other := fun other apart => inside_congr (others other apart)
  refine ⟨owned, fun other scope entered => ?_, fun other planned => ?_, fun other admitted => ?_⟩
  · by_cases here : other = pid
    · subst here
      exact needs scope entered
    · exact safe.needs other scope ((others other here).symm.trans entered)
  · simp only [World.over, Function.update_apply] at planned
    split at planned
    · exact absurd rfl planned
    · next apart =>
      rw [inside other apart]
      exact safe.planned other planned
  · simp only [World.over, Function.update_apply] at admitted
    split at admitted
    · cases admitted
    · next apart =>
      rw [inside other apart]
      exact safe.admitted other admitted

theorem Safe.enter (safe : Safe w) (outside : w.locks.scope pid = none) (task : Task) : Safe (w.enter pid task) := by
  have others : ∀ other, other ≠ pid → (w.enter pid task).inside other = w.inside other ∧ (w.enter pid task).task other = w.task other :=
    fun other apart => ⟨inside_congr (Locks.enter_scope _ _ apart), Function.update_of_ne apart _ _⟩
  refine ⟨safe.owned.enter outside _ _, fun other scope entered => ?_, fun other planned => ?_, fun other admitted => ?_⟩
  · by_cases here : other = pid
    · subst here
      cases (Function.update_self other _ _).symm.trans entered
      have same : (w.enter other task).task other = task := Function.update_self other _ _
      rw [same]
    · rw [(others other here).2]
      exact safe.needs other scope ((Locks.enter_scope _ _ here).symm.trans entered)
  · simp only [World.enter, World.over, Function.update_apply] at planned
    split at planned
    · exact absurd rfl planned
    · next here =>
      rw [(others other here).1, (others other here).2]
      exact safe.planned other planned
  · simp only [World.enter, World.over, Function.update_apply] at admitted
    split at admitted
    · cases admitted
    · next here =>
      rw [(others other here).1, (others other here).2]
      exact safe.admitted other admitted

theorem Safe.take (safe : Safe w) (pid : Nat) : Safe { w with locks := w.locks.take pid } := by
  have inside : ∀ other, w.inside other = true → World.inside { w with locks := w.locks.take pid } other = true := by
    intro other within
    by_cases here : other = pid
    · subst here
      obtain ⟨scope, entered, done⟩ := inside_eq_true.mp within
      rw [Locks.take_inside entered done]
      exact within
    · exact (inside_congr (Locks.take_scope here)).trans within
  refine ⟨safe.owned.take pid, fun other scope entered => ?_, fun other planned => ?_, fun other admitted => ?_⟩
  · by_cases here : other = pid
    · subst here
      obtain ⟨before, found, same⟩ := Locks.take_needs entered
      rw [same]
      exact safe.needs other before found
    · exact safe.needs other scope ((Locks.take_scope here).symm.trans entered)
  · obtain ⟨within, which⟩ := safe.planned other planned
    exact ⟨inside other within, which⟩
  · obtain ⟨within, which, released⟩ := safe.admitted other admitted
    exact ⟨inside other within, which, released⟩

theorem Safe.observe (safe : Safe w) (pid : Nat) : Safe (w.observe project pid) := by
  unfold World.observe
  split
  · next ready =>
    simp only [Bool.and_eq_true, beq_iff_eq] at ready
    split
    · next identity read =>
      refine ⟨safe.owned, safe.needs, safe.planned, fun other admitted => ?_⟩
      simp only [Function.update_apply] at admitted
      split at admitted
      · next here =>
        subst here
        exact ⟨ready.1, ready.2, readBarrierStatus_released read⟩
      · exact safe.admitted other admitted
    · exact ⟨safe.owned, safe.needs, safe.planned, safe.admitted⟩
    · exact safe
  · exact safe

theorem Safe.begin (safe : Safe w) (pid : Nat) (call : Call) : Safe (w.begin project pid call) := by
  unfold World.begin
  split
  · next ready =>
    simp only [Bool.and_eq_true, Bool.or_eq_true, beq_iff_eq] at ready
    refine ⟨safe.owned, safe.needs, fun other planned => ?_, safe.admitted⟩
    simp only [Function.update_apply] at planned
    split at planned
    · next here =>
      subst here
      exact ready
    · exact safe.planned other planned
  · exact safe

theorem Safe.commit (safe : Safe w) (pid : Nat) : Safe (w.commit pid) := by
  unfold World.commit
  split
  · exact safe
  · next after rest planned =>
    refine ⟨safe.owned, safe.needs, fun other more => ?_, fun other admitted => ?_⟩
    · simp only [Function.update_apply] at more
      split at more
      · next here =>
        subst here
        exact safe.planned other (by rw [planned]; exact List.cons_ne_nil after rest)
      · exact safe.planned other more
    · have quiet := safe.quiet admitted pid
      rw [planned] at quiet
      cases quiet

theorem Safe.step (safe : Safe w) (event : Event Content) : Safe (step project w event) := by
  cases event with
  | enter pid task =>
    simp only [MutationFence.step]
    split
    · next outside => exact safe.enter outside task
    · exact safe
  | take pid => exact safe.take pid
  | look pid =>
    obtain ⟨owned, needs, planned, admitted⟩ := safe
    have same : (w.sessions.look project pid).store = w.sessions.store := look_store w.sessions pid
    refine ⟨owned, needs, planned, fun other found => ?_⟩
    obtain ⟨inside, which, released⟩ := admitted other found
    exact ⟨inside, which, same.symm ▸ released⟩
  | observe pid => exact safe.observe pid
  | write pid content =>
    simp only [MutationFence.step]
    split
    · exact ⟨safe.owned, safe.needs, safe.planned, safe.admitted⟩
    · exact safe
  | begin pid call => exact safe.begin pid call
  | commit pid => exact safe.commit pid
  | leave pid =>
    refine safe.over (safe.owned.leave pid) (fun other apart => Locks.leave_scope apart) fun scope left => ?_
    obtain ⟨before, found, same⟩ := Locks.leave_needs left
    rw [same]
    exact safe.needs pid before found
  | die pid =>
    refine safe.over (safe.owned.die pid) (fun other apart => Locks.die_scope apart) fun scope died => ?_
    simp only [Locks.die, Function.update_self] at died
    cases died

theorem safe_start (authority : Content) : Safe (World.start authority) where
  owned := Locks.free_owned
  needs pid scope entered := by cases entered
  planned pid planned := absurd rfl planned
  admitted pid admitted := by cases admitted

end safety

/-- What a step may do: it writes to the authority only for an admitted mutation, and while one is admitted it leaves the
session alone. -/
structure Guarded (before after : World Content) : Prop where
  writes : after.authority ≠ before.authority → ∃ pid, before.admitted pid = true
  still : ∀ pid, before.admitted pid = true → after.sessions.store = before.sessions.store

theorem guarded_step {project : String} {w : World Content} (safe : Safe w) (event : Event Content) : Guarded w (step project w event) := by
  cases event with
  | enter pid task =>
    simp only [step]
    split <;> exact ⟨fun changed => absurd rfl changed, fun _ _ => rfl⟩
  | take pid => exact ⟨fun changed => absurd rfl changed, fun _ _ => rfl⟩
  | look pid => exact ⟨fun changed => absurd rfl changed, fun _ _ => look_store w.sessions pid⟩
  | observe pid =>
    simp only [step, World.observe]
    split
    · split <;> exact ⟨fun changed => absurd rfl changed, fun _ _ => rfl⟩
    · exact ⟨fun changed => absurd rfl changed, fun _ _ => rfl⟩
  | write pid content =>
    simp only [step]
    split
    · next admitted => exact ⟨fun _ => ⟨pid, admitted⟩, fun _ _ => rfl⟩
    · exact ⟨fun changed => absurd rfl changed, fun _ _ => rfl⟩
  | begin pid call =>
    simp only [step, World.begin]
    split <;> exact ⟨fun changed => absurd rfl changed, fun _ _ => rfl⟩
  | commit pid =>
    simp only [step, World.commit]
    split
    · exact ⟨fun changed => absurd rfl changed, fun _ _ => rfl⟩
    · next after rest planned =>
      refine ⟨fun changed => absurd rfl changed, fun other admitted => ?_⟩
      have quiet := safe.quiet admitted pid
      rw [planned] at quiet
      cases quiet
  | leave pid => exact ⟨fun changed => absurd rfl changed, fun _ _ => rfl⟩
  | die pid => exact ⟨fun changed => absurd rfl changed, fun _ _ => rfl⟩

theorem safe_run (project : String) (authority : Content) (events : List (Event Content)) :
    Safe (Run.final (step project) (World.start authority) events) := by
  have keeps : ∀ (w : World Content) event, Safe w → Safe (step project w event) := fun w event safe => safe.step event
  exact Run.invariant_always (step project) keeps events (safe_start authority)

end Coordinator.MutationFence
