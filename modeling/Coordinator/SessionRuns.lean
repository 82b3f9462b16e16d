import Coordinator.SessionWrites
import Mathlib.Logic.Function.Basic

/-! Runs of the session store under any number of processes. An operation runs under the locks, and its
commits may raise or its process die at them; the snapshot that a typed transition works on was read
under locks that have been given back since. -/

namespace Coordinator.BarrierSession
open Kit Kit.Durable

/-- The store, and the snapshot that each process has read last. -/
structure Sessions where
  store : SessionStore
  views : Nat → Option BarrierSessionState

def Sessions.empty : Sessions := ⟨.empty, fun _ => none⟩

structure Call where
  pid : Nat
  operation : Operation
  fates : Site → Fate := fun _ => .done
  died : Option Nat := none

inductive Event
  | look (pid : Nat)
  | call (call : Call)

section runs

variable (project : String)

/-- The program that a call runs in the state that it meets. -/
def Sessions.program (s : Sessions) (call : Call) : Program Reply :=
  perform project call.fates (s.views call.pid) s.store call.operation

def Sessions.look (s : Sessions) (pid : Nat) : Sessions :=
  match snapshotLocked project s.store with
  | .ok found => { s with views := Function.update s.views pid found }
  | .error _ => s

def step (s : Sessions) : Event → Sessions
  | .look pid => s.look project pid
  | .call call => { s with store := left call.died s.store (s.program project call) }

/-- A session was current before another one, or an earlier state of it. -/
def Older (first later : BarrierSessionState) : Prop :=
  first = later ∨ first.identity = later.identity ∧ first.revision < later.revision ∨
    first.identity.stateRevision < later.identity.stateRevision

end runs

section order

variable {first middle last : BarrierSessionState}

theorem Older.trans (earlier : Older first middle) (later : Older middle last) : Older first last := by
  obtain rfl | ⟨same, less⟩ | less := earlier
  · exact later
  · obtain rfl | ⟨same', less'⟩ | less' := later
    · exact .inr (.inl ⟨same, less⟩)
    · exact .inr (.inl ⟨same.trans same', less.trans less'⟩)
    · exact .inr (.inr (same ▸ less'))
  · obtain rfl | ⟨same', -⟩ | less' := later
    · exact .inr (.inr less)
    · exact .inr (.inr (same' ▸ less))
    · exact .inr (.inr (less.trans less'))

theorem Older.eq (older : Older first last) (same : first.identity = last.identity) (level : first.revision = last.revision) :
    first = last := by
  obtain equal | ⟨-, less⟩ | less := older
  · exact equal
  · exact absurd level (Nat.ne_of_lt less)
  · exact absurd (same ▸ less) (lt_irrefl _)

theorem older_fenced (state : BarrierSessionState) : Older state state.fenced := .inr (.inl ⟨rfl, Nat.lt_succ_self _⟩)

end order

/-- What one commit of an operation does to the row. -/
inductive RowChange (project : String) (fates : Site → Fate) (operation : Operation) (db : SessionStore) :
    Option BarrierSessionState → Option BarrierSessionState → Prop
  | kept (row) : RowChange project fates operation db row row
  | proposed {history expected supplied} (proposes : Proposes project operation db history expected supplied) :
      RowChange project fates operation db db.row (some supplied)
  | fenced {current} (alive : live current.status = true ∨ fates .session ≠ .done) :
      RowChange project fates operation db (some current) (some current.fenced)
  | inserted {next} (raised : fates .session ≠ .done) (ambiguous : next.status = .ambiguous) :
      RowChange project fates operation db none (some next)

section rows

variable {project : String} {fates : Site → Fate} {operation : Operation} {db before after : SessionStore}
  {current : BarrierSessionState}

/-- The session that is proposed follows the one in the row. -/
theorem older_of_proposes {history : List BarrierSessionState} {expected : Nat} {supplied : BarrierSessionState}
    (proposes : Proposes project operation db history expected supplied) (row : db.row = some current) : Older current supplied := by
  cases proposes with
  | first empty => cases empty.symm.trans row
  | replacing row' readable released supplies held one apart newer =>
    cases row'.symm.trans row
    exact .inr (.inr newer)
  | advancing row' readable supplies same permitted next =>
    cases row'.symm.trans row
    exact .inr (.inl ⟨same.symm, next ▸ Nat.lt_succ_self _⟩)
  | reconciling row' readable ambiguous supplies asked held one fence =>
    cases row'.symm.trans row
    simp only [freshFence, Bool.and_eq_true, decide_eq_true_eq] at fence
    exact .inr (.inr fence.1.1.2)

theorem fenceSession_row {supplied : BarrierSessionState} {expected : Nat} (row : before.row = some current)
    (fence : fenceSession project before supplied expected = .ok after) : after = { before with row := some current.fenced } := by
  simp only [fenceSession, row, bind_eq_ok, readRow_eq_ok, pure_eq_ok] at fence
  obtain ⟨_, ⟨-, rfl⟩, rfl⟩ := fence
  rfl

theorem RowChange.fencedIf {choice : Prop} [Decidable choice] (alive : choice → live current.status = true) :
    RowChange project fates operation db (some current) (some (if choice then current.fenced else current)) := by
  split
  · next chosen => exact .fenced (.inl (alive chosen))
  · exact .kept _

theorem fenceSession_change {supplied : BarrierSessionState} {expected : Nat} (raised : fates .session ≠ .done)
    (fence : fenceSession project before supplied expected = .ok after) :
    RowChange project fates operation db before.row after.row := by
  cases row : before.row with
  | none =>
    simp only [fenceSession, row, bind_eq_ok, BarrierSessionState.make_eq_ok, pure_eq_ok] at fence
    obtain ⟨_, made, rfl⟩ := fence
    exact .inserted raised (by rw [made])
  | some current =>
    rw [fenceSession_row row fence]
    exact .fenced (.inr raised)

theorem Write.rowChange (write : Write project fates operation db before after) :
    RowChange project fates operation db before.row after.row := by
  cases write with
  | proposed proposes => exact .proposed proposes
  | settled chosen final => exact .kept _
  | fenced raised proposes durable fence => exact fenceSession_change raised fence
  | fencedAll raised fence =>
    simp only [fenceRecovery, bind_eq_ok, currentSession_eq_ok, pure_eq_ok] at fence
    obtain ⟨latest, ⟨row, -⟩, rfl⟩ := fence
    rw [row]
    exact .fencedIf id
  | recovered asked row alive other =>
    rw [row]
    exact .fenced (.inl alive)
  | recoveredEffects asked row named =>
    rw [row]
    exact .fencedIf fun held => by rw [held]; rfl
  | prepared asked admitted =>
    obtain ⟨_, _, -, -, -, -, -, -, -, -, rfl⟩ := admitEffect_ok admitted
    exact .kept _
  | finished asked admitted =>
    obtain ⟨_, row, -, matching, -, -, -, rfl, rfl⟩ := admitFinish_ok admitted
    simp only [effectIntentMatches, Bool.and_eq_true, beq_iff_eq] at matching
    rw [row]
    exact .fencedIf fun _ => by rw [matching.1.1]; rfl

/-- A commit leaves the row as it is or has a later session follow it. -/
theorem RowChange.older {row next : Option BarrierSessionState} (change : RowChange project fates operation db row next)
    (found : row = some current) : ∃ later, next = some later ∧ Older current later := by
  cases change with
  | kept => exact ⟨current, found, .inl rfl⟩
  | proposed proposes => exact ⟨_, rfl, older_of_proposes proposes found⟩
  | fenced alive =>
    cases found
    exact ⟨_, rfl, older_fenced current⟩
  | inserted raised ambiguous => cases found

/-- Every snapshot was current once. -/
def Seen (s : Sessions) : Prop :=
  ∀ pid seen, s.views pid = some seen → ∃ current, s.store.row = some current ∧ Older seen current

theorem Seen.coherent {s : Sessions} (seen : Seen s) (pid : Nat) : Coherent (s.views pid) s.store := by
  intro view current viewed row same level
  obtain ⟨found, row', older⟩ := seen pid view viewed
  cases row'.symm.trans row
  exact older.eq same level

theorem seen_empty : Seen .empty := fun _ seen viewed => absurd viewed (SessionStore.empty_row seen)

theorem look_store (s : Sessions) (pid : Nat) : (s.look project pid).store = s.store := by
  unfold Sessions.look
  split <;> rfl

theorem look_views {s : Sessions} {pid other : Nat} {view : BarrierSessionState}
    (viewed : (s.look project pid).views other = some view) : s.store.row = some view ∨ s.views other = some view := by
  unfold Sessions.look at viewed
  split at viewed
  · next found read =>
    by_cases same : other = pid
    · subst same
      simp only [Function.update_self] at viewed
      exact .inl ((snapshotLocked_eq_ok.mp read).1.trans viewed)
    · simp only [Function.update_of_ne same] at viewed
      exact .inr viewed
  · exact .inr viewed

/-- The commits of a call in a state whose snapshots were current once. -/
theorem Seen.writes {s : Sessions} (seen : Seen s) (project : String) (call : Call) :
    Writes (Write project call.fates call.operation s.store) s.store (s.program project call) :=
  perform_writes (seen.coherent call.pid) call.operation

theorem Seen.step {s : Sessions} (seen : Seen s) (event : Event) : Seen (step project s event) := by
  cases event with
  | look pid =>
    intro other view viewed
    change ∃ current, (s.look project pid).store.row = some current ∧ _
    rw [look_store]
    obtain row | viewed := look_views viewed
    · exact ⟨view, row, .inl rfl⟩
    · exact seen other view viewed
  | call call =>
    intro other view viewed
    obtain ⟨current, row, older⟩ := seen other view viewed
    have follows : ∀ before after, (∃ next, before.row = some next ∧ Older view next) →
        Write project call.fates call.operation s.store before after → ∃ next, after.row = some next ∧ Older view next := by
      rintro before after ⟨next, row, older⟩ write
      obtain ⟨later, row, newer⟩ := write.rowChange.older row
      exact ⟨later, row, older.trans newer⟩
    exact left_invariant follows (seen.writes project call) ⟨current, row, older⟩ call.died

end rows

/-- An invariant that the commits of allowed calls keep holds after a run of allowed calls. -/
theorem sessions_invariant {project : String} (Invariant : SessionStore → Prop) {Allowed : Sessions → Event → Prop}
    (keeps : ∀ s call, Seen s → Invariant s.store → Allowed s (.call call) →
      ∀ before after, Invariant before → Write project call.fates call.operation s.store before after → Invariant after)
    {events : List Event} {start : Sessions} (seen : Seen start) (holds : Invariant start.store)
    (along : Run.Along (step project) Allowed start events) :
    Seen (Run.final (step project) start events) ∧ Invariant (Run.final (step project) start events).store := by
  have keeps_both : ∀ s event, Seen s ∧ Invariant s.store → Allowed s event →
      Seen (step project s event) ∧ Invariant (step project s event).store := by
    intro s event both allowed
    refine ⟨both.1.step event, ?_⟩
    cases event with
    | look pid =>
      rw [step, look_store]
      exact both.2
    | call call => exact left_invariant (keeps s call both.1 both.2 allowed) (both.1.writes project call) both.2 call.died
  exact Run.invariant (step project) keeps_both events start ⟨seen, holds⟩ along

/-- What every commit of a call does to the row is kept by it. -/
theorem sessions_row_invariant {project : String} (Invariant : Option BarrierSessionState → Prop) {Allowed : Sessions → Event → Prop}
    (keeps : ∀ s call row next, Allowed s (.call call) → Invariant row →
      RowChange project call.fates call.operation s.store row next → Invariant next)
    {events : List Event} {start : Sessions} (seen : Seen start) (holds : Invariant start.store.row)
    (along : Run.Along (step project) Allowed start events) :
    Seen (Run.final (step project) start events) ∧ Invariant (Run.final (step project) start events).store.row :=
  sessions_invariant (fun db => Invariant db.row)
    (fun s call _ _ allowed _ _ before write => keeps s call _ _ allowed before write.rowChange) seen holds along

end Coordinator.BarrierSession
