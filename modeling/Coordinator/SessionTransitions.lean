import Coordinator.SessionReplies

/-! The law that the transitions of one session follow. The typed transitions follow it by
themselves; the compare and swap takes any session that the status table lets through. -/

namespace Coordinator.BarrierSession
open Kit Kit.Durable

/-- A begin of a reopening has left the session releasing, with its target. -/
def Begun (project : String) (past : List Event) (identity : BarrierSessionIdentity) (target : Target) : Prop :=
  ∃ first call rest, past = first ++ .call call :: rest ∧
    (∃ reading expected text evidence, call.operation = .transition reading expected (.beginReopen text evidence) ∧
      Target.ofText? text = some target) ∧
    ∃ row, (step project (Run.final (step project) .empty first) (.call call)).store.row = some row ∧
      row.identity = identity ∧ row.status = .releasing ∧ row.reopenTarget = some target

/-- What a transition may do to the row. -/
inductive Lawful (recorded : BarrierSessionIdentity → Target → Prop) :
    Option BarrierSessionState → Option BarrierSessionState → Prop
  | stays (row) : Lawful recorded row row
  | starts (next) (held : next.status = .held) (one : next.revision = 1) : Lawful recorded none (some next)
  | replaces (current next) (ended : current.status = .released ∨ current.status = .ambiguous)
      (other : next.identity ≠ current.identity) (held : next.status = .held) (one : next.revision = 1) :
      Lawful recorded (some current) (some next)
  | advances (current next) (keeps : Keeps current next)
      (reopened : next.status = .released → current.status ≠ .released → current.status = .releasing ∧
        ∃ target, current.reopenTarget = some target ∧ next.reopenTarget = some target ∧ recorded current.identity target) :
      Lawful recorded (some current) (some next)

/-- A session that is supplied for one of its identity keeps what is bound, and leaves the target of a reopening to
the transitions that set and follow it. -/
structure Conserves (current supplied : BarrierSessionState) : Prop where
  children : ∀ target child, current.childFor target = some child → supplied.childFor target = some child
  begun : current.status = .held → supplied.status ≠ .releasing
  reopening : current.status = .releasing → supplied.status ≠ .ambiguous → supplied.reopenTarget = current.reopenTarget

/-- The session that a compare and swap supplies. -/
def Operation.swapped : Operation → Option BarrierSessionState
  | .cas _ _ state | .casHeld _ _ _ state => some state
  | _ => none

/-- A compare and swap that the status table lets through conserves the session. -/
def Conserving (s : Sessions) : Event → Prop
  | .look _ => True
  | .call call => ∀ current supplied, s.store.row = some current → call.operation.swapped = some supplied →
      supplied.identity = current.identity → supplied.revision = current.revision + 1 →
      supplied.status ∈ statusTransitions current.status → Conserves current supplied

/-- A session that is releasing has a begun reopening. -/
def Reopening (project : String) (past : List Event) (db : SessionStore) : Prop :=
  ∀ current, db.row = some current → current.status = .releasing →
    ∃ target, current.reopenTarget = some target ∧ Begun project past current.identity target

section transitions

variable {project : String} {past : List Event} {s : Sessions} {call : Call} {operation : Operation} {db : SessionStore}
  {current supplied : BarrierSessionState}

/-- An operation that advances a session is a transition of it or a compare and swap. -/
theorem advancing_cases (supplies : Supplies operation (some current) supplied) (same : supplied.identity = current.identity)
    (next : supplied.revision = current.revision + 1) :
    operation.swapped = some supplied ∨ ∃ reading expected transition, operation = .transition reading expected transition ∧
      transition.apply current expected = .ok supplied := by
  cases operation with
  | create reading identity =>
    have one : supplied.revision = 1 := by rw [show supplied = initialState identity .held from supplies]; rfl
    have positive := current.revision_pos
    omega
  | provisionReleased identity => exact supplies.elim
  | cas reading expected state => exact .inl (congrArg some supplies.symm)
  | casHeld reading identity expected state => exact .inl (congrArg some supplies.symm)
  | transition reading expected transition => exact .inr ⟨reading, expected, transition, rfl, supplies⟩
  | recoverUnknown => exact supplies.elim
  | reconcileAmbiguous reading expected replacement =>
    obtain ⟨rfl, fence⟩ := supplies
    rw [same] at fence
    simp [freshFence] at fence
  | prepareEffect request => exact supplies.elim
  | finishEffect intent outcome receipt => exact supplies.elim

theorem fenced_keeps (current : BarrierSessionState) (alive : live current.status = true) : Keeps current current.fenced where
  identity := rfl
  revision := rfl
  permitted := by
    change Status.ambiguous ∈ _
    cases status : current.status <;> simp_all [live, statusTransitions]
  children target child bound := by cases target <;> exact bound

theorem fenced_lawful {recorded : BarrierSessionIdentity → Target → Prop} (alive : live current.status = true) :
    Lawful recorded (some current) (some current.fenced) :=
  .advances _ _ (fenced_keeps current alive) nofun

/-- A typed transition that releases follows the target of the reopening. -/
theorem Transition.released {transition : Transition} {expected : Nat} (applied : transition.apply current expected = .ok supplied)
    (released : supplied.status = .released) :
    current.status = .releasing ∧ supplied.reopenTarget = current.reopenTarget ∧ ∃ evidence, transition = .completeReopen evidence := by
  cases transition with
  | bindChild child =>
    obtain ⟨-, held, ⟨-, -, made⟩ | ⟨-, -, -, made⟩⟩ := BarrierSessionContract.bindChild_ok applied <;>
      simp [made, held] at released
  | beginReopen target evidence =>
    obtain ⟨-, -, _, _, -, -, made⟩ := BarrierSessionContract.beginReopen_ok applied
    simp [made] at released
  | completeReopen evidence =>
    obtain ⟨-, releasing, -, made⟩ := BarrierSessionContract.completeReopen_ok applied
    exact ⟨releasing, by rw [made], evidence, rfl⟩
  | markAmbiguous causeCode =>
    obtain ⟨-, -, made⟩ := BarrierSessionContract.markAmbiguous_ok applied
    simp [made] at released

/-- A typed transition that leaves a session releasing begins its reopening. -/
theorem Transition.releasing {transition : Transition} {expected : Nat} (applied : transition.apply current expected = .ok supplied)
    (releasing : supplied.status = .releasing) :
    ∃ text evidence target, transition = .beginReopen text evidence ∧ Target.ofText? text = some target ∧
      supplied.reopenTarget = some target := by
  cases transition with
  | bindChild child =>
    obtain ⟨-, held, ⟨-, -, made⟩ | ⟨-, -, -, made⟩⟩ := BarrierSessionContract.bindChild_ok applied <;>
      simp [made, held] at releasing
  | beginReopen text evidence =>
    obtain ⟨-, -, target, _, named, -, made⟩ := BarrierSessionContract.beginReopen_ok applied
    exact ⟨text, evidence, target, rfl, named, by rw [made]⟩
  | completeReopen evidence =>
    obtain ⟨-, -, -, made⟩ := BarrierSessionContract.completeReopen_ok applied
    simp [made] at releasing
  | markAmbiguous causeCode =>
    obtain ⟨-, -, made⟩ := BarrierSessionContract.markAmbiguous_ok applied
    simp [made] at releasing

/-- A session that is proposed for a row follows the law, unless it is provisioned. -/
theorem Proposes.lawful {recorded : BarrierSessionIdentity → Target → Prop} {history : List BarrierSessionState} {expected : Nat}
    (proposes : Proposes project call.operation s.store history expected supplied)
    (listed : ∀ identity, call.operation ≠ .provisionReleased identity) (conserving : Conserving s (.call call))
    (reopening : ∀ current, s.store.row = some current → current.status = .releasing →
      ∃ target, current.reopenTarget = some target ∧ recorded current.identity target) :
    Lawful recorded s.store.row (some supplied) := by
  cases proposes with
  | first empty supplies one starts stored =>
    rw [empty]
    obtain held | ⟨-, identity, asked⟩ := starts
    · exact .starts _ held one
    · exact absurd asked (listed identity)
  | @replacing current _ row readable released supplies held one apart newer stored =>
    rw [row]
    exact .replaces _ _ (.inl released) (fun same => apart (congrArg BarrierSessionIdentity.attemptId same)) held one
  | reconciling row readable ambiguous supplies asked held one fence settled finished stored =>
    rw [row]
    simp only [freshFence, Bool.and_eq_true, bne_iff_ne] at fence
    exact .replaces _ _ (.inr ambiguous) (fun same => fence.1.1.1 (congrArg BarrierSessionIdentity.attemptId same)) held one
  | @advancing current _ row readable supplies same permitted next =>
    rw [row]
    obtain swapped | ⟨_, _, transition, -, applied⟩ := advancing_cases supplies same next
    · have conserves := conserving current supplied row swapped same next permitted
      refine .advances _ _ ⟨same, next, permitted, conserves.children⟩ fun released other => ?_
      have releasing : current.status = .releasing := by
        cases status : current.status <;> simp_all [statusTransitions]
      obtain ⟨target, aimed, begun⟩ := reopening current row releasing
      exact ⟨releasing, target, aimed, (conserves.reopening releasing (by simp [released])).trans aimed, begun⟩
    · refine .advances _ _ (transition.keeps applied).2 fun released other => ?_
      obtain ⟨releasing, follows, -⟩ := transition.released applied released
      obtain ⟨target, aimed, begun⟩ := reopening current row releasing
      exact ⟨releasing, target, aimed, follows.trans aimed, begun⟩

theorem Replied.lawful {recorded : BarrierSessionIdentity → Target → Prop} {reply : Reply} {after : SessionStore}
    (replied : Replied project call.operation s.store reply after)
    (listed : ∀ identity, call.operation ≠ .provisionReleased identity) (conserving : Conserving s (.call call))
    (reopening : ∀ current, s.store.row = some current → current.status = .releasing →
      ∃ target, current.reopenTarget = some target ∧ recorded current.identity target) :
    Lawful recorded s.store.row after.row := by
  cases replied with
  | read asked => exact .stays _
  | proposed proposes final => exact proposes.lawful listed conserving reopening
  | settled asked row final => exact .stays _
  | recovered asked row alive final =>
    rw [row]
    exact fenced_lawful alive
  | @recoveredEffects current asked row named =>
    rw [row]
    by_cases held : current.status = .held
    · simp only [if_pos held]
      exact fenced_lawful (by rw [held]; rfl)
    · simp only [if_neg held]
      exact .stays _
  | prepared asked admitted =>
    obtain ⟨_, _, -, -, -, -, -, -, -, -, rfl⟩ := admitEffect_ok admitted
    exact .stays _
  | @finished intent outcome _ _ _ asked admitted =>
    obtain ⟨current, row, -, matching, -, -, -, rfl, rfl⟩ := admitFinish_ok admitted
    rw [row]
    by_cases ambiguous : outcome = .ambiguous
    · simp only [if_pos ambiguous]
      refine fenced_lawful ?_
      simp only [effectIntentMatches, Bool.and_eq_true, beq_iff_eq] at matching
      rw [matching.1.1]
      rfl
    · simp only [if_neg ambiguous]
      exact .stays _

/-- A session that is releasing after a commit was releasing before the call, or the call begins its reopening. -/
def Carried (operation : Operation) (db : SessionStore) (row : Option BarrierSessionState) : Prop :=
  ∀ current, row = some current → current.status = .releasing →
    (∃ earlier, db.row = some earlier ∧ earlier.identity = current.identity ∧ earlier.status = .releasing ∧
      earlier.reopenTarget = current.reopenTarget) ∨
    ∃ reading expected text evidence target, operation = .transition reading expected (.beginReopen text evidence) ∧
      Target.ofText? text = some target ∧ current.reopenTarget = some target

theorem carried_refl (operation : Operation) (db : SessionStore) : Carried operation db db.row :=
  fun current row releasing => .inl ⟨current, row, rfl, releasing, rfl⟩

theorem RowChange.carried {row next : Option BarrierSessionState} (conserving : Conserving s (.call call))
    (carried : Carried call.operation s.store row) (change : RowChange project call.fates call.operation s.store row next) :
    Carried call.operation s.store next := by
  cases change with
  | kept => exact carried
  | proposed proposes =>
    rintro _ ⟨⟩ releasing
    cases proposes with
    | first empty supplies one starts stored =>
      obtain held | ⟨released, -⟩ := starts
      · cases held.symm.trans releasing
      · cases released.symm.trans releasing
    | replacing row readable released supplies held one apart newer stored => cases held.symm.trans releasing
    | reconciling row readable ambiguous supplies asked held one fence settled finished stored =>
      cases held.symm.trans releasing
    | @advancing current _ row readable supplies same permitted next =>
      obtain swapped | ⟨reading, expected, transition, asked, applied⟩ := advancing_cases supplies same next
      · have conserves := conserving current _ row swapped same next permitted
        have started : current.status = .releasing := by
          have free := conserves.begun
          cases status : current.status <;> simp_all [statusTransitions]
        exact .inl ⟨current, row, same.symm, started, (conserves.reopening started (by simp [releasing])).symm⟩
      · obtain ⟨text, evidence, target, rfl, named, aimed⟩ := transition.releasing applied releasing
        exact .inr ⟨reading, expected, text, evidence, target, asked, named, aimed⟩
  | fenced alive =>
    rintro _ ⟨⟩ releasing
    cases releasing
  | inserted raised ambiguous =>
    rintro _ ⟨⟩ releasing
    cases ambiguous.symm.trans releasing

end transitions

section runs

variable {project : String}

theorem conserving_of_swapped {s : Sessions} {call : Call} (other : call.operation.swapped = none) : Conserving s (.call call) := by
  intro current supplied _ swapped
  exact absurd (other.symm.trans swapped) nofun

theorem Begun.snoc {past : List Event} {identity : BarrierSessionIdentity} {target : Target} (begun : Begun project past identity target)
    (event : Event) : Begun project (past ++ [event]) identity target := by
  obtain ⟨first, call, rest, rfl, asked, left⟩ := begun
  exact ⟨first, call, rest ++ [event], by simp, asked, left⟩

theorem reopening_snoc {past : List Event} {event : Event}
    (seen : Seen (Run.final (step project) .empty past)) (reopening : Reopening project past (Run.final (step project) .empty past).store)
    (conserving : Conserving (Run.final (step project) .empty past) event) :
    Reopening project (past ++ [event]) (step project (Run.final (step project) .empty past) event).store := by
  intro current row releasing
  cases event with
  | look pid =>
    rw [step, look_store] at row
    obtain ⟨target, aimed, begun⟩ := reopening current row releasing
    exact ⟨target, aimed, begun.snoc _⟩
  | call call =>
    have carried := left_invariant (fun _ _ before write => write.rowChange.carried conserving before)
      (seen.writes project call) (carried_refl _ _) call.died
    obtain ⟨earlier, row', same, started, aims⟩ | ⟨reading, expected, text, evidence, target, asked, named, aimed⟩ :=
      carried current row releasing
    · obtain ⟨target, aimed, begun⟩ := reopening earlier row' started
      exact ⟨target, aims ▸ aimed, same ▸ begun.snoc _⟩
    · exact ⟨target, aimed, past, call, [], rfl, ⟨reading, expected, text, evidence, asked, named⟩, current, row, rfl, releasing, aimed⟩

/-- Along a run of conserving calls a session that is releasing has a begun reopening. -/
theorem reopening_run {past : List Event} (along : Run.Along (step project) Conserving .empty past) :
    Seen (Run.final (step project) .empty past) ∧ Reopening project past (Run.final (step project) .empty past).store := by
  induction past using List.reverseRecOn with
  | nil => exact ⟨seen_empty, fun current row => absurd row (SessionStore.empty_row current)⟩
  | append_singleton past event ih =>
    obtain ⟨along, conserving, -⟩ := (Run.along_append _ _ _ _).mp along
    obtain ⟨seen, reopening⟩ := ih along
    rw [Run.final_snoc]
    exact ⟨seen.step event, reopening_snoc seen reopening conserving⟩

end runs

/-! A run of a session by one process. -/

def sampleProject : String := "5f0c9a6e-7d1b-4c3a-9e2f-8b6d4a1c0e57"

/-- An identity with the digest of its own fields. -/
def BarrierSessionIdentity.sealed (identity : BarrierSessionIdentity) : BarrierSessionIdentity :=
  { identity with identityDigest := canonicalBarrierSessionDigest identity.asRecord }

def sampleIdentity (attempt : String) (stateRevision : Int) : BarrierSessionIdentity :=
  BarrierSessionIdentity.sealed
    { schemaVersion := 1, projectId := sampleProject, attemptId := attempt, stateRevision
      authorityRevisionAtAcquire := "authority-1", durableBarrierId := "barrier-" ++ attempt
      fencingToken := "token-" ++ attempt, fencingOwner := "owner-1", identityDigest := "" }

def sampleChild (operationId : String) (target : Target) : BarrierChildIdentity where
  operationId
  target
  barrierIdentityDigest := (sampleIdentity "attempt-1" 1).identityDigest

theorem sampleChild_validFor {operationId : String} {target : Target} (named : isChildToken operationId = true) :
    (sampleChild operationId target).validateFor (sampleIdentity "attempt-1" 1) = .ok () := by
  simp [BarrierChildIdentity.validateFor, sampleChild, named, raiseIf]
  rfl

/-- An operation of the sample process, whose commits do not raise. -/
def sampleCall (operation : Operation) : Event := .call { pid := 0, operation }

def sampleCreate : Event := sampleCall (.create .notConfigured (sampleIdentity "attempt-1" 1))

def sampleBind (expectedRevision : Nat) (operationId : String) (target : Target) : Operation :=
  .transition .notConfigured expectedRevision (.bindChild (sampleChild operationId target))

/-- The session with its forward child bound. -/
def sampleBound : BarrierSessionState :=
  ⟨{ identity := sampleIdentity "attempt-1" 1, status := .held, revision := 2, forwardChild := some (sampleChild "forward-1" .new) },
    postInit_eq_ok.mpr ⟨by decide, fun _ => rfl, List.forall_mem_singleton.mpr (sampleChild_validFor (by decide)), rfl⟩⟩

def sampleBinding : Call where
  pid := 0
  operation := sampleBind 1 "forward-1" .new

/-- The session is created and read by the process. -/
def sampleOpened : List Event := [sampleCreate, .look 0]

theorem sampleBinding_conserving : Run.Along (step sampleProject) Conserving .empty (sampleOpened ++ [Event.call sampleBinding]) :=
  ⟨conserving_of_swapped rfl, trivial, conserving_of_swapped rfl, trivial⟩

theorem sampleBinding_returns :
    Returns (Run.final (step sampleProject) .empty sampleOpened).store
      ((Run.final (step sampleProject) .empty sampleOpened).program sampleProject sampleBinding) (.ofState sampleBound)
      (left none (Run.final (step sampleProject) .empty sampleOpened).store
        ((Run.final (step sampleProject) .empty sampleOpened).program sampleProject sampleBinding)) :=
  ⟨by decide +kernel, rfl⟩

/-- The session at its next revision, without the child. -/
def sampleDropped : BarrierSessionState :=
  ⟨{ identity := sampleIdentity "attempt-1" 1, status := .held, revision := 3 },
    postInit_eq_ok.mpr ⟨by decide, fun _ => rfl, List.forall_mem_nil _, rfl⟩⟩

def sampleBoundStore : Sessions := Run.final (step sampleProject) .empty (sampleOpened ++ [Event.call sampleBinding])

def sampleSwap : Call where
  pid := 0
  operation := .cas .notConfigured 2 sampleDropped

theorem sampleSwap_drops :
    (sampleBoundStore.program sampleProject sampleSwap).outcome = .ok (.ofState sampleDropped) ∧
      sampleBoundStore.store.row = some sampleBound ∧
      (left none sampleBoundStore.store (sampleBoundStore.program sampleProject sampleSwap)).row = some sampleDropped := by
  decide +kernel

end Coordinator.BarrierSession
