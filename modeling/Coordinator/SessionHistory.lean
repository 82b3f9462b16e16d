import Coordinator.SessionReopening

/-! The records of sessions that have ended. A released session stays in the row until a later one
takes its place; the session that is replaced is archived under its attempt. -/

namespace Coordinator.BarrierSession
open Kit Kit.Durable

/-- A session has ended, and its record is the row or is archived. -/
def Recorded (session : BarrierSessionState) (db : SessionStore) : Prop :=
  db.row = some session ∧ session.status = .released ∨ session ∈ db.history

/-- The session of an operation takes the place of one that has ended. -/
structure Renews (current replacement : BarrierSessionState) : Prop where
  ended : current.status = .released ∨ current.status = .ambiguous
  apart : replacement.identity.attemptId ≠ current.identity.attemptId
  newer : current.identity.stateRevision < replacement.identity.stateRevision

/-- A session commit of the operation can release a session. -/
def Operation.releases : Operation → Bool
  | .provisionReleased _ | .transition _ _ (.completeReopen _) => true
  | .cas _ _ state | .casHeld _ _ _ state => state.status == .released
  | _ => false

/-- A call does not touch the record of a session: where it renews one, no session is archived under that attempt, and
its session commit does not raise without effect on a released one; and it supplies no released session for a released
one. -/
structure Auditing (s : Sessions) (call : Call) (current : BarrierSessionState) : Prop where
  attempt : ∀ replacement, call.operation.replacement = some replacement → Renews current replacement →
    ∀ old ∈ s.store.history, old.identity.attemptId ≠ current.identity.attemptId
  durable : ∀ replacement, call.operation.replacement = some replacement → Renews current replacement →
    current.status = .released → call.fates .session ≠ .lost
  final : ∀ supplied, call.operation.swapped = some supplied → supplied.identity = current.identity →
    supplied.revision = current.revision + 1 → supplied.status = .released → current.status ≠ .released

/-- A call does not release a session by a commit that raises, and does not touch the record of the one in the row. -/
def Audited (s : Sessions) : Event → Prop
  | .look _ => True
  | .call call => (call.operation.releases = true → call.fates .session ≠ .kept) ∧
      ∀ current, s.store.row = some current → Auditing s call current

/-- The durable states of a run. -/
def Sessions.states (project : String) : Sessions → List Event → List SessionStore
  | _, [] => []
  | s, .look pid :: rest => Sessions.states project (s.look project pid) rest
  | s, .call call :: rest => made call.died (s.program project call) ++ Sessions.states project (step project s (.call call)) rest

/-- Every record of one store is one of another. -/
def KeepsRecords (before after : SessionStore) : Prop := ∀ session, Recorded session before → Recorded session after

instance : Trans KeepsRecords KeepsRecords KeepsRecords := ⟨fun first later session recorded => later session (first session recorded)⟩

section audit

variable {project : String} {s : Sessions} {call : Call} {current session : BarrierSessionState} {before after : SessionStore}

theorem Recorded.archive {current : BarrierSessionState} (recorded : Recorded session s.store) (row : s.store.row = some current)
    (fresh : ∀ old ∈ s.store.history, old.identity.attemptId ≠ current.identity.attemptId) :
    session ∈ SessionStore.archive current s.store.history := by
  rw [SessionStore.archive, List.mem_append, List.mem_filter, List.mem_singleton]
  obtain ⟨found, -⟩ | archived := recorded
  · exact .inr (Option.some.inj (found.symm.trans row))
  · exact .inl ⟨archived, bne_iff_ne.mpr (fresh session archived)⟩

/-- A released session is not advanced by an audited call. -/
theorem Auditing.advances {supplied : BarrierSessionState} (auditing : Auditing s call current)
    (supplies : Supplies call.operation (some current) supplied) (same : supplied.identity = current.identity)
    (permitted : supplied.status ∈ statusTransitions current.status) (next : supplied.revision = current.revision + 1) :
    current.status ≠ .released := by
  intro released
  have stays : supplied.status = .released := by simpa [released, statusTransitions] using permitted
  obtain swapped | ⟨reading, expected, transition, -, applied⟩ := advancing_cases supplies same next
  · exact auditing.final supplied swapped same next stays released
  · have releasing := (transition.released applied stays).1
    cases releasing.symm.trans released

/-- The store that an audited call proposes has the records. -/
theorem Proposes.recorded {history : List BarrierSessionState} {expected : Nat} {supplied : BarrierSessionState}
    (audited : Audited s (.call call)) (recorded : Recorded session s.store)
    (proposes : Proposes project call.operation s.store history expected supplied) : session ∈ history := by
  cases proposes with
  | first empty supplies one starts stored =>
    obtain ⟨found, -⟩ | archived := recorded
    · cases empty.symm.trans found
    · exact archived
  | replacing row readable released supplies held one apart newer stored asked =>
    exact recorded.archive row ((audited.2 _ row).attempt _ asked ⟨.inl released, apart, newer⟩)
  | reconciling row readable ambiguous supplies asked held one fence settled finished stored =>
    obtain ⟨reading, asked⟩ := asked
    simp only [freshFence, Bool.and_eq_true, bne_iff_ne, decide_eq_true_eq] at fence
    exact recorded.archive row ((audited.2 _ row).attempt _ (by rw [asked]; rfl) ⟨.inr ambiguous, fence.1.1.1, fence.1.1.2⟩)
  | advancing row readable supplies same permitted next =>
    obtain ⟨found, released⟩ | archived := recorded
    · cases row.symm.trans found
      exact absurd released ((audited.2 _ row).advances supplies same permitted next)
    · exact archived

/-- Where the session commit is lost, the record is not the row. -/
theorem Proposes.recorded_lost {history : List BarrierSessionState} {expected : Nat} {supplied : BarrierSessionState}
    (audited : Audited s (.call call)) (recorded : Recorded session s.store)
    (proposes : Proposes project call.operation s.store history expected supplied) (lost : call.fates .session = .lost) :
    session ∈ s.store.history := by
  obtain ⟨found, released⟩ | archived := recorded
  · cases proposes with
    | first empty supplies one starts stored => cases empty.symm.trans found
    | replacing row readable released' supplies held one apart newer stored asked =>
      cases row.symm.trans found
      exact absurd lost ((audited.2 _ row).durable _ asked ⟨.inl released, apart, newer⟩ released)
    | reconciling row readable ambiguous supplies asked held one fence settled finished stored =>
      cases row.symm.trans found
      exact absurd (ambiguous.symm.trans released) nofun
    | advancing row readable supplies same permitted next =>
      cases row.symm.trans found
      exact absurd released ((audited.2 _ row).advances supplies same permitted next)
  · exact archived

/-- An operation that proposes a released session is one that releases. -/
theorem Proposes.releases {operation : Operation} {db : SessionStore} {history : List BarrierSessionState} {expected : Nat}
    {supplied : BarrierSessionState} (proposes : Proposes project operation db history expected supplied)
    (released : supplied.status = .released) : operation.releases = true := by
  cases proposes with
  | first empty supplies one starts stored =>
    obtain held | ⟨-, identity, rfl⟩ := starts
    · exact absurd (held.symm.trans released) nofun
    · rfl
  | replacing row readable _ supplies held => exact absurd (held.symm.trans released) nofun
  | reconciling row readable ambiguous supplies asked held => exact absurd (held.symm.trans released) nofun
  | advancing row readable supplies same permitted next =>
    obtain swapped | ⟨reading, expected, transition, rfl, applied⟩ := advancing_cases supplies same next
    · cases operation <;> cases swapped <;> exact beq_iff_eq.mpr released
    · obtain ⟨-, -, evidence, rfl⟩ := transition.released applied released
      rfl

theorem fenceSession_history {supplied : BarrierSessionState} {expected : Nat}
    (fence : fenceSession project before supplied expected = .ok after) : after.history = before.history := by
  unfold fenceSession at fence
  split at fence
  · simp only [bind_eq_ok, pure_eq_ok] at fence
    obtain ⟨_, -, rfl⟩ := fence
    rfl
  · simp only [bind_eq_ok, pure_eq_ok] at fence
    obtain ⟨_, -, rfl⟩ := fence
    rfl

/-- A session that is alive is no record, and fencing it leaves the records alone. -/
theorem Recorded.fencedIf {choice : Prop} [Decidable choice] {db : SessionStore} (recorded : Recorded session db)
    (row : db.row = some current) (alive : choice → live current.status = true) {intents : List SessionIntent} {effects : List EffectRow} :
    Recorded session ⟨some (if choice then current.fenced else current), db.history, intents, effects⟩ := by
  obtain ⟨found, released⟩ | archived := recorded
  · cases row.symm.trans found
    refine .inl ⟨?_, released⟩
    rw [if_neg]
    intro chosen
    have alive := alive chosen
    rw [released] at alive
    exact Bool.false_ne_true alive
  · exact .inr archived

/-- Every commit of an audited call keeps the records. -/
theorem Write.keepsRecords (audited : Audited s (.call call))
    (write : Write project call.fates call.operation s.store before after) : KeepsRecords before after := by
  intro session recorded
  cases write with
  | proposed proposes => exact .inr (proposes.recorded audited recorded)
  | settled chosen final => exact recorded
  | fenced raised proposes durable fence =>
    refine .inr ?_
    rw [fenceSession_history fence]
    obtain ⟨lost, rfl⟩ | ⟨kept, rfl⟩ := durable
    · exact proposes.recorded_lost audited recorded lost
    · obtain ⟨⟨⟩, released⟩ | archived := recorded
      · exact absurd kept (audited.1 (proposes.releases released))
      · exact archived
  | fencedAll raised fence =>
    simp only [fenceRecovery, bind_eq_ok, currentSession_eq_ok, pure_eq_ok] at fence
    obtain ⟨latest, ⟨row, -⟩, rfl⟩ := fence
    exact recorded.fencedIf row id
  | @recovered current asked row alive other =>
    have fenced : Recorded session ⟨some (if True then current.fenced else current), s.store.history, s.store.intents, s.store.effects⟩ :=
      recorded.fencedIf row fun _ => alive
    rwa [if_pos trivial] at fenced
  | recoveredEffects asked row named => exact recorded.fencedIf row fun held => by rw [held]; rfl
  | prepared asked admitted =>
    obtain ⟨_, _, -, -, -, -, -, -, -, -, rfl⟩ := admitEffect_ok admitted
    exact recorded
  | finished asked admitted =>
    obtain ⟨current, row, -, matching, -, -, -, rfl, rfl⟩ := admitFinish_ok admitted
    simp only [effectIntentMatches, Bool.and_eq_true, beq_iff_eq] at matching
    exact recorded.fencedIf row fun _ => by rw [matching.1.1]; rfl

/-- Each durable state of an audited run has the records of the one before. -/
theorem states_chain : ∀ {events : List Event} {s : Sessions}, Seen s → Run.Along (step project) Audited s events →
    List.IsChain KeepsRecords (s.store :: s.states project events) := by
  intro events
  induction events with
  | nil =>
    intro s _ _
    exact .singleton _
  | cons event rest ih =>
    intro s seen along
    have next : Seen (step project s event) := seen.step event
    have later := ih next along.2
    cases event with
    | look pid =>
      rw [step, look_store] at later
      exact later
    | call call =>
      exact chain_of_along (Run.along_mono leaves (fun _ _ write => write.keepsRecords along.1)
        (along_of_meets (seen.writes project call) call.died)) later

/-- The record of a session that has ended stands in all later states of a run of audited calls. -/
theorem history_run (events : List Event) (audited : Run.Along (step project) Audited .empty events) :
    (Sessions.states project .empty events).Pairwise KeepsRecords :=
  (List.isChain_iff_pairwise.mp (states_chain seen_empty audited)).tail

end audit

def sampleProvision : Event := sampleCall (.provisionReleased (sampleIdentity "attempt-1" 1))

def sampleSecond : Event := sampleCall (.create .notConfigured (sampleIdentity "attempt-2" 2))

theorem sampleSecond_audited : Run.Along (step sampleProject) Audited .empty [sampleProvision, sampleSecond] := by
  refine ⟨⟨fun _ => Fate.noConfusion, fun current row => absurd row (SessionStore.empty_row current)⟩,
    ⟨fun _ => Fate.noConfusion, fun current _ => ⟨fun _ _ _ => ?_, fun _ _ _ _ => Fate.noConfusion,
      fun supplied swapped => absurd swapped (Option.some_ne_none supplied).symm⟩⟩, trivial⟩
  have nothing : (step sampleProject .empty sampleProvision).store.history = [] := by decide +kernel
  rw [nothing]
  exact List.forall_mem_nil _

theorem history_second : (Sessions.states sampleProject .empty [sampleProvision, sampleSecond]).Pairwise KeepsRecords :=
  history_run _ sampleSecond_audited

/-- The session in the row, at its first revision, is marked ambiguous and reconciled by another. -/
def sampleReplace (identity : BarrierSessionIdentity) : List Event :=
  [.look 0, sampleCall (.transition .notConfigured 1 (.markAmbiguous "CHILD_LOST")),
    sampleCall (.reconcileAmbiguous (.revision "authority-1") 2 (initialState identity .held))]

/-- The attempt of the first session is taken again by the third one. -/
def sampleReuse : List Event :=
  [sampleProvision, sampleSecond] ++ sampleReplace (sampleIdentity "attempt-1" 3) ++ sampleReplace (sampleIdentity "attempt-3" 4)

theorem attempt_reused :
    Recorded (initialState (sampleIdentity "attempt-1" 1) .released) (Run.final (step sampleProject) .empty [sampleProvision]).store ∧
      ¬ Recorded (initialState (sampleIdentity "attempt-1" 1) .released) (Run.final (step sampleProject) .empty sampleReuse).store := by
  unfold Recorded
  decide +kernel

end Coordinator.BarrierSession
