import Coordinator.SessionTransitions

/-! The target that a session is reopened at once its rollback child is bound. -/

namespace Coordinator.BarrierSession
open Kit Kit.Durable

/-- A compare and swap neither loses the rollback child nor aims a session that has one at the new target. -/
structure RollsBack (current supplied : BarrierSessionState) : Prop where
  bound : current.rollbackChild ≠ none → supplied.rollbackChild ≠ none
  aimed : supplied.rollbackChild ≠ none → supplied.reopenTarget ≠ some .new

/-- The begin of a reopening at the new target meets no held session with a rollback child, and the swaps that
leave a session alive roll back. -/
def Steadfast (s : Sessions) : Event → Prop
  | .look _ => True
  | .call call => ∀ current, s.store.row = some current →
      (∀ reading evidence, call.operation = .transition reading current.revision (.beginReopen "new" evidence) →
        current.status = .held → current.rollbackChild = none) ∧
      ∀ supplied, call.operation.swapped = some supplied → supplied.identity = current.identity →
        supplied.revision = current.revision + 1 → supplied.status ∈ statusTransitions current.status →
        live supplied.status = true → RollsBack current supplied

/-- A session that is releasing with a rollback child is not aimed at the new target. -/
def Straight (row : Option BarrierSessionState) : Prop :=
  ∀ current, row = some current → current.status = .releasing → current.rollbackChild ≠ none →
    current.reopenTarget ≠ some .new

theorem straight_empty : Straight SessionStore.empty.row := fun current row => absurd row (SessionStore.empty_row current)

/-- A session keeps its rollback child as long as it is alive, or another session has taken its place. -/
def Tied (bound : BarrierSessionState) (row : Option BarrierSessionState) : Prop :=
  ∃ current, row = some current ∧
    (current.identity = bound.identity ∧ (live current.status = true → current.rollbackChild ≠ none) ∨
      bound.identity.stateRevision < current.identity.stateRevision)

section reopening

variable {project : String} {s : Sessions} {call : Call} {row next : Option BarrierSessionState}

theorem ofText_new {text : String} (named : Target.ofText? text = some .new) : text = "new" := by
  unfold Target.ofText? at named
  split at named
  · assumption
  · split at named <;> cases named

theorem ofText_rollback {text : String} (named : Target.ofText? text = some .rollback) : text = "rollback" := by
  unfold Target.ofText? at named
  split at named
  · cases named
  · split at named
    · assumption
    · cases named

theorem live_of_releasing {status : Status} (releasing : status = .releasing) : live status = true := by
  rw [releasing]
  rfl

theorem RowChange.straight (steadfast : Steadfast s (.call call)) (straight : Straight row)
    (change : RowChange project call.fates call.operation s.store row next) : Straight next := by
  cases change with
  | kept => exact straight
  | fenced alive =>
    rintro _ ⟨⟩ releasing
    exact absurd releasing nofun
  | inserted raised ambiguous =>
    rintro _ ⟨⟩ releasing
    exact absurd (ambiguous.symm.trans releasing) nofun
  | proposed proposes =>
    rintro _ ⟨⟩ releasing
    cases proposes with
    | first empty supplies one starts stored =>
      obtain held | ⟨released, -⟩ := starts
      · exact absurd (held.symm.trans releasing) nofun
      · exact absurd (released.symm.trans releasing) nofun
    | replacing row readable released supplies held one apart newer stored => exact absurd (held.symm.trans releasing) nofun
    | reconciling row readable ambiguous supplies asked held one fence settled finished stored =>
      exact absurd (held.symm.trans releasing) nofun
    | @advancing current supplied row readable supplies same permitted next =>
      obtain swapped | ⟨reading, expected, transition, asked, applied⟩ := advancing_cases supplies same next
      · exact ((steadfast current row).2 _ swapped same next permitted (live_of_releasing releasing)).aimed
      · obtain ⟨text, evidence, target, rfl, named, aimed⟩ := transition.releasing applied releasing
        obtain ⟨rfl, held, _, _, -, -, made⟩ := BarrierSessionContract.beginReopen_ok applied
        intro rolled new
        cases Option.some.inj (aimed.symm.trans new)
        obtain rfl := ofText_new named
        refine rolled ?_
        rw [made]
        exact (steadfast current row).1 reading evidence asked held

theorem RowChange.tied {bound : BarrierSessionState} (steadfast : Steadfast s (.call call)) (tied : Tied bound row)
    (change : RowChange project call.fates call.operation s.store row next) : Tied bound next := by
  obtain ⟨current, found, ⟨same, rolled⟩ | newer⟩ := tied
  · cases change with
    | kept => exact ⟨current, found, .inl ⟨same, rolled⟩⟩
    | fenced alive =>
      cases found
      exact ⟨_, rfl, .inl ⟨same, nofun⟩⟩
    | inserted raised ambiguous => cases found
    | proposed proposes =>
      refine ⟨_, rfl, ?_⟩
      cases proposes with
      | first empty supplies one starts stored => cases empty.symm.trans found
      | replacing row readable released supplies held one apart newer stored =>
        cases row.symm.trans found
        exact .inr (same ▸ newer)
      | reconciling row readable ambiguous supplies asked held one fence settled finished stored =>
        cases row.symm.trans found
        simp only [freshFence, Bool.and_eq_true, decide_eq_true_eq] at fence
        exact .inr (same ▸ fence.1.1.2)
      | advancing row readable supplies named permitted next =>
        cases row.symm.trans found
        refine .inl ⟨named.trans same, fun alive => ?_⟩
        -- a session that is alive after a transition was alive before it
        have before : live current.status = true := by
          cases status : current.status <;> simp_all [statusTransitions, live]
        obtain swapped | ⟨reading, expected, transition, -, applied⟩ := advancing_cases supplies named next
        · exact ((steadfast current row).2 _ swapped named next permitted alive).bound (rolled before)
        · obtain ⟨child, held⟩ := Option.ne_none_iff_exists'.mp (rolled before)
          have kept := (transition.keeps applied).2.children .rollback child held
          exact Option.ne_none_iff_exists'.mpr ⟨child, kept⟩
  · obtain ⟨later, row, older⟩ := change.older found
    refine ⟨later, row, .inr ?_⟩
    obtain rfl | ⟨same, -⟩ | newest := older
    · exact newer
    · exact same ▸ newer
    · exact newer.trans newest

/-- Once a rollback child is bound to a session, it is reopened at the rollback target, in a run of steadfast calls. -/
theorem rollback_run (past later : List Event) (call : Call) {bound current : BarrierSessionState} {reply : Reply}
    {after : SessionStore} (along : Run.Along (step project) Steadfast .empty (past ++ later ++ [.call call]))
    (first : (Run.final (step project) .empty past).store.row = some bound) (rolled : bound.rollbackChild ≠ none)
    (last : (Run.final (step project) .empty (past ++ later)).store.row = some current) (same : current.identity = bound.identity)
    (accepted : Returns (Run.final (step project) .empty (past ++ later)).store
      ((Run.final (step project) .empty (past ++ later)).program project call) reply after) :
    (∀ reading expected text evidence, call.operation = .transition reading expected (.beginReopen text evidence) →
      text = "rollback") ∧
    ∀ reading expected evidence, call.operation = .transition reading expected (.completeReopen evidence) →
      ∃ given, evidence = some given ∧ given.get "target" = .str "rollback" := by
  obtain ⟨along, steadfast, -⟩ := (Run.along_append _ _ _ _).mp along
  obtain ⟨early, late⟩ := (Run.along_append _ _ _ _).mp along
  obtain ⟨seen, straight⟩ := sessions_row_invariant Straight (fun _ _ _ _ allowed before change => change.straight allowed before)
    seen_empty straight_empty along
  have tied : Tied bound (Run.final (step project) .empty (past ++ later)).store.row := by
    obtain ⟨seen, -⟩ := sessions_row_invariant Straight (fun _ _ _ _ allowed before change => change.straight allowed before)
      seen_empty straight_empty early
    rw [Run.final_append]
    exact (sessions_row_invariant (Tied bound) (fun _ _ _ _ allowed before change => change.tied allowed before) seen
      ⟨bound, first, .inl ⟨rfl, fun _ => rolled⟩⟩ late).2
  -- the child is still bound where the session is alive
  have kept : live current.status = true → current.rollbackChild ≠ none := by
    obtain ⟨_, row, ⟨-, kept⟩ | newer⟩ := tied
    · cases row.symm.trans last
      exact kept
    · cases row.symm.trans last
      rw [same] at newer
      exact absurd newer (lt_irrefl _)
  have replied := perform_returns (seen.coherent call.pid) accepted
  constructor
  · intro reading expected text evidence asked
    rw [asked] at replied
    obtain ⟨_, next, row, applied⟩ := replied.transition
    cases row.symm.trans last
    obtain ⟨rfl, held, target, child, named, -, -⟩ := BarrierSessionContract.beginReopen_ok applied
    cases target with
    | rollback => exact ofText_rollback named
    | new =>
      obtain rfl := ofText_new named
      exact absurd ((steadfast current last).1 reading evidence asked held) (kept (by rw [held]; rfl))
  · intro reading expected evidence asked
    rw [asked] at replied
    obtain ⟨_, next, row, applied⟩ := replied.transition
    cases row.symm.trans last
    obtain ⟨-, releasing, ⟨given, target, rfl, aims, aimed⟩, -⟩ := BarrierSessionContract.completeReopen_ok applied
    refine ⟨given, rfl, ?_⟩
    have other := straight current last releasing (kept (live_of_releasing releasing))
    obtain ⟨chosen, recorded, rfl⟩ := Option.map_eq_some_iff.mp aimed
    cases chosen with
    | new => exact absurd recorded other
    | rollback => exact aims

theorem steadfast_of (other : call.operation.swapped = none)
    (apart : ∀ reading expected evidence, call.operation ≠ .transition reading expected (.beginReopen "new" evidence)) :
    Steadfast s (.call call) := by
  intro current _
  refine ⟨fun reading evidence asked => absurd asked (apart _ _ _), fun supplied swapped => ?_⟩
  exact absurd (other.symm.trans swapped) nofun

end reopening

def sampleRollback : Call where
  pid := 0
  operation := sampleBind 2 "rollback-1" .rollback

/-- Both children are bound. -/
def sampleRolled : List Event := sampleOpened ++ [Event.call sampleBinding, .look 0, .call sampleRollback]

theorem sampleChildren_validFor :
    ∀ child ∈ [sampleChild "forward-1" .new, sampleChild "rollback-1" .rollback],
      child.validateFor (sampleIdentity "attempt-1" 1) = .ok () :=
  List.forall_mem_cons.mpr
    ⟨sampleChild_validFor (by decide), List.forall_mem_singleton.mpr (sampleChild_validFor (by decide))⟩

def sampleRolledState : BarrierSessionState :=
  ⟨{ identity := sampleIdentity "attempt-1" 1, status := .held, revision := 3, forwardChild := some (sampleChild "forward-1" .new)
     rollbackChild := some (sampleChild "rollback-1" .rollback) },
    postInit_eq_ok.mpr ⟨by decide, fun _ => rfl, sampleChildren_validFor, by decide⟩⟩

def sampleEvidence (child : BarrierChildIdentity) : Dict :=
  [("operation_id", .str child.operationId), ("target", .str child.target.text),
    ("barrier_identity_digest", .str child.barrierIdentityDigest), ("validated", .bool true)]

def sampleReopen (child : BarrierChildIdentity) : Call where
  pid := 0
  operation := .transition .notConfigured 3 (.beginReopen child.target.text (some (sampleEvidence child)))

def sampleReopening (target : Target) : BarrierSessionState :=
  ⟨{ sampleRolledState.toSessionFields with status := .releasing, revision := 4, reopenTarget := some target },
    postInit_eq_ok.mpr ⟨by simp, Status.noConfusion, sampleChildren_validFor, (postInit_eq_ok.mp sampleRolledState.checked).2.2.2⟩⟩

theorem sampleRolled_outcomes :
    (Run.final (step sampleProject) .empty sampleRolled).store.row = some sampleRolledState ∧
      ((Run.final (step sampleProject) .empty (sampleRolled ++ [Event.look 0])).program sampleProject
        (sampleReopen (sampleChild "rollback-1" .rollback))).outcome = .ok (.ofState (sampleReopening .rollback)) ∧
      ((Run.final (step sampleProject) .empty (sampleRolled ++ [Event.look 0])).program sampleProject
        (sampleReopen (sampleChild "forward-1" .new))).outcome = .ok (.ofState (sampleReopening .new)) := by
  decide +kernel

theorem sampleRolled_row : (Run.final (step sampleProject) .empty sampleRolled).store.row = some sampleRolledState :=
  sampleRolled_outcomes.1

theorem sampleRead_row : (Run.final (step sampleProject) .empty (sampleRolled ++ [Event.look 0])).store.row = some sampleRolledState := by
  rw [Run.final_snoc, step, look_store]
  exact sampleRolled_row

theorem sampleReopen_returns :
    Returns (Run.final (step sampleProject) .empty (sampleRolled ++ [Event.look 0])).store
      ((Run.final (step sampleProject) .empty (sampleRolled ++ [Event.look 0])).program sampleProject
        (sampleReopen (sampleChild "rollback-1" .rollback))) (.ofState (sampleReopening .rollback))
      (left none (Run.final (step sampleProject) .empty (sampleRolled ++ [Event.look 0])).store
        ((Run.final (step sampleProject) .empty (sampleRolled ++ [Event.look 0])).program sampleProject
          (sampleReopen (sampleChild "rollback-1" .rollback)))) :=
  ⟨sampleRolled_outcomes.2.1, rfl⟩

theorem sampleRolled_steadfast :
    Run.Along (step sampleProject) Steadfast .empty (sampleRolled ++ [Event.look 0] ++ [Event.call (sampleReopen (sampleChild "rollback-1" .rollback))]) :=
  ⟨steadfast_of rfl nofun, trivial, steadfast_of rfl nofun, trivial, steadfast_of rfl nofun, trivial,
    steadfast_of rfl (by simp [sampleReopen, sampleChild, Target.text]), trivial⟩

theorem rollback_reopened :
    (∀ reading expected text evidence, (sampleReopen (sampleChild "rollback-1" .rollback)).operation =
      .transition reading expected (.beginReopen text evidence) → text = "rollback") ∧
    ∀ reading expected evidence, (sampleReopen (sampleChild "rollback-1" .rollback)).operation =
      .transition reading expected (.completeReopen evidence) → ∃ given, evidence = some given ∧ given.get "target" = .str "rollback" :=
  rollback_run sampleRolled [.look 0] (sampleReopen (sampleChild "rollback-1" .rollback)) sampleRolled_steadfast
    sampleRolled_row (Option.some_ne_none _) sampleRead_row rfl sampleReopen_returns

/-- The forward child of a session with a rollback child is reopened. -/
theorem reopened_as_new :
    (∃ bound, (Run.final (step sampleProject) .empty (sampleRolled ++ [.look 0])).store.row = some bound ∧ bound.rollbackChild ≠ none) ∧
      ((Run.final (step sampleProject) .empty (sampleRolled ++ [.look 0])).program sampleProject (sampleReopen (sampleChild "forward-1" .new))).outcome =
        .ok (.ofState (sampleReopening .new)) :=
  ⟨⟨sampleRolledState, sampleRead_row, Option.some_ne_none _⟩, sampleRolled_outcomes.2.2⟩

end Coordinator.BarrierSession
