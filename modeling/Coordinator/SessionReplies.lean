import Coordinator.SessionRuns

/-! What an operation of the session store has done when it returns. -/

namespace Coordinator.BarrierSession
open Kit Kit.Durable

/-- The reply of an operation, and the store that it leaves. -/
inductive Replied (project : String) (operation : Operation) (db : SessionStore) : Reply → SessionStore → Prop
  | read (asked : operation = .recoverUnknown ∨ ∃ identity, operation = .provisionReleased identity) :
      Replied project operation db (.session db.row) db
  | proposed {history expected supplied outcome} (proposes : Proposes project operation db history expected supplied)
      (final : outcome ≠ .prepared) :
      Replied project operation db (.ofState supplied) { propose db history expected supplied with
        intents := (propose db history expected supplied).settle (·.intentId == db.intents.length) outcome }
  | settled {current outcome} (asked : operation = .recoverUnknown) (row : db.row = some current) (final : outcome ≠ .prepared) :
      Replied project operation db (.ofState current) { db with intents := db.settle (fun _ => true) outcome }
  | recovered {current outcome} (asked : operation = .recoverUnknown) (row : db.row = some current)
      (alive : live current.status = true) (final : outcome ≠ .prepared) :
      Replied project operation db (.ofState current.fenced) { db with
        row := some current.fenced, intents := db.settle (fun _ => true) outcome }
  | recoveredEffects {current} (asked : operation = .recoverUnknown) (row : db.row = some current)
      (named : ∀ row ∈ db.preparedEffects, effectNamesSession current row.intent = true) (unresolved : db.preparedEffects ≠ []) :
      Replied project operation db (.ofState (if current.status = .held then current.fenced else current)) { db with
        row := some (if current.status = .held then current.fenced else current)
        effects := db.settleEffects (fun _ => true) .ambiguous }
  | prepared {request after intent} (asked : operation = .prepareEffect request)
      (admitted : admitEffect project db request = .ok (after, intent)) : Replied project operation db (.effect intent) after
  | finished {intent outcome receipt after next} (asked : operation = .finishEffect intent outcome receipt)
      (admitted : admitFinish project db intent outcome receipt = .ok (after, next)) :
      Replied project operation db (.ofState next) after

section replies

variable {project : String} {fates : Site → Fate} {operation : Operation} {db before after : SessionStore}
  {expected : Nat} {supplied value : BarrierSessionState}

theorem markRecovery_fails {α : Type} {result : α} (fault : Fault) (durable : SessionStore) :
    ¬ Returns durable (markRecoveryAmbiguousAfterCommitFailure fates project fault durable : Program α) result after := by
  unfold markRecoveryAmbiguousAfterCommitFailure
  split
  · simp
  · simp [returns_commit]

theorem markAmbiguous_fails {α : Type} {result : α} (durable : SessionStore) :
    ¬ Returns durable (markAmbiguousAfterCommitFailure fates project supplied expected durable : Program α) result after := by
  unfold markAmbiguousAfterCommitFailure
  split
  · simp
  · simp [returns_commit]

theorem settledCommit_returns {α : Type} {chosen : SessionIntent → Bool} {outcome : IntentOutcome} {fault : Fault} {next result : α} :
    Returns before (Durable.commit (fates .publication) before { before with intents := before.settle chosen outcome }
      (fun durable => markRecoveryAmbiguousAfterCommitFailure fates project fault durable) (pure next)) result after ↔
      fates .publication = .done ∧ next = result ∧ { before with intents := before.settle chosen outcome } = after := by
  rw [returns_commit fun durable _ _ => markRecovery_fails fault durable, returns_pure]

/-- A proposed session is returned once its intent is published. -/
theorem publish_returns {α : Type} {intentId : Nat} {outcome : IntentOutcome} {fault : Fault} {next result : α}
    (returned : Returns before (publish fates project intentId outcome fault next before) result after) :
    next = result ∧ after = { before with intents := before.settle (·.intentId == intentId) outcome } := by
  unfold publish at returned
  split at returned
  · simp at returned
  · next published marked =>
    simp only [markIntent, bind_eq_ok, exists_unit, refuseIf_eq_ok, pure_eq_ok] at marked
    obtain ⟨-, rfl⟩ := marked
    obtain ⟨-, same, rfl⟩ := settledCommit_returns.mp returned
    exact ⟨same, rfl⟩

theorem casLocked_returns {initial : Bool}
    (offers : ∀ after, admitCas project db expected supplied initial = .ok after → Offers project operation db expected supplied initial)
    (returned : Returns db (casLocked fates project db expected supplied initial) value after) :
    Replied project operation db (.ofState value) after := by
  simp only [casLocked, returns_lift_bind] at returned
  obtain ⟨middle, admitted, returned⟩ := returned
  obtain ⟨history, proposes, rfl⟩ := admitCas_proposes (offers middle admitted) admitted
  rw [returns_commit fun durable _ _ => markAmbiguous_fails durable] at returned
  obtain ⟨rfl, rfl⟩ := publish_returns returned.2
  exact .proposed proposes (by decide)

theorem cas_returns {reading : Reading}
    (offers : supplied.identity.projectId = project →
      ∀ after, admitCas project db expected supplied false = .ok after → Offers project operation db expected supplied false)
    (returned : Returns db (cas fates project db reading expected supplied) value after) :
    Replied project operation db (.ofState value) after := by
  simp only [cas, returns_lift_bind] at returned
  obtain ⟨_, bound, _, -, _, -, returned⟩ := returned
  exact casLocked_returns (offers (cas_bound bound)) returned

/-- A typed transition returns what it makes of the session in the row. -/
theorem typed_returns {view : Option BarrierSessionState} {reading : Reading} {transition : Transition} (coherent : Coherent view db)
    (returned : Returns db (typed fates project db view reading expected (fun current => transition.apply current expected)) value after) :
    Replied project (.transition reading expected transition) db (.ofState value) after := by
  simp only [typed, returns_lift_bind] at returned
  obtain ⟨seen, viewed, next, applied, returned⟩ := returned
  cases orRaise_eq_ok.mp viewed
  exact cas_returns (fun bound _ admitted => typed_offers coherent applied bound admitted) returned

theorem provisionReleased_returns {identity : BarrierSessionIdentity}
    (returned : Returns db (provisionReleased fates project db identity) value after) :
    Replied project (.provisionReleased identity) db (.ofState value) after := by
  simp only [provisionReleased, returns_lift_bind, snapshotLocked_eq_ok] at returned
  obtain ⟨_, bound, found, ⟨row, -⟩, returned⟩ := returned
  cases found with
  | some current =>
    by_cases provisioned : current.status = .released ∧ current.identity = identity
    · simp only [if_pos provisioned, returns_pure] at returned
      obtain ⟨rfl, rfl⟩ := returned
      rw [Reply.ofState, ← row]
      exact .read (.inr ⟨identity, rfl⟩)
    · simp only [if_neg provisioned, returns_fail] at returned
  | none => exact casLocked_returns (fun _ _ => provisionReleased_offers row (cas_bound bound)) returned

theorem casHeld_returns {reading : Reading} {identity : BarrierSessionIdentity}
    (returned : Returns db (casHeld fates project db reading identity expected supplied) value after) :
    Replied project (.casHeld reading identity expected supplied) db (.ofState value) after := by
  simp only [casHeld, returns_lift_bind] at returned
  obtain ⟨_, named, current, rechecked, returned⟩ := returned
  exact casLocked_returns (fun _ _ => casHeld_offers named rechecked) returned

theorem reconcileAmbiguous_returns {reading : Reading}
    (returned : Returns db (reconcileAmbiguous fates project db reading expected supplied) value after) :
    Replied project (.reconcileAmbiguous reading expected supplied) db (.ofState value) after := by
  simp only [reconcileAmbiguous, returns_lift_bind] at returned
  obtain ⟨middle, admitted, returned⟩ := returned
  obtain ⟨history, proposes, rfl⟩ := admitReconciliation_proposes admitted
  rw [returns_commit fun durable _ _ => markAmbiguous_fails durable] at returned
  obtain ⟨-, returned⟩ := returned
  split at returned
  · simp at returned
  · next published marked =>
    simp only [markIntent, bind_eq_ok, exists_unit, refuseIf_eq_ok, pure_eq_ok] at marked
    obtain ⟨-, rfl⟩ := marked
    rw [returns_commit (by simp), returns_pure] at returned
    obtain ⟨-, rfl, rfl⟩ := returned
    exact .proposed proposes (by decide)

theorem settlePrepared_returns {outcome : IntentOutcome} {current : BarrierSessionState}
    (returned : Returns before (settlePrepared fates project outcome current before) value after) :
    current = value ∧ { before with intents := before.settle (fun _ => true) outcome } = after :=
  (settledCommit_returns.mp returned).2

theorem recoverPrepared_returns (returned : Returns db (recoverPrepared fates project db) value after) :
    Replied project .recoverUnknown db (.ofState value) after := by
  simp only [recoverPrepared, returns_lift_bind, currentSession_eq_ok] at returned
  obtain ⟨current, ⟨row, -⟩, _, -, returned⟩ := returned
  split at returned
  · simp only [returns_lift_bind] at returned
    obtain ⟨_, -, returned⟩ := returned
    obtain ⟨rfl, rfl⟩ := settlePrepared_returns returned
    exact .settled rfl row (by decide)
  · split at returned
    · obtain ⟨rfl, rfl⟩ := settlePrepared_returns returned
      exact .settled rfl row (by decide)
    · simp only [returns_lift_bind, refuseIf_eq_ok, Bool.not_eq_false'] at returned
      obtain ⟨_, alive, returned⟩ := returned
      rw [returns_commit fun durable _ _ => markRecovery_fails _ durable] at returned
      obtain ⟨rfl, rfl⟩ := settlePrepared_returns returned.2
      exact .recovered rfl row alive (by decide)

theorem recoverPreparedEffects_returns (unresolved : db.preparedEffects ≠ []) (returned : Returns db (recoverPreparedEffects fates project db) value after) :
    Replied project .recoverUnknown db (.ofState value) after := by
  simp only [recoverPreparedEffects, returns_lift_bind, currentSession_eq_ok, refuseIf_eq_ok, Bool.not_eq_false', List.all_eq_true,
    Bool.and_eq_true] at returned
  obtain ⟨current, ⟨row, -⟩, _, named, returned⟩ := returned
  rw [returns_commit fun durable _ _ => markRecovery_fails _ durable, returns_pure] at returned
  obtain ⟨-, rfl, rfl⟩ := returned
  exact .recoveredEffects rfl row (fun row member => (named row member).1) unresolved

theorem recoverUnknown_returns {found : Option BarrierSessionState} (returned : Returns db (recoverUnknown fates project db) found after) :
    Replied project .recoverUnknown db (.session found) after := by
  unfold recoverUnknown at returned
  split at returned
  · next unresolved =>
    obtain ⟨value, answered, rfl⟩ := returns_map.mp returned
    exact recoverPreparedEffects_returns unresolved answered
  · split at returned
    · obtain ⟨value, answered, rfl⟩ := returns_map.mp returned
      exact recoverPrepared_returns answered
    · obtain ⟨read, rfl⟩ := returns_lift.mp returned
      rw [← (snapshotLocked_eq_ok.mp read).1]
      exact .read (.inl rfl)

theorem prepareAuthorityEffect_returns {request : EffectRequest} {intent : AuthorityEffectIntent}
    (returned : Returns db (prepareAuthorityEffect fates project db request) intent after) :
    Replied project (.prepareEffect request) db (.effect intent) after := by
  simp only [prepareAuthorityEffect, returns_lift_bind] at returned
  obtain ⟨⟨middle, prepared⟩, admitted, returned⟩ := returned
  rw [returns_commit (by simp), returns_pure] at returned
  obtain ⟨-, rfl, rfl⟩ := returned
  exact .prepared rfl admitted

theorem finishAuthorityEffect_returns {intent : AuthorityEffectIntent} {outcome : EffectOutcome} {receipt : Dict}
    (returned : Returns db (finishAuthorityEffect fates project db intent outcome receipt) value after) :
    Replied project (.finishEffect intent outcome receipt) db (.ofState value) after := by
  simp only [finishAuthorityEffect, returns_lift_bind] at returned
  obtain ⟨⟨middle, next⟩, admitted, returned⟩ := returned
  rw [returns_commit fun durable _ _ => markRecovery_fails _ durable, returns_pure] at returned
  obtain ⟨-, rfl, rfl⟩ := returned
  exact .finished rfl admitted

/-- Every operation that returns has done one of the things that are listed. -/
theorem perform_returns {view : Option BarrierSessionState} {reply : Reply} (coherent : Coherent view db)
    (returned : Returns db (perform project fates view db operation) reply after) : Replied project operation db reply after := by
  cases operation with
  | create reading identity =>
    obtain ⟨value, answered, rfl⟩ := returns_map.mp returned
    exact cas_returns (fun bound _ _ => create_offers reading identity bound) answered
  | provisionReleased identity =>
    obtain ⟨value, answered, rfl⟩ := returns_map.mp returned
    exact provisionReleased_returns answered
  | cas reading expected state =>
    obtain ⟨value, answered, rfl⟩ := returns_map.mp returned
    exact cas_returns (fun bound _ _ => cas_offers reading bound) answered
  | casHeld reading identity expected state =>
    obtain ⟨value, answered, rfl⟩ := returns_map.mp returned
    exact casHeld_returns answered
  | transition reading expected transition =>
    rw [perform, performTransition_eq] at returned
    obtain ⟨value, answered, rfl⟩ := returns_map.mp returned
    exact typed_returns coherent answered
  | recoverUnknown =>
    obtain ⟨value, answered, rfl⟩ := returns_map.mp returned
    exact recoverUnknown_returns answered
  | reconcileAmbiguous reading expected replacement =>
    obtain ⟨value, answered, rfl⟩ := returns_map.mp returned
    exact reconcileAmbiguous_returns answered
  | prepareEffect request =>
    obtain ⟨value, answered, rfl⟩ := returns_map.mp returned
    exact prepareAuthorityEffect_returns answered
  | finishEffect intent outcome receipt =>
    obtain ⟨value, answered, rfl⟩ := returns_map.mp returned
    exact finishAuthorityEffect_returns answered

/-- A typed transition that returns was applied to the session in the row. -/
theorem Replied.transition {reading : Reading} {transition : Transition} {reply : Reply}
    (replied : Replied project (.transition reading expected transition) db reply after) :
    ∃ current next, db.row = some current ∧ transition.apply current expected = .ok next := by
  generalize asked : Operation.transition reading expected transition = operation at replied
  cases replied with
  | read other => obtain other | ⟨identity, other⟩ := other <;> cases asked.trans other
  | proposed proposes final =>
    subst asked
    cases proposes with
    | first empty supplies one starts stored => exact supplies.elim
    | replacing row readable released supplies held one apart newer stored => exact ⟨_, _, row, supplies⟩
    | advancing row readable supplies same permitted next => exact ⟨_, _, row, supplies⟩
    | reconciling row readable ambiguous supplies other held one fence settled finished stored => exact ⟨_, _, row, supplies⟩
  | settled other row final => cases asked.trans other
  | recovered other row alive final => cases asked.trans other
  | recoveredEffects other row named => cases asked.trans other
  | prepared other admitted => cases asked.trans other
  | finished other admitted => cases asked.trans other

end replies

end Coordinator.BarrierSession
