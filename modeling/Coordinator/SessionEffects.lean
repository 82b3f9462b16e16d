import Coordinator.SessionHistory

/-! Authority effects that are prepared and not yet resolved, and the session that they were prepared under. -/

namespace Coordinator.BarrierSession
open Kit Kit.Durable

/-- The session is held at the revision of an effect that it prepared, or ambiguous since. -/
structure Holds (project : String) (row : Option BarrierSessionState) (intent : AuthorityEffectIntent) (current : BarrierSessionState) :
    Prop where
  row : row = some current
  readable : Readable project current
  named : effectNamesSession current intent = true
  pinned : current.status = .held ∧ current.revision = intent.sessionRevision ∨
    current.status = .ambiguous ∧ current.revision = intent.sessionRevision + 1

/-- At most one effect is unresolved, and the session holds still for it. -/
structure Pinned (project : String) (db : SessionStore) : Prop where
  single : db.preparedEffects.length ≤ 1
  holds : ∀ effect ∈ db.preparedEffects, ∃ current, Holds project db.row effect.intent current

/-- A call takes a session nowhere but into ambiguity. -/
structure OnlyFences (call : Call) (current : BarrierSessionState) : Prop where
  transitions : ∀ reading transition, call.operation = .transition reading current.revision transition →
    ∃ causeCode, transition = .markAmbiguous causeCode
  swaps : ∀ supplied, call.operation.swapped = some supplied → supplied.identity = current.identity →
    supplied.revision = current.revision + 1 → supplied.status ∈ statusTransitions current.status → supplied.status = .ambiguous

/-- The commits of a call do not raise, and while an effect is unresolved it takes the session nowhere but into ambiguity. -/
def Waiting (s : Sessions) : Event → Prop
  | .look _ => True
  | .call call => (∀ site, call.fates site = .done) ∧
      (s.store.preparedEffects ≠ [] → ∀ current, s.store.row = some current → OnlyFences call current)

section settling

variable {db : SessionStore} {row : Option BarrierSessionState} {history : List BarrierSessionState} {intents : List SessionIntent}

theorem preparedEffects_settle {chosen : EffectRow → Bool} {outcome : EffectOutcome} (final : outcome ≠ .prepared) :
    (SessionStore.mk row history intents (db.settleEffects chosen outcome)).preparedEffects =
      db.preparedEffects.filter (fun effect => !chosen effect) :=
  filter_settle (fun effect : EffectRow => effect.outcome == EffectOutcome.prepared) chosen (fun effect => { effect with outcome })
    (fun _ => beq_false_of_ne final) db.effects

theorem preparedEffects_settle_all {outcome : EffectOutcome} (final : outcome ≠ .prepared) :
    (SessionStore.mk row history intents (db.settleEffects (fun _ => true) outcome)).preparedEffects = [] := by
  rw [preparedEffects_settle final]
  simp

theorem preparedEffects_append {effect : EffectRow} (waits : effect.outcome = .prepared) :
    (SessionStore.mk row history intents (db.effects ++ [effect])).preparedEffects = db.preparedEffects ++ [effect] := by
  simp [SessionStore.preparedEffects, List.filter_append, waits]

end settling

section pinned

variable {project : String} {s : Sessions} {call : Call} {db before after : SessionStore} {intent : AuthorityEffectIntent}
  {current next : BarrierSessionState} {row : Option BarrierSessionState}

theorem pinned_of_nil (nothing : db.preparedEffects = []) : Pinned project db where
  single := by simp [nothing]
  holds := by simp [nothing]

/-- A session that goes into ambiguity holds still for its effect. -/
theorem Holds.ambiguous (holds : Holds project row intent current) (same : next.identity = current.identity)
    (revision : next.revision = current.revision + 1) (held : current.status = .held) (ambiguous : next.status = .ambiguous) :
    Holds project (some next) intent next where
  row := rfl
  readable := ⟨same ▸ holds.readable.valid, same ▸ holds.readable.bound⟩
  named := by
    have named := holds.named
    unfold effectNamesSession at named ⊢
    rwa [same]
  pinned := by
    obtain ⟨-, level⟩ | ⟨other, -⟩ := holds.pinned
    · exact .inr ⟨ambiguous, by rw [revision, level]⟩
    · cases held.symm.trans other

/-- The only effect that is unresolved is the one that is finished. -/
theorem Pinned.finished (pinned : Pinned project db) {row : Option BarrierSessionState} {history : List BarrierSessionState}
    {intents : List SessionIntent} {outcome : EffectOutcome} (final : outcome ≠ .prepared)
    (found : (db.preparedEffects.filter (·.intent.intentId == intent.intentId)).length = 1) :
    (SessionStore.mk row history intents (db.settleEffects (·.intent.intentId == intent.intentId) outcome)).preparedEffects = [] := by
  rw [preparedEffects_settle final]
  have single := pinned.single
  cases prepared : db.preparedEffects with
  | nil => rfl
  | cons effect rest =>
    rw [prepared] at found single
    cases rest with
    | cons other rest => simp at single
    | nil =>
      cases named : effect.intent.intentId == intent.intentId with
      | false => simp [named] at found
      | true => simp [named]

theorem OnlyFences.ambiguous (fences : OnlyFences call current) (supplies : Supplies call.operation (some current) next)
    (same : next.identity = current.identity) (permitted : next.status ∈ statusTransitions current.status)
    (revision : next.revision = current.revision + 1) : next.status = .ambiguous := by
  obtain swapped | ⟨reading, expected, transition, asked, applied⟩ := advancing_cases supplies same revision
  · exact fences.swaps next swapped same revision permitted
  · obtain ⟨rfl, -⟩ := transition.keeps applied
    obtain ⟨causeCode, rfl⟩ := fences.transitions reading transition asked
    rw [(BarrierSessionContract.markAmbiguous_ok applied).2.2]

theorem Proposes.pinned {history : List BarrierSessionState} {expected : Nat} (waiting : Waiting s (.call call))
    (pinned : Pinned project s.store) (proposes : Proposes project call.operation s.store history expected next) :
    Pinned project (propose s.store history expected next) := by
  obtain ⟨single, holds⟩ := pinned
  refine ⟨single, fun effect prepared => ?_⟩
  obtain ⟨current, found⟩ := holds effect prepared
  have unresolved : s.store.preparedEffects ≠ [] := List.ne_nil_of_mem prepared
  cases proposes with
  | first empty supplies one starts stored => cases empty.symm.trans found.row
  | replacing row readable released supplies held one apart newer stored asked =>
    cases row.symm.trans found.row
    obtain ⟨other, -⟩ | ⟨other, -⟩ := found.pinned <;> cases other.symm.trans released
  | reconciling row readable ambiguous supplies asked held one fence settled finished stored => exact absurd finished unresolved
  | advancing row readable supplies same permitted revision =>
    cases row.symm.trans found.row
    have ambiguous := (waiting.2 unresolved current row).ambiguous supplies same permitted revision
    -- nothing follows an ambiguous session
    have held : current.status = .held := by
      obtain ⟨held, -⟩ | ⟨other, -⟩ := found.pinned
      · exact held
      · simp [other, statusTransitions] at permitted
    exact ⟨next, found.ambiguous same revision held ambiguous⟩

/-- A session that is fenced while it is alive holds still for its effect. -/
theorem Holds.fenced (holds : Holds project row intent current) (alive : live current.status = true) :
    Holds project (some current.fenced) intent current.fenced := by
  refine holds.ambiguous rfl rfl ?_ rfl
  obtain ⟨held, -⟩ | ⟨other, -⟩ := holds.pinned
  · exact held
  · simp [other, live] at alive

theorem Write.pinned (waiting : Waiting s (.call call)) (pinned : Pinned project before)
    (write : Write project call.fates call.operation s.store before after) : Pinned project after := by
  cases write with
  | proposed proposes => exact proposes.pinned waiting pinned
  | settled chosen final => exact ⟨pinned.single, pinned.holds⟩
  | fenced raised proposes durable fence => exact absurd (waiting.1 _) raised
  | fencedAll raised fence =>
    obtain ⟨site, raised⟩ := raised
    exact absurd (waiting.1 site) raised
  | recovered asked row alive other =>
    refine ⟨pinned.single, fun effect prepared => ?_⟩
    obtain ⟨current, found⟩ := pinned.holds effect prepared
    cases row.symm.trans found.row
    exact ⟨_, found.fenced alive⟩
  | recoveredEffects asked row named => exact pinned_of_nil (preparedEffects_settle_all nofun)
  | prepared asked admitted =>
    obtain ⟨current, _, row, readable, held, -, settled, -, -, made, rfl⟩ := admitEffect_ok admitted
    constructor
    · rw [preparedEffects_append rfl, settled]
      rfl
    · intro effect prepared
      rw [preparedEffects_append rfl, settled, List.nil_append, List.mem_singleton] at prepared
      obtain rfl := prepared
      exact ⟨current, row, readable, by simp [made, effectNamesSession], .inl ⟨held, by rw [made]⟩⟩
  | finished asked admitted =>
    obtain ⟨current, row, -, -, final, -, one, rfl, rfl⟩ := admitFinish_ok admitted
    exact pinned_of_nil (pinned.finished final one)

/-- Recovery resolves an effect whose session holds still for it. -/
theorem Pinned.recovers {fates : Site → Fate} (pinned : Pinned project db) (done : fates .session = .done)
    (unresolved : db.preparedEffects ≠ []) :
    ∃ value after, Returns db (recoverUnknown fates project db) value after ∧ after.preparedEffects = [] := by
  obtain ⟨effect, prepared⟩ := List.exists_mem_of_ne_nil _ unresolved
  obtain ⟨current, found⟩ := pinned.holds effect prepared
  have named : ∀ effect ∈ db.preparedEffects, effectNamesSession current effect.intent = true ∧
      (effect.intent.sessionRevision = current.revision ∨ effect.intent.sessionRevision + 1 = current.revision) := by
    intro other prepared
    obtain ⟨_, same⟩ := pinned.holds other prepared
    cases same.row.symm.trans found.row
    obtain ⟨-, level⟩ | ⟨-, level⟩ := same.pinned
    · exact ⟨same.named, .inl level.symm⟩
    · exact ⟨same.named, .inr level.symm⟩
  have returned : Returns db (recoverPreparedEffects fates project db) (if current.status = .held then current.fenced else current)
      { db with
        row := some (if current.status = .held then current.fenced else current)
        effects := db.settleEffects (fun _ => true) .ambiguous } := by
    simp only [recoverPreparedEffects, returns_lift_bind, currentSession_eq_ok, refuseIf_eq_ok, Bool.not_eq_false', List.all_eq_true,
      Bool.and_eq_true, Bool.or_eq_true, beq_iff_eq, exists_unit]
    refine ⟨current, ⟨found.row, found.readable⟩, named, ?_⟩
    rw [returns_commit fun durable _ _ => markRecovery_fails _ durable, returns_pure]
    exact ⟨done, rfl, rfl⟩
  rw [recoverUnknown, if_pos unresolved]
  refine ⟨_, _, returns_map.mpr ⟨_, returned, rfl⟩, ?_⟩
  exact preparedEffects_settle_all (by decide)

/-- A held session finishes its effect with any outcome, a committed one with a receipt that agrees. -/
theorem Pinned.finishes {fates : Site → Fate} {effect : EffectRow} {outcome : EffectOutcome} {receipt : Dict}
    (pinned : Pinned project db) (done : fates .session = .done) (prepared : effect ∈ db.preparedEffects)
    (row : db.row = some current) (held : current.status = .held) (final : outcome ≠ .prepared)
    (agrees : outcome = .committed → effect.intent.admission.artifact.isSome = true → receiptMatches effect.intent receipt = true) :
    ∃ value after, Returns db (finishAuthorityEffect fates project db effect.intent outcome receipt) value after ∧
      after.preparedEffects = [] := by
  obtain ⟨_, found⟩ := pinned.holds effect prepared
  cases row.symm.trans found.row
  have level : current.revision = effect.intent.sessionRevision := by
    obtain ⟨-, level⟩ | ⟨other, -⟩ := found.pinned
    · exact level
    · cases held.symm.trans other
  have matching : effectIntentMatches current effect.intent = true := by
    simp [effectIntentMatches, held, level, found.named]
  have one : (db.preparedEffects.filter (·.intent.intentId == effect.intent.intentId)).length = 1 := by
    have single := pinned.single
    obtain ⟨first, rest, split⟩ := List.append_of_mem prepared
    rw [split] at single ⊢
    simp only [List.length_append, List.length_cons] at single
    have noFirst : first = [] := List.length_eq_zero_iff.mp (by omega)
    have noRest : rest = [] := List.length_eq_zero_iff.mp (by omega)
    simp [noFirst, noRest]
  have agreed : (outcome == .committed && effect.intent.admission.artifact.isSome && !receiptMatches effect.intent receipt) = false := by
    by_cases committed : outcome = .committed
    · cases admitted : effect.intent.admission.artifact.isSome with
      | false => simp
      | true => simp [agrees committed admitted]
    · simp [beq_false_of_ne committed]
  let next := if outcome = .ambiguous then current.fenced else current
  have returned : Returns db (finishAuthorityEffect fates project db effect.intent outcome receipt) next { db with
      row := some next, effects := db.settleEffects (·.intent.intentId == effect.intent.intentId) outcome } := by
    simp only [finishAuthorityEffect, returns_lift_bind]
    refine ⟨({ db with row := some next, effects := db.settleEffects (·.intent.intentId == effect.intent.intentId) outcome }, next), ?_, ?_⟩
    · simp only [admitFinish, bind_eq_ok, exists_unit, refuseIf_eq_ok, orRaise_eq_ok, snapshotLocked_eq_ok, pure_eq_ok,
        Option.filter_eq_some_iff, beq_eq_false_iff_ne, bne_eq_false_iff_eq]
      refine ⟨final, agreed, some current, ⟨row, ?_⟩, current, ⟨rfl, matching⟩, one, rfl⟩
      rintro _ ⟨⟩
      exact found.readable
    · rw [returns_commit fun durable _ _ => markRecovery_fails _ durable, returns_pure]
      exact ⟨done, rfl, rfl⟩
  exact ⟨_, _, returned, pinned.finished final one⟩

theorem waiting_of_settled {operation : Operation} (settled : s.store.preparedEffects = []) : Waiting s (sampleCall operation) :=
  ⟨fun _ => rfl, fun unresolved => absurd settled unresolved⟩

end pinned

def samplePrepare (expectedRevision : Nat) : Event :=
  sampleCall (.prepareEffect { expectedRevision, operationId := "operation-1", backend := "sqlite", target := "new" })

theorem samplePrepare_waiting : Run.Along (step sampleProject) Waiting .empty [sampleCreate, samplePrepare 1] :=
  ⟨waiting_of_settled rfl, waiting_of_settled (by decide +kernel), trivial⟩

/-- An effect is prepared once the forward child is bound, and the session is bound on and begun to reopen. -/
def sampleLeft : List Event :=
  sampleOpened ++ [Event.call sampleBinding, samplePrepare 2, .look 0, .call sampleRollback, .look 0,
    .call (sampleReopen (sampleChild "rollback-1" .rollback))]

end Coordinator.BarrierSession
