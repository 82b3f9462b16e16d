import Coordinator.SessionEffects

/-! Recovery after the process of an operation has died. The operation commits its session with an intent and then
the outcome of the intent; recovery settles what it finds prepared. -/

namespace Coordinator.BarrierSession
open Kit Kit.Durable

/-- The intents are numbered in the order in which they were prepared. -/
def Numbered (db : SessionStore) : Prop := db.intents.map (·.intentId) = List.range db.intents.length

section intents

variable {project : String} {fates : Site → Fate} {operation : Operation} {db before after : SessionStore}
  {history : List BarrierSessionState} {expected : Nat} {supplied value : BarrierSessionState} {row : Option BarrierSessionState}

theorem preparedIntents_settle {chosen : SessionIntent → Bool} {outcome : IntentOutcome} (final : outcome ≠ .prepared)
    {effects : List EffectRow} :
    (SessionStore.mk row history (db.settle chosen outcome) effects).preparedIntents =
      db.preparedIntents.filter (fun intent => !chosen intent) :=
  filter_settle (fun intent : SessionIntent => intent.outcome == IntentOutcome.prepared) chosen (fun intent => { intent with outcome })
    (fun _ => beq_false_of_ne final) db.intents

theorem preparedIntents_propose : (propose db history expected supplied).preparedIntents =
    db.preparedIntents ++ [intentOf db.intents.length expected supplied] := by
  simp [SessionStore.preparedIntents, propose, List.filter_append, intentOf]

theorem Numbered.lt (numbered : Numbered db) {intent : SessionIntent} (prepared : intent ∈ db.preparedIntents) :
    intent.intentId < db.intents.length := by
  have member := List.mem_map_of_mem (f := (·.intentId)) (List.mem_of_mem_filter prepared)
  rw [numbered] at member
  exact List.mem_range.mp member

theorem Numbered.proposed (numbered : Numbered db) : Numbered (propose db history expected supplied) := by
  unfold Numbered at numbered ⊢
  simp [propose, numbered, intentOf, List.range_succ]

theorem Numbered.settled (numbered : Numbered db) {chosen : SessionIntent → Bool} {outcome : IntentOutcome} {effects : List EffectRow} :
    Numbered ⟨row, history, db.settle chosen outcome, effects⟩ := by
  unfold Numbered at numbered ⊢
  simp only [SessionStore.settle, List.map_map, List.length_map]
  rw [← numbered]
  refine List.map_congr_left fun intent _ => ?_
  simp only [Function.comp_apply]
  split <;> rfl

/-- The intent that has just been prepared is the only one of its number. -/
theorem Numbered.newest (numbered : Numbered db) :
    ((propose db history expected supplied).preparedIntents.filter (·.intentId == db.intents.length)).length = 1 := by
  have others : db.preparedIntents.filter (·.intentId == db.intents.length) = [] := by
    rw [List.filter_eq_nil_iff]
    intro intent prepared same
    exact absurd (beq_iff_eq.mp same) (Nat.ne_of_lt (numbered.lt prepared))
  rw [preparedIntents_propose, List.filter_append, others]
  simp [intentOf]

/-- What is left prepared of a proposed store when its intent is settled. -/
theorem Numbered.published (numbered : Numbered db) {outcome : IntentOutcome} (final : outcome ≠ .prepared) :
    ({ propose db history expected supplied with
        intents := (propose db history expected supplied).settle (·.intentId == db.intents.length) outcome } : SessionStore).preparedIntents =
      db.preparedIntents := by
  rw [preparedIntents_settle final, preparedIntents_propose, List.filter_append]
  have others : db.preparedIntents.filter (fun intent => !(intent.intentId == db.intents.length)) = db.preparedIntents := by
    rw [List.filter_eq_self]
    intro intent prepared
    simp [Nat.ne_of_lt (numbered.lt prepared)]
  rw [others]
  simp [intentOf]

end intents

section atomic

variable {project : String} {fates : Site → Fate} {operation : Operation} {db before : SessionStore}
  {history : List BarrierSessionState} {expected : Nat} {supplied : BarrierSessionState} {outcome : IntentOutcome}

theorem markIntent_newest (numbered : Numbered db) :
    markIntent (propose db history expected supplied) db.intents.length outcome = .ok { propose db history expected supplied with
      intents := (propose db history expected supplied).settle (·.intentId == db.intents.length) outcome } := by
  simp only [markIntent, bind_eq_ok, exists_unit, refuseIf_eq_ok, pure_eq_ok, numbered.newest]
  exact ⟨rfl, trivial⟩

theorem publish_ends {α : Type} (done : ∀ site, fates site = .done) (numbered : Numbered db) (fault : Fault) (result : α) :
    Ends 1 (publish fates project db.intents.length outcome fault result (propose db history expected supplied)) := by
  rw [publish, markIntent_newest numbered]
  exact .commit (done _) .pure

theorem casLocked_atomic {initial : Bool} (done : ∀ site, fates site = .done) (numbered : Numbered db)
    (offers : ∀ after, admitCas project db expected supplied initial = .ok after → Offers project operation db expected supplied initial) :
    Atomic (casLocked fates project db expected supplied initial) := by
  refine .lift_bind fun after admitted => ?_
  obtain ⟨history, -, rfl⟩ := admitCas_proposes (offers after admitted) admitted
  exact .inr (.commit (done _) (publish_ends done numbered _ _))

theorem cas_atomic {reading : Reading} (done : ∀ site, fates site = .done) (numbered : Numbered db)
    (offers : supplied.identity.projectId = project →
      ∀ after, admitCas project db expected supplied false = .ok after → Offers project operation db expected supplied false) :
    Atomic (cas fates project db reading expected supplied) :=
  .lift_bind fun _ bound => .lift_bind fun _ _ => .lift_bind fun _ _ => casLocked_atomic done numbered (offers (cas_bound bound))

theorem typed_atomic {view : Option BarrierSessionState} {reading : Reading} {transition : Transition}
    (done : ∀ site, fates site = .done) (numbered : Numbered db) (coherent : Coherent view db) :
    Atomic (typed fates project db view reading expected (fun current => transition.apply current expected)) := by
  refine .lift_bind fun seen viewed => .lift_bind fun next applied => ?_
  cases orRaise_eq_ok.mp viewed
  have offers : next.identity.projectId = project → ∀ after, admitCas project db expected next false = .ok after →
      Offers project (.transition reading expected transition) db expected next false :=
    fun bound _ admitted => typed_offers coherent applied bound admitted
  exact cas_atomic done numbered offers

theorem provisionReleased_atomic (done : ∀ site, fates site = .done) (numbered : Numbered db) (identity : BarrierSessionIdentity) :
    Atomic (provisionReleased fates project db identity) := by
  refine .lift_bind fun _ bound => .lift_bind fun found read => ?_
  obtain ⟨row, -⟩ := snapshotLocked_eq_ok.mp read
  cases found with
  | some current =>
    by_cases provisioned : current.status = .released ∧ current.identity = identity
    · simp only [if_pos provisioned]
      exact .inr .pure
    · simp only [if_neg provisioned]
      exact .fail _
  | none => exact casLocked_atomic done numbered fun _ _ => provisionReleased_offers row (cas_bound bound)

theorem casHeld_atomic {reading : Reading} {identity : BarrierSessionIdentity} (done : ∀ site, fates site = .done)
    (numbered : Numbered db) : Atomic (casHeld fates project db reading identity expected supplied) := by
  refine .lift_bind fun _ named => .lift_bind fun _ rechecked => ?_
  have offers : Offers project (.casHeld reading identity expected supplied) db expected supplied false := casHeld_offers named rechecked
  exact casLocked_atomic done numbered fun _ _ => offers

theorem reconcileAmbiguous_atomic {reading : Reading} (done : ∀ site, fates site = .done) (numbered : Numbered db) :
    Atomic (reconcileAmbiguous fates project db reading expected supplied) := by
  refine .lift_bind fun after admitted => ?_
  obtain ⟨history, -, rfl⟩ := admitReconciliation_proposes admitted
  rw [markIntent_newest numbered]
  exact .inr (.commit (done _) (.commit (done _) .pure))

theorem settlePrepared_ends (done : ∀ site, fates site = .done) (current : BarrierSessionState) :
    Ends 1 (settlePrepared fates project outcome current before) :=
  .commit (done _) .pure

theorem recoverPrepared_atomic (done : ∀ site, fates site = .done) : Atomic (recoverPrepared fates project db) := by
  refine .lift_bind fun current _ => .lift_bind fun _ _ => ?_
  split
  · exact .lift_bind fun _ _ => .inr ((settlePrepared_ends done current).mono (by decide))
  · split
    · exact .inr ((settlePrepared_ends done current).mono (by decide))
    · exact .lift_bind fun _ _ => .inr (.commit (done _) (settlePrepared_ends done _))

theorem recoverPreparedEffects_atomic (done : ∀ site, fates site = .done) : Atomic (recoverPreparedEffects fates project db) :=
  .lift_bind fun _ _ => .lift_bind fun _ _ => .inr (.commit (done _) .pure)

theorem recoverUnknown_atomic (done : ∀ site, fates site = .done) : Atomic (recoverUnknown fates project db) := by
  unfold recoverUnknown
  split
  · exact (recoverPreparedEffects_atomic done).map _
  · split
    · exact (recoverPrepared_atomic done).map _
    · exact .lift _

/-- Where no commit raises, every operation fails without a commit or returns after at most two. -/
theorem perform_atomic {view : Option BarrierSessionState} (done : ∀ site, fates site = .done) (numbered : Numbered db)
    (coherent : Coherent view db) : Atomic (perform project fates view db operation) := by
  cases operation with
  | create reading identity => exact (cas_atomic done numbered fun bound _ _ => create_offers reading identity bound).map _
  | provisionReleased identity => exact (provisionReleased_atomic done numbered identity).map _
  | cas reading expected state => exact (cas_atomic done numbered fun bound _ _ => cas_offers reading bound).map _
  | casHeld reading identity expected state => exact (casHeld_atomic done numbered).map _
  | transition reading expected transition =>
    rw [perform, performTransition_eq]
    exact (typed_atomic done numbered coherent).map _
  | recoverUnknown => exact (recoverUnknown_atomic done).map _
  | reconcileAmbiguous reading expected replacement => exact (reconcileAmbiguous_atomic done numbered).map _
  | prepareEffect request =>
    refine .map _ (.lift_bind fun prepared _ => ?_)
    cases prepared
    exact .inr (.commit (done _) .pure)
  | finishEffect intent outcome receipt =>
    refine .map _ (.lift_bind fun finished _ => ?_)
    cases finished
    exact .inr (.commit (done _) .pure)

end atomic

/-- A call takes a session nowhere at all. -/
structure OnlyRests (call : Call) (current : BarrierSessionState) : Prop where
  transitions : ∀ reading transition, call.operation ≠ .transition reading current.revision transition
  swaps : ∀ supplied, call.operation.swapped = some supplied → supplied.identity = current.identity →
    supplied.revision = current.revision + 1 → supplied.status ∉ statusTransitions current.status

/-- A call that leaves what recovery can settle. Its commits do not raise, it prepares no effect and opens only sessions
whose identities are valid; where its process dies between its commits it does not release, and reconciles only a session
at revision two; and while an intent is prepared it takes the session nowhere but into ambiguity, or nowhere at all where
the intent is one of a reconciliation. -/
structure Recovering (s : Sessions) (call : Call) : Prop where
  done : ∀ site, call.fates site = .done
  listed : ∀ request, call.operation ≠ .prepareEffect request
  valid : ∀ supplied, call.operation.opened = some supplied → (∀ current, s.store.row = some current → Renews current supplied) →
    supplied.identity.valid = true
  released : call.operation.releases = true → call.died ≠ some 1
  reconciled : ∀ reading expected replacement, call.operation = .reconcileAmbiguous reading expected replacement →
    call.died = some 1 → expected = 2 ∧ ∀ old ∈ s.store.history, old.revision = 2 → old.status = .ambiguous
  fences : s.store.preparedIntents ≠ [] → ∀ current, s.store.row = some current → OnlyFences call current
  rests : ∀ intent ∈ s.store.preparedIntents, ∀ current, s.store.row = some current →
    isInterruptedReconciliation current intent = true → OnlyRests call current

def Recovered (s : Sessions) : Event → Prop
  | .look _ => True
  | .call call => Recovering s call

/-- Recovery can settle the intents that are prepared for a session. -/
def Settleable (project : String) (db : SessionStore) (current : BarrierSessionState) : Prop :=
  (current.status ≠ .released ∧ ∀ intent ∈ db.preparedIntents, namesSession current intent = true ∧
    (matchesCurrent current intent = true ∨ matchesInterruptedRecovery current intent = true)) ∨
  ∀ intent ∈ db.preparedIntents, namesSession current intent = true ∧ isInterruptedReconciliation current intent = true ∧
    reconciliationHistoryMatches project db current intent = true

structure Recoverable (project : String) (db : SessionStore) : Prop where
  numbered : Numbered db
  finished : db.preparedEffects = []
  empty : db.row = none → db.preparedIntents = [] ∧ db.history = []
  current : ∀ current, db.row = some current → Readable project current ∧ Settleable project db current
  archived : ∀ old ∈ db.history, Readable project old ∧
    ∀ current, db.row = some current → old.identity.stateRevision < current.identity.stateRevision

section completes

variable {project : String} {fates : Site → Fate} {db : SessionStore} {current : BarrierSessionState}

theorem Settleable.matches (settleable : Settleable project db current) :
    db.preparedIntents.all (preparedIntentMatches current) = true := by
  rw [List.all_eq_true]
  intro intent prepared
  rw [preparedIntentMatches, Bool.and_eq_true, Bool.or_eq_true, Bool.or_eq_true]
  obtain ⟨-, matching⟩ | reconciled := settleable
  · exact ⟨(matching intent prepared).1, .inl (matching intent prepared).2⟩
  · exact ⟨(reconciled intent prepared).1, .inr (reconciled intent prepared).2.1⟩

/-- An intent of a transition is none of a reconciliation. -/
theorem reconciliation_apart {intent : SessionIntent}
    (matching : matchesCurrent current intent = true ∨ matchesInterruptedRecovery current intent = true) :
    isInterruptedReconciliation current intent = false := by
  simp only [matchesCurrent, matchesInterruptedRecovery, isInterruptedReconciliation, Bool.and_eq_true, beq_iff_eq] at matching ⊢
  obtain ⟨⟨proposed, expected⟩, -⟩ | ⟨⟨⟨ambiguous, -⟩, -⟩, -⟩ := matching
  · have apart : intent.expectedRevision ≠ current.revision + 1 := by omega
    simp [apart]
  · simp [ambiguous]

theorem preparedIntents_settle_all {row : Option BarrierSessionState} {history : List BarrierSessionState} {effects : List EffectRow}
    {outcome : IntentOutcome} (final : outcome ≠ .prepared) :
    (SessionStore.mk row history (db.settle (fun _ => true) outcome) effects).preparedIntents = [] := by
  rw [preparedIntents_settle final]
  simp

/-- Recovery settles every intent. -/
theorem recoverPrepared_completes (done : ∀ site, fates site = .done) (row : db.row = some current) (readable : Readable project current)
    (settleable : Settleable project db current) (prepared : db.preparedIntents ≠ []) :
    ∃ value after, Returns db (recoverPrepared fates project db) value after ∧ after.preparedIntents = [] ∧
      after.preparedEffects = db.preparedEffects := by
  obtain ⟨intent, member⟩ := List.exists_mem_of_ne_nil _ prepared
  by_cases reconciled : db.preparedIntents.all (isInterruptedReconciliation current) = true
  · have history : db.preparedIntents.all (reconciliationHistoryMatches project db current) = true := by
      obtain ⟨-, matching⟩ | reconciliations := settleable
      · have apart := reconciliation_apart (matching intent member).2
        exact absurd (List.all_eq_true.mp reconciled intent member) (Bool.eq_false_iff.mp apart)
      · exact List.all_eq_true.mpr fun intent prepared => (reconciliations intent prepared).2.2
    refine ⟨current, { db with intents := db.settle (fun _ => true) .reconciled }, ?_, preparedIntents_settle_all (by decide), rfl⟩
    simp only [recoverPrepared, returns_lift_bind, currentSession_eq_ok, refuseIf_eq_ok, Bool.not_eq_false', exists_unit]
    refine ⟨current, ⟨row, readable⟩, settleable.matches, ?_⟩
    rw [if_pos reconciled]
    simp only [returns_lift_bind, refuseIf_eq_ok, Bool.not_eq_false', exists_unit]
    exact ⟨history, settledCommit_returns.mpr ⟨done _, rfl, rfl⟩⟩
  · have matching : current.status ≠ .released := by
      obtain ⟨other, -⟩ | reconciliations := settleable
      · exact other
      · exact absurd (List.all_eq_true.mpr fun intent prepared => (reconciliations intent prepared).2.1) reconciled
    by_cases ambiguous : current.status = .ambiguous
    · refine ⟨current, { db with intents := db.settle (fun _ => true) .ambiguous }, ?_, preparedIntents_settle_all (by decide), rfl⟩
      simp only [recoverPrepared, returns_lift_bind, currentSession_eq_ok, refuseIf_eq_ok, Bool.not_eq_false', exists_unit]
      refine ⟨current, ⟨row, readable⟩, settleable.matches, ?_⟩
      rw [if_neg reconciled, if_pos ambiguous]
      exact settledCommit_returns.mpr ⟨done _, rfl, rfl⟩
    · have alive : live current.status = true := by
        cases status : current.status <;> simp_all [live]
      refine ⟨current.fenced, { db with row := some current.fenced, intents := db.settle (fun _ => true) .ambiguous }, ?_,
        preparedIntents_settle_all (by decide), rfl⟩
      simp only [recoverPrepared, returns_lift_bind, currentSession_eq_ok, refuseIf_eq_ok, Bool.not_eq_false', exists_unit]
      refine ⟨current, ⟨row, readable⟩, settleable.matches, ?_⟩
      rw [if_neg reconciled, if_neg ambiguous]
      simp only [returns_lift_bind, refuseIf_eq_ok, Bool.not_eq_false', exists_unit]
      refine ⟨alive, ?_⟩
      rw [returns_commit fun durable _ _ => markRecovery_fails _ durable]
      exact ⟨done _, settledCommit_returns.mpr ⟨done _, rfl, rfl⟩⟩

theorem Recoverable.completes (done : ∀ site, fates site = .done) (recoverable : Recoverable project db) :
    ∃ value after, Returns db (recoverUnknown fates project db) value after ∧ after.preparedIntents = [] ∧ after.preparedEffects = [] := by
  rw [recoverUnknown, if_neg (fun unresolved => unresolved recoverable.finished)]
  by_cases prepared : db.preparedIntents = []
  · rw [if_neg (fun waits => waits prepared)]
    refine ⟨db.row, db, returns_lift.mpr ⟨snapshotLocked_eq_ok.mpr ⟨rfl, fun row found => ?_⟩, rfl⟩, prepared, recoverable.finished⟩
    exact (recoverable.current row found).1
  · rw [if_pos prepared]
    cases row : db.row with
    | none => exact absurd (recoverable.empty row).1 prepared
    | some current =>
      obtain ⟨readable, settleable⟩ := recoverable.current current row
      obtain ⟨value, after, returned, settled, same⟩ := recoverPrepared_completes done row readable settleable prepared
      exact ⟨some value, after, returns_map.mpr ⟨value, returned, rfl⟩, settled, same.trans recoverable.finished⟩

end completes

section runs

variable {project : String} {s : Sessions} {call : Call} {history : List BarrierSessionState} {expected : Nat}
  {current supplied : BarrierSessionState} {after : SessionStore}

theorem recoverable_empty : Recoverable project .empty :=
  ⟨rfl, rfl, fun _ => ⟨rfl, rfl⟩, fun current row => absurd row (SessionStore.empty_row current), List.forall_mem_nil _⟩

/-- A session that is opened is readable and follows all that are archived then. -/
theorem Proposes.archived (recovering : Recovering s call) (recoverable : Recoverable project s.store)
    (proposes : Proposes project call.operation s.store history expected supplied) :
    Readable project supplied ∧ ∀ old ∈ history, Readable project old ∧ old.identity.stateRevision < supplied.identity.stateRevision := by
  have archive : ∀ current, s.store.row = some current → current.identity.stateRevision < supplied.identity.stateRevision →
      ∀ old ∈ SessionStore.archive current s.store.history,
        Readable project old ∧ old.identity.stateRevision < supplied.identity.stateRevision := by
    intro current row newer old member
    rw [SessionStore.archive, List.mem_append, List.mem_filter, List.mem_singleton] at member
    obtain ⟨archived, -⟩ | rfl := member
    · obtain ⟨readable, older⟩ := recoverable.archived old archived
      exact ⟨readable, (older current row).trans newer⟩
    · exact ⟨(recoverable.current old row).1, newer⟩
  cases proposes with
  | first empty supplies one starts stored asked bound =>
    refine ⟨⟨recovering.valid supplied asked fun current row => ?_, bound⟩, fun old archived => ?_⟩
    · cases empty.symm.trans row
    · rw [(recoverable.empty empty).2] at archived
      cases archived
  | @replacing current _ row readable released supplies held one apart newer stored asked bound =>
    refine ⟨⟨recovering.valid supplied ?_ fun other found => ?_, bound⟩, archive current row newer⟩
    · rw [Operation.opened]
      · exact asked
      · rintro identity provisioned
        rw [provisioned] at asked
        cases asked
    · cases row.symm.trans found
      exact ⟨.inl released, apart, newer⟩
  | @reconciling current _ row readable ambiguous supplies asked held one fence settled finished stored bound =>
    simp only [freshFence, Bool.and_eq_true, bne_iff_ne, decide_eq_true_eq] at fence
    obtain ⟨reading, asked⟩ := asked
    refine ⟨⟨recovering.valid supplied (by rw [asked]; rfl) fun other found => ?_, bound⟩, archive current row fence.1.1.2⟩
    cases row.symm.trans found
    exact ⟨.inr ambiguous, fence.1.1.1, fence.1.1.2⟩
  | advancing row readable supplies same permitted next =>
    refine ⟨⟨same ▸ readable.valid, same ▸ readable.bound⟩, fun old archived => ?_⟩
    obtain ⟨older, follows⟩ := recoverable.archived old archived
    exact ⟨older, same ▸ follows _ row⟩

theorem namesSession_of_identity {intent : SessionIntent} (same : supplied.identity = current.identity) :
    namesSession supplied intent = namesSession current intent := by
  rw [namesSession, namesSession, same]

theorem live_of_ambiguous {status : Status} (permitted : Status.ambiguous ∈ statusTransitions status) : live status = true := by
  cases status <;> simp_all [statusTransitions, live]

/-- Intents of transitions into a session that was alive are those of an interrupted recovery once it is ambiguous. -/
theorem interrupted_of_current {intent : SessionIntent} (matching : matchesCurrent current intent = true) (alive : live current.status = true)
    (next : supplied.revision = current.revision + 1) (ambiguous : supplied.status = .ambiguous) :
    matchesInterruptedRecovery supplied intent = true := by
  simp only [matchesCurrent, matchesInterruptedRecovery, Bool.and_eq_true, beq_iff_eq] at matching ⊢
  obtain ⟨⟨proposed, expected⟩, status⟩ := matching
  exact ⟨⟨⟨ambiguous, by omega⟩, by omega⟩, status ▸ alive⟩

/-- While intents are prepared a session only goes into ambiguity, where recovery can settle them. -/
theorem Proposes.settles (recovering : Recovering s call) (recoverable : Recoverable project s.store)
    (proposes : Proposes project call.operation s.store history expected supplied) (prepared : s.store.preparedIntents ≠ []) :
    supplied.status = .ambiguous ∧ ∀ intent ∈ s.store.preparedIntents, namesSession supplied intent = true ∧
      matchesInterruptedRecovery supplied intent = true := by
  obtain ⟨witness, member⟩ := List.exists_mem_of_ne_nil _ prepared
  cases proposes with
  | first empty supplies one starts stored => exact absurd (recoverable.empty empty).1 prepared
  | reconciling row readable ambiguous supplies asked held one fence settled => exact absurd settled prepared
  | replacing row readable released supplies held one apart newer stored =>
    obtain ⟨other, -⟩ | reconciliations := (recoverable.current _ row).2
    · exact absurd released other
    · have reconciliation := (reconciliations witness member).2.1
      simp [isInterruptedReconciliation, released] at reconciliation
  | advancing row readable supplies same permitted next =>
    have ambiguous := (recovering.fences prepared _ row).ambiguous supplies same permitted next
    refine ⟨ambiguous, fun intent prepared => ?_⟩
    rw [namesSession_of_identity same]
    obtain ⟨-, matching⟩ | reconciliations := (recoverable.current _ row).2
    · obtain ⟨named, matching⟩ := matching intent prepared
      refine ⟨named, ?_⟩
      obtain matching | interrupted := matching
      · exact interrupted_of_current matching (live_of_ambiguous (ambiguous ▸ permitted)) next ambiguous
      · simp only [matchesInterruptedRecovery, Bool.and_eq_true, beq_iff_eq] at interrupted
        simp [interrupted.1.1.1, statusTransitions] at permitted
    · have rests := recovering.rests intent prepared _ row (reconciliations intent prepared).2.1
      obtain swapped | ⟨reading, expected, transition, asked, applied⟩ := advancing_cases supplies same next
      · exact absurd permitted (rests.swaps _ swapped same next)
      · obtain ⟨rfl, -⟩ := transition.keeps applied
        exact absurd asked (rests.transitions reading transition)

theorem Recoverable.of_proposed (recovering : Recovering s call) (recoverable : Recoverable project s.store)
    (proposes : Proposes project call.operation s.store history expected supplied) {intents : List SessionIntent}
    (numbered : Numbered ⟨some supplied, history, intents, s.store.effects⟩)
    (settleable : Settleable project ⟨some supplied, history, intents, s.store.effects⟩ supplied) :
    Recoverable project ⟨some supplied, history, intents, s.store.effects⟩ := by
  obtain ⟨readable, archived⟩ := proposes.archived recovering recoverable
  refine ⟨numbered, recoverable.finished, nofun, ?_, fun old member => ?_⟩
  · rintro _ ⟨⟩
    exact ⟨readable, settleable⟩
  · refine ⟨(archived old member).1, ?_⟩
    rintro _ ⟨⟩
    exact (archived old member).2

/-- A session whose intent has been published. -/
theorem Recoverable.published (recovering : Recovering s call) (recoverable : Recoverable project s.store)
    (proposes : Proposes project call.operation s.store history expected supplied) {outcome : IntentOutcome} (final : outcome ≠ .prepared) :
    Recoverable project { propose s.store history expected supplied with
      intents := (propose s.store history expected supplied).settle (·.intentId == s.store.intents.length) outcome } := by
  refine recoverable.of_proposed recovering proposes recoverable.numbered.proposed.settled ?_
  have same : (SessionStore.mk (some supplied) history
      ((propose s.store history expected supplied).settle (·.intentId == s.store.intents.length) outcome) s.store.effects).preparedIntents =
        s.store.preparedIntents := recoverable.numbered.published final
  by_cases quiet : s.store.preparedIntents = []
  · refine .inr fun intent prepared => ?_
    rw [same.trans quiet] at prepared
    cases prepared
  · obtain ⟨ambiguous, interrupted⟩ := proposes.settles recovering recoverable quiet
    refine .inl ⟨by rw [ambiguous]; nofun, fun intent prepared => ?_⟩
    rw [same] at prepared
    exact ⟨(interrupted intent prepared).1, .inr (interrupted intent prepared).2⟩

theorem namesSession_intentOf (intentId : Nat) : namesSession supplied (intentOf intentId expected supplied) = true := by
  simp [namesSession, intentOf]

/-- The history of a reconciliation that replaces a session at its second revision names it as the predecessor. -/
theorem reconciliationHistory_archived {db : SessionStore} {intent : SessionIntent} (two : intent.expectedRevision = 2)
    (predecessor : current ∈ db.history) (level : current.revision = 2)
    (archived : ∀ old ∈ db.history, Readable project old ∧ old.identity.stateRevision < supplied.identity.stateRevision)
    (ambiguous : ∀ old ∈ db.history, old.revision = 2 → old.status = .ambiguous) :
    reconciliationHistoryMatches project db supplied intent = true := by
  rw [reconciliationHistoryMatches, two]
  cases found : db.history.find? (fun old => old.revision == 2) with
  | none => exact absurd level (by simpa using List.find?_eq_none.mp found current predecessor)
  | some previous =>
    have member := List.mem_of_find?_eq_some found
    have revision : previous.revision = 2 := by simpa using List.find?_some found
    obtain ⟨readable, older⟩ := archived previous member
    have apart : previous.identity ≠ supplied.identity := by
      intro same
      rw [same] at older
      exact absurd older (lt_irrefl _)
    simp [readable.valid, readable.bound, ambiguous previous member revision, apart, older]

/-- A session whose operation died before its intent was published. -/
theorem Recoverable.cut_proposed (recovering : Recovering s call) (recoverable : Recoverable project s.store)
    (died : call.died = some 1) (proposes : Proposes project call.operation s.store history expected supplied) :
    Recoverable project (propose s.store history expected supplied) := by
  refine recoverable.of_proposed recovering proposes recoverable.numbered.proposed ?_
  have prepares : ∀ intent ∈ (propose s.store history expected supplied).preparedIntents,
      intent ∈ s.store.preparedIntents ∨ intent = intentOf s.store.intents.length expected supplied := by
    intro intent prepared
    rwa [preparedIntents_propose, List.mem_append, List.mem_singleton] at prepared
  have advanced : expected + 1 = supplied.revision → Settleable project (propose s.store history expected supplied) supplied := by
    refine fun next => .inl ⟨fun released => recovering.released (proposes.releases released) died, fun intent prepared => ?_⟩
    obtain prior | rfl := prepares intent prepared
    · obtain ⟨named, interrupted⟩ := (proposes.settles recovering recoverable (List.ne_nil_of_mem prior)).2 intent prior
      exact ⟨named, .inr interrupted⟩
    · exact ⟨namesSession_intentOf _, .inl (by simp [matchesCurrent, intentOf, next])⟩
  have archived := (proposes.archived recovering recoverable).2
  cases proposes with
  | first empty supplies one starts stored => exact advanced one.symm
  | replacing row readable released supplies held one apart newer stored => exact advanced one.symm
  | advancing row readable supplies same permitted next => exact advanced next.symm
  | @reconciling current _ row readable ambiguous supplies asked held one fence settled =>
    obtain ⟨reading, asked⟩ := asked
    obtain ⟨two, older⟩ := recovering.reconciled reading _ _ asked died
    refine .inr fun intent prepared => ?_
    obtain prior | rfl := prepares intent prepared
    · rw [settled] at prior
      cases prior
    · refine ⟨namesSession_intentOf _, by simp [isInterruptedReconciliation, intentOf, held, one, two], ?_⟩
      have predecessor : current ∈ SessionStore.archive current s.store.history := by simp [SessionStore.archive]
      refine reconciliationHistory_archived two predecessor two archived fun old member level => ?_
      change old ∈ SessionStore.archive current s.store.history at member
      rw [SessionStore.archive, List.mem_append, List.mem_filter, List.mem_singleton] at member
      obtain ⟨archived, -⟩ | rfl := member
      · exact older old archived level
      · exact ambiguous

theorem Settleable.subset {db other : SessionStore} (settleable : Settleable project db current)
    (fewer : ∀ intent ∈ other.preparedIntents, intent ∈ db.preparedIntents) (same : other.history = db.history) :
    Settleable project other current := by
  obtain ⟨released, matching⟩ | reconciliations := settleable
  · exact .inl ⟨released, fun intent prepared => matching intent (fewer intent prepared)⟩
  · refine .inr fun intent prepared => ?_
    rw [reconciliationHistoryMatches, same]
    exact reconciliations intent (fewer intent prepared)

theorem Recoverable.settled {db : SessionStore} (recoverable : Recoverable project db) {chosen : SessionIntent → Bool}
    {outcome : IntentOutcome} (final : outcome ≠ .prepared) : Recoverable project { db with intents := db.settle chosen outcome } := by
  have fewer : ∀ intent ∈ ({ db with intents := db.settle chosen outcome } : SessionStore).preparedIntents,
      intent ∈ db.preparedIntents := by
    intro intent prepared
    rw [preparedIntents_settle final] at prepared
    exact List.mem_of_mem_filter prepared
  refine ⟨recoverable.numbered.settled, recoverable.finished, fun row => ⟨?_, (recoverable.empty row).2⟩, fun current row => ?_,
    recoverable.archived⟩
  · rw [preparedIntents_settle final, (recoverable.empty row).1]
    rfl
  · obtain ⟨readable, settleable⟩ := recoverable.current current row
    exact ⟨readable, settleable.subset fewer rfl⟩

theorem Recoverable.fenced {db : SessionStore} (recoverable : Recoverable project db) (row : db.row = some current)
    (alive : live current.status = true) (other : db.preparedIntents.all (isInterruptedReconciliation current) = false) :
    Recoverable project { db with row := some current.fenced } := by
  obtain ⟨readable, settleable⟩ := recoverable.current current row
  refine ⟨recoverable.numbered, recoverable.finished, nofun, ?_, fun old archived => ?_⟩
  · rintro _ ⟨⟩
    refine ⟨⟨readable.valid, readable.bound⟩, .inl ⟨nofun, fun intent prepared => ?_⟩⟩
    obtain ⟨-, matching⟩ | reconciliations := settleable
    · obtain ⟨named, matching⟩ := matching intent prepared
      refine ⟨named, .inr ?_⟩
      obtain matching | interrupted := matching
      · exact interrupted_of_current matching alive rfl rfl
      · simp only [matchesInterruptedRecovery, Bool.and_eq_true, beq_iff_eq] at interrupted
        simp [interrupted.1.1.1, live] at alive
    · have all := List.all_eq_true.mpr fun intent prepared => (reconciliations intent prepared).2.1
      exact absurd all (Bool.eq_false_iff.mp other)
  · obtain ⟨older, follows⟩ := recoverable.archived old archived
    refine ⟨older, ?_⟩
    rintro _ ⟨⟩
    exact follows current row

theorem Recoverable.fenced_settled {db : SessionStore} (recoverable : Recoverable project db) (row : db.row = some current)
    {outcome : IntentOutcome} (final : outcome ≠ .prepared) :
    Recoverable project { db with row := some current.fenced, intents := db.settle (fun _ => true) outcome } := by
  have readable := (recoverable.current current row).1
  refine ⟨recoverable.numbered.settled, recoverable.finished, nofun, ?_, fun old archived => ?_⟩
  · rintro _ ⟨⟩
    refine ⟨⟨readable.valid, readable.bound⟩, .inr fun intent prepared => ?_⟩
    rw [preparedIntents_settle_all final] at prepared
    cases prepared
  · obtain ⟨older, follows⟩ := recoverable.archived old archived
    refine ⟨older, ?_⟩
    rintro _ ⟨⟩
    exact follows current row

/-- An effect that is finished was prepared. -/
theorem Recoverable.not_finished {db : SessionStore} (recoverable : Recoverable project db) {intent : AuthorityEffectIntent}
    {outcome : EffectOutcome} {receipt : Dict} {next : BarrierSessionState}
    (admitted : admitFinish project db intent outcome receipt = .ok (after, next)) : False := by
  obtain ⟨_, -, -, -, -, -, one, -⟩ := admitFinish_ok admitted
  rw [recoverable.finished] at one
  cases one

/-- What the death of a process between two commits leaves. -/
theorem Write.recoverable (recovering : Recovering s call) (recoverable : Recoverable project s.store) (died : call.died = some 1)
    (write : Write project call.fates call.operation s.store s.store after) : Recoverable project after := by
  cases write with
  | proposed proposes => exact recoverable.cut_proposed recovering died proposes
  | settled chosen final => exact recoverable.settled final
  | fenced raised proposes durable fence => exact absurd (recovering.done _) raised
  | fencedAll raised fence =>
    obtain ⟨site, raised⟩ := raised
    exact absurd (recovering.done site) raised
  | recovered asked row alive other => exact recoverable.fenced row alive other
  | recoveredEffects asked row named unresolved => exact absurd recoverable.finished unresolved
  | prepared asked admitted => exact absurd asked (recovering.listed _)
  | finished asked admitted => exact (recoverable.not_finished admitted).elim

theorem Replied.recoverable {reply : Reply} (recovering : Recovering s call) (recoverable : Recoverable project s.store)
    (replied : Replied project call.operation s.store reply after) : Recoverable project after := by
  cases replied with
  | read asked => exact recoverable
  | proposed proposes final => exact recoverable.published recovering proposes final
  | settled asked row final => exact recoverable.settled final
  | recovered asked row alive final => exact recoverable.fenced_settled row final
  | recoveredEffects asked row named unresolved => exact absurd recoverable.finished unresolved
  | prepared asked admitted => exact absurd asked (recovering.listed _)
  | finished asked admitted => exact (recoverable.not_finished admitted).elim

theorem Recoverable.step (seen : Seen s) {event : Event} (recovered : Recovered s event) (recoverable : Recoverable project s.store) :
    Recoverable project (step project s event).store := by
  cases event with
  | look pid =>
    rw [BarrierSession.step, look_store]
    exact recoverable
  | call call =>
    have coherent := seen.coherent call.pid
    have atomic : Atomic (s.program project call) := perform_atomic recovered.done recoverable.numbered coherent
    obtain same | ⟨write, died⟩ | ⟨value, returned⟩ := atomic.left_cases (seen.writes project call) call.died
    · rw [BarrierSession.step, same]
      exact recoverable
    · exact write.recoverable recovered recoverable died
    · exact (perform_returns coherent returned).recoverable recovered recoverable

end runs

theorem sampleIdentity_valid : (sampleIdentity "attempt-1" 1).valid = true := by decide +kernel

/-- The session is created by a process that dies before it publishes the outcome. -/
def sampleCutCreate : Call where
  pid := 0
  operation := .create .notConfigured (sampleIdentity "attempt-1" 1)
  died := some 1

theorem sampleCutCreate_recovering : Recovering .empty sampleCutCreate where
  done _ := rfl
  listed _ := Operation.noConfusion
  valid := by
    rintro _ ⟨⟩ _
    exact sampleIdentity_valid
  released releases := absurd releases Bool.false_ne_true
  reconciled _ _ _ := Operation.noConfusion
  fences := fun prepared => absurd rfl prepared
  rests := List.forall_mem_nil _

end Coordinator.BarrierSession
