import Coordinator.SessionStore

/-! What one commit of the session store can do. Every operation is judged once, here; invariants of
the store are read off the kinds of commit. -/

namespace Coordinator.BarrierSession
open Kit Kit.Durable

/-- The typed transitions of the contract. -/
inductive Transition
  | bindChild (child : BarrierChildIdentity)
  | beginReopen (target : String) (evidence : Option Dict)
  | completeReopen (evidence : Option Dict)
  | markAmbiguous (causeCode : String)

def Transition.apply (current : BarrierSessionState) (expectedRevision : Nat) : Transition → Outcome BarrierSessionState
  | .bindChild child => BarrierSessionContract.bindChild current expectedRevision child
  | .beginReopen target evidence => BarrierSessionContract.beginReopen current expectedRevision target evidence
  | .completeReopen evidence => BarrierSessionContract.completeReopen current expectedRevision evidence
  | .markAmbiguous causeCode => BarrierSessionContract.markAmbiguous current expectedRevision causeCode

inductive Operation
  | create (reading : Reading) (identity : BarrierSessionIdentity)
  | provisionReleased (identity : BarrierSessionIdentity)
  | cas (reading : Reading) (expectedRevision : Nat) (state : BarrierSessionState)
  | casHeld (reading : Reading) (expectedIdentity : BarrierSessionIdentity) (expectedRevision : Nat) (state : BarrierSessionState)
  | transition (reading : Reading) (expectedRevision : Nat) (transition : Transition)
  | recoverUnknown
  | reconcileAmbiguous (reading : Reading) (expectedRevision : Nat) (replacement : BarrierSessionState)
  | prepareEffect (request : EffectRequest)
  | finishEffect (intent : AuthorityEffectIntent) (outcome : EffectOutcome) (receipt : Dict)

inductive Reply
  | session (state : Option BarrierSessionState)
  | effect (intent : AuthorityEffectIntent)
  deriving DecidableEq

def Reply.ofState (state : BarrierSessionState) : Reply := .session (some state)

section perform

variable (project : String) (fates : Site → Fate) (view : Option BarrierSessionState) (db : SessionStore)

/-- A typed transition by the process that read the view. -/
def performTransition (reading : Reading) (expectedRevision : Nat) : Transition → Program BarrierSessionState
  | .bindChild child => bindChild fates project db view reading expectedRevision child
  | .beginReopen target evidence => beginReopen fates project db view reading expectedRevision target evidence
  | .completeReopen evidence => completeReopen fates project db view reading expectedRevision evidence
  | .markAmbiguous causeCode => markAmbiguous fates project db view reading expectedRevision causeCode

def perform : Operation → Program Reply
  | .create reading identity => Reply.ofState <$> create fates project db reading identity
  | .provisionReleased identity => Reply.ofState <$> provisionReleased fates project db identity
  | .cas reading expected state => Reply.ofState <$> cas fates project db reading expected state
  | .casHeld reading identity expected state => Reply.ofState <$> casHeld fates project db reading identity expected state
  | .transition reading expected transition => Reply.ofState <$> performTransition project fates view db reading expected transition
  | .recoverUnknown => Reply.session <$> recoverUnknown fates project db
  | .reconcileAmbiguous reading expected replacement =>
      Reply.ofState <$> reconcileAmbiguous fates project db reading expected replacement
  | .prepareEffect request => Reply.effect <$> prepareAuthorityEffect fates project db request
  | .finishEffect intent outcome receipt => Reply.ofState <$> finishAuthorityEffect fates project db intent outcome receipt

theorem performTransition_eq (reading : Reading) (expectedRevision : Nat) (transition : Transition) :
    performTransition project fates view db reading expectedRevision transition =
      typed fates project db view reading expectedRevision (fun current => transition.apply current expectedRevision) := by
  cases transition <;> rfl

end perform

/-- A row that decodes. -/
structure Readable (project : String) (row : BarrierSessionState) : Prop where
  valid : row.identity.valid = true
  bound : row.identity.projectId = project

section readings

variable {project : String} {db : SessionStore} {row current : BarrierSessionState}

theorem readRow_eq_ok : readRow project row = .ok current ↔ Readable project row ∧ row = current := by
  simp only [readRow, bind_eq_ok, exists_unit, refuseIf_eq_ok, pure_eq_ok, Bool.not_eq_false', bne_eq_false_iff_eq]
  constructor
  · rintro ⟨valid, bound, same⟩
    exact ⟨⟨valid, bound⟩, same⟩
  · rintro ⟨⟨valid, bound⟩, same⟩
    exact ⟨valid, bound, same⟩

theorem snapshotLocked_eq_ok {found : Option BarrierSessionState} :
    snapshotLocked project db = .ok found ↔ db.row = found ∧ ∀ row, found = some row → Readable project row := by
  unfold snapshotLocked
  cases held : db.row with
  | none =>
    simp only [Except.ok.injEq]
    constructor
    · rintro rfl
      exact ⟨rfl, fun row missing => absurd missing (Option.some_ne_none row).symm⟩
    · exact fun both => both.1
  | some row =>
    change (readRow project row).map some = .ok found ↔ _
    constructor
    · intro read
      cases decoded : readRow project row with
      | error fault =>
        rw [decoded] at read
        cases read
      | ok current =>
        obtain ⟨readable, rfl⟩ := readRow_eq_ok.mp decoded
        rw [decoded] at read
        cases read
        refine ⟨rfl, fun other same => ?_⟩
        cases same
        exact readable
    · rintro ⟨rfl, readable⟩
      rw [readRow_eq_ok.mpr ⟨readable row rfl, rfl⟩]
      rfl

theorem currentSession_eq_ok {missing : String} :
    currentSession project db missing = .ok current ↔ db.row = some current ∧ Readable project current := by
  simp only [currentSession, bind_eq_ok, orRaise_eq_ok, snapshotLocked_eq_ok]
  constructor
  · rintro ⟨found, ⟨held, readable⟩, rfl⟩
    exact ⟨held, readable current rfl⟩
  · rintro ⟨held, readable⟩
    refine ⟨some current, ⟨held, fun row same => ?_⟩, rfl⟩
    cases same
    exact readable

end readings

/-- One step of a session that leaves what is bound alone. -/
structure Keeps (current next : BarrierSessionState) : Prop where
  identity : next.identity = current.identity
  revision : next.revision = current.revision + 1
  permitted : next.status ∈ statusTransitions current.status
  children : ∀ target child, current.childFor target = some child → next.childFor target = some child

theorem Transition.keeps {transition : Transition} {current next : BarrierSessionState} {expectedRevision : Nat}
    (applied : transition.apply current expectedRevision = .ok next) :
    expectedRevision = current.revision ∧ Keeps current next := by
  cases transition with
  | bindChild child =>
    obtain ⟨expected, held, ⟨-, free, made⟩ | ⟨-, -, free, made⟩⟩ := BarrierSessionContract.bindChild_ok applied
    all_goals
      refine ⟨expected, by rw [made], by rw [made], by simp [made, held, statusTransitions], fun target bound found => ?_⟩
      rw [made]
      cases target <;> simp_all [SessionFields.childFor]
  | beginReopen target evidence =>
    obtain ⟨expected, held, _, _, -, -, made⟩ := BarrierSessionContract.beginReopen_ok applied
    refine ⟨expected, by rw [made], by rw [made], by simp [made, held, statusTransitions], fun target bound found => ?_⟩
    rw [made]
    cases target <;> exact found
  | completeReopen evidence =>
    obtain ⟨expected, releasing, -, made⟩ := BarrierSessionContract.completeReopen_ok applied
    refine ⟨expected, by rw [made], by rw [made], by simp [made, releasing, statusTransitions], fun target bound found => ?_⟩
    rw [made]
    cases target <;> exact found
  | markAmbiguous causeCode =>
    obtain ⟨expected, alive, made⟩ := BarrierSessionContract.markAmbiguous_ok applied
    refine ⟨expected, by rw [made], by rw [made], ?_, fun target bound found => ?_⟩
    · obtain held | releasing := alive
      · simp [made, held, statusTransitions]
      · simp [made, releasing, statusTransitions]
    · rw [made]
      cases target <;> exact found

/-- What an operation puts into the row, which may be empty. -/
def Supplies (operation : Operation) (found : Option BarrierSessionState) (supplied : BarrierSessionState) : Prop :=
  match operation, found with
  | .create _ identity, _ => supplied = initialState identity .held
  | .provisionReleased identity, none => supplied = initialState identity .released
  | .cas _ _ state, _ => supplied = state
  | .casHeld _ _ _ state, some _ => supplied = state
  | .transition _ expected transition, some current => transition.apply current expected = .ok supplied
  | .reconcileAmbiguous _ _ replacement, some current =>
      supplied = replacement ∧ freshFence current.identity replacement.identity = true
  | _, _ => False

/-- The session that an operation supplies in the place of one that has ended. -/
def Operation.replacement : Operation → Option BarrierSessionState
  | .create _ identity => some (initialState identity .held)
  | .cas _ 0 state => some state
  | .reconcileAmbiguous _ _ replacement => some replacement
  | _ => none

/-- The session that an operation opens. -/
def Operation.opened : Operation → Option BarrierSessionState
  | .provisionReleased identity => some (initialState identity .released)
  | operation => operation.replacement

/-- How the row of a store comes to be what an operation supplies: the history that goes with it and the revision that
its intent expects. -/
inductive Proposes (project : String) (operation : Operation) (db : SessionStore) :
    List BarrierSessionState → Nat → BarrierSessionState → Prop
  | first {supplied} (empty : db.row = none) (supplies : Supplies operation none supplied) (one : supplied.revision = 1)
      (starts : supplied.status = .held ∨ supplied.status = .released ∧ ∃ identity, operation = .provisionReleased identity)
      (stored : supplied.identity.storable = true) (asked : operation.opened = some supplied)
      (bound : supplied.identity.projectId = project) : Proposes project operation db db.history 0 supplied
  | replacing {current supplied} (row : db.row = some current) (readable : Readable project current)
      (released : current.status = .released) (supplies : Supplies operation (some current) supplied)
      (held : supplied.status = .held) (one : supplied.revision = 1)
      (apart : supplied.identity.attemptId ≠ current.identity.attemptId)
      (newer : current.identity.stateRevision < supplied.identity.stateRevision)
      (stored : supplied.identity.storable = true) (asked : operation.replacement = some supplied)
      (bound : supplied.identity.projectId = project) :
      Proposes project operation db (SessionStore.archive current db.history) 0 supplied
  | advancing {current supplied} (row : db.row = some current) (readable : Readable project current)
      (supplies : Supplies operation (some current) supplied) (same : supplied.identity = current.identity)
      (permitted : supplied.status ∈ statusTransitions current.status) (next : supplied.revision = current.revision + 1) :
      Proposes project operation db db.history current.revision supplied
  | reconciling {current supplied} (row : db.row = some current) (readable : Readable project current)
      (ambiguous : current.status = .ambiguous) (supplies : Supplies operation (some current) supplied)
      (asked : ∃ reading, operation = .reconcileAmbiguous reading current.revision supplied)
      (held : supplied.status = .held) (one : supplied.revision = 1) (fence : freshFence current.identity supplied.identity = true)
      (settled : db.preparedIntents = []) (finished : db.preparedEffects = []) (stored : supplied.identity.storable = true)
      (bound : supplied.identity.projectId = project) :
      Proposes project operation db (SessionStore.archive current db.history) current.revision supplied

/-- The commits of one operation on a store. Those that fence a commit that raised happen only where one did. -/
inductive Write (project : String) (fates : Site → Fate) (operation : Operation) (db : SessionStore) :
    SessionStore → SessionStore → Prop
  | proposed {history expected supplied} (proposes : Proposes project operation db history expected supplied) :
      Write project fates operation db db (propose db history expected supplied)
  | settled {before} (chosen : SessionIntent → Bool) {outcome : IntentOutcome} (final : outcome ≠ .prepared) :
      Write project fates operation db before { before with intents := before.settle chosen outcome }
  | fenced {before after history expected supplied} (raised : fates .session ≠ .done)
      (proposes : Proposes project operation db history expected supplied)
      (durable : fates .session = .lost ∧ before = db ∨ fates .session = .kept ∧ before = propose db history expected supplied)
      (fence : fenceSession project before supplied expected = .ok after) : Write project fates operation db before after
  | fencedAll {before after} (raised : ∃ site, fates site ≠ .done) (fence : fenceRecovery project before = .ok after) :
      Write project fates operation db before after
  | recovered {current} (asked : operation = .recoverUnknown) (row : db.row = some current) (alive : live current.status = true)
      (other : db.preparedIntents.all (isInterruptedReconciliation current) = false) :
      Write project fates operation db db { db with row := some current.fenced }
  | recoveredEffects {current} (asked : operation = .recoverUnknown) (row : db.row = some current)
      (named : ∀ row ∈ db.preparedEffects, effectNamesSession current row.intent = true) (unresolved : db.preparedEffects ≠ []) :
      Write project fates operation db db { db with
        row := some (if current.status = .held then current.fenced else current)
        effects := db.settleEffects (fun _ => true) .ambiguous }
  | prepared {request after intent} (asked : operation = .prepareEffect request)
      (admitted : admitEffect project db request = .ok (after, intent)) : Write project fates operation db db after
  | finished {intent outcome receipt after next} (asked : operation = .finishEffect intent outcome receipt)
      (admitted : admitFinish project db intent outcome receipt = .ok (after, next)) : Write project fates operation db db after

section writes

variable {project : String} {fates : Site → Fate} {operation : Operation} {db before : SessionStore}
  {expected : Nat} {supplied : BarrierSessionState}

theorem markRecovery_writes {α : Type} (raised : ∃ site, fates site ≠ .done) (fault : Fault) (before : SessionStore) :
    Writes (Write project fates operation db) before
      (markRecoveryAmbiguousAfterCommitFailure fates project fault before : Program α) := by
  unfold markRecoveryAmbiguousAfterCommitFailure
  split
  · exact Writes.fail _
  · next after fence =>
      exact .commit (.fencedAll raised fence) (Writes.fail _) (fun _ => Writes.fail _) fun _ => Writes.fail _

theorem markAmbiguous_writes {α : Type} {history : List BarrierSessionState} (raised : fates .session ≠ .done)
    (proposes : Proposes project operation db history expected supplied)
    (durable : fates .session = .lost ∧ before = db ∨ fates .session = .kept ∧ before = propose db history expected supplied) :
    Writes (Write project fates operation db) before
      (markAmbiguousAfterCommitFailure fates project supplied expected before : Program α) := by
  unfold markAmbiguousAfterCommitFailure
  split
  · exact Writes.fail _
  · next after fence =>
      exact .commit (.fenced raised proposes durable fence) (Writes.fail _) (fun _ => Writes.fail _) fun _ => Writes.fail _

theorem raised_of_kept {site : Site} (kept : fates site = .kept) : fates site ≠ .done := by
  rw [kept]
  nofun

theorem raised_of_lost {site : Site} (lost : fates site = .lost) : fates site ≠ .done := by
  rw [lost]
  nofun

theorem settledCommit_writes {α : Type} (chosen : SessionIntent → Bool) {outcome : IntentOutcome} (final : outcome ≠ .prepared)
    (fault : Fault) (result : α) :
    Writes (Write project fates operation db) before
      (Durable.commit (fates .publication) before { before with intents := before.settle chosen outcome }
        (fun durable => markRecoveryAmbiguousAfterCommitFailure fates project fault durable) (pure result)) :=
  .commit (.settled chosen final) (Writes.pure _) (fun kept => markRecovery_writes ⟨_, raised_of_kept kept⟩ _ _)
    fun lost => markRecovery_writes ⟨_, raised_of_lost lost⟩ _ _

theorem publish_writes {α : Type} (intentId : Nat) {outcome : IntentOutcome} (final : outcome ≠ .prepared) (fault : Fault)
    (result : α) :
    Writes (Write project fates operation db) before (publish fates project intentId outcome fault result before) := by
  unfold publish
  split
  · exact Writes.fail _
  · next published marked =>
      simp only [markIntent, bind_eq_ok, exists_unit, refuseIf_eq_ok, pure_eq_ok] at marked
      obtain ⟨-, rfl⟩ := marked
      exact settledCommit_writes _ final fault result

/-- The commit of a proposed session, with the handler of its failure. -/
theorem proposed_writes {α : Type} {history : List BarrierSessionState} {next : Program α}
    (proposes : Proposes project operation db history expected supplied)
    (continued : Writes (Write project fates operation db) (propose db history expected supplied) next) :
    Writes (Write project fates operation db) db
      (Durable.commit (fates .session) db (propose db history expected supplied)
        (fun durable => markAmbiguousAfterCommitFailure fates project supplied expected durable) next) :=
  .commit (.proposed proposes) continued
    (fun kept => markAmbiguous_writes (raised_of_kept kept) proposes (.inr ⟨kept, rfl⟩))
    fun lost => markAmbiguous_writes (raised_of_lost lost) proposes (.inl ⟨lost, rfl⟩)

/-- The session that a compare and swap is given is the one that its operation supplies. -/
structure Offers (project : String) (operation : Operation) (db : SessionStore) (expected : Nat) (supplied : BarrierSessionState)
    (initial : Bool) : Prop where
  supplies : Supplies operation db.row supplied
  bound : supplied.identity.projectId = project
  provisioned : initial = true → ∃ identity, operation = .provisionReleased identity
  opens : expected = 0 → operation.opened = some supplied
  renews : expected = 0 → db.row ≠ none → operation.replacement = some supplied

theorem admitCas_proposes {initial : Bool} {after : SessionStore} (offers : Offers project operation db expected supplied initial)
    (admitted : admitCas project db expected supplied initial = .ok after) :
    ∃ history, Proposes project operation db history expected supplied ∧ after = propose db history expected supplied := by
  obtain ⟨supplies, bound, provisioned, opens, renews⟩ := offers
  unfold admitCas at admitted
  cases found : db.row with
  | none =>
    rw [found] at supplies
    simp only [found, bind_eq_ok, exists_unit, refuseIf_eq_ok, raiseIf_eq_ok, pure_eq_ok, bne_eq_false_iff_eq,
      Bool.not_eq_false'] at admitted
    obtain ⟨rfl, starts, one, stored, rfl⟩ := admitted
    refine ⟨db.history, .first found supplies one ?_ stored (opens rfl) bound, rfl⟩
    cases status : supplied.status with
    | held => exact .inl rfl
    | released =>
      simp only [status, bne, beq_self_eq_true, Bool.and_true, Bool.and_eq_false_iff, Bool.not_eq_false'] at starts
      exact .inr ⟨rfl, provisioned (starts.resolve_left (by simp))⟩
    | releasing => simp [status, bne] at starts
    | ambiguous => simp [status, bne] at starts
  | some row =>
    rw [found] at supplies
    simp only [found, bind_eq_ok, readRow_eq_ok] at admitted
    obtain ⟨_, ⟨readable, rfl⟩, admitted⟩ := admitted
    split at admitted
    · next replaces =>
      simp only [replacesReleased, Bool.and_eq_true, beq_iff_eq, bne_iff_ne] at replaces
      obtain ⟨⟨⟨rfl, released⟩, held⟩, -⟩ := replaces
      simp only [bind_eq_ok, exists_unit, refuseIf_eq_ok, raiseIf_eq_ok, pure_eq_ok, bne_eq_false_iff_eq, Bool.not_eq_false',
        Bool.or_eq_false_iff, beq_eq_false_iff_ne, decide_eq_false_iff_not, not_le] at admitted
      obtain ⟨⟨apart, newer⟩, one, stored, rfl⟩ := admitted
      exact ⟨_, .replacing found readable released supplies held one apart newer stored (renews rfl (by simp [found])) bound, rfl⟩
    · simp only [bind_eq_ok, exists_unit, refuseIf_eq_ok, pure_eq_ok, bne_eq_false_iff_eq, Bool.not_eq_false',
        List.contains_iff_mem] at admitted
      obtain ⟨rfl, same, permitted, next, rfl⟩ := admitted
      exact ⟨_, .advancing found readable supplies same permitted next, rfl⟩

/-- A session that is not the first nor a replacement advances the row. -/
theorem admitCas_advances {initial : Bool} {after : SessionStore} (later : expected ≠ 0)
    (admitted : admitCas project db expected supplied initial = .ok after) :
    ∃ current, db.row = some current ∧ current.revision = expected ∧ supplied.identity = current.identity := by
  unfold admitCas at admitted
  cases found : db.row with
  | none =>
    simp only [found, bind_eq_ok, exists_unit, refuseIf_eq_ok, bne_eq_false_iff_eq] at admitted
    exact absurd admitted.1 later
  | some row =>
    simp only [found, bind_eq_ok, readRow_eq_ok] at admitted
    obtain ⟨_, ⟨-, rfl⟩, admitted⟩ := admitted
    split at admitted
    · next replaces =>
      simp only [replacesReleased, Bool.and_eq_true, beq_iff_eq] at replaces
      exact absurd replaces.1.1.1 later
    · simp only [bind_eq_ok, exists_unit, refuseIf_eq_ok, bne_eq_false_iff_eq] at admitted
      exact ⟨row, rfl, admitted.1, admitted.2.1⟩

theorem casLocked_writes {initial : Bool}
    (offers : ∀ after, admitCas project db expected supplied initial = .ok after → Offers project operation db expected supplied initial) :
    Writes (Write project fates operation db) db (casLocked fates project db expected supplied initial) := by
  refine .lift_bind fun after admitted => ?_
  obtain ⟨history, proposes, rfl⟩ := admitCas_proposes (offers after admitted) admitted
  exact proposed_writes proposes (publish_writes _ (by decide) _ _)

theorem cas_bound {identity : BarrierSessionIdentity} {u : Unit}
    (passed : refuseIf (identity.projectId != project) "barrier session project binding mismatch" = .ok u) :
    identity.projectId = project := by
  rwa [refuseIf_eq_ok, bne_eq_false_iff_eq] at passed

theorem cas_writes {reading : Reading}
    (offers : supplied.identity.projectId = project →
      ∀ after, admitCas project db expected supplied false = .ok after → Offers project operation db expected supplied false) :
    Writes (Write project fates operation db) db (cas fates project db reading expected supplied) :=
  .lift_bind fun _ bound => .lift_bind fun _ _ => .lift_bind fun _ _ => casLocked_writes (offers (cas_bound bound))

theorem create_offers (reading : Reading) (identity : BarrierSessionIdentity) (bound : identity.projectId = project) :
    Offers project (.create reading identity) db 0 (initialState identity .held) false :=
  ⟨by cases db.row <;> rfl, bound, nofun, fun _ => rfl, fun _ _ => rfl⟩

theorem cas_offers (reading : Reading) (bound : supplied.identity.projectId = project) :
    Offers project (.cas reading expected supplied) db expected supplied false := by
  refine ⟨by cases db.row <;> rfl, bound, nofun, ?_, ?_⟩
  · rintro rfl
    rfl
  · rintro rfl _
    rfl

/-- A view that was read of the session in the row, at its revision, is the row. -/
def Coherent (view : Option BarrierSessionState) (db : SessionStore) : Prop :=
  ∀ seen current, view = some seen → db.row = some current → seen.identity = current.identity →
    seen.revision = current.revision → seen = current

/-- What a typed transition makes of a view is what it makes of the row, where that is admitted. -/
theorem typed_offers {seen next : BarrierSessionState} {reading : Reading} {transition : Transition} (coherent : Coherent (some seen) db)
    (applied : transition.apply seen expected = .ok next) (bound : next.identity.projectId = project) {after : SessionStore}
    (admitted : admitCas project db expected next false = .ok after) :
    Offers project (.transition reading expected transition) db expected next false := by
  obtain ⟨rfl, keeps⟩ := transition.keeps applied
  have later : seen.revision ≠ 0 := Nat.ne_of_gt seen.revision_pos
  obtain ⟨current, found, same, named⟩ := admitCas_advances later admitted
  obtain rfl := coherent seen current rfl found (keeps.identity.symm.trans named) same.symm
  exact ⟨by rw [found]; exact applied, bound, nofun, fun first => absurd first later, fun first => absurd first later⟩

theorem typed_writes {view : Option BarrierSessionState} {reading : Reading} {transition : Transition} (coherent : Coherent view db) :
    Writes (Write project fates (.transition reading expected transition) db) db
      (typed fates project db view reading expected (fun current => transition.apply current expected)) := by
  refine .lift_bind fun seen viewed => .lift_bind fun next applied => cas_writes fun bound after admitted => ?_
  cases orRaise_eq_ok.mp viewed
  exact typed_offers coherent applied bound admitted

theorem provisionReleased_offers {identity : BarrierSessionIdentity} (row : db.row = none) (bound : identity.projectId = project) :
    Offers project (.provisionReleased identity) db 0 (initialState identity .released) true :=
  ⟨by rw [row]; rfl, bound, fun _ => ⟨identity, rfl⟩, fun _ => rfl, fun _ found => absurd row found⟩

theorem provisionReleased_writes (identity : BarrierSessionIdentity) :
    Writes (Write project fates (.provisionReleased identity) db) db (provisionReleased fates project db identity) := by
  refine .lift_bind fun _ bound => .lift_bind fun found read => ?_
  obtain ⟨row, -⟩ := snapshotLocked_eq_ok.mp read
  cases found with
  | some current => exact Trace.Meets.ite (fun _ => Writes.pure _) fun _ => Writes.fail _
  | none => exact casLocked_writes fun _ _ => provisionReleased_offers row (cas_bound bound)

theorem casHeld_offers {reading : Reading} {identity : BarrierSessionIdentity} {current : BarrierSessionState} {u : Unit}
    (named : refuseIf (supplied.identity != identity || !live supplied.status) "barrier session write identity is invalid" = .ok u)
    (rechecked : recheckHeldLocked project db reading identity expected = .ok current) :
    Offers project (.casHeld reading identity expected supplied) db expected supplied false := by
  simp only [recheckHeldLocked, bind_eq_ok, exists_unit, currentSession_eq_ok, refuseIf_eq_ok, decide_eq_false_iff_not,
    bne_eq_false_iff_eq] at rechecked
  obtain ⟨later, found, ⟨row, readable⟩, -, same, -⟩ := rechecked
  rw [refuseIf_eq_ok, Bool.or_eq_false_iff, bne_eq_false_iff_eq] at named
  have bound : supplied.identity.projectId = project := by rw [named.1, ← same, readable.bound]
  have positive : expected ≠ 0 := fun first => later (first ▸ Nat.zero_lt_one)
  exact ⟨by rw [row]; rfl, bound, nofun, fun first => absurd first positive, fun first => absurd first positive⟩

theorem casHeld_writes {reading : Reading} {identity : BarrierSessionIdentity} :
    Writes (Write project fates (.casHeld reading identity expected supplied) db) db
      (casHeld fates project db reading identity expected supplied) :=
  .lift_bind fun _ named => .lift_bind fun _ rechecked => casLocked_writes fun _ _ => casHeld_offers named rechecked

theorem admitReconciliation_proposes {reading : Reading} {after : SessionStore}
    (admitted : admitReconciliation project db reading expected supplied = .ok after) :
    ∃ history, Proposes project (.reconcileAmbiguous reading expected supplied) db history expected supplied ∧
      after = propose db history expected supplied := by
  simp only [admitReconciliation, rejectIf, bind_eq_ok, exists_unit, raiseIf_eq_ok, snapshotLocked_eq_ok, orRaise_eq_ok,
    pure_eq_ok, Bool.or_eq_false_iff, bne_eq_false_iff_eq, Bool.not_eq_false', Option.filter_eq_some_iff, beq_iff_eq] at admitted
  obtain ⟨-, ⟨⟨held, one⟩, bound⟩, _, ⟨row, readable⟩, current, ⟨rfl, ambiguous⟩, rfl, fence, ⟨settled, finished⟩, -, stored, rfl⟩ := admitted
  exact ⟨_, .reconciling row (readable current rfl) ambiguous ⟨rfl, fence⟩ ⟨reading, rfl⟩ held one fence settled
    finished stored bound, rfl⟩

theorem reconcileAmbiguous_writes {reading : Reading} :
    Writes (Write project fates (.reconcileAmbiguous reading expected supplied) db) db
      (reconcileAmbiguous fates project db reading expected supplied) := by
  refine .lift_bind fun after admitted => ?_
  obtain ⟨history, proposes, rfl⟩ := admitReconciliation_proposes admitted
  refine proposed_writes proposes ?_
  split
  · exact Writes.fail _
  · next published marked =>
    simp only [markIntent, bind_eq_ok, exists_unit, refuseIf_eq_ok, pure_eq_ok] at marked
    obtain ⟨-, rfl⟩ := marked
    exact .commit (.settled _ (by decide)) (Writes.pure _) (fun _ => Writes.fail _) fun _ => Writes.fail _

theorem settlePrepared_writes {outcome : IntentOutcome} (final : outcome ≠ .prepared) (current : BarrierSessionState) :
    Writes (Write project fates operation db) before (settlePrepared fates project outcome current before) :=
  settledCommit_writes _ final _ _

theorem recoverPrepared_writes :
    Writes (Write project fates .recoverUnknown db) db (recoverPrepared fates project db) := by
  refine .lift_bind fun current found => Writes.lift_bind fun _ _ => Trace.Meets.ite (fun _ => ?_) fun other => ?_
  · exact Writes.lift_bind fun _ _ => settlePrepared_writes (by decide) current
  · refine Trace.Meets.ite (fun _ => settlePrepared_writes (by decide) current) fun _ => Writes.lift_bind fun _ passed => ?_
    have row := (currentSession_eq_ok.mp found).1
    have alive : live current.status = true := by simpa only [refuseIf_eq_ok, Bool.not_eq_false'] using passed
    exact .commit (.recovered rfl row alive (Bool.eq_false_iff.mpr other)) (settlePrepared_writes (by decide) _)
      (fun kept => markRecovery_writes ⟨_, raised_of_kept kept⟩ _ _) fun lost => markRecovery_writes ⟨_, raised_of_lost lost⟩ _ _

theorem recoverPreparedEffects_writes (unresolved : db.preparedEffects ≠ []) :
    Writes (Write project fates .recoverUnknown db) db (recoverPreparedEffects fates project db) := by
  refine .lift_bind fun current found => .lift_bind fun _ passed => ?_
  have row := (currentSession_eq_ok.mp found).1
  have named : ∀ row ∈ db.preparedEffects, effectNamesSession current row.intent = true := by
    simp only [refuseIf_eq_ok, Bool.not_eq_false', List.all_eq_true, Bool.and_eq_true] at passed
    exact fun row member => (passed row member).1
  exact .commit (.recoveredEffects rfl row named unresolved) (Writes.pure _)
    (fun kept => markRecovery_writes ⟨_, raised_of_kept kept⟩ _ _) fun lost => markRecovery_writes ⟨_, raised_of_lost lost⟩ _ _

theorem recoverUnknown_writes : Writes (Write project fates .recoverUnknown db) db (recoverUnknown fates project db) :=
  Trace.Meets.ite (fun unresolved => (recoverPreparedEffects_writes unresolved).map _) fun _ =>
    Trace.Meets.ite (fun _ => recoverPrepared_writes.map _) fun _ => Writes.lift _

/-- An effect is admitted by a held session without unresolved effects, under a new operation identity. -/
theorem admitEffect_ok {request : EffectRequest} {after : SessionStore} {intent : AuthorityEffectIntent}
    (admitted : admitEffect project db request = .ok (after, intent)) :
    ∃ current target, db.row = some current ∧ Readable project current ∧ current.status = .held ∧
      current.revision = request.expectedRevision ∧ db.preparedEffects = [] ∧
      (∀ row ∈ db.effects, row.intent.operationId ≠ request.operationId) ∧ Target.ofText? request.target = some target ∧
      intent = { intentId := db.effects.length, operationId := request.operationId, backend := request.backend, target,
                 attemptId := current.identity.attemptId, identityDigest := current.identity.identityDigest,
                 fencingToken := current.identity.fencingToken, sessionRevision := current.revision,
                 admission := request.admission } ∧
      after = { db with effects := db.effects ++ [⟨intent, .prepared⟩] } := by
  simp only [admitEffect, bind_eq_ok, exists_unit, refuseIf_eq_ok, orRaise_eq_ok, snapshotLocked_eq_ok, pure_eq_ok,
    Option.filter_eq_some_iff, beq_iff_eq, bne_eq_false_iff_eq, List.any_eq_false, Prod.mk.injEq] at admitted
  obtain ⟨-, -, -, target, named, -, -, -, -, _, ⟨row, readable⟩, current, ⟨rfl, held⟩, -, revision, -, -, settled, fresh, rfl, rfl⟩ :=
    admitted
  exact ⟨current, target, row, readable current rfl, held, revision, settled, fresh, named, rfl, rfl⟩

/-- An effect is finished under the held session at whose revision it was prepared. -/
theorem admitFinish_ok {intent : AuthorityEffectIntent} {outcome : EffectOutcome} {receipt : Dict} {after : SessionStore}
    {next : BarrierSessionState} (admitted : admitFinish project db intent outcome receipt = .ok (after, next)) :
    ∃ current, db.row = some current ∧ Readable project current ∧ effectIntentMatches current intent = true ∧
      outcome ≠ .prepared ∧ (outcome = .committed → intent.admission.artifact.isSome = true → receiptMatches intent receipt = true) ∧
      (db.preparedEffects.filter (·.intent.intentId == intent.intentId)).length = 1 ∧
      next = (if outcome = .ambiguous then current.fenced else current) ∧
      after = { db with row := some next, effects := db.settleEffects (·.intent.intentId == intent.intentId) outcome } := by
  simp only [admitFinish, bind_eq_ok, exists_unit, refuseIf_eq_ok, orRaise_eq_ok, snapshotLocked_eq_ok, pure_eq_ok,
    Option.filter_eq_some_iff, beq_eq_false_iff_ne, bne_eq_false_iff_eq, Prod.mk.injEq] at admitted
  obtain ⟨final, receipt_, _, ⟨row, readable⟩, current, ⟨rfl, matching⟩, one, rfl, rfl⟩ := admitted
  refine ⟨current, row, readable current rfl, matching, final, fun committed admission => ?_, one, rfl, rfl⟩
  simpa [committed, admission] using receipt_

/-- Every operation makes only the commits that are listed. -/
theorem perform_writes {view : Option BarrierSessionState} (coherent : Coherent view db) (operation : Operation) :
    Writes (Write project fates operation db) db (perform project fates view db operation) := by
  cases operation with
  | create reading identity => exact (cas_writes fun bound _ _ => create_offers reading identity bound).map _
  | provisionReleased identity => exact (provisionReleased_writes identity).map _
  | cas reading expected state => exact (cas_writes fun bound _ _ => cas_offers reading bound).map _
  | casHeld reading identity expected state => exact casHeld_writes.map _
  | transition reading expected transition =>
    rw [perform, performTransition_eq]
    exact (typed_writes coherent).map _
  | recoverUnknown => exact recoverUnknown_writes.map _
  | reconcileAmbiguous reading expected replacement => exact reconcileAmbiguous_writes.map _
  | prepareEffect request =>
    refine .map _ (.lift_bind fun (after, intent) admitted => ?_)
    exact .commit (.prepared rfl admitted) (Writes.pure _) (fun _ => Writes.fail _) fun _ => Writes.fail _
  | finishEffect intent outcome receipt =>
    refine .map _ (.lift_bind fun (after, next) admitted => ?_)
    exact .commit (.finished rfl admitted) (Writes.pure _)
      (fun kept => markRecovery_writes ⟨_, raised_of_kept kept⟩ _ _) fun lost => markRecovery_writes ⟨_, raised_of_lost lost⟩ _ _

end writes

end Coordinator.BarrierSession
