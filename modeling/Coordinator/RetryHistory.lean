import Coordinator.RetryReopening

/-! What a recovery ends stays ended as long as the bounded list of recoveries remembers it. -/

namespace Coordinator.RetryCircuit
open Kit Dict Transitions

section Typed

variable {K : Type} [DecidableEq K] {names : K ↪ Series} {task next : Meta} {c c' : Circuit K} {key : K} {event : Event}

theorem foldl_max_lt_iff {values : List Int} {bound : Int} : ∀ {first : Int},
    values.foldl max first < bound ↔ first < bound ∧ ∀ value ∈ values, value < bound := by
  intro first
  constructor
  · intro below
    exact ⟨lt_of_le_of_lt (le_foldl_max (Or.inl rfl)) below,
      fun value member => lt_of_le_of_lt (le_foldl_max (Or.inr member)) below⟩
  · rintro ⟨start, all⟩
    exact foldl_max_lt start all

theorem mem_active_iff {a : Attempt K} : a ∈ c.active key ↔
    a ∈ c.attempts ∧ a.key = key ∧ 0 < a.revision ∧ ∀ r ∈ c.recoveries, r.key = key → r.revision < a.revision := by
  rw [Circuit.active, List.mem_filter, Bool.and_eq_true, decide_eq_true_iff, decide_eq_true_iff,
    Circuit.recoveredRevision, foldl_max_lt_iff]
  refine and_congr_right fun _ => and_congr_right fun _ => and_congr_right fun _ => ⟨?_, ?_⟩
  · intro all r member same
    exact all r.revision (List.mem_map_of_mem (List.mem_filter.mpr ⟨member, decide_eq_true same⟩))
  · intro all value listed
    obtain ⟨r, member, rfl⟩ := List.mem_map.mp listed
    obtain ⟨inside, same⟩ := List.mem_filter.mp member
    exact all r inside (of_decide_eq_true same)

/-- The recovery that is pushed out of a full list is not missed: another one of its series is
listed later, or no attempt is left that it ended. -/
def Circuit.Remembers (c : Circuit K) (recovered : K) : Prop :=
  c.recoveries.length < maxRecoveries ∨ ∃ oldest rest, c.recoveries = oldest :: rest ∧
    ((∃ later ∈ rest, later.key = oldest.key) ∨ oldest.key = recovered ∨
      ∀ a ∈ c.attempts, a.key = oldest.key → oldest.revision < a.revision)

theorem active_recovered_subset (bounded : c.Bounded) {r : Recovery K} (older : ∀ other ∈ c.recoveries, other.revision < r.revision)
    (remembers : c.Remembers r.key) {a : Attempt K} (member : a ∈ (c.recovered r).active key) : a ∈ c.active key := by
  obtain ⟨listed, same, positive, after⟩ := mem_active_iff.mp member
  have after : ∀ other ∈ recent maxRecoveries (c.recoveries ++ [r]), other.key = key → other.revision < a.revision := after
  refine mem_active_iff.mpr ⟨listed, same, positive, ?_⟩
  rcases remembers with few | ⟨oldest, rest, recoveries, kept⟩
  · rw [recent_all (by rw [List.length_append, List.length_singleton]; omega)] at after
    exact fun other inside => after other (List.mem_append_left _ inside)
  · have count := bounded.recoveryCount
    have ordered := bounded.recoveryOrder
    rw [recoveries] at after count ordered older ⊢
    rw [List.length_cons] at count
    by_cases full : rest.length + 1 = maxRecoveries
    · have dropped : recent maxRecoveries (oldest :: rest ++ [r]) = rest ++ [r] := by
        have one : (oldest :: rest ++ [r]).length - maxRecoveries = 1 := by
          simp only [List.length_append, List.length_cons, List.length_nil]
          omega
        rw [recent, one]
        rfl
      rw [dropped] at after
      have sorted : ∀ later ∈ rest, oldest.revision < later.revision := by
        rw [List.isChain_iff_pairwise, List.map_cons, List.pairwise_cons, List.pairwise_cons] at ordered
        exact fun later inside => ordered.2.1 _ (List.mem_map_of_mem inside)
      intro other inside ofKey
      rcases List.mem_cons.mp inside with rfl | inside
      · rcases kept with ⟨later, laterMem, laterKey⟩ | recovered | ended
        · exact (sorted later laterMem).trans (after later (List.mem_append_left _ laterMem) (laterKey.trans ofKey))
        · have last := after r (List.mem_append_right _ (List.mem_singleton_self r)) (recovered ▸ ofKey)
          exact (older other (List.mem_cons_self)).trans last
        · exact ended a listed (same.trans ofKey.symm)
      · exact after other (List.mem_append_left _ inside) ofKey
    · have all : recent maxRecoveries (oldest :: rest ++ [r]) = oldest :: rest ++ [r] := by
        apply recent_all
        simp only [List.length_append, List.length_cons, List.length_nil]
        omega
      rw [all] at after
      exact fun other inside => after other (List.mem_append_left _ inside)

theorem Circuit.Shrinks.active (shrinks : c.Shrinks c') : c'.active key = c.active key := by
  rw [Circuit.active, Circuit.active, Circuit.recoveredRevision, Circuit.recoveredRevision, shrinks.attempts,
    shrinks.recoveries]

/-- The attempts that count after an operation counted before or are new. -/
theorem Accepted.active (tracked : Tracked names task c) (accepted : Accepted names task c event c')
    (remembers : ∀ (r : Recovery K) (reason : String), (names r.key).progress = progressDigest task →
      event.operation = .recover (names r.key).identity r.kind reason → c.Remembers r.key)
    {a : Attempt K} (member : a ∈ c'.active key) : a ∈ c.active key ∨ a.revision = Meta.revision task := by
  cases accepted with
  | other record at_ => exact Or.inl member
  | abandoned shrinks =>
    rw [shrinks.active] at member
    exact Or.inl member
  | @reserved slot _ progress revision result =>
    obtain ⟨-, -, -, rfl⟩ := reserve_eq_some result
    exact Or.inl member
  | @settled slot outcome at_ _ listed fits result =>
    rcases settle_eq_some result with ⟨-, -, rfl⟩ | ⟨-, -, -, rfl⟩ | ⟨attempt, rfl, -, -, rfl⟩
    · simp [Circuit.active] at member
    · exact Or.inl member
    · obtain ⟨inside, rest⟩ := mem_active_iff.mp member
      rcases mem_recent_append inside with old | rfl
      · exact Or.inl (mem_active_iff.mpr ⟨old, rest⟩)
      · exact Or.inr (fits a rfl).revision
  | @recovered recovery reason fits held _ =>
    refine Or.inl (active_recovered_subset tracked.intact.kept.bounded ?_ ?_ member)
    · rw [fits.revision]
      exact tracked.recoveries
    · exact remembers recovery reason fits.progress rfl

end Typed

/-- A recovery whose list is full drops nothing that is still needed: the recovery that goes is
listed again for its series, is of the series now recovered, or has no older attempt left. -/
def Remembers (task : Meta) (identity : String) : Prop :=
  let state := (circuit task).fields
  (state.get "recoveries").items.length < maxRecoveries ∨
    ∃ oldest rest, (state.get "recoveries").items = oldest :: rest ∧
      ((∃ later ∈ rest, sameSeries (oldest.get "identity").text (oldest.get "progress_digest").text later = true) ∨
        sameSeries identity (progressDigest task) oldest = true ∨
        ∀ attempt ∈ (state.get "attempts").items,
          sameSeries (oldest.get "identity").text (oldest.get "progress_digest").text attempt = true →
            revisionOf oldest < revisionOf attempt)

/-- Every accepted recovery remembers what recoveries before it ended. -/
def Event.Remembers (task : Meta) (event : Event) : Prop :=
  ∀ identity kind reason, event.operation = .recover identity kind reason →
    allowed (event.operation.effect task event.recordedAt) = true → RetryCircuit.Remembers task identity

section Runs

variable {K : Type} [DecidableEq K] {names : K ↪ Series} {task : Meta} {c : Circuit K}

theorem remembers_record (kept : Kept names task c) {key : K} (progress : (names key).progress = progressDigest task)
    (remembers : Remembers task (names key).identity) : c.Remembers key := by
  rcases kept with ⟨-, rfl⟩ | ⟨present, -⟩
  · exact Or.inl (Nat.zero_lt_succ _)
  · simp only [Remembers, present, Json.fields, Circuit.recoveries_record, Circuit.attempts_record, Json.items,
      List.length_map, ← progress] at remembers
    refine remembers.imp_right ?_
    rintro ⟨oldest, rest, recoveries, kept⟩
    obtain ⟨first, others, listed, rfl, rfl⟩ := List.map_eq_cons_iff.mp recoveries
    refine ⟨first, others, listed, ?_⟩
    rw [Recovery.identity_record, Recovery.progress_record] at kept
    simp only [Json.text, List.mem_map, exists_exists_and_eq_and, Recovery.sameSeries_record,
      forall_exists_index, and_imp, forall_apply_eq_imp_iff₂, Attempt.sameSeries_record, Recovery.revisionOf_record,
      Attempt.revisionOf_record] at kept
    exact kept

end Runs

/-- The attempts of a series that count are all past a revision. -/
def PastRevision (identity progress : String) (revision : Int) (task : Meta) : Prop :=
  ∀ attempt ∈ activeAttempts (circuit task).fields identity progress, revision < revisionOf attempt

theorem pastRevision_record {K : Type} [DecidableEq K] {names : K ↪ Series} {task : Meta} {c : Circuit K}
    (kept : Kept names task c) (key : K) (revision : Int) :
    PastRevision (names key).identity (names key).progress revision task ↔ ∀ a ∈ c.active key, revision < a.revision := by
  rcases kept with ⟨absent, rfl⟩ | ⟨present, -⟩
  · simp [PastRevision, absent, Json.fields, activeAttempts, Dict.get, Dict.find, Json.items, Circuit.active]
  · simp only [PastRevision, present, Json.fields, Circuit.activeAttempts_record, List.mem_map, forall_exists_index,
      and_imp, forall_apply_eq_imp_iff₂, Attempt.revisionOf_record]

theorem pastRevision_iff {task : Meta} {c : Circuit Series} (kept : Kept (.refl _) task c) (key : Series) (revision : Int) :
    PastRevision key.identity key.progress revision task ↔ ∀ a ∈ c.active key, revision < a.revision :=
  pastRevision_record kept key revision

/-- A step that remembers the recoveries counts no attempt again. -/
theorem step_pastRevision {task : Meta} {c : Circuit Series} (tracked : Tracked (.refl _) task c) {event : Event}
    (remembers : event.Remembers task) {key : Series} {revision : Int} (reached : revision < Meta.revision task)
    (past : PastRevision key.identity key.progress revision task) :
    PastRevision key.identity key.progress revision (step task event) := by
  by_cases accepted : allowed (event.operation.effect task event.recordedAt) = true
  swap
  · rw [step_of_refused accepted]
    exact past
  obtain ⟨c', stepped⟩ := step_accepted tracked event accepted
  rw [pastRevision_iff stepped.intact.kept]
  intro a member
  have remembered : ∀ (r : Recovery Series) (reason : String), r.key.progress = progressDigest task →
      event.operation = .recover r.key.identity r.kind reason → c.Remembers r.key := by
    intro r reason progress operation
    exact remembers_record tracked.intact.kept progress (remembers _ _ _ operation accepted)
  rcases stepped.accepted.active tracked remembered member with old | new
  · exact (pastRevision_iff tracked.intact.kept key revision).mp past a old
  · omega

/-- Right after a recovery its series counts nothing. -/
theorem recover_pastRevision {task : Meta} {c : Circuit Series} (tracked : Tracked (.refl _) task c)
    {identity kind reason at_ : String}
    (accepted : allowed (Operation.effect task at_ (.recover identity kind reason)) = true) :
    PastRevision identity (progressDigest task) (Meta.revision task) (step task ⟨.recover identity kind reason, at_⟩) := by
  obtain ⟨c', stepped⟩ := step_accepted tracked ⟨.recover identity kind reason, at_⟩ accepted
  have intact := stepped.intact
  cases stepped.accepted with
  | @recovered recovery _ fits held valid =>
    have afresh : (c.recovered recovery).active recovery.key = [] := by
      apply Circuit.active_recovered
      rw [fits.revision]
      exact tracked.attempts
    have past := (pastRevision_iff intact.kept recovery.key (Meta.revision task)).mpr (by simp [afresh])
    have progress : recovery.key.progress = progressDigest task := fits.progress
    rw [progress] at past
    exact past

/-- No attempt recorded before an accepted recovery counts again for its series, in any run whose
later recoveries remember the earlier ones. -/
theorem fresh_series_run {start : Meta} (fresh : Fresh start) (before after : List Event) {identity kind reason at_ : String}
    (accepted : allowed (Operation.effect (Run.final step start before) at_ (.recover identity kind reason)) = true)
    (remembers : Run.Along step (fun task event => event.Remembers task)
      (step (Run.final step start before) ⟨.recover identity kind reason, at_⟩) after) :
    PastRevision identity (progressDigest (Run.final step start before)) (Meta.revision (Run.final step start before))
      (Run.final step (Run.final step start before) (⟨.recover identity kind reason, at_⟩ :: after)) := by
  obtain ⟨c, tracked⟩ := run_tracked fresh before
  generalize Run.final step start before = task at tracked accepted remembers ⊢
  obtain ⟨next, done⟩ := allowed_iff.mp accepted
  obtain ⟨result, recovered, -⟩ := bind_eq_ok.mp done
  obtain ⟨recovery, rfl, -⟩ := recover_inputs tracked.intact.kept recovered
  let key : Series := seriesOf task recovery.key.identity recovery.key.named
  let Invariant (reached : Meta) : Prop := (∃ c, Tracked (.refl _) reached c) ∧
    Meta.revision task < Meta.revision reached ∧ PastRevision key.identity key.progress (Meta.revision task) reached
  have keeps : ∀ (reached : Meta) (event : Event), Invariant reached → event.Remembers reached →
      Invariant (step reached event) := by
    rintro reached event ⟨⟨c, tracked⟩, later, past⟩ remembers
    refine ⟨?_, ?_, step_pastRevision tracked remembers later past⟩
    · exact step_tracked tracked event
    · exact lt_of_lt_of_le later (step_revision_le tracked event)
  obtain ⟨c', stepped⟩ := step_accepted tracked ⟨.recover recovery.key.identity kind reason, at_⟩ accepted
  have first : Invariant (step task ⟨.recover recovery.key.identity kind reason, at_⟩) := by
    refine ⟨⟨c', tracked.stepped stepped⟩, ?_, recover_pastRevision tracked accepted⟩
    rw [stepped.revision_next]
    omega
  exact (Run.invariant step keeps after _ first remembers).2.2

def twice (key : Fin 64) : List (Act (Fin 64)) := [.reserve key window3, .fail key, .reserve key window3, .fail key]

/-- Twenty-nine series fail twice each, and then one fails to the end of its window. -/
def lostBefore : List (Act (Fin 64)) := (List.range 29).flatMap (fun i => twice (Fin.ofNat 64 (i + 1))) ++ exhausted 0

/-- Each of them fails once more and is recovered, and so are three further series. -/
def lostAfter : List (Act (Fin 64)) :=
  (List.range 29).flatMap (fun i =>
    [Act.reserve (Fin.ofNat 64 (i + 1)) window3, .fail (Fin.ofNat 64 (i + 1)), .recover (Fin.ofNat 64 (i + 1))]) ++
      [30, 31, 32].flatMap (fun key => exhausted key ++ [Act.recover key])

theorem lost_played : (playAll ({} : Circuit (Fin 64)) 1 lostBefore).any (fun c =>
    ((Act.recover 0).play 123 c).any fun recovered => (playAll recovered 124 lostAfter).any fun last =>
      (last.active 0).any fun a => decide (a.revision < 123)) = true := by decide +kernel

def lostTask : Meta := Run.final step retrySample (lostBefore.map (Act.event sampleNames))

def lostRecovery : Operation := .recover (identityOf 0) "retry-exception" "Retry."

theorem lost_reached : ∃ c recovered last, Staged sampleNames lostTask 123 c ∧ (Act.recover 0).play 123 c = some recovered ∧
    playAll recovered 124 lostAfter = some last ∧ ∃ a ∈ last.active 0, a.revision < 123 := by
  obtain ⟨c, reached, found⟩ := (Option.any_eq_true _ _).mp lost_played
  obtain ⟨recovered, played, found⟩ := (Option.any_eq_true _ _).mp found
  obtain ⟨last, ended, found⟩ := (Option.any_eq_true _ _).mp found
  obtain ⟨a, member, old⟩ := List.any_eq_true.mp found
  have count : (1 : Int) + lostBefore.length = 123 := by decide +kernel
  have staged := retrySample_staged.playAll lostBefore reached
  rw [count] at staged
  exact ⟨c, recovered, last, staged, played, ended, a, member, of_decide_eq_true old⟩

theorem lostRecovery_accepted : allowed (lostRecovery.effect lostTask Act.started.text) = true := by
  obtain ⟨c, recovered, last, staged, played, -⟩ := lost_reached
  exact staged.accepted (.recover 0) played

/-- After thirty-two more recoveries the first one is forgotten, and its attempts count again. -/
theorem forgotten_recovery : allowed (lostRecovery.effect lostTask Act.started.text) = true ∧
    ¬PastRevision (identityOf 0) (progressDigest lostTask) (Meta.revision lostTask)
      (Run.final step lostTask (⟨lostRecovery, Act.started.text⟩ :: lostAfter.map (Act.event sampleNames))) := by
  refine ⟨lostRecovery_accepted, ?_⟩
  obtain ⟨c, recovered, last, staged, played, ended, a, member, old⟩ := lost_reached
  have final := (staged.play (.recover 0) played).playAll lostAfter ended
  have same : (⟨lostRecovery, Act.started.text⟩ : Event) = (Act.recover 0).event sampleNames := rfl
  have identity : identityOf 0 = (sampleNames 0).identity := rfl
  rw [← staged.progress 0, staged.current, same, Run.final_cons, identity, pastRevision_record final.tracked.intact.kept]
  intro past
  have later := past a member
  omega

theorem remembers_of_no_recovery {events : List Event}
    (none : ∀ event ∈ events, ∀ identity kind reason, event.operation ≠ .recover identity kind reason) :
    ∀ task : Meta, Run.Along step (fun task event => event.Remembers task) task events := by
  induction events with
  | nil => exact fun _ => trivial
  | cons event rest ih =>
    intro task
    refine ⟨fun identity kind reason operation _ => ?_, ih (fun other member => none other (by simp [member])) _⟩
    exact absurd operation (none event (by simp) identity kind reason)

/-- The series runs through its window once more after its recovery. -/
theorem fresh_series_sample : PastRevision (identityOf 0) (progressDigest lostTask) (Meta.revision lostTask)
    (Run.final step lostTask (⟨lostRecovery, Act.started.text⟩ :: (exhausted 0).map (Act.event sampleNames))) := by
  have accepted := lostRecovery_accepted
  unfold lostTask lostRecovery at accepted ⊢
  refine fresh_series_run retrySample_fresh _ _ accepted ?_
  apply remembers_of_no_recovery
  intro event member identity kind reason
  simp only [exhausted, List.map_cons, List.map_nil, List.mem_cons, List.not_mem_nil, or_false] at member
  rcases member with rfl | rfl | rfl | rfl | rfl | rfl <;> exact fun same => nomatch same

end Coordinator.RetryCircuit
