import Coordinator.RetryHistory

/-! The window of a series bounds its failed attempts and live slots together. The hold follows
the attempts only while one series at a time uses up its window. -/

namespace Coordinator.RetryCircuit
open Kit Dict Transitions

section Typed

variable {K : Type} [DecidableEq K] {names : K ↪ Series} {task next : Meta} {c c' : Circuit K} {event : Event}
  (window : K → Window)

/-- Every slot has the window of its series, which bounds what the series uses. -/
structure Roomy (c : Circuit K) : Prop where
  slots : ∀ s ∈ c.slots, s.window = window s.key
  used : ∀ key, (c.used key : Int) ≤ (window key).size

/-- The hold is on the series that has used up its window, if there is one. -/
def HeldAtBound (c : Circuit K) : Prop := ∀ key, (∃ h ∈ c.hold, h.key = key) ↔ (window key).size ≤ (c.active key).length

variable {window}

theorem Circuit.Shrinks.live (shrinks : c.Shrinks c') (key : K) : (c'.live key).length ≤ (c.live key).length :=
  (shrinks.slots.filter _).length_le

theorem Circuit.Shrinks.roomy (shrinks : c.Shrinks c') (roomy : Roomy window c) : Roomy window c' where
  slots s member := roomy.slots s (shrinks.slots.subset member)
  used key := by
    have before := roomy.used key
    have fewer := shrinks.live key
    rw [Circuit.used] at before ⊢
    rw [shrinks.active]
    omega

theorem Circuit.granted_used (slot : Slot K) (key : K) :
    (c.granted slot).used key = c.used key + if slot.key = key then 1 else 0 := by
  have last : ([slot].filter (fun s => decide (s.key = key))).length = if slot.key = key then 1 else 0 := by
    by_cases same : slot.key = key <;> simp [same]
  change (c.active key).length + ((c.slots ++ [slot]).filter _).length = _
  rw [List.filter_append, List.length_append, last, ← Nat.add_assoc]
  rfl

/-- A slot that is given back makes room for one attempt of its series. -/
theorem Circuit.without_live {slot : Slot K} (member : slot ∈ c.slots) (key : K) :
    ((c.without slot.id).live key).length + (if slot.key = key then 1 else 0) ≤ (c.live key).length := by
  by_cases same : slot.key = key
  · rw [if_pos same]
    have inside : slot ∈ c.live key := List.mem_filter.mpr ⟨member, decide_eq_true same⟩
    have gone : slot ∉ (c.without slot.id).live key := fun still => by
      simp [live, without] at still
    have sub : ((c.without slot.id).live key).Sublist (c.live key) := (List.filter_sublist).filter _
    rcases Nat.lt_or_ge ((c.without slot.id).live key).length (c.live key).length with fewer | all
    · exact fewer
    · exact absurd (sub.eq_of_length_le all ▸ inside) gone
  · rw [if_neg same]
    exact (c.without_shrinks slot.id).live key

theorem Circuit.failed_active (few : c.attempts.length < maxAttempts) {a : Attempt K}
    (fresh : c.recoveredRevision a.key < a.revision) (key : K) :
    ((c.failed a).active key).length = (c.active key).length + if a.key = key then 1 else 0 := by
  have counted := c.active_failed_length (Nat.le_of_lt few) fresh key
  have kept : c.pushedOut = none := if_neg (Nat.not_le.mpr few)
  rw [remaining, kept] at counted
  simp only [Option.any_none, Bool.false_eq_true, if_false] at counted
  omega

theorem Circuit.recovered_active_length (bounded : c.Bounded) {r : Recovery K}
    (older : ∀ other ∈ c.recoveries, other.revision < r.revision) (few : c.recoveries.length < maxRecoveries) (key : K) :
    ((c.recovered r).active key).length ≤ (c.active key).length := by
  change (c.attempts.filter _).length ≤ (c.attempts.filter _).length
  rw [← List.countP_eq_length_filter, ← List.countP_eq_length_filter]
  refine List.countP_mono_left fun a member counts => ?_
  have inside : a ∈ (c.recovered r).active key := List.mem_filter.mpr ⟨member, counts⟩
  exact (List.mem_filter.mp (active_recovered_subset bounded older (Or.inl few) inside)).2

variable (names) (window)

/-- What an operation respects: fixed windows, the limits of the history, and slots that are
resolved at the progress they were reserved at. -/
structure Keeps (task : Meta) (c : Circuit K) (event : Event) : Prop where
  reserves : ∀ slot : Slot K, (names slot.key).progress = progressDigest task →
    event.operation = .reserve (slot.request names) → slot.window = window slot.key
  resolves : ∀ slot ∈ c.slots, ∀ failure, event.operation = .resolve (names slot.key).identity slot.id (some failure) →
    c.attempts.length < maxAttempts ∧ (names slot.key).progress = progressDigest task
  recovers : ∀ identity kind reason, event.operation = .recover identity kind reason →
    c.recoveries.length < maxRecoveries

/-- A failure fills its window only while no other series is held, and a recovery is made at the
progress of the hold. -/
structure OneAtATime (task : Meta) (c : Circuit K) (event : Event) : Prop where
  resolves : ∀ slot ∈ c.slots, ∀ failure, event.operation = .resolve (names slot.key).identity slot.id (some failure) →
    (window slot.key).size ≤ (c.active slot.key).length + 1 → ∀ h ∈ c.hold, h.key = slot.key
  recovers : ∀ identity kind reason, event.operation = .recover identity kind reason →
    ∀ h ∈ c.hold, (names h.key).progress = progressDigest task

variable {names window}

theorem Accepted.roomy (tracked : Tracked names task c) (accepted : Accepted names task c event c')
    (keeps : Keeps names window task c event) (roomy : Roomy window c) : Roomy window c' := by
  cases accepted with
  | other record at_ => exact roomy
  | abandoned shrinks => exact shrinks.roomy roomy
  | @reserved slot _ progress revision result =>
    obtain ⟨-, room, -, rfl⟩ := reserve_eq_some result
    have cleaned := (c.cleaned_shrinks slot.reserved).roomy roomy
    have fixed := keeps.reserves slot progress rfl
    refine ⟨?_, fun key => ?_⟩
    · intro s member
      rcases List.mem_append.mp member with old | new
      · exact cleaned.slots s old
      · rw [List.mem_singleton.mp new]
        exact fixed
    · have before := cleaned.used key
      rw [Circuit.granted_used]
      by_cases same : slot.key = key
      · subst same
        rw [if_pos rfl, ← fixed]
        omega
      · rw [if_neg same]
        exact before
  | @settled slot outcome at_ _ member fits result =>
    rcases settle_eq_some result with ⟨-, -, rfl⟩ | ⟨-, -, -, rfl⟩ | ⟨attempt, rfl, -, -, rfl⟩
    · have least (key : K) := (window key).bounds.1
      refine ⟨by simp, fun key => le_trans ?_ (least key)⟩
      simp [Circuit.used, Circuit.active, Circuit.live, defaultWindow]
    · exact (c.without_shrinks slot.id).roomy roomy
    · have without := (c.without_shrinks slot.id).roomy roomy
      obtain ⟨few, progress⟩ := keeps.resolves slot member attempt.failure rfl
      have fit := fits attempt rfl
      have sameKey : attempt.key = slot.key := series_eq_iff.mp (by rw [fit.identity, fit.progress, progress])
      have fresh : (c.without slot.id).recoveredRevision attempt.key < attempt.revision := by
        rw [fit.revision]
        exact c.recoveredRevision_lt attempt.key tracked.positive tracked.recoveries
      refine ⟨without.slots, fun key => ?_⟩
      have active := Circuit.failed_active (c := c.without slot.id) few fresh key
      have live := Circuit.without_live member key
      have before := roomy.used key
      change (((((c.without slot.id).failed attempt).active key).length + ((c.without slot.id).live key).length : Nat) : Int) ≤ _
      rw [Circuit.used] at before
      rw [active, sameKey]
      change (((c.active key).length + _ + _ : Nat) : Int) ≤ _
      omega
  | @recovered recovery reason fits held _ =>
    refine ⟨roomy.slots, fun key => ?_⟩
    have older : ∀ other ∈ c.recoveries, other.revision < recovery.revision := by
      rw [fits.revision]
      exact tracked.recoveries
    have fewer := Circuit.recovered_active_length tracked.intact.kept.bounded older (keeps.recovers _ _ _ rfl) key
    have before := roomy.used key
    change ((((c.recovered recovery).active key).length + (c.live key).length : Nat) : Int) ≤ _
    rw [Circuit.used] at before
    omega

/-- While one series at a time uses up its window, the hold follows the attempts. -/
theorem Accepted.heldAtBound (tracked : Tracked names task c) (accepted : Accepted names task c event c')
    (keeps : Keeps names window task c event) (single : OneAtATime names window task c event) (roomy : Roomy window c)
    (bound : HeldAtBound window c) : HeldAtBound window c' := by
  cases accepted with
  | other record at_ => exact bound
  | abandoned shrinks =>
    intro key
    rw [shrinks.hold, shrinks.active]
    exact bound key
  | @reserved slot _ progress revision result =>
    obtain ⟨-, -, -, rfl⟩ := reserve_eq_some result
    exact bound
  | @settled slot outcome at_ _ member fits result =>
    rcases settle_eq_some result with ⟨-, -, rfl⟩ | ⟨-, -, -, rfl⟩ | ⟨attempt, rfl, -, -, rfl⟩
    · intro key
      have least := (window key).bounds.1
      simp only [defaultWindow] at least
      simp [Circuit.active]
      omega
    · exact bound
    · obtain ⟨few, progress⟩ := keeps.resolves slot member attempt.failure rfl
      have fit := fits attempt rfl
      have sameKey : attempt.key = slot.key := series_eq_iff.mp (by rw [fit.identity, fit.progress, progress])
      have fixed : attempt.window = window slot.key := fit.window.trans (roomy.slots slot member)
      have alone := single.resolves slot member attempt.failure rfl
      have fresh : (c.without slot.id).recoveredRevision attempt.key < attempt.revision := by
        rw [fit.revision]
        exact c.recoveredRevision_lt attempt.key tracked.positive tracked.recoveries
      intro key
      have active := Circuit.failed_active (c := c.without slot.id) few fresh key
      rw [active, sameKey]
      have before := bound key
      change (∃ h ∈ (if attempt.window.size ≤ (c.active attempt.key).length + 1 then some _ else c.hold), h.key = key) ↔
        (window key).size ≤ (((c.active key).length + _ : Nat) : Int)
      rw [sameKey, fixed]
      by_cases full : (window slot.key).size ≤ (c.active slot.key).length + 1
      · rw [if_pos full]
        by_cases same : slot.key = key
        · subst same
          rw [if_pos rfl]
          refine ⟨fun _ => ?_, fun _ => ⟨_, rfl, rfl⟩⟩
          omega
        · rw [if_neg same, Nat.add_zero, ← before]
          constructor
          · rintro ⟨h, standing, named⟩
            cases standing
            exact absurd named same
          · rintro ⟨h, standing, named⟩
            exact absurd ((alone full h standing).symm.trans named) same
      · rw [if_neg full]
        by_cases same : slot.key = key
        · subst same
          rw [if_pos rfl]
          refine ⟨fun held => ?_, fun filled => ?_⟩
          · have filled := before.mp held
            omega
          · omega
        · rw [if_neg same, Nat.add_zero]
          exact before
  | @recovered recovery reason fits held _ =>
    obtain ⟨h, standing, named⟩ := held
    have sameKey : h.key = recovery.key :=
      series_eq_iff.mp (by rw [named, single.recovers _ _ _ rfl h standing, fits.progress])
    have older : ∀ other ∈ c.recoveries, other.revision < recovery.revision := by
      rw [fits.revision]
      exact tracked.recoveries
    intro key
    have fewer := Circuit.recovered_active_length tracked.intact.kept.bounded older (keeps.recovers _ _ _ rfl) key
    have least := (window key).bounds.1
    simp only [defaultWindow] at least
    refine ⟨(by rintro ⟨_, ⟨⟩, _⟩), fun filled => ?_⟩
    by_cases same : recovery.key = key
    · subst same
      have afresh : (c.recovered recovery).active recovery.key = [] := by
        apply Circuit.active_recovered
        rw [fits.revision]
        exact tracked.attempts
      rw [afresh, List.length_nil] at filled
      omega
    · obtain ⟨other, stands, named⟩ := (bound key).mpr (by omega)
      rw [Option.mem_def.mp standing] at stands
      cases stands
      exact absurd (sameKey.symm.trans named) same

end Typed

/-- What the run of one task respects at each accepted operation: a launch asks for the window of
its series, the history has room, and a failed launch is resolved at the progress it was reserved at. -/
def Event.Retained (window : Series → Window) (task : Meta) (event : Event) : Prop :=
  let state := (circuit task).fields
  match event.operation with
  | .reserve slot => ∀ named : Text.isDigest slot.identity = true,
      slot.window = (window (seriesOf task slot.identity named)).size
  | .resolve _ id (some _) => (state.get "attempts").items.length < maxAttempts ∧
      ∀ slot ∈ (state.get "reservations").items, slot.get "id" = .str id →
        slot.get "progress_digest" = .str (progressDigest task)
  | .recover _ _ _ => (state.get "recoveries").items.length < maxRecoveries
  | _ => True

/-- A failure fills the window of its series only while no other series is held, and a recovery is
made at the progress of the hold. -/
def Event.OneAtATime (window : Series → Window) (task : Meta) (event : Event) : Prop :=
  let state := (circuit task).fields
  let hold := state.get "hold"
  match event.operation with
  | .resolve identity _ (some _) => ∀ named : Text.isDigest identity = true,
      (window (seriesOf task identity named)).size ≤ (activeAttempts state identity (progressDigest task)).length + 1 →
        hold.isNull = true ∨ sameSeries identity (progressDigest task) hold = true
  | .recover _ _ _ => hold.get "progress_digest" = .str (progressDigest task)
  | _ => True

/-- The failed attempts that count and the live slots of every series fit its window. -/
def WithinCapacity (window : Series → Window) (task : Meta) : Prop :=
  ∀ key : Series, ((activeAttempts (circuit task).fields key.identity key.progress).length : Int) +
    (((circuit task).get "reservations").items.filter (sameSeries key.identity key.progress)).length ≤ (window key).size

/-- A hold is recorded for a series exactly when its attempts reach the window. -/
def HeldExactly (window : Series → Window) (task : Meta) : Prop :=
  ∀ key : Series, sameSeries key.identity key.progress ((circuit task).get "hold") = true ↔
    (window key).size ≤ (activeAttempts (circuit task).fields key.identity key.progress).length

section Runs

variable {window : Series → Window} {task : Meta} {c : Circuit Series} {event : Event}

theorem activeAttempts_kept {K : Type} [DecidableEq K] {names : K ↪ Series} {c : Circuit K} (kept : Kept names task c)
    (key : K) : activeAttempts (circuit task).fields (names key).identity (names key).progress =
      (c.active key).map (Attempt.record names) := by
  rcases kept with ⟨absent, rfl⟩ | ⟨present, -⟩
  · simp [absent, Json.fields, activeAttempts, Dict.get, Dict.find, Json.items, Circuit.active]
  · rw [present]
    exact Circuit.activeAttempts_record names c key

theorem withinCapacity_iff (kept : Kept (.refl _) task c) :
    WithinCapacity window task ↔ ∀ key, (c.used key : Int) ≤ (window key).size := by
  refine forall_congr' fun key => ?_
  have active : activeAttempts (circuit task).fields key.identity key.progress = _ := activeAttempts_kept kept key
  have live : (c.slots.map (Slot.record (.refl _))).filter (sameSeries key.identity key.progress) = _ :=
    Circuit.live_record (.refl _) c key
  rw [active, kept.reservations, live, List.length_map, List.length_map, Circuit.used]
  omega

theorem heldExactly_iff (kept : Kept (.refl _) task c) : HeldExactly window task ↔ HeldAtBound window c := by
  refine forall_congr' fun key => ?_
  have active : activeAttempts (circuit task).fields key.identity key.progress = _ := activeAttempts_kept kept key
  rw [active, kept.hold, List.length_map]
  refine iff_congr ?_ Iff.rfl
  cases c.hold with
  | none => simp [holdRecord, sameSeries, Json.get, Json.fields, Dict.get, Dict.find]
  | some h =>
    have series := Hold.sameSeries_record (.refl _) h key
    change sameSeries key.identity key.progress _ = true ↔ _ at series
    simp only [holdRecord, series, Option.mem_def, Option.some.injEq, exists_eq_left']

theorem series_ext {a b : Series} (identity : a.identity = b.identity) (progress : a.progress = b.progress) : a = b := by
  cases a
  cases b
  simp_all

theorem Event.Retained.keeps (tracked : Tracked (.refl _) task c) (retained : event.Retained window task) :
    Keeps (.refl _) window task c event := by
  obtain ⟨operation, at_⟩ := event
  refine ⟨?_, ?_, ?_⟩
  · rintro slot progress ⟨⟩
    have fixed : slot.window.size = (window (seriesOf task slot.key.identity slot.key.named)).size :=
      retained slot.key.named
    have same : seriesOf task slot.key.identity slot.key.named = slot.key := series_ext rfl progress.symm
    rw [same] at fixed
    exact window_eq_iff.mpr fixed
  · rintro slot member failure ⟨⟩
    obtain ⟨few, bound⟩ : _ ∧ _ := retained
    have present : (circuit task).fields = c.record (.refl _) := by
      rcases tracked.intact with ⟨-, rfl⟩ | ⟨present, -⟩
      · cases member
      · rw [present]
        rfl
    rw [present, Circuit.attempts_record, Json.items, List.length_map] at few
    rw [present, Circuit.reservations_record, Json.items] at bound
    have same := bound _ (List.mem_map_of_mem member) (Slot.id_record slot)
    rw [Slot.progress_record, Json.str.injEq] at same
    exact ⟨few, same⟩
  · rintro identity kind reason ⟨⟩
    have few : ((circuit task).fields.get "recoveries").items.length < maxRecoveries := retained
    rcases tracked.intact with ⟨-, rfl⟩ | ⟨present, -⟩
    · exact Nat.zero_lt_succ _
    · rw [present] at few
      simpa [Json.fields, Json.items] using few

theorem Event.OneAtATime.single (tracked : Tracked (.refl _) task c) (keeps : Keeps (.refl _) window task c event)
    (single : event.OneAtATime window task) : RetryCircuit.OneAtATime (.refl _) window task c event := by
  obtain ⟨operation, at_⟩ := event
  refine ⟨?_, ?_⟩
  · rintro slot member failure ⟨⟩ full h standing
    have same : seriesOf task slot.key.identity slot.key.named = slot.key :=
      series_ext rfl (keeps.resolves slot member failure rfl).2.symm
    have active : activeAttempts (circuit task).fields slot.key.identity slot.key.progress = _ :=
      activeAttempts_kept tracked.intact.kept slot.key
    have progress : slot.key.progress = progressDigest task := (keeps.resolves slot member failure rfl).2
    have alone : (window (seriesOf task slot.key.identity slot.key.named)).size ≤
        (activeAttempts (circuit task).fields slot.key.identity (progressDigest task)).length + 1 →
          ((circuit task).get "hold").isNull = true ∨
            sameSeries slot.key.identity (progressDigest task) ((circuit task).get "hold") = true :=
      single slot.key.named
    rw [same, ← progress, active, List.length_map, tracked.intact.kept.hold, Option.mem_def.mp standing] at alone
    rcases alone full with blank | held
    · cases blank
    · exact (Hold.sameSeries_record (.refl _) h slot.key).mp held
  · rintro identity kind reason ⟨⟩ h standing
    have present : ((circuit task).get "hold").get "progress_digest" = .str (progressDigest task) := single
    rw [tracked.intact.kept.hold, Option.mem_def.mp standing] at present
    simpa [holdRecord, Hold.record, Dict.get, Dict.find] using present

end Runs

section Runs

variable {window : Series → Window} {start : Meta}

/-- An accepted operation under fixed windows keeps the room of every series, and the hold at the
bound where one series at a time uses up its window. -/
theorem step_capacity {task : Meta} {c : Circuit Series} {event : Event} (tracked : Tracked (.refl _) task c)
    (roomy : Roomy window c)
    (retained : allowed (event.operation.effect task event.recordedAt) = true → event.Retained window task) :
    ∃ c', Tracked (.refl _) (step task event) c' ∧ Roomy window c' ∧
      ((allowed (event.operation.effect task event.recordedAt) = true → event.OneAtATime window task) →
        HeldAtBound window c → HeldAtBound window c') := by
  by_cases accepted : allowed (event.operation.effect task event.recordedAt) = true
  · obtain ⟨c', stepped⟩ := step_accepted tracked event accepted
    have keeps := (retained accepted).keeps tracked
    refine ⟨c', tracked.stepped stepped, stepped.accepted.roomy tracked keeps roomy, fun single bound => ?_⟩
    exact stepped.accepted.heldAtBound tracked keeps ((single accepted).single tracked keeps) roomy bound
  · rw [step_of_refused accepted]
    exact ⟨c, tracked, roomy, fun _ bound => bound⟩

theorem roomy_empty : Roomy window ({} : Circuit Series) := by
  refine ⟨by simp, fun key => le_trans ?_ (window key).bounds.1⟩
  simp [Circuit.used, Circuit.active, Circuit.live, defaultWindow]

theorem heldAtBound_empty : HeldAtBound window ({} : Circuit Series) := by
  intro key
  have least := (window key).bounds.1
  simp only [defaultWindow] at least
  simp [Circuit.active]
  omega

/-- In every run within the retained history that gives each series a fixed window, no series
uses more than its window. -/
theorem capacity_run (fresh : Fresh start) (events : List Event)
    (retained : Run.Along step (fun task event => allowed (event.operation.effect task event.recordedAt) = true →
      event.Retained window task) start events) : WithinCapacity window (Run.final step start events) := by
  have keeps : ∀ (task : Meta) (event : Event), (∃ c, Tracked (.refl _) task c ∧ Roomy window c) →
      (allowed (event.operation.effect task event.recordedAt) = true → event.Retained window task) →
        ∃ c, Tracked (.refl _) (step task event) c ∧ Roomy window c := by
    rintro task event ⟨c, tracked, roomy⟩ retained
    obtain ⟨c', next, stays, -⟩ := step_capacity tracked roomy retained
    exact ⟨c', next, stays⟩
  obtain ⟨c, tracked, roomy⟩ := Run.invariant step keeps events start ⟨{}, fresh.tracked, roomy_empty⟩ retained
  exact (withinCapacity_iff tracked.intact.kept).mpr roomy.used

/-- Where besides one series at a time uses up its window, a hold is recorded for a series exactly
when its attempts reach the window. -/
theorem held_run (fresh : Fresh start) (events : List Event)
    (retained : Run.Along step (fun task event => allowed (event.operation.effect task event.recordedAt) = true →
      event.Retained window task ∧ event.OneAtATime window task) start events) :
    WithinCapacity window (Run.final step start events) ∧ HeldExactly window (Run.final step start events) := by
  have keeps : ∀ (task : Meta) (event : Event),
      (∃ c, Tracked (.refl _) task c ∧ Roomy window c ∧ HeldAtBound window c) →
      (allowed (event.operation.effect task event.recordedAt) = true →
        event.Retained window task ∧ event.OneAtATime window task) →
        ∃ c, Tracked (.refl _) (step task event) c ∧ Roomy window c ∧ HeldAtBound window c := by
    rintro task event ⟨c, tracked, roomy, bound⟩ retained
    obtain ⟨c', next, stays, held⟩ := step_capacity tracked roomy fun accepted => (retained accepted).1
    exact ⟨c', next, stays, held (fun accepted => (retained accepted).2) bound⟩
  obtain ⟨c, tracked, roomy, bound⟩ :=
    Run.invariant step keeps events start ⟨{}, fresh.tracked, roomy_empty, heldAtBound_empty⟩ retained
  exact ⟨(withinCapacity_iff tracked.intact.kept).mpr roomy.used, (heldExactly_iff tracked.intact.kept).mpr bound⟩

/-- The command resolves a slot only at the progress it was reserved at: nothing has come between. -/
theorem applyResolve_progress (fresh : Fresh start) (events : List Event) {owner identity id at_ : String}
    {expectedRevision : Int} {failure : Option String} {result : Meta × String} {slot : Json}
    (accepted : applyResolve (Run.final step start events) owner expectedRevision identity id failure at_ = .ok result)
    (member : slot ∈ ((circuit (Run.final step start events)).get "reservations").items)
    (named : slot.get "id" = .str id) :
    slot.get "progress_digest" = .str (progressDigest (Run.final step start events)) := by
  obtain ⟨c, tracked⟩ := run_tracked fresh events
  generalize Run.final step start events = task at tracked accepted member ⊢
  rw [tracked.intact.kept.reservations] at member
  obtain ⟨s, listed, rfl⟩ := List.mem_map.mp member
  rw [Slot.id_record, Json.str.injEq] at named
  subst named
  have valid := tracked.intact.kept.valid_of_slot listed
  unfold applyResolve resolutionRevision at accepted
  rw [tracked.intact.kept.state, ok_bind] at accepted
  obtain ⟨-, -, accepted⟩ := bind_eq_ok.mp accepted
  obtain ⟨required, located, accepted⟩ := bind_eq_ok.mp accepted
  obtain ⟨fence, -⟩ := raiseIf_bind_ok.mp accepted
  obtain ⟨selected, found, next⟩ := bind_eq_ok.mp located
  unfold selectedSlot at found
  rw [Circuit.reservations_record, Json.items, find_record, Circuit.find_slot valid.slotsApart listed,
    orRaise_bind_ok] at found
  obtain ⟨item, same, checked⟩ := found
  obtain ⟨-, last⟩ := raiseIf_bind_ok.mp checked
  rw [pure_eq_ok] at last next
  rw [Option.map_some, Option.some.injEq] at same
  rw [← last, ← same, Slot.revisionOf_record] at next
  obtain ⟨number, -, current⟩ := tracked.numbered
  have known : Meta.revision task = number := by rw [Meta.revision, current]; rfl
  have due := (Bool.or_eq_false_iff.mp fence).2
  rw [current, bne, Bool.not_eq_false', Json.beq_int_int] at due
  rw [Slot.progress_record, Json.str.injEq]
  exact tracked.bound s listed (by omega)

end Runs

section Scripts

variable {K : Type} [DecidableEq K] {names : K ↪ Series} {task : Meta} {c : Circuit K}

/-- Every act of the script asks for one window and meets lists with room. -/
def roomAlong (window : Window) (c : Circuit K) (revision : Int) : List (Act K) → Bool
  | [] => true
  | act :: rest =>
      decide (c.attempts.length < maxAttempts) && decide (c.recoveries.length < maxRecoveries) &&
        (match act with
          | .reserve _ asked => decide (asked = window)
          | _ => true) &&
        (act.play revision c).any fun next => roomAlong window next (revision + 1) rest

theorem Staged.retained {revision : Int} (staged : Staged names task revision c) {window : Window} (act : Act K)
    (attempts : c.attempts.length < maxAttempts) (recoveries : c.recoveries.length < maxRecoveries)
    (asked : ∀ key other, act = .reserve key other → other = window) :
    (act.event names).Retained (fun _ => window) task := by
  have kept := staged.tracked.intact.kept
  cases act with
  | reserve key other =>
    intro named
    rw [asked key other rfl]
  | fail key =>
    refine ⟨?_, ?_⟩
    · rcases staged.tracked.intact with ⟨absent, -⟩ | ⟨present, -⟩
      · rw [absent]
        exact Nat.zero_lt_succ _
      · rw [present]
        simpa [Json.fields, Json.items] using attempts
    · intro slot member _
      change slot ∈ ((circuit task).get "reservations").items at member
      rw [kept.reservations] at member
      obtain ⟨s, -, rfl⟩ := List.mem_map.mp member
      rw [Slot.progress_record, staged.progress]
  | recover key =>
    change ((circuit task).fields.get "recoveries").items.length < maxRecoveries
    rcases staged.tracked.intact with ⟨absent, -⟩ | ⟨present, -⟩
    · rw [absent]
      exact Nat.zero_lt_succ _
    · rw [present]
      simpa [Json.fields, Json.items] using recoveries

/-- A script with room is a run that respects whatever its staged acts respect. -/
theorem Staged.along {window : Window} {Allowed : Meta → Event → Prop} (acts : List (Act K))
    (allows : ∀ {task : Meta} {revision : Int} {c c' : Circuit K} (act : Act K), Staged names task revision c →
      act.play revision c = some c' → (act.event names).Retained (fun _ => window) task →
        Allowed task (act.event names)) :
    ∀ {task : Meta} {revision : Int} {c : Circuit K}, Staged names task revision c →
      roomAlong window c revision acts = true →
        Run.Along RetryCircuit.step Allowed task (acts.map (Act.event names)) := by
  induction acts with
  | nil =>
    intro task revision c _ _
    exact trivial
  | cons act rest ih =>
    intro task revision c staged room
    simp only [roomAlong, Bool.and_eq_true, decide_eq_true_eq, Option.any_eq_true] at room
    obtain ⟨⟨⟨attempts, recoveries⟩, asked⟩, next, played, later⟩ := room
    refine ⟨allows act staged played (staged.retained act attempts recoveries ?_), ih (staged.play act played) later⟩
    rintro key other rfl
    exact of_decide_eq_true asked

/-- With one series in the script, the hold is on no other. -/
theorem Staged.single [Subsingleton K] {revision : Int} (staged : Staged names task revision c) {window : Series → Window}
    {c' : Circuit K} (act : Act K) (played : act.play revision c = some c') :
    (act.event names).OneAtATime window task := by
  have kept := staged.tracked.intact.kept
  cases act with
  | reserve key asked => exact trivial
  | fail key =>
    intro named _
    change ((circuit task).get "hold").isNull = true ∨
      sameSeries (names key).identity (progressDigest task) ((circuit task).get "hold") = true
    rw [kept.hold, ← staged.progress key]
    cases c.hold with
    | none => exact Or.inl rfl
    | some h => exact Or.inr ((Hold.sameSeries_record names h key).mpr (Subsingleton.elim h.key key))
  | recover key =>
    change (if _ then _ else _) = some c' at played
    split at played
    · rename_i held
      obtain ⟨h, standing, -⟩ := (Option.any_eq_true _ _).mp held
      change ((circuit task).get "hold").get "progress_digest" = .str (progressDigest task)
      rw [kept.hold, standing, ← staged.progress h.key]
      simp [holdRecord, Hold.record, Dict.get, Dict.find]
    · cases played

end Scripts

/-- One series fails to the end of its window and is recovered. -/
def soleNames : Unit ↪ Series where
  toFun _ := sampleNames 0
  inj' _ _ _ := rfl

def soleScript : List (Act Unit) :=
  [.reserve () window3, .fail (), .reserve () window3, .fail (), .reserve () window3, .fail (), .recover ()]

theorem held_sole :
    WithinCapacity (fun _ => window3) (Run.final step retrySample (soleScript.map (Act.event soleNames))) ∧
      HeldExactly (fun _ => window3) (Run.final step retrySample (soleScript.map (Act.event soleNames))) := by
  have staged : Staged soleNames retrySample 1 {} :=
    ⟨⟨Intact.none _ rfl, retrySample_fresh.2, by simp, by simp, by simp, fun _ => rfl, by simp⟩, rfl, fun _ => rfl, rfl,
      rfl, rfl⟩
  have room : roomAlong window3 ({} : Circuit Unit) 1 soleScript = true := by decide +kernel
  refine held_run retrySample_fresh _ (Staged.along _ (fun act staged played retained _ => ?_) staged room)
  exact ⟨retained, staged.single act played⟩

/-- Both series stay within the history and under the window of three. -/
theorem wedged_retained : Run.Along step (fun task event =>
    allowed (event.operation.effect task event.recordedAt) = true → event.Retained (fun _ => window3) task) retrySample
      ((exhausted 0 ++ exhausted 1).map (Act.event sampleNames)) := by
  have room : roomAlong window3 ({} : Circuit (Fin 64)) 1 (exhausted 0 ++ exhausted 1) = true := by decide +kernel
  exact Staged.along _ (fun _ _ _ retained _ => retained) retrySample_staged room

/-- The first series has used up its window as well, but the hold is the second one's. -/
theorem exhausted_without_hold : Run.Along step (fun task event =>
    allowed (event.operation.effect task event.recordedAt) = true → event.Retained (fun _ => window3) task) retrySample
      ((exhausted 0 ++ exhausted 1).map (Act.event sampleNames)) ∧ ¬HeldExactly (fun _ => window3) wedgedTask := by
  refine ⟨wedged_retained, fun exactly => ?_⟩
  obtain ⟨c, staged, -, first, -⟩ := wedged_reached
  have counted := activeAttempts_kept staged.tracked.intact.kept 0
  have filled : (window3.size : Int) ≤
      (activeAttempts (circuit wedgedTask).fields (sampleNames 0).identity (sampleNames 0).progress).length := by
    rw [counted, List.length_map, first]
    exact le_refl 3
  have held := (exactly (sampleNames 0)).mpr filled
  rw [sameSeries, Bool.and_eq_true] at held
  have named : ((circuit wedgedTask).get "hold").get "identity" = .str (identityOf 0) := (Json.beq_str _ _).mp held.1
  exact wedgedTask_held ⟨named, Or.inl staged.checkpoint⟩

end Coordinator.RetryCircuit
