import Coordinator.RetryLaunches

/-! A series whose window is used up, and the recovery that should open it again. A launch is
refused for the attempts of its own series, while a recovery answers to the one hold on record. -/

namespace Coordinator.RetryCircuit
open Kit Dict Transitions

section Typed

variable {K : Type} [DecidableEq K] {names : K ↪ Series} {task : Meta} {c : Circuit K}

theorem mem_recent_last {R : Type} {count : Nat} (positive : 0 < count) (items : List R) (last : R) :
    last ∈ recent count (items ++ [last]) := by
  have few : (items ++ [last]).length - count ≤ items.length := by
    rw [List.length_append, List.length_singleton]
    omega
  rw [recent, List.drop_append_of_le_length few]
  exact List.mem_append_right _ (List.mem_singleton_self last)

/-- A recovery starts its series afresh. -/
theorem Circuit.active_recovered {r : Recovery K} (older : ∀ a ∈ c.attempts, a.revision < r.revision) :
    (c.recovered r).active r.key = [] := by
  have listed : r ∈ (c.recovered r).recoveries := mem_recent_last (by decide) _ _
  have last := (c.recovered r).le_recoveredRevision listed
  rw [active, List.filter_eq_nil_iff]
  intro a member
  have before := older a member
  simp only [Bool.and_eq_true, decide_eq_true_eq, not_and]
  intro _
  omega

theorem Circuit.granted_valid (valid : c.Valid) (idle : c.slots = []) (slot : Slot K) : (c.granted slot).Valid := by
  refine ⟨⟨valid.attemptCount, valid.recoveryCount, ?_, valid.abandonedCount, valid.attemptOrder, valid.recoveryOrder, ?_⟩,
    Or.inr (Or.inl ?_), valid.supported⟩
  · simp [granted, idle, maxWindow]
  · simp [granted, idle]
  · simp [granted]

/-- Without live slots, a launch of a series that has no active attempts is granted. -/
theorem Circuit.reserve_afresh (valid : c.Valid) (idle : c.slots = []) (free : c.hold = none) {slot : Slot K}
    (fresh : c.active slot.key = []) : ∃ c', c.reserve slot = some c' := by
  have none : (c.cleaned slot.reserved).slots = [] := by rw [cleaned, idle]; rfl
  have used : (c.cleaned slot.reserved).used slot.key = 0 := by
    change (c.active slot.key).length + ((c.cleaned slot.reserved).slots.filter _).length = 0
    rw [fresh, none]
    rfl
  have least := slot.window.bounds.1
  have room : ¬slot.window.size ≤ ((c.cleaned slot.reserved).used slot.key : Int) := by
    rw [used]
    simp only [defaultWindow] at least
    omega
  rw [reserve, free, Option.any_none, if_neg (by simp), if_neg room, checked,
    if_pos (granted_valid (cleaned_valid slot.reserved valid) none slot)]
  exact ⟨_, rfl⟩

theorem requireNoLiveReservation_idle (intact : Intact names task c) {at_ : Stamp}
    (idle : allowed (requireNoLiveReservation task at_.text) = true) : ∃ next,
    requireNoLiveReservation task at_.text = .ok next ∧ Intact names next (c.cleaned at_) ∧ (c.cleaned at_).slots = [] := by
  obtain ⟨next, passed⟩ := allowed_iff.mp idle
  refine ⟨next, passed, ?_⟩
  obtain ⟨⟨cleanedTask, count⟩, cleaning, stands⟩ := cleanupExpired_intact at_ intact
  unfold requireNoLiveReservation at passed
  rw [cleaning, ok_bind] at passed
  obtain ⟨empty, same⟩ := raiseIf_bind_ok.mp passed
  rw [pure_eq_ok] at same
  subst same
  refine ⟨stands, ?_⟩
  rcases stands with ⟨-, blank⟩ | ⟨present, -⟩
  · rw [blank]
  · rw [present, Json.get_obj, Circuit.reservations_record] at empty
    simpa [Json.isObj, Json.items] using empty

end Typed

/-- A launch is refused because the window of its series is used up. -/
def RefusedOpen (x : Outcome (Meta × String)) : Prop :=
  x = .error (.error "RETRY_CIRCUIT_OPEN: repeated no-progress attempts require retry-circuit recovery") ∨
    x = .error (.error "RETRY_CIRCUIT_OPEN: retry window is fully reserved")

/-- The owner's exception recovers the series at the current revision, and right afterwards any
proper launch of it is granted. -/
def Reopens (task : Meta) (owner identity at_ : String) : Prop :=
  ∀ reason, reasonValid (.str reason) = true →
    ∃ result, apply task owner (Meta.revision task) identity "retry-exception" reason at_ = .ok result ∧
      ∀ (window : Window) (id : String) (started finished : Stamp), isReservation id = true →
        started.instant < finished.instant →
          allowed (reserve (Authority.advanced result.1 at_) identity window.size id started.text finished.text) = true

/-- The hold on record names the command, and the task's checkpoint is one or none. -/
def HeldFor (task : Meta) (identity : String) : Prop :=
  ((circuit task).get "hold").get "identity" = .str identity ∧
    (task.textOr "checkpoint_commit" = "" ∨ isCommit (task.textOr "checkpoint_commit") = true)

theorem bind_eq_error {α β : Type} {x : Outcome α} {f : α → Outcome β} {fault : Fault} (refused : (x >>= f) = .error fault) :
    x = .error fault ∨ ∃ value, x = .ok value ∧ f value = .error fault := by
  cases x with
  | error other =>
    cases refused
    exact Or.inl rfl
  | ok value => exact Or.inr ⟨value, rfl, refused⟩

theorem raiseIf_eq_error {bad : Bool} {fault other : Fault} (refused : raiseIf bad fault = .error other) :
    other = fault := by
  cases bad with
  | true => exact (Except.error.inj refused).symm
  | false => cases refused

theorem timestamp_eq_error {word field : String} {fault : Fault} (refused : timestamp (.str word) field = .error fault) :
    fault = .error ("retry circuit " ++ field ++ " is invalid") := by
  rw [timestamp] at refused
  cases read : Datetime.aware? word with
  | none =>
    rw [read] at refused
    exact (Except.error.inj refused).symm
  | some instant =>
    rw [read] at refused
    cases refused

theorem windowOf_eq_error {number : Int} {fault : Fault} (refused : windowOf (.int number) = .error fault) :
    fault = .error "retry circuit window must be 3..16" := by
  simp only [windowOf, Json.exactInt?] at refused
  split at refused
  · cases refused
  · exact (Except.error.inj refused).symm

/-- The faults of a request that is not in proper terms. -/
def requestFaults : List Fault :=
  [.error "retry circuit window must be 3..16", .error "retry circuit reservation input is invalid",
    .error "retry circuit reservation expiry is invalid", .error "retry circuit reservation timestamp is invalid"]

/-- A refusal for another reason than its form comes at a readable time. -/
theorem reserve_stamped {task : Meta} {identity id at_ expiresAt : String} {window : Int} {fault : Fault}
    (refused : reserve task identity window id at_ expiresAt = .error fault) (other : fault ∉ requestFaults) :
    ∃ stamp : Stamp, stamp.text = at_ := by
  simp only [requestFaults, List.mem_cons, List.not_mem_nil, or_false, not_or] at other
  obtain ⟨notWindow, notInput, notExpiry, notTimestamp⟩ := other
  unfold reserve valueError at refused
  rcases bind_eq_error refused with bad | ⟨_, -, refused⟩
  · exact absurd (windowOf_eq_error bad) notWindow
  rcases bind_eq_error refused with bad | ⟨_, -, refused⟩
  · exact absurd (raiseIf_eq_error bad) notInput
  rcases bind_eq_error refused with bad | ⟨_, -, refused⟩
  · exact absurd (timestamp_eq_error bad) notExpiry
  rcases bind_eq_error refused with bad | ⟨_, read, -⟩
  · exact absurd (timestamp_eq_error bad) notTimestamp
  · obtain ⟨stamp, text, -⟩ := timestamp_eq_ok read
    exact ⟨stamp, text⟩

theorem RefusedOpen.stamped {task : Meta} {identity id at_ expiresAt : String} {window : Int}
    (refused : RefusedOpen (reserve task identity window id at_ expiresAt)) : ∃ stamp : Stamp, stamp.text = at_ := by
  rcases refused with refused | refused
  · exact reserve_stamped refused (by decide)
  · exact reserve_stamped refused (by decide)

section Reopening

variable {task : Meta} {c : Circuit Series} {owner identity : String} {at_ : Stamp}

theorem heldFor_iff (kept : Kept (.refl _) task c) : ((circuit task).get "hold").get "identity" = .str identity ↔
    ∃ h ∈ c.hold, h.key.identity = identity := by
  rw [kept.hold]
  cases c.hold with
  | none => simp [holdRecord, Json.get, Json.fields, Dict.get, Dict.find]
  | some h => simp [holdRecord, Hold.record, Dict.get, Dict.find]

theorem apply_idle (tracked : Tracked (.refl _) task c) (owned : task.get "owner" = .str owner)
    (working : task.get "status" = .str "in_progress") {next : Meta}
    (idle : requireNoLiveReservation task at_.text = .ok next) (action reason : String) :
    apply task owner (Meta.revision task) identity action reason at_.text = recover next identity action reason at_.text := by
  obtain ⟨number, -, current⟩ := tracked.numbered
  have known : Meta.revision task = number := by rw [Meta.revision, current]; rfl
  have mine : (task.get "owner" != .str owner || task.get "status" != .str "in_progress") = false := by
    rw [owned, working]
    simp [bne]
  have fence : (task.get "task_revision" != .int (Meta.revision task)) = false := by
    rw [current, known, bne, Bool.not_eq_false', Json.beq_int_int]
  rw [apply, requireOwner, requireRevision, mine, fence, raiseIf_false, raiseIf_false, idle, ok_bind]

/-- The exact hold and a proper checkpoint are all that the recovery asks for, and it starts the
series afresh. -/
theorem reopens_of_held (tracked : Tracked (.refl _) task c) (owned : task.get "owner" = .str owner)
    (working : task.get "status" = .str "in_progress")
    (idle : allowed (requireNoLiveReservation task at_.text) = true) (held : HeldFor task identity) :
    Reopens task owner identity at_.text := by
  intro reason explained
  obtain ⟨next, passed, stands, none⟩ := requireNoLiveReservation_idle tracked.intact idle
  have frame : Within ["retry_circuit"] task next := requireNoLiveReservation_within task at_.text _ passed
  obtain ⟨h, standing, rfl⟩ := (heldFor_iff tracked.intact.kept).mp held.1
  have valid : c.Valid := by
    rcases tracked.intact.kept.fine with rfl | valid
    · cases standing
    · exact valid
  let recovery : Recovery Series := ⟨seriesOf task h.key.identity h.key.named, "retry-exception", Text.strip reason,
    Meta.revision task, at_.text, task.textOr "checkpoint_commit", by decide, reasonValid_strip explained, at_.text_ne,
    held.2⟩
  have fits : recovery.Of (.refl _) next reason :=
    ⟨(progressDigest_within frame).symm, (revision_within frame).symm, (frame.textOr (by simp)).symm, rfl, explained⟩
  have mirrors := recover_mirrors stands recovery fits
  have cleanedValid := Circuit.cleaned_valid at_ valid
  have recovered : ((c.cleaned at_).recovered recovery).Valid :=
    Circuit.recovered_valid cleanedValid (valid.attempts_ne standing) tracked.positive tracked.recoveries
  have named : (c.cleaned at_).hold.all (fun other => other.key.identity ≠ recovery.key.identity) = false := by
    change c.hold.all _ = false
    rw [Option.mem_def.mp standing]
    simp [recovery, seriesOf]
  have exception : (recovery.kind == "checkpoint") = false := by simp [recovery]
  change Mirrors _ _ (if (c.cleaned at_).hold.all (fun other => other.key.identity ≠ recovery.key.identity) then _
    else if recovery.kind == "checkpoint" && _ then _ else _) at mirrors
  rw [named, exception] at mirrors
  change Mirrors _ _ (Circuit.checked _) at mirrors
  rw [Circuit.checked, if_pos recovered] at mirrors
  obtain ⟨result, done, after⟩ := mirrors.accepted
  refine ⟨result, (apply_idle tracked owned working passed _ _).trans done, ?_⟩
  intro window id started finished slotNamed later
  have recoverFrame : Within ["retry_circuit"] next result.1 :=
    retryRecover_within next (within_refl _ next) _ _ _ _ _ done
  have progress : recovery.key.progress = progressDigest (Authority.advanced result.1 at_.text) := by
    rw [progressDigest_advanced, progressDigest_within recoverFrame, progressDigest_within frame]
    rfl
  let slot : Slot Series := ⟨id, recovery.key, window, Meta.revision (Authority.advanced result.1 at_.text), started,
    finished, slotNamed, later⟩
  have launch := reserve_mirrors (after.of_circuit _ (circuit_advanced result.1 at_.text)) slot progress rfl
  have older : ∀ a ∈ (c.cleaned at_).attempts, a.revision < recovery.revision := tracked.attempts
  have afresh : ((c.cleaned at_).recovered recovery).active slot.key = [] := Circuit.active_recovered older
  obtain ⟨c', granted⟩ := Circuit.reserve_afresh recovered none rfl afresh
  rw [granted] at launch
  obtain ⟨reserved, accepted, -⟩ := launch.accepted
  exact allowed_iff.mpr ⟨reserved, accepted⟩

/-- The recovery is accepted only for the hold on record. -/
theorem held_of_reopens (tracked : Tracked (.refl _) task c) (owned : task.get "owner" = .str owner)
    (working : task.get "status" = .str "in_progress")
    (idle : allowed (requireNoLiveReservation task at_.text) = true) (reopens : Reopens task owner identity at_.text) :
    HeldFor task identity := by
  obtain ⟨next, passed, stands, -⟩ := requireNoLiveReservation_idle tracked.intact idle
  have frame : Within ["retry_circuit"] task next := requireNoLiveReservation_within task at_.text _ passed
  obtain ⟨result, applied, -⟩ := reopens "Retry." (by decide)
  rw [apply_idle tracked owned working passed] at applied
  obtain ⟨recovery, rfl, kind, stamped, fits⟩ := recover_inputs stands.kept applied
  have mirrors := recover_mirrors stands recovery fits
  rw [kind, stamped] at mirrors
  obtain ⟨c', recovered, -⟩ := mirrors.intact applied
  rw [← kind] at recovered
  obtain ⟨held, -, -⟩ := recovered_cases recovered
  refine ⟨(heldFor_iff tracked.intact.kept).mpr held, ?_⟩
  rw [← frame.textOr (by simp), ← fits.checkpoint]
  exact recovery.committed

end Reopening

/-- In every state that a run reaches: when a launch is refused because its window is used up and
no slot is live, the owner's exception opens the series again exactly when the hold on record is
held for the same command. -/
theorem reopens_iff {start : Meta} (fresh : Fresh start) (events : List Event) {owner identity id at_ expiresAt : String}
    {window : Int} (owned : (Run.final step start events).get "owner" = .str owner)
    (working : (Run.final step start events).get "status" = .str "in_progress")
    (refused : RefusedOpen (reserve (Run.final step start events) identity window id at_ expiresAt))
    (idle : allowed (requireNoLiveReservation (Run.final step start events) at_) = true) :
    Reopens (Run.final step start events) owner identity at_ ↔ HeldFor (Run.final step start events) identity := by
  obtain ⟨c, tracked⟩ := run_tracked fresh events
  obtain ⟨stamp, rfl⟩ := refused.stamped
  exact ⟨held_of_reopens tracked owned working idle, reopens_of_held tracked owned working idle⟩

section Refusals

variable {K : Type} [DecidableEq K] {names : K ↪ Series} {task : Meta} {c : Circuit K}

/-- A launch whose series has no room left is refused for it, hold or not. -/
theorem refusedOpen_of_full (intact : Intact names task c) (slot : Slot K)
    (bound : (names slot.key).progress = progressDigest task) (fenced : slot.revision = Meta.revision task)
    (full : slot.window.size ≤ ((c.cleaned slot.reserved).used slot.key : Int)) :
    RefusedOpen (reserve task (names slot.key).identity slot.window.size slot.id slot.reserved.text slot.expires.text) := by
  obtain ⟨next, note, computed⟩ := reserve_eq intact slot bound fenced
  rw [computed, decide_eq_true full]
  cases c.hold.any (fun h => h.key = slot.key) with
  | true => exact Or.inl rfl
  | false => exact Or.inr rfl

theorem requireNoLiveReservation_of_none (intact : Intact names task c) (at_ : Stamp) (none : c.slots = []) :
    allowed (requireNoLiveReservation task at_.text) = true := by
  obtain ⟨⟨next, count⟩, cleaning, stands⟩ := cleanupExpired_intact at_ intact
  have cleared : (c.cleaned at_).slots = [] := by rw [Circuit.cleaned, none]; rfl
  have idle : ((circuit next).get "reservations").items = [] := by
    rw [stands.kept.reservations, cleared]
    rfl
  unfold requireNoLiveReservation
  rw [cleaning, ok_bind]
  simp [idle, allowed, raiseIf, Pure.pure, Except.pure, ok_bind]

end Refusals

/-- Two series fail to the end of their windows, one after the other. -/
def exhausted (key : Fin 64) : List (Act (Fin 64)) :=
  [.reserve key window3, .fail key, .reserve key window3, .fail key, .reserve key window3, .fail key]

def wedgedTask : Meta := Run.final step retrySample ((exhausted 0 ++ exhausted 1).map (Act.event sampleNames))

theorem wedged_reached : ∃ c, Staged sampleNames wedgedTask 13 c ∧ c.slots = [] ∧ (c.active 0).length = 3 ∧
    (c.active 1).length = 3 ∧ ∃ h, c.hold = some h ∧ h.key = 1 := by
  have played : (playAll ({} : Circuit (Fin 64)) 1 (exhausted 0 ++ exhausted 1)).any (fun c => c.slots.isEmpty &&
      decide ((c.active 0).length = 3) && decide ((c.active 1).length = 3) && c.hold.any fun h => decide (h.key = 1)) = true := by
    decide +kernel
  obtain ⟨c, reached, found⟩ := (Option.any_eq_true _ _).mp played
  simp only [Bool.and_eq_true, List.isEmpty_iff, decide_eq_true_eq, Option.any_eq_true] at found
  obtain ⟨⟨⟨none, first⟩, second⟩, h, standing, key⟩ := found
  exact ⟨c, retrySample_staged.playAll _ reached, none, first, second, h, standing, key⟩

/-- The launch of the first series once more. -/
def wedgedLaunch : Outcome (Meta × String) :=
  reserve wedgedTask (identityOf 0) 3 Act.slotId Act.started.text Act.finished.text

theorem wedgedLaunch_refused : RefusedOpen wedgedLaunch := by
  obtain ⟨c, staged, none, first, -, -⟩ := wedged_reached
  have full : (Act.slot 13 0 window3).window.size ≤
      ((c.cleaned (Act.slot 13 (0 : Fin 64) window3).reserved).used 0 : Int) := by
    change (3 : Int) ≤ ((c.active 0).length + _ : Nat)
    omega
  exact refusedOpen_of_full staged.tracked.intact (Act.slot 13 0 window3) (staged.progress 0) staged.current.symm full

theorem wedgedTask_idle : allowed (requireNoLiveReservation wedgedTask Act.started.text) = true := by
  obtain ⟨c, staged, none, -⟩ := wedged_reached
  exact requireNoLiveReservation_of_none staged.tracked.intact Act.started none

theorem wedgedTask_held : ¬HeldFor wedgedTask (identityOf 0) := by
  obtain ⟨c, staged, -, -, -, h, standing, key⟩ := wedged_reached
  rintro ⟨named, -⟩
  rw [staged.tracked.intact.kept.hold, standing] at named
  have identity : (holdRecord sampleNames (some h)).get "identity" = .str (identityOf h.key) := by
    simp [holdRecord, Hold.record, Dict.get, Dict.find, sampleNames, seriesOf]
  rw [identity, key, Json.str.injEq] at named
  exact absurd (identityOf_injective named) (by decide)

theorem wedgedTask_owned :
    wedgedTask.get "owner" = .str "worker-1" ∧ wedgedTask.get "status" = .str "in_progress" := by
  obtain ⟨c, staged, -⟩ := wedged_reached
  exact ⟨staged.owned, staged.working⟩

theorem reopens_wedged :
    Reopens wedgedTask "worker-1" (identityOf 0) Act.started.text ↔ HeldFor wedgedTask (identityOf 0) :=
  reopens_iff retrySample_fresh _ wedgedTask_owned.1 wedgedTask_owned.2 wedgedLaunch_refused wedgedTask_idle

/-- The hold of the second series has replaced that of the first, which nothing opens any more. -/
theorem wedged_series : RefusedOpen wedgedLaunch ∧
    allowed (requireNoLiveReservation wedgedTask Act.started.text) = true ∧
    ¬Reopens wedgedTask "worker-1" (identityOf 0) Act.started.text := by
  obtain ⟨c, tracked⟩ := run_tracked retrySample_fresh ((exhausted 0 ++ exhausted 1).map (Act.event sampleNames))
  refine ⟨wedgedLaunch_refused, wedgedTask_idle, fun reopens => wedgedTask_held ?_⟩
  exact held_of_reopens tracked wedgedTask_owned.1 wedgedTask_owned.2 wedgedTask_idle reopens

end Coordinator.RetryCircuit
