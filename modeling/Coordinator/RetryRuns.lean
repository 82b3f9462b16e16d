import Coordinator.Kit.Run
import Coordinator.RetrySeries
import Coordinator.Revision

/-! Runs of the retry circuit of one task: launches reserve slots, end in success or failure, are
abandoned when they elapse, and held series are recovered. Any other accepted mutation of the
task may come in between and write whatever it likes beside the circuit. -/

namespace Coordinator.RetryCircuit
open Kit Dict Transitions

inductive Operation where
  | reserve (slot : SlotRequest)
  | resolve (identity reservationId : String) (failure : Option String)
  | recover (identity kind reason : String)
  | abandon
  | other (record : Meta)

structure Event where
  operation : Operation
  recordedAt : String

/-- What the operation makes of the task before its revision advances. -/
def Operation.effect (task : Meta) (at_ : String) : Operation → Outcome Meta
  | .reserve slot => return (← RetryCircuit.reserve task slot.identity slot.window slot.reservation at_ slot.expiresAt).1
  | .resolve identity reservationId failure => return (← RetryCircuit.resolve task identity reservationId failure at_).1
  | .recover identity kind reason => return (← RetryCircuit.recover task identity kind reason at_).1
  | .abandon => return (← cleanupExpired task at_).1
  | .other record =>
      return (record.set "retry_circuit" (circuit task)).set "task_revision" (.int (Meta.revision task))

/-- A refused operation leaves the task as it was. -/
def step (task : Meta) (event : Event) : Meta :=
  match event.operation.effect task event.recordedAt with
  | .ok next => Authority.advanced next event.recordedAt
  | .error _ => task

/-- A task at a proper revision that has not met the circuit yet. -/
def Fresh (task : Meta) : Prop := circuit task = .null ∧ ∃ number : Int, 1 ≤ number ∧ task.get "task_revision" = .int number

theorem isDigest_progressDigest (task : Meta) : Text.isDigest (progressDigest task) = true :=
  Sha256.isDigest_hexdigest _

/-- The series of a command at the present progress of the task. -/
def seriesOf (task : Meta) (identity : String) (named : Text.isDigest identity = true) : Series :=
  ⟨identity, progressDigest task, named, isDigest_progressDigest task⟩

section Cases

variable {K : Type}

/-- Cleaning takes slots away and leaves the series alone. -/
structure Circuit.Shrinks (c c' : Circuit K) : Prop where
  attempts : c'.attempts = c.attempts
  recoveries : c'.recoveries = c.recoveries
  hold : c'.hold = c.hold
  slots : c'.slots.Sublist c.slots

theorem Circuit.cleaned_shrinks (c : Circuit K) (at_ : Stamp) : c.Shrinks (c.cleaned at_) :=
  ⟨rfl, rfl, rfl, List.filter_sublist⟩

variable [DecidableEq K] (names : K ↪ Series)

/-- The command line of a launch slot. -/
def Slot.request (slot : Slot K) : SlotRequest :=
  ⟨(names slot.key).identity, slot.window.size, slot.id, slot.expires.text⟩

/-- What an accepted operation is given and what it makes of the circuit. -/
inductive Accepted (task : Meta) (c : Circuit K) : Event → Circuit K → Prop where
  | other (record : Meta) (at_ : String) : Accepted task c ⟨.other record, at_⟩ c
  | abandoned {at_ : String} {c' : Circuit K} (shrinks : c.Shrinks c') : Accepted task c ⟨.abandon, at_⟩ c'
  | reserved {slot : Slot K} {c' : Circuit K} (progress : (names slot.key).progress = progressDigest task)
      (revision : slot.revision = Meta.revision task) (result : c.reserve slot = some c') :
      Accepted task c ⟨.reserve (slot.request names), slot.reserved.text⟩ c'
  | settled {slot : Slot K} {outcome : Option (Attempt K)} {at_ : String} {c' : Circuit K} (member : slot ∈ c.slots)
      (fits : ∀ attempt ∈ outcome, attempt.Of names task slot at_) (result : c.settle slot.id outcome = some c') :
      Accepted task c ⟨.resolve (names slot.key).identity slot.id (outcome.map (·.failure)), at_⟩ c'
  | recovered {recovery : Recovery K} {reason : String} (fits : recovery.Of names task reason)
      (held : ∃ h ∈ c.hold, (names h.key).identity = (names recovery.key).identity) (valid : (c.recovered recovery).Valid) :
      Accepted task c ⟨.recover (names recovery.key).identity recovery.kind reason, recovery.recordedAt⟩ (c.recovered recovery)

/-- An accepted operation with the task that it leaves. -/
structure Stepped (task : Meta) (c : Circuit K) (event : Event) (next : Meta) (c' : Circuit K) : Prop where
  accepted : Accepted names task c event c'
  intact : Intact names next c'
  revision : next.get "task_revision" = .int (Meta.revision task + 1)
  progress : c' = c ∨ progressDigest next = progressDigest task

/-- The task keeps the circuit, and what the circuit records is older than the task's revision. -/
structure Tracked (task : Meta) (c : Circuit K) : Prop where
  intact : Intact names task c
  numbered : ∃ number : Int, 1 ≤ number ∧ task.get "task_revision" = .int number
  attempts : ∀ a ∈ c.attempts, a.revision < Meta.revision task
  recoveries : ∀ r ∈ c.recoveries, r.revision < Meta.revision task
  slots : ∀ s ∈ c.slots, s.revision < Meta.revision task
  bare : c.attempts = [] → c.recoveries = []
  bound : ∀ s ∈ c.slots, s.revision + 1 = Meta.revision task → (names s.key).progress = progressDigest task

end Cases

theorem mem_dropWhile {α : Type} {p : α → Bool} {l : List α} {x : α} (member : x ∈ l) (other : p x = false) :
    x ∈ l.dropWhile p := by
  induction l with
  | nil => cases member
  | cons head rest ih =>
    rw [List.dropWhile_cons]
    split
    · rename_i passes
      rcases List.mem_cons.mp member with rfl | later
      · rw [other] at passes
        cases passes
      · exact ih later
    · exact member

theorem reasonValid_strip {reason : String} (valid : reasonValid (.str reason) = true) :
    reasonValid (.str (Text.strip reason)) = true := by
  simp only [reasonValid, Json.isStr, Json.text, Text.isBlank, Text.characters_eq, Text.contains, Bool.true_and, Bool.and_eq_true,
    Bool.not_eq_true', List.all_eq_false] at valid ⊢
  obtain ⟨⟨⟨c, member, other⟩, short⟩, flat⟩ := valid
  have sub : (Text.strip reason).toList.Sublist reason.toList := by
    rw [Text.strip, String.toList_ofList, ← List.reverse_sublist, List.reverse_reverse]
    exact (List.dropWhile_sublist _).trans (List.reverse_sublist.mpr (List.dropWhile_sublist _))
  rw [Bool.not_eq_true] at other
  refine ⟨⟨⟨c, ?_, by simp [other]⟩, ?_⟩, ?_⟩
  · rw [Text.strip, String.toList_ofList, List.mem_reverse]
    exact mem_dropWhile (List.mem_reverse.mpr (mem_dropWhile member other)) other
  · have shorter := sub.length_le
    rw [String.length_toList, String.length_toList] at shorter
    exact decide_eq_true (shorter.trans (of_decide_eq_true short))
  · cases broken : (Text.strip reason).toList.contains '\n' with
    | false => rfl
    | true =>
      have inside := List.contains_iff_mem.mpr (sub.subset (List.contains_iff_mem.mp broken))
      rw [inside] at flat
      cases flat

theorem validateSeries_mem {check : Json → Int → Outcome Int} {item : Json} : ∀ {items : List Json} {previous : Int},
    validateSeries check items previous = .ok () → item ∈ items → ∃ before number, check item before = .ok number := by
  intro items
  induction items with
  | nil =>
    intro _ _ member
    cases member
  | cons head rest ih =>
    intro previous passed member
    obtain ⟨current, first, later⟩ := bind_eq_ok.mp passed
    rcases List.mem_cons.mp member with rfl | inside
    · exact ⟨previous, current, first⟩
    · exact ih later inside

theorem validate_recovery {value item : Json} (passed : validate value = .ok ())
    (member : item ∈ (value.get "recoveries").items) : ∃ before number, validateRecovery item before = .ok number := by
  unfold validate at passed
  iterate 8 replace passed := (bind_eq_ok.mp passed).choose_spec.2
  obtain ⟨_, series, _⟩ := bind_eq_ok.mp passed
  exact validateSeries_mem series member

theorem validateRecovery_committed {item : Json} {before number : Int}
    (checked : validateRecovery item before = .ok number) :
    (item.get "checkpoint_commit").text = "" ∨ isCommit (item.get "checkpoint_commit").text = true := by
  unfold validateRecovery valueError at checked
  obtain ⟨-, checked⟩ := raiseIf_bind_ok.mp checked
  obtain ⟨shape, -⟩ := raiseIf_bind_ok.mp checked
  have last := (Bool.or_eq_false_iff.mp shape).2
  simpa only [Bool.and_eq_false_iff, bne_eq_false_iff_eq, Bool.not_eq_false'] using last

theorem mem_lastOf_append (count : Nat) (items : List Json) (item : Json) :
    item ∈ AutonomyLimits.lastOf (count + 1) (items ++ [item]) := by
  have few : (items ++ [item]).length - (count + 1) ≤ items.length := by
    rw [List.length_append, List.length_singleton]
    omega
  rw [AutonomyLimits.lastOf, List.drop_append_of_le_length few]
  exact List.mem_append_right _ (List.mem_singleton_self item)

section Inputs

variable {task : Meta}

/-- An accepted reservation asked for a slot of the present series in proper terms. -/
theorem reserve_inputs {identity id at_ expiresAt : String} {window : Int} {result : Meta × String}
    (accepted : reserve task identity window id at_ expiresAt = .ok result) :
    ∃ slot : Slot Series, slot.request (.refl _) = ⟨identity, window, id, expiresAt⟩ ∧ slot.reserved.text = at_ ∧
      slot.key.progress = progressDigest task ∧ slot.revision = Meta.revision task := by
  unfold reserve valueError at accepted
  obtain ⟨threshold, sized, accepted⟩ := bind_eq_ok.mp accepted
  obtain ⟨proper, accepted⟩ := raiseIf_bind_ok.mp accepted
  obtain ⟨expires, readExpires, accepted⟩ := bind_eq_ok.mp accepted
  obtain ⟨reserved, readReserved, accepted⟩ := bind_eq_ok.mp accepted
  obtain ⟨later, -⟩ := raiseIf_bind_ok.mp accepted
  obtain ⟨w, rfl, -⟩ := windowOf_eq_ok sized
  obtain ⟨expiry, rfl, rfl⟩ := timestamp_eq_ok readExpires
  obtain ⟨start, rfl, rfl⟩ := timestamp_eq_ok readReserved
  simp only [Bool.or_eq_false_iff, Bool.not_eq_false'] at proper
  obtain ⟨⟨named, slotNamed⟩, -⟩ := proper
  exact ⟨⟨id, seriesOf task identity named, w, Meta.revision task, start, expiry, slotNamed,
    by simpa using later⟩, rfl, rfl, rfl, rfl⟩

theorem resolve_inputs {c : Circuit Series} (kept : Kept (.refl _) task c) {identity id at_ : String}
    {failure : Option String} {result : Meta × String} (accepted : resolve task identity id failure at_ = .ok result) :
    ∃ slot ∈ c.slots, slot.key.identity = identity ∧ slot.id = id ∧
      ∃ outcome : Option (Attempt Series), outcome.map (·.failure) = failure ∧
        ∀ attempt ∈ outcome, attempt.Of (.refl _) task slot at_ := by
  unfold resolve at accepted
  rw [kept.state, ok_bind] at accepted
  obtain ⟨selected, found, accepted⟩ := bind_eq_ok.mp accepted
  unfold selectedSlot at found
  rw [Circuit.reservations_record, Json.items, find_record, orRaise_bind_ok] at found
  obtain ⟨item, located, checked⟩ := found
  obtain ⟨slot, first, rfl⟩ := Option.map_eq_some_iff.mp located
  obtain ⟨owned, same⟩ := raiseIf_bind_ok.mp checked
  rw [pure_eq_ok] at same
  subst same
  rw [bne, Bool.not_eq_false', Slot.identity_record, Json.str_beq_str, beq_iff_eq] at owned
  have named : slot.id = id := by simpa using List.find?_some first
  refine ⟨slot, List.mem_of_find?_eq_some first, owned, named, ?_⟩
  cases failure with
  | none => exact ⟨none, rfl, fun attempt absent => by cases absent⟩
  | some failure =>
    simp only at accepted
    unfold recordFailure valueError at accepted
    obtain ⟨proper, -⟩ := raiseIf_bind_ok.mp accepted
    simp only [Bool.or_eq_false_iff, Bool.not_eq_false', beq_eq_false_iff_ne] at proper
    obtain ⟨⟨known, -⟩, stamped⟩ := proper
    refine ⟨some ⟨seriesOf task slot.key.identity slot.key.named, failure, Meta.revision task, at_, slot.window,
      List.contains_iff_mem.mp known, stamped⟩, rfl, ?_⟩
    rintro attempt ⟨⟩
    exact ⟨rfl, rfl, rfl, rfl, rfl⟩

theorem recover_inputs {c : Circuit Series} (kept : Kept (.refl _) task c) {identity kind reason at_ : String}
    {result : Meta × String} (accepted : recover task identity kind reason at_ = .ok result) :
    ∃ recovery : Recovery Series, recovery.key.identity = identity ∧ recovery.kind = kind ∧
      recovery.recordedAt = at_ ∧ recovery.Of (.refl _) task reason := by
  unfold recover valueError at accepted
  obtain ⟨proper, accepted⟩ := raiseIf_bind_ok.mp accepted
  rw [kept.state, ok_bind] at accepted
  obtain ⟨-, accepted⟩ := raiseIf_bind_ok.mp accepted
  obtain ⟨-, accepted⟩ := raiseIf_bind_ok.mp accepted
  obtain ⟨explained, accepted⟩ := raiseIf_bind_ok.mp accepted
  obtain ⟨_, passed, -⟩ := bind_eq_ok.mp accepted
  simp only [Bool.or_eq_false_iff, Bool.not_eq_false', beq_eq_false_iff_ne] at proper explained
  obtain ⟨⟨known, named⟩, stamped⟩ := proper
  let item : Json := .obj [("identity", .str identity), ("progress_digest", .str (progressDigest task)),
    ("kind", .str kind), ("reason", .str (Text.strip reason)), ("task_revision", .int (Meta.revision task)),
    ("recorded_at", .str at_), ("checkpoint_commit", .str (task.textOr "checkpoint_commit"))]
  have member : item ∈ ((Json.obj ((((c.record (.refl _)).set "recoveries" (.arr (AutonomyLimits.lastOf maxRecoveries
      (((c.record (.refl _)).get "recoveries").items ++ [item])))).set "hold" .null))).get "recoveries").items := by
    rw [Json.get_obj, Dict.get_set, if_neg (by decide), Dict.get_set, if_pos rfl]
    exact mem_lastOf_append 31 _ item
  obtain ⟨before, number, checked⟩ := validate_recovery passed member
  have committed := validateRecovery_committed checked
  have checkpoint : (item.get "checkpoint_commit").text = task.textOr "checkpoint_commit" := rfl
  rw [checkpoint] at committed
  exact ⟨⟨seriesOf task identity named, kind, Text.strip reason, Meta.revision task, at_,
    task.textOr "checkpoint_commit", List.contains_iff_mem.mp known, reasonValid_strip explained, stamped, committed⟩,
    rfl, rfl, rfl, rfl, rfl, rfl, rfl, explained⟩

end Inputs

theorem circuit_advanced (task : Meta) (at_ : String) : circuit (Authority.advanced task at_) = circuit task :=
  Authority.advanced_get (by decide)

theorem progressDigest_advanced (task : Meta) (at_ : String) :
    progressDigest (Authority.advanced task at_) = progressDigest task := by
  simp only [progressDigest, (Authority.advanced_within task at_).textOr (by decide : "checkpoint_commit" ∉ _),
    Authority.advanced_get (by decide : "change_drift" ∉ _), Authority.advanced_get (by decide : "spec_acceptance" ∉ _)]

section Steps

variable {K : Type} [DecidableEq K] {names : K ↪ Series} {task next : Meta} {c c' : Circuit K}

theorem Stepped.of_within {event : Event} {after : Meta} (accepted : Accepted names task c event c')
    (intact : Intact names after c') (frame : Within ["retry_circuit"] task after) (at_ : String) :
    Stepped names task c event (Authority.advanced after at_) c' :=
  ⟨accepted, intact.of_circuit names (circuit_advanced after at_), by
    rw [Authority.advanced_revision, revision_within frame],
    Or.inr ((progressDigest_advanced after at_).trans (progressDigest_within frame))⟩

theorem recovered_cases {recovery : Recovery K}
    (recovered : (if c.hold.all (fun h => (names h.key).identity ≠ (names recovery.key).identity) then none
      else if recovery.kind == "checkpoint" && !isCommit recovery.checkpoint then none
      else (c.recovered recovery).checked) = some c') :
    (∃ h ∈ c.hold, (names h.key).identity = (names recovery.key).identity) ∧ (c.recovered recovery).Valid ∧
      c.recovered recovery = c' := by
  split at recovered
  · cases recovered
  · rename_i held
    split at recovered
    · cases recovered
    · rw [Circuit.checked] at recovered
      split at recovered
      · rename_i valid
        refine ⟨?_, valid, Option.some.inj recovered⟩
        cases hold : c.hold with
        | none => simp [hold] at held
        | some h =>
          rw [hold] at held
          exact ⟨h, rfl, by simpa using held⟩
      · cases recovered

theorem abandoned_intact (intact : Intact names task c) {at_ : String} {result : Meta × Nat}
    (cleaning : cleanupExpired task at_ = .ok result) : ∃ c', c.Shrinks c' ∧ Intact names result.1 c' := by
  by_cases read : ∃ stamp : Stamp, stamp.text = at_
  · obtain ⟨stamp, rfl⟩ := read
    obtain ⟨other, done, intactNext⟩ := cleanupExpired_intact stamp intact
    rw [done] at cleaning
    cases cleaning
    exact ⟨_, c.cleaned_shrinks stamp, intactNext⟩
  · refine ⟨c, ⟨rfl, rfl, rfl, List.Sublist.refl _⟩, ?_⟩
    unfold cleanupExpired at cleaning
    rw [intact.kept.state, ok_bind, Circuit.reservations_record, Json.items] at cleaning
    cases slots : c.slots with
    | nil =>
      rw [slots] at cleaning
      cases cleaning
      exact intact
    | cons slot rest =>
      rw [slots, List.map_cons, splitExpired] at cleaning
      obtain ⟨_, split, -⟩ := bind_eq_ok.mp cleaning
      obtain ⟨_, first, -⟩ := bind_eq_ok.mp split
      obtain ⟨_, -, later⟩ := bind_eq_ok.mp first
      obtain ⟨_, recorded, -⟩ := bind_eq_ok.mp later
      obtain ⟨stamp, text, -⟩ := timestamp_eq_ok recorded
      exact absurd ⟨stamp, text⟩ read

end Steps

theorem step_of_refused {task : Meta} {event : Event}
    (refused : ¬allowed (event.operation.effect task event.recordedAt) = true) : step task event = task := by
  unfold step
  cases result : event.operation.effect task event.recordedAt with
  | ok next => exact absurd (by rw [result]; rfl) refused
  | error fault => rfl

/-- An accepted step is one of the accepted operations. -/
theorem step_accepted {task : Meta} {c : Circuit Series} (tracked : Tracked (.refl _) task c) (event : Event)
    (allows : allowed (event.operation.effect task event.recordedAt) = true) :
    ∃ c', Stepped (.refl _) task c event (step task event) c' := by
  obtain ⟨operation, at_⟩ := event
  unfold step
  cases accepted : operation.effect task at_ with
  | error fault =>
    rw [accepted] at allows
    cases allows
  | ok after =>
    cases operation with
    | reserve request =>
      obtain ⟨result, done, same⟩ := bind_eq_ok.mp accepted
      rw [pure_eq_ok] at same
      subst same
      obtain ⟨slot, asked, stamped, progress, revision⟩ := reserve_inputs done
      have mirrors := reserve_mirrors tracked.intact slot progress revision
      obtain ⟨identity, window, reservation, expiresAt⟩ := request
      cases asked
      subst stamped
      obtain ⟨c', granted, intact⟩ := mirrors.intact done
      exact ⟨c', .of_within (.reserved progress revision granted) intact (retryReserve_within task _ _ _ _ _ _ done) _⟩
    | resolve identity id failure =>
      obtain ⟨result, done, same⟩ := bind_eq_ok.mp accepted
      rw [pure_eq_ok] at same
      subst same
      obtain ⟨slot, member, rfl, rfl, outcome, rfl, fits⟩ := resolve_inputs tracked.intact.kept done
      obtain ⟨c', settled, intact⟩ := (resolve_mirrors tracked.intact tracked.bare member _ _ fits).intact done
      exact ⟨c', .of_within (.settled member fits settled) intact (retryResolve_within task _ _ _ _ _ done) _⟩
    | recover identity kind reason =>
      obtain ⟨result, done, same⟩ := bind_eq_ok.mp accepted
      rw [pure_eq_ok] at same
      subst same
      obtain ⟨recovery, rfl, rfl, rfl, fits⟩ := recover_inputs tracked.intact.kept done
      obtain ⟨c', recovered, intact⟩ := (recover_mirrors tracked.intact recovery fits).intact done
      obtain ⟨held, valid, rfl⟩ := recovered_cases recovered
      exact ⟨_, .of_within (.recovered fits held valid) intact (retryRecover_within task (within_refl _ task) _ _ _ _ _ done) _⟩
    | abandon =>
      obtain ⟨result, done, same⟩ := bind_eq_ok.mp accepted
      rw [pure_eq_ok] at same
      subst same
      obtain ⟨c', shrinks, intact⟩ := abandoned_intact tracked.intact done
      exact ⟨c', .of_within (.abandoned shrinks) intact (cleanupExpired_within task _ _ done) _⟩
    | other record =>
      change Except.ok _ = Except.ok after at accepted
      cases accepted
      refine ⟨c, .other record at_, tracked.intact.of_circuit _ ?_, ?_, Or.inl rfl⟩
      · rw [circuit_advanced]
        simp [circuit]
      · rw [Authority.advanced_revision, revision_set_revision]

/-- A step is refused and changes nothing, or it is one of the accepted operations. -/
theorem step_cases {task : Meta} {c : Circuit Series} (tracked : Tracked (.refl _) task c) (event : Event) :
    step task event = task ∨ ∃ c', Stepped (.refl _) task c event (step task event) c' := by
  by_cases accepted : allowed (event.operation.effect task event.recordedAt) = true
  · exact Or.inr (step_accepted tracked event accepted)
  · exact Or.inl (step_of_refused accepted)

section Results

variable {K : Type} {c c' : Circuit K} {names : K ↪ Series} {task next : Meta} {event : Event}

/-- The records of a circuit after an operation were there before or carry the task's revision. -/
structure Grows (names : K ↪ Series) (task : Meta) (c c' : Circuit K) : Prop where
  attempts : ∀ a ∈ c'.attempts, a ∈ c.attempts ∨ a.revision = Meta.revision task
  recoveries : ∀ r ∈ c'.recoveries, r ∈ c.recoveries ∨ r.revision = Meta.revision task
  slots : ∀ s ∈ c'.slots, s ∈ c.slots ∨ s.revision = Meta.revision task ∧ (names s.key).progress = progressDigest task
  bare : (c.attempts = [] → c.recoveries = []) → c'.attempts = [] → c'.recoveries = []

theorem Circuit.Shrinks.grows (shrinks : c.Shrinks c') : Grows names task c c' where
  attempts a member := Or.inl (shrinks.attempts ▸ member)
  recoveries r member := Or.inl (shrinks.recoveries ▸ member)
  slots s member := Or.inl (shrinks.slots.subset member)
  bare before bare := by
    rw [shrinks.recoveries]
    exact before (shrinks.attempts ▸ bare)

theorem Circuit.without_shrinks (c : Circuit K) (id : String) : c.Shrinks (c.without id) :=
  ⟨rfl, rfl, rfl, List.filter_sublist⟩

theorem Circuit.Bounded.without (bounded : c.Bounded) (id : String) : (c.without id).Bounded :=
  ⟨bounded.attemptCount, bounded.recoveryCount, (List.length_filter_le _ _).trans bounded.slotCount,
    bounded.abandonedCount, bounded.attemptOrder, bounded.recoveryOrder,
    bounded.slotsApart.sublist ((List.filter_sublist).map _)⟩

theorem mem_recent_append {R : Type} {count : Nat} {items : List R} {item last : R}
    (member : item ∈ recent count (items ++ [last])) : item ∈ items ∨ item = last := by
  have inside := (recent_sublist count _).subset member
  simpa using inside

variable [DecidableEq K]

theorem checked_eq_some (accepted : c.checked = some c') : c.Valid ∧ c = c' := by
  rw [Circuit.checked] at accepted
  split at accepted
  · rename_i valid
    exact ⟨valid, Option.some.inj accepted⟩
  · cases accepted

theorem reserve_eq_some {slot : Slot K} (accepted : c.reserve slot = some c') :
    (∀ h ∈ c.hold, h.key ≠ slot.key) ∧ ((c.cleaned slot.reserved).used slot.key : Int) < slot.window.size ∧
      c'.Valid ∧ c' = (c.cleaned slot.reserved).granted slot := by
  rw [Circuit.reserve] at accepted
  split at accepted
  · cases accepted
  · rename_i free
    split at accepted
    · cases accepted
    · rename_i room
      obtain ⟨valid, rfl⟩ := checked_eq_some accepted
      refine ⟨fun h held => ?_, by omega, valid, rfl⟩
      intro same
      exact free (by simp [Option.mem_def.mp held, same])

theorem fail_eq_some {attempt : Attempt K} (accepted : c.fail attempt = some c') :
    (∀ last ∈ (c.active attempt.key).getLast?, last.window = attempt.window) ∧ c'.Valid ∧ c' = c.failed attempt := by
  rw [Circuit.fail] at accepted
  split at accepted
  · cases accepted
  · rename_i steady
    obtain ⟨valid, rfl⟩ := checked_eq_some accepted
    refine ⟨fun last final => ?_, valid, rfl⟩
    rw [Option.mem_def.mp final] at steady
    simpa using steady

theorem settle_eq_some {id : String} {outcome : Option (Attempt K)} (accepted : c.settle id outcome = some c') :
    (outcome = none ∧ c.attempts = [] ∧ c' = {}) ∨
      (outcome = none ∧ c.attempts ≠ [] ∧ c'.Valid ∧ c' = c.without id) ∨
      ∃ attempt, outcome = some attempt ∧ (∀ last ∈ (c.active attempt.key).getLast?, last.window = attempt.window) ∧
        c'.Valid ∧ c' = (c.without id).failed attempt := by
  cases outcome with
  | none =>
    rw [Circuit.settle] at accepted
    split at accepted
    · rename_i bare
      exact Or.inl ⟨rfl, List.isEmpty_iff.mp bare, (Option.some.inj accepted).symm⟩
    · rename_i some
      obtain ⟨valid, rfl⟩ := checked_eq_some accepted
      exact Or.inr (Or.inl ⟨rfl, fun bare => some (List.isEmpty_iff.mpr bare), valid, rfl⟩)
  | some attempt =>
    obtain ⟨steady, valid, same⟩ := fail_eq_some accepted
    exact Or.inr (Or.inr ⟨attempt, rfl, steady, valid, same⟩)

/-- A standing hold rests on attempts. -/
theorem Circuit.Valid.attempts_ne (valid : c.Valid) {h : Hold K} (held : c.hold = some h) : c.attempts ≠ [] := by
  intro bare
  have supported := valid.supported h held
  have least := h.window.bounds.1
  rw [Circuit.active, bare] at supported
  simp only [List.filter_nil, List.length_nil, defaultWindow] at supported least
  omega

theorem Accepted.grows (valid : c = {} ∨ c.Valid) (accepted : Accepted names task c event c') :
    Grows names task c c' := by
  cases accepted with
  | other record at_ => exact Circuit.Shrinks.grows ⟨rfl, rfl, rfl, List.Sublist.refl _⟩
  | abandoned shrinks => exact shrinks.grows
  | @reserved slot _ progress revision result =>
    obtain ⟨-, -, -, rfl⟩ := reserve_eq_some result
    have shrunk : Grows names task c (c.cleaned slot.reserved) := (c.cleaned_shrinks slot.reserved).grows
    refine ⟨shrunk.attempts, shrunk.recoveries, ?_, shrunk.bare⟩
    intro s member
    rcases List.mem_append.mp member with old | new
    · exact shrunk.slots s old
    · rw [List.mem_singleton.mp new]
      exact Or.inr ⟨revision, progress⟩
  | @settled slot outcome at_ _ member fits result =>
    rcases settle_eq_some result with ⟨-, -, rfl⟩ | ⟨-, -, -, rfl⟩ | ⟨attempt, rfl, -, -, rfl⟩
    · exact ⟨by simp, by simp, by simp, by simp⟩
    · exact (c.without_shrinks slot.id).grows
    · have shrunk : Grows names task c (c.without slot.id) := (c.without_shrinks slot.id).grows
      refine ⟨?_, shrunk.recoveries, shrunk.slots, ?_⟩
      · intro a inside
        rcases mem_recent_append inside with old | rfl
        · exact Or.inl old
        · exact Or.inr (fits a rfl).revision
      · intro _ bare
        have long := congrArg List.length bare
        simp only [Circuit.failed, recent, List.length_drop, List.length_append, List.length_singleton, maxAttempts,
          List.length_nil] at long
        omega
  | @recovered recovery reason fits held _ =>
    obtain ⟨h, standing, -⟩ := held
    have some : c.attempts ≠ [] := by
      rcases valid with rfl | valid
      · cases standing
      · exact valid.attempts_ne standing
    refine ⟨fun a inside => Or.inl inside, ?_, fun s inside => Or.inl inside, fun _ bare => absurd bare some⟩
    intro r inside
    rcases mem_recent_append inside with old | rfl
    · exact Or.inl old
    · exact Or.inr fits.revision

theorem Stepped.revision_next (stepped : Stepped names task c event next c') :
    Meta.revision next = Meta.revision task + 1 := by
  rw [Meta.revision, stepped.revision]
  rfl

theorem Tracked.positive (tracked : Tracked names task c) : 0 < Meta.revision task := by
  obtain ⟨number, positive, current⟩ := tracked.numbered
  have known : Meta.revision task = number := by rw [Meta.revision, current]; rfl
  omega

theorem Tracked.stepped (tracked : Tracked names task c) (stepped : Stepped names task c event next c') :
    Tracked names next c' := by
  have grows := stepped.accepted.grows tracked.intact.kept.fine
  have later := stepped.revision_next
  obtain ⟨number, positive, current⟩ := tracked.numbered
  have known : Meta.revision task = number := by rw [Meta.revision, current]; rfl
  refine ⟨stepped.intact, ⟨number + 1, by omega, known ▸ stepped.revision⟩, ?_, ?_, ?_, grows.bare tracked.bare, ?_⟩
  · intro a member
    rcases grows.attempts a member with old | new
    · have before := tracked.attempts a old
      omega
    · omega
  · intro r member
    rcases grows.recoveries r member with old | new
    · have before := tracked.recoveries r old
      omega
    · omega
  · intro s member
    rcases grows.slots s member with old | ⟨new, -⟩
    · have before := tracked.slots s old
      omega
    · omega
  · intro s member immediate
    rcases grows.slots s member with old | ⟨new, progress⟩
    · have before := tracked.slots s old
      omega
    · rcases stepped.progress with rfl | same
      · have before := tracked.slots s member
        omega
      · rw [same, progress]

end Results

theorem Fresh.tracked {task : Meta} (fresh : Fresh task) : Tracked (.refl _) task {} :=
  ⟨Intact.none _ fresh.1, fresh.2, by simp, by simp, by simp, fun _ => rfl, by simp⟩

theorem step_tracked {task : Meta} {c : Circuit Series} (tracked : Tracked (.refl _) task c) (event : Event) :
    ∃ c', Tracked (.refl _) (step task event) c' := by
  rcases step_cases tracked event with same | ⟨c', stepped⟩
  · rw [same]
    exact ⟨c, tracked⟩
  · exact ⟨c', tracked.stepped stepped⟩

theorem step_revision_le {task : Meta} {c : Circuit Series} (tracked : Tracked (.refl _) task c) (event : Event) :
    Meta.revision task ≤ Meta.revision (step task event) := by
  rcases step_cases tracked event with same | ⟨c', stepped⟩
  · rw [same]
  · rw [stepped.revision_next]
    omega

/-- Every task that a run reaches keeps a circuit of older records. -/
theorem run_tracked {start : Meta} (fresh : Fresh start) (events : List Event) :
    ∃ c, Tracked (.refl _) (Run.final step start events) c := by
  have keeps : ∀ (task : Meta) (event : Event), (∃ c, Tracked (.refl _) task c) →
      ∃ c, Tracked (.refl _) (step task event) c := fun _ event ⟨_, tracked⟩ => step_tracked tracked event
  exact Run.invariant_always step keeps events ⟨{}, fresh.tracked⟩

end Coordinator.RetryCircuit
