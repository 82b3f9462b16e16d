import Coordinator.RetryRuns

/-! Scripts of launches, failures and recoveries at one progress of a task. A script is played on
typed records, and the run of the code on the task follows it step by step. -/

namespace Coordinator.RetryCircuit
open Kit Dict Transitions

/-- A launch takes the one slot of the script, fails in it, or a held series is recovered. -/
inductive Act (K : Type) where
  | reserve (key : K) (window : Window)
  | fail (key : K)
  | recover (key : K)

namespace Act

def slotId : String := "0123456789abcdef0123456789abcdef"
def started : Stamp := ⟨"2026-01-01T00:00:00+00:00", 63902822400000000, by decide +kernel⟩
def finished : Stamp := ⟨"2026-01-01T01:00:00+00:00", 63902826000000000, by decide +kernel⟩

section acts

variable {K : Type} (revision : Int) (key : K)

def slot (window : Window) : Slot K := ⟨slotId, key, window, revision, started, finished, by decide, by decide⟩

def attempt (window : Window) : Attempt K := ⟨key, "EXIT", revision, started.text, window, by decide, by decide⟩

def recovery : Recovery K :=
  ⟨key, "retry-exception", "Retry.", revision, started.text, "", by decide, by decide, by decide, Or.inl rfl⟩

variable [DecidableEq K] (c : Circuit K)

/-- What the act makes of a circuit at a revision. -/
def play : Act K → Option (Circuit K)
  | reserve key window => c.reserve (slot revision key window)
  | fail key =>
      match c.slots.find? (fun s => s.id = slotId) with
      | some slot => if slot.key = key then c.settle slotId (some (attempt revision key slot.window)) else none
      | none => none
  | recover key =>
      if c.hold.any (fun h => h.key = key) then (c.recovered (recovery revision key)).checked else none

def event (names : K ↪ Series) : Act K → Event
  | reserve key window => ⟨.reserve ⟨(names key).identity, window.size, slotId, finished.text⟩, started.text⟩
  | fail key => ⟨.resolve (names key).identity slotId (some "EXIT"), started.text⟩
  | recover key => ⟨.recover (names key).identity "retry-exception" "Retry.", started.text⟩

end acts

theorem stripped : "Retry." = Text.strip "Retry." := by decide

end Act

/-- Play a script from a revision on; every act advances it. -/
def playAll {K : Type} [DecidableEq K] (c : Circuit K) (revision : Int) : List (Act K) → Option (Circuit K)
  | [] => some c
  | act :: rest => (act.play revision c).bind fun next => playAll next (revision + 1) rest

section Runs

variable {K : Type} [DecidableEq K] {names : K ↪ Series} {task : Meta} {c c' : Circuit K}

/-- The stage of a script: all series are at the progress of an active task without a checkpoint. -/
structure Staged (names : K ↪ Series) (task : Meta) (revision : Int) (c : Circuit K) : Prop where
  tracked : Tracked names task c
  current : Meta.revision task = revision
  progress : ∀ key, (names key).progress = progressDigest task
  checkpoint : task.textOr "checkpoint_commit" = ""
  owned : task.get "owner" = .str "worker-1"
  working : task.get "status" = .str "in_progress"

theorem Staged.attempt_of {revision : Int} (staged : Staged names task revision c) (slot : Slot K) :
    (Act.attempt revision slot.key slot.window).Of names task slot Act.started.text :=
  ⟨rfl, staged.progress slot.key, staged.current.symm, rfl, rfl⟩

theorem step_of_effect {event : Event} {after : Meta} (accepted : event.operation.effect task event.recordedAt = .ok after) :
    step task event = Authority.advanced after event.recordedAt := by
  rw [step, accepted]

theorem Staged.step {revision : Int} (staged : Staged names task revision c) (event : Event) {after : Meta}
    (accepted : event.operation.effect task event.recordedAt = .ok after) (stands : Accepted names task c event c')
    (intact : Intact names after c') (frame : Within ["retry_circuit"] task after) :
    Staged names (RetryCircuit.step task event) (revision + 1) c' := by
  rw [step_of_effect accepted]
  refine ⟨staged.tracked.stepped (.of_within stands intact frame event.recordedAt), ?_, fun key => ?_, ?_, ?_, ?_⟩
  · rw [Authority.revision_advanced, revision_within frame, staged.current]
  · rw [progressDigest_advanced, progressDigest_within frame]
    exact staged.progress key
  · rw [(Authority.advanced_within after event.recordedAt).textOr (by decide), frame.textOr (by simp)]
    exact staged.checkpoint
  · rw [Authority.advanced_get (by decide), frame.get (by simp)]
    exact staged.owned
  · rw [Authority.advanced_get (by decide), frame.get (by simp)]
    exact staged.working

theorem Staged.play {revision : Int} (staged : Staged names task revision c) (act : Act K)
    (played : act.play revision c = some c') :
    Staged names (RetryCircuit.step task (act.event names)) (revision + 1) c' := by
  have intact := staged.tracked.intact
  have current := staged.current
  subst current
  cases act with
  | reserve key window =>
    have mirrors := reserve_mirrors intact (Act.slot (Meta.revision task) key window) (staged.progress key) rfl
    change c.reserve _ = some c' at played
    rw [played] at mirrors
    obtain ⟨result, reserved, stands⟩ := mirrors.accepted
    have accepted : ((Act.reserve key window).event names).operation.effect task
        ((Act.reserve key window).event names).recordedAt = .ok result.1 := bind_eq_ok.mpr ⟨result, reserved, rfl⟩
    exact staged.step _ accepted (.reserved (staged.progress key) rfl played) stands
      (retryReserve_within task _ _ _ _ _ _ reserved)
  | fail key =>
    change (match c.slots.find? _ with | some slot => _ | none => _) = some c' at played
    cases found : c.slots.find? (fun s => s.id = Act.slotId) with
    | none => rw [found] at played; cases played
    | some slot =>
      rw [found] at played
      have member := List.mem_of_find?_eq_some found
      have named : slot.id = Act.slotId := by simpa using List.find?_some found
      simp only at played
      split at played
      · rename_i same
        subst same
        have fits : ∀ attempt ∈ some (Act.attempt (Meta.revision task) slot.key slot.window),
            attempt.Of names task slot Act.started.text := by
          rintro attempt ⟨⟩
          exact staged.attempt_of slot
        have mirrors := resolve_mirrors intact staged.tracked.bare member _ _ fits
        rw [← named] at played
        rw [played] at mirrors
        obtain ⟨result, resolved, stands⟩ := mirrors.accepted
        have accepted : Operation.effect task Act.started.text
            (.resolve (names slot.key).identity slot.id (some "EXIT")) = .ok result.1 :=
          bind_eq_ok.mpr ⟨result, resolved, rfl⟩
        have stepped := staged.step ⟨.resolve (names slot.key).identity slot.id (some "EXIT"), Act.started.text⟩
          accepted (.settled member fits played) stands (retryResolve_within task _ _ _ _ _ resolved)
        rw [named] at stepped
        exact stepped
      · cases played
  | recover key =>
    have fits : (Act.recovery (Meta.revision task) key).Of names task "Retry." :=
      ⟨staged.progress key, rfl, staged.checkpoint.symm, Act.stripped, by decide⟩
    have mirrors := recover_mirrors intact _ fits
    change (if _ then _ else _) = some c' at played
    split at played
    · rename_i held
      obtain ⟨h, standing, same⟩ : ∃ h, c.hold = some h ∧ h.key = key := by
        cases hold : c.hold with
        | none => simp [hold] at held
        | some h => exact ⟨h, rfl, by simpa [hold] using held⟩
      have refused : c.hold.all (fun h => (names h.key).identity ≠
          (names (Act.recovery (Meta.revision task) key).key).identity) = false := by
        simp [standing, same, Act.recovery]
      have kind : ((Act.recovery (Meta.revision task) key).kind == "checkpoint") = false := by
        simp [Act.recovery]
      rw [refused, kind] at mirrors
      change Mirrors names _ ((c.recovered _).checked) at mirrors
      rw [played] at mirrors
      obtain ⟨result, recovered, stands⟩ := mirrors.accepted
      obtain ⟨valid, rfl⟩ := checked_eq_some played
      have accepted : ((Act.recover key).event names).operation.effect task
          ((Act.recover key).event names).recordedAt = .ok result.1 := bind_eq_ok.mpr ⟨result, recovered, rfl⟩
      exact staged.step _ accepted (.recovered fits ⟨h, standing, by rw [same]; rfl⟩ valid) stands
        (retryRecover_within task (within_refl _ task) _ _ _ _ _ recovered)
    · cases played

theorem Staged.accepted {revision : Int} (staged : Staged names task revision c) (act : Act K)
    (played : act.play revision c = some c') :
    allowed ((act.event names).operation.effect task (act.event names).recordedAt) = true := by
  by_contra refused
  have next := (staged.play act played).current
  rw [step_of_refused refused, staged.current] at next
  omega

/-- The run of a script ends in the circuit that the script plays to. -/
theorem Staged.playAll (acts : List (Act K)) : ∀ {task : Meta} {revision : Int} {c : Circuit K},
    Staged names task revision c → RetryCircuit.playAll c revision acts = some c' →
      Staged names (Run.final RetryCircuit.step task (acts.map (Act.event names))) (revision + acts.length) c' := by
  induction acts with
  | nil =>
    intro task revision c staged played
    cases played
    rw [List.length_nil, Int.natCast_zero, Int.add_zero]
    exact staged
  | cons act rest ih =>
    intro task revision c staged played
    obtain ⟨middle, first, later⟩ := Option.bind_eq_some_iff.mp played
    have ended := ih (staged.play act first) later
    have total : revision + ((act :: rest).length : Int) = revision + 1 + rest.length := by
      rw [List.length_cons]
      omega
    rw [total]
    exact ended

end Runs

/-! A task and enough series for the scripts of counterexamples. -/

/-- An active task without a checkpoint that has not met the circuit. -/
def retrySample : Meta :=
  [("id", .str "AR-0001"), ("status", .str "in_progress"), ("owner", .str "worker-1"), ("task_revision", .int 1)]

instance digestCount_ne : NeZero 64 := ⟨by decide⟩

/-- Distinct command digests. -/
def identityOf (i : Fin 64) : String :=
  "sha256:" ++ String.ofList (List.replicate i.val 'a' ++ List.replicate (64 - i.val) 'b')

theorem isDigest_identityOf (i : Fin 64) : Text.isDigest (identityOf i) = true := by
  have hex : Text.isHex 'a' = true ∧ Text.isHex 'b' = true := by decide
  rw [Text.isDigest, Text.characters_eq, Text.characters_eq, identityOf, String.toList_append, Text.stripPrefix?_append]
  simp [Text.exactly, hex]

theorem identityOf_injective : Function.Injective identityOf := by
  intro i j same
  have texts := congrArg String.toList same
  rw [identityOf, identityOf, String.toList_append, String.toList_append, List.append_cancel_left_eq] at texts
  have counts := congrArg (List.count 'a') texts
  simpa [List.count_replicate, Fin.ext_iff] using counts

def sampleNames : Fin 64 ↪ Series where
  toFun i := seriesOf retrySample (identityOf i) (isDigest_identityOf i)
  inj' _ _ same := identityOf_injective (congrArg Series.identity same)

theorem retrySample_fresh : Fresh retrySample := ⟨rfl, 1, le_refl 1, rfl⟩

theorem retrySample_staged : Staged sampleNames retrySample 1 {} :=
  ⟨⟨Intact.none _ rfl, retrySample_fresh.2, by simp, by simp, by simp, fun _ => rfl, by simp⟩, rfl, fun _ => rfl, rfl, rfl, rfl⟩

def window3 : Window := ⟨3, by decide⟩
def window4 : Window := ⟨4, by decide⟩

end Coordinator.RetryCircuit
