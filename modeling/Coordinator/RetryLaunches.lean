import Coordinator.RetryScripts

/-! Launches and their records. A slot that is granted should turn into a recorded attempt, and a
series whose window is used up should open again by a recovery; here is when they do. -/

namespace Coordinator.RetryCircuit
open Kit Dict

/-! Counting the attempts of a series -/

section Counting

variable {K : Type} [DecidableEq K] (c : Circuit K)

theorem foldl_max_lt {values : List Int} {bound : Int} : ∀ {first : Int}, first < bound →
    (∀ value ∈ values, value < bound) → values.foldl max first < bound := by
  induction values with
  | nil =>
    intro first below _
    exact below
  | cons value rest ih =>
    intro first below all
    refine ih (max_lt below (all value (by simp))) fun other member => all other (by simp [member])

theorem le_foldl_max {values : List Int} : ∀ {first value : Int}, value = first ∨ value ∈ values →
    value ≤ values.foldl max first := by
  induction values with
  | nil =>
    intro first value among
    simp only [List.not_mem_nil, or_false] at among
    exact among.le
  | cons head rest ih =>
    intro first value among
    rw [List.foldl_cons]
    rcases among with rfl | member
    · exact (le_max_left value head).trans (ih (Or.inl rfl))
    · rcases List.mem_cons.mp member with rfl | later
      · exact (le_max_right first value).trans (ih (Or.inl rfl))
      · exact ih (Or.inr later)

/-- Where the list is full, the record that is pushed out no longer counts. -/
theorem recent_filter_length {R : Type} (p : R → Bool) {count : Nat} {items : List R} (last : R)
    (positive : 0 < count) (few : items.length ≤ count) :
    ((recent count (items ++ [last])).filter p).length +
      (if (if count ≤ items.length then items.head? else none).any p then 1 else 0) =
        (items.filter p).length + if p last then 1 else 0 := by
  have single : ([last].filter p).length = if p last then 1 else 0 := by
    by_cases counted : p last = true <;> simp [counted]
  by_cases full : count ≤ items.length
  · rw [if_pos full]
    cases items with
    | nil => exact absurd full (Nat.not_le.mpr positive)
    | cons oldest rest =>
      have one : (oldest :: rest ++ [last]).length - count = 1 := by
        simp only [List.length_append, List.length_cons, List.length_nil] at few full ⊢
        omega
      rw [recent, one, List.cons_append, List.drop_succ_cons, List.drop_zero, List.filter_append, List.length_append,
        single, List.head?_cons, Option.any_some, List.filter_cons]
      by_cases counted : p oldest = true
      · simp only [counted, if_true, List.length_cons]
        omega
      · simp only [counted, Bool.false_eq_true, if_false]
        omega
  · have short : (items ++ [last]).length ≤ count := by
      rw [List.length_append, List.length_singleton]
      omega
    rw [if_neg full, recent_all short, List.filter_append, List.length_append, single]
    simp

theorem Circuit.recoveredRevision_lt (key : K) {bound : Int} (positive : 0 < bound)
    (older : ∀ r ∈ c.recoveries, r.revision < bound) : c.recoveredRevision key < bound := by
  apply foldl_max_lt positive
  intro value member
  obtain ⟨r, inside, rfl⟩ := List.mem_map.mp member
  exact older r (List.mem_of_mem_filter inside)

theorem Circuit.le_recoveredRevision {r : Recovery K} (member : r ∈ c.recoveries) :
    r.revision ≤ c.recoveredRevision r.key :=
  le_foldl_max (Or.inr (List.mem_map_of_mem (List.mem_filter.mpr ⟨member, by simp⟩)))

def Circuit.counts (key : K) (a : Attempt K) : Bool :=
  decide (a.key = key) && decide (c.recoveredRevision key < a.revision)

/-- The oldest attempt, where one more pushes it out of the full list. -/
def Circuit.pushedOut : Option (Attempt K) := if maxAttempts ≤ c.attempts.length then c.attempts.head? else none

/-- The active attempts of a series once one more is recorded for another or the same one. -/
def Circuit.remaining (recorded key : K) : Int :=
  ((c.active key).length + if recorded = key then 1 else 0 : Nat) -
    (if c.pushedOut.any (c.counts key) then 1 else 0 : Nat)

theorem Circuit.active_failed_length {a : Attempt K} (few : c.attempts.length ≤ maxAttempts)
    (fresh : c.recoveredRevision a.key < a.revision) (key : K) :
    (((c.failed a).active key).length : Int) = c.remaining a.key key := by
  have last : (if c.counts key a then 1 else 0) = if a.key = key then 1 else 0 := by
    apply if_congr _ rfl rfl
    rw [counts, Bool.and_eq_true, decide_eq_true_iff, decide_eq_true_iff]
    exact ⟨And.left, fun same => ⟨same, same ▸ fresh⟩⟩
  have counted := recent_filter_length (c.counts key) a (by decide) few
  rw [last] at counted
  change (((c.failed a).active key).length + if c.pushedOut.any (c.counts key) then 1 else 0) =
    (c.active key).length + if a.key = key then 1 else 0 at counted
  rw [remaining, ← counted]
  omega

/-! Validity after an operation -/

/-- The last records of a growing list stay in order. -/
theorem chain_recent {R : Type} {revision : R → Int} {items : List R} {last : R} (count : Nat)
    (ordered : (0 :: items.map revision).IsChain (· < ·)) (positive : 0 < revision last)
    (older : ∀ item ∈ items, revision item < revision last) :
    (0 :: (recent count (items ++ [last])).map revision).IsChain (· < ·) := by
  rw [List.isChain_iff_pairwise] at ordered ⊢
  have grown : (0 :: (items ++ [last]).map revision).Pairwise (· < ·) := by
    rw [List.map_append, ← List.cons_append, List.pairwise_append]
    refine ⟨ordered, by simp, ?_⟩
    intro before inside after final
    rw [List.map_singleton, List.mem_singleton] at final
    subst final
    rcases List.mem_cons.mp inside with rfl | member
    · exact positive
    · obtain ⟨item, listed, rfl⟩ := List.mem_map.mp member
      exact older item listed
  exact grown.sublist (((recent_sublist count _).map revision).cons_cons 0)

theorem recent_append_ne {R : Type} {count : Nat} (positive : 0 < count) (items : List R) (last : R) :
    recent count (items ++ [last]) ≠ [] := by
  apply List.ne_nil_of_length_pos
  rw [recent, List.length_drop, List.length_append, List.length_singleton]
  omega

variable {c}

theorem Circuit.failed_valid_iff (bounded : c.Bounded) {a : Attempt K} (positive : 0 < a.revision)
    (attempts : ∀ other ∈ c.attempts, other.revision < a.revision)
    (recoveries : ∀ r ∈ c.recoveries, r.revision < a.revision) :
    (c.failed a).Valid ↔ ∀ h ∈ (c.failed a).hold, h.window.size ≤ c.remaining a.key h.key := by
  have fresh := c.recoveredRevision_lt a.key positive recoveries
  have counted := c.active_failed_length bounded.attemptCount fresh
  constructor
  · intro valid h held
    rw [← counted]
    exact valid.supported h held
  · intro supported
    refine ⟨⟨recent_length _ _, bounded.recoveryCount, bounded.slotCount, bounded.abandonedCount,
      chain_recent _ bounded.attemptOrder positive attempts, bounded.recoveryOrder, bounded.slotsApart⟩, ?_, ?_⟩
    · exact Or.inl (recent_append_ne (by decide) _ _)
    · intro h held
      rw [counted]
      exact supported h held

theorem Circuit.recovered_valid (valid : c.Valid) (some : c.attempts ≠ []) {r : Recovery K} (positive : 0 < r.revision)
    (recoveries : ∀ other ∈ c.recoveries, other.revision < r.revision) : (c.recovered r).Valid :=
  ⟨⟨valid.attemptCount, recent_length _ _, valid.slotCount, valid.abandonedCount, valid.attemptOrder,
    chain_recent _ valid.recoveryOrder positive recoveries, valid.slotsApart⟩, Or.inl some, fun _ held => nomatch held⟩

end Counting

/-! Slots that can be resolved -/

/-- Whatever becomes of the launch, its owner can resolve the slot into proper metadata. -/
def Resolvable (task : Meta) (slot : Json) : Prop :=
  ∀ (failure : Option String) (at_ : String), (∀ name ∈ failure, name ∈ failures) → at_ ≠ "" →
    ∃ result, resolve task (slot.get "identity").text (slot.get "id").text failure at_ = .ok result ∧
      metadataError result.1 = none

/-- The oldest attempt on record, where one more pushes it out of the full list. -/
def pushedOut (state : Dict) : Option Json :=
  if maxAttempts ≤ (state.get "attempts").items.length then (state.get "attempts").items.head? else none

def isActive (state : Dict) (identity progress : String) (item : Json) : Bool :=
  sameSeries identity progress item && recoveredRevision state identity progress < revisionOf item

/-- The active attempts that `held` has once one more of `recorded` is on record. -/
def remaining (state : Dict) (recorded held : String × String) : Int :=
  ((activeAttempts state held.1 held.2).length + if recorded = held then 1 else 0 : Nat) -
    (if (pushedOut state).any (isActive state held.1 held.2) then 1 else 0 : Nat)

/-- The window of a slot is that of the running series, and the hold that stands after a failure
keeps its attempts: the new one where the failure fills the window, else the one on record. -/
def Recordable (task : Meta) (slot : Json) : Prop :=
  let state := (circuit task).fields
  let series := ((slot.get "identity").text, progressDigest task)
  let window := (slot.get "window").int?.getD 0
  let hold := state.get "hold"
  (∀ last ∈ (activeAttempts state series.1 series.2).getLast?, last.get "window" = slot.get "window") ∧
    if window ≤ (activeAttempts state series.1 series.2).length + 1 then window ≤ remaining state series series
    else hold.isNull = true ∨ (hold.get "window").int?.getD 0 ≤
      remaining state series ((hold.get "identity").text, (hold.get "progress_digest").text)

section Translation

variable {K : Type} {names : K ↪ Series} {c : Circuit K} {task : Meta}

theorem pushedOut_record : pushedOut (c.record names) = c.pushedOut.map (Attempt.record names) := by
  rw [pushedOut, Circuit.pushedOut, Circuit.attempts_record, Json.items, List.length_map, List.head?_map]
  split <;> rfl

theorem series_eq_iff {key other : K} : ((names key).identity, (names key).progress) =
    ((names other).identity, (names other).progress) ↔ key = other := by
  constructor
  · intro same
    apply names.injective
    cases first : names key
    cases second : names other
    simp_all
  · rintro rfl
    rfl

variable [DecidableEq K]

theorem isActive_record (key : K) (a : Attempt K) :
    isActive (c.record names) (names key).identity (names key).progress (a.record names) = c.counts key a := by
  rw [isActive, Circuit.counts, Circuit.recoveredRevision_record, Attempt.revisionOf_record, Bool.eq_iff_iff,
    Bool.and_eq_true, Bool.and_eq_true, Attempt.sameSeries_record, decide_eq_true_iff, decide_eq_true_iff]

theorem remaining_record (key other : K) : remaining (c.record names) ((names key).identity, (names key).progress)
    ((names other).identity, (names other).progress) = c.remaining key other := by
  have pushed : (pushedOut (c.record names)).any (isActive (c.record names) (names other).identity
      (names other).progress) = c.pushedOut.any (c.counts other) := by
    rw [pushedOut_record]
    cases c.pushedOut with
    | none => rfl
    | some oldest => exact isActive_record other oldest
  rw [remaining, Circuit.remaining, pushed, Circuit.activeAttempts_record, List.length_map,
    if_congr series_eq_iff rfl rfl]

/-- A slot given back without a failure leaves a proper circuit. -/
theorem settle_none (valid : c.Valid) (bare : c.attempts = [] → c.recoveries = []) (id : String) :
    ∃ c', c.settle id none = some c' := by
  rw [Circuit.settle]
  split
  · exact ⟨_, rfl⟩
  · rename_i some
    rcases Circuit.without_fine valid bare id with blank | fine
    · exact absurd (congrArg Circuit.attempts blank) fun none => some (List.isEmpty_iff.mpr none)
    · exact ⟨_, if_pos fine⟩

theorem fail_accepted {attempt : Attempt K} (steady : ∀ last ∈ (c.active attempt.key).getLast?, last.window = attempt.window)
    (valid : (c.failed attempt).Valid) : c.fail attempt = some (c.failed attempt) := by
  have same : ((c.active attempt.key).getLast?.any fun last => last.window ≠ attempt.window) = false := by
    cases final : (c.active attempt.key).getLast? with
    | none => rfl
    | some last => simp [steady last final]
  rw [Circuit.fail, same, Circuit.checked, if_pos valid]
  rfl

/-- The typed form of the condition: it decides about every failure of the launch. -/
theorem recordable_iff (tracked : Tracked names task c) {slot : Slot K} (member : slot ∈ c.slots) (attempt : Attempt K)
    (identity : (names attempt.key).identity = (names slot.key).identity)
    (progress : (names attempt.key).progress = progressDigest task) (window : attempt.window = slot.window) :
    Recordable task (slot.record names) ↔ (∀ last ∈ (c.active attempt.key).getLast?, last.window = attempt.window) ∧
      ∀ h ∈ (c.failed attempt).hold, h.window.size ≤ c.remaining attempt.key h.key := by
  have present : (circuit task).fields = c.record names := by
    rcases tracked.intact with ⟨-, rfl⟩ | ⟨present, -⟩
    · cases member
    · rw [present]
      rfl
  have steady : (∀ last ∈ ((c.active attempt.key).map (Attempt.record names)).getLast?,
      last.get "window" = .int slot.window.size) ↔ ∀ last ∈ (c.active attempt.key).getLast?, last.window = attempt.window := by
    rw [List.getLast?_map]
    cases (c.active attempt.key).getLast? with
    | none => simp
    | some last =>
      have shown : (last.record names).get "window" = .int last.window.size := by
        simp [Attempt.record, Dict.get, Dict.find]
      simp [shown, window, window_eq_iff]
  simp only [Recordable, present, Slot.identity_record, Slot.window_record, Json.text, Json.int?, Option.getD_some]
  rw [← identity, ← progress, Circuit.activeAttempts_record, steady, remaining_record, List.length_map,
    Circuit.hold_record, ← window]
  refine and_congr_right fun _ => ?_
  by_cases full : attempt.window.size ≤ (c.active attempt.key).length + 1
  · simp [Circuit.failed, full]
  · simp only [if_neg full, Circuit.failed]
    cases held : c.hold with
    | none => simp [holdRecord, Json.isNull]
    | some h =>
      have key : (h.record names).get "identity" = .str (names h.key).identity := by
        simp [Hold.record, Dict.get, Dict.find]
      have digest : (h.record names).get "progress_digest" = .str (names h.key).progress := by
        simp [Hold.record, Dict.get, Dict.find]
      have size : (h.record names).get "window" = .int h.window.size := by
        simp [Hold.record, Dict.get, Dict.find]
      simp only [holdRecord, key, digest, size, Option.getD_some, remaining_record]
      simp [Hold.record, Json.isNull]

end Translation

/-- In every state that a run reaches, a launch slot can be resolved whatever its outcome, by its
owner and into proper metadata, exactly when its failure is recordable. -/
theorem resolvable_iff {start : Meta} (fresh : Fresh start) (events : List Event) (slot : Json)
    (member : slot ∈ ((circuit (Run.final step start events)).get "reservations").items) :
    Resolvable (Run.final step start events) slot ↔ Recordable (Run.final step start events) slot := by
  obtain ⟨c, tracked⟩ := run_tracked fresh events
  generalize Run.final step start events = task at tracked member ⊢
  rw [tracked.intact.kept.reservations] at member
  obtain ⟨s, listed, rfl⟩ := List.mem_map.mp member
  -- the attempt that a failure of this launch becomes
  let attempt (failure at_ : String) (known : failure ∈ failures) (stamped : at_ ≠ "") : Attempt Series :=
    ⟨seriesOf task s.key.identity s.key.named, failure, Meta.revision task, at_, s.window, known, stamped⟩
  have mirrors (failure at_ : String) (known : failure ∈ failures) (stamped : at_ ≠ "") :=
    resolve_mirrors tracked.intact tracked.bare listed (some (attempt failure at_ known stamped)) at_
      (by rintro other ⟨⟩; exact ⟨rfl, rfl, rfl, rfl, rfl⟩)
  have valid_iff (failure at_ : String) (known : failure ∈ failures) (stamped : at_ ≠ "") :=
    Circuit.failed_valid_iff (c := c.without s.id) (tracked.intact.kept.bounded.without s.id)
      (a := attempt failure at_ known stamped) tracked.positive tracked.attempts tracked.recoveries
  have recordable (failure at_ : String) (known : failure ∈ failures) (stamped : at_ ≠ "") :=
    recordable_iff tracked listed (attempt failure at_ known stamped) rfl rfl rfl
  simp only [Resolvable, Slot.identity_record, Slot.id_record, Json.text]
  constructor
  · intro resolvable
    obtain ⟨result, resolved, -⟩ := resolvable (some "EXIT") "now" (by decide) (by decide)
    obtain ⟨c', settled, -⟩ := (mirrors "EXIT" "now" (by decide) (by decide)).intact resolved
    obtain ⟨steady, valid, rfl⟩ := fail_eq_some settled
    exact (recordable "EXIT" "now" (by decide) (by decide)).mpr
      ⟨steady, (valid_iff "EXIT" "now" (by decide) (by decide)).mp valid⟩
  · intro proper failure at_ known stamped
    cases failure with
    | none =>
      have released := resolve_mirrors tracked.intact tracked.bare listed none at_ (by rintro attempt ⟨⟩)
      obtain ⟨c', given⟩ := settle_none (tracked.intact.kept.valid_of_slot listed) tracked.bare s.id
      rw [given] at released
      obtain ⟨result, resolved, intact⟩ := released.accepted
      exact ⟨result, resolved, intact.metadataError⟩
    | some failure =>
      obtain ⟨steady, supported⟩ := (recordable failure at_ (known failure rfl) stamped).mp proper
      have valid := (valid_iff failure at_ (known failure rfl) stamped).mpr supported
      have settled := mirrors failure at_ (known failure rfl) stamped
      rw [Circuit.settle, fail_accepted (c := c.without s.id) steady valid] at settled
      obtain ⟨result, resolved, intact⟩ := settled.accepted
      exact ⟨result, resolved, intact.metadataError⟩

/-- After one failure under a window of three, a launch under a window of four is still granted. -/
def widenedLaunch : List (Act (Fin 64)) := [.reserve 0 window3, .fail 0, .reserve 0 window4]

def widenedTask : Meta := Run.final step retrySample (widenedLaunch.map (Act.event sampleNames))

/-- A slot whose failure the circuit refuses to record is not resolvable. -/
theorem not_resolvable {K : Type} [DecidableEq K] {names : K ↪ Series} {task : Meta} {c : Circuit K}
    (tracked : Tracked names task c) {slot : Slot K} (member : slot ∈ c.slots) {attempt : Attempt K} {at_ : String}
    (fits : attempt.Of names task slot at_) (refused : c.settle slot.id (some attempt) = none) :
    ¬Resolvable task (slot.record names) := by
  intro resolvable
  have stamped : at_ ≠ "" := fits.recordedAt ▸ attempt.stamped
  obtain ⟨result, resolved, -⟩ := resolvable (some attempt.failure) at_ (by simp [attempt.known]) stamped
  rw [Slot.identity_record, Slot.id_record] at resolved
  have mirrors := resolve_mirrors tracked.intact tracked.bare member (some attempt) at_ (by simpa using fits)
  obtain ⟨c', settled, -⟩ := mirrors.intact resolved
  rw [refused] at settled
  cases settled

theorem widened_reached : ∃ c slot, Staged sampleNames widenedTask 4 c ∧ c.slots.head? = some slot ∧
    c.settle slot.id (some (Act.attempt 4 slot.key slot.window)) = none := by
  have played : (playAll ({} : Circuit (Fin 64)) 1 widenedLaunch).any (fun c => c.slots.head?.any fun slot =>
      (c.settle slot.id (some (Act.attempt 4 slot.key slot.window))).isNone) = true := by decide +kernel
  obtain ⟨c, reached, found⟩ := (Option.any_eq_true _ _).mp played
  obtain ⟨slot, first, refused⟩ := (Option.any_eq_true _ _).mp found
  exact ⟨c, slot, retrySample_staged.playAll widenedLaunch reached, first, Option.isNone_iff_eq_none.mp refused⟩

/-- The slot of the second launch. -/
def widenedSlot : Json := ((circuit widenedTask).get "reservations").items.head?.getD .null

theorem widenedSlot_eq {c : Circuit (Fin 64)} {slot : Slot (Fin 64)} (staged : Staged sampleNames widenedTask 4 c)
    (first : c.slots.head? = some slot) : widenedSlot = slot.record sampleNames := by
  rw [widenedSlot, staged.tracked.intact.kept.reservations, List.head?_map, first]
  rfl

theorem widenedSlot_mem : widenedSlot ∈ ((circuit widenedTask).get "reservations").items := by
  obtain ⟨c, slot, staged, first, -⟩ := widened_reached
  rw [widenedSlot_eq staged first, staged.tracked.intact.kept.reservations]
  exact List.mem_map_of_mem (List.mem_of_head? first)

theorem resolvable_widened : Resolvable widenedTask widenedSlot ↔ Recordable widenedTask widenedSlot :=
  resolvable_iff retrySample_fresh _ widenedSlot widenedSlot_mem

/-- The failure of that launch cannot be recorded. -/
theorem widened_launch_stuck :
    widenedSlot ∈ ((circuit widenedTask).get "reservations").items ∧ ¬Resolvable widenedTask widenedSlot := by
  obtain ⟨c, slot, staged, first, refused⟩ := widened_reached
  have stuck := not_resolvable staged.tracked (List.mem_of_head? first) (staged.attempt_of slot) refused
  rw [← widenedSlot_eq staged first] at stuck
  exact ⟨widenedSlot_mem, stuck⟩

end Coordinator.RetryCircuit
