import Coordinator.Effects
import Coordinator.RetryRecords

/-! The operations of the retry circuit on typed records. Each one mirrors the operation of the
code: one is accepted when the other is, and the task then keeps the circuit that results. -/

namespace Coordinator.RetryCircuit
open Kit Dict Transitions

/-- The last records of a list that keeps only so many. -/
def recent {R : Type} (count : Nat) (items : List R) : List R := items.drop (items.length - count)

theorem lastOf_map {R : Type} (record : R → Json) (count : Nat) (items : List R) :
    AutonomyLimits.lastOf count (items.map record) = (recent count items).map record := by
  simp [AutonomyLimits.lastOf, recent, List.map_drop]

theorem recent_sublist {R : Type} (count : Nat) (items : List R) : (recent count items).Sublist items :=
  List.drop_sublist _ items

theorem recent_length {R : Type} (count : Nat) (items : List R) : (recent count items).length ≤ count := by
  rw [recent, List.length_drop]
  omega

theorem recent_all {R : Type} {count : Nat} {items : List R} (few : items.length ≤ count) :
    recent count items = items := by
  rw [recent, Nat.sub_eq_zero_of_le few, List.drop_zero]

namespace Circuit

variable {K : Type} [DecidableEq K] (c : Circuit K)

def checked : Option (Circuit K) := if c.Valid then some c else none

def retire (at_ : Stamp) (slot : Slot K) : Option (Abandoned K) :=
  if elapsed : slot.expires.instant ≤ at_.instant then some ⟨slot, at_, elapsed⟩ else none

/-- The circuit once the slots that have elapsed are retired. -/
def cleaned (at_ : Stamp) : Circuit K :=
  { c with
    slots := c.slots.filter (fun slot => !decide (slot.expires.instant ≤ at_.instant))
    abandoned := recent maxAbandoned (c.abandoned ++ c.slots.filterMap (retire at_)) }

def used (key : K) : Nat := (c.active key).length + (c.live key).length

def granted (slot : Slot K) : Circuit K := { c with slots := c.slots ++ [slot] }

def reserve (slot : Slot K) : Option (Circuit K) :=
  if c.hold.any (fun h => h.key = slot.key) then none
  else if slot.window.size ≤ (c.cleaned slot.reserved).used slot.key then none
  else ((c.cleaned slot.reserved).granted slot).checked

def without (id : String) : Circuit K := { c with slots := c.slots.filter (fun slot => slot.id ≠ id) }

/-- The circuit with one more failure, which opens it at the end of the window. -/
def failed (attempt : Attempt K) : Circuit K :=
  { c with
    attempts := recent maxAttempts (c.attempts ++ [attempt])
    hold := if attempt.window.size ≤ (c.active attempt.key).length + 1 then
        some ⟨attempt.key, attempt.recordedAt, attempt.window, attempt.stamped⟩
      else c.hold }

def fail (attempt : Attempt K) : Option (Circuit K) :=
  if (c.active attempt.key).getLast?.any (fun last => last.window ≠ attempt.window) then none
  else (c.failed attempt).checked

/-- Give a slot back, with the attempt that its launch turned into. -/
def settle (id : String) : Option (Attempt K) → Option (Circuit K)
  | none => if c.attempts.isEmpty then some {} else (c.without id).checked
  | some attempt => (c.without id).fail attempt

def recovered (recovery : Recovery K) : Circuit K :=
  { c with recoveries := recent maxRecoveries (c.recoveries ++ [recovery]), hold := none }

end Circuit

section Mirrors

variable {K : Type} [DecidableEq K] (names : K ↪ Series)

/-- The code refuses what the typed operation refuses, and keeps the circuit that it returns. -/
def Mirrors : Outcome (Meta × String) → Option (Circuit K) → Prop
  | .ok result, some c => Intact names result.1 c
  | .error _, none => True
  | _, _ => False

variable {names}

theorem Mirrors.intact {x : Outcome (Meta × String)} {y : Option (Circuit K)} (mirrors : Mirrors names x y)
    {result : Meta × String} (accepted : x = .ok result) : ∃ c, y = some c ∧ Intact names result.1 c := by
  subst accepted
  cases y with
  | none => exact mirrors.elim
  | some c => exact ⟨c, rfl, mirrors⟩

theorem Mirrors.accepted {x : Outcome (Meta × String)} {c : Circuit K} (mirrors : Mirrors names x (some c)) :
    ∃ result, x = .ok result ∧ Intact names result.1 c := by
  cases x with
  | error fault => exact mirrors.elim
  | ok result => exact ⟨result, rfl, mirrors⟩

theorem Mirrors.guard {bad : Bool} {fault : Fault} {f : Unit → Outcome (Meta × String)} {y : Option (Circuit K)}
    (rest : bad = false → Mirrors names (f ()) y) : Mirrors names (raiseIf bad fault >>= f) (if bad then none else y) := by
  cases bad with
  | true => exact trivial
  | false => exact rest rfl

theorem Mirrors.guardIf {bad : Prop} [Decidable bad] {fault : Fault} {f : Unit → Outcome (Meta × String)}
    {y : Option (Circuit K)} (rest : ¬bad → Mirrors names (f ()) y) :
    Mirrors names (raiseIf (decide bad) fault >>= f) (if bad then none else y) := by
  by_cases holds : bad
  · rw [if_pos holds, decide_eq_true holds]
    exact trivial
  · rw [if_neg holds, decide_eq_false holds]
    exact rest holds

variable (names) in
theorem Mirrors.checked (task : Meta) (c : Circuit K) (note : String) :
    Mirrors names (validate (.obj (c.record names)) >>= fun _ =>
      pure (task.set "retry_circuit" (.obj (c.record names)), note)) c.checked := by
  by_cases valid : c.Valid
  · rw [(validate_record names c).mpr valid, Circuit.checked, if_pos valid]
    exact intact_set names task valid
  · rw [Circuit.checked, if_neg valid]
    cases refused : validate (.obj (c.record names)) with
    | ok u => exact absurd ((validate_record names c).mp refused) valid
    | error fault => exact trivial

variable {task : Meta} {c : Circuit K}

theorem Kept.fine (kept : Kept names task c) : c = {} ∨ c.Valid := by
  rcases kept with ⟨-, blank⟩ | ⟨-, fine⟩
  · exact Or.inl blank
  · exact fine

theorem Kept.valid_of_slot (kept : Kept names task c) {slot : Slot K} (member : slot ∈ c.slots) : c.Valid := by
  rcases kept.fine with rfl | valid
  · cases member
  · exact valid

theorem Kept.bounded (kept : Kept names task c) : c.Bounded := by
  rcases kept.fine with rfl | valid
  · exact ⟨by simp, by simp, by simp, by simp, by simp, by simp, by simp⟩
  · exact valid.toBounded

end Mirrors

/-! Elapsed slots -/

section Cleaning

variable {K : Type} (names : K ↪ Series)

theorem expired_record (slot : Slot K) (at_ : Stamp) :
    expired (slot.record names) at_.text = .ok (decide (slot.expires.instant ≤ at_.instant)) := by
  have expires : (slot.record names).get "expires_at" = .str slot.expires.text := by
    simp [Slot.record, Slot.fields, Dict.get, Dict.find]
  rw [expired, expires, timestamp_text, timestamp_text]
  rfl

theorem splitExpired_map (at_ : Stamp) (slots : List (Slot K)) :
    splitExpired at_.text (slots.map (Slot.record names)) =
      .ok ((slots.filter (fun s => decide (s.expires.instant ≤ at_.instant))).map (Slot.record names),
        (slots.filter (fun s => !decide (s.expires.instant ≤ at_.instant))).map (Slot.record names)) := by
  induction slots with
  | nil => rfl
  | cons slot rest ih =>
    rw [List.map_cons, splitExpired, expired_record, ih]
    by_cases elapsed : slot.expires.instant ≤ at_.instant <;> simp [elapsed, ok_bind, Pure.pure, Except.pure]

theorem retired_map (at_ : Stamp) (slots : List (Slot K)) :
    ((slots.filter (fun s => decide (s.expires.instant ≤ at_.instant))).map (Slot.record names)).map
      (fun item => Json.obj ((item.fields.set "cleaned_at" (.str at_.text)).set "cause" (.str "expired"))) =
        (slots.filterMap (Circuit.retire at_)).map (Abandoned.record names) := by
  induction slots with
  | nil => rfl
  | cons slot rest ih =>
    by_cases elapsed : slot.expires.instant ≤ at_.instant
    · rw [List.filter_cons_of_pos (by simp [elapsed]), List.map_cons, List.map_cons, ih]
      simp [Circuit.retire, elapsed, Abandoned.record, Slot.record, Json.fields]
    · rw [List.filter_cons_of_neg (by simp [elapsed]), ih]
      simp [Circuit.retire, elapsed]

variable {names} {task : Meta} {c : Circuit K} (at_ : Stamp)

/-- Where no slot has elapsed, cleaning changes nothing. -/
theorem Circuit.cleaned_of_live (few : c.abandoned.length ≤ maxAbandoned)
    (fresh : ∀ slot ∈ c.slots, ¬slot.expires.instant ≤ at_.instant) : c.cleaned at_ = c := by
  have none : c.slots.filterMap (retire at_) = [] := by
    rw [List.filterMap_eq_nil_iff]
    intro slot member
    simp [retire, fresh slot member]
  have all : c.slots.filter (fun slot => !decide (slot.expires.instant ≤ at_.instant)) = c.slots := by
    rw [List.filter_eq_self]
    intro slot member
    simp [fresh slot member]
  rw [cleaned, none, all, List.append_nil, recent_all few]

variable [DecidableEq K]

theorem Circuit.cleaned_valid (valid : c.Valid) : (c.cleaned at_).Valid where
  attemptCount := valid.attemptCount
  recoveryCount := valid.recoveryCount
  slotCount := (List.length_filter_le _ _).trans valid.slotCount
  abandonedCount := recent_length _ _
  nonempty := by
    by_cases fresh : ∀ slot ∈ c.slots, ¬slot.expires.instant ≤ at_.instant
    · rw [cleaned_of_live at_ valid.abandonedCount fresh]
      exact valid.nonempty
    · push Not at fresh
      obtain ⟨slot, member, elapsed⟩ := fresh
      refine Or.inr (Or.inr ?_)
      have retired : (⟨slot, at_, elapsed⟩ : Abandoned K) ∈ c.slots.filterMap (retire at_) :=
        List.mem_filterMap.mpr ⟨slot, member, by simp [retire, elapsed]⟩
      have long : 0 < (c.abandoned ++ c.slots.filterMap (retire at_)).length := by
        rw [List.length_append]
        have some := List.length_pos_of_mem retired
        omega
      apply List.ne_nil_of_length_pos
      simp only [cleaned, recent, List.length_drop, maxAbandoned]
      omega
  attemptOrder := valid.attemptOrder
  recoveryOrder := valid.recoveryOrder
  supported := valid.supported
  slotsApart := valid.slotsApart.sublist ((List.filter_sublist).map _)

theorem cleanupExpired_intact (intact : Intact names task c) :
    ∃ result, cleanupExpired task at_.text = .ok result ∧ Intact names result.1 (c.cleaned at_) := by
  have split := splitExpired_map names at_ c.slots
  unfold cleanupExpired
  rw [intact.kept.state, ok_bind, Circuit.reservations_record, Json.items, split, ok_bind]
  by_cases fresh : ∀ slot ∈ c.slots, ¬slot.expires.instant ≤ at_.instant
  · have none : c.slots.filter (fun s => decide (s.expires.instant ≤ at_.instant)) = [] := by
      rw [List.filter_eq_nil_iff]
      intro slot member
      simp [fresh slot member]
    rw [Circuit.cleaned_of_live at_ intact.kept.bounded.abandonedCount fresh]
    exact ⟨(task, 0), by simp [none, Pure.pure, Except.pure], intact⟩
  · have valid : c.Valid := by
      rcases intact.kept.fine with rfl | valid
      · exact absurd (fun slot member => absurd member List.not_mem_nil) fresh
      · exact valid
    have dead : ((c.slots.filter (fun s => decide (s.expires.instant ≤ at_.instant))).map
        (Slot.record names)).isEmpty = false := by
      push Not at fresh
      obtain ⟨slot, member, elapsed⟩ := fresh
      rw [List.isEmpty_eq_false_iff]
      exact List.ne_nil_of_mem (List.mem_map_of_mem (List.mem_filter.mpr ⟨member, by simp [elapsed]⟩))
    have record : (((c.record names).set "reservations" (.arr
        ((c.slots.filter (fun s => !decide (s.expires.instant ≤ at_.instant))).map (Slot.record names)))).set
          "abandoned" (.arr (AutonomyLimits.lastOf maxAbandoned
            (c.abandoned.map (Abandoned.record names) ++
              (c.slots.filterMap (Circuit.retire at_)).map (Abandoned.record names))))) =
        (c.cleaned at_).record names := by
      rw [← List.map_append, lastOf_map]
      simp [Circuit.record, Dict.set, Circuit.cleaned]
    simp only [dead, Bool.false_eq_true, if_false, Circuit.abandoned_record, Json.items, retired_map, record]
    rw [(validate_record names _).mpr (Circuit.cleaned_valid at_ valid), ok_bind]
    exact ⟨_, rfl, intact_set names task (Circuit.cleaned_valid at_ valid)⟩

end Cleaning

/-! Selecting a slot -/

section Selection

variable {K : Type} {names : K ↪ Series} {c : Circuit K}

/-- The slot that an identifier selects. -/
theorem Circuit.find_slot {slot : Slot K} (apart : (c.slots.map (·.id)).Nodup) (member : slot ∈ c.slots) :
    c.slots.find? (fun s => s.id = slot.id) = some slot := by
  cases found : c.slots.find? (fun s => s.id = slot.id) with
  | none =>
    have missing := List.find?_eq_none.mp found slot member
    simp at missing
  | some other =>
    have same : other.id = slot.id := by simpa using List.find?_some found
    rw [List.inj_on_of_nodup_map apart (List.mem_of_find?_eq_some found) member same]

@[simp] theorem Slot.id_record (s : Slot K) : (s.record names).get "id" = .str s.id := by
  simp [Slot.record, Slot.fields, Dict.get, Dict.find]

@[simp] theorem Slot.identity_record (s : Slot K) : (s.record names).get "identity" = .str (names s.key).identity := by
  simp [Slot.record, Slot.fields, Dict.get, Dict.find]

@[simp] theorem Slot.progress_record (s : Slot K) :
    (s.record names).get "progress_digest" = .str (names s.key).progress := by
  simp [Slot.record, Slot.fields, Dict.get, Dict.find]

@[simp] theorem Slot.window_record (s : Slot K) : (s.record names).get "window" = .int s.window.size := by
  simp [Slot.record, Slot.fields, Dict.get, Dict.find]

theorem find_record (slots : List (Slot K)) (id : String) :
    (slots.map (Slot.record names)).find? (fun item => item.get "id" == .str id) =
      (slots.find? (fun s => s.id = id)).map (Slot.record names) := by
  rw [List.find?_map]
  congr 2

theorem Circuit.without_record (id : String) : (c.record names).set "reservations"
    (.arr (((c.record names).get "reservations").items.filter (fun item => item.get "id" != .str id))) =
      (c.without id).record names := by
  have kept : (c.slots.map (Slot.record names)).filter (fun item => item.get "id" != .str id) =
      (c.slots.filter (fun s => s.id ≠ id)).map (Slot.record names) := by
    rw [List.filter_map]
    congr 2
    funext s
    rw [Function.comp_apply, bne, Slot.id_record, Json.str_beq_str, Bool.eq_iff_iff]
    simp
  rw [reservations_record, Json.items, kept]
  simp [record, without, Dict.set]

end Selection

/-! The operations -/

section Operations

variable {K : Type} [DecidableEq K] {names : K ↪ Series} {task next : Meta} {c : Circuit K}

theorem progressDigest_within (frame : Within ["retry_circuit"] task next) :
    progressDigest next = progressDigest task := by
  simp only [progressDigest, frame.textOr (by simp : "checkpoint_commit" ∉ _),
    frame.get (by simp : "change_drift" ∉ _), frame.get (by simp : "spec_acceptance" ∉ _)]

theorem revision_within (frame : Within ["retry_circuit"] task next) : Meta.revision next = Meta.revision task := by
  simp only [Meta.revision, frame.get (by simp : "task_revision" ∉ _)]

theorem admitAttempt_kept (kept : Kept names task c) {key : K} (bound : (names key).progress = progressDigest task) :
    admitAttempt task (names key).identity = raiseIf (c.hold.any (fun h => h.key = key))
      (.error "RETRY_CIRCUIT_OPEN: repeated no-progress attempts require retry-circuit recovery") := by
  rw [admitAttempt, kept.state, ok_bind, Circuit.hold_record, ← bound]
  cases c.hold with
  | none => rfl
  | some h =>
    have series : sameSeries (names key).identity (names key).progress (h.record names) = decide (h.key = key) := by
      rw [Bool.eq_iff_iff, Hold.sameSeries_record, decide_eq_true_iff]
    simp only [holdRecord, series, Option.any_some]
    rfl

/-- What is left of a reservation of proper form once the elapsed slots are retired. -/
theorem reserve_eq (intact : Intact names task c) (slot : Slot K)
    (bound : (names slot.key).progress = progressDigest task) (fenced : slot.revision = Meta.revision task) :
    ∃ next note,
      reserve task (names slot.key).identity slot.window.size slot.id slot.reserved.text slot.expires.text =
        (raiseIf (c.hold.any (fun h => h.key = slot.key))
            (.error "RETRY_CIRCUIT_OPEN: repeated no-progress attempts require retry-circuit recovery") >>= fun _ =>
          raiseIf (decide (slot.window.size ≤ (c.cleaned slot.reserved).used slot.key))
            (.error "RETRY_CIRCUIT_OPEN: retry window is fully reserved") >>= fun _ =>
          validate (.obj (((c.cleaned slot.reserved).granted slot).record names)) >>= fun _ =>
          pure (Dict.set next "retry_circuit" (.obj (((c.cleaned slot.reserved).granted slot).record names)), note)) := by
  obtain ⟨⟨next, count⟩, cleaning, intactNext⟩ := cleanupExpired_intact slot.reserved intact
  have frame : Within ["retry_circuit"] task next := cleanupExpired_within task slot.reserved.text _ cleaning
  have boundNext : (names slot.key).progress = progressDigest next := bound.trans (progressDigest_within frame).symm
  have fencedNext : slot.revision = Meta.revision next := fenced.trans (revision_within frame).symm
  have later : decide (slot.expires.instant ≤ slot.reserved.instant) = false := by simp [slot.later]
  have stamped : (slot.reserved.text == "") = false := by simp [slot.reserved.text_ne]
  have live : (((c.cleaned slot.reserved).record names).get "reservations").items.filter
      (sameSeries (names slot.key).identity (names slot.key).progress) = _ :=
    Circuit.live_record names (c.cleaned slot.reserved) slot.key
  have active := Circuit.activeAttempts_record names (c.cleaned slot.reserved) slot.key
  have record : ((c.cleaned slot.reserved).record names).set "reservations"
      (.arr ((c.cleaned slot.reserved).slots.map (Slot.record names) ++ [slot.record names])) =
        ((c.cleaned slot.reserved).granted slot).record names := by
    simp [Circuit.record, Circuit.granted, Dict.set]
  refine ⟨next, "Reserved retry circuit launch slot; expired_slots_cleaned=" ++ toString count ++ ".", ?_⟩
  unfold reserve
  simp only [windowOf_size, ok_bind, valueError, (names slot.key).named, slot.named, stamped, Bool.not_true,
    Bool.or_false, raiseIf_false, timestamp_text, later, cleaning, intactNext.kept.state,
    admitAttempt_kept intactNext.kept boundNext]
  rw [← boundNext, ← fencedNext, live, active, List.length_map, List.length_map, Circuit.reservations_record, ← record]
  rfl

theorem reserve_mirrors (intact : Intact names task c) (slot : Slot K)
    (bound : (names slot.key).progress = progressDigest task) (fenced : slot.revision = Meta.revision task) :
    Mirrors names (reserve task (names slot.key).identity slot.window.size slot.id slot.reserved.text slot.expires.text)
      (c.reserve slot) := by
  obtain ⟨next, note, computed⟩ := reserve_eq intact slot bound fenced
  rw [computed]
  exact .guard fun _ => .guardIf fun _ => .checked _ _ _ _

/-- A failure is recorded under the present progress of the task. -/
theorem recordFailure_mirrors (kept : Kept names task c) (attempt : Attempt K)
    (bound : (names attempt.key).progress = progressDigest task) (fenced : attempt.revision = Meta.revision task) :
    Mirrors names (recordFailure task (names attempt.key).identity attempt.failure attempt.window.size attempt.recordedAt)
      (c.fail attempt) := by
  have stamped : (attempt.recordedAt == "") = false := by simp [attempt.stamped]
  have known : failures.contains attempt.failure = true := by simp [attempt.known]
  have active := Circuit.activeAttempts_record names c attempt.key
  have changed : ((c.active attempt.key).map (Attempt.record names)).getLast?.any
      (fun last => last.get "window" != .int attempt.window.size) =
        (c.active attempt.key).getLast?.any (fun last => last.window ≠ attempt.window) := by
    rw [List.getLast?_map]
    cases (c.active attempt.key).getLast? with
    | none => rfl
    | some last =>
      have window : (last.record names).get "window" = .int last.window.size := by
        simp [Attempt.record, Dict.get, Dict.find]
      rw [Option.map_some, Option.any_some, Option.any_some, window, Bool.eq_iff_iff, bne, Bool.not_eq_true',
        ← Bool.not_eq_true, Json.beq_int_int, decide_eq_true_iff, Ne, window_eq_iff]
  have listed : AutonomyLimits.lastOf maxAttempts (c.attempts.map (Attempt.record names) ++ [attempt.record names]) =
      (recent maxAttempts (c.attempts ++ [attempt])).map (Attempt.record names) := by
    rw [← lastOf_map, List.map_append, List.map_singleton]
  have record : (if attempt.window.size ≤ ((c.active attempt.key).map (Attempt.record names)).length + 1 then
      ((c.record names).set "attempts" (.arr (AutonomyLimits.lastOf maxAttempts
        (((c.record names).get "attempts").items ++ [attempt.record names])))).set "hold"
          ((Hold.mk attempt.key attempt.recordedAt attempt.window attempt.stamped).record names)
      else (c.record names).set "attempts" (.arr (AutonomyLimits.lastOf maxAttempts
        (((c.record names).get "attempts").items ++ [attempt.record names])))) = (c.failed attempt).record names := by
    rw [List.length_map, Circuit.attempts_record, Json.items, listed]
    by_cases full : attempt.window.size ≤ (c.active attempt.key).length + 1 <;>
      simp [full, Circuit.record, Circuit.failed, Dict.set, holdRecord]
  unfold recordFailure
  simp only [windowOf_size, ok_bind, valueError, (names attempt.key).named, stamped, known, Bool.not_true,
    Bool.or_false, raiseIf_false, kept.state]
  rw [← bound, ← fenced, active, changed]
  refine .guard fun _ => ?_
  have recorded := Mirrors.checked names task (c.failed attempt)
  rw [← record] at recorded
  exact recorded _

theorem Circuit.without_fine (valid : c.Valid) (bare : c.attempts = [] → c.recoveries = []) (id : String) :
    c.without id = {} ∨ (c.without id).Valid := by
  by_cases some : c.attempts ≠ [] ∨ (c.without id).slots ≠ [] ∨ c.abandoned ≠ []
  · exact Or.inr ⟨⟨valid.attemptCount, valid.recoveryCount, (List.length_filter_le _ _).trans valid.slotCount,
      valid.abandonedCount, valid.attemptOrder, valid.recoveryOrder,
      valid.slotsApart.sublist ((List.filter_sublist).map _)⟩, some, valid.supported⟩
  · push Not at some
    obtain ⟨attempts, slots, abandoned⟩ := some
    have hold : c.hold = none := by
      cases held : c.hold with
      | none => rfl
      | some h =>
        have supported := valid.supported h held
        have least := h.window.bounds.1
        rw [active, attempts] at supported
        simp only [List.filter_nil, List.length_nil, defaultWindow] at supported least
        omega
    refine Or.inl ?_
    rw [without] at slots ⊢
    simp only at slots
    rw [attempts, bare attempts, hold, slots, abandoned]

/-- The attempt that a failed launch of a slot turns into. -/
structure Attempt.Of (names : K ↪ Series) (task : Meta) (slot : Slot K) (at_ : String) (attempt : Attempt K) :
    Prop where
  identity : (names attempt.key).identity = (names slot.key).identity
  progress : (names attempt.key).progress = progressDigest task
  revision : attempt.revision = Meta.revision task
  window : attempt.window = slot.window
  recordedAt : attempt.recordedAt = at_

theorem resolve_mirrors (intact : Intact names task c) (bare : c.attempts = [] → c.recoveries = []) {slot : Slot K}
    (member : slot ∈ c.slots) (outcome : Option (Attempt K)) (at_ : String)
    (fits : ∀ attempt ∈ outcome, attempt.Of names task slot at_) :
    Mirrors names (resolve task (names slot.key).identity slot.id (outcome.map (·.failure)) at_)
      (c.settle slot.id outcome) := by
  have valid := intact.kept.valid_of_slot member
  have selected : selectedSlot (c.record names) (names slot.key).identity slot.id = .ok (slot.record names) := by
    have same : (Json.str (names slot.key).identity != .str (names slot.key).identity) = false := by
      rw [bne, Bool.not_eq_false', Json.str_beq_str, beq_iff_eq]
    rw [selectedSlot, Circuit.reservations_record, Json.items, find_record, Circuit.find_slot valid.slotsApart member]
    change raiseIf ((slot.record names).get "identity" != _) _ >>= _ = _
    rw [Slot.identity_record, same]
    rfl
  unfold resolve
  rw [intact.kept.state, ok_bind, selected, ok_bind, Circuit.without_record]
  have keptNext := kept_set names task (Circuit.without_fine valid bare slot.id)
  cases outcome with
  | none =>
    have attempts : (((c.without slot.id).record names).get "attempts").items.isEmpty = c.attempts.isEmpty := by
      rw [Circuit.attempts_record, Json.items, List.isEmpty_map]
      rfl
    change Mirrors names (if _ then _ else _) (if _ then _ else _)
    rw [attempts]
    split
    · exact Intact.none names (by simp [circuit])
    · exact .checked _ _ _ _
  | some attempt =>
    obtain ⟨identity, progress, revision, window, recordedAt⟩ := fits attempt rfl
    have frame : Within ["retry_circuit"] task
        (task.set "retry_circuit" (.obj ((c.without slot.id).record names))) :=
      (within_refl _ task).set (by simp) _
    have recorded := recordFailure_mirrors keptNext attempt (progress.trans (progressDigest_within frame).symm)
      (revision.trans (revision_within frame).symm)
    rw [identity, recordedAt, window] at recorded
    simpa only [Option.map_some, Slot.window_record, Json.int?, Option.getD_some, Circuit.settle] using recorded

/-- The recovery that the code records for the held identity at the present progress. -/
structure Recovery.Of (names : K ↪ Series) (task : Meta) (reason : String) (recovery : Recovery K) : Prop where
  progress : (names recovery.key).progress = progressDigest task
  revision : recovery.revision = Meta.revision task
  checkpoint : recovery.checkpoint = task.textOr "checkpoint_commit"
  written : recovery.reason = Text.strip reason
  explained : reasonValid (.str reason) = true

theorem recover_mirrors (intact : Intact names task c) (recovery : Recovery K) {reason : String}
    (fits : recovery.Of names task reason) :
    Mirrors names (recover task (names recovery.key).identity recovery.kind reason recovery.recordedAt)
      (if c.hold.all (fun h => (names h.key).identity ≠ (names recovery.key).identity) then none
      else if recovery.kind == "checkpoint" && !isCommit recovery.checkpoint then none
      else (c.recovered recovery).checked) := by
  obtain ⟨progress, revision, checkpoint, stripped, explained⟩ := fits
  have stamped : (recovery.recordedAt == "") = false := by simp [recovery.stamped]
  have known : recoveryKinds.contains recovery.kind = true := by simp [recovery.known]
  have held : ((holdRecord names c.hold).isNull ||
      (holdRecord names c.hold).get "identity" != .str (names recovery.key).identity) =
        c.hold.all (fun h => (names h.key).identity ≠ (names recovery.key).identity) := by
    cases c.hold with
    | none => rfl
    | some h =>
      have identity : (h.record names).get "identity" = .str (names h.key).identity := by
        simp [Hold.record, Dict.get, Dict.find]
      rw [holdRecord, identity, Option.all_some, bne, Json.str_beq_str, Bool.eq_iff_iff]
      simp [Hold.record, Json.isNull]
  have record : ((c.record names).set "recoveries" (.arr (AutonomyLimits.lastOf maxRecoveries
      (((c.record names).get "recoveries").items ++ [recovery.record names])))).set "hold" .null =
        (c.recovered recovery).record names := by
    have listed : AutonomyLimits.lastOf maxRecoveries
        (c.recoveries.map (Recovery.record names) ++ [recovery.record names]) =
          (recent maxRecoveries (c.recoveries ++ [recovery])).map (Recovery.record names) := by
      rw [← lastOf_map, List.map_append, List.map_singleton]
    rw [Circuit.recoveries_record, Json.items, listed]
    simp [Circuit.record, Circuit.recovered, Dict.set, holdRecord]
  unfold recover
  simp only [ok_bind, valueError, (names recovery.key).named, stamped, known, Bool.not_true, Bool.or_false,
    raiseIf_false, intact.kept.state, explained, Circuit.hold_record]
  rw [← progress, ← revision, ← checkpoint, ← stripped, held]
  refine .guard fun _ => .guard fun _ => ?_
  have recorded := Mirrors.checked names task (c.recovered recovery)
  rw [← record] at recorded
  exact recorded _

end Operations

end Coordinator.RetryCircuit
