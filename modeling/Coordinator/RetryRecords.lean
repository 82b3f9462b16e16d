import Coordinator.RetryCircuit
import Mathlib.Logic.Embedding.Basic
import Mathlib.Data.List.Chain

/-! The records of a retry circuit as typed values that carry their own well-formedness, and the
document that the code keeps for them. What the validator adds to the types is `Circuit.Valid`. -/

namespace Coordinator.RetryCircuit
open Kit

/-- A command identity at one fingerprint of progress. -/
structure Series where
  identity : String
  progress : String
  named : Text.isDigest identity = true
  bound : Text.isDigest progress = true
  deriving DecidableEq

structure Window where
  size : Int
  bounds : defaultWindow ≤ size ∧ size ≤ maxWindow
  deriving DecidableEq

theorem window_eq_iff {a b : Window} : a = b ↔ a.size = b.size := by
  cases a
  cases b
  simp

/-- A readable time as it was written. -/
structure Stamp where
  text : String
  instant : Int
  reads : Datetime.aware? text = some instant

structure Attempt (K : Type) where
  key : K
  failure : String
  revision : Int
  recordedAt : String
  window : Window
  known : failure ∈ failures
  stamped : recordedAt ≠ ""

structure Recovery (K : Type) where
  key : K
  kind : String
  reason : String
  revision : Int
  recordedAt : String
  checkpoint : String
  known : kind ∈ recoveryKinds
  explained : reasonValid (.str reason) = true
  stamped : recordedAt ≠ ""
  committed : checkpoint = "" ∨ isCommit checkpoint = true

structure Hold (K : Type) where
  key : K
  heldAt : String
  window : Window
  stamped : heldAt ≠ ""

structure Slot (K : Type) where
  id : String
  key : K
  window : Window
  revision : Int
  reserved : Stamp
  expires : Stamp
  named : isReservation id = true
  later : reserved.instant < expires.instant

structure Abandoned (K : Type) where
  slot : Slot K
  cleaned : Stamp
  elapsed : slot.expires.instant ≤ cleaned.instant

/-- The circuit of one task; its series are named by `K`. -/
structure Circuit (K : Type) where
  attempts : List (Attempt K) := []
  recoveries : List (Recovery K) := []
  hold : Option (Hold K) := none
  slots : List (Slot K) := []
  abandoned : List (Abandoned K) := []

theorem Stamp.text_ne (stamp : Stamp) : stamp.text ≠ "" := by
  intro blank
  have unread : Datetime.aware? "" = none := by decide
  have reads := stamp.reads
  rw [blank, unread] at reads
  cases reads

section Records

variable {K : Type} (names : K ↪ Series)

def Attempt.record (a : Attempt K) : Json := .obj
  [("identity", .str (names a.key).identity), ("failure", .str a.failure),
    ("progress_digest", .str (names a.key).progress), ("task_revision", .int a.revision),
    ("recorded_at", .str a.recordedAt), ("window", .int a.window.size)]

def Recovery.record (r : Recovery K) : Json := .obj
  [("identity", .str (names r.key).identity), ("progress_digest", .str (names r.key).progress),
    ("kind", .str r.kind), ("reason", .str r.reason), ("task_revision", .int r.revision),
    ("recorded_at", .str r.recordedAt), ("checkpoint_commit", .str r.checkpoint)]

def Hold.record (h : Hold K) : Json := .obj
  [("identity", .str (names h.key).identity), ("attempts", .int h.window.size),
    ("progress_digest", .str (names h.key).progress), ("held_at", .str h.heldAt),
    ("window", .int h.window.size)]

def Slot.fields (s : Slot K) : Dict :=
  [("id", .str s.id), ("identity", .str (names s.key).identity),
    ("progress_digest", .str (names s.key).progress), ("window", .int s.window.size),
    ("task_revision", .int s.revision), ("reserved_at", .str s.reserved.text),
    ("expires_at", .str s.expires.text)]

def Slot.record (s : Slot K) : Json := .obj (s.fields names)

def Abandoned.record (a : Abandoned K) : Json :=
  .obj (((a.slot.fields names).set "cleaned_at" (.str a.cleaned.text)).set "cause" (.str "expired"))

def holdRecord : Option (Hold K) → Json
  | some h => h.record names
  | none => .null

def Circuit.record (c : Circuit K) : Dict :=
  [("schema_version", .int 1), ("attempts", .arr (c.attempts.map (Attempt.record names))),
    ("recoveries", .arr (c.recoveries.map (Recovery.record names))), ("hold", holdRecord names c.hold),
    ("reservations", .arr (c.slots.map (Slot.record names))),
    ("abandoned", .arr (c.abandoned.map (Abandoned.record names)))]

end Records

namespace Circuit

variable {K : Type} [DecidableEq K] (c : Circuit K) (key : K)

def recoveredRevision : Int := ((c.recoveries.filter (fun r => r.key = key)).map (·.revision)).foldl max 0

/-- The attempts of a series after its latest recovery. -/
def active : List (Attempt K) :=
  c.attempts.filter (fun a => decide (a.key = key) && decide (c.recoveredRevision key < a.revision))

def live : List (Slot K) := c.slots.filter (fun s => s.key = key)

/-- Every list within its limit and in order. -/
structure Bounded : Prop where
  attemptCount : c.attempts.length ≤ maxAttempts
  recoveryCount : c.recoveries.length ≤ maxRecoveries
  slotCount : c.slots.length ≤ maxWindow.toNat
  abandonedCount : c.abandoned.length ≤ maxAbandoned
  attemptOrder : (0 :: c.attempts.map (·.revision)).IsChain (· < ·)
  recoveryOrder : (0 :: c.recoveries.map (·.revision)).IsChain (· < ·)
  slotsApart : (c.slots.map (·.id)).Nodup

/-- What the validator asks of a circuit beyond the form of its records. -/
structure Valid : Prop extends c.Bounded where
  nonempty : c.attempts ≠ [] ∨ c.slots ≠ [] ∨ c.abandoned ≠ []
  supported : ∀ h ∈ c.hold, h.window.size ≤ (c.active h.key).length

theorem valid_iff : c.Valid ↔ (c.attempts.length ≤ maxAttempts ∧ c.recoveries.length ≤ maxRecoveries ∧
    c.slots.length ≤ maxWindow.toNat ∧ c.abandoned.length ≤ maxAbandoned) ∧
    (c.attempts ≠ [] ∨ c.slots ≠ [] ∨ c.abandoned ≠ []) ∧
    (0 :: c.attempts.map (·.revision)).IsChain (· < ·) ∧ (0 :: c.recoveries.map (·.revision)).IsChain (· < ·) ∧
    (∀ h ∈ c.hold, h.window.size ≤ (c.active h.key).length) ∧ (c.slots.map (·.id)).Nodup :=
  ⟨fun ⟨⟨a, b, d, e, g, h, j⟩, f, i⟩ => ⟨⟨a, b, d, e⟩, f, g, h, i, j⟩,
    fun ⟨⟨a, b, d, e⟩, f, g, h, i, j⟩ => ⟨⟨a, b, d, e, g, h, j⟩, f, i⟩⟩

instance : Decidable c.Valid := decidable_of_iff _ c.valid_iff.symm

end Circuit

section Validators

variable {K : Type} (names : K ↪ Series)

theorem windowOf_size (w : Window) : windowOf (.int w.size) = .ok w.size := by
  simp [windowOf, Json.exactInt?, w.bounds]

theorem windowOf_eq_ok {number size : Int} (accepted : windowOf (.int number) = .ok size) :
    ∃ w : Window, w.size = number ∧ size = number := by
  simp only [windowOf, Json.exactInt?] at accepted
  split at accepted
  · rename_i bounds
    cases accepted
    exact ⟨⟨number, bounds⟩, rfl, rfl⟩
  · cases accepted

theorem timestamp_text (stamp : Stamp) (field : String) :
    timestamp (.str stamp.text) field = .ok stamp.instant := by
  simp [timestamp, stamp.reads]

theorem timestamp_eq_ok {word field : String} {instant : Int} (read : timestamp (.str word) field = .ok instant) :
    ∃ stamp : Stamp, stamp.text = word ∧ stamp.instant = instant := by
  rw [timestamp, orRaise_eq_ok] at read
  exact ⟨⟨word, instant, read⟩, rfl, rfl⟩

theorem validateAttempt_record (a : Attempt K) (previous number : Int) :
    validateAttempt (a.record names) previous = .ok number ↔ previous < a.revision ∧ a.revision = number := by
  have known := a.known
  have stamped := a.stamped
  simp [validateAttempt, valueError, Attempt.record, Json.hasExactly, Json.isObj, Json.has, Json.fields, Dict.has,
    Dict.find, Dict.keys, Dict.get, (names a.key).named, (names a.key).bound, oneOf, Json.isStr, Json.text,
    revisionPast, Json.exactInt?, nonemptyStr, windowOf_size, revisionOf, Json.int?, known, stamped]

theorem validateRecovery_record (r : Recovery K) (previous number : Int) :
    validateRecovery (r.record names) previous = .ok number ↔ previous < r.revision ∧ r.revision = number := by
  have known := r.known
  have explained := r.explained
  have stamped := r.stamped
  have committed : ¬r.checkpoint = "" → isCommit r.checkpoint = true := fun some => r.committed.resolve_left some
  unfold validateRecovery valueError
  rw [raiseIf_bind_ok, raiseIf_bind_ok, raiseIf_bind_ok, pure_eq_ok]
  simp [Recovery.record, Json.hasExactly, Json.isObj, Json.has, Json.fields, Dict.has, Dict.find, Dict.keys, Dict.get,
    (names r.key).named, (names r.key).bound, oneOf, Json.isStr, Json.text, revisionPast, Json.exactInt?,
    nonemptyStr, revisionOf, Json.int?, known, stamped, explained]
  exact fun _ _ => committed

theorem validateReservation_record (s : Slot K) : validateReservation (s.record names) = .ok () := by
  have later := s.later
  have stamped := s.reserved.text_ne
  simp [validateReservation, valueError, Slot.record, Slot.fields, reservationNames, Json.hasExactly, Json.isObj,
    Json.has, Json.fields, Dict.has, Dict.find, Dict.keys, Dict.get, (names s.key).named, (names s.key).bound,
    s.named, Json.isStr, Json.text, Json.exactInt?, nonemptyStr, windowOf_size, timestamp_text, ok_bind, stamped,
    later]

theorem validateAbandoned_record (a : Abandoned K) : validateAbandoned (a.record names) = .ok () := by
  have elapsed := a.elapsed
  have cause : (Json.str "expired" != Json.str "expired") = false := rfl
  have kept : (((a.record names).fields.pop "cleaned_at").pop "cause") = a.slot.fields names := by
    simp [Abandoned.record, Slot.fields, Json.fields, Dict.set, Dict.pop]
  have valid := validateReservation_record names a.slot
  unfold validateAbandoned
  rw [kept]
  change (do
    let _ ← valueError _ _
    let _ ← validateReservation (a.slot.record names)
    _) = _
  rw [valid]
  simp [valueError, Abandoned.record, Slot.fields, reservationNames, Json.hasExactly, Json.isObj, Json.has,
    Json.fields, Dict.has, Dict.find, Dict.keys, Dict.get, Dict.set, timestamp_text, ok_bind, elapsed, cause]

/-- A list of records is in order when each revision is past the one before it. -/
theorem validateSeries_map {R : Type} (record : R → Json) (revision : R → Int) (check : Json → Int → Outcome Int)
    (checked : ∀ item previous number, check (record item) previous = .ok number ↔
      previous < revision item ∧ revision item = number) :
    ∀ (items : List R) (previous : Int), validateSeries check (items.map record) previous = .ok () ↔
      (previous :: items.map revision).IsChain (· < ·) := by
  intro items
  induction items with
  | nil => simp [validateSeries]
  | cons item rest ih =>
    intro previous
    rw [List.map_cons, List.map_cons, List.isChain_cons_cons, ← ih, validateSeries, bind_eq_ok]
    constructor
    · rintro ⟨number, first, later⟩
      obtain ⟨past, same⟩ := (checked item previous number).mp first
      exact ⟨past, same ▸ later⟩
    · rintro ⟨past, later⟩
      exact ⟨_, (checked item previous _).mpr ⟨past, rfl⟩, later⟩

theorem forM_map_ok {R : Type} (record : R → Json) (check : Json → Outcome Unit)
    (checked : ∀ item, check (record item) = .ok ()) (items : List R) : (items.map record).forM check = .ok () := by
  induction items with
  | nil => rfl
  | cons item rest ih =>
    change (check (record item) >>= fun _ => (rest.map record).forM check) = _
    rw [checked item]
    exact ih

end Validators

section Documents

variable {K : Type} (names : K ↪ Series)

theorem sameSeries_iff {key other : K} {item : Json}
    (identity : item.get "identity" = .str (names key).identity)
    (progress : item.get "progress_digest" = .str (names key).progress) :
    sameSeries (names other).identity (names other).progress item = true ↔ key = other := by
  rw [sameSeries, identity, progress, Bool.and_eq_true, Json.str_beq_str, Json.str_beq_str, beq_iff_eq, beq_iff_eq]
  constructor
  · rintro ⟨sameIdentity, sameProgress⟩
    apply names.injective
    cases named : names key
    cases also : names other
    simp_all
  · rintro rfl
    exact ⟨rfl, rfl⟩

@[simp] theorem Attempt.sameSeries_record (a : Attempt K) (key : K) :
    sameSeries (names key).identity (names key).progress (a.record names) = true ↔ a.key = key :=
  sameSeries_iff names (by simp [Attempt.record, Dict.get, Dict.find]) (by simp [Attempt.record, Dict.get, Dict.find])

@[simp] theorem Recovery.sameSeries_record (r : Recovery K) (key : K) :
    sameSeries (names key).identity (names key).progress (r.record names) = true ↔ r.key = key :=
  sameSeries_iff names (by simp [Recovery.record, Dict.get, Dict.find])
    (by simp [Recovery.record, Dict.get, Dict.find])

@[simp] theorem Hold.sameSeries_record (h : Hold K) (key : K) :
    sameSeries (names key).identity (names key).progress (h.record names) = true ↔ h.key = key :=
  sameSeries_iff names (by simp [Hold.record, Dict.get, Dict.find]) (by simp [Hold.record, Dict.get, Dict.find])

@[simp] theorem Slot.sameSeries_record (s : Slot K) (key : K) :
    sameSeries (names key).identity (names key).progress (s.record names) = true ↔ s.key = key :=
  sameSeries_iff names (by simp [Slot.record, Slot.fields, Dict.get, Dict.find])
    (by simp [Slot.record, Slot.fields, Dict.get, Dict.find])

@[simp] theorem Attempt.revisionOf_record (a : Attempt K) : revisionOf (a.record names) = a.revision := by
  simp [revisionOf, Attempt.record, Dict.get, Dict.find, Json.int?]

@[simp] theorem Recovery.revisionOf_record (r : Recovery K) : revisionOf (r.record names) = r.revision := by
  simp [revisionOf, Recovery.record, Dict.get, Dict.find, Json.int?]

@[simp] theorem Recovery.identity_record (r : Recovery K) : (r.record names).get "identity" = .str (names r.key).identity := by
  simp [Recovery.record, Dict.get, Dict.find]

@[simp] theorem Recovery.progress_record (r : Recovery K) :
    (r.record names).get "progress_digest" = .str (names r.key).progress := by
  simp [Recovery.record, Dict.get, Dict.find]

@[simp] theorem Slot.revisionOf_record (s : Slot K) : revisionOf (s.record names) = s.revision := by
  simp [revisionOf, Slot.record, Slot.fields, Dict.get, Dict.find, Json.int?]

namespace Circuit

variable (c : Circuit K)

@[simp] theorem attempts_record : (c.record names).get "attempts" = .arr (c.attempts.map (Attempt.record names)) := by
  simp [record, Dict.get, Dict.find]

@[simp] theorem recoveries_record :
    (c.record names).get "recoveries" = .arr (c.recoveries.map (Recovery.record names)) := by
  simp [record, Dict.get, Dict.find]

@[simp] theorem hold_record : (c.record names).get "hold" = holdRecord names c.hold := by
  simp [record, Dict.get, Dict.find]

@[simp] theorem reservations_record :
    (c.record names).get "reservations" = .arr (c.slots.map (Slot.record names)) := by
  simp [record, Dict.get, Dict.find]

@[simp] theorem abandoned_record :
    (c.record names).get "abandoned" = .arr (c.abandoned.map (Abandoned.record names)) := by
  simp [record, Dict.get, Dict.find]

@[simp] theorem schema_record : (c.record names).get "schema_version" = .int 1 := by
  simp [record, Dict.get, Dict.find]

variable [DecidableEq K]

theorem recoveredRevision_record (key : K) :
    RetryCircuit.recoveredRevision (c.record names) (names key).identity (names key).progress =
      c.recoveredRevision key := by
  have picked : (c.recoveries.map (Recovery.record names)).filter
      (sameSeries (names key).identity (names key).progress) =
        (c.recoveries.filter (fun r => r.key = key)).map (Recovery.record names) := by
    rw [List.filter_map]
    congr 1
    apply List.filter_congr
    intro r _
    rw [Function.comp_apply, Bool.eq_iff_iff, Recovery.sameSeries_record, decide_eq_true_iff]
  rw [RetryCircuit.recoveredRevision, recoveries_record]
  simp only [Json.items, picked, List.map_map, Function.comp_def, Recovery.revisionOf_record]
  rfl

theorem activeAttempts_record (key : K) :
    activeAttempts (c.record names) (names key).identity (names key).progress =
      (c.active key).map (Attempt.record names) := by
  rw [activeAttempts, attempts_record, recoveredRevision_record, active]
  simp only [Json.items, List.filter_map]
  congr 1
  apply List.filter_congr
  intro a _
  have shaped : (a.record names).isObj = true := rfl
  rw [Function.comp_apply, shaped, Bool.true_and, Bool.eq_iff_iff, Bool.and_eq_true, Attempt.sameSeries_record,
    Attempt.revisionOf_record]
  simp

theorem live_record (key : K) :
    (c.slots.map (Slot.record names)).filter (sameSeries (names key).identity (names key).progress) =
      (c.live key).map (Slot.record names) := by
  rw [live, List.filter_map]
  congr 1
  apply List.filter_congr
  intro s _
  rw [Function.comp_apply, Bool.eq_iff_iff, Slot.sameSeries_record, decide_eq_true_iff]

end Circuit

variable [DecidableEq K]

theorem validateHold_record (c : Circuit K) (hold : Option (Hold K)) :
    validateHold (holdRecord names hold) (c.record names) = .ok () ↔
      ∀ h ∈ hold, h.window.size ≤ (c.active h.key).length := by
  cases hold with
  | none => simp [validateHold, holdRecord, Json.isNull]
  | some h =>
    have stamped := h.stamped
    have least := h.window.bounds.1
    have same : (Json.int h.window.size != .int h.window.size) = false := by
      rw [bne, Bool.not_eq_false', Json.beq_int_int]
    simp [validateHold, valueError, holdRecord, Hold.record, Json.isNull, Json.hasExactly, Json.isObj, Json.has,
      Json.fields, Dict.has, Dict.find, Dict.keys, Dict.get, (names h.key).named, (names h.key).bound, Json.isStr,
      Json.text, Json.exactInt?, nonemptyStr, windowOf_size, ok_bind, stamped, least, same,
      Circuit.activeAttempts_record]

theorem validate_record (c : Circuit K) : validate (.obj (c.record names)) = .ok () ↔ c.Valid := by
  have exactly : (Json.obj (c.record names)).hasExactly
      ["schema_version", "attempts", "recoveries", "hold", "reservations", "abandoned"] = true := by
    simp [Circuit.record, Json.hasExactly, Json.isObj, Json.has, Json.fields, Dict.has, Dict.find, Dict.keys]
  have version : (Json.int 1 != .int 1) = false := rfl
  have attemptOrder := validateSeries_map (Attempt.record names) (·.revision) validateAttempt
    (fun a previous number => validateAttempt_record names a previous number) c.attempts 0
  have recoveryOrder := validateSeries_map (Recovery.record names) (·.revision) validateRecovery
    (fun r previous number => validateRecovery_record names r previous number) c.recoveries 0
  have hold := validateHold_record names c c.hold
  have reservations := forM_map_ok (Slot.record names) validateReservation (validateReservation_record names) c.slots
  have abandoned := forM_map_ok (Abandoned.record names) validateAbandoned (validateAbandoned_record names) c.abandoned
  have ids : ((c.slots.map (Slot.record names)).map (·.get "id")) = (c.slots.map (·.id)).map Json.str := by
    simp [List.map_map, Function.comp_def, Slot.record, Slot.fields, Dict.get, Dict.find]
  unfold validate
  simp only [Json.get_obj, Circuit.schema_record, Circuit.attempts_record, Circuit.recoveries_record,
    Circuit.hold_record, Circuit.reservations_record, Circuit.abandoned_record, Json.items, Json.fields, valueError,
    raiseIf_eq_ok, bind_eq_ok, exists_unit, exactly, version, attemptOrder, recoveryOrder, hold, reservations,
    abandoned, ids, boundedList, Json.isArr, List.length_map, Bool.not_eq_false', distinct_strs,
    Bool.true_and, decide_eq_true_eq, List.isEmpty_map]
  have nonempty : (c.attempts.isEmpty && c.slots.isEmpty && c.abandoned.isEmpty) = false ↔
      c.attempts ≠ [] ∨ c.slots ≠ [] ∨ c.abandoned ≠ [] := by
    simp only [Bool.and_eq_false_iff, List.isEmpty_eq_false_iff, or_assoc, ne_eq]
  constructor
  · rintro ⟨-, -, attemptCount, recoveryCount, slotCount, abandonedCount, some, attempts, recoveries, supported, -,
      apart, -⟩
    exact ⟨⟨attemptCount, recoveryCount, slotCount, abandonedCount, attempts, recoveries, apart⟩, nonempty.mp some,
      supported⟩
  · intro valid
    exact ⟨trivial, trivial, valid.attemptCount, valid.recoveryCount, valid.slotCount, valid.abandonedCount,
      nonempty.mpr valid.nonempty, valid.attemptOrder, valid.recoveryOrder, valid.supported, trivial, valid.slotsApart,
      trivial⟩

/-- The task keeps this circuit; no circuit at all is kept as the empty one. -/
def Kept (task : Meta) (c : Circuit K) : Prop :=
  (circuit task = .null ∧ c = {}) ∨ (circuit task = .obj (c.record names) ∧ (c = {} ∨ c.Valid))

/-- The task keeps this circuit and its metadata passes the circuit's validation. -/
def Intact (task : Meta) (c : Circuit K) : Prop :=
  (circuit task = .null ∧ c = {}) ∨ (circuit task = .obj (c.record names) ∧ c.Valid)

theorem Intact.kept {task : Meta} {c : Circuit K} (intact : Intact names task c) : Kept names task c :=
  intact.imp_right (fun ⟨present, valid⟩ => ⟨present, Or.inr valid⟩)

theorem Intact.metadataError {task : Meta} {c : Circuit K} (intact : Intact names task c) :
    RetryCircuit.metadataError task = none := by
  rcases intact with ⟨absent, -⟩ | ⟨present, valid⟩
  · rw [RetryCircuit.metadataError, absent]
    rfl
  · rw [RetryCircuit.metadataError, present, (validate_record names c).mpr valid]
    rfl

theorem Intact.of_circuit {task next : Meta} {c : Circuit K} (intact : Intact names task c)
    (same : circuit next = circuit task) : Intact names next c := by
  rw [Intact, same]
  exact intact

theorem Intact.none {task : Meta} (absent : circuit task = .null) : Intact names task ({} : Circuit K) :=
  Or.inl ⟨absent, rfl⟩

theorem intact_set (task : Meta) {c : Circuit K} (valid : c.Valid) :
    Intact names (task.set "retry_circuit" (.obj (c.record names))) c :=
  Or.inr ⟨by simp [circuit], valid⟩

theorem kept_set (task : Meta) {c : Circuit K} (fine : c = {} ∨ c.Valid) :
    Kept names (task.set "retry_circuit" (.obj (c.record names))) c :=
  Or.inr ⟨by simp [circuit], fine⟩

theorem Kept.state {task : Meta} {c : Circuit K} (kept : Kept names task c) :
    RetryCircuit.state task = .ok (c.record names) := by
  rcases kept with ⟨absent, rfl⟩ | ⟨present, fine⟩
  · rw [RetryCircuit.state, absent]
    rfl
  · rw [RetryCircuit.state, present]
    rcases fine with rfl | valid
    · rfl
    · rw [(validate_record names c).mpr valid]
      exact ite_self _

theorem Kept.hold {task : Meta} {c : Circuit K} (kept : Kept names task c) :
    (circuit task).get "hold" = holdRecord names c.hold := by
  rcases kept with ⟨absent, rfl⟩ | ⟨present, -⟩
  · rw [absent]
    rfl
  · rw [present, Json.get_obj, Circuit.hold_record]

theorem Kept.reservations {task : Meta} {c : Circuit K} (kept : Kept names task c) :
    ((circuit task).get "reservations").items = c.slots.map (Slot.record names) := by
  rcases kept with ⟨absent, rfl⟩ | ⟨present, -⟩
  · rw [absent]
    rfl
  · rw [present, Json.get_obj, Circuit.reservations_record]
    rfl

end Documents

end Coordinator.RetryCircuit
