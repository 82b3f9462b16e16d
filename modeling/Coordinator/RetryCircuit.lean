import Coordinator.AutonomyLimits
import Coordinator.Kit.Sha256

/-! The bounded retry circuit of a task: launch slots, failed attempts, the hold at the end of
a series of unchanged failures and the recoveries that end it. -/

namespace Coordinator.RetryCircuit
open Kit

def defaultWindow : Int := 3
def maxWindow : Int := 16
def maxAttempts : Nat := 64
def maxRecoveries : Nat := 32
def maxAbandoned : Nat := 64

def failures : List String := ["EXIT", "SUBPROCESS_TIMEOUT", "RETRYABLE"]
def recoveryKinds : List String := ["checkpoint", "changed-approach", "retry-exception"]

def digest (value : Json) : String := "sha256:" ++ Sha256.hexdigest value.canonical

def isReservation (s : String) : Bool := Text.hexText 32 s
def isCommit (s : String) : Bool := Text.hexText 40 s

def circuit (task : Meta) : Json := task.get "retry_circuit"

/-- The fingerprint of durable progress, in which notes and revisions do not count. -/
def progressDigest (task : Meta) : String :=
  let drift := (task.get "change_drift").items
  let latestDrift := match drift.getLast? with
    | some last => last.textOr "digest"
    | none => ""
  digest (.obj
    [("checkpoint_commit", .str (task.textOr "checkpoint_commit")),
      ("change_drift_digest", .str latestDrift),
      ("spec_acceptance", .str ((task.get "spec_acceptance").textOr "evidence_digest"))])

def empty : Dict :=
  [("schema_version", .int 1), ("attempts", .arr []), ("recoveries", .arr []), ("hold", .null),
    ("reservations", .arr []), ("abandoned", .arr [])]

def valueError (bad : Bool) (message : String) : Outcome Unit := raiseIf bad (.error message)

def nonemptyStr (value : Json) : Bool := value.isStr && value.text != ""

def oneOf (value : Json) (names : List String) : Bool := value.isStr && names.contains value.text

def reasonValid (value : Json) : Bool :=
  value.isStr && !Text.isBlank value.text && value.text.length ≤ 500 && !Text.contains '\n' value.text

def windowOf (value : Json) : Outcome Int :=
  match value.exactInt? with
  | some number =>
      if defaultWindow ≤ number ∧ number ≤ maxWindow then .ok number
      else .error (.error "retry circuit window must be 3..16")
  | none => .error (.error "retry circuit window must be 3..16")

def timestamp (value : Json) (field : String) : Outcome Int :=
  match value with
  | .str word => orRaise (Datetime.aware? word) (.error ("retry circuit " ++ field ++ " is invalid"))
  | _ => .error (.error ("retry circuit " ++ field ++ " is invalid"))

def revisionOf (item : Json) : Int := (item.get "task_revision").int?.getD 0

/-- A record's revision is an integer past the one before it. -/
def revisionPast (item : Json) (previous : Int) : Bool :=
  (item.get "task_revision").exactInt?.any (fun number => decide (previous < number))

def validateAttempt (attempt : Json) (previous : Int) : Outcome Int := do
  valueError (!attempt.hasExactly
    ["identity", "failure", "progress_digest", "task_revision", "recorded_at", "window"])
    "retry circuit attempt fields are invalid"
  valueError (!Text.isDigest (attempt.get "identity").toText || !oneOf (attempt.get "failure") failures ||
      !Text.isDigest (attempt.get "progress_digest").toText || !revisionPast attempt previous ||
      !nonemptyStr (attempt.get "recorded_at"))
    "retry circuit attempt is invalid"
  let _ ← windowOf (attempt.get "window")
  pure (revisionOf attempt)

def validateRecovery (recovery : Json) (previous : Int) : Outcome Int := do
  valueError (!recovery.hasExactly
    ["identity", "progress_digest", "kind", "reason", "task_revision", "recorded_at", "checkpoint_commit"])
    "retry circuit recovery fields are invalid"
  valueError (!Text.isDigest (recovery.get "identity").toText ||
      !Text.isDigest (recovery.get "progress_digest").toText ||
      !oneOf (recovery.get "kind") recoveryKinds || !revisionPast recovery previous ||
      !nonemptyStr (recovery.get "recorded_at") || !(recovery.get "checkpoint_commit").isStr ||
      ((recovery.get "checkpoint_commit").text != "" && !isCommit (recovery.get "checkpoint_commit").text))
    "retry circuit recovery is invalid"
  valueError (!reasonValid (recovery.get "reason")) "retry circuit recovery reason is invalid"
  pure (revisionOf recovery)

/-- Validate the records of a list in order, each against the revision of the one before. -/
def validateSeries (check : Json → Int → Outcome Int) : List Json → Int → Outcome Unit
  | [], _ => pure ()
  | item :: rest, previous => do
      let current ← check item previous
      validateSeries check rest current

def sameSeries (identity progress : String) (item : Json) : Bool :=
  item.get "identity" == .str identity && item.get "progress_digest" == .str progress

/-- The revision of the latest recovery of a series. -/
def recoveredRevision (state : Dict) (identity progress : String) : Int :=
  (((state.get "recoveries").items.filter (sameSeries identity progress)).map revisionOf).foldl max 0

/-- The attempts of a series after its latest recovery. -/
def activeAttempts (state : Dict) (identity progress : String) : List Json :=
  (state.get "attempts").items.filter (fun item =>
    item.isObj && sameSeries identity progress item &&
      recoveredRevision state identity progress < revisionOf item)

def validateHold (hold : Json) (state : Dict) : Outcome Unit :=
  if hold.isNull then pure ()
  else do
    valueError (!hold.hasExactly ["identity", "attempts", "progress_digest", "held_at", "window"])
      "retry circuit hold fields are invalid"
    valueError (!Text.isDigest (hold.get "identity").toText ||
        !(hold.get "attempts").exactInt?.any (fun number => decide (defaultWindow ≤ number)) ||
        !Text.isDigest (hold.get "progress_digest").toText || !nonemptyStr (hold.get "held_at"))
      "retry circuit hold is invalid"
    let window ← windowOf (hold.get "window")
    valueError (hold.get "attempts" != .int window) "retry circuit hold threshold is invalid"
    valueError (((activeAttempts state (hold.get "identity").toText
        (hold.get "progress_digest").toText).length : Int) < window)
      "retry circuit hold has insufficient attempts"

def reservationNames : List String :=
  ["id", "identity", "progress_digest", "window", "task_revision", "reserved_at", "expires_at"]

def validateReservation (reservation : Json) : Outcome Unit := do
  valueError (!reservation.hasExactly reservationNames || !isReservation (reservation.get "id").toText ||
      !Text.isDigest (reservation.get "identity").toText ||
      !Text.isDigest (reservation.get "progress_digest").toText ||
      (reservation.get "task_revision").exactInt?.isNone || !nonemptyStr (reservation.get "reserved_at"))
    "retry circuit reservation is invalid"
  let _ ← windowOf (reservation.get "window")
  let expires ← timestamp (reservation.get "expires_at") "reservation expiry"
  let reserved ← timestamp (reservation.get "reserved_at") "reservation timestamp"
  valueError (expires ≤ reserved) "retry circuit reservation expiry is invalid"

def validateAbandoned (value : Json) : Outcome Unit := do
  valueError (!value.hasExactly (reservationNames ++ ["cleaned_at", "cause"]))
    "retry circuit abandoned slot fields are invalid"
  validateReservation (.obj ((value.fields.pop "cleaned_at").pop "cause"))
  valueError (value.get "cause" != .str "expired") "retry circuit abandoned slot is invalid"
  let cleaned ← timestamp (value.get "cleaned_at") "cleanup timestamp"
  let expires ← timestamp (value.get "expires_at") "reservation expiry"
  valueError (cleaned < expires) "retry circuit abandoned slot is invalid"

def boundedList (value : Json) (limit : Nat) : Bool := value.isArr && value.items.length ≤ limit

def distinct : List Json → Bool
  | [] => true
  | item :: rest => !rest.any (item == ·) && distinct rest

/-- Values that are told apart as their sources are occur once where these do. -/
theorem distinct_map {α : Type} {make : α → Json} (apart : ∀ a b, (make a == make b) = true ↔ a = b) (sources : List α) :
    distinct (sources.map make) = true ↔ sources.Nodup := by
  induction sources with
  | nil => simp [distinct]
  | cons first rest ih =>
    rw [List.map_cons, distinct, List.nodup_cons, Bool.and_eq_true, ih]
    simp only [List.any_map, Function.comp_def, Bool.not_eq_true', List.any_eq_false, apart]
    exact and_congr_left fun _ => ⟨fun new member => new first member rfl, fun new x member same => new (same ▸ member)⟩

theorem distinct_strs (words : List String) : distinct (words.map Json.str) = true ↔ words.Nodup :=
  distinct_map (fun a b => by rw [Json.str_beq_str, beq_iff_eq]) words

def validate (value : Json) : Outcome Unit := do
  valueError (!value.hasExactly
    ["schema_version", "attempts", "recoveries", "hold", "reservations", "abandoned"])
    "retry circuit fields are not exact"
  valueError (value.get "schema_version" != .int 1) "retry circuit schema is unsupported"
  valueError (!boundedList (value.get "attempts") maxAttempts) "retry circuit attempts are invalid"
  valueError (!boundedList (value.get "recoveries") maxRecoveries) "retry circuit recoveries are invalid"
  valueError (!boundedList (value.get "reservations") maxWindow.toNat)
    "retry circuit reservations are invalid"
  valueError (!boundedList (value.get "abandoned") maxAbandoned)
    "retry circuit abandoned slots are invalid"
  valueError ((value.get "attempts").items.isEmpty && (value.get "reservations").items.isEmpty &&
    (value.get "abandoned").items.isEmpty) "retry circuit attempts are invalid"
  validateSeries validateAttempt (value.get "attempts").items 0
  validateSeries validateRecovery (value.get "recoveries").items 0
  validateHold (value.get "hold") value.fields
  (value.get "reservations").items.forM validateReservation
  valueError (!distinct ((value.get "reservations").items.map (·.get "id")))
    "retry circuit reservations are duplicated"
  (value.get "abandoned").items.forM validateAbandoned

def metadataError (task : Meta) : Option String :=
  if (circuit task).isNull then none
  else match validate (circuit task) with
    | .ok _ => none
    | .error (.error message) => some message
    | .error (.replay message) => some message

def emptyList (value : Json) : Bool := value.isArr && value.items.isEmpty

def state (task : Meta) : Outcome Dict :=
  let value := circuit task
  if value.isNull then pure empty
  else if value.isObj && value.get "schema_version" == .int 1 && emptyList (value.get "attempts") &&
      emptyList (value.get "recoveries") && (value.get "hold").isNull &&
      emptyList (value.get "reservations") && emptyList (value.get "abandoned") then pure value.fields
  else do
    validate value
    pure value.fields

/-- Refuse a command whose series is held at the present progress. -/
def admitAttempt (task : Meta) (identity : String) : Outcome Unit := do
  let current ← state task
  let hold := current.get "hold"
  raiseIf (!hold.isNull && sameSeries identity (progressDigest task) hold)
    (.error "RETRY_CIRCUIT_OPEN: repeated no-progress attempts require retry-circuit recovery")

def expired (reservation : Json) (recordedAt : String) : Outcome Bool := do
  let expires ← timestamp (reservation.get "expires_at") "reservation expiry"
  let recorded ← timestamp (.str recordedAt) "cleanup timestamp"
  pure (expires ≤ recorded)

/-- Split off the slots that have elapsed, in order. -/
def splitExpired (recordedAt : String) : List Json → Outcome (List Json × List Json)
  | [] => pure ([], [])
  | item :: rest => do
      let gone ← expired item recordedAt
      let (dead, live) ← splitExpired recordedAt rest
      pure (if gone then (item :: dead, live) else (dead, item :: live))

/-- Retire elapsed slots; also tell how many there were. -/
def cleanupExpired (task : Meta) (recordedAt : String) : Outcome (Meta × Nat) := do
  let current ← state task
  let (dead, live) ← splitExpired recordedAt (current.get "reservations").items
  if dead.isEmpty then pure (task, 0)
  else
    let retired := dead.map (fun item =>
      Json.obj ((item.fields.set "cleaned_at" (.str recordedAt)).set "cause" (.str "expired")))
    let current := (current.set "reservations" (.arr live)).set "abandoned"
      (.arr (AutonomyLimits.lastOf maxAbandoned ((current.get "abandoned").items ++ retired)))
    validate (.obj current)
    pure (task.set "retry_circuit" (.obj current), dead.length)

def requireNoLiveReservation (task : Meta) (recordedAt : String) : Outcome Meta := do
  let (task, _) ← cleanupExpired task recordedAt
  raiseIf ((circuit task).isObj && !((circuit task).get "reservations").items.isEmpty)
    (.error "RETRY_CIRCUIT_IN_PROGRESS: task has a live unbound retry reservation")
  pure task

/-- Append a failure, and open the circuit when the series fills its window. -/
def recordFailure (task : Meta) (identity failure : String) (window : Int) (recordedAt : String) :
    Outcome (Meta × String) := do
  valueError (!failures.contains failure || !Text.isDigest identity || recordedAt == "")
    "retry circuit failure input is invalid"
  let threshold ← windowOf (.int window)
  let current ← state task
  let progress := progressDigest task
  let previous := activeAttempts current identity progress
  raiseIf (previous.getLast?.any (fun last => last.get "window" != .int threshold))
    (.error "retry circuit window changed within an active attempt series")
  let attempt : Json := .obj
    [("identity", .str identity), ("failure", .str failure), ("progress_digest", .str progress),
      ("task_revision", .int (Meta.revision task)), ("recorded_at", .str recordedAt), ("window", .int threshold)]
  let current := current.set "attempts"
    (.arr (AutonomyLimits.lastOf maxAttempts ((current.get "attempts").items ++ [attempt])))
  let count : Int := previous.length + 1
  let hold : Json := .obj
    [("identity", .str identity), ("attempts", .int threshold), ("progress_digest", .str progress),
      ("held_at", .str recordedAt), ("window", .int threshold)]
  let current := if threshold ≤ count then current.set "hold" hold else current
  let note := if threshold ≤ count then "Retry circuit opened after bounded unchanged failures."
    else "Recorded retryable failure " ++ toString count ++ "/" ++ toString threshold ++ "."
  validate (.obj current)
  pure (task.set "retry_circuit" (.obj current), note)

/-- Take one launch slot of a series before its command starts. -/
def reserve (task : Meta) (identity : String) (window : Int) (reservationId recordedAt expiresAt : String) :
    Outcome (Meta × String) := do
  let threshold ← windowOf (.int window)
  valueError (!Text.isDigest identity || !isReservation reservationId || recordedAt == "")
    "retry circuit reservation input is invalid"
  let expires ← timestamp (.str expiresAt) "reservation expiry"
  let recorded ← timestamp (.str recordedAt) "reservation timestamp"
  valueError (expires ≤ recorded) "retry circuit reservation expiry is invalid"
  let (task, cleaned) ← cleanupExpired task recordedAt
  let current ← state task
  let progress := progressDigest task
  admitAttempt task identity
  let used := (activeAttempts current identity progress).length +
    ((current.get "reservations").items.filter (sameSeries identity progress)).length
  raiseIf (threshold ≤ used) (.error "RETRY_CIRCUIT_OPEN: retry window is fully reserved")
  let reservation : Json := .obj
    [("id", .str reservationId), ("identity", .str identity), ("progress_digest", .str progress),
      ("window", .int threshold), ("task_revision", .int (Meta.revision task)),
      ("reserved_at", .str recordedAt), ("expires_at", .str expiresAt)]
  let current := current.set "reservations" (.arr ((current.get "reservations").items ++ [reservation]))
  validate (.obj current)
  pure (task.set "retry_circuit" (.obj current),
    "Reserved retry circuit launch slot; expired_slots_cleaned=" ++ toString cleaned ++ ".")

/-- The slot with an identifier, which must belong to the command. -/
def selectedSlot (current : Dict) (identity reservationId : String) : Outcome Json := do
  let selected ← orRaise ((current.get "reservations").items.find? (fun item => item.get "id" == .str reservationId))
    (.error "retry circuit reservation is not current")
  raiseIf (selected.get "identity" != .str identity) (.error "retry circuit reservation is not current")
  pure selected

/-- Give one slot back and turn a failed launch into an attempt. -/
def resolve (task : Meta) (identity reservationId : String) (failure : Option String) (recordedAt : String) :
    Outcome (Meta × String) := do
  let current ← state task
  let selected ← selectedSlot current identity reservationId
  let current := current.set "reservations"
    (.arr ((current.get "reservations").items.filter (fun item => item.get "id" != .str reservationId)))
  let task := task.set "retry_circuit" (.obj current)
  match failure with
  | none =>
      if (current.get "attempts").items.isEmpty then
        pure (task.pop "retry_circuit", "Released retry circuit launch slot.")
      else do
        validate (.obj current)
        pure (task, "Released retry circuit launch slot.")
  | some failure =>
      recordFailure task identity failure ((selected.get "window").int?.getD 0) recordedAt

/-- The only revision at which a slot can be resolved. -/
def resolutionRevision (task : Meta) (identity reservationId : String) : Outcome Int := do
  let current ← state task
  let selected ← selectedSlot current identity reservationId
  pure (revisionOf selected + 1)

/-- Record a deliberate recovery of the held series. -/
def recover (task : Meta) (identity kind reason recordedAt : String) : Outcome (Meta × String) := do
  valueError (!recoveryKinds.contains kind || !Text.isDigest identity || recordedAt == "")
    "retry circuit recovery input is invalid"
  let current ← state task
  let hold := current.get "hold"
  raiseIf (hold.isNull || hold.get "identity" != .str identity)
    (.error "retry circuit recovery requires the exact held attempt identity")
  let checkpoint := task.textOr "checkpoint_commit"
  raiseIf (kind == "checkpoint" && !isCommit checkpoint)
    (.error "retry circuit checkpoint recovery requires a recorded checkpoint")
  valueError (!reasonValid (.str reason)) "retry circuit recovery reason is invalid"
  let recovery : Json := .obj
    [("identity", .str identity), ("progress_digest", .str (progressDigest task)), ("kind", .str kind),
      ("reason", .str (Text.strip reason)), ("task_revision", .int (Meta.revision task)),
      ("recorded_at", .str recordedAt), ("checkpoint_commit", .str checkpoint)]
  let current := (current.set "recoveries"
    (.arr (AutonomyLimits.lastOf maxRecoveries ((current.get "recoveries").items ++ [recovery])))).set "hold" .null
  validate (.obj current)
  pure (task.set "retry_circuit" (.obj current), "Retry circuit recovered by " ++ kind ++ ".")

def requireOwner (task : Meta) (owner purpose : String) : Outcome Unit :=
  raiseIf (task.get "owner" != .str owner || task.get "status" != .str "in_progress")
    (.error ("retry circuit " ++ purpose ++ " requires the active task owner"))

def requireRevision (task : Meta) (expectedRevision : Int) (purpose : String) : Outcome Unit :=
  raiseIf (task.get "task_revision" != .int expectedRevision)
    (.error ("retry circuit " ++ purpose ++ " requires the current task revision"))

def apply (task : Meta) (owner : String) (expectedRevision : Int) (attempt action reason recordedAt : String) :
    Outcome (Meta × String) := do
  requireOwner task owner "recovery"
  requireRevision task expectedRevision "recovery"
  let task ← requireNoLiveReservation task recordedAt
  recover task attempt action reason recordedAt

/-- A launch slot as a run asks for it. -/
structure SlotRequest where
  identity : String
  window : Int
  reservation : String
  expiresAt : String

def applyReserve (task : Meta) (owner : String) (expectedRevision : Int) (slot : SlotRequest)
    (recordedAt : String) : Outcome (Meta × String) := do
  requireOwner task owner "reservation"
  requireRevision task expectedRevision "reservation"
  reserve task slot.identity slot.window slot.reservation recordedAt slot.expiresAt

def applyResolve (task : Meta) (owner : String) (expectedRevision : Int) (identity reservationId : String)
    (failure : Option String) (recordedAt : String) : Outcome (Meta × String) := do
  requireOwner task owner "resolution"
  let required ← resolutionRevision task identity reservationId
  raiseIf (expectedRevision != required || task.get "task_revision" != .int required)
    (.error "retry circuit resolution requires the revision immediately after its reservation")
  resolve task identity reservationId failure recordedAt

end Coordinator.RetryCircuit
