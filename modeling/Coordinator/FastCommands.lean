import Coordinator.FastObservation
import Coordinator.Kit.Argparse
import Coordinator.Kit.JsonOrder
import Coordinator.Receipts

/-! The fast commands on their two ways to the store of receipts: as a request over the private socket, and by the parser of
the command line. -/

namespace Coordinator.FastCommands
open Kit Kit.Argparse Receipts

/-- A command that both ways lead to. -/
inductive Call where
  | heartbeat (key task owner : String) (expectedRevision leaseMinutes : Int)
  | claim (key task owner : String) (expectedRevision leaseMinutes : Int) (workerPid workerStartTime : Option Int)
  | promote (key task : String) (expectedRevision : Int) (note : String)
  | update (key task owner : String) (expectedRevision : Int) (changes : Dict) (note : String)
  | receipt (receiptId : String)
  | observe (maxAge : Json)

/-- What a command that is accepted does. -/
inductive Effect where
  | enqueued (after : Store) (intent : Intent)
  | found (intent : Intent)
  | observes (maximum : Nat)

def enqueued (answer : Store × Intent) : Effect := .enqueued answer.1 answer.2

/-- Run a command on a store, with the identifier and the time that a new row gets. -/
def Call.run (store : Store) (receiptId : String) (now : Nat) : Call → Receipts.Outcome Effect
  | .heartbeat key task owner expectedRevision leaseMinutes =>
      (enqueueHeartbeat store key task owner expectedRevision leaseMinutes receiptId now).map enqueued
  | .claim key task owner expectedRevision leaseMinutes workerPid workerStartTime =>
      (enqueueClaim store key task owner expectedRevision leaseMinutes receiptId now workerPid workerStartTime).map enqueued
  | .promote key task expectedRevision note => (enqueuePromote store key task expectedRevision receiptId now note).map enqueued
  | .update key task owner expectedRevision changes note =>
      (enqueueUpdate store key task owner expectedRevision receiptId now (.obj changes) note).map enqueued
  | .receipt own => do
      let row ← Receipts.read store own
      orRaise (row.map .found) (.runtimeError "unknown fast receipt")
  | .observe maxAge => ((FastObservation.validateMaxAge maxAge).map .observes).mapError .runtimeError

/-! The request of the client. -/

/-- The name under which an option is kept. -/
def dest (name : String) : String :=
  String.ofList (((Text.stripPrefix? "--".toList name.toList).getD name.toList).map fun c => if c = '-' then '_' else c)

def pairsOf : List String → Option (List (String × String))
  | [] => some []
  | [_] => none
  | name :: value :: rest => (pairsOf rest).map ((name, value) :: ·)

def valueOf (pairs : List (String × String)) (name : String) : String := (lookup pairs name).getD ""

def promoteNames : List String := ["--expected-revision", "--note", "--key"]

def promoteRequest (task : String) (rest : List String) : Option Json := do
  if rest.length ≠ 6 ∨ Text.hasPrefix "-" task = true then none
  else
    let pairs ← pairsOf rest
    let names := pairs.map Prod.fst
    if !(names.all promoteNames.contains && promoteNames.all names.contains) then none
    else
      let revision ← readInt (valueOf pairs "--expected-revision")
      some (.obj [("protocol", .int 1), ("action", .str "promote"), ("task", .str task), ("expected_revision", .int revision),
        ("note", .str (valueOf pairs "--note")), ("key", .str (valueOf pairs "--key"))])

def changeNames : List String := ["--status", "--priority", "--summary", "--next-action"]
def updateNames : List String := ["--owner", "--expected-revision"] ++ changeNames ++ ["--note", "--key"]

def changesOf (pairs : List (String × String)) : Dict :=
  (pairs.filter fun pair => changeNames.contains pair.1).map fun pair => (dest pair.1, .str pair.2)

def updateRequest (task : String) (rest : List String) : Option Json := do
  if rest.length < 8 ∨ Text.hasPrefix "-" task = true then none
  else
    let pairs ← pairsOf rest
    let names := pairs.map Prod.fst
    if !(decide names.Nodup && names.all updateNames.contains &&
        ["--owner", "--expected-revision", "--note", "--key"].all names.contains) then none
    else if (changesOf pairs).isEmpty then none
    else
      let revision ← readInt (valueOf pairs "--expected-revision")
      some (.obj [("protocol", .int 1), ("action", .str "update"), ("task", .str task), ("owner", .str (valueOf pairs "--owner")),
        ("expected_revision", .int revision), ("changes", .obj (changesOf pairs)), ("note", .str (valueOf pairs "--note")),
        ("key", .str (valueOf pairs "--key"))])

def leaseNames : List String :=
  ["--owner", "--expected-revision", "--lease-minutes", "--worker-pid", "--worker-start-time", "--key"]

/-- The integer of an option that may be absent. -/
def optionalInt (pairs : List (String × String)) (name : String) : Option (Option Int) :=
  match lookup pairs name with
  | none => some none
  | some value => (readInt value).map some

/-- A heartbeat or a claim. -/
def leaseRequest (action task : String) (rest : List String) : Option Json := do
  if rest.length < 6 ∨ Text.hasPrefix "-" task = true then none
  else
    let pairs ← pairsOf rest
    let names := pairs.map Prod.fst
    if !(decide names.Nodup && names.all leaseNames.contains &&
        ["--owner", "--expected-revision", "--key"].all names.contains) then none
    else
      let revision ← readInt (valueOf pairs "--expected-revision")
      let lease ← readInt ((lookup pairs "--lease-minutes").getD "120")
      let workerPid ← optionalInt pairs "--worker-pid"
      let workerStartTime ← optionalInt pairs "--worker-start-time"
      let worker : Option Dict := match workerPid, workerStartTime with
        | none, none => some []
        | some pid, some started => some [("worker_pid", .int pid), ("worker_start_time", .int started)]
        | _, _ => none
      let identity ← worker
      some (.obj (([("protocol", .int 1), ("action", .str action), ("task", .str task), ("owner", .str (valueOf pairs "--owner")),
        ("expected_revision", .int revision), ("lease_minutes", .int lease), ("key", .str (valueOf pairs "--key"))] : Dict) ++ identity))

def observeRequest (value : String) : Option Json := do
  let maximum ← readInt value
  if (FastObservation.validateMaxAge (.int maximum)).isOk then
    some (.obj [("protocol", .int 1), ("action", .str "observe"), ("max_age_seconds", .int maximum)])
  else none

/-- The request for a command line, if the client has one. -/
def fastRequest : List String → Option Json
  | ["fast", "receipt", receiptId] => some (.obj [("protocol", .int 1), ("action", .str "receipt"), ("receipt_id", .str receiptId)])
  | ["fast", "observe", "--max-age-seconds", value] => observeRequest value
  | "fast" :: "promote" :: task :: rest => promoteRequest task rest
  | "fast" :: "update" :: task :: rest => updateRequest task rest
  | "fast" :: "heartbeat" :: task :: rest => leaseRequest "heartbeat" task rest
  | "fast" :: "claim" :: task :: rest => leaseRequest "claim" task rest
  | _ => none

/-! The server. What it reads from the socket is the JSON text of the request, whose texts and integers come back as they were. -/

def leaseFields : List String := ["protocol", "action", "task", "owner", "expected_revision", "lease_minutes", "key"]
def promoteFields : List String := ["protocol", "action", "task", "expected_revision", "note", "key"]
def updateFields : List String := ["protocol", "action", "task", "owner", "expected_revision", "changes", "note", "key"]

/-- Integers and texts, as fields of a request have to be. -/
def typed (request : Json) (integers texts : List String) : Bool :=
  integers.all (fun name => (request.get name).exactInt?.isSome) && texts.all (fun name => (request.get name).isStr)

def requireRequest (request : Json) : Receipts.Outcome Json := do
  raiseIf (!request.isObj || request.get "protocol" != .int 1) (.runtimeError "invalid fast receipt socket protocol")
  match request.get "action" with
  | .str "receipt" =>
      raiseIf (!request.hasExactly ["protocol", "action", "receipt_id"]) (.runtimeError "invalid fast receipt lookup")
      pure request
  | .str "observe" =>
      raiseIf (!request.hasExactly ["protocol", "action", "max_age_seconds"] ||
        !(FastObservation.validateMaxAge (request.get "max_age_seconds")).isOk) (.runtimeError "invalid fast observation request")
      pure request
  | .str "heartbeat" =>
      raiseIf (!request.hasExactly leaseFields) (.runtimeError "invalid fast heartbeat request")
      raiseIf (!typed request ["expected_revision", "lease_minutes"] ["task", "owner", "key"])
        (.runtimeError "invalid fast heartbeat request fields")
      pure request
  | .str "claim" =>
      raiseIf (!(request.hasExactly leaseFields || request.hasExactly (leaseFields ++ ["worker_pid", "worker_start_time"])))
        (.runtimeError "invalid fast claim request")
      raiseIf (!typed request ["expected_revision", "lease_minutes"] ["task", "owner", "key"] ||
          (request.has "worker_pid" && (!(request.get "worker_pid").exactInt?.any (0 < ·) ||
            !(request.get "worker_start_time").exactInt?.any (0 ≤ ·))))
        (.runtimeError "invalid fast claim request fields")
      pure request
  | .str "promote" =>
      raiseIf (!request.hasExactly promoteFields) (.runtimeError "invalid fast promote request")
      raiseIf (!typed request ["expected_revision"] ["task", "note", "key"]) (.runtimeError "invalid fast promote request fields")
      pure request
  | .str "update" =>
      raiseIf (!request.hasExactly updateFields) (.runtimeError "invalid fast update request")
      raiseIf (!typed request ["expected_revision"] ["task", "owner", "note", "key"] ||
        !(validateUpdateChanges (request.get "changes")).isOk) (.runtimeError "invalid fast update request fields")
      pure request
  | _ => throw (.runtimeError "unknown fast receipt socket action")

/-- The command that the server makes of a request. -/
def serverCall (request : Json) : Receipts.Outcome Call := do
  let request ← requireRequest request
  let text (name : String) := (request.get name).text
  let number (name : String) := (request.get name).exactInt?
  pure (match request.get "action" with
    | .str "observe" => .observe (request.get "max_age_seconds")
    | .str "heartbeat" => .heartbeat (text "key") (text "task") (text "owner") ((number "expected_revision").getD 0)
        ((number "lease_minutes").getD 0)
    | .str "claim" => .claim (text "key") (text "task") (text "owner") ((number "expected_revision").getD 0)
        ((number "lease_minutes").getD 0) (number "worker_pid") (number "worker_start_time")
    | .str "promote" => .promote (text "key") (text "task") ((number "expected_revision").getD 0) (text "note")
    | .str "update" => .update (text "key") (text "task") (text "owner") ((number "expected_revision").getD 0)
        (request.get "changes").fields (text "note")
    | _ => .receipt (text "receipt_id"))

/-! The command line. -/

def statuses : List String :=
  ["in_progress", "open", "blocked", "planned", "future", "done", "cancelled", "superseded"]

def anyText (value : String) : Option Json := some (.str value)
def integer (value : String) : Option Json := (readInt value).map .int
def choice (choices : List String) (value : String) : Option Json := if choices.contains value then some (.str value) else none

def heartbeatParser : Parser Json :=
  ⟨1, [⟨"--owner", anyText, true⟩, ⟨"--expected-revision", integer, true⟩, ⟨"--lease-minutes", integer, false⟩, ⟨"--key", anyText, true⟩]⟩

def claimParser : Parser Json :=
  ⟨1, [⟨"--owner", anyText, true⟩, ⟨"--expected-revision", integer, true⟩, ⟨"--lease-minutes", integer, false⟩,
    ⟨"--worker-pid", integer, false⟩, ⟨"--worker-start-time", integer, false⟩, ⟨"--key", anyText, true⟩]⟩

def promoteParser : Parser Json :=
  ⟨1, [⟨"--expected-revision", integer, true⟩, ⟨"--note", anyText, true⟩, ⟨"--key", anyText, true⟩]⟩

def updateParser : Parser Json :=
  ⟨1, [⟨"--owner", anyText, true⟩, ⟨"--expected-revision", integer, true⟩, ⟨"--status", choice statuses, false⟩,
    ⟨"--priority", choice Receipts.priorities, false⟩, ⟨"--summary", anyText, false⟩, ⟨"--next-action", anyText, false⟩,
    ⟨"--note", anyText, true⟩, ⟨"--key", anyText, true⟩]⟩

def receiptParser : Parser Json := ⟨1, []⟩

def observeParser : Parser Json := ⟨0, [⟨"--max-age-seconds", integer, true⟩]⟩

/-- The parser of an action, of those that the socket serves. -/
def parserOf : String → Option (Parser Json)
  | "heartbeat" => some heartbeatParser
  | "claim" => some claimParser
  | "promote" => some promoteParser
  | "update" => some updateParser
  | "receipt" => some receiptParser
  | "observe" => some observeParser
  | _ => none

/-- The changes that the command line carries. -/
def givenChanges (parsed : Parsed Json) : Dict :=
  changeNames.filterMap fun name => (parsed.get? name).map fun value => (dest name, value)

/-- The command that the dispatcher makes of what was parsed. -/
def dispatchFast (action : String) (parsed : Parsed Json) : Option Call :=
  let text (name : String) := ((parsed.get? name).getD .null).text
  let number (name : String) := (parsed.get? name).bind Json.exactInt?
  let positional := parsed.positionals.headD ""
  match action with
  | "observe" => some (.observe ((parsed.get? "--max-age-seconds").getD .null))
  | "heartbeat" => some (.heartbeat (text "--key") positional (text "--owner") ((number "--expected-revision").getD 0)
      ((number "--lease-minutes").getD 120))
  | "claim" => some (.claim (text "--key") positional (text "--owner") ((number "--expected-revision").getD 0)
      ((number "--lease-minutes").getD 120) (number "--worker-pid") (number "--worker-start-time"))
  | "promote" => some (.promote (text "--key") positional ((number "--expected-revision").getD 0) (text "--note"))
  | "update" => some (.update (text "--key") positional (text "--owner") ((number "--expected-revision").getD 0) (givenChanges parsed)
      (text "--note"))
  | "receipt" => some (.receipt positional)
  | _ => none

def directCall : List String → Option Call
  | "fast" :: action :: args => do
      let parser ← parserOf action
      let parsed ← parser.parse args
      dispatchFast action parsed
  | _ => none

/-! Where the ways agree. -/

/-- The two ways do the same with a command line, on every store. -/
def Agrees (argv : List String) (request : Json) : Prop :=
  ∀ store receiptId now effect, (serverCall request >>= Call.run store receiptId now) = .ok effect ↔
    ∃ call, directCall argv = some call ∧ call.run store receiptId now = .ok effect

/-- What stands where a command line has an argument of an option, or the identifier of a receipt. -/
def argumentsOf : List String → List String
  | ["fast", "receipt", receiptId] => [receiptId]
  | "fast" :: "observe" :: rest => ((pairsOf rest).getD []).map Prod.snd
  | "fast" :: _ :: _ :: rest => ((pairsOf rest).getD []).map Prod.snd
  | _ => []

/-- None of them is taken for an option. -/
def Plain (argv : List String) : Prop := ∀ parser ∈ (argv[1]?).bind parserOf, ∀ value ∈ argumentsOf argv,
  isArgument parser.strings value = true

def token (request : Json) (name : String) : Bool := isToken (request.get name).text

def atLeast (request : Json) (name : String) (low : Int) : Bool := (request.get name).exactInt?.any (low ≤ ·)

/-- A note within its bounds. -/
def noteFits (note : String) : Bool := 1 ≤ note.length && note.length ≤ maxNote && !Text.contains '\x00' note

def noted (request : Json) : Bool := noteFits (request.get "note").text

/-- The fields keep to the bounds of the store. -/
def Fits (request : Json) : Bool :=
  match (request.get "action").text with
  | "heartbeat" => token request "key" && token request "task" && token request "owner" && atLeast request "expected_revision" 1 &&
      atLeast request "lease_minutes" 1 && !atLeast request "lease_minutes" 1441 && !request.has "worker_pid"
  | "claim" => token request "key" && token request "task" && token request "owner" && atLeast request "expected_revision" 1 &&
      atLeast request "lease_minutes" 1 && !atLeast request "lease_minutes" 1441 &&
      (!request.has "worker_pid" || (atLeast request "worker_pid" 1 && atLeast request "worker_start_time" 0))
  | "promote" => token request "key" && token request "task" && atLeast request "expected_revision" 1 && noted request
  | "update" => token request "key" && token request "task" && token request "owner" && atLeast request "expected_revision" 1 &&
      noted request && (validateUpdateChanges (request.get "changes")).isOk
  | "receipt" => isIdentifier (request.get "receipt_id").text
  | _ => true

/-! What the store takes. -/

section possible

variable {key task owner note operation : String} {revision lease : Int} {payload : Dict}

theorem enqueue_checked {store : Store} {receiptId : String} {now : Nat} {answer : Store × Intent}
    (accepted : enqueue store key task revision receiptId now payload = .ok answer) :
    isToken key = true ∧ isToken task = true ∧ 1 ≤ revision := by
  have checked := (raiseIf_bind_ok.mp accepted).1
  simpa [and_assoc] using checked

/-- An intent that its key is bound to is taken again. -/
theorem enqueue_again {store : Store} {receiptId : String} {now : Nat} {row : Intent} (keyed : isToken key = true)
    (tasked : isToken task = true) (low : 1 ≤ revision) (known : payload.get "operation" = .str operation)
    (located : Table.select Intent.idempotencyKey store.intents key = some row)
    (json : row.payloadJson = String.ofList (Json.obj payload).canonical)
    (digest : row.inputDigest = Sha256.hexdigest (Json.obj payload).canonical) :
    enqueue store key task revision receiptId now payload = .ok (store, row) := by
  have low_ : decide (revision < 1) = false := decide_eq_false (not_lt.mpr low)
  rw [enqueue, keyed, tasked, low_, known]
  simp only [Bool.not_true, Bool.or_self, raiseIf_false, Json.isStr, located]
  simp only [json, digest, ne_eq, not_true_eq_false, decide_false, Bool.or_self]
  rfl

def boundRow (key task operation : String) (revision : Int) (payload : Dict) : Intent :=
  ⟨"", key, operation, task, revision, String.ofList (Json.obj payload).canonical, Sha256.hexdigest (Json.obj payload).canonical,
    .queuedLocal, none, none, none, none, none, none, none, 0⟩

/-- A store that has bound the key to the intent before. -/
def boundStore (key task operation : String) (revision : Int) (payload : Dict) : Store :=
  ⟨"", [boundRow key task operation revision payload]⟩

theorem enqueue_boundStore (keyed : isToken key = true) (tasked : isToken task = true) (low : 1 ≤ revision)
    (known : payload.get "operation" = .str operation) :
    enqueue (boundStore key task operation revision payload) key task revision "" 0 payload =
      .ok (boundStore key task operation revision payload, boundRow key task operation revision payload) := by
  have located : Table.select Intent.idempotencyKey (boundStore key task operation revision payload).intents key =
      some (boundRow key task operation revision payload) := List.find?_cons_of_pos (decide_eq_true rfl)
  have json : (boundRow key task operation revision payload).payloadJson = String.ofList (Json.obj payload).canonical := by
    rw [boundRow]
  have digest : (boundRow key task operation revision payload).inputDigest = Sha256.hexdigest (Json.obj payload).canonical := by
    rw [boundRow]
  exact enqueue_again keyed tasked low known located json digest

theorem map_enqueued {x : Receipts.Outcome (Store × Intent)} : (∃ effect, x.map enqueued = .ok effect) ↔ ∃ answer, x = .ok answer := by
  cases x <;> simp [Except.map]

/-- Some store accepts the command. -/
def Call.Possible (call : Call) : Prop := ∃ store receiptId now effect, call.run store receiptId now = .ok effect

theorem heartbeat_possible : (Call.heartbeat key task owner revision lease).Possible ↔
    isToken key = true ∧ isToken task = true ∧ isToken owner = true ∧ 1 ≤ revision ∧ 1 ≤ lease ∧ lease ≤ 1440 := by
  simp only [Call.Possible, Call.run, map_enqueued, enqueueHeartbeat, raiseIf_bind_ok]
  constructor
  · rintro ⟨store, receiptId, now, answer, tokens, owned, bounds, -⟩
    simp only [Bool.or_eq_false_iff, Bool.not_eq_false', decide_eq_false_iff_not, not_lt] at tokens owned bounds
    exact ⟨tokens.1, tokens.2, owned, bounds.1.1, bounds.1.2, bounds.2⟩
  · rintro ⟨keyed, tasked, owned, low, leased, short⟩
    let payload : Dict := [("expected_revision", .int revision), ("lease_minutes", .int lease), ("operation", .str "heartbeat"),
      ("owner", .str owner), ("project_id", .str ""), ("task", .str task)]
    have known : payload.get "operation" = .str "heartbeat" := rfl
    refine ⟨boundStore key task "heartbeat" revision payload, "", 0, _, ?_, ?_, ?_, enqueue_boundStore keyed tasked low known⟩
    · rw [keyed, tasked]
      rfl
    · rw [owned]
      rfl
    · simp only [Bool.or_eq_false_iff, decide_eq_false_iff_not, not_lt]
      exact ⟨⟨low, leased⟩, short⟩

/-- A worker that is identified, or none. -/
def workerFits (workerPid workerStartTime : Option Int) : Prop :=
  (workerPid = none ∧ workerStartTime = none) ∨ ∃ pid started, workerPid = some pid ∧ workerStartTime = some started ∧ 0 < pid ∧ 0 ≤ started

theorem workerFits_iff {workerPid workerStartTime : Option Int} :
    (workerPid.isSome != workerStartTime.isSome || workerPid.any (· ≤ 0) || workerStartTime.any (· < 0)) = false ↔
      workerFits workerPid workerStartTime := by
  unfold workerFits
  cases workerPid <;> cases workerStartTime <;> simp

theorem claim_possible {workerPid workerStartTime : Option Int} :
    (Call.claim key task owner revision lease workerPid workerStartTime).Possible ↔
      isToken key = true ∧ isToken task = true ∧ isToken owner = true ∧ 1 ≤ revision ∧ 1 ≤ lease ∧ lease ≤ 1440 ∧
        workerFits workerPid workerStartTime := by
  simp only [Call.Possible, Call.run, map_enqueued, enqueueClaim, raiseIf_bind_ok, workerFits_iff]
  constructor
  · rintro ⟨store, receiptId, now, answer, tokens, owned, bounds, worker, -⟩
    simp only [Bool.or_eq_false_iff, Bool.not_eq_false', decide_eq_false_iff_not, not_lt] at tokens owned bounds
    exact ⟨tokens.1, tokens.2, owned, bounds.1.1, bounds.1.2, bounds.2, worker⟩
  · rintro ⟨keyed, tasked, owned, low, leased, short, worker⟩
    let payload : Dict := [("expected_revision", .int revision), ("lease_minutes", .int lease), ("operation", .str "claim"),
      ("owner", .str owner), ("project_id", .str ""), ("task", .str task)] ++
        (workerPid.map fun n => ("worker_pid", Json.int n)).toList ++
        (workerStartTime.map fun n => ("worker_start_time", Json.int n)).toList
    have known : payload.get "operation" = .str "claim" := rfl
    refine ⟨boundStore key task "claim" revision payload, "", 0, _, ?_, ?_, ?_, worker, enqueue_boundStore keyed tasked low known⟩
    · rw [keyed, tasked]
      rfl
    · rw [owned]
      rfl
    · simp only [Bool.or_eq_false_iff, decide_eq_false_iff_not, not_lt]
      exact ⟨⟨low, leased⟩, short⟩

theorem noteFits_iff : noteFits note = true ↔
    (decide (note.length < 1) || decide (maxNote < note.length) || Text.contains '\x00' note) = false := by
  simp only [noteFits, Bool.and_eq_true, decide_eq_true_eq, Bool.not_eq_true', Bool.or_eq_false_iff, decide_eq_false_iff_not, not_lt]

theorem promote_possible : (Call.promote key task revision note).Possible ↔
    isToken key = true ∧ isToken task = true ∧ 1 ≤ revision ∧ noteFits note = true := by
  simp only [Call.Possible, Call.run, map_enqueued, enqueuePromote, raiseIf_bind_ok, noteFits_iff]
  constructor
  · rintro ⟨store, receiptId, now, answer, noted, accepted⟩
    obtain ⟨keyed, tasked, low⟩ := enqueue_checked accepted
    exact ⟨keyed, tasked, low, noted⟩
  · rintro ⟨keyed, tasked, low, noted⟩
    let payload : Dict := [("expected_revision", .int revision), ("note", .str note), ("operation", .str "promote"),
      ("project_id", .str ""), ("task", .str task)]
    have known : payload.get "operation" = .str "promote" := rfl
    exact ⟨boundStore key task "promote" revision payload, "", 0, _, noted, enqueue_boundStore keyed tasked low known⟩

theorem validateUpdateChanges_isOk {changes : Json} :
    (validateUpdateChanges changes).isOk = true ↔ validateUpdateChanges changes = .ok changes.fields := by
  constructor
  · intro ok
    cases checked : validateUpdateChanges changes with
    | error fault =>
      rw [checked] at ok
      cases ok
    | ok accepted =>
      obtain ⟨_, -, same⟩ := bind_eq_ok.mp checked
      rw [pure_eq_ok] at same
      rw [same]
  · intro checked
    rw [checked]
    rfl

theorem update_possible {changes : Dict} : (Call.update key task owner revision changes note).Possible ↔
    isToken key = true ∧ isToken task = true ∧ isToken owner = true ∧ 1 ≤ revision ∧ noteFits note = true ∧
      (validateUpdateChanges (.obj changes)).isOk = true := by
  simp only [Call.Possible, Call.run, map_enqueued, enqueueUpdate, raiseIf_bind_ok, noteFits_iff]
  constructor
  · rintro ⟨store, receiptId, now, answer, checked, accepted⟩
    simp only [Bool.or_eq_false_iff, Bool.not_eq_false', decide_eq_false_iff_not] at checked ⊢
    obtain ⟨⟨⟨⟨⟨⟨keyed, tasked⟩, owned⟩, low⟩, some_⟩, short⟩, clean⟩ := checked
    refine ⟨keyed, tasked, owned, not_lt.mp low, ⟨⟨some_, short⟩, clean⟩, ?_⟩
    cases validated : validateUpdateChanges (.obj changes) with
    | ok fields => rfl
    | error fault =>
      rw [validated] at accepted
      cases accepted
  · rintro ⟨keyed, tasked, owned, low, noted, valid⟩
    let payload : Dict := [("changes", .obj (changes.insertionSort (fun a b => a.1 ≤ b.1))), ("expected_revision", .int revision),
      ("note", .str note), ("operation", .str "update"), ("owner", .str owner), ("project_id", .str ""), ("task", .str task)]
    have known : payload.get "operation" = .str "update" := rfl
    refine ⟨boundStore key task "update" revision payload, "", 0,
      (boundStore key task "update" revision payload, boundRow key task "update" revision payload), ?_, ?_⟩
    · rw [keyed, tasked, owned, decide_eq_false (not_lt.mpr low)]
      simpa using noted
    · rw [validateUpdateChanges_isOk.mp valid]
      exact enqueue_boundStore keyed tasked low known

theorem receipt_possible {receiptId : String} : (Call.receipt receiptId).Possible ↔ isIdentifier receiptId = true := by
  constructor
  · rintro ⟨store, own, now, effect, found⟩
    obtain ⟨row, read_, -⟩ := bind_eq_ok.mp found
    simpa using (raiseIf_bind_ok.mp read_).1
  · intro identified
    let row : Intent := ⟨receiptId, "", "", "", 0, "", "", .queuedLocal, none, none, none, none, none, none, none, 0⟩
    have located : Store.select ⟨"", [row]⟩ receiptId = some row := by
      rw [Store.select, Table.select]
      exact List.find?_cons_of_pos (decide_eq_true rfl)
    refine ⟨⟨"", [row]⟩, "", 0, .found row, ?_⟩
    rw [Call.run, Receipts.read, identified, Bool.not_true, raiseIf_false, located]
    rfl

end possible

/-! Changes in another order. -/

section order

variable {first second : Dict}

theorem validate_perm (distinct : (Dict.keys first).Nodup) (perm : first.Perm second) :
    (validateUpdateChanges (.obj second)).isOk = (validateUpdateChanges (.obj first)).isOk := by
  have has (key : String) : (Json.obj second).has key = (Json.obj first).has key := by
    change (Dict.find key second).isSome = (Dict.find key first).isSome
    rw [JsonText.find_perm distinct perm]
  have get (key : String) : (Json.obj second).get key = (Json.obj first).get key := by
    change (Dict.find key second).getD .null = (Dict.find key first).getD .null
    rw [JsonText.find_perm distinct perm]
  have any (p : String × Json → Bool) : (Json.obj second).fields.any p = (Json.obj first).fields.any p := by
    rw [Bool.eq_iff_iff, List.any_eq_true, List.any_eq_true]
    exact exists_congr fun entry => and_congr_left' perm.mem_iff.symm
  have empty : (Json.obj second).fields.isEmpty = (Json.obj first).fields.isEmpty := perm.isEmpty_eq.symm
  have object : (Json.obj second).isObj = (Json.obj first).isObj := rfl
  have answer (checked : Bool) (fault : Receipts.Fault) (fields : Dict) :
      (raiseIf checked fault >>= fun _ => (pure fields : Receipts.Outcome Dict)).isOk = !checked := by
    cases checked <;> rfl
  simp only [validateUpdateChanges, answer, has, get, any, empty, object]

/-- An update is stored with its changes sorted. -/
theorem update_perm {key task owner note : String} {revision : Int} (distinct : (Dict.keys first).Nodup) (perm : first.Perm second)
    (store : Store) (receiptId : String) (now : Nat) : (Call.update key task owner revision second note).run store receiptId now =
      (Call.update key task owner revision first note).run store receiptId now := by
  have valid := validate_perm distinct perm
  rw [Call.run, Call.run, enqueueUpdate, enqueueUpdate]
  cases left : validateUpdateChanges (.obj first) with
  | error fault =>
    cases right : validateUpdateChanges (.obj second) with
    | error other => rfl
    | ok fields =>
      rw [left, right] at valid
      cases valid
  | ok fields =>
    rw [left] at valid
    rw [validateUpdateChanges_isOk.mp valid]
    rw [validateUpdateChanges_isOk.mp (by rw [left]; rfl), Except.ok.injEq] at left
    rw [← left]
    simp only [Json.fields, JsonText.sorted_perm distinct perm]

end order

end Coordinator.FastCommands
